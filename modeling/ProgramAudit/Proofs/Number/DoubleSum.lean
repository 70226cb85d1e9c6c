import Mathlib
import ProgramAudit.Number.Binary
import ProgramAudit.Proofs.Number.DoubleOrder

/-!
Doubles that are no number. They are the ones that cannot be compared with themselves, all others are
in one order, and a sum is one of them only if an infinity meets the opposite one.
-/

namespace ProgramAudit.Number

open Float.Model

/-! ### Fields -/

def exponentField (x : Float) : BitVec 11 :=
  @UnpackedFloat.unpackExponent Format.binary64 x.toBits.toBitVec

def fractionField (x : Float) : BitVec 52 :=
  @UnpackedFloat.unpackMantissa Format.binary64 x.toBits.toBitVec

def isNegative (x : Float) : Bool := x.toBits.toNat / twoTo 63 == 1

theorem toNat_exponentField (x : Float) :
    (exponentField x).toNat = x.toBits.toNat / twoTo 52 % twoTo 11 := by
  simp [exponentField, UnpackedFloat.unpackExponent, Nat.shiftRight_eq_div_pow, twoTo]

theorem toNat_fractionField (x : Float) : (fractionField x).toNat = x.toBits.toNat % twoTo 52 := by
  simp [fractionField, UnpackedFloat.unpackMantissa, Nat.shiftRight_eq_div_pow, twoTo]

/-- What a double stands for, by its fields. -/
theorem binaryOf_eq (x : Float) : binaryOf x =
    if (exponentField x).toNat = 2047 then
      if (fractionField x).toNat = 0 then .infinite (isNegative x) else .undefined
    else if (exponentField x).toNat = 0 then .finite (isNegative x) (fractionField x).toNat (-1074)
    else .finite (isNegative x) (twoTo 52 + (fractionField x).toNat)
      (((exponentField x).toNat : Int) - 1075) := by
  rw [toNat_exponentField, toNat_fractionField]
  rfl

def signOf (negative : Bool) : UnpackedFloat.Sign := if negative then .negative else .positive

theorem unpackSign_eq (x : Float) : UnpackedFloat.Sign.ofBitVec
    (@UnpackedFloat.unpackSign Format.binary64 x.toBits.toBitVec) = signOf (isNegative x) := by
  have hbits : x.toBits.toNat < 2 ^ 64 := x.toBits.toNat_lt
  have hsign : (@UnpackedFloat.unpackSign Format.binary64 x.toBits.toBitVec).toNat =
      x.toBits.toNat / 2 ^ 63 := by
    simp [UnpackedFloat.unpackSign, Nat.shiftRight_eq_div_pow]
    omega
  have htwo : twoTo 63 = 2 ^ 63 := rfl
  simp only [UnpackedFloat.Sign.ofBitVec, signOf, isNegative, htwo, ← BitVec.toNat_inj, hsign,
    beq_iff_eq, BitVec.toNat_ofNat]
  split_ifs <;> first | rfl | omega

/-- A dyadic number, an infinity or nothing, as it is computed with. -/
def Binary.unpacked : Binary → UnpackedFloat
  | .undefined => .notANumber
  | .infinite negative => .infinity (signOf negative)
  | .finite negative mantissa exponent =>
    if h : 0 < mantissa then .finite (signOf negative) mantissa exponent h
    else .zero (signOf negative)

theorem toNat_one_append (fraction : BitVec 52) :
    (1#1 ++ fraction).toNat = twoTo 52 + fraction.toNat := by
  rw [BitVec.toNat_append, ← Nat.shiftLeft_add_eq_or_of_lt fraction.isLt]
  rfl

/-- A double is computed with as what it stands for. -/
theorem unpack_eq (x : Float) : x.toModel.unpack = (binaryOf x).unpacked := by
  have hones (field : BitVec 11) : field = -1#11 ↔ field.toNat = 2047 := by
    rw [← BitVec.toNat_inj]
    simp
  have hzeros {width : Nat} (field : BitVec width) : field = BitVec.ofNat width 0 ↔ field.toNat = 0 := by
    rw [← BitVec.toNat_inj]
    simp
  have hbias : (Format.binary64.exponentBias : Int) = 1023 := rfl
  change UnpackedFloat.unpack Format.binary64 x.toBits.toBitVec = _
  rw [UnpackedFloat.unpack, unpackSign_eq, binaryOf_eq]
  change (if exponentField x = -1#11 then _ else _) = _
  by_cases hspecial : (exponentField x).toNat = 2047
  · rw [if_pos ((hones _).mpr hspecial), if_pos hspecial]
    change (if fractionField x = 0#52 then _ else _) = _
    by_cases hnone : (fractionField x).toNat = 0
    · rw [if_pos ((hzeros _).mpr hnone), if_pos hnone]
      rfl
    · rw [if_neg (mt (hzeros _).mp hnone), if_neg hnone]
      rfl
  · rw [if_neg (mt (hones _).mp hspecial), if_neg hspecial]
    change (if exponentField x = 0#11 then _ else _) = _
    by_cases hsmall : (exponentField x).toNat = 0
    · rw [if_pos ((hzeros _).mpr hsmall), if_pos hsmall, Binary.unpacked]
      change (if _ : fractionField x = 0#52 then _ else _) = _
      by_cases hnone : (fractionField x).toNat = 0
      · rw [dif_pos ((hzeros _).mpr hnone), dif_neg (by omega)]
      · rw [dif_neg (mt (hzeros _).mp hnone), dif_pos (by omega)]
        congr 1
        change ((exponentField x).toNat : Int) - (1023 + 52) + 1 = -1074
        omega
    · have hpositive : 0 < twoTo 52 + (fractionField x).toNat := Nat.add_pos_left (by decide) _
      rw [if_neg (mt (hzeros _).mp hsmall), if_neg hsmall, Binary.unpacked, dif_pos hpositive]
      congr 1
      exact toNat_one_append (fractionField x)

/-! ### Doubles that are no number -/

variable {x y : Float} {left right : UnpackedFloat}

theorem isUndefined_iff : isUndefined x = true ↔ x.toModel.unpack = .notANumber := by
  rw [isUndefined, unpack_eq]
  cases binaryOf x with
  | finite negative mantissa exponent =>
      by_cases hpositive : 0 < mantissa <;> simp [Binary.unpacked, hpositive]
  | _ => simp [Binary.unpacked]

theorem rank?_eq_none : rank? left = none ↔ left = .notANumber := by
  cases left with
  | infinity sign => cases sign <;> simp [rank?]
  | finite sign => cases sign <;> simp [rank?]
  | _ => simp [rank?]

theorem exists_rank (h : isUndefined x = false) : ∃ rank, rank? x.toModel.unpack = some rank := by
  apply Option.ne_none_iff_exists'.mp
  intro hnone
  cases h.symm.trans (isUndefined_iff.mpr (rank?_eq_none.mp hnone))

theorem float_le_iff : x ≤ y ↔ ∃ rank rank', rank? x.toModel.unpack = some rank ∧
    rank? y.toModel.unpack = some rank' ∧ rank ≤ rank' := by
  rw [← unpacked_le_iff]
  exact decide_eq_true_iff

theorem float_le_total (hx : isUndefined x = false) (hy : isUndefined y = false) :
    x ≤ y ∨ y ≤ x := by
  obtain ⟨rank, hrank⟩ := exists_rank hx
  obtain ⟨rank', hrank'⟩ := exists_rank hy
  rcases le_total rank rank' with hle | hle
  · exact .inl (float_le_iff.mpr ⟨rank, rank', hrank, hrank', hle⟩)
  · exact .inr (float_le_iff.mpr ⟨rank', rank, hrank', hrank, hle⟩)

/-- What is at most something, or has something at most, is a number. -/
theorem not_isUndefined_of_le (h : x ≤ y) : isUndefined x = false ∧ isUndefined y = false := by
  obtain ⟨rank, rank', hrank, hrank', -⟩ := float_le_iff.mp h
  constructor
  · apply Bool.eq_false_iff.mpr
    intro hx
    cases hrank.symm.trans (rank?_eq_none.mpr (isUndefined_iff.mp hx))
  · apply Bool.eq_false_iff.mpr
    intro hy
    cases hrank'.symm.trans (rank?_eq_none.mpr (isUndefined_iff.mp hy))

/-! ### Strict order -/

theorem unpacked_compare_swap (left right : UnpackedFloat) :
    (left.compare right).map Ordering.swap = right.compare left := by
  cases left with
  | notANumber => cases right <;> simp [UnpackedFloat.compare]
  | zero sign =>
      cases right with
      | infinity sign' => cases sign' <;> rfl
      | finite sign' => cases sign' <;> rfl
      | _ => rfl
  | infinity sign =>
      cases right with
      | infinity sign' => cases sign <;> cases sign' <;> rfl
      | _ => cases sign <;> simp [UnpackedFloat.compare]
  | finite sign mantissa exponent h =>
      cases right with
      | infinity sign' => cases sign <;> cases sign' <;> rfl
      | finite sign' mantissa' exponent' h' =>
          have hexponents := Int.compare_swap exponent exponent'
          have hmantissas := Nat.compare_swap mantissa mantissa'
          cases sign <;> cases sign' <;>
            simp [UnpackedFloat.compare, Ordering.swap_then, hexponents, hmantissas]
      | _ => cases sign <;> rfl

theorem float_le_iff_compare :
    x ≤ y ↔ (x.toModel.unpack.compare y.toModel.unpack).any (·.isLE) = true := decide_eq_true_iff

/-- One double is less than another one if it is at most that, and the other one is not at most it. -/
theorem float_lt_iff : x < y ↔ x ≤ y ∧ ¬y ≤ x := by
  have hlt : x < y ↔ x.toModel.unpack.compare y.toModel.unpack = some .lt :=
    decide_eq_true_iff.trans beq_iff_eq
  rw [hlt, float_le_iff_compare, float_le_iff_compare,
    ← unpacked_compare_swap x.toModel.unpack y.toModel.unpack]
  cases x.toModel.unpack.compare y.toModel.unpack with
  | none => simp
  | some order => cases order <;> simp

theorem float_beq_iff : (x == y) = true ↔ x ≤ y ∧ y ≤ x := by
  have hbeq : (x == y) = true ↔ x.toModel.unpack.compare y.toModel.unpack = some .eq := by
    change (x.toModel.unpack.compare y.toModel.unpack == some .eq) = true ↔ _
    exact beq_iff_eq
  rw [hbeq, float_le_iff_compare, float_le_iff_compare,
    ← unpacked_compare_swap x.toModel.unpack y.toModel.unpack]
  cases x.toModel.unpack.compare y.toModel.unpack with
  | none => simp
  | some order => cases order <;> simp

theorem binaryOf_ne_of_infinity_lt (h : -infinity < x) : binaryOf x ≠ .infinite true := by
  intro hbinary
  have hleast : binaryOf (-infinity) = .infinite true := by decide +kernel
  have hsame : x.toModel.unpack = (-infinity).toModel.unpack := by
    rw [unpack_eq, unpack_eq, hbinary, hleast]
  obtain ⟨hle, hnot⟩ := float_lt_iff.mp h
  rw [float_le_iff, hsame] at hle hnot
  exact hnot hle

theorem not_lt_of_isUndefined (h : isUndefined x = true) : ¬x < y := by
  intro hlt
  cases h.symm.trans (not_isUndefined_of_le (float_lt_iff.mp hlt).1).1

theorem float_lt_of_lt_of_le {z : Float} (h : x < y) (h' : y ≤ z) : x < z := by
  obtain ⟨hle, hnot⟩ := float_lt_iff.mp h
  exact float_lt_iff.mpr ⟨float_le_trans hle h', fun hback => hnot (float_le_trans h' hback)⟩

/-! ### Sums -/

/-- What is rounded is a number. -/
theorem round_ne_notANumber (sign : UnpackedFloat.Sign) (mantissa : Nat) (exponent : Int) :
    UnpackedFloat.round Format.binary64 sign mantissa exponent ≠ .notANumber := by
  unfold UnpackedFloat.round UnpackedFloat.roundWithAccuracy
  dsimp only
  split_ifs <;> simp

theorem add_eq_notANumber (h : UnpackedFloat.add Format.binary64 left right = .notANumber) :
    left = .notANumber ∨ right = .notANumber ∨
      ∃ sign sign', left = .infinity sign ∧ right = .infinity sign' ∧ (sign == sign') = false := by
  cases left with
  | notANumber => exact .inl rfl
  | infinity sign =>
      cases right with
      | notANumber => exact .inr (.inl rfl)
      | infinity sign' =>
          refine .inr (.inr ⟨sign, sign', rfl, rfl, ?_⟩)
          change (if sign == sign' then _ else _) = _ at h
          split_ifs at h with hsigns
          exact Bool.eq_false_iff.mpr hsigns
      | _ => cases h
  | zero sign =>
      cases right with
      | notANumber => exact .inr (.inl rfl)
      | zero sign' =>
          change (if sign == sign' then _ else _) = _ at h
          split_ifs at h
      | _ => cases h
  | finite sign mantissa exponent hmantissa =>
      cases right with
      | notANumber => exact .inr (.inl rfl)
      | finite sign' mantissa' exponent' hmantissa' =>
          unfold UnpackedFloat.add UnpackedFloat.normalize at h
          dsimp only at h
          split at h
          · exact absurd h (round_ne_notANumber _ _ _)
          · cases h
          · exact absurd h (round_ne_notANumber _ _ _)
      | _ => cases h

theorem unpack_packComponents {sign : UnpackedFloat.Sign} {exponent : BitVec 11}
    {fraction : BitVec 52} (h : exponent ≠ -1#11 ∨ fraction = 0#52) :
    UnpackedFloat.unpack Format.binary64
      (UnpackedFloat.packComponents Format.binary64 sign exponent fraction) ≠ .notANumber := by
  unfold UnpackedFloat.unpack
  simp only [UnpackedFloat.unpackExponent_packComponents,
    UnpackedFloat.unpackMantissa_packComponents]
  rcases h with hexponent | rfl
  · rw [if_neg hexponent]
    split_ifs <;> simp
  · simp only [if_true]
    split_ifs <;> simp

/-- What is put into bits is no number afterwards only if it was none. -/
theorem unpack_pack_ne_notANumber (h : unpacked ≠ .notANumber) :
    UnpackedFloat.unpack Format.binary64 (UnpackedFloat.pack Format.binary64 unpacked) ≠
      .notANumber := by
  cases unpacked with
  | notANumber => exact absurd rfl h
  | infinity sign => exact unpack_packComponents (.inr rfl)
  | zero sign => exact unpack_packComponents (.inr rfl)
  | finite sign mantissa exponent hmantissa =>
      unfold UnpackedFloat.pack
      dsimp only
      split_ifs with hlarge hnormal
      · exact unpack_packComponents (.inr rfl)
      · refine unpack_packComponents (.inl fun heq => hlarge ?_)
        have hfield := congrArg BitVec.toNat heq
        simp at hfield ⊢
        omega
      · exact unpack_packComponents (.inl (by decide))

theorem exists_of_unpacked_eq_infinity {binary : Binary} {sign : UnpackedFloat.Sign}
    (h : binary.unpacked = .infinity sign) :
    ∃ negative, binary = .infinite negative ∧ signOf negative = sign := by
  cases binary with
  | undefined => cases h
  | infinite negative => exact ⟨negative, rfl, UnpackedFloat.infinity.inj h⟩
  | finite negative mantissa exponent =>
      rw [Binary.unpacked] at h
      split_ifs at h

theorem unpack_add (x y : Float) : (x + y).toModel.unpack =
    UnpackedFloat.unpack Format.binary64 (UnpackedFloat.pack Format.binary64
      (UnpackedFloat.add Format.binary64 x.toModel.unpack y.toModel.unpack)) := rfl

theorem unpack_mul (x y : Float) : (x * y).toModel.unpack =
    UnpackedFloat.unpack Format.binary64 (UnpackedFloat.pack Format.binary64
      (UnpackedFloat.mul Format.binary64 x.toModel.unpack y.toModel.unpack)) := rfl

/-- A sum of numbers is a number unless they are opposite infinities. -/
theorem not_isUndefined_add (hx : isUndefined x = false) (hy : isUndefined y = false)
    (h : ∀ negative, binaryOf x = .infinite negative → binaryOf y ≠ .infinite !negative) :
    isUndefined (x + y) = false := by
  apply Bool.eq_false_iff.mpr
  intro hsum
  rw [isUndefined_iff, unpack_add] at hsum
  have hadd : UnpackedFloat.add Format.binary64 x.toModel.unpack y.toModel.unpack =
      .notANumber := by
    by_contra hne
    exact unpack_pack_ne_notANumber hne hsum
  rcases add_eq_notANumber hadd with hleft | hright | ⟨sign, sign', hleft, hright, hsigns⟩
  · cases hx.symm.trans (isUndefined_iff.mpr hleft)
  · cases hy.symm.trans (isUndefined_iff.mpr hright)
  · rw [unpack_eq] at hleft hright
    obtain ⟨negative, hnegative, rfl⟩ := exists_of_unpacked_eq_infinity hleft
    obtain ⟨negative', hnegative', rfl⟩ := exists_of_unpacked_eq_infinity hright
    refine h negative hnegative (hnegative'.trans (congrArg Binary.infinite ?_))
    cases negative <;> cases negative' <;> first | rfl | cases hsigns

theorem isFinite_iff : isFinite x = true ↔
    isUndefined x = false ∧ ∀ negative, binaryOf x ≠ .infinite negative := by
  unfold isFinite isUndefined
  cases binaryOf x <;> simp

/-- Finite amounts may add up to an infinity, but never to no number. -/
theorem not_isUndefined_foldl_add {values : List Float} (hx : isUndefined x = false)
    (h : ∀ value ∈ values, isFinite value = true) :
    isUndefined (values.foldl (· + ·) x) = false := by
  induction values generalizing x with
  | nil => exact hx
  | cons value values ih =>
      obtain ⟨hvalue, hfinite⟩ := isFinite_iff.mp (h value List.mem_cons_self)
      exact ih (not_isUndefined_add hx hvalue fun negative _ => hfinite _)
        fun other hother => h other (List.mem_cons_of_mem value hother)

theorem unpack_pack_notANumber :
    UnpackedFloat.unpack Format.binary64 (UnpackedFloat.pack Format.binary64 .notANumber) =
      .notANumber := by
  rfl

/-- What is computed from no number is none. -/
theorem isUndefined_add (h : isUndefined x = true ∨ isUndefined y = true) :
    isUndefined (x + y) = true := by
  rw [isUndefined_iff, unpack_add]
  have hadd : UnpackedFloat.add Format.binary64 x.toModel.unpack y.toModel.unpack = .notANumber := by
    rcases h with hx | hy
    · rw [isUndefined_iff.mp hx, UnpackedFloat.add]
    · rw [isUndefined_iff.mp hy]
      cases x.toModel.unpack <;> rfl
  rw [hadd, unpack_pack_notANumber]

theorem isUndefined_mul (h : isUndefined y = true) : isUndefined (x * y) = true := by
  rw [isUndefined_iff, unpack_mul]
  have hmul : UnpackedFloat.mul Format.binary64 x.toModel.unpack y.toModel.unpack = .notANumber := by
    rw [isUndefined_iff.mp h]
    cases x.toModel.unpack <;> rfl
  rw [hmul, unpack_pack_notANumber]

theorem isUndefined_foldl_add {values : List Float}
    (h : isUndefined x = true ∨ ∃ value ∈ values, isUndefined value = true) :
    isUndefined (values.foldl (· + ·) x) = true := by
  induction values generalizing x with
  | nil => simpa using h
  | cons value values ih =>
      apply ih
      simp only [List.mem_cons, exists_eq_or_imp] at h
      rcases h with hx | hvalue | hrest
      · exact .inl (isUndefined_add (.inl hx))
      · exact .inl (isUndefined_add (.inr hvalue))
      · exact .inr hrest

end ProgramAudit.Number
