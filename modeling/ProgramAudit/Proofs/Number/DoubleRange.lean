import ProgramAudit.Number.Basic
import ProgramAudit.Proofs.Number.DoubleSum

/-!
The range of doubles. A quotient is rounded under an exponent of its own size, to a mantissa of hardly
more bits than a double has. So quotients that are far enough from the end of the range have a finite
double, naturals of too many bits have none, and a reciprocal vanishes from one denominator on.
-/

namespace ProgramAudit.Number

open Float.Model UnpackedFloat

variable {bound exponent : Int} {mantissa numerator denominator n bits : Nat} {x : Float}

/-! ### Bits -/

/-- A finite double of at most a given exponent. -/
def Bounded (bound : Int) (x : Float) : Prop :=
  ∃ negative mantissa exponent, binaryOf x = .finite negative mantissa exponent ∧ exponent ≤ bound

theorem Bounded.isFinite (h : Bounded bound x) : isFinite x = true := by
  obtain ⟨negative, mantissa, exponent, hbinary, -⟩ := h
  rw [Number.isFinite, hbinary]

theorem Bounded.mono {bound' : Int} (h : Bounded bound x) (hle : bound ≤ bound') : Bounded bound' x := by
  obtain ⟨negative, mantissa, exponent, hbinary, hexponent⟩ := h
  exact ⟨negative, mantissa, exponent, hbinary, hexponent.trans hle⟩

theorem twoTo_mul (left right : Nat) : twoTo left * twoTo right = twoTo (left + right) :=
  (Nat.pow_add 2 left right).symm

theorem twoTo_le_twoTo {low high : Nat} (h : low ≤ high) : twoTo low ≤ twoTo high :=
  Nat.pow_le_pow_right (by omega) h

theorem le_log2 (hn : n ≠ 0) (h : twoTo bits ≤ n) : bits ≤ Nat.log2 n :=
  (Nat.le_log2 hn).mpr h

theorem log2_lt_of_lt (hbits : 0 < bits) (h : n < twoTo bits) : Nat.log2 n < bits := by
  by_cases hzero : n = 0
  · rwa [hzero, Nat.log2_zero]
  · exact (Nat.log2_lt hzero).mpr h

/-- Bits whose exponent field is below the last one are, under either sign, the bits of a double. -/
theorem toBits_ofBits (negative : Bool) (h : bits < 2047 * twoTo 52) :
    (Float.ofBits (UInt64.ofNat (signBit negative + bits))).toBits.toNat % twoTo 63 = bits := by
  have htwo : twoTo 52 = 2 ^ 52 := rfl
  have hwhole : twoTo 63 = 2 ^ 63 := rfl
  have hsign : signBit negative = 0 ∨ signBit negative = 2 ^ 63 := by
    cases negative
    · exact .inl rfl
    · exact .inr rfl
  generalize signBit negative = sign at hsign ⊢
  have hbits : (BitVec.ofNat 64 (sign + bits)).toNat = sign + bits := by
    rw [BitVec.toNat_ofNat, Nat.mod_eq_of_lt (by omega)]
  have hvalid : Format.binary64.Valid (BitVec.ofNat 64 (sign + bits)) := by
    refine ⟨fun hlast => ?_⟩
    have hfield := congrArg BitVec.toNat hlast
    simp [unpackExponent, Nat.shiftRight_eq_div_pow] at hfield
    omega
  change (pack Format.binary64
    (UnpackedFloat.unpack Format.binary64 (BitVec.ofNat 64 (sign + bits)))).toNat % twoTo 63 = bits
  rw [pack_unpack_of_valid hvalid, hbits, hwhole]
  omega

theorem toNat_exponentField_eq (x : Float) :
    (exponentField x).toNat = x.toBits.toNat % twoTo 63 / twoTo 52 := by
  rw [toNat_exponentField, ← twoTo_mul 52 11, Nat.mod_mul_right_div_self]

theorem bounded_of_toBits {field : Nat} (hfield : field < 2047)
    (h : x.toBits.toNat % twoTo 63 < (field + 1) * twoTo 52) : Bounded (field - 1074) x := by
  have hexponent : (exponentField x).toNat ≤ field := by
    rw [toNat_exponentField_eq]
    exact Nat.le_of_lt_succ (Nat.div_lt_of_lt_mul (by rwa [mul_comm]))
  have hbinary := binaryOf_eq x
  rw [if_neg (by omega)] at hbinary
  split_ifs at hbinary with hsmall
  · exact ⟨_, _, _, hbinary, by omega⟩
  · exact ⟨_, _, _, hbinary, by omega⟩

/-- A double is equal to zero if there are no bits but its sign. -/
theorem beq_zero_iff : (x == 0.0) = true ↔ x.toBits.toNat % twoTo 63 = 0 := by
  have hzero : (0.0 : Float).toModel.unpack = .zero .positive := by
    have hbinary : binaryOf 0.0 = .finite false 0 (-1074) := by decide +kernel
    rw [unpack_eq, hbinary]
    rfl
  have hbeq : (x == 0.0) = true ↔ x.toModel.unpack.compare (.zero .positive) = some .eq := by
    change (x.toModel.unpack.compare (0.0 : Float).toModel.unpack == some .eq) = true ↔ _
    rw [hzero, beq_iff_eq]
  have hfields : (exponentField x).toNat = 0 ∧ (fractionField x).toNat = 0 ↔
      x.toBits.toNat % twoTo 63 = 0 := by
    have hfirst : twoTo 52 = 2 ^ 52 := rfl
    have hwhole : twoTo 63 = 2 ^ 63 := rfl
    rw [toNat_exponentField_eq, toNat_fractionField, hfirst, hwhole]
    omega
  rw [hbeq, ← hfields, unpack_eq, binaryOf_eq]
  split_ifs with hlast hnone hfirst
  · cases isNegative x <;> simp [Binary.unpacked, signOf, UnpackedFloat.compare, hlast]
  · simp [Binary.unpacked, UnpackedFloat.compare, hnone]
  · rw [Binary.unpacked]
    split_ifs with hpositive
    · cases isNegative x <;> simp [signOf, UnpackedFloat.compare, hpositive.ne']
    · simp [UnpackedFloat.compare, hfirst, Nat.eq_zero_of_not_pos hpositive]
  · have hpositive : 0 < twoTo 52 + (fractionField x).toNat := Nat.add_pos_left (by decide) _
    rw [Binary.unpacked, dif_pos hpositive]
    cases isNegative x <;> simp [signOf, UnpackedFloat.compare, hfirst]

/-! ### Rounding -/

theorem le_roundQuotient (numerator denominator : Nat) :
    numerator / denominator ≤ roundQuotient numerator denominator := by
  unfold roundQuotient
  dsimp only
  split_ifs <;> omega

theorem roundQuotient_le (numerator denominator : Nat) :
    roundQuotient numerator denominator ≤ numerator / denominator + 1 := by
  unfold roundQuotient
  dsimp only
  split_ifs <;> omega

/-- A quotient of at most a half is rounded to nothing. -/
theorem roundQuotient_eq_zero_iff (h : 0 < denominator) :
    roundQuotient numerator denominator = 0 ↔ 2 * numerator ≤ denominator := by
  rcases Nat.lt_or_ge numerator denominator with hlt | hge
  · unfold roundQuotient
    dsimp only
    simp only [Nat.div_eq_of_lt hlt, Nat.mod_eq_of_lt hlt, Nat.zero_mod, if_true]
    split_ifs with hbelow habove
    · exact iff_of_true rfl hbelow.le
    · exact iff_of_false id (Nat.not_le.mpr habove)
    · exact iff_of_true rfl (Nat.not_lt.mp habove)
  · have hquotient : 0 < numerator / denominator := Nat.div_pos hge h
    have hround := le_roundQuotient numerator denominator
    omega

/-- The bits below the sign: a field for the exponent and a fraction. -/
def bitsOf (exponent : Int) (mantissa : Nat) : Nat :=
  if mantissa < twoTo 52 then mantissa else (exponent + 1074).toNat * twoTo 52 + mantissa

theorem bitsOf_eq_zero_iff : bitsOf exponent mantissa = 0 ↔ mantissa = 0 := by
  have hunit : 0 < twoTo 52 := Nat.two_pow_pos 52
  unfold bitsOf
  split_ifs <;> omega

/-- An exponent of the size of a quotient, and the mantissa to which the quotient is rounded under it. -/
structure Rounds (numerator denominator : Nat) (exponent : Int) (mantissa : Nat) : Prop where
  least : -1074 ≤ exponent
  above : (Nat.log2 numerator : Int) - Nat.log2 denominator - 53 ≤ exponent
  below : exponent ≤ max ((Nat.log2 numerator : Int) - Nat.log2 denominator - 52) (-1074)
  mantissa_eq : mantissa = roundQuotient (scaleByTwo numerator denominator (-exponent)).1
    (scaleByTwo numerator denominator (-exponent)).2

theorem nearestDouble_eq (negative : Bool) (numerator denominator : Nat) : ∃ exponent mantissa,
    Rounds numerator denominator exponent mantissa ∧ nearestDouble negative numerator denominator =
      Float.ofBits (UInt64.ofNat
        (signBit negative + min (2047 * twoTo 52) (bitsOf exponent mantissa))) := by
  refine ⟨_, _, ⟨?_, ?_, ?_, rfl⟩, by rw [Nat.min_def]; rfl⟩
  · exact le_max_right _ _
  · split_ifs <;> omega
  · split_ifs <;> omega

/-- The scaled quotient has hardly more bits than a mantissa. -/
theorem scaled_lt (hpositive : 0 < denominator)
    (h : (Nat.log2 numerator : Int) - Nat.log2 denominator - 53 ≤ exponent) :
    (scaleByTwo numerator denominator (-exponent)).1 /
      (scaleByTwo numerator denominator (-exponent)).2 < twoTo 54 := by
  have hnumerator : numerator < twoTo (Nat.log2 numerator + 1) := Nat.lt_log2_self
  have hdenominator : twoTo (Nat.log2 denominator) ≤ denominator := Nat.log2_self_le hpositive.ne'
  apply Nat.div_lt_of_lt_mul
  unfold scaleByTwo
  split_ifs with hup
  · calc numerator * twoTo (-exponent).toNat
        < twoTo (Nat.log2 numerator + 1) * twoTo (-exponent).toNat :=
          Nat.mul_lt_mul_of_pos_right hnumerator (Nat.two_pow_pos _)
      _ = twoTo (Nat.log2 numerator + 1 + (-exponent).toNat) := twoTo_mul _ _
      _ ≤ twoTo (Nat.log2 denominator + 54) := twoTo_le_twoTo (by omega)
      _ = twoTo (Nat.log2 denominator) * twoTo 54 := (twoTo_mul _ _).symm
      _ ≤ denominator * twoTo 54 := Nat.mul_le_mul_right _ hdenominator
  · calc numerator < twoTo (Nat.log2 numerator + 1) := hnumerator
      _ ≤ twoTo (Nat.log2 denominator + (- -exponent).toNat + 54) := twoTo_le_twoTo (by omega)
      _ = twoTo (Nat.log2 denominator) * twoTo (- -exponent).toNat * twoTo 54 := by
          rw [twoTo_mul, twoTo_mul]
      _ ≤ denominator * twoTo (- -exponent).toNat * twoTo 54 :=
          Nat.mul_le_mul_right _ (Nat.mul_le_mul_right _ hdenominator)

theorem Rounds.bitsOf_lt (h : Rounds numerator denominator exponent mantissa)
    (hpositive : 0 < denominator) :
    bitsOf exponent mantissa < ((exponent + 1078).toNat + 1) * twoTo 52 := by
  have hmantissa : mantissa ≤ twoTo 54 := by
    rw [h.mantissa_eq]
    exact (roundQuotient_le _ _).trans (scaled_lt hpositive h.above)
  have hleast := h.least
  have hunit : 0 < twoTo 52 := Nat.two_pow_pos 52
  have hfour : twoTo 54 = 4 * twoTo 52 := by decide +kernel
  have hfield : (exponent + 1078).toNat = (exponent + 1074).toNat + 4 := by omega
  rw [bitsOf, hfield, Nat.add_mul, Nat.add_mul, one_mul]
  split_ifs <;> omega

/-- A natural of few enough bits has a finite double, with either sign. -/
theorem bounded_nearestDouble (hbits : 0 < bits) (h : n < twoTo bits) (hmost : bits ≤ 1021)
    (negative : Bool) : Bounded (bits - 49) (nearestDouble negative n 1) := by
  obtain ⟨exponent, mantissa, hrounds, hdouble⟩ := nearestDouble_eq negative n 1
  have hlog := log2_lt_of_lt hbits h
  have hone : Nat.log2 1 = 0 := by decide
  have hleast := hrounds.least
  have hbelow := hrounds.below
  have hlt := hrounds.bitsOf_lt Nat.one_pos
  have hfinite : bitsOf exponent mantissa < 2047 * twoTo 52 :=
    hlt.trans_le (Nat.mul_le_mul_right _ (by omega))
  rw [Nat.min_eq_right hfinite.le] at hdouble
  have hlow : (nearestDouble negative n 1).toBits.toNat % twoTo 63 <
      ((exponent + 1078).toNat + 1) * twoTo 52 := by
    rw [hdouble, toBits_ofBits negative hfinite]
    exact hlt
  exact (bounded_of_toBits (by omega) hlow).mono (by omega)

/-- A natural of more than 1024 bits is past the doubles. -/
theorem not_isFinite_nearestDouble (h : 1024 ≤ Nat.log2 n) (negative : Bool) :
    isFinite (nearestDouble negative n 1) = false := by
  obtain ⟨exponent, mantissa, hrounds, hdouble⟩ := nearestDouble_eq negative n 1
  have hone : Nat.log2 1 = 0 := by decide
  have habove := hrounds.above
  have hbelow := hrounds.below
  have hn : n ≠ 0 := by
    rintro rfl
    simp at h
  have hpositive : 0 < exponent := by omega
  have hshift : exponent.toNat ≤ Nat.log2 n := by omega
  have hscaled : scaleByTwo n 1 (-exponent) = (n, twoTo exponent.toNat) := by
    rw [scaleByTwo, if_neg (by omega), neg_neg, one_mul]
  have hmantissa : twoTo (Nat.log2 n - exponent.toNat) ≤ mantissa := by
    rw [hrounds.mantissa_eq, hscaled]
    refine le_trans ?_ (le_roundQuotient _ _)
    have hunit : 0 < twoTo exponent.toNat := Nat.two_pow_pos _
    rw [Nat.le_div_iff_mul_le hunit, twoTo_mul, Nat.sub_add_cancel hshift]
    exact Nat.log2_self_le hn
  have hpast : 2047 * twoTo 52 ≤ bitsOf exponent mantissa := by
    have hnormal : twoTo 52 ≤ mantissa := (twoTo_le_twoTo (by omega)).trans hmantissa
    have hfield : 2045 * twoTo 52 ≤ (exponent + 1074).toNat * twoTo 52 :=
      Nat.mul_le_mul_right _ (by omega)
    rw [bitsOf, if_neg (Nat.not_lt.mpr hnormal)]
    -- Under the lower one of the two possible exponents the mantissa has a bit more.
    obtain hlow | hhigh : exponent + 53 = Nat.log2 n ∨ 972 ≤ exponent := by omega
    · have hgreater : twoTo 53 ≤ mantissa := (twoTo_le_twoTo (by omega)).trans hmantissa
      have htwice : twoTo 53 = 2 * twoTo 52 := by decide +kernel
      omega
    · have hhigher : 2046 * twoTo 52 ≤ (exponent + 1074).toNat * twoTo 52 :=
        Nat.mul_le_mul_right _ (by omega)
      omega
  rw [hdouble, Nat.min_eq_left hpast]
  cases negative <;> decide +kernel

/-- The reciprocal of a natural vanishes if it is at most half of the least double. -/
theorem nearestDouble_one_vanishes_iff (hpositive : 0 < denominator) :
    (nearestDouble false 1 denominator == 0.0) = true ↔ twoTo 1075 ≤ denominator := by
  obtain ⟨exponent, mantissa, hrounds, hdouble⟩ := nearestDouble_eq false 1 denominator
  have hone : Nat.log2 1 = 0 := by decide
  have hleast := hrounds.least
  have habove := hrounds.above
  have hbelow := hrounds.below
  have hfinite : bitsOf exponent mantissa < 2047 * twoTo 52 :=
    (hrounds.bitsOf_lt hpositive).trans_le (Nat.mul_le_mul_right _ (by omega))
  have hscaled : scaleByTwo 1 denominator (-exponent) = (twoTo (-exponent).toNat, denominator) := by
    rw [scaleByTwo, if_pos (by omega), one_mul]
  have hlog : denominator < twoTo (Nat.log2 denominator + 1) := Nat.lt_log2_self
  rw [hdouble, Nat.min_eq_right hfinite.le, beq_zero_iff, toBits_ofBits false hfinite]
  calc bitsOf exponent mantissa = 0 ↔ mantissa = 0 := bitsOf_eq_zero_iff
    _ ↔ twoTo ((-exponent).toNat + 1) ≤ denominator := by
        rw [hrounds.mantissa_eq, hscaled, roundQuotient_eq_zero_iff hpositive, ← twoTo_mul, mul_comm]
        rfl
    _ ↔ twoTo 1075 ≤ denominator := by
        obtain rfl | hmore : exponent = -1074 ∨ Nat.log2 denominator + 52 ≤ (-exponent).toNat := by omega
        · have hplaces : (- -1074 : Int).toNat + 1 = 1075 := rfl
          rw [hplaces]
        · have hover : denominator < twoTo ((-exponent).toNat + 1) :=
            hlog.trans_le (twoTo_le_twoTo (by omega))
          have hmost : twoTo ((-exponent).toNat + 1) ≤ twoTo 1075 := twoTo_le_twoTo (by omega)
          exact iff_of_false (Nat.not_le.mpr hover) (Nat.not_le.mpr (hover.trans_le hmost))

/-! ### Powers of ten -/

theorem tenTo_le_tenTo {low high : Nat} (h : low ≤ high) : tenTo low ≤ tenTo high :=
  Nat.pow_le_pow_right (by omega) h

theorem isFinite_tenTo_iff (exponent : Nat) :
    isFinite (nearestDouble false (tenTo exponent) 1) = true ↔ exponent < 309 := by
  constructor
  · intro h
    by_contra hlarge
    have hbits : 1024 ≤ Nat.log2 (tenTo exponent) := by
      have hpositive : tenTo exponent ≠ 0 := (Nat.pow_pos (by omega)).ne'
      have hpower : twoTo 1024 ≤ tenTo 309 := by decide +kernel
      exact le_log2 hpositive (hpower.trans (tenTo_le_tenTo (by omega)))
    cases h.symm.trans (not_isFinite_nearestDouble hbits false)
  · intro h
    -- The bound on the bits leaves out the last power only.
    obtain rfl | hless : exponent = 308 ∨ exponent ≤ 307 := by omega
    · decide +kernel
    · have hpower : tenTo 307 < twoTo 1021 := by decide +kernel
      have hless := (tenTo_le_tenTo hless).trans_lt hpower
      exact (bounded_nearestDouble (by omega) hless le_rfl false).isFinite

/-- An integer to the power of ten has a double if the power is below 309. -/
theorem doubleOfInt?_tenTo_eq_none {exponent : Nat} :
    doubleOfInt? (tenTo exponent : Nat) = none ↔ 309 ≤ exponent := by
  have hsign : decide (((tenTo exponent : Nat) : Int) < 0) = false := by simp
  have hiff := isFinite_tenTo_iff exponent
  rw [doubleOfInt?, Int.natAbs_natCast, hsign]
  split_ifs with hfinite
  · exact iff_of_false nofun (Nat.not_le.mpr (hiff.mp hfinite))
  · exact iff_of_true rfl (Nat.not_lt.mp (mt hiff.mpr hfinite))

/-- The reciprocal of a power of ten vanishes from the 324th on. -/
theorem vanishes_iff {exponent : Nat} :
    (nearestDouble false 1 (tenTo (min exponent 400)) == 0.0) = true ↔ 324 ≤ exponent := by
  have hpositive : 0 < tenTo (min exponent 400) := Nat.pow_pos (by omega)
  rw [nearestDouble_one_vanishes_iff hpositive]
  constructor
  · intro h
    by_contra hsmall
    have hpower : tenTo 323 < twoTo 1075 := by decide +kernel
    have hmost : tenTo (min exponent 400) ≤ tenTo 323 := tenTo_le_tenTo (by omega)
    exact Nat.not_le.mpr (hmost.trans_lt hpower) h
  · intro h
    have hpower : twoTo 1075 ≤ tenTo 324 := by decide +kernel
    exact hpower.trans (tenTo_le_tenTo (by omega))

theorem doubleOfInt?_eq_none_of_neg {value : Int} (h : doubleOfInt? value = none)
    (hnegative : value < 0) : 324 ≤ value.natAbs := by
  by_contra hsmall
  have hfew : 324 < twoTo 9 := by decide
  have hbounded := bounded_nearestDouble (by omega) ((Nat.not_le.mp hsmall).trans hfew) (by omega) true
  rw [doubleOfInt?, decide_eq_true hnegative, if_pos hbounded.isFinite] at h
  cases h

theorem isFinite_of_quotient? {numerator denominator : Int} {x : Float}
    (h : quotient? numerator denominator = some x) : isFinite x = true := by
  unfold quotient? at h
  dsimp only at h
  split_ifs at h with hzero hfinite
  · cases h
    decide +kernel
  · cases h
    exact hfinite

end ProgramAudit.Number
