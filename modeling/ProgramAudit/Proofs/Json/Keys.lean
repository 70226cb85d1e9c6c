import ProgramAudit.Json.Basic
import ProgramAudit.Proofs.Number.DoubleSum

/-!
Values as keys. Two numbers are one key if their exact values are the same, whether they are integers,
doubles or truth values.
-/

namespace ProgramAudit

namespace Number

open Float.Model

variable {x y : Float}

theorem twoTo_pos (exponent : Nat) : 0 < twoTo exponent := Nat.two_pow_pos exponent

/-- The mantissa of a double fits into 53 bits, and uses them all unless the exponent is the least. -/
theorem form_of_finite {negative : Bool} {mantissa : Nat} {exponent : Int}
    (h : binaryOf x = .finite negative mantissa exponent) :
    mantissa < 2 ^ 53 ∧ -1074 ≤ exponent ∧ (exponent = -1074 ∨ 2 ^ 52 ≤ mantissa) := by
  have hfraction : (fractionField x).toNat < 2 ^ 52 := (fractionField x).isLt
  have htwo : twoTo 52 = 2 ^ 52 := rfl
  rw [binaryOf_eq] at h
  split_ifs at h with hspecial hnone hsmall
  · cases h
    exact ⟨by omega, le_rfl, .inl rfl⟩
  · cases h
    exact ⟨by omega, by omega, .inr (by omega)⟩

/-- A mantissa that uses all its bits cannot be shifted further. -/
theorem shift_unique {mantissa mantissa' shift shift' : Nat} (hpositive : 0 < mantissa)
    (hmantissa : mantissa < 2 ^ 53) (hform' : shift' = 0 ∨ 2 ^ 52 ≤ mantissa')
    (h : mantissa * 2 ^ shift = mantissa' * 2 ^ shift') : shift' ≤ shift := by
  by_contra hlt
  have hsplit : 2 ^ shift' = 2 ^ (shift' - shift) * 2 ^ shift := by
    rw [← pow_add]
    congr 1
    omega
  rw [hsplit, ← mul_assoc] at h
  have hsame : mantissa = mantissa' * 2 ^ (shift' - shift) :=
    Nat.eq_of_mul_eq_mul_right (by positivity) h
  have htwice : 2 ^ 1 ≤ 2 ^ (shift' - shift) := Nat.pow_le_pow_right (by omega) (by omega)
  have hfull : 2 ^ 52 ≤ mantissa' := hform'.resolve_left (by omega)
  have hlarge : 2 ^ 52 * 2 ^ 1 ≤ mantissa' * 2 ^ (shift' - shift) := Nat.mul_le_mul hfull htwice
  omega

/-- What a number counts as when it is a key: its value in units of the least double, an infinity, or
nothing. -/
inductive Handle where
  | units (value : Int)
  | infinite (negative : Bool)
  | undefined
deriving DecidableEq

def Binary.handle : Binary → Handle
  | .finite negative mantissa exponent => .units (scaledValue negative mantissa exponent)
  | .infinite negative => .infinite negative
  | .undefined => .undefined

def handle : Number → Handle
  | .int value => .units (value * twoTo 1074)
  | .real x => (binaryOf x).handle

theorem handle_eq_undefined {number : Number} :
    number.handle = .undefined ↔ ∃ x, number = .real x ∧ isUndefined x = true := by
  cases number with
  | int value => exact ⟨nofun, fun ⟨_, h, _⟩ => nomatch h⟩
  | real x =>
      cases hbinary : binaryOf x <;> simp [handle, Binary.handle, isUndefined, hbinary]

/-- Doubles of one value are one in sign, mantissa and exponent, zeros apart. -/
theorem rank?_eq_iff_of_finite {negative negative' : Bool} {mantissa mantissa' : Nat}
    {exponent exponent' : Int} (hx : binaryOf x = .finite negative mantissa exponent)
    (hy : binaryOf y = .finite negative' mantissa' exponent') :
    rank? (binaryOf x).unpacked = rank? (binaryOf y).unpacked ↔
      (binaryOf x).handle = (binaryOf y).handle := by
  obtain ⟨hmantissa, hexponent, hform⟩ := form_of_finite hx
  obtain ⟨hmantissa', hexponent', hform'⟩ := form_of_finite hy
  obtain ⟨shift, rfl⟩ : ∃ shift : Nat, exponent = (shift : Int) - 1074 :=
    ⟨(exponent + 1074).toNat, by omega⟩
  obtain ⟨shift', rfl⟩ : ∃ shift : Nat, exponent' = (shift : Int) - 1074 :=
    ⟨(exponent' + 1074).toNat, by omega⟩
  have hsame : mantissa * 2 ^ shift = mantissa' * 2 ^ shift' ↔
      mantissa = 0 ∧ mantissa' = 0 ∨ mantissa = mantissa' ∧ shift = shift' := by
    constructor
    · intro h
      rcases Nat.eq_zero_or_pos mantissa with rfl | hpositive
      · have hzero : mantissa' * 2 ^ shift' = 0 := by omega
        exact .inl ⟨rfl, (mul_eq_zero.mp hzero).resolve_right (by positivity)⟩
      · have hpositive' : 0 < mantissa' := by
          rcases Nat.eq_zero_or_pos mantissa' with rfl | hpositive'
          · have hproduct : 0 < mantissa * 2 ^ shift := by positivity
            omega
          · exact hpositive'
        have hle := shift_unique hpositive hmantissa (hform'.imp_left (by omega)) h
        have hge := shift_unique hpositive' hmantissa' (hform.imp_left (by omega)) h.symm
        obtain rfl : shift = shift' := by omega
        exact .inr ⟨Nat.eq_of_mul_eq_mul_right (by positivity) h, rfl⟩
    · rintro (⟨rfl, rfl⟩ | ⟨rfl, rfl⟩)
      · simp
      · rfl
  have hvalue (negative : Bool) (mantissa shift : Nat) :
      scaledValue negative mantissa ((shift : Int) - 1074) =
        if negative then -((mantissa * 2 ^ shift : Nat) : Int) else (mantissa * 2 ^ shift : Nat) := by
    have hshift : ((shift : Int) - 1074 + 1074).toNat = shift := by omega
    rw [scaledValue, hshift]
    simp [twoTo]
  rw [hx, hy, Binary.handle, Binary.handle, hvalue, hvalue, Handle.units.injEq]
  generalize hleft : mantissa * 2 ^ shift = left at hsame ⊢
  generalize hright : mantissa' * 2 ^ shift' = right at hsame ⊢
  have hzero : left = 0 ↔ mantissa = 0 := by
    rw [← hleft]
    simp
  have hzero' : right = 0 ↔ mantissa' = 0 := by
    rw [← hright]
    simp
  rcases Nat.eq_zero_or_pos mantissa with hnone | hsome <;>
    rcases Nat.eq_zero_or_pos mantissa' with hnone' | hsome' <;>
    cases negative <;> cases negative' <;>
    simp [Binary.unpacked, rank?, signOf, *] <;> omega

theorem beq_iff_handle :
    (x == y) = true ↔ (binaryOf x).handle = (binaryOf y).handle ∧ isUndefined x = false := by
  have hranks : (x == y) = true ↔ ∃ rank, rank? (binaryOf x).unpacked = some rank ∧
      rank? (binaryOf y).unpacked = some rank := by
    rw [float_beq_iff, float_le_iff, float_le_iff, unpack_eq, unpack_eq]
    constructor
    · rintro ⟨⟨rank, rank', hrank, hrank', hle⟩, ⟨other', other, hother', hother, hge⟩⟩
      cases hrank.symm.trans hother
      cases hrank'.symm.trans hother'
      exact ⟨rank, hrank, hrank'.trans (congrArg some (le_antisymm hge hle))⟩
    · rintro ⟨rank, hrank, hrank'⟩
      exact ⟨⟨rank, rank, hrank, hrank', le_rfl⟩, ⟨rank, rank, hrank', hrank, le_rfl⟩⟩
  rw [hranks]
  cases hx : binaryOf x with
  | undefined => simp [isUndefined, hx, Binary.unpacked, rank?]
  | infinite negative =>
      cases hy : binaryOf y with
      | undefined => simp [Binary.unpacked, rank?, Binary.handle]
      | infinite negative' =>
          cases negative <;> cases negative' <;>
            simp [isUndefined, hx, Binary.unpacked, rank?, signOf, Binary.handle]
      | finite negative' mantissa' exponent' =>
          by_cases hpositive : 0 < mantissa' <;> cases negative <;> cases negative' <;>
            simp [Binary.unpacked, rank?, signOf, Binary.handle, hpositive]
  | finite negative mantissa exponent =>
      have hdefined : isUndefined x = false := by simp [isUndefined, hx]
      cases hy : binaryOf y with
      | undefined => simp [Binary.unpacked, rank?, Binary.handle]
      | infinite negative' =>
          by_cases hpositive : 0 < mantissa <;> cases negative <;> cases negative' <;>
            simp [Binary.unpacked, rank?, signOf, Binary.handle, hpositive]
      | finite negative' mantissa' exponent' =>
          obtain ⟨rank, hrank⟩ := exists_rank hdefined
          rw [unpack_eq] at hrank
          rw [← hx, ← hy, ← rank?_eq_iff_of_finite hx hy, hrank, and_iff_left hdefined]
          constructor
          · rintro ⟨other, hother, hrank'⟩
            exact hother.trans hrank'.symm
          · exact fun hsame => ⟨rank, rfl, hsame.symm⟩

theorem compareReal_eq_iff : compareReal x y = some .eq ↔ (x == y) = true := by
  unfold compareReal
  split_ifs with hless hgreater hsame
  · exact iff_of_false (by simp) fun h => (float_lt_iff.mp hless).2 (float_beq_iff.mp h).2
  · exact iff_of_false (by simp) fun h => (float_lt_iff.mp hgreater).2 (float_beq_iff.mp h).1
  · exact iff_of_true rfl hsame
  · exact iff_of_false (by simp) hsame

theorem handle_int (value : Int) : (Number.int value).handle = .units (value * twoTo 1074) := rfl

theorem compareMixed_eq_iff {value : Int} :
    compareMixed value y = some .eq ↔ (Number.int value).handle = (binaryOf y).handle := by
  unfold compareMixed
  rw [handle_int]
  generalize value * twoTo 1074 = units
  cases binaryOf y with
  | undefined => simp [Binary.handle]
  | infinite negative => cases negative <;> simp [Binary.handle]
  | finite negative mantissa exponent => simp [Binary.handle]

theorem handle_int_inj {value value' : Int} :
    (Number.int value).handle = (Number.int value').handle ↔ value = value' := by
  have hpositive : (0 : Int) < twoTo 1074 := Int.natCast_pos.mpr (twoTo_pos 1074)
  rw [handle_int, handle_int, Handle.units.injEq]
  exact Int.mul_eq_mul_right_iff hpositive.ne'

/-- Two numbers are the same if they count as the same, and as something. -/
theorem same_iff_handle {left right : Number} :
    left.same right = true ↔ left.handle = right.handle ∧ left.handle ≠ .undefined := by
  rw [same, beq_iff_eq]
  cases left with
  | int value =>
      cases right with
      | int value' =>
          have horder : compare? (.int value) (.int value') = some .eq ↔ value = value' := by
            simp [compare?]
          rw [horder, ← handle_int_inj]
          exact (and_iff_left nofun).symm
      | real y =>
          rw [compare?, compareMixed_eq_iff]
          exact (and_iff_left nofun).symm
  | real x =>
      cases right with
      | int value =>
          have hswap : (compareMixed value x).map Ordering.swap = some .eq ↔
              compareMixed value x = some .eq := by
            cases compareMixed value x with
            | none => simp
            | some order => cases order <;> simp
          rw [compare?, hswap, compareMixed_eq_iff]
          constructor
          · intro h
            exact ⟨h.symm, fun hundefined => nomatch h.trans hundefined⟩
          · exact fun h => h.1.symm
      | real y =>
          have hdefined : (Number.real x).handle ≠ .undefined ↔ isUndefined x = false := by
            rw [ne_eq, handle_eq_undefined]
            simp
          rw [compare?, compareReal_eq_iff, beq_iff_handle, hdefined]
          rfl

end Number

namespace Json

/-- What a value counts as when it is a key. Lists and objects are no keys. -/
inductive Handle where
  | null
  | number (handle : Number.Handle)
  | text (text : String)
  | unusable
deriving DecidableEq

def handle : Json → Handle
  | .null => .null
  | .bool value => .number (Number.int (if value then 1 else 0)).handle
  | .int value => .number (Number.int value).handle
  | .real x => .number (Number.real x).handle
  | .str text => .text text
  | .arr _ => .unusable
  | .obj _ => .unusable

variable {left right value : Json} {number : Number}

theorem handle_of_number? (h : value.number? = some number) :
    value.handle = .number number.handle := by
  cases value <;> simp_all [number?, handle]

theorem isUndefined_iff_handle (h : value.number? = some number) :
    value.isUndefined = true ↔ number.handle = .undefined := by
  rw [Number.handle_eq_undefined]
  cases value with
  | real x =>
      cases h
      simp [isUndefined]
  | bool value =>
      cases h
      exact iff_of_false Bool.false_ne_true fun ⟨_, hreal, _⟩ => nomatch hreal
  | int value =>
      cases h
      exact iff_of_false Bool.false_ne_true fun ⟨_, hreal, _⟩ => nomatch hreal
  | _ => cases h

theorem beq_eq_same {other : Number} (hleft : left.number? = some number)
    (hright : right.number? = some other) : (left == right) = number.same other := by
  have hequals : (left == right) = equalsNumber number right := by
    cases left with
    | bool value | int value | real value =>
        cases hleft
        rfl
    | _ => cases hleft
  rw [hequals, equalsNumber, hright]

theorem sameKey_of_number? {other : Number} (hleft : left.number? = some number)
    (hright : right.number? = some other) :
    left.sameKey right = true ↔ left.handle = right.handle := by
  rw [sameKey, Bool.or_eq_true, Bool.and_eq_true, beq_eq_same hleft hright, Number.same_iff_handle,
    isUndefined_iff_handle hleft, isUndefined_iff_handle hright, handle_of_number? hleft,
    handle_of_number? hright, Handle.number.injEq]
  constructor
  · rintro (⟨hsame, -⟩ | ⟨hnone, hnone'⟩)
    · exact hsame
    · exact hnone.trans hnone'.symm
  · intro hsame
    by_cases hnone : number.handle = .undefined
    · exact .inr ⟨hnone, hsame ▸ hnone⟩
    · exact .inl ⟨hsame, hnone⟩

/-- A number equals nothing else. -/
theorem not_sameKey_of_number? (hleft : left.number? = some number) (hright : right.number? = none) :
    left.sameKey right = false ∧ right.sameKey left = false ∧ left.handle ≠ right.handle := by
  cases left with
  | bool value | int value =>
      cases right with
      | bool value' | int value' | real value' => cases hright
      | _ => exact ⟨rfl, rfl, nofun⟩
  | real value =>
      cases right with
      | bool value' | int value' | real value' => cases hright
      | _ => exact ⟨Bool.and_false _, rfl, nofun⟩
  | _ => cases hleft

/-- Keys are told apart by what they count as. -/
theorem sameKey_iff (hleft : left.isKey = true) (hright : right.isKey = true) :
    left.sameKey right = true ↔ left.handle = right.handle := by
  cases hnumber : left.number? with
  | some number =>
      cases hother : right.number? with
      | some other => exact sameKey_of_number? hnumber hother
      | none =>
          obtain ⟨hsame, -, hne⟩ := not_sameKey_of_number? hnumber hother
          exact iff_of_false (hsame ▸ Bool.false_ne_true) hne
  | none =>
      cases hother : right.number? with
      | some other =>
          obtain ⟨-, hsame, hne⟩ := not_sameKey_of_number? hother hnumber
          exact iff_of_false (hsame ▸ Bool.false_ne_true) hne.symm
      | none =>
          cases left with
          | null =>
              cases right with
              | null => exact iff_of_true rfl rfl
              | str text => exact iff_of_false Bool.false_ne_true nofun
              | arr items | obj fields => cases hright
              | bool value | int value | real value => cases hother
          | str text =>
              cases right with
              | null => exact iff_of_false Bool.false_ne_true nofun
              | str text' =>
                  have hsame : (Json.str text).sameKey (.str text') = (text == text') :=
                    Bool.or_false _
                  rw [hsame, beq_iff_eq, handle, handle, Handle.text.injEq]
              | arr items | obj fields => cases hright
              | bool value | int value | real value => cases hother
          | arr items | obj fields => cases hleft
          | bool value | int value | real value => cases hnumber

end Json

end ProgramAudit
