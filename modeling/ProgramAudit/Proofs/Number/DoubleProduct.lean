import ProgramAudit.Number.Checked
import ProgramAudit.Proofs.Number.DoubleRange
import ProgramAudit.Proofs.Number.DoubleSum

/-!
Products that stay within the range of doubles. A product is the product of two mantissas, rounded, and
rounding moves the exponent by no more bits than there are: exponents far enough from the end of the
range never reach it.
-/

namespace ProgramAudit.Number

open Float.Model UnpackedFloat

variable {bound bound' exponent : Int} {mantissa : Nat} {x y : Float}

/-! ### Mantissas -/

theorem mantissa_lt {negative : Bool} (h : binaryOf x = .finite negative mantissa exponent) :
    mantissa < twoTo 53 := by
  have hfraction := (fractionField x).isLt
  have hhalf : twoTo 53 = 2 ^ 52 + twoTo 52 := rfl
  rw [binaryOf_eq] at h
  split_ifs at h
  all_goals
    injection h
    omega

/-! ### Products -/

theorem shiftRight_mantissa_le (extended : ExtendedMantissa) (shift : Nat) :
    (extended >>> shift).mantissa ≤ extended.mantissa := by
  induction shift with
  | zero => exact Nat.le_refl _
  | succ shift ih => exact (Nat.div_le_self _ 2).trans ih

theorem roundedMantissa_le (extended : ExtendedMantissa) :
    extended.roundedMantissa ≤ extended.mantissa + 1 := by
  obtain ⟨mantissa, roundBit, stickyBit⟩ := extended
  cases roundBit <;> cases stickyBit <;>
    simp [ExtendedMantissa.roundedMantissa, ExtendedMantissa.accuracy, Accuracy.roundToNearestEven]
  omega

/-- Shifting to the exponent of a double loses bits and moves the exponent by at most as many. -/
theorem shiftToTargetExponent_le {bits : Nat} (hmantissa : mantissa < twoTo bits) (hbits : 53 ≤ bits)
    (hexponent : exponent ≤ bound) (hbound : -1074 ≤ bound) :
    let shifted := shiftToTargetExponent Format.binary64 mantissa exponent .exact
    shifted.1.mantissa < twoTo bits ∧ shifted.2 ≤ bound + (bits - 53) := by
  have hlog := log2_lt_of_lt (by omega) hmantissa
  have htarget : Format.binary64.targetExponent (totalExponent mantissa exponent) ≤
      bound + (bits - 53) := by
    have hleast : Format.binary64.minExponent = -1074 := rfl
    have hwidth : (Format.binary64.mantissaBits : Int) = 53 := rfl
    rw [Format.targetExponent, hleast, hwidth, totalExponent]
    omega
  refine ⟨(shiftRight_mantissa_le _ _).trans_lt hmantissa, ?_⟩
  dsimp only [shiftToTargetExponent, shiftToExponent]
  omega

/-- Neither an infinity nor no number. -/
def Ordinary : UnpackedFloat → Prop
  | .zero _ => True
  | .finite .. => True
  | _ => False

theorem isFinite_iff_ordinary : isFinite x = true ↔ Ordinary x.toModel.unpack := by
  rw [isFinite, unpack_eq]
  cases binaryOf x with
  | finite negative mantissa exponent =>
      rw [Binary.unpacked]
      split_ifs <;> simp [Ordinary]
  | _ => simp [Binary.unpacked, Ordinary]

theorem ordinary_packComponents {sign : Sign} {exponent : BitVec 11} {fraction : BitVec 52}
    (h : exponent ≠ -1#11) : Ordinary (UnpackedFloat.unpack Format.binary64
      (packComponents Format.binary64 sign exponent fraction)) := by
  unfold UnpackedFloat.unpack
  simp only [unpackExponent_packComponents, unpackMantissa_packComponents, if_neg h]
  split_ifs <;> trivial

theorem ordinary_pack (hpositive : 0 < mantissa) (h : exponent ≤ 971) (sign : Sign) :
    Ordinary (UnpackedFloat.unpack Format.binary64
      (UnpackedFloat.pack Format.binary64 (.finite sign mantissa exponent hpositive))) := by
  have hbias : (Format.binary64.exponentBias : Int) = 1023 := rfl
  unfold UnpackedFloat.pack
  dsimp only
  split_ifs with hlarge hnormal
  · omega
  · refine ordinary_packComponents fun hlast => ?_
    have hfield := congrArg BitVec.toNat hlast
    simp at hfield
    omega
  · exact ordinary_packComponents (by decide)

theorem ordinary_roundWithAccuracy (sign : Sign) (hmantissa : mantissa < twoTo 106) (h : exponent ≤ 800) :
    Ordinary (UnpackedFloat.unpack Format.binary64 (UnpackedFloat.pack Format.binary64
      (roundWithAccuracy Format.binary64 sign mantissa exponent .exact))) := by
  have hfirst := shiftToTargetExponent_le hmantissa (by omega) h (by omega)
  unfold roundWithAccuracy
  generalize shiftToTargetExponent Format.binary64 mantissa exponent .exact = first at hfirst ⊢
  obtain ⟨extended, raised⟩ := first
  dsimp only at hfirst
  have hrounded : extended.roundedMantissa < twoTo 107 := by
    have hpower : twoTo 107 = 2 * twoTo 106 := by decide +kernel
    have hround := roundedMantissa_le extended
    omega
  have hsecond := shiftToTargetExponent_le hrounded (by omega) hfirst.2 (by omega)
  dsimp only at hsecond ⊢
  split_ifs with hzero
  · exact ordinary_packComponents (by decide)
  · exact ordinary_pack (Nat.pos_of_ne_zero hzero) (hsecond.2.trans (by omega)) sign

theorem isFinite_mul (hx : Bounded bound x) (hy : Bounded bound' y) (hle : bound + bound' ≤ 800) :
    isFinite (x * y) = true := by
  rw [isFinite_iff_ordinary, unpack_mul, unpack_eq, unpack_eq]
  obtain ⟨negative, mantissa, exponent, hbinary, hexponent⟩ := hx
  obtain ⟨negative', mantissa', exponent', hbinary', hexponent'⟩ := hy
  rw [hbinary, hbinary', Binary.unpacked, Binary.unpacked]
  split_ifs with hpositive hpositive'
  · rw [UnpackedFloat.mul]
    refine ordinary_roundWithAccuracy _ ?_ (by omega)
    calc mantissa * mantissa' < twoTo 53 * twoTo 53 :=
          Nat.mul_lt_mul'' (mantissa_lt hbinary) (mantissa_lt hbinary')
      _ = twoTo 106 := twoTo_mul 53 53
  all_goals exact ordinary_packComponents (by decide)

/-! ### Quantities -/

variable {ratio : Float} {number : Number}

theorem times_real (h : number.toReal? = some ratio) (x : Float) :
    number.times (.real x) = .ok (.real (ratio * x)) := by
  cases number with
  | int value =>
      rw [toReal?] at h
      simp only [times, mul?, join?, toReal?, h, orTooLarge]
  | real value =>
      cases h
      rfl

/-- A natural far below the range of doubles has a finite product with any ratio of no great exponent. -/
theorem times_bounded {count : Nat} (hcount : count < twoTo 60) (h : Bounded 400 ratio) :
    ∃ x, (Number.int count).times (.real ratio) = .ok (.real x) ∧ isFinite x = true := by
  have hnearest := bounded_nearestDouble (by omega) hcount (by omega) false
  have hdouble : (Number.int count).toReal? = some (nearestDouble false count 1) := by
    have hsign : decide ((count : Int) < 0) = false := by simp
    rw [toReal?, doubleOfInt?, hsign, Int.natAbs_natCast]
    exact if_pos hnearest.isFinite
  exact ⟨_, times_real hdouble ratio, isFinite_mul hnearest h (by decide)⟩

end ProgramAudit.Number
