import Mathlib

/-!
The order of doubles. Each double but the one that is no number has a rank, and one double is at most
another one exactly when the ranks say so; the order of the ranks is total.
-/

namespace ProgramAudit.Number

open Float.Model

/-- The sign with the infinities on the outside, then the exponent and the mantissa away from
zero. -/
abbrev Rank := Int ×ₗ Int ×ₗ Int

def rank? : UnpackedFloat → Option Rank
  | .notANumber => none
  | .infinity .negative => some (toLex (-2, toLex (0, 0)))
  | .finite .negative mantissa exponent _ => some (toLex (-1, toLex (-exponent, -mantissa)))
  | .zero _ => some (toLex (0, toLex (0, 0)))
  | .finite .positive mantissa exponent _ => some (toLex (1, toLex (exponent, mantissa)))
  | .infinity .positive => some (toLex (2, toLex (0, 0)))

variable {left right third : UnpackedFloat}

theorem isLE_then_compare (exponent exponent' : Int) (mantissa mantissa' : Nat) :
    ((compare exponent exponent').then (compare mantissa mantissa')).isLE = true ↔
      exponent < exponent' ∨ exponent = exponent' ∧ mantissa ≤ mantissa' := by
  rcases lt_trichotomy exponent exponent' with hlt | heq | hgt
  · simp [compare_lt_iff_lt.mpr hlt, hlt]
  · simp [heq, Nat.isLE_compare]
  · simp [compare_gt_iff_gt.mpr hgt, hgt.not_gt, hgt.ne']

theorem isGE_then_compare (exponent exponent' : Int) (mantissa mantissa' : Nat) :
    ((compare exponent exponent').then (compare mantissa mantissa')).isGE = true ↔
      exponent' < exponent ∨ exponent = exponent' ∧ mantissa' ≤ mantissa := by
  rcases lt_trichotomy exponent exponent' with hlt | heq | hgt
  · simp [compare_lt_iff_lt.mpr hlt, hlt.not_gt, hlt.ne]
  · simp [heq, Nat.isGE_compare]
  · simp [compare_gt_iff_gt.mpr hgt, hgt]

/-- By cases on the signs: finite doubles of one sign are compared by exponent and mantissa, and any
others by their kinds. -/
theorem unpacked_le_iff : left.le right = true ↔
    ∃ rank rank', rank? left = some rank ∧ rank? right = some rank' ∧ rank ≤ rank' := by
  cases left with
  | notANumber => cases right <;> simp [rank?, UnpackedFloat.le, UnpackedFloat.compare]
  | infinity sign =>
      cases sign <;> cases right with
      | infinity sign' =>
          cases sign' <;>
            simp [rank?, UnpackedFloat.le, UnpackedFloat.compare, Prod.Lex.toLex_le_toLex] <;> decide
      | finite sign' mantissa exponent h =>
          cases sign' <;>
            simp [rank?, UnpackedFloat.le, UnpackedFloat.compare, Prod.Lex.toLex_le_toLex]
      | _ => simp [rank?, UnpackedFloat.le, UnpackedFloat.compare, Prod.Lex.toLex_le_toLex]
  | zero sign =>
      cases right with
      | infinity sign' =>
          cases sign' <;>
            simp [rank?, UnpackedFloat.le, UnpackedFloat.compare, Prod.Lex.toLex_le_toLex]
      | finite sign' mantissa exponent h =>
          cases sign' <;>
            simp [rank?, UnpackedFloat.le, UnpackedFloat.compare, Prod.Lex.toLex_le_toLex]
      | _ => simp [rank?, UnpackedFloat.le, UnpackedFloat.compare]
  | finite sign mantissa exponent h =>
      cases sign <;> cases right with
      | infinity sign' =>
          cases sign' <;>
            simp [rank?, UnpackedFloat.le, UnpackedFloat.compare, Prod.Lex.toLex_le_toLex]
      | finite sign' mantissa' exponent' h' =>
          cases sign' <;>
            simp [rank?, UnpackedFloat.le, UnpackedFloat.compare, Prod.Lex.toLex_le_toLex,
              isLE_then_compare, isGE_then_compare]
      | _ => simp [rank?, UnpackedFloat.le, UnpackedFloat.compare, Prod.Lex.toLex_le_toLex]

theorem unpacked_le_trans (hleft : left.le right = true) (hright : right.le third = true) :
    left.le third = true := by
  obtain ⟨rank, middle, hrank, hmiddle, hle⟩ := unpacked_le_iff.mp hleft
  obtain ⟨middle', rank', hmiddle', hrank', hle'⟩ := unpacked_le_iff.mp hright
  cases hmiddle.symm.trans hmiddle'
  exact unpacked_le_iff.mpr ⟨rank, rank', hrank, hrank', hle.trans hle'⟩

theorem float_le_trans {first second third : Float} (h : first ≤ second) (h' : second ≤ third) :
    first ≤ third := by
  have hfirst : first.toModel.unpack.le second.toModel.unpack = true := of_decide_eq_true h
  have hsecond : second.toModel.unpack.le third.toModel.unpack = true := of_decide_eq_true h'
  exact decide_eq_true (unpacked_le_trans hfirst hsecond)

end ProgramAudit.Number
