import Mathlib.Data.List.Induction
import Mathlib.Tactic.ByContra
import Mathlib.Tactic.Ring
import ProgramAudit.Number.Positional

/-! Digits of a number have no leading zero, and digits without one are those of their number. -/

namespace ProgramAudit.Number

variable {radix : Nat}

theorem positional_zero (radix : Nat) : positional radix 0 = [] := by
  simp [positional]

theorem positional_step {n : Nat} (hradix : 2 ≤ radix) (hn : n ≠ 0) :
    positional radix n = positional radix (n / radix) ++ [n % radix] := by
  rw [positional, if_neg (by omega)]

theorem head?_positional_ne_zero (hradix : 2 ≤ radix) (n : Nat) :
    (positional radix n).head? ≠ some 0 := by
  induction n using Nat.strongRecOn with
  | ind n ih =>
      by_cases hn : n = 0
      · simp [hn, positional_zero]
      · rw [positional_step hradix hn, List.head?_append]
        cases hhead : (positional radix (n / radix)).head? with
        | some digit =>
            have hrest := ih (n / radix) (Nat.div_lt_self (by omega) (by omega))
            simpa [hhead] using hrest
        | none =>
            have hsmall : n / radix = 0 := by
              by_contra hlarge
              rw [positional_step hradix hlarge, List.head?_append] at hhead
              cases hrest : (positional radix (n / radix / radix)).head? <;> simp [hrest] at hhead
            have hlast : n % radix ≠ 0 := by
              intro hzero
              have := Nat.div_add_mod n radix
              simp [hsmall, hzero] at this
              omega
            simpa using hlast

/-- By induction from the last digit: it is the remainder, and the digits before it the quotient. -/
theorem positional_ofPositional (hradix : 2 ≤ radix) (digits : List Nat)
    (hdigits : ∀ digit ∈ digits, digit < radix) (hhead : digits.head? ≠ some 0) :
    positional radix (ofPositional radix digits) = digits := by
  induction digits using List.reverseRecOn with
  | nil => exact positional_zero radix
  | append_singleton digits last ih =>
      have hlast : last < radix := hdigits last (by simp)
      have hinit : ∀ digit ∈ digits, digit < radix := fun digit hdigit =>
        hdigits digit (List.mem_append_left _ hdigit)
      have hquotient : (radix * ofPositional radix digits + last) / radix =
          ofPositional radix digits := by
        rw [Nat.mul_add_div (by omega), Nat.div_eq_of_lt hlast, Nat.add_zero]
      have hremainder : (radix * ofPositional radix digits + last) % radix = last := by
        rw [Nat.mul_add_mod, Nat.mod_eq_of_lt hlast]
      cases digits with
      | nil =>
          have hne : last ≠ 0 := by simpa using hhead
          rw [ofPositional_append_singleton, positional_step hradix (by simp [ofPositional, hne]),
            hquotient, hremainder]
          simp [ofPositional, positional_zero]
      | cons first digits =>
          have hinduction := ih hinit (by simpa using hhead)
          have hne : ofPositional radix (first :: digits) ≠ 0 := by
            intro hzero
            rw [hzero, positional_zero] at hinduction
            cases hinduction
          have hpositive : radix * ofPositional radix (first :: digits) + last ≠ 0 := by
            have := Nat.mul_ne_zero (by omega : radix ≠ 0) hne
            omega
          rw [ofPositional_append_singleton, positional_step hradix hpositive, hquotient,
            hremainder, hinduction]

theorem length_positional_le (hradix : 2 ≤ radix) {count n : Nat} (hn : n < radix ^ count) :
    (positional radix n).length ≤ count := by
  induction count generalizing n with
  | zero =>
      have hzero : n = 0 := by simpa using hn
      simp [hzero, positional_zero]
  | succ count ih =>
      by_cases hzero : n = 0
      · simp [hzero, positional_zero]
      · have hquotient : n / radix < radix ^ count :=
          Nat.div_lt_of_lt_mul (by rwa [Nat.pow_succ'] at hn)
        rw [positional_step hradix hzero, List.length_append]
        simpa using ih hquotient

theorem ofPositional_lt (digits : List Nat) (hdigits : ∀ digit ∈ digits, digit < radix) :
    ofPositional radix digits < radix ^ digits.length := by
  induction digits using List.reverseRecOn with
  | nil => simp [ofPositional]
  | append_singleton digits last ih =>
      have hlast : last < radix := hdigits last (by simp)
      have hinit := ih fun digit hdigit => hdigits digit (List.mem_append_left _ hdigit)
      rw [ofPositional_append_singleton, List.length_append, List.length_singleton, Nat.pow_succ']
      calc radix * ofPositional radix digits + last
          < radix * ofPositional radix digits + radix := by omega
        _ = radix * (ofPositional radix digits + 1) := by ring
        _ ≤ radix * radix ^ digits.length := Nat.mul_le_mul_left _ hinit

theorem lt_length_positional (hradix : 2 ≤ radix) {count n : Nat} (hn : radix ^ count ≤ n) :
    count < (positional radix n).length := by
  induction count generalizing n with
  | zero =>
      have hpositive : n ≠ 0 := by
        rw [pow_zero] at hn
        omega
      simp [positional_step hradix hpositive]
  | succ count ih =>
      have hpositive : n ≠ 0 := by
        have := Nat.pow_pos (n := count + 1) (by omega : 0 < radix)
        omega
      have hquotient : radix ^ count ≤ n / radix := by
        rwa [Nat.le_div_iff_mul_le (by omega), ← Nat.pow_succ]
      rw [positional_step hradix hpositive, List.length_append, List.length_singleton]
      have := ih hquotient
      omega

/-- The first digit is worth a power of the radix, so a number without a leading zero has no fewer
digits than that power has. -/
theorem pow_le_ofPositional {digits : List Nat} (hhead : digits.head? ≠ some 0)
    (hne : digits ≠ []) : radix ^ (digits.length - 1) ≤ ofPositional radix digits := by
  induction digits using List.reverseRecOn with
  | nil => exact absurd rfl hne
  | append_singleton digits last ih =>
      rw [ofPositional_append_singleton, List.length_append, List.length_singleton]
      cases digits with
      | nil =>
          have hlast : last ≠ 0 := by simpa using hhead
          simp only [ofPositional, List.foldl_nil, List.length_nil, Nat.reduceAdd, Nat.sub_self,
            pow_zero]
          omega
      | cons first digits =>
          have hinit := ih (by simpa using hhead) (List.cons_ne_nil first digits)
          calc radix ^ ((first :: digits).length + 1 - 1)
              = radix * radix ^ ((first :: digits).length - 1) := by
                rw [← Nat.pow_succ', List.length_cons]
                rfl
            _ ≤ radix * ofPositional radix (first :: digits) := Nat.mul_le_mul_left _ hinit
            _ ≤ radix * ofPositional radix (first :: digits) + last := Nat.le_add_right _ _

end ProgramAudit.Number
