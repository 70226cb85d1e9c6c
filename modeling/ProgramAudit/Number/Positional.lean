namespace ProgramAudit.Number

/-- The digits of a natural in a radix, the highest first; zero has none. -/
def positional (radix n : Nat) : List Nat :=
  if radix < 2 ∨ n = 0 then [] else positional radix (n / radix) ++ [n % radix]
termination_by n
decreasing_by exact Nat.div_lt_self (by omega) (by omega)

/-- The natural that digits denote in a radix. -/
def ofPositional (radix : Nat) (digits : List Nat) : Nat :=
  digits.foldl (fun value digit => radix * value + digit) 0

theorem ofPositional_append_singleton (radix : Nat) (digits : List Nat) (digit : Nat) :
    ofPositional radix (digits ++ [digit]) = radix * ofPositional radix digits + digit := by
  simp [ofPositional]

theorem ofPositional_positional (radix n : Nat) (h : 2 ≤ radix) :
    ofPositional radix (positional radix n) = n := by
  induction n using Nat.strongRecOn with
  | ind n ih =>
    by_cases hzero : n = 0
    · simp [positional, hzero, ofPositional]
    · rw [positional, if_neg (by omega), ofPositional_append_singleton,
        ih (n / radix) (Nat.div_lt_self (by omega) (by omega)), Nat.div_add_mod]

theorem lt_of_mem_positional (radix n digit : Nat) (h : 2 ≤ radix)
    (hdigit : digit ∈ positional radix n) : digit < radix := by
  induction n using Nat.strongRecOn with
  | ind n ih =>
    by_cases hzero : n = 0
    · simp [positional, hzero] at hdigit
    · rw [positional, if_neg (by omega), List.mem_append] at hdigit
      rcases hdigit with hhead | hlast
      · exact ih (n / radix) (Nat.div_lt_self (by omega) (by omega)) hhead
      · have : digit = n % radix := by simpa using hlast
        exact this ▸ Nat.mod_lt n (by omega)

end ProgramAudit.Number
