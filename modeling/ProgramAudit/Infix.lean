namespace ProgramAudit

variable {α : Type} [BEq α]

/-- The run stands somewhere in the list as one contiguous piece. -/
def isInfix (run : List α) : List α → Bool
  | [] => run.isEmpty
  | item :: rest => run.isPrefixOf (item :: rest) || isInfix run rest

theorem isInfix_iff [LawfulBEq α] {run list : List α} : isInfix run list = true ↔ run <:+: list := by
  induction list with
  | nil => simp [isInfix]
  | cons item rest ih =>
      rw [isInfix, Bool.or_eq_true, List.isPrefixOf_iff_prefix, ih, List.infix_cons_iff]

/-- What stands before the first place of a run, if it stands anywhere. -/
def before? (run : List α) : List α → Option (List α)
  | [] => if run.isEmpty then some [] else none
  | item :: rest =>
    if run.isPrefixOf (item :: rest) then some [] else (before? run rest).map (item :: ·)

end ProgramAudit
