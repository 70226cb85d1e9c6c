import ProgramAudit.Routine.Concurrent

/-! Runs of a routine under a clock that moves only while it waits. -/

namespace ProgramAudit.Routine

variable {τ σ α : Type} [Clock τ]

/-- Where a run stands: the moment, the next turn, the shared state and the records so far, the last
one first. -/
structure Progress (τ σ : Type) where
  now : τ
  turn : Nat
  state : σ
  journal : List Journal.Record

/-- What a run comes to. Without an outcome the routine waits for a turn that never comes. -/
structure Outcome (τ σ α : Type) where
  result : Option (Result α)
  final : Progress τ σ

def later (left right : τ) : τ :=
  if Clock.notAfter left right then right else left

/-- Runs a routine on its own: waiting moves the clock to the turn that is due. -/
def run (progress : Progress τ σ) : Routine τ σ α → Outcome τ σ α
  | .halt => ⟨none, progress⟩
  | .settle result _ => ⟨some result, progress⟩
  | .act update next => run { progress with state := update progress.state } (next progress.state)
  | .record entry next => run { progress with journal := entry :: progress.journal } next
  | .moment next => run { progress with turn := progress.turn + 1 } (next progress.now progress.turn)
  | .wait due _ next =>
    match due progress.state with
    | some turn => run { progress with now := later progress.now turn.1 } next
    | none => ⟨none, progress⟩

end ProgramAudit.Routine
