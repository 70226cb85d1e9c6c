import ProgramAudit.Routine.Basic

/-! Attempts at a fetch that may fail for a while, with a delay before each further one. -/

namespace ProgramAudit.Routine

variable {τ σ α : Type} [Clock τ]

def retryOrigin : String := "solproof.chain.retry"

def retryRecord (operation : String) (attempt attempts : Nat) (message : String)
    (status : Option Int) : Journal.Record :=
  .make .warning retryOrigin "fetch_retry" [
    ("operation", .str operation),
    ("attempt", .int attempt),
    ("max_attempts", .int attempts),
    ("error", .str message),
    ("status_code", Json.ofOption .int status)]

def giveUpRecord (operation : String) (attempts : Nat) (message : String) : Journal.Record :=
  .make .error retryOrigin "fetch_give_up" [
    ("operation", .str operation),
    ("max_attempts", .int attempts),
    ("error", .str message)]

/-- The attempts that are left, one before each delay and one behind the last. -/
def attemptsFrom (operation : String) (sleep : Number → Routine τ σ Unit)
    (fetch : Routine τ σ α) (attempt attempts : Nat) : List Number → Routine τ σ α
  | [] => fetch.rescue fun failure =>
    match failure with
    | .transient message status => do
      note (retryRecord operation attempt attempts message status)
      note (giveUpRecord operation attempts message)
      fail (.transient s!"{operation} failed after {attempts} attempts: {message}" status)
    | other => fail other
  | delay :: delays => fetch.rescue fun failure =>
    match failure with
    | .transient message status => do
      note (retryRecord operation attempt attempts message status)
      sleep delay
      attemptsFrom operation sleep fetch (attempt + 1) attempts delays
    | other => fail other

/-- Tries again after each delay while the failure is transient. Every other failure ends it at
once, and the last transient one is told together with the number of attempts. -/
def retry (operation : String) (delays : List Number) (sleep : Number → Routine τ σ Unit)
    (fetch : Routine τ σ α) : Routine τ σ α :=
  attemptsFrom operation sleep fetch 1 (delays.length + 1) delays

end ProgramAudit.Routine
