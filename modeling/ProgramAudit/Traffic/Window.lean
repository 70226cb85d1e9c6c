import ProgramAudit.Ledger.Source
import ProgramAudit.Routine.Retry
import ProgramAudit.Traffic.Kind
import ProgramAudit.Traffic.Timeframe

namespace ProgramAudit.Traffic

open Ledger

/-- How many transactions are asked for, how far back they may lie, and the delays before asking
again. -/
structure FetchPlan where
  limit : Int := 25
  timeframe : Option String := some "7d"
  retryDelays : List Number := [1.0, 2.0, 4.0, 8.0, 16.0]

namespace Window

variable {τ σ : Type} [Clock τ]

def origin : String := "solproof.analysis.transaction_classifier"

def loadedRecord (plan : FetchPlan) (address : String) (fetched kept : Nat) : Journal.Record :=
  .make .info origin "transactions_loaded" [
    ("program", .str address),
    ("fetched", .int fetched),
    ("kept", .int kept),
    ("timeframe", Json.ofOption .str plan.timeframe)]

/-- Fetches the transactions of a timeframe that ends now. The timeframe is checked before anything
is fetched. -/
def fetch (source : Source τ σ) (sleep : Number → Routine τ σ Unit) (plan : FetchPlan)
    (now : Number) (address : String) : Routine τ σ (List Transaction) := do
  let _ ← Routine.ofResult (Timeframe.seconds? plan.timeframe)
  let fetched := (← Routine.retry "get_transactions" plan.retryDelays sleep
    (source.transactions address plan.limit)).getD []
  let kept ← Routine.ofResult (Timeframe.filter plan.timeframe now fetched)
  Routine.note (loadedRecord plan address fetched.length kept.length)
  return kept

/-- Fetches transactions; none are there while the source cannot be reached. -/
def fetchIfReachable (source : Source τ σ) (sleep : Number → Routine τ σ Unit) (plan : FetchPlan)
    (now : Number) (address : String) : Routine τ σ (List Transaction) :=
  (fetch source sleep plan now address).rescue fun failure =>
    if failure.isTransient then do
      Routine.note (.make .warning origin "transactions_unavailable"
        [("program", .str address), ("error", .str failure.text)])
      return []
    else Routine.fail failure

def fetchClassified (source : Source τ σ) (sleep : Number → Routine τ σ Unit) (plan : FetchPlan)
    (policy : KindPolicy) (now : Number) (address : String) : Routine τ σ (List Classified) :=
  (fetch source sleep plan now address).map (classify policy address)

end Window

end ProgramAudit.Traffic
