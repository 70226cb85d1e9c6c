import ProgramAudit.Address.Basic
import ProgramAudit.Ledger.Source
import ProgramAudit.Number.Checked
import ProgramAudit.Number.Statistics

/-! The keys that may change a program, and what is known about each. -/

namespace ProgramAudit.Control

open Ledger

/-- What is known about a key that may change a program. Its balance stands for what it has
withdrawn. -/
structure Authority where
  address : String
  balance : Float
  walletAge : Int
  mintCount : Option Int := none

namespace Authority

def secondsPerDay : Nat := 86400

def wholeDays : Number → Result Int
  | .int span => .ok (Int.fdiv span secondsPerDay)
  | .real span =>
    match Number.floorQuotient? span secondsPerDay with
    | some days => .ok days
    | none => .error (.invalidValue "cannot convert float NaN to integer")

/-- The age of a wallet in days; none without history or for times to come. -/
def walletAgeOf (lastTime : Json) (now : Number) : Result Int :=
  if lastTime.isNull then .ok 0
  else
    match lastTime.number? with
    | some time => do
      return max 0 (← wholeDays (← now.minus time))
    | none => .error (.wrongType
        s!"unsupported operand type(s) for -: '{(Json.ofNumber now).kindName}' and '{lastTime.kindName}'")

def balanceOf : Option Account → Result Float
  | some account => account.balance
  | none => .ok 0.0

/-- The time of the newest transaction, null if there is none. -/
def lastTimeOf (transactions : Option (List Transaction)) : Json :=
  match transactions with
  | some (newest :: _) => newest.blockTime
  | _ => .null

/-- What an account and its newest transaction say about a key. -/
def ofReadings (address : String) (now : Number) (account : Option Account)
    (transactions : Option (List Transaction)) : Result Authority := do
  let balance ← balanceOf account
  let walletAge ← walletAgeOf (lastTimeOf transactions) now
  return { address, balance, walletAge }

variable {τ σ : Type} [Clock τ]

def fetch (source : Source τ σ) (now : Number) (address : String) : Routine τ σ Authority := do
  let (account, transactions) ← Routine.both (source.account address)
    (source.transactions address 1)
  Routine.ofResult (ofReadings address now account transactions)

/-- Profiles the distinct valid candidates at once, in their order. -/
def fetchAll (source : Source τ σ) (now : Number) (candidates : List (Option String)) :
    Routine τ σ (List Authority) := do
  let addresses := Address.distinct candidates
  if addresses.isEmpty then return []
  else
    let found ← Routine.all (addresses.map (fetch source now))
    Routine.note (.make .debug "solproof.analysis.authority" "authorities_profiled"
      [("count", .int found.length)])
    return found

def toJson (authority : Authority) : Json :=
  .obj [
    ("authority", .str authority.address),
    ("totalSOLWithdrawn", .real authority.balance),
    ("walletAgeDays", .int authority.walletAge),
    ("tokenMintCount", Json.ofOption .int authority.mintCount)]

end Authority

end ProgramAudit.Control
