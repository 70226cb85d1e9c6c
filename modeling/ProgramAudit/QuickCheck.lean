import ProgramAudit.Program.Image

namespace ProgramAudit

open Ledger Program

/-- A first look at a program: whether it exists, when it was last used, and whether it can be
changed. -/
structure QuickCheck where
  address : String
  active : Bool := false
  lastTransaction : Json := .null
  upgradeable : Bool := false
  imageAddress : Option String := none
  score : Int := 40
  computed : Bool := true

namespace QuickCheck

def isUpgradeable (account : Account) : Bool := account.owner == upgradeableLoader

/-- What an account and its newest transaction say about a program. -/
def ofReadings (address : String) (account : Option Account)
    (transactions : Option (List Transaction)) : QuickCheck :=
  let recent := transactions.getD []
  let loaded := account.filter isUpgradeable
  { address
    active := account.isSome
    lastTransaction := (recent.head?.map Transaction.blockTime).getD .null
    upgradeable := loaded.isSome
    imageAddress := loaded.bind fun account => pointerOf? account.data
    score := if account.isSome && !recent.isEmpty then 60 else 40 }

def unreachable (address : String) : QuickCheck := { address, computed := false }

def isUnreachable : Failure → Bool
  | .transient .. => true
  | .refused .. => true
  | _ => false

def failedRecord (address : String) (failure : Failure) : Journal.Record :=
  .make .warning "solproof.analysis.quick_check" "quick_check_failed"
    [("program", .str address), ("error", .str failure.text)]

variable {τ σ : Type} [Clock τ]

/-- Looks at a program; nothing is read for an invalid address. -/
def run (source : Source τ σ) (given : Json) : Routine τ σ QuickCheck := do
  let address ← Routine.ofResult (Address.validate given)
  let readings := Routine.both (source.account address) (source.transactions address 1)
  (readings.map fun (account, transactions) => ofReadings address account transactions).rescue
    fun failure =>
      if isUnreachable failure then do
        Routine.note (failedRecord address failure)
        return unreachable address
      else Routine.fail failure

def toJson (check : QuickCheck) : Json :=
  .obj [
    ("address", .str check.address),
    ("isActive", .bool check.active),
    ("lastTransaction", check.lastTransaction),
    ("isUpgradeable", .bool check.upgradeable),
    ("programDataAddress", Json.ofOption .str check.imageAddress),
    ("basicSafetyScore", .int check.score)]

end QuickCheck

end ProgramAudit
