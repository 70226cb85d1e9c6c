import ProgramAudit.Program.Image
import ProgramAudit.Traffic.Kind

namespace ProgramAudit.Traffic

open Ledger

structure Upgrade where
  signature : Json
  timestamp : Json

namespace Upgrade

def isUpgrade (instruction : Instruction) : Bool :=
  instruction.programId == Program.upgradeableLoader && instruction.parsedType == some "upgrade"

def ofTransaction? (transaction : Transaction) : Option Upgrade :=
  if transaction.instructions.any isUpgrade then
    some ⟨transaction.signature, transaction.blockTime⟩
  else none

def ofWindow (window : List Classified) : List Upgrade :=
  window.filterMap fun classified => ofTransaction? classified.transaction

def records (upgrades : List Upgrade) : List Journal.Record :=
  match upgrades with
  | [] => []
  | latest :: _ => [.make .info "solproof.analysis.upgrade_history" "program_upgrades_found"
      [("count", .int upgrades.length), ("latest", latest.signature)]]

def toJson (upgrade : Upgrade) : Json :=
  .obj [
    ("signature", upgrade.signature),
    ("timestamp", upgrade.timestamp),
    ("changes", Json.strings ["Program binary updated"])]

end Upgrade

end ProgramAudit.Traffic
