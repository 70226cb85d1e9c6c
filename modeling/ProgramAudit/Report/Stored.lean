import ProgramAudit.Control.Stored
import ProgramAudit.Program.Stored
import ProgramAudit.Report.Document
import ProgramAudit.Score.Stored
import ProgramAudit.Traffic.Stored

/-! The parts of a report read back from their written form. -/

namespace ProgramAudit.Report

open Program Traffic Control Finding Score

namespace Inputs

def priceOfJson (value : Json) : Option Float :=
  match value.get? "solPriceUSD" with
  | some price => price.number?.map Number.toReal
  | none => some 0.0

def ofJson (value : Json) : Inputs where
  address := value.textOr "address" ""
  profile := (value.part? "profile").map Profile.ofJson
  economics := (value.part? "economics").map Economics.ofJson
  graph := (value.part? "graph").map CallGraph.ofJson
  authorities := (value.items? "authorities").map fun found => found.map Authority.ofJson
  governance := (value.part? "governance").map Governance.ofJson
  vulnerabilities :=
    (value.items? "vulnerabilities").map fun found => found.map Vulnerability.ofJson
  safety := (value.part? "safety").map Safety.ofJson
  behavior := (value.part? "behavior").map Behavior.ofJson
  prediction := (value.part? "prediction").map Prediction.ofJson
  fees := (value.part? "fees").map Fees.ofJson
  deepDive := (value.part? "deepDive").map DeepDive.ofJson
  assessedRisks := (value.items? "assessedRisks").map fun found => found.map Risk.ofJson
  interface := (value.part? "idl").map Interface.ofJson
  upgrades := (value.items? "upgrades").map fun found => found.map Upgrade.ofJson
  solPrice := priceOfJson value
  degraded := value.textsOr "degradedSections" []
  network := value.textOr "network" "mainnet"

end Inputs

end ProgramAudit.Report
