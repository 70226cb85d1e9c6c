import ProgramAudit.Infix
import ProgramAudit.Score.Safety

namespace ProgramAudit.Report

open Finding

structure RankedRisk where
  kind : String
  severity : Severity
  details : String
  mitigation : String
deriving DecidableEq

namespace RankedRisk

def ofVulnerability (found : Vulnerability) : RankedRisk :=
  ⟨found.kind, found.severity, found.details, found.mitigation⟩

/-- A safety risk whose implication speaks of malice is a high one, every other one moderate. -/
def isMalicious (risk : Risk) : Bool :=
  isInfix "malicious".toList risk.implication.toList

def severityOf (risk : Risk) : Severity := if isMalicious risk then .high else .moderate

def ofRisk (risk : Risk) : RankedRisk :=
  ⟨risk.issue, severityOf risk, risk.implication, risk.mitigation⟩

def vulnerabilitiesOf (severity : Severity) (found : List Vulnerability) : List RankedRisk :=
  (found.filter fun found => decide (found.severity = severity)).map ofVulnerability

def risksOf (malicious : Bool) (risks : List Risk) : List RankedRisk :=
  (risks.filter fun risk => isMalicious risk == malicious).map ofRisk

/-- The most severe first; of one severity the vulnerabilities go before the safety risks. -/
def ranking (found : List Vulnerability) (safety : Score.Safety) : List RankedRisk :=
  vulnerabilitiesOf .critical found
    ++ vulnerabilitiesOf .high found ++ risksOf true safety.risks
    ++ vulnerabilitiesOf .moderate found ++ risksOf false safety.risks
    ++ vulnerabilitiesOf .low found

def toJson (ranked : RankedRisk) : Json :=
  .obj [
    ("type", .str ranked.kind),
    ("severity", .str ranked.severity.word),
    ("details", .str ranked.details),
    ("mitigation", .str ranked.mitigation)]

end RankedRisk

structure Breakdown where
  critical : Nat := 0
  high : Nat := 0
  moderate : Nat := 0
  low : Nat := 0
deriving DecidableEq

namespace Breakdown

def countOf (severity : Severity) (found : List Vulnerability) : Nat :=
  found.countP fun found => decide (found.severity = severity)

def ofFindings (found : List Vulnerability) (safety : Score.Safety) : Breakdown :=
  let malicious := safety.risks.countP RankedRisk.isMalicious
  { critical := countOf .critical found
    high := countOf .high found + malicious
    moderate := countOf .moderate found + (safety.risks.length - malicious)
    low := countOf .low found }

def toJson (breakdown : Breakdown) : Json :=
  .obj [
    ("critical", .int breakdown.critical),
    ("high", .int breakdown.high),
    ("moderate", .int breakdown.moderate),
    ("low", .int breakdown.low)]

end Breakdown

/-- The level of risk that a safety score stands for. -/
def riskLevel (score : Int) : String :=
  if score < 50 then "High" else if score < 80 then "Moderate" else "Low"

end ProgramAudit.Report
