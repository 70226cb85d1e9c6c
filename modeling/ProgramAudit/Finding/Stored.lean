import ProgramAudit.Finding.Risk
import ProgramAudit.Json.Field

/-! Findings and the policy of a scan read back from their written form. -/

namespace ProgramAudit.Finding

def ScanPolicy.ofJson (value : Json) : ScanPolicy :=
  let base : ScanPolicy := {}
  { complexityThreshold := value.intOr "complexity_threshold" base.complexityThreshold }

def Vulnerability.ofJson (value : Json) : Vulnerability where
  kind := value.textOr "type" ""
  severity := (Severity.ofWord? (value.textOr "severity" "Low")).getD .low
  details := value.textOr "details" ""
  confidence := value.intOr "confidence" 0
  mitigation := value.textOr "mitigation" ""

def Risk.ofJson (value : Json) : Risk where
  issue := value.textOr "issue" ""
  implication := value.textOr "implication" ""
  mitigation := value.textOr "mitigation" ""

end ProgramAudit.Finding
