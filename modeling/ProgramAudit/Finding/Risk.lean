import ProgramAudit.Finding.Vulnerability

namespace ProgramAudit.Finding

open Program

structure Risk where
  issue : String
  implication : String
  mitigation : String
deriving DecidableEq

namespace Risk

def toJson (risk : Risk) : Json :=
  .obj [
    ("issue", .str risk.issue),
    ("implication", .str risk.implication),
    ("mitigation", .str risk.mitigation)]

def ofVulnerability (found : Vulnerability) : Risk where
  issue := s!"Vulnerability: {found.kind}"
  implication := found.details
  mitigation := s!"Address {found.severity.word} issue"

def reentrancy : Risk where
  issue := "Potential reentrancy risk"
  implication := "May allow unauthorized state changes"
  mitigation := "Audit for reentrancy guards"

def manyInstructions : Risk where
  issue := "High instruction count"
  implication := "Increased complexity may hide bugs"
  mitigation := "Conduct deep dive analysis"

/-- One risk for each vulnerability, and two that the profile itself shows. -/
def assess (profile : Option Profile) (found : List Vulnerability) : Result (List Risk) := do
  let profile ← Option.demand "reentrancy_risk" profile
  let risk ← Option.demand "rank" profile.reentrancyRisk
  return found.map ofVulnerability
    ++ (if Severity.moderate.rank ≤ risk.rank then [reentrancy] else [])
    ++ (if 1000 < profile.instructionCount then [manyInstructions] else [])

end Risk

end ProgramAudit.Finding
