import ProgramAudit.Control.Authority
import ProgramAudit.Traffic.CallGraph

namespace ProgramAudit.Control

/-- The trust in a program with several keys or with one, and what votes add to it. -/
structure GovernancePolicy where
  decentralizedTrust : Int := 70
  centralizedTrust : Int := 50
  votingBonus : Int := 10
  maxTrust : Int := 100

structure Governance where
  form : String
  trustScore : Int
  details : List String := []
  computed : Bool := true

namespace Governance

def neutral : Governance := { form := "Unknown", trustScore := 50, computed := false }

def hasVotes (graph : Traffic.CallGraph) : Bool :=
  graph.hasAction Traffic.Kind.governance.word

/-- Several keys make a program decentralised, and votes among its calls raise the trust. -/
def infer (policy : GovernancePolicy) (authorities : List Authority)
    (graph : Option Traffic.CallGraph) : Result Governance := do
  let graph ← Option.demand "edges" graph
  let several := decide (1 < authorities.length)
  let trust := if several then policy.decentralizedTrust else policy.centralizedTrust
  let bonus := if hasVotes graph then policy.votingBonus else 0
  return {
    form := if several then "Decentralized" else "Centralized"
    trustScore := min policy.maxTrust (trust + bonus)
    details :=
      [if several then "Multiple authorities detected" else "Single authority detected"]
      ++ (if hasVotes graph then ["Voting interactions observed"] else []) }

def toJson (governance : Governance) : Json :=
  .obj [
    ("type", .str governance.form),
    ("trustScore", .int governance.trustScore),
    ("details", Json.strings governance.details)]

end Governance

end ProgramAudit.Control
