import ProgramAudit.Control.Authority
import ProgramAudit.Finding.Risk
import ProgramAudit.Score.Clamp
import ProgramAudit.Traffic.CallGraph
import ProgramAudit.Traffic.Economics

/-! The safety score: a baseline, less a penalty for each risk that is listed. -/

namespace ProgramAudit.Score

open Finding

/-- The score without risks, and what each risk takes away from it. -/
structure SafetyPolicy where
  baseline : Int := 80
  hiddenMintPenalty : Int := 20
  singleAuthorityPenalty : Int := 10
  suspiciousVolumePenalty : Int := 15
  suspiciousVolumeRatio : Number := 0.5
  complexGraphPenalty : Int := 10
  complexGraphEdges : Int := 50

structure Safety where
  score : Int
  risks : List Risk := []
  computed : Bool := true

namespace Safety

def neutral : Safety := { score := 50, computed := false }

def hiddenMint : Risk :=
  ⟨"Potential unchecked minting", "Risk of unauthorized token issuance",
    "Verify minting constraints"⟩

def singleAuthority : Risk :=
  ⟨"Single authority", "Centralization risk", "Monitor authority actions"⟩

def suspiciousVolume : Risk :=
  ⟨"High suspicious volume", "Potential laundering", "Trace top accounts"⟩

def complexGraph : Risk :=
  ⟨"Complex interactions", "Increased risk of hidden logic", "Review call graph"⟩

/-- A risk signal: whether it is there, the risk that it stands for, and its penalty. -/
structure Signal where
  holds : Bool
  risk : Risk
  penalty : Int

/-- More than a share of the volume is suspicious. -/
def isSuspicious (ratio : Number) (economics : Traffic.Economics) : Result Bool := do
  return (← economics.totalVolume.times ratio).less economics.suspiciousVolume

def signals (policy : SafetyPolicy) (profile : Program.Profile)
    (authorities : List Control.Authority) (suspicious : Bool) (graph : Traffic.CallGraph) :
    List Signal :=
  [⟨profile.hiddenMint, hiddenMint, policy.hiddenMintPenalty⟩,
    ⟨authorities.length == 1, singleAuthority, policy.singleAuthorityPenalty⟩,
    ⟨suspicious, suspiciousVolume, policy.suspiciousVolumePenalty⟩,
    ⟨decide (policy.complexGraphEdges < graph.edges.length), complexGraph,
      policy.complexGraphPenalty⟩]

/-- The score is the baseline without the penalties of the signals that hold. -/
def ofSignals (baseline : Int) (signals : List Signal) : Safety :=
  let held := signals.filter Signal.holds
  { score := clamp (baseline - Number.total (held.map Signal.penalty)), risks := held.map Signal.risk }

def assess (policy : SafetyPolicy) (profile : Option Program.Profile)
    (authorities : List Control.Authority) (economics : Option Traffic.Economics)
    (graph : Option Traffic.CallGraph) : Result Safety := do
  let profile ← Option.demand "hidden_mint_signal" profile
  let economics ← Option.demand "suspicious_volume_sol" economics
  let suspicious ← isSuspicious policy.suspiciousVolumeRatio economics
  let graph ← Option.demand "edges" graph
  return ofSignals policy.baseline (signals policy profile authorities suspicious graph)

def record (profile : Option Program.Profile) (safety : Safety) : Journal.Record :=
  .make .debug "solproof.analysis.safety" "safety_assessed" [
    ("program", Json.ofOption (fun profile => .str profile.address) profile),
    ("score", .int safety.score),
    ("risks", .int safety.risks.length)]

def toJson (safety : Safety) : Json :=
  .obj [
    ("safetyScore", .int safety.score),
    ("risks", .arr (safety.risks.map Risk.toJson)),
    ("computed", .bool safety.computed)]

end Safety

end ProgramAudit.Score
