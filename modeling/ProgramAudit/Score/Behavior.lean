import ProgramAudit.Score.Safety
import ProgramAudit.Traffic.DeepDive

namespace ProgramAudit.Score

open Program Traffic

/-- What each signal adds to the likelihoods, and the bounds at which signals hold. -/
structure BehaviorPolicy where
  baseScore : Int := 10
  hiddenMintDelta : Int := 30
  suspiciousVolumeDelta : Int := 20
  suspiciousVolumeRatio : Number := 0.5
  lowActivityDelta : Int := 20
  lowActivityTransactions : Int := 10
  lowActivityVolume : Number := 100.0
  singleAuthorityDelta : Int := 10
  concentrationDelta : Int := 25
  volatilityDelta : Int := 20
  othersDelta : Int := 15
  othersRatio : Number := 0.3
  invocationDelta : Int := 10
  invocationInstructions : Int := 500
  swapMajority : Number := 0.5
  nftMajority : Number := 0.3

structure Behavior where
  scamProbability : Int
  launderingLikelihood : Int
  confidence : Table String Int
  computed : Bool := true

namespace Behavior

def neutral : Behavior where
  scamProbability := 10
  launderingLikelihood := 10
  confidence := [("unknown", 100)]
  computed := false

structure Signal where
  holds : Bool
  delta : Int

/-- The likelihood is the base with what the signals that hold add to it. -/
def likelihood (base : Int) (signals : List Signal) : Int :=
  clamp (base + Number.total ((signals.filter Signal.holds).map Signal.delta))

/-- A large volume in few transactions. -/
def isSparse (policy : BehaviorPolicy) (economics : Economics) : Bool :=
  decide (economics.transactionCount < policy.lowActivityTransactions)
    && policy.lowActivityVolume.less economics.totalVolume

def scamSignals (policy : BehaviorPolicy) (profile : Profile) (economics : Economics) :
    Result (List Signal) := do
  let suspicious ← Safety.isSuspicious policy.suspiciousVolumeRatio economics
  let candidates ← profile.demandCandidates
  return [
    ⟨profile.hiddenMint, policy.hiddenMintDelta⟩,
    ⟨suspicious, policy.suspiciousVolumeDelta⟩,
    ⟨isSparse policy economics, policy.lowActivityDelta⟩,
    ⟨candidates.length == 1, policy.singleAuthorityDelta⟩]

def launderingSignals (policy : BehaviorPolicy) (profile : Profile) (economics : Economics) :
    Result (List Signal) := do
  let others ← DeepDive.othersExceed policy.othersRatio economics
  let invokes ← profile.hasSyscall "sol_invoke"
  return [
    ⟨economics.tokenFlows.concentrationRisk, policy.concentrationDelta⟩,
    ⟨economics.volatility.high, policy.volatilityDelta⟩,
    ⟨others, policy.othersDelta⟩,
    ⟨invokes && decide (policy.invocationInstructions < profile.instructionCount),
      policy.invocationDelta⟩]

/-- More than a share of the transactions are of a kind. -/
def isMajority (kind : Kind) (ratio : Number) (economics : Economics) : Result Bool := do
  let bound ← Number.times (.int economics.transactionCount) ratio
  return bound.less (.int (economics.tally [kind]).count)

/-- The confidence in each category: a governance program first, then a majority of exchanges or
of new tokens. -/
def confidenceOf (policy : BehaviorPolicy) (category : Category) (economics : Economics) :
    Result (Table String Int) := do
  if category = .governance then return [("governance", 90), ("amm", 5), ("nft", 5)]
  else if ← isMajority .swap policy.swapMajority economics then
    return [("amm", 85), ("governance", 10), ("nft", 5)]
  else if ← isMajority .nftMint policy.nftMajority economics then
    return [("nft", 80), ("amm", 10), ("governance", 10)]
  else return [("unknown", 50), ("governance", 20), ("amm", 20), ("nft", 10)]

def infer (policy : BehaviorPolicy) (profile : Option Profile) (economics : Option Economics) :
    Result Behavior := do
  let profile ← Option.demand "hidden_mint_signal" profile
  let economics ← Option.demand "suspicious_volume_sol" economics
  let scam ← scamSignals policy profile economics
  let laundering ← launderingSignals policy profile economics
  let confidence ← confidenceOf policy profile.category economics
  return {
    scamProbability := likelihood policy.baseScore scam
    launderingLikelihood := likelihood policy.baseScore laundering
    confidence }

def toJson (behavior : Behavior) : Json :=
  .obj [
    ("scamProbability", .int behavior.scamProbability),
    ("launderingLikelihood", .int behavior.launderingLikelihood),
    ("programTypeConfidence",
      .obj (behavior.confidence.map fun entry => (entry.1, .int entry.2))),
    ("computed", .bool behavior.computed)]

end Behavior

end ProgramAudit.Score
