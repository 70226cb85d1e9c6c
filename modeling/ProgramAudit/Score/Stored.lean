import ProgramAudit.Finding.Stored
import ProgramAudit.Score.Behavior
import ProgramAudit.Score.Prediction

/-! Scores and their policies read back from their written form. -/

namespace ProgramAudit.Score

def SafetyPolicy.ofJson (value : Json) : SafetyPolicy :=
  let base : SafetyPolicy := {}
  { baseline := value.intOr "baseline" base.baseline
    hiddenMintPenalty := value.intOr "hidden_mint_penalty" base.hiddenMintPenalty
    singleAuthorityPenalty := value.intOr "single_authority_penalty" base.singleAuthorityPenalty
    suspiciousVolumePenalty :=
      value.intOr "suspicious_volume_penalty" base.suspiciousVolumePenalty
    suspiciousVolumeRatio := value.numberOr "suspicious_volume_ratio" base.suspiciousVolumeRatio
    complexGraphPenalty := value.intOr "complex_graph_penalty" base.complexGraphPenalty
    complexGraphEdges := value.intOr "complex_graph_edges" base.complexGraphEdges }

def BehaviorPolicy.ofJson (value : Json) : BehaviorPolicy :=
  let base : BehaviorPolicy := {}
  { baseScore := value.intOr "base_score" base.baseScore
    hiddenMintDelta := value.intOr "hidden_mint_delta" base.hiddenMintDelta
    suspiciousVolumeDelta := value.intOr "suspicious_volume_delta" base.suspiciousVolumeDelta
    suspiciousVolumeRatio := value.numberOr "suspicious_volume_ratio" base.suspiciousVolumeRatio
    lowActivityDelta := value.intOr "low_activity_delta" base.lowActivityDelta
    lowActivityTransactions := value.intOr "low_activity_max_tx" base.lowActivityTransactions
    lowActivityVolume := value.numberOr "low_activity_min_volume_sol" base.lowActivityVolume
    singleAuthorityDelta := value.intOr "single_authority_delta" base.singleAuthorityDelta
    concentrationDelta := value.intOr "concentration_delta" base.concentrationDelta
    volatilityDelta := value.intOr "volatility_delta" base.volatilityDelta
    othersDelta := value.intOr "others_delta" base.othersDelta
    othersRatio := value.numberOr "others_ratio" base.othersRatio
    invocationDelta := value.intOr "invoke_scale_delta" base.invocationDelta
    invocationInstructions :=
      value.intOr "invoke_scale_min_instructions" base.invocationInstructions
    swapMajority := value.numberOr "swap_majority_ratio" base.swapMajority
    nftMajority := value.numberOr "nft_majority_ratio" base.nftMajority }

def RiskPolicy.ofJson (value : Json) : RiskPolicy :=
  let base : RiskPolicy := {}
  { baseLikelihood := value.intOr "base_likelihood" base.baseLikelihood
    volatilityDelta := value.intOr "volatility_delta" base.volatilityDelta
    singleAuthorityDelta := value.intOr "single_authority_delta" base.singleAuthorityDelta
    lowSafetyDelta := value.intOr "low_safety_delta" base.lowSafetyDelta
    lowSafetyThreshold := value.intOr "low_safety_threshold" base.lowSafetyThreshold
    highTier := value.intOr "high_tier" base.highTier
    moderateTier := value.intOr "moderate_tier" base.moderateTier }

def Safety.ofJson (value : Json) : Safety where
  score := value.intOr "safetyScore" Safety.neutral.score
  risks := (value.itemsOf "risks").map Finding.Risk.ofJson
  computed := value.boolOr "computed" true

namespace Behavior

def confidenceOfJson (value : Json) : Table String Int :=
  match value.get? "programTypeConfidence" with
  | some (.obj fields) => fields.map fun (word, share) => (word, share.integer?.getD 0)
  | _ => neutral.confidence

def ofJson (value : Json) : Behavior where
  scamProbability := value.intOr "scamProbability" neutral.scamProbability
  launderingLikelihood := value.intOr "launderingLikelihood" neutral.launderingLikelihood
  confidence := confidenceOfJson value
  computed := value.boolOr "computed" true

end Behavior

def RiskFactor.ofJson (value : Json) : RiskFactor :=
  ⟨value.textOr "issue" "", value.textOr "details" ""⟩

def Prediction.ofJson (value : Json) : Prediction where
  likelihood := value.intOr "riskLikelihood" neutral.likelihood
  outlook := value.textOr "prediction" neutral.outlook
  factors := (value.itemsOf "riskFactors").map RiskFactor.ofJson
  computed := value.boolOr "computed" true

end ProgramAudit.Score
