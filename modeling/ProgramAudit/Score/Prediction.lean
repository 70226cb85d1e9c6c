import ProgramAudit.Score.Safety

namespace ProgramAudit.Score

open Traffic

/-- What each signal adds to the likelihood of harm, and the tiers of the outlook. -/
structure RiskPolicy where
  baseLikelihood : Int := 30
  volatilityDelta : Int := 20
  singleAuthorityDelta : Int := 15
  lowSafetyDelta : Int := 25
  lowSafetyThreshold : Int := 50
  highTier : Int := 70
  moderateTier : Int := 40

structure RiskFactor where
  issue : String
  details : String
deriving DecidableEq

def RiskFactor.toJson (factor : RiskFactor) : Json :=
  .obj [("issue", .str factor.issue), ("details", .str factor.details)]

structure Prediction where
  likelihood : Int
  outlook : String
  factors : List RiskFactor := []
  computed : Bool := true

namespace Prediction

def lowRisk : String := "Low risk, but verify"

def moderateRisk : String := "Moderate risk, monitor closely"

def highRisk : String := "High risk of future scams or laundering"

def neutral : Prediction := { likelihood := 30, outlook := lowRisk, computed := false }

def outlookOf (policy : RiskPolicy) (likelihood : Int) : String :=
  if policy.highTier < likelihood then highRisk
  else if policy.moderateTier < likelihood then moderateRisk
  else lowRisk

def volatile : RiskFactor :=
  ⟨"High transaction volume volatility", "May indicate manipulative activity"⟩

def singleAuthority : RiskFactor := ⟨"Single authority", "Increases risk of malicious upgrades"⟩

def lowSafety : RiskFactor := ⟨"Low safety score", "Indicates multiple vulnerabilities"⟩

/-- A signal: whether it is there, the factor that it stands for, and what it adds. -/
structure Signal where
  holds : Bool
  factor : RiskFactor
  delta : Int

def signals (policy : RiskPolicy) (authorities : List Control.Authority) (economics : Economics)
    (safety : Safety) : List Signal :=
  [⟨economics.volatility.high, volatile, policy.volatilityDelta⟩,
    ⟨authorities.length == 1, singleAuthority, policy.singleAuthorityDelta⟩,
    ⟨decide (safety.score < policy.lowSafetyThreshold), lowSafety, policy.lowSafetyDelta⟩]

def ofSignals (policy : RiskPolicy) (signals : List Signal) : Prediction :=
  let held := signals.filter Signal.holds
  let likelihood := clamp (policy.baseLikelihood + Number.total (held.map Signal.delta))
  { likelihood, outlook := outlookOf policy likelihood, factors := held.map Signal.factor }

/-- Predicts the risk of a program from its authorities, its economics and its safety. -/
def predict (policy : RiskPolicy) (authorities : List Control.Authority)
    (economics : Option Economics) (safety : Option Safety) : Result Prediction := do
  let economics ← Option.demand "volatility" economics
  let safety ← Option.demand "safety_score" safety
  return ofSignals policy (signals policy authorities economics safety)

def toJson (prediction : Prediction) : Json :=
  .obj [
    ("riskLikelihood", .int prediction.likelihood),
    ("prediction", .str prediction.outlook),
    ("riskFactors", .arr (prediction.factors.map RiskFactor.toJson)),
    ("computed", .bool prediction.computed)]

end Prediction

end ProgramAudit.Score
