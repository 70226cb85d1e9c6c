import ProgramAudit.Control.Governance
import ProgramAudit.Json.Field

/-! Authorities and governance read back from their written form. -/

namespace ProgramAudit.Control

def Authority.ofJson (value : Json) : Authority where
  address := value.textOr "authority" ""
  balance := value.realOr "totalSOLWithdrawn" 0.0
  walletAge := value.intOr "walletAgeDays" 0
  mintCount := (value.get "tokenMintCount").integer?

def GovernancePolicy.ofJson (value : Json) : GovernancePolicy :=
  let base : GovernancePolicy := {}
  { decentralizedTrust := value.intOr "decentralized_trust" base.decentralizedTrust
    centralizedTrust := value.intOr "centralized_trust" base.centralizedTrust
    votingBonus := value.intOr "voting_bonus" base.votingBonus
    maxTrust := value.intOr "max_trust" base.maxTrust }

def Governance.ofJson (value : Json) : Governance where
  form := value.textOr "type" Governance.neutral.form
  trustScore := value.intOr "trustScore" Governance.neutral.trustScore
  details := value.textsOr "details" []

end ProgramAudit.Control
