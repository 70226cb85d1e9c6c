import ProgramAudit.Program.Profile

/-!
Weaknesses that rules find in a profile. A rule that fails finds nothing and leaves the others alone.
-/

namespace ProgramAudit.Finding

open Program

/-- A weakness that the profile of a program points to. -/
structure Vulnerability where
  kind : String
  severity : Severity
  details : String
  confidence : Int
  mitigation : String
deriving DecidableEq

structure ScanPolicy where
  complexityThreshold : Int := 70

/-- A rule looks at a profile and may find one weakness. Its name stands in records. -/
structure Rule where
  name : String
  check : ScanPolicy → Profile → Result (Option Vulnerability)

namespace Vulnerability

/-- The only candidate authority of a profile. -/
def soleAuthority? (profile : Profile) : Result (Option String) := do
  match ← profile.demandCandidates with
  | [authority] => return some authority
  | _ => return none

def privilegedMint (authority : String) : Vulnerability where
  kind := "Privileged Mint Authority"
  severity := .critical
  details := s!"Mint logic present and controlled by a single authority ({authority})"
  confidence := 55
  mitigation := "Move mint authority to a multisig or revoke it"

def uncheckedMinting : Vulnerability where
  kind := "Unchecked Minting"
  severity := .high
  details := "Mint marker found in program binary; minting constraints could not be verified"
  confidence := 60
  mitigation := "Verify minting constraints and supply caps"

def reentrancy (instructionCount : Int) (risk : Severity) : Vulnerability where
  kind := "Reentrancy"
  severity := .moderate
  details := s!"Large program ({instructionCount} estimated instructions) with {risk.word} reentrancy risk"
  confidence := 50
  mitigation := "Review cross-program invocation ordering and state updates"

def unverifiedInvocation : Vulnerability where
  kind := "Unverified Cross-Program Invocation"
  severity := .moderate
  details := "sol_invoke used without signature verification"
  confidence := 40
  mitigation := "Check signer and program id of every invoked program"

def centralizedUpgrade (authority : String) : Vulnerability where
  kind := "Centralized Upgrade Authority"
  severity := .moderate
  details := s!"Program upgrades controlled by a single key ({authority})"
  confidence := 70
  mitigation := "Use a multisig or governance-controlled upgrade authority"

def manualMemory : Vulnerability where
  kind := "Manual Memory Management"
  severity := .low
  details := "sol_alloc_free syscall signature present"
  confidence := 30
  mitigation := "Review heap usage for out-of-bounds access"

def unknownSerialization : Vulnerability where
  kind := "Unknown Serialization"
  severity := .low
  details := "No borsh marker found; account data layout is unknown"
  confidence := 25
  mitigation := "Publish an IDL or verify account deserialization"

def complexControlFlow (total threshold : Int) : Vulnerability where
  kind := "High Control-Flow Complexity"
  severity := .low
  details := s!"{total} estimated branches and loops (threshold: {threshold})"
  confidence := 35
  mitigation := "Prioritize manual review of complex paths"

def toJson (found : Vulnerability) : Json :=
  .obj [
    ("type", .str found.kind),
    ("severity", .str found.severity.word),
    ("details", .str found.details),
    ("confidence", .int found.confidence),
    ("mitigation", .str found.mitigation)]

end Vulnerability

namespace Rule

open Vulnerability

def privilegedMintAuthority : Rule where
  name := "_check_privileged_mint_authority"
  check _ profile :=
    if profile.hiddenMint then do return (← soleAuthority? profile).map privilegedMint
    else .ok none

def mintMarker : Rule where
  name := "_check_unchecked_minting"
  check _ profile := .ok (if profile.hiddenMint then some uncheckedMinting else none)

def reentrancyRisk : Rule where
  name := "_check_reentrancy"
  check _ profile := do
    let risk ← Option.demand "rank" profile.reentrancyRisk
    return if risk.rank < Severity.moderate.rank then none
      else some (reentrancy profile.instructionCount risk)

def invocation : Rule where
  name := "_check_unverified_cpi"
  check _ profile := do
    let invokes ← profile.hasSyscall "sol_invoke"
    let verifies ← profile.hasSyscall "sol_verify_signature"
    return if invokes && !verifies then some unverifiedInvocation else none

def upgradeAuthority : Rule where
  name := "_check_centralized_upgrade_authority"
  check _ profile := do return (← soleAuthority? profile).map centralizedUpgrade

def memory : Rule where
  name := "_check_manual_memory"
  check _ profile := do
    return if ← profile.hasSyscall "sol_alloc_free" then some manualMemory else none

def serialization : Rule where
  name := "_check_unknown_serialization"
  check _ profile :=
    .ok (if profile.usesBorsh || profile.byteLength == 0 then none else some unknownSerialization)

def controlFlow : Rule where
  name := "_check_control_flow_complexity"
  check policy profile :=
    let total := profile.controlFlow.total
    .ok (if policy.complexityThreshold < total
      then some (complexControlFlow total policy.complexityThreshold) else none)

def standard : List Rule :=
  [privilegedMintAuthority, mintMarker, reentrancyRisk, invocation, upgradeAuthority, memory,
    serialization, controlFlow]

end Rule

namespace Scan

def finding? (policy : ScanPolicy) (profile : Profile) (rule : Rule) : Option Vulnerability :=
  match rule.check policy profile with
  | .ok found => found
  | .error _ => none

/-- What the rules find; a rule that fails is skipped. -/
def findings (rules : List Rule) (policy : ScanPolicy) (profile : Profile) : List Vulnerability :=
  rules.filterMap (finding? policy profile)

def run (rules : List Rule) (policy : ScanPolicy) (profile : Option Profile) :
    Result (List Vulnerability) :=
  (Option.demand "address" profile).map (findings rules policy)

def origin : String := "solproof.analysis.vulnerability_scanner"

def ruleRecord? (policy : ScanPolicy) (profile : Profile) (rule : Rule) :
    Option Journal.Record :=
  match rule.check policy profile with
  | .ok _ => none
  | .error failure => some (.make .warning origin "vulnerability_rule_failed" [
      ("program", .str profile.address),
      ("rule", .str rule.name),
      ("error", .str failure.text)])

/-- The records of a scan: one for each rule that fails, and one at its end. -/
def records (rules : List Rule) (policy : ScanPolicy) (profile : Profile) :
    List Journal.Record :=
  rules.filterMap (ruleRecord? policy profile) ++
    [.make .debug origin "vulnerabilities_scanned" [
      ("program", .str profile.address),
      ("findings", .int (findings rules policy profile).length)]]

end Scan

end ProgramAudit.Finding
