import ProgramAudit.Finding.Risk
import ProgramAudit.Proofs.Program.Profile

/-! Which weaknesses a scan lists. Each rule has a kind of its own, so a kind is listed if its rule
finds something. -/

namespace ProgramAudit.Finding

open Program

/-- The kind of what a rule finds. -/
def Scan.kind? (policy : ScanPolicy) (profile : Profile) (rule : Rule) : Option String :=
  (finding? policy profile rule).map Vulnerability.kind

theorem Scan.mem_kinds {rules : List Rule} {policy : ScanPolicy} {profile : Profile}
    {kind : String} : kind ∈ (findings rules policy profile).map Vulnerability.kind ↔
      ∃ rule ∈ rules, kind? policy profile rule = some kind := by
  rw [findings, List.map_filterMap, List.mem_filterMap]
  rfl

namespace Rule

variable {profile : Profile} {authorities : List String} (h : profile.Built authorities)

include h

theorem soleAuthority?_eq : Vulnerability.soleAuthority? profile =
    .ok (if authorities.length = 1 then authorities.head? else none) := by
  simp only [Vulnerability.soleAuthority?, Profile.demandCandidates, h.candidates, bind,
    Except.bind]
  rcases authorities with _ | ⟨first, _ | ⟨second, rest⟩⟩ <;> rfl

theorem kind?_privilegedMintAuthority : Scan.kind? {} profile privilegedMintAuthority =
    if profile.hiddenMint = true ∧ authorities.length = 1 then some "Privileged Mint Authority"
    else none := by
  simp only [Scan.kind?, Scan.finding?, privilegedMintAuthority, soleAuthority?_eq h]
  cases profile.hiddenMint with
  | false => rfl
  | true => rcases authorities with _ | ⟨first, _ | ⟨second, rest⟩⟩ <;> rfl

omit h in
theorem kind?_mintMarker : Scan.kind? {} profile mintMarker =
    if profile.hiddenMint = true then some "Unchecked Minting" else none := by
  simp only [Scan.kind?, Scan.finding?, mintMarker]
  cases profile.hiddenMint <;> rfl

theorem kind?_reentrancyRisk : Scan.kind? {} profile reentrancyRisk =
    if 1000 < profile.instructionCount then some "Reentrancy" else none := by
  simp only [Scan.kind?, Scan.finding?, reentrancyRisk, h.risk, Option.demand]
  by_cases hlarge : 1000 < profile.instructionCount
  · simp only [hlarge, ↓reduceIte]
    rfl
  · simp only [hlarge, ↓reduceIte]
    rfl

theorem kind?_invocation : ∀ kind ∈ Scan.kind? {} profile invocation,
    kind = "Unverified Cross-Program Invocation" := by
  obtain ⟨names, hnames⟩ := Option.isSome_iff_exists.mp h.syscalls
  simp only [Scan.kind?, Scan.finding?, invocation, Profile.hasSyscall, hnames, bind, Except.bind]
  cases names.contains "sol_invoke" && !names.contains "sol_verify_signature" with
  | false => nofun
  | true => exact fun kind hkind => (Option.some.inj hkind).symm

theorem kind?_upgradeAuthority : Scan.kind? {} profile upgradeAuthority =
    if authorities.length = 1 then some "Centralized Upgrade Authority" else none := by
  simp only [Scan.kind?, Scan.finding?, upgradeAuthority, soleAuthority?_eq h]
  rcases authorities with _ | ⟨first, _ | ⟨second, rest⟩⟩ <;> rfl

theorem kind?_memory : ∀ kind ∈ Scan.kind? {} profile memory,
    kind = "Manual Memory Management" := by
  obtain ⟨names, hnames⟩ := Option.isSome_iff_exists.mp h.syscalls
  simp only [Scan.kind?, Scan.finding?, memory, Profile.hasSyscall, hnames, bind, Except.bind]
  cases names.contains "sol_alloc_free" with
  | false => nofun
  | true => exact fun kind hkind => (Option.some.inj hkind).symm

omit h in
theorem kind?_serialization : ∀ kind ∈ Scan.kind? {} profile serialization,
    kind = "Unknown Serialization" := by
  simp only [Scan.kind?, Scan.finding?, serialization]
  cases profile.usesBorsh || profile.byteLength == 0 with
  | true => nofun
  | false => exact fun kind hkind => (Option.some.inj hkind).symm

omit h in
theorem kind?_controlFlow : Scan.kind? {} profile controlFlow =
    if 70 < profile.controlFlow.total then some "High Control-Flow Complexity" else none := by
  simp only [Scan.kind?, Scan.finding?, controlFlow]
  split <;> rfl

end Rule

/-- What the kinds say of the profile, apart from those of its system calls and its layout. -/
theorem Scan.mem_standard_kinds {profile : Profile} {authorities : List String}
    (h : profile.Built authorities) {kind : String}
    (hinvocation : kind ≠ "Unverified Cross-Program Invocation")
    (hmemory : kind ≠ "Manual Memory Management") (hlayout : kind ≠ "Unknown Serialization") :
    kind ∈ (findings Rule.standard {} profile).map Vulnerability.kind ↔
      ((profile.hiddenMint = true ∧ authorities.length = 1) ∧ "Privileged Mint Authority" = kind) ∨
      (profile.hiddenMint = true ∧ "Unchecked Minting" = kind) ∨
      (1000 < profile.instructionCount ∧ "Reentrancy" = kind) ∨
      (authorities.length = 1 ∧ "Centralized Upgrade Authority" = kind) ∨
      (70 < profile.controlFlow.total ∧ "High Control-Flow Complexity" = kind) := by
  have hsilent {rule : Rule} {name : String} (hne : kind ≠ name)
      (hrule : ∀ found ∈ kind? {} profile rule, found = name) : kind? {} profile rule ≠ some kind :=
    fun hfound => hne (hrule kind hfound)
  simp only [mem_kinds, Rule.standard, List.mem_cons, List.not_mem_nil, or_false, exists_eq_or_imp,
    exists_eq_left, Rule.kind?_privilegedMintAuthority h, Rule.kind?_mintMarker,
    Rule.kind?_reentrancyRisk h, Rule.kind?_upgradeAuthority h, Rule.kind?_controlFlow,
    hsilent hinvocation (Rule.kind?_invocation h), hsilent hmemory (Rule.kind?_memory h),
    hsilent hlayout Rule.kind?_serialization, Option.ite_none_right_eq_some, Option.some.injEq,
    false_or]

/-- The kind of a weakness never makes its risk one of those that the profile itself shows. -/
theorem Risk.issue_ofVulnerability_ne (found : Vulnerability) {issue : String}
    (h : issue.toList.head? ≠ some 'V') : (ofVulnerability found).issue ≠ issue := by
  rintro rfl
  apply h
  show ("Vulnerability: " ++ found.kind).toList.head? = some 'V'
  rw [String.toList_append]
  rfl

theorem Risk.assess_eq {profile : Profile} {authorities : List String}
    (h : profile.Built authorities) (found : List Vulnerability) :
    assess (some profile) found = .ok (found.map ofVulnerability ++
      if 1000 < profile.instructionCount then [reentrancy, manyInstructions] else []) := by
  simp only [assess, Option.demand, h.risk, bind, Except.bind]
  by_cases hlarge : 1000 < profile.instructionCount
  · simp only [hlarge, ↓reduceIte, List.append_assoc]
    rfl
  · have hlow : ¬Severity.moderate.rank ≤ Severity.low.rank := by decide
    simp only [hlarge, hlow, ↓reduceIte, List.append_nil]
    rfl

theorem Risk.mem_issues {count : Int} (found : List Vulnerability) {issue : String}
    (h : issue.toList.head? ≠ some 'V') :
    issue ∈ (found.map ofVulnerability ++
      if 1000 < count then [reentrancy, manyInstructions] else []).map Risk.issue ↔
      1000 < count ∧ (issue = reentrancy.issue ∨ issue = manyInstructions.issue) := by
  have hfound : issue ∉ (found.map ofVulnerability).map Risk.issue := by
    simp only [List.map_map, List.mem_map, Function.comp_apply, not_exists, not_and]
    exact fun other _ => issue_ofVulnerability_ne other h
  rw [List.map_append, List.mem_append, or_iff_right hfound]
  by_cases hlarge : 1000 < count
  · simp [hlarge]
  · simp [hlarge]

end ProgramAudit.Finding
