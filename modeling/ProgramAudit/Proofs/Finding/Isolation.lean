import ProgramAudit.Finding.Vulnerability
import ProgramAudit.Proofs.Failure

/-!
Rules do not disturb one another. A scan finds what each of its rules finds alone, and a rule of the
standard table fails exactly where the one part of the profile that it looks at is missing. Whether it
looks at that part may depend on the rest of the profile, but on nothing that can be missing.
-/

namespace ProgramAudit

open Result

namespace Program.Profile

/-- A part of a profile that one from outside may lack. -/
inductive Aspect where
  | syscalls
  | reentrancyRisk
  | candidates
deriving DecidableEq

variable {profile other : Profile} {seen : Option Aspect} {aspect : Aspect}

def has (profile : Profile) : Aspect → Bool
  | .syscalls => profile.syscalls.isSome
  | .reentrancyRisk => profile.reentrancyRisk.isSome
  | .candidates => profile.candidateAuthorities.isSome

/-- The profile with one part as another one has it. -/
def taking (profile other : Profile) : Aspect → Profile
  | .syscalls => { profile with syscalls := other.syscalls }
  | .reentrancyRisk => { profile with reentrancyRisk := other.reentrancyRisk }
  | .candidates => { profile with candidateAuthorities := other.candidateAuthorities }

/-- The profile with something in the place of each part that is missing. -/
def completed (profile : Profile) (names : List String) (risk : Severity)
    (authorities : List String) : Profile :=
  { profile with
    syscalls := some (profile.syscalls.getD names)
    reentrancyRisk := some (profile.reentrancyRisk.getD risk)
    candidateAuthorities := some (profile.candidateAuthorities.getD authorities) }

/-- Two profiles differ at most in parts that can be missing, and not in the one that is seen. -/
def SameBut : Option Aspect → Profile → Profile → Prop
  | none, profile, other => ∃ names risk authorities, other = { profile with
      syscalls := names, reentrancyRisk := risk, candidateAuthorities := authorities }
  | some .syscalls, profile, other => ∃ risk authorities, other = { profile with
      reentrancyRisk := risk, candidateAuthorities := authorities }
  | some .reentrancyRisk, profile, other => ∃ names authorities, other = { profile with
      syscalls := names, candidateAuthorities := authorities }
  | some .candidates, profile, other => ∃ names risk, other = { profile with
      syscalls := names, reentrancyRisk := risk }

theorem has_taking (profile other : Profile) (aspect : Aspect) :
    (profile.taking other aspect).has aspect = other.has aspect := by
  cases aspect <;> rfl

theorem sameBut_taking (profile other : Profile) (h : seen ≠ some aspect) :
    SameBut seen profile (profile.taking other aspect) := by
  cases seen with
  | none => cases aspect <;> exact ⟨_, _, _, rfl⟩
  | some seen =>
      cases seen <;> cases aspect <;> first | exact absurd rfl h | exact ⟨_, _, rfl⟩

theorem sameBut_completed (names : List String) (risk : Severity) (authorities : List String)
    (h : seen.all profile.has = true) :
    SameBut seen profile (profile.completed names risk authorities) := by
  cases seen with
  | none => exact ⟨_, _, _, rfl⟩
  | some seen =>
      have hheld {α : Type} {held : Option α} (hsome : held.isSome = true) (other : α) :
          some (held.getD other) = held := by
        obtain ⟨value, rfl⟩ := Option.isSome_iff_exists.mp hsome
        rfl
      cases seen with
      | syscalls => exact ⟨_, _, by rw [completed, hheld h]⟩
      | reentrancyRisk => exact ⟨_, _, by rw [completed, hheld h]⟩
      | candidates => exact ⟨_, _, by rw [completed, hheld h]⟩

/-- The part is there in some profile, and missing in some other one. -/
theorem exists_has (aspect : Aspect) (present : Bool) :
    ∃ other : Profile, other.has aspect = present := by
  cases present with
  | true => exact ⟨neutral "" [], by cases aspect <;> rfl⟩
  | false => exact ⟨⟨"", 0, 0, none, .unknown, {}, none, false, false, none, false⟩,
      by cases aspect <;> rfl⟩

end Program.Profile

namespace Finding

open Program Profile

/-! ### What a rule looks at -/

namespace Rule

/-- What the rule says depends on a part of the profile. -/
def DependsOn (policy : ScanPolicy) (profile : Profile) (aspect : Aspect) (rule : Rule) : Prop :=
  ∃ other, rule.check policy (profile.taking other aspect) ≠ rule.check policy profile

/-- A rule sees at most one part that can be missing: without it the rule fails, and whatever becomes of
the others changes nothing of what it says. -/
structure Sees (policy : ScanPolicy) (profile : Profile) (rule : Rule) (seen : Option Aspect) :
    Prop where
  fails_iff : Fails (rule.check policy profile) ↔ seen.all profile.has = false
  check_eq : ∀ other, SameBut seen profile other → rule.check policy other = rule.check policy profile

/-- The standard rules, each with the part that it looks at. Who controls a mint is only of interest if
there is one. -/
def seenBy (profile : Profile) : List (Rule × Option Aspect) :=
  [(privilegedMintAuthority, if profile.hiddenMint then some .candidates else none),
    (mintMarker, none),
    (reentrancyRisk, some .reentrancyRisk),
    (invocation, some .syscalls),
    (upgradeAuthority, some .candidates),
    (memory, some .syscalls),
    (serialization, none),
    (controlFlow, none)]

/-- The standard rules that look at nothing that is missing. -/
def untouched (profile : Profile) : List Rule :=
  ((seenBy profile).filter fun entry => entry.2.all profile.has).map Prod.fst

variable {policy : ScanPolicy} {profile : Profile} {rule : Rule} {seen : Option Aspect}
  {aspect : Aspect}

theorem fails_soleAuthority? :
    Fails (Vulnerability.soleAuthority? profile) ↔ profile.has .candidates = false := by
  unfold Vulnerability.soleAuthority? demandCandidates has
  cases profile.candidateAuthorities with
  | none => exact iff_of_true ⟨_, rfl, trivial⟩ rfl
  | some authorities =>
      refine iff_of_false ?_ nofun
      rcases authorities with _ | ⟨first, _ | ⟨second, rest⟩⟩ <;> exact not_failsBy_ok

theorem fails_hasSyscall (name : String) :
    Fails (profile.hasSyscall name) ↔ profile.has .syscalls = false := by
  unfold hasSyscall has
  cases profile.syscalls with
  | none => exact iff_of_true ⟨_, rfl, trivial⟩ rfl
  | some names => exact iff_of_false not_failsBy_ok nofun

theorem sees_nothing (hfails : ¬Fails (rule.check policy profile))
    (h : ∀ names risk authorities, rule.check policy { profile with
      syscalls := names, reentrancyRisk := risk, candidateAuthorities := authorities } =
        rule.check policy profile) : Sees policy profile rule none where
  fails_iff := iff_of_false hfails nofun
  check_eq other hsame := by
    obtain ⟨names, risk, authorities, rfl⟩ := hsame
    exact h names risk authorities

theorem sees_privilegedMintAuthority (policy : ScanPolicy) (profile : Profile) :
    Sees policy profile privilegedMintAuthority
      (if profile.hiddenMint then some .candidates else none) := by
  cases hmint : profile.hiddenMint with
  | false =>
      have hcheck (other : Profile) (h : other.hiddenMint = false) :
          privilegedMintAuthority.check policy other = .ok none :=
        if_neg (Bool.eq_false_iff.mp h)
      refine sees_nothing (fun hfails => ?_) fun names risk authorities => ?_
      · rw [hcheck profile hmint] at hfails
        exact not_failsBy_ok hfails
      · exact (hcheck { profile with
          syscalls := names, reentrancyRisk := risk, candidateAuthorities := authorities }
          hmint).trans (hcheck profile hmint).symm
  | true =>
      have hcheck (other : Profile) (h : other.hiddenMint = true) :
          privilegedMintAuthority.check policy other =
            Vulnerability.soleAuthority? other >>= fun authority =>
              .ok (authority.map Vulnerability.privilegedMint) := if_pos h
      constructor
      · rw [hcheck profile hmint]
        exact (fails_bind_iff_left fun _ _ => not_failsBy_ok).trans fails_soleAuthority?
      · rintro _ ⟨names, risk, rfl⟩
        exact (hcheck _ hmint).trans (hcheck profile hmint).symm

theorem sees_reentrancyRisk (policy : ScanPolicy) (profile : Profile) :
    Sees policy profile reentrancyRisk (some .reentrancyRisk) where
  fails_iff := by
    change Fails (Option.demand "rank" profile.reentrancyRisk >>= _) ↔
      profile.reentrancyRisk.isSome = false
    refine Iff.trans (fails_bind_iff_left fun _ _ => not_failsBy_ok) ?_
    cases profile.reentrancyRisk with
    | none => exact iff_of_true ⟨_, rfl, trivial⟩ rfl
    | some risk => exact iff_of_false not_failsBy_ok nofun
  check_eq := by
    rintro _ ⟨names, authorities, rfl⟩
    rfl

theorem sees_invocation (policy : ScanPolicy) (profile : Profile) :
    Sees policy profile invocation (some .syscalls) where
  fails_iff := by
    change Fails (profile.hasSyscall "sol_invoke" >>= _) ↔ profile.has .syscalls = false
    rw [fails_bind (Q := profile.has .syscalls = false), fails_hasSyscall, or_self]
    intro invokes _
    refine Iff.trans (fails_bind_iff_left fun _ _ => not_failsBy_ok) ?_
    exact fails_hasSyscall _
  check_eq := by
    rintro _ ⟨risk, authorities, rfl⟩
    rfl

theorem sees_upgradeAuthority (policy : ScanPolicy) (profile : Profile) :
    Sees policy profile upgradeAuthority (some .candidates) where
  fails_iff := by
    change Fails (Vulnerability.soleAuthority? profile >>= _) ↔ profile.has .candidates = false
    refine Iff.trans (fails_bind_iff_left fun _ _ => not_failsBy_ok) ?_
    exact fails_soleAuthority?
  check_eq := by
    rintro _ ⟨names, risk, rfl⟩
    rfl

theorem sees_memory (policy : ScanPolicy) (profile : Profile) :
    Sees policy profile memory (some .syscalls) where
  fails_iff := by
    change Fails (profile.hasSyscall "sol_alloc_free" >>= _) ↔ profile.has .syscalls = false
    refine Iff.trans (fails_bind_iff_left fun _ _ => not_failsBy_ok) ?_
    exact fails_hasSyscall _
  check_eq := by
    rintro _ ⟨risk, authorities, rfl⟩
    rfl

theorem sees_of_mem {entry : Rule × Option Aspect} (policy : ScanPolicy)
    (h : entry ∈ seenBy profile) : Sees policy profile entry.1 entry.2 := by
  simp only [seenBy, List.mem_cons, List.not_mem_nil, or_false] at h
  rcases h with rfl | rfl | rfl | rfl | rfl | rfl | rfl | rfl
  · exact sees_privilegedMintAuthority policy profile
  · exact sees_nothing not_failsBy_ok fun _ _ _ => rfl
  · exact sees_reentrancyRisk policy profile
  · exact sees_invocation policy profile
  · exact sees_upgradeAuthority policy profile
  · exact sees_memory policy profile
  · exact sees_nothing not_failsBy_ok fun _ _ _ => rfl
  · exact sees_nothing not_failsBy_ok fun _ _ _ => rfl

/-- A rule depends on the part that it looks at, be it there or not: it fails with it or without it. -/
theorem dependsOn_iff {entry : Rule × Option Aspect} (policy : ScanPolicy)
    (h : entry ∈ seenBy profile) (aspect : Aspect) :
    entry.1.DependsOn policy profile aspect ↔ entry.2 = some aspect := by
  constructor
  · rintro ⟨other, hother⟩
    by_contra hunseen
    exact hother ((sees_of_mem policy h).check_eq _ (sameBut_taking profile other hunseen))
  · intro hseen
    obtain ⟨other, hother⟩ := exists_has aspect !profile.has aspect
    have hstill : entry ∈ seenBy (profile.taking other aspect) := by
      cases aspect <;> exact h
    refine ⟨other, fun heq => ?_⟩
    have hfails := (sees_of_mem policy hstill).fails_iff
    rw [heq, (sees_of_mem policy h).fails_iff, hseen, Option.all_some, Option.all_some, has_taking,
      hother] at hfails
    cases hhas : profile.has aspect <;> simp [hhas] at hfails

end Rule

/-! ### Scans -/

namespace Scan

variable {policy : ScanPolicy} {profile : Profile} {rule : Rule}

theorem finding?_of_fails (h : Fails (rule.check policy profile)) :
    finding? policy profile rule = none := by
  obtain ⟨failure, hfailure, -⟩ := h
  rw [finding?, hfailure]

theorem findings_of_fails (h : Fails (rule.check policy profile)) (left right : List Rule) :
    findings (left ++ rule :: right) policy profile = findings (left ++ right) policy profile := by
  simp only [findings, List.filterMap_append, List.filterMap_cons_none (finding?_of_fails h)]

theorem findings_standard (policy : ScanPolicy) (profile : Profile) :
    findings Rule.standard policy profile = findings (Rule.untouched profile) policy profile := by
  have hfails : ∀ entry ∈ Rule.seenBy profile, entry.2.all profile.has = false →
      finding? policy profile entry.1 = none :=
    fun entry hentry hlacks =>
      finding?_of_fails ((Rule.sees_of_mem policy hentry).fails_iff.mpr hlacks)
  change ((Rule.seenBy profile).map Prod.fst).filterMap _ = _
  rw [Rule.untouched, findings, List.filterMap_map, List.filterMap_map, List.filterMap_filter]
  refine List.filterMap_congr fun entry hentry => ?_
  by_cases hlacks : entry.2.all profile.has = true
  · rw [if_pos hlacks]
  · rw [if_neg hlacks]
    exact hfails entry hentry (Bool.eq_false_iff.mpr hlacks)

theorem check_completed (policy : ScanPolicy) (names : List String) (risk : Severity)
    (authorities : List String) (h : rule ∈ Rule.untouched profile) :
    rule.check policy (profile.completed names risk authorities) = rule.check policy profile := by
  obtain ⟨entry, hentry, rfl⟩ := List.mem_map.mp h
  obtain ⟨hmem, hhas⟩ := List.mem_filter.mp hentry
  exact (Rule.sees_of_mem policy hmem).check_eq _ (sameBut_completed names risk authorities hhas)

/-- **Rules do not disturb one another.** A scan never fails. It finds what each rule finds, in the order
of the rules, and a rule that fails is as good as none. Of the standard rules each depends on at most one
part of the profile that can be missing. Those that depend on none that is missing make up the whole scan,
and say what they would say of the profile with those parts. -/
theorem rules_apart (policy : ScanPolicy) (profile : Profile) :
    (∀ left right, ∃ found found', run left policy (some profile) = .ok found ∧
      run right policy (some profile) = .ok found' ∧
      run (left ++ right) policy (some profile) = .ok (found ++ found')) ∧
    (∀ rule found, rule.check policy profile = .ok found →
      run [rule] policy (some profile) = .ok found.toList) ∧
    (∀ rule, Fails (rule.check policy profile) → ∀ left right,
      run (left ++ rule :: right) policy (some profile) =
        run (left ++ right) policy (some profile)) ∧
    (Rule.seenBy profile).map Prod.fst = Rule.standard ∧
    (∀ entry ∈ Rule.seenBy profile, ∀ aspect,
      entry.1.DependsOn policy profile aspect ↔ entry.2 = some aspect) ∧
    run Rule.standard policy (some profile) = run (Rule.untouched profile) policy (some profile) ∧
    ∀ rule ∈ Rule.untouched profile, ∀ names risk authorities,
      rule.check policy (profile.completed names risk authorities) = rule.check policy profile := by
  refine ⟨fun left right => ?_, fun rule found hfound => ?_, fun rule hfails left right => ?_, rfl,
    fun entry hentry aspect => Rule.dependsOn_iff policy hentry aspect, ?_,
    fun rule hrule names risk authorities => check_completed policy names risk authorities hrule⟩
  · exact ⟨_, _, rfl, rfl, congrArg Except.ok List.filterMap_append⟩
  · have hfinding : finding? policy profile rule = found := by rw [finding?, hfound]
    change Except.ok ([rule].filterMap (finding? policy profile)) = _
    cases found <;> simp [hfinding]
  · exact congrArg Except.ok (findings_of_fails hfails left right)
  · exact congrArg Except.ok (findings_standard policy profile)

end Scan

end Finding

end ProgramAudit
