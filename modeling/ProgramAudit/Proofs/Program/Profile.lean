import ProgramAudit.Program.Profile
import ProgramAudit.Proofs.Failure

/-!
What every profile of an audit has, be it computed or neutral: its system calls, its candidates, and
a reentrancy risk that follows from the number of instructions alone.
-/

namespace ProgramAudit.Program.Profile

structure Built (authorities : List String) (profile : Profile) : Prop where
  syscalls : profile.syscalls.isSome = true
  risk : profile.reentrancyRisk =
    some (if 1000 < profile.instructionCount then .moderate else .low)
  candidates : profile.candidateAuthorities = some authorities

theorem built_neutral (address : String) (authorities : List String) :
    (neutral address authorities).Built authorities :=
  ⟨rfl, rfl, rfl⟩

theorem built_of_compute {data : Bytes} {address : String} {authorities : List String}
    {profile : Profile} (h : compute {} data address authorities = .ok profile) :
    profile.Built authorities := by
  simp only [compute, Result.bind_eq_ok, Result.pure_eq_ok] at h
  obtain ⟨count, -, branches, -, loops, -, rfl⟩ := h
  exact ⟨rfl, rfl, rfl⟩

theorem built_ofData (data : Bytes) (address : String) (authorities : List String) :
    (ofData {} (some data) address authorities).Built (candidates authorities) := by
  unfold ofData compute?
  split
  · exact built_of_compute ‹_›
  · exact built_neutral address _

/-- Where instructions can be counted and shared out, the profile is of all bytes. -/
theorem byteLength_ofData {policy : ProfilePolicy} {data : Bytes}
    (hbytes : policy.bytesPerInstruction ≠ 0)
    (hshares : ∀ ratio ∈ [policy.branchRatio, policy.loopRatio], ∃ count,
      share (Int.fdiv data.length policy.bytesPerInstruction) ratio = .ok count)
    (address : String) (authorities : List String) :
    (ofData policy (some data) address authorities).byteLength = data.length := by
  obtain ⟨branches, hbranches⟩ := hshares policy.branchRatio List.mem_cons_self
  obtain ⟨loops, hloops⟩ := hshares policy.loopRatio (List.mem_cons_of_mem _ List.mem_cons_self)
  have hcount : estimate policy data.length =
      .ok (Int.fdiv data.length policy.bytesPerInstruction) := if_neg hbytes
  have hcompute : ∃ profile, compute policy data address (candidates authorities) = .ok profile ∧
      profile.byteLength = data.length := by
    simp only [compute, Result.bind_eq_ok, Result.pure_eq_ok]
    exact ⟨_, ⟨_, hcount, _, hbranches, _, hloops, rfl⟩, rfl⟩
  obtain ⟨profile, hprofile, hlength⟩ := hcompute
  rw [ofData, compute?, hprofile]
  exact hlength

end ProgramAudit.Program.Profile
