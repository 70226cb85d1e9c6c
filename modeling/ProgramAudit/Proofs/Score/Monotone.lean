import Mathlib.Data.List.Forall2
import ProgramAudit.Proofs.Failure
import ProgramAudit.Report.Ranking
import ProgramAudit.Score.Behavior
import ProgramAudit.Score.Prediction

/-!
Scores follow their signals. Every score is a clamped sum over the signals that hold, and the tiers read a
score in one direction only. So what adds signals and takes none away makes no score milder, from the
safety over the prediction up to the tiers of both.
-/

namespace ProgramAudit

open Result

namespace Number

/-- Two quantities that can be multiplied: integers exactly, and others as doubles. -/
def Joinable (left right : Number) : Prop :=
  (∃ value value', left = .int value ∧ right = .int value') ∨
    left.toReal?.isSome = true ∧ right.toReal?.isSome = true

theorem succeeds_times {left right : Number} :
    Succeeds (left.times right) ↔ left.Joinable right := by
  have hmixed (hmixed : ¬∃ value value', left = .int value ∧ right = .int value')
      (hmul : left.mul? right =
        left.toReal?.bind fun x => right.toReal?.map fun y => .real (x * y)) :
      Succeeds (left.times right) ↔ left.Joinable right := by
    rw [Joinable, or_iff_right hmixed, times, hmul]
    cases left.toReal? <;> cases right.toReal? <;>
      simp [orTooLarge, succeeds_ok, not_succeeds_error]
  cases left with
  | int value =>
      cases right with
      | int value' => exact iff_of_true ⟨_, rfl⟩ (.inl ⟨value, value', rfl, rfl⟩)
      | real y =>
          refine hmixed (by simp) ?_
          cases hvalue : doubleOfInt? value <;> simp [mul?, join?, toReal?, hvalue]
  | real x =>
      refine hmixed (by simp) ?_
      cases right with
      | int value => cases hvalue : doubleOfInt? value <;> simp [mul?, join?, toReal?, hvalue]
      | real y => rfl

end Number

namespace Score

open Program Traffic

/-! ### Sums over the signals that hold -/

theorem clamp_bounds (score : Int) : 0 ≤ clamp score ∧ clamp score ≤ 100 := by
  unfold clamp
  omega

theorem clamp_mono {left right : Int} (h : left ≤ right) : clamp left ≤ clamp right := by
  unfold clamp
  omega

section

variable {α β : Type} {holds : α → Bool} {part : α → β} {left right : List α}

/-- The same signals, of which the right ones hold wherever the left ones do. -/
def Carried (holds : α → Bool) (part : α → β) : List α → List α → Prop :=
  List.Forall₂ fun left right => part left = part right ∧ (holds left = true → holds right = true)

/-- By induction over the signals: one more on the right side only adds to what is kept there. -/
theorem Carried.sublist (h : Carried holds part left right) :
    ((left.filter holds).map part).Sublist ((right.filter holds).map part) := by
  induction h with
  | nil => exact .slnil
  | @cons first other _ _ hfirst _ ih =>
      obtain ⟨hpart, hholds⟩ := hfirst
      by_cases hother : holds other = true
      · by_cases hheld : holds first = true
        · simpa [hheld, hother, hpart] using ih
        · simpa [hheld, hother] using ih.cons (part other)
      · have hheld : ¬holds first = true := mt hholds hother
        simpa [hheld, hother] using ih

theorem total_le_of_sublist {amounts others : List Int} (h : amounts.Sublist others)
    (hsigns : ∀ amount ∈ others, 0 ≤ amount) : Number.total amounts ≤ Number.total others := by
  induction h with
  | slnil => exact Int.le_refl 0
  | cons amount _ ih =>
      obtain ⟨hamount, hrest⟩ := List.forall_mem_cons.mp hsigns
      exact Int.le_trans (ih hrest) (Int.le_add_of_nonneg_left hamount)
  | cons_cons amount _ ih =>
      exact Int.add_le_add_left (ih (List.forall_mem_cons.mp hsigns).2) amount

theorem Carried.map {γ : Type} (h : Carried holds part left right) (f : β → γ) :
    Carried holds (fun signal => f (part signal)) left right :=
  h.imp fun _ _ => And.imp_left (congrArg f)

/-- What the signals that hold add up to, if none of them takes anything away. -/
theorem Carried.total_le {weight : α → Int} (h : Carried holds weight left right)
    (hsigns : ∀ signal ∈ right, 0 ≤ weight signal) :
    Number.total ((left.filter holds).map weight) ≤
      Number.total ((right.filter holds).map weight) := by
  refine total_le_of_sublist h.sublist fun amount hamount => ?_
  obtain ⟨signal, hsignal, rfl⟩ := List.mem_map.mp hamount
  exact hsigns signal (List.mem_filter.mp hsignal).1

end

/-! ### Policies and evidence -/

structure Policies where
  safety : SafetyPolicy := {}
  behavior : BehaviorPolicy := {}
  risk : RiskPolicy := {}

/-- No risk makes anything safer: each penalty and each delta is at least nothing. -/
structure Policies.Nonnegative (policies : Policies) : Prop where
  safety : 0 ≤ policies.safety.hiddenMintPenalty ∧ 0 ≤ policies.safety.singleAuthorityPenalty ∧
    0 ≤ policies.safety.suspiciousVolumePenalty ∧ 0 ≤ policies.safety.complexGraphPenalty
  scam : 0 ≤ policies.behavior.hiddenMintDelta ∧ 0 ≤ policies.behavior.suspiciousVolumeDelta ∧
    0 ≤ policies.behavior.lowActivityDelta ∧ 0 ≤ policies.behavior.singleAuthorityDelta
  laundering : 0 ≤ policies.behavior.concentrationDelta ∧ 0 ≤ policies.behavior.volatilityDelta ∧
    0 ≤ policies.behavior.othersDelta ∧ 0 ≤ policies.behavior.invocationDelta
  risk : 0 ≤ policies.risk.volatilityDelta ∧ 0 ≤ policies.risk.singleAuthorityDelta ∧
    0 ≤ policies.risk.lowSafetyDelta

/-- Everything that the scores of a program are made from. -/
structure Evidence where
  profile : Profile
  authorities : List Control.Authority
  economics : Economics
  graph : CallGraph

/-- What a risk takes away from the score if it is listed. -/
def SafetyPolicy.penaltyOf (policy : SafetyPolicy) (risk : Finding.Risk) : Int :=
  if risk = Safety.hiddenMint then policy.hiddenMintPenalty
  else if risk = Safety.singleAuthority then policy.singleAuthorityPenalty
  else if risk = Safety.suspiciousVolume then policy.suspiciousVolumePenalty
  else if risk = Safety.complexGraph then policy.complexGraphPenalty
  else 0

namespace Behavior

def scamOf (policy : BehaviorPolicy) (profile : Profile) (economics : Economics) : Result Int := do
  return likelihood policy.baseScore (← scamSignals policy profile economics)

def launderingOf (policy : BehaviorPolicy) (profile : Profile) (economics : Economics) :
    Result Int := do
  return likelihood policy.baseScore (← launderingSignals policy profile economics)

theorem of_infer {policy : BehaviorPolicy} {profile : Profile} {economics : Economics}
    {behavior : Behavior} (h : infer policy (some profile) (some economics) = .ok behavior) :
    scamOf policy profile economics = .ok behavior.scamProbability ∧
      launderingOf policy profile economics = .ok behavior.launderingLikelihood := by
  simp only [infer, bind_eq_ok, pure_eq_ok, Option.demand, Except.ok.injEq, exists_eq_left'] at h
  obtain ⟨scam, hscam, laundering, hlaundering, confidence, -, rfl⟩ := h
  rw [scamOf, launderingOf, hscam, hlaundering]
  exact ⟨rfl, rfl⟩

end Behavior

namespace Evidence

def safety (policies : Policies) (evidence : Evidence) : Result Safety :=
  Safety.assess policies.safety (some evidence.profile) evidence.authorities
    (some evidence.economics) (some evidence.graph)

def scam (policies : Policies) (evidence : Evidence) : Result Int :=
  Behavior.scamOf policies.behavior evidence.profile evidence.economics

def laundering (policies : Policies) (evidence : Evidence) : Result Int :=
  Behavior.launderingOf policies.behavior evidence.profile evidence.economics

/-- The prediction that goes with a safety. -/
def prediction (policies : Policies) (evidence : Evidence) (safety : Safety) : Prediction :=
  .ofSignals policies.risk
    (Prediction.signals policies.risk evidence.authorities evidence.economics safety)

/-- Every signal of a risk that is there on the left is there on the right. -/
structure Carries (policies : Policies) (left right : Evidence) : Prop where
  hiddenMint : left.profile.hiddenMint = true → right.profile.hiddenMint = true
  singleAuthority : left.authorities.length = 1 → right.authorities.length = 1
  suspicious :
    Safety.isSuspicious policies.safety.suspiciousVolumeRatio left.economics = .ok true →
      Safety.isSuspicious policies.safety.suspiciousVolumeRatio right.economics = .ok true
  complex : policies.safety.complexGraphEdges < left.graph.edges.length →
    policies.safety.complexGraphEdges < right.graph.edges.length
  suspect :
    Safety.isSuspicious policies.behavior.suspiciousVolumeRatio left.economics = .ok true →
      Safety.isSuspicious policies.behavior.suspiciousVolumeRatio right.economics = .ok true
  sparse : Behavior.isSparse policies.behavior left.economics = true →
    Behavior.isSparse policies.behavior right.economics = true
  soleCandidate : (∃ candidate, left.profile.candidateAuthorities = some [candidate]) →
    ∃ candidate, right.profile.candidateAuthorities = some [candidate]
  concentrated : left.economics.tokenFlows.concentrationRisk = true →
    right.economics.tokenFlows.concentrationRisk = true
  volatile : left.economics.volatility.high = true → right.economics.volatility.high = true
  others : DeepDive.othersExceed policies.behavior.othersRatio left.economics = .ok true →
    DeepDive.othersExceed policies.behavior.othersRatio right.economics = .ok true
  invokes : left.profile.hasSyscall "sol_invoke" = .ok true ∧
      policies.behavior.invocationInstructions < left.profile.instructionCount →
    right.profile.hasSyscall "sol_invoke" = .ok true ∧
      policies.behavior.invocationInstructions < right.profile.instructionCount

/-- The scores are there as long as shares can be taken and nothing is missing. They lie within their
bounds, and the safety is what the listed risks leave of the baseline. -/
structure Scored (policies : Policies) (evidence : Evidence) : Prop where
  safety_iff : Succeeds (evidence.safety policies) ↔
    evidence.economics.totalVolume.Joinable policies.safety.suspiciousVolumeRatio
  scam_iff : Succeeds (evidence.scam policies) ↔
    evidence.economics.totalVolume.Joinable policies.behavior.suspiciousVolumeRatio ∧
      evidence.profile.candidateAuthorities.isSome = true
  laundering_iff : Succeeds (evidence.laundering policies) ↔
    (Number.int evidence.economics.transactionCount).Joinable policies.behavior.othersRatio ∧
      evidence.profile.syscalls.isSome = true
  safety : ∀ safety, evidence.safety policies = .ok safety →
    (0 ≤ safety.score ∧ safety.score ≤ 100) ∧
    safety.score = clamp (policies.safety.baseline -
      Number.total (safety.risks.map policies.safety.penaltyOf)) ∧
    safety.risks.Sublist [Safety.hiddenMint, Safety.singleAuthority, Safety.suspiciousVolume,
      Safety.complexGraph]
  scam : ∀ score, evidence.scam policies = .ok score → 0 ≤ score ∧ score ≤ 100
  laundering : ∀ score, evidence.laundering policies = .ok score → 0 ≤ score ∧ score ≤ 100
  inferred : ∀ behavior, Behavior.infer policies.behavior (some evidence.profile)
    (some evidence.economics) = .ok behavior →
      evidence.scam policies = .ok behavior.scamProbability ∧
        evidence.laundering policies = .ok behavior.launderingLikelihood
  prediction : ∀ safety,
    Prediction.predict policies.risk evidence.authorities (some evidence.economics) (some safety) =
        .ok (evidence.prediction policies safety) ∧
      0 ≤ (evidence.prediction policies safety).likelihood ∧
      (evidence.prediction policies safety).likelihood ≤ 100

/-- The tiers of a prediction and the levels of a report, the mildest first. -/
def outlooks : List String := [Prediction.lowRisk, Prediction.moderateRisk, Prediction.highRisk]

def levels : List String := ["Low", "Moderate", "High"]

/-- No score on the right is milder than the same one on the left, as far as both are there. -/
structure NoMilder (policies : Policies) (left right : Evidence) : Prop where
  safety : ∀ before after, left.safety policies = .ok before → right.safety policies = .ok after →
    after.score ≤ before.score ∧ before.risks.Sublist after.risks ∧
    levels.idxOf (Report.riskLevel before.score) ≤ levels.idxOf (Report.riskLevel after.score)
  scam : ∀ before after, left.scam policies = .ok before → right.scam policies = .ok after →
    before ≤ after
  laundering : ∀ before after, left.laundering policies = .ok before →
    right.laundering policies = .ok after → before ≤ after
  prediction : ∀ before after, left.safety policies = .ok before →
    right.safety policies = .ok after →
    (left.prediction policies before).likelihood ≤ (right.prediction policies after).likelihood ∧
    (left.prediction policies before).factors.Sublist (right.prediction policies after).factors ∧
    outlooks.idxOf (left.prediction policies before).outlook ≤
      outlooks.idxOf (right.prediction policies after).outlook

variable {policies : Policies} {evidence left right : Evidence}

/-! ### Safety -/

theorem safety_eq_ok {safety : Safety} (h : evidence.safety policies = .ok safety) :
    ∃ suspicious, Safety.isSuspicious policies.safety.suspiciousVolumeRatio evidence.economics =
        .ok suspicious ∧
      Safety.ofSignals policies.safety.baseline (Safety.signals policies.safety evidence.profile
        evidence.authorities suspicious evidence.graph) = safety := by
  simp only [Evidence.safety, Safety.assess, bind_eq_ok, pure_eq_ok, Option.demand,
    Except.ok.injEq, exists_eq_left'] at h
  exact h

theorem succeeds_isSuspicious {ratio : Number} {economics : Economics} :
    Succeeds (Safety.isSuspicious ratio economics) ↔ economics.totalVolume.Joinable ratio :=
  (succeeds_bind_iff_left fun _ _ => succeeds_ok).trans Number.succeeds_times

theorem succeeds_safety : Succeeds (evidence.safety policies) ↔
    evidence.economics.totalVolume.Joinable policies.safety.suspiciousVolumeRatio :=
  (succeeds_bind_iff_left fun _ _ => succeeds_ok).trans succeeds_isSuspicious

theorem candidates_eq {profile : Profile} {candidates : List String}
    (h : profile.demandCandidates = .ok candidates) :
    profile.candidateAuthorities = some candidates := by
  unfold Profile.demandCandidates at h
  split at h
  · cases h
    assumption
  · cases h

/-- The penalty of a signal is that of its risk. -/
theorem score_eq_penalties {policy : SafetyPolicy} {profile : Profile}
    {authorities : List Control.Authority} {suspicious : Bool} {graph : CallGraph} :
    let safety := Safety.ofSignals policy.baseline
      (Safety.signals policy profile authorities suspicious graph)
    safety.score = clamp (policy.baseline -
      Number.total (safety.risks.map policy.penaltyOf)) := by
  have hpenalty : ∀ signal ∈ Safety.signals policy profile authorities suspicious graph,
      signal.penalty = policy.penaltyOf signal.risk := by
    simp [Safety.signals, SafetyPolicy.penaltyOf, Safety.hiddenMint, Safety.singleAuthority,
      Safety.suspiciousVolume, Safety.complexGraph]
  simp only [Safety.ofSignals, List.map_map]
  refine congrArg (fun penalties => clamp (policy.baseline - Number.total penalties)) ?_
  exact List.map_congr_left fun signal hsignal => hpenalty signal (List.mem_of_mem_filter hsignal)

theorem risks_sublist {policy : SafetyPolicy} {profile : Profile}
    {authorities : List Control.Authority} {suspicious : Bool} {graph : CallGraph} :
    (Safety.ofSignals policy.baseline
      (Safety.signals policy profile authorities suspicious graph)).risks.Sublist
        [Safety.hiddenMint, Safety.singleAuthority, Safety.suspiciousVolume,
          Safety.complexGraph] :=
  List.filter_sublist.map Safety.Signal.risk

/-- The signals of the safety, each with its risk and its penalty. -/
theorem carried_safety (h : left.Carries policies right) {suspicious suspicious' : Bool}
    (hleft : Safety.isSuspicious policies.safety.suspiciousVolumeRatio left.economics =
      .ok suspicious)
    (hright : Safety.isSuspicious policies.safety.suspiciousVolumeRatio right.economics =
      .ok suspicious') :
    Carried Safety.Signal.holds (fun signal => (signal.risk, signal.penalty))
      (Safety.signals policies.safety left.profile left.authorities suspicious left.graph)
      (Safety.signals policies.safety right.profile right.authorities suspicious' right.graph) := by
  have hsuspicious : suspicious = true → suspicious' = true := by
    rintro rfl
    exact Except.ok.inj (hright.symm.trans (h.suspicious hleft))
  refine .cons ⟨rfl, h.hiddenMint⟩ (.cons ⟨rfl, ?_⟩ (.cons ⟨rfl, hsuspicious⟩
    (.cons ⟨rfl, ?_⟩ .nil)))
  · simpa using h.singleAuthority
  · simpa using h.complex

theorem level_mono {before after : Int} (h : after ≤ before) :
    levels.idxOf (Report.riskLevel before) ≤ levels.idxOf (Report.riskLevel after) := by
  have hlevel (score : Int) : levels.idxOf (Report.riskLevel score) =
      if score < 50 then 2 else if score < 80 then 1 else 0 := by
    unfold Report.riskLevel
    split_ifs <;> decide
  rw [hlevel, hlevel]
  split_ifs <;> omega

/-! ### Likelihoods -/

theorem succeeds_scam : Succeeds (evidence.scam policies) ↔
    evidence.economics.totalVolume.Joinable policies.behavior.suspiciousVolumeRatio ∧
      evidence.profile.candidateAuthorities.isSome = true := by
  have hcandidates : Succeeds evidence.profile.demandCandidates ↔
      evidence.profile.candidateAuthorities.isSome = true := by
    unfold Profile.demandCandidates
    cases evidence.profile.candidateAuthorities with
    | none => exact iff_of_false not_succeeds_error nofun
    | some authorities => exact iff_of_true succeeds_ok rfl
  refine Iff.trans (succeeds_bind_iff_left fun _ _ => succeeds_ok) ?_
  refine (succeeds_bind_and fun _ _ => ?_).trans (and_congr_left' succeeds_isSuspicious)
  exact (succeeds_bind_iff_left fun _ _ => succeeds_ok).trans hcandidates

theorem succeeds_laundering : Succeeds (evidence.laundering policies) ↔
    (Number.int evidence.economics.transactionCount).Joinable policies.behavior.othersRatio ∧
      evidence.profile.syscalls.isSome = true := by
  have hsyscalls : Succeeds (evidence.profile.hasSyscall "sol_invoke") ↔
      evidence.profile.syscalls.isSome = true := by
    unfold Profile.hasSyscall
    cases evidence.profile.syscalls with
    | none => exact iff_of_false not_succeeds_error nofun
    | some names => exact iff_of_true succeeds_ok rfl
  have hothers : Succeeds (DeepDive.othersExceed policies.behavior.othersRatio
      evidence.economics) ↔ (Number.int evidence.economics.transactionCount).Joinable
        policies.behavior.othersRatio :=
    (succeeds_bind_iff_left fun _ _ => succeeds_ok).trans Number.succeeds_times
  refine Iff.trans (succeeds_bind_iff_left fun _ _ => succeeds_ok) ?_
  refine (succeeds_bind_and fun _ _ => ?_).trans (and_congr_left' hothers)
  exact (succeeds_bind_iff_left fun _ _ => succeeds_ok).trans hsyscalls

/-- A likelihood grows with its signals. -/
theorem likelihood_mono {base : Int} {signals others : List Behavior.Signal}
    (h : Carried Behavior.Signal.holds Behavior.Signal.delta signals others)
    (hsigns : ∀ signal ∈ others, 0 ≤ signal.delta) :
    Behavior.likelihood base signals ≤ Behavior.likelihood base others :=
  clamp_mono (Int.add_le_add_left (h.total_le hsigns) base)

theorem carried_scam (h : left.Carries policies right) {signals others : List Behavior.Signal}
    (hleft : Behavior.scamSignals policies.behavior left.profile left.economics = .ok signals)
    (hright : Behavior.scamSignals policies.behavior right.profile right.economics = .ok others) :
    Carried Behavior.Signal.holds Behavior.Signal.delta signals others := by
  simp only [Behavior.scamSignals, bind_eq_ok, pure_eq_ok] at hleft hright
  obtain ⟨suspicious, hsuspicious, candidates, hcandidates, rfl⟩ := hleft
  obtain ⟨suspicious', hsuspicious', candidates', hcandidates', rfl⟩ := hright
  have hsuspect : suspicious = true → suspicious' = true := by
    rintro rfl
    exact Except.ok.inj (hsuspicious'.symm.trans (h.suspect hsuspicious))
  have hsole : (candidates.length == 1) = true → (candidates'.length == 1) = true := by
    intro hone
    obtain ⟨candidate, rfl⟩ := List.length_eq_one_iff.mp (beq_iff_eq.mp hone)
    obtain ⟨other, hother⟩ := h.soleCandidate ⟨candidate, candidates_eq hcandidates⟩
    rw [candidates_eq hcandidates'] at hother
    rw [Option.some.inj hother]
    rfl
  exact .cons ⟨rfl, h.hiddenMint⟩ (.cons ⟨rfl, hsuspect⟩ (.cons ⟨rfl, h.sparse⟩
    (.cons ⟨rfl, hsole⟩ .nil)))

theorem carried_laundering (h : left.Carries policies right)
    {signals others : List Behavior.Signal}
    (hleft : Behavior.launderingSignals policies.behavior left.profile left.economics =
      .ok signals)
    (hright : Behavior.launderingSignals policies.behavior right.profile right.economics =
      .ok others) : Carried Behavior.Signal.holds Behavior.Signal.delta signals others := by
  simp only [Behavior.launderingSignals, bind_eq_ok, pure_eq_ok] at hleft hright
  obtain ⟨exceeds, hexceeds, invokes, hinvokes, rfl⟩ := hleft
  obtain ⟨exceeds', hexceeds', invokes', hinvokes', rfl⟩ := hright
  have hothers : exceeds = true → exceeds' = true := by
    rintro rfl
    exact Except.ok.inj (hexceeds'.symm.trans (h.others hexceeds))
  have hinvokes (hboth : (invokes && decide (policies.behavior.invocationInstructions <
        left.profile.instructionCount)) = true) :
      (invokes' && decide (policies.behavior.invocationInstructions <
        right.profile.instructionCount)) = true := by
    rw [Bool.and_eq_true, decide_eq_true_iff] at hboth ⊢
    obtain ⟨rfl, hlarge⟩ := hboth
    obtain ⟨hother, hlarge'⟩ := h.invokes ⟨hinvokes, hlarge⟩
    exact ⟨Except.ok.inj (hinvokes'.symm.trans hother), hlarge'⟩
  exact .cons ⟨rfl, h.concentrated⟩ (.cons ⟨rfl, h.volatile⟩ (.cons ⟨rfl, hothers⟩
    (.cons ⟨rfl, hinvokes⟩ .nil)))

/-! ### Predictions -/

theorem carried_prediction (h : left.Carries policies right) {before after : Safety}
    (hsafety : after.score ≤ before.score) :
    Carried Prediction.Signal.holds (fun signal => (signal.factor, signal.delta))
      (Prediction.signals policies.risk left.authorities left.economics before)
      (Prediction.signals policies.risk right.authorities right.economics after) := by
  refine .cons ⟨rfl, h.volatile⟩ (.cons ⟨rfl, ?_⟩ (.cons ⟨rfl, fun hlow => ?_⟩ .nil))
  · simpa using h.singleAuthority
  · exact decide_eq_true (Int.lt_of_le_of_lt hsafety (of_decide_eq_true hlow))

theorem outlook_mono {policy : RiskPolicy} {before after : Int} (h : before ≤ after) :
    outlooks.idxOf (Prediction.outlookOf policy before) ≤
      outlooks.idxOf (Prediction.outlookOf policy after) := by
  have houtlook (likelihood : Int) : outlooks.idxOf (Prediction.outlookOf policy likelihood) =
      if policy.highTier < likelihood then 2 else if policy.moderateTier < likelihood then 1
      else 0 := by
    unfold Prediction.outlookOf
    split_ifs <;> decide
  rw [houtlook, houtlook]
  split_ifs <;> omega

/-! ### All scores -/

theorem scored (policies : Policies) (evidence : Evidence) : evidence.Scored policies where
  safety_iff := succeeds_safety
  scam_iff := succeeds_scam
  laundering_iff := succeeds_laundering
  safety safety h := by
    obtain ⟨suspicious, -, rfl⟩ := safety_eq_ok h
    exact ⟨clamp_bounds _, score_eq_penalties, risks_sublist⟩
  scam score h := by
    obtain ⟨signals, -, ⟨⟩⟩ := bind_eq_ok.mp h
    exact clamp_bounds _
  laundering score h := by
    obtain ⟨signals, -, ⟨⟩⟩ := bind_eq_ok.mp h
    exact clamp_bounds _
  inferred behavior h := Behavior.of_infer h
  prediction safety := ⟨rfl, clamp_bounds _⟩

variable (hsigns : policies.Nonnegative) (h : left.Carries policies right)

include hsigns h

theorem safety_mono {before after : Safety} (hbefore : left.safety policies = .ok before)
    (hafter : right.safety policies = .ok after) :
    after.score ≤ before.score ∧ before.risks.Sublist after.risks := by
  obtain ⟨suspicious, hsuspicious, rfl⟩ := safety_eq_ok hbefore
  obtain ⟨suspicious', hsuspicious', rfl⟩ := safety_eq_ok hafter
  have hcarried := carried_safety h hsuspicious hsuspicious'
  refine ⟨clamp_mono (Int.sub_le_sub_left ((hcarried.map Prod.snd).total_le ?_) _),
    (hcarried.map Prod.fst).sublist⟩
  simpa [Safety.signals] using hsigns.safety

theorem scam_mono {before after : Int} (hbefore : left.scam policies = .ok before)
    (hafter : right.scam policies = .ok after) : before ≤ after := by
  obtain ⟨signals, hsignals, ⟨⟩⟩ := bind_eq_ok.mp hbefore
  obtain ⟨others, hothers, ⟨⟩⟩ := bind_eq_ok.mp hafter
  refine likelihood_mono (carried_scam h hsignals hothers) ?_
  simp only [Behavior.scamSignals, bind_eq_ok, pure_eq_ok] at hothers
  obtain ⟨_, -, _, -, rfl⟩ := hothers
  simpa using hsigns.scam

theorem laundering_mono {before after : Int} (hbefore : left.laundering policies = .ok before)
    (hafter : right.laundering policies = .ok after) : before ≤ after := by
  obtain ⟨signals, hsignals, ⟨⟩⟩ := bind_eq_ok.mp hbefore
  obtain ⟨others, hothers, ⟨⟩⟩ := bind_eq_ok.mp hafter
  refine likelihood_mono (carried_laundering h hsignals hothers) ?_
  simp only [Behavior.launderingSignals, bind_eq_ok, pure_eq_ok] at hothers
  obtain ⟨_, -, _, -, rfl⟩ := hothers
  simpa using hsigns.laundering

theorem prediction_mono {before after : Safety} (hsafety : after.score ≤ before.score) :
    (left.prediction policies before).likelihood ≤ (right.prediction policies after).likelihood ∧
      (left.prediction policies before).factors.Sublist
        (right.prediction policies after).factors := by
  have hcarried := carried_prediction h hsafety
  refine ⟨clamp_mono (Int.add_le_add_left ((hcarried.map Prod.snd).total_le ?_) _),
    (hcarried.map Prod.fst).sublist⟩
  simpa [Prediction.signals] using hsigns.risk

theorem noMilder : NoMilder policies left right where
  safety before after hbefore hafter := by
    obtain ⟨hscore, hrisks⟩ := safety_mono hsigns h hbefore hafter
    exact ⟨hscore, hrisks, level_mono hscore⟩
  scam before after := scam_mono hsigns h
  laundering before after := laundering_mono hsigns h
  prediction before after hbefore hafter := by
    obtain ⟨hlikelihood, hfactors⟩ :=
      prediction_mono hsigns h (safety_mono hsigns h hbefore hafter).1
    exact ⟨hlikelihood, hfactors, outlook_mono hlikelihood⟩

end Evidence

/-- **Scores follow their signals.** Whatever the evidence, each score lies between nothing and one
hundred wherever it is there, and the safety is the baseline without the penalties of the listed risks.
Evidence that has every signal of some other evidence is judged no milder than that by any score, tier or
level, and lists the same risks and factors in the same order, with more among them at most. -/
theorem scores_follow_signals {policies : Policies} (hsigns : policies.Nonnegative) :
    (∀ evidence : Evidence, evidence.Scored policies) ∧
      ∀ left right : Evidence, left.Carries policies right → Evidence.NoMilder policies left right :=
  ⟨Evidence.scored policies, fun _ _ => Evidence.noMilder hsigns⟩

namespace Evidence

/-- A program of which nothing is known but that it can mint. -/
def calm : Evidence where
  profile := { address := "program", hiddenMint := true }
  authorities := []
  economics := { totalVolume := 100.0, transactionCount := 20 }
  graph := { root := "program" }

/-- The same program under one authority, and most of its volume is suspicious. -/
def alarming : Evidence where
  profile := { address := "program", hiddenMint := true, candidateAuthorities := some ["owner"] }
  authorities := [⟨"owner", 0.0, 3, none⟩]
  economics := { totalVolume := 100.0, transactionCount := 20, suspiciousVolume := 60.0 }
  graph := { root := "program" }

theorem carries_alarming : calm.Carries {} alarming where
  hiddenMint := id
  singleAuthority := nofun
  suspicious := nofun
  complex := id
  suspect := nofun
  sparse := id
  soleCandidate := nofun
  concentrated := id
  volatile := id
  others := id
  invokes := id

end Evidence

theorem scores_follow_signals_alarming :
    Policies.Nonnegative {} ∧ Evidence.calm.Carries {} Evidence.alarming ∧
    (∃ before, Evidence.calm.safety {} = .ok before ∧ before.score = 60) ∧
    (∃ after, Evidence.alarming.safety {} = .ok after ∧ after.score = 35) ∧
    Evidence.calm.Scored {} ∧ Evidence.alarming.Scored {} ∧
    Evidence.NoMilder {} Evidence.calm Evidence.alarming := by
  have hsigns : Policies.Nonnegative {} := ⟨by decide, by decide, by decide, by decide⟩
  have hscores := scores_follow_signals hsigns
  exact ⟨hsigns, Evidence.carries_alarming, ⟨_, rfl, by decide +kernel⟩, ⟨_, rfl, by decide +kernel⟩,
    hscores.1 _, hscores.1 _, hscores.2 _ _ Evidence.carries_alarming⟩

end Score

end ProgramAudit
