import ProgramAudit.Proofs.Failure
import ProgramAudit.Score.Prediction

/-!
The issues that an assessment lists are those of the signals that hold. Every volume is a quantity that
can be compared with a share of it, so the signals can always be read.
-/

namespace ProgramAudit.Traffic.Economics

open Number

/-- A quantity of which any share can be taken. -/
def Divisible (volume : Number) : Prop := volume = 0 ∨ ∃ x, volume = .real x

theorem divisible_sum (values : List Float) : Divisible (Number.sum values) := by
  cases values with
  | nil => exact Or.inl rfl
  | cons first rest => exact Or.inr ⟨_, rfl⟩

theorem divisible_neutral : Divisible neutral.totalVolume := Or.inr ⟨_, rfl⟩

theorem totalVolume_of_ofWindow {policy : EconomicPolicy} {decimals : Decimals} {program : String}
    {window : List Classified} {economics : Economics}
    (h : ofWindow policy decimals program window = .ok economics) :
    economics.totalVolume = Number.sum (window.map volumeOf) := by
  simp only [ofWindow, Result.bind_eq_ok, Result.pure_eq_ok] at h
  obtain ⟨flows, -, volatility, -, rfl⟩ := h
  rfl

theorem times_of_divisible {volume : Number} (h : Divisible volume) (ratio : Float) :
    ∃ bound, volume.times (.real ratio) = .ok bound := by
  rcases h with rfl | ⟨x, rfl⟩
  · exact ⟨_, rfl⟩
  · exact ⟨_, rfl⟩

end ProgramAudit.Traffic.Economics

namespace ProgramAudit.Score

open Traffic

namespace Safety

theorem mem_issues {baseline : Int} {signals : List Signal} {issue : String} :
    issue ∈ (ofSignals baseline signals).risks.map Finding.Risk.issue ↔
      ∃ signal ∈ signals, signal.holds = true ∧ signal.risk.issue = issue := by
  simp [ofSignals, and_assoc]

/-- The signals that hold pay their penalties, every other one nothing. -/
theorem total_held (signals : List Signal) :
    Number.total ((signals.filter Signal.holds).map Signal.penalty) =
      Number.total (signals.map fun signal => if signal.holds = true then signal.penalty else 0) := by
  induction signals with
  | nil => rfl
  | cons signal signals ih =>
      have hrest : (signals.map fun signal => if signal.holds = true then signal.penalty else 0).foldr
          (· + ·) 0 = ((signals.filter Signal.holds).map Signal.penalty).foldr (· + ·) 0 := ih.symm
      by_cases hholds : signal.holds = true
      · simp [Number.total, hholds, hrest]
      · simp [Number.total, hholds, hrest]

section Signals

variable {baseline : Int} {policy : SafetyPolicy} {profile : Program.Profile}
  {authorities : List Control.Authority} {suspicious : Bool} {graph : CallGraph}

theorem mem_hiddenMint : hiddenMint.issue ∈ (ofSignals baseline
    (signals policy profile authorities suspicious graph)).risks.map Finding.Risk.issue ↔
    profile.hiddenMint = true := by
  simp [mem_issues, signals, hiddenMint, singleAuthority, suspiciousVolume, complexGraph]

theorem mem_singleAuthority : singleAuthority.issue ∈ (ofSignals baseline
    (signals policy profile authorities suspicious graph)).risks.map Finding.Risk.issue ↔
    authorities.length = 1 := by
  simp [mem_issues, signals, hiddenMint, singleAuthority, suspiciousVolume, complexGraph]

theorem mem_suspiciousVolume : suspiciousVolume.issue ∈ (ofSignals baseline
    (signals policy profile authorities suspicious graph)).risks.map Finding.Risk.issue ↔
    suspicious = true := by
  simp [mem_issues, signals, hiddenMint, singleAuthority, suspiciousVolume, complexGraph]

theorem mem_complexGraph : complexGraph.issue ∈ (ofSignals baseline
    (signals policy profile authorities suspicious graph)).risks.map Finding.Risk.issue ↔
    policy.complexGraphEdges < graph.edges.length := by
  simp [mem_issues, signals, hiddenMint, singleAuthority, suspiciousVolume, complexGraph]

/-- The issues stand in the order of the signals, each at most once. -/
theorem issues_sublist : ((ofSignals baseline
    (signals policy profile authorities suspicious graph)).risks.map Finding.Risk.issue).Sublist
      [hiddenMint.issue, singleAuthority.issue, suspiciousVolume.issue, complexGraph.issue] := by
  have hheld := (List.filter_sublist (p := Signal.holds)
    (l := signals policy profile authorities suspicious graph)).map
      fun signal => signal.risk.issue
  simpa [ofSignals, signals, Function.comp_def] using hheld

/-- The penalties together never reach the bounds of the score. -/
theorem score_eq : (ofSignals 80 (signals {} profile authorities suspicious graph)).score =
    80 - ((if profile.hiddenMint = true then 20 else 0) +
      (if authorities.length = 1 then 10 else 0) + (if suspicious = true then 15 else 0) +
      (if 50 < (graph.edges.length : Int) then 10 else 0)) := by
  have htotal : Number.total (((signals {} profile authorities suspicious graph).filter
      Signal.holds).map Signal.penalty) = (if profile.hiddenMint = true then 20 else 0) +
      ((if authorities.length = 1 then 10 else 0) + ((if suspicious = true then 15 else 0) +
        (if 50 < (graph.edges.length : Int) then 10 else 0))) := by
    rw [total_held]
    simp [signals, Number.total]
  simp only [ofSignals, htotal, clamp]
  omega

end Signals

/-- An assessment of a divisible volume does not fail. -/
theorem assess_eq (profile : Program.Profile) (authorities : List Control.Authority)
    {economics : Economics} (h : Economics.Divisible economics.totalVolume) (graph : CallGraph) :
    ∃ suspicious, assess {} (some profile) authorities (some economics) (some graph) =
      .ok (ofSignals 80 (signals {} profile authorities suspicious graph)) := by
  obtain ⟨bound, hbound⟩ := Economics.times_of_divisible h 0.5
  refine ⟨bound.less economics.suspiciousVolume, ?_⟩
  have hsuspicious : isSuspicious ({} : SafetyPolicy).suspiciousVolumeRatio economics =
      .ok (bound.less economics.suspiciousVolume) := by
    unfold isSuspicious
    have hratio : ({} : SafetyPolicy).suspiciousVolumeRatio = .real 0.5 := rfl
    rw [hratio, hbound]
    rfl
  simp only [assess, Option.demand, hsuspicious, bind, Except.bind]
  rfl

end Safety

namespace Prediction

theorem mem_issues {policy : RiskPolicy} {signals : List Signal} {issue : String} :
    issue ∈ (ofSignals policy signals).factors.map RiskFactor.issue ↔
      ∃ signal ∈ signals, signal.holds = true ∧ signal.factor.issue = issue := by
  simp [ofSignals, and_assoc]

section Signals

variable {policy : RiskPolicy} {authorities : List Control.Authority} {economics : Economics}
  {safety : Safety}

theorem mem_singleAuthority : singleAuthority.issue ∈
    (ofSignals policy (signals policy authorities economics safety)).factors.map RiskFactor.issue ↔
    authorities.length = 1 := by
  simp [mem_issues, signals, volatile, singleAuthority, lowSafety]

theorem mem_lowSafety : lowSafety.issue ∈
    (ofSignals policy (signals policy authorities economics safety)).factors.map RiskFactor.issue ↔
    safety.score < policy.lowSafetyThreshold := by
  simp [mem_issues, signals, volatile, singleAuthority, lowSafety]

end Signals

end Prediction

end ProgramAudit.Score
