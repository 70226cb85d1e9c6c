import ProgramAudit.Proofs.Routine.Attempts
import ProgramAudit.Traffic.Window

/-!
Attempts at the transactions of a timeframe. Whoever asks for transactions sees the attempts end in
the same way, except that those who can do without any are given none when every attempt has failed.
-/

namespace ProgramAudit

open Ledger Routine Result

variable {τ σ α β : Type}

/-- A source that notes when its transactions are asked for and what that comes to. -/
def Ledger.Source.attempted (source : Source τ σ) :
    Source τ (σ × List (Step (Option (List Transaction)))) where
  account address := (source.account address).lift
  transactions address limit := called (source.transactions address limit)
  mint mint := (source.mint mint).lift

namespace Traffic

/-! ### Timeframes -/

namespace Timeframe

theorem not_isTransient_seconds? (timeframe : Option String) :
    ¬(seconds? timeframe).IsTransient := by
  unfold seconds?
  rintro ⟨failure, hfailure, htransient⟩
  split at hfailure
  · cases hfailure
  · dsimp only at hfailure
    split_ifs at hfailure
    repeat' split at hfailure
    all_goals cases hfailure
    all_goals cases htransient

theorem not_isTransient_minus (left right : Number) : ¬(left.minus right).IsTransient := by
  unfold Number.minus
  rintro ⟨failure, hfailure, htransient⟩
  cases hdifference : left.sub? right <;> rw [hdifference] at hfailure <;> cases hfailure
  cases htransient

theorem not_isTransient_keeps (cutoff : Number) (transaction : Transaction) :
    ¬(keeps cutoff transaction).IsTransient := by
  unfold keeps
  rintro ⟨failure, hfailure, htransient⟩
  split_ifs at hfailure
  split at hfailure
  all_goals cases hfailure
  all_goals cases htransient

theorem not_isTransient_filterM {keep : α → Result Bool} (h : ∀ item, ¬(keep item).IsTransient)
    (items : List α) : ¬(items.filterM keep).IsTransient := by
  have hfrom (found : List α) : ¬(items.filterAuxM keep found).IsTransient := by
    induction items generalizing found with
    | nil => exact not_isTransient_ok
    | cons item items ih => exact not_isTransient_bind (h item) fun kept => ih _
  exact not_isTransient_bind (hfrom []) fun found => not_isTransient_ok

theorem not_isTransient_filter (timeframe : Option String) (now : Number)
    (transactions : List Transaction) : ¬(filter timeframe now transactions).IsTransient := by
  refine not_isTransient_bind (not_isTransient_seconds? timeframe) fun window => ?_
  cases window with
  | none => exact not_isTransient_ok
  | some window =>
      refine not_isTransient_bind (not_isTransient_minus now (.int window)) fun cutoff => ?_
      exact not_isTransient_filterM (not_isTransient_keeps cutoff) transactions

end Timeframe

/-! ### Fetching -/

namespace Window

variable [Clock τ] {source : Source τ σ} {sleep : Number → Routine τ σ Unit} {plan : FetchPlan}
  {now : Number} {address : String}

/-- The result is a failure that may pass exactly when every attempt that was written failed so. -/
def Fetched (delays : List Number) (result : Result (List Transaction))
    (written : List (Step (Option (List Transaction)))) : Prop :=
  result.IsTransient ↔ Exhausted delays written.reverse

theorem tells_fetch (hsleep : ∀ delay, (sleep delay).Settles (· = .ok ())) :
    (fetch source.attempted (slept .slept sleep) plan now address).Tells
      (Fetched plan.retryDelays) [] := by
  have hseconds : (ofResult (Timeframe.seconds? plan.timeframe) :
      Routine τ (σ × List (Step (Option (List Transaction)))) (Option Int)).Tells
        (fun result written => ¬result.IsTransient ∧ written = []) [] :=
    tells_ofResult ⟨Timeframe.not_isTransient_seconds? _, rfl⟩
  have hattempts : (retry "get_transactions" plan.retryDelays (slept .slept sleep)
      (source.attempted.transactions address plan.limit)).Tells
        (fun found written => found.IsTransient ↔ Exhausted plan.retryDelays written.reverse) [] := by
    refine (tells_attemptsFrom hsleep 1 []).mono ?_
    rintro found _ ⟨before, last, hfound, rfl⟩
    rw [List.append_nil, List.reverse_reverse]
    exact hfound.isTransient_iff
  refine tells_bind hseconds ?_ ?_
  · rintro window _ ⟨-, rfl⟩
    refine tells_bind hattempts ?_ ?_
    · intro found written hfound
      have hleft : ¬Exhausted plan.retryDelays written.reverse :=
        mt hfound.mpr not_isTransient_ok
      have hkept : (ofResult (Timeframe.filter plan.timeframe now (found.getD [])) :
          Routine τ (σ × List (Step (Option (List Transaction)))) (List Transaction)).Tells
            (fun result all => ¬result.IsTransient ∧ all = written) written :=
        tells_ofResult ⟨Timeframe.not_isTransient_filter _ _ _, rfl⟩
      refine tells_bind hkept ?_ ?_
      · rintro kept _ ⟨-, rfl⟩
        exact tells_note_bind (tells_ofResult (iff_of_false not_isTransient_ok hleft))
      · rintro failure _ ⟨hfailure, rfl⟩
        exact iff_of_false hfailure hleft
    · exact fun failure written => Iff.trans (isTransient_error.trans isTransient_error.symm)
  · rintro failure _ ⟨hfailure, rfl⟩
    have hlasts : ¬IsTransient (.error failure : Result (List Transaction)) :=
      fun h => hfailure (isTransient_error.mpr (isTransient_error.mp h))
    exact iff_of_false hlasts fun hexhausted => by simp [Exhausted] at hexhausted

/-- Whoever can do without transactions sees the same, but for none where every attempt failed. -/
theorem run_fetchIfReachable (source : Source τ σ) (plan : FetchPlan) (now : Number)
    (address : String) (hsleep : ∀ delay, (sleep delay).Settles (· = .ok ()))
    (progress : Progress τ (σ × List (Step (Option (List Transaction))))) :
    (run progress (fetchIfReachable source.attempted (slept .slept sleep) plan now address)).result =
        (run progress (fetch source.attempted (slept .slept sleep) plan now address)).result.map
          (fun result => result.tryCatch fun failure =>
            if failure.isTransient then .ok [] else .error failure) ∧
      (run progress
          (fetchIfReachable source.attempted (slept .slept sleep) plan now address)).final.state.2 =
        (run progress
          (fetch source.attempted (slept .slept sleep) plan now address)).final.state.2 := by
  refine run_rescue_prompt (tells_fetch hsleep) (fun failure => ?_) progress
  split_ifs
  · exact .record .settle
  · exact .settle

/-- Attempts go on exactly while they fail for a while and a delay is left: each such failure has its
own delay and a further attempt behind it. The last attempt is followed by no delay, and what it
comes to is the result, unless every attempt has failed for a while. Those who can do without
transactions are given none in that case, and in every other the same. -/
theorem attempts_on_schedule (hsleep : ∀ delay, (sleep delay).Settles (· = .ok ())) :
    (∀ (α : Type) (operation : String) (delays : List Number) (fetch : Routine τ σ α)
        (progress : Progress τ (σ × List (Step α))),
      let attempted := run progress (retry operation delays (slept .slept sleep) (called fetch))
      (fetch.Live → (∀ delay, (sleep delay).Live) → attempted.result.isSome = true) ∧
      ∀ result, attempted.result = some result → ∃ before last,
        Attempts operation (delays.length + 1) delays before last result ∧
        attempted.final.state.2 = (Step.course before delays last).reverse ++ progress.state.2 ∧
        ((Step.course before delays last).filter Step.isCall).length = before.length + 1 ∧
        (Step.course before delays last).filterMap Step.outcome? = before ++ [last] ∧
        (Step.course before delays last).filterMap Step.delay? = delays.take before.length) ∧
    ∀ (source : Source τ σ) (plan : FetchPlan) (now : Number) (address : String)
        (progress : Progress τ (σ × List (Step (Option (List Transaction))))),
      let fetched := run progress (fetch source.attempted (slept .slept sleep) plan now address)
      let reached :=
        run progress (fetchIfReachable source.attempted (slept .slept sleep) plan now address)
      reached.final.state.2 = fetched.final.state.2 ∧
      (fetched.result = none → reached.result = none) ∧
      ∀ result, fetched.result = some result → ∃ steps,
        fetched.final.state.2 = steps.reverse ++ progress.state.2 ∧
        (Exhausted plan.retryDelays steps → result.IsTransient ∧ reached.result = some (.ok [])) ∧
        (¬Exhausted plan.retryDelays steps → reached.result = some result) := by
  constructor
  · intro α operation delays fetch progress
    refine ⟨fun hfetch hlive => ?_, fun result hresult => ?_⟩
    · obtain ⟨result, hresult⟩ := run_retry_live operation delays hfetch hlive progress
      exact Option.isSome_of_eq_some hresult
    · obtain ⟨before, last, hattempts, hlog⟩ := run_retry hsleep hresult
      exact ⟨before, last, hattempts, hlog, Step.calls_course hattempts.within,
        Step.outcomes_course hattempts.within, Step.delays_course hattempts.within⟩
  · intro source plan now address progress
    obtain ⟨hreached, hlog⟩ := run_fetchIfReachable source plan now address hsleep progress
    refine ⟨hlog, fun hnone => by rw [hreached, hnone]; rfl, fun result hresult => ?_⟩
    obtain ⟨all, hfetched, hall⟩ := run_tells (tells_fetch hsleep) rfl hresult
    refine ⟨all.reverse, by rw [hall, List.reverse_reverse], fun hexhausted => ?_, fun hleft => ?_⟩
    · have htransient : result.IsTransient := hfetched.mpr hexhausted
      refine ⟨htransient, ?_⟩
      obtain ⟨failure, rfl, hfailure⟩ := htransient
      rw [hreached, hresult]
      exact congrArg some (if_pos hfailure)
    · have hlasts : ¬result.IsTransient := mt hfetched.mp hleft
      rw [hreached, hresult]
      cases result with
      | ok value => rfl
      | error failure => exact congrArg some (if_neg (mt isTransient_error.mpr hlasts))

/-- A fetch that comes to outcomes that are known beforehand, one after the other. -/
def scripted : Routine Int (List (Result Nat)) Nat :=
  .act List.tail fun outcomes => ofResult (outcomes.headD (.ok 0))

theorem attempts_on_schedule_thrice :
    let script : List (Result Nat) :=
      [.error (.transient "busy" (some 429)), .error (.transient "unreachable" none), .ok 7]
    let attempted := run ⟨0, 0, (script, []), []⟩
      (retry "load" [1, 2, 4] (slept .slept Routine.sleep) (called scripted))
    (∀ delay, (Routine.sleep delay : Routine Int (List (Result Nat)) Unit).Settles (· = .ok ())) ∧
      attempted.result = some (.ok 7) ∧ ∃ before last,
        Attempts "load" 4 [1, 2, 4] before last (.ok 7) ∧
        attempted.final.state.2 = (Step.course before [1, 2, 4] last).reverse ++ [] ∧
        ((Step.course before [1, 2, 4] last).filter Step.isCall).length = before.length + 1 ∧
        (Step.course before [1, 2, 4] last).filterMap Step.outcome? = before ++ [last] ∧
        (Step.course before [1, 2, 4] last).filterMap Step.delay? =
          List.take before.length [1, 2, 4] := by
  intro script attempted
  have hsleep (delay : Number) :
      (Routine.sleep delay : Routine Int (List (Result Nat)) Unit).Settles (· = .ok ()) :=
    settles_sleep rfl
  have hresult : attempted.result = some (.ok 7) := rfl
  exact ⟨hsleep, hresult, ((attempts_on_schedule hsleep).1 Nat "load" [1, 2, 4] scripted
    ⟨0, 0, (script, []), []⟩).2 (.ok 7) hresult⟩

end Window

end Traffic

end ProgramAudit
