import ProgramAudit.Proofs.Failure
import ProgramAudit.Proofs.Routine.Tells
import ProgramAudit.Routine.Retry

/-!
Attempts at a fetch, as they show from outside: when the fetch is called, what it comes to, and which
delays are slept. A failure that may pass has the next delay and a further attempt behind it as long
as a delay is left, and any other outcome is the last.
-/

namespace ProgramAudit

namespace Result

variable {α β : Type}

/-- A failure that may pass. -/
def IsTransient (result : Result α) : Prop :=
  result.FailsBy fun failure => failure.isTransient = true

theorem not_isTransient_ok {value : α} : ¬IsTransient (.ok value : Result α) := not_failsBy_ok

theorem isTransient_error {failure : Failure} :
    IsTransient (.error failure : Result α) ↔ failure.isTransient = true := failsBy_error

theorem IsTransient.exists_eq {result : Result α} (h : result.IsTransient) :
    ∃ message status, result = .error (.transient message status) := by
  obtain ⟨failure, hfailure, htransient⟩ := h
  cases failure with
  | transient message status => exact ⟨message, status, hfailure⟩
  | _ => cases htransient

theorem not_isTransient_bind {found : Result α} {f : α → Result β}
    (hfound : ¬found.IsTransient) (hf : ∀ value, ¬(f value).IsTransient) :
    ¬(found >>= f).IsTransient := by
  intro h
  rcases failsBy_bind.mp h with hleft | ⟨value, -, hright⟩
  · exact hfound hleft
  · exact hf value hright

end Result

namespace Routine

open Result

variable {τ σ α β : Type}

/-- Attempts with one of the delays behind each, in their order, and a last attempt. -/
def course {ω E : Type} (attempt : ω → List E) (pause : Number → E) :
    List ω → List Number → ω → List E
  | outcome :: before, delay :: delays, last =>
    attempt outcome ++ pause delay :: course attempt pause before delays last
  | _, _, last => attempt last

@[simp]
theorem course_cons {ω E : Type} {attempt : ω → List E} {pause : Number → E} {outcome last : ω}
    {before : List ω} {delay : Number} {delays : List Number} :
    course attempt pause (outcome :: before) (delay :: delays) last =
      attempt outcome ++ pause delay :: course attempt pause before delays last := rfl

/-- A sleep that notes its delay. -/
def slept {E : Type} (pause : Number → E) (sleep : Number → Routine τ σ Unit) (delay : Number) :
    Routine τ (σ × List E) Unit :=
  (sleep delay).observed [pause delay] fun _ => []

/-- What shows of attempts: the fetch is called, it comes to an outcome, a delay is slept. -/
inductive Step (α : Type) where
  | called
  | came (outcome : Result α)
  | slept (delay : Number)

namespace Step

def isCall : Step α → Bool
  | .called => true
  | _ => false

def outcome? : Step α → Option (Result α)
  | .came outcome => some outcome
  | _ => none

def delay? : Step α → Option Number
  | .slept delay => some delay
  | _ => none

def attempt (outcome : Result α) : List (Step α) := [.called, .came outcome]

abbrev course (before : List (Result α)) (delays : List Number) (last : Result α) : List (Step α) :=
  Routine.course attempt .slept before delays last

variable {before : List (Result α)} {delays : List Number} {last : Result α}

/-- By induction on the attempts before the last, none of which is without a delay of its own. -/
theorem course_induction {P : List (Result α) → List Number → List (Step α) → Prop}
    (hlast : ∀ delays, P [] delays (attempt last))
    (hagain : ∀ outcome before delay delays, P before delays (course before delays last) →
      P (outcome :: before) (delay :: delays)
        (.called :: .came outcome :: .slept delay :: course before delays last))
    (h : before.length ≤ delays.length) : P before delays (course before delays last) := by
  induction before generalizing delays with
  | nil => exact hlast delays
  | cons outcome before ih =>
      cases delays with
      | nil => exact absurd h (Nat.not_succ_le_zero _)
      | cons delay delays => exact hagain _ _ _ _ (ih (Nat.le_of_succ_le_succ h))

theorem calls_course (h : before.length ≤ delays.length) :
    ((course before delays last).filter isCall).length = before.length + 1 := by
  refine course_induction (P := fun before _ steps =>
    (steps.filter isCall).length = before.length + 1) (fun _ => rfl) ?_ h
  intro outcome before delay delays ih
  simp [List.filter_cons, isCall, ih]

theorem outcomes_course (h : before.length ≤ delays.length) :
    (course before delays last).filterMap outcome? = before ++ [last] := by
  refine course_induction (P := fun before _ steps =>
    steps.filterMap outcome? = before ++ [last]) (fun _ => rfl) ?_ h
  intro outcome before delay delays ih
  simp [List.filterMap_cons, outcome?, ih]

theorem delays_course (h : before.length ≤ delays.length) :
    (course before delays last).filterMap delay? = delays.take before.length := by
  refine course_induction (P := fun before delays steps =>
    steps.filterMap delay? = delays.take before.length) (fun _ => rfl) ?_ h
  intro outcome before delay delays ih
  simp [List.filterMap_cons, delay?, ih]

end Step

/-! ### How attempts end -/

/-- The failure in which attempts end that all fail for a while. It has the status of the last. -/
def exhaustion (operation : String) (attempts : Nat) (message : String) (status : Option Int) :
    Failure :=
  .transient s!"{operation} failed after {attempts} attempts: {message}" status

/-- The last attempt settles it, or it fails for a while as well and no delay is left. -/
inductive Concludes (operation : String) (attempts : Nat) (isSpent : Prop) :
    Result α → Result α → Prop
  | settled {last : Result α} : ¬last.IsTransient → Concludes operation attempts isSpent last last
  | exhausted {message : String} {status : Option Int} : isSpent →
    Concludes operation attempts isSpent (.error (.transient message status))
      (.error (exhaustion operation attempts message status))

/-- Attempts that may have these delays between them. All before the last fail for a while, and what
the last one comes to concludes them. -/
structure Attempts (operation : String) (attempts : Nat) (delays : List Number)
    (before : List (Result α)) (last result : Result α) : Prop where
  within : before.length ≤ delays.length
  pass : ∀ outcome ∈ before, outcome.IsTransient
  concludes : Concludes operation attempts (before.length = delays.length) last result

variable {operation : String} {attempts : Nat} {delays : List Number}
  {before : List (Result α)} {last result : Result α}

/-- Every delay is used up, and still every attempt has failed for a while. -/
def Exhausted (delays : List Number) (steps : List (Step α)) : Prop :=
  (steps.filterMap Step.outcome?).length = delays.length + 1 ∧
    ∀ outcome ∈ steps.filterMap Step.outcome?, outcome.IsTransient

theorem Attempts.isTransient_iff (h : Attempts operation attempts delays before last result) :
    result.IsTransient ↔ Exhausted delays (Step.course before delays last) := by
  unfold Exhausted
  rw [Step.outcomes_course h.within]
  obtain ⟨hwithin, hpass, hlast | hspent⟩ := h
  · refine iff_of_false hlast fun hall => hlast (hall.2 _ ?_)
    exact List.mem_append_right _ (List.mem_singleton_self _)
  · refine iff_of_true ⟨_, rfl, rfl⟩ ⟨by simp [hspent], fun outcome houtcome => ?_⟩
    rcases List.mem_append.mp houtcome with hbefore | hlast
    · exact hpass outcome hbefore
    · obtain rfl := List.mem_singleton.mp hlast
      exact ⟨_, rfl, rfl⟩

theorem attempts_last (h : Concludes operation attempts (0 = delays.length) last result) :
    Attempts operation attempts delays [] last result where
  within := Nat.zero_le _
  pass _ houtcome := absurd houtcome List.not_mem_nil
  concludes := h

theorem Attempts.again {outcome : Result α} (delay : Number)
    (h : Attempts operation attempts delays before last result) (houtcome : outcome.IsTransient) :
    Attempts operation attempts (delay :: delays) (outcome :: before) last result where
  within := Nat.succ_le_succ h.within
  pass other hother := by
    rcases List.mem_cons.mp hother with rfl | hbefore
    · exact houtcome
    · exact h.pass other hbefore
  concludes := by
    have hspent : (outcome :: before).length = (delay :: delays).length ↔
        before.length = delays.length := Nat.succ_inj
    rw [hspent]
    exact h.concludes

/-! ### What attempts write -/

/-- A fetch that notes when it is called and what it comes to. -/
def called (fetch : Routine τ σ α) : Routine τ (σ × List (Step α)) α :=
  fetch.observed [.called] fun outcome => [.came outcome]

/-- What attempts with these delays come to, and what they have written, the last step first. -/
def Attempted (operation : String) (attempts : Nat) (delays : List Number)
    (written : List (Step α)) (result : Result α) (all : List (Step α)) : Prop :=
  ∃ before last, Attempts operation attempts delays before last result ∧
    all = (Step.course before delays last).reverse ++ written

theorem tells_settled {written : List (Step α)} (h : ¬result.IsTransient) :
    Attempted operation attempts delays written result (.came result :: .called :: written) :=
  ⟨[], result, attempts_last (.settled h), rfl⟩

theorem tells_exhausted {written : List (Step α)} {message : String} {status : Option Int} :
    Attempted operation attempts [] written
      (.error (exhaustion operation attempts message status) : Result α)
      (.came (.error (.transient message status)) :: .called :: written) :=
  ⟨[], .error (.transient message status), attempts_last (.exhausted rfl), rfl⟩

theorem tells_called (fetch : Routine τ σ α) (written : List (Step α)) :
    (called fetch).Tells (fun outcome all => all = .came outcome :: .called :: written) written :=
  (tells_observed (settles_true fetch) _ _ written).mono fun _ _ h => h.2

variable [Clock τ] {fetch : Routine τ σ α} {sleep : Number → Routine τ σ Unit}

theorem tells_attemptsFrom (hsleep : ∀ delay, (sleep delay).Settles (· = .ok ())) (attempt : Nat)
    (written : List (Step α)) :
    (attemptsFrom operation (slept .slept sleep) (called fetch) attempt attempts delays).Tells
      (Attempted operation attempts delays written) written := by
  -- The log grows in front, so what a further attempt writes is put before what is there.
  induction delays generalizing attempt written with
  | nil =>
      refine tells_rescue (tells_called fetch written) ?_ ?_
      · rintro value _ rfl
        exact tells_settled not_isTransient_ok
      · rintro failure _ rfl
        cases failure with
        | transient message status => exact tells_ofResult tells_exhausted
        | _ => exact tells_ofResult (tells_settled (mt isTransient_error.mp Bool.false_ne_true))
  | cons delay delays ih =>
      refine tells_rescue (tells_called fetch written) ?_ ?_
      · rintro value _ rfl
        exact tells_settled not_isTransient_ok
      · rintro failure _ rfl
        cases failure with
        | transient message status =>
            refine tells_note_bind (tells_bind (tells_observed (hsleep delay) _ _ _) ?_ ?_)
            · rintro value _ ⟨-, rfl⟩
              refine (ih (attempt + 1) _).mono ?_
              rintro result _ ⟨before, last, hattempts, rfl⟩
              exact ⟨.error (.transient message status) :: before, last,
                hattempts.again delay ⟨_, rfl, rfl⟩, by simp [Step.attempt]⟩
            · rintro failure _ ⟨⟨⟩, -⟩
        | _ => exact tells_ofResult (tells_settled (mt isTransient_error.mp Bool.false_ne_true))

theorem live_rescue {handle : Failure → Routine τ σ α} (h : fetch.Live)
    (hhandle : ∀ failure, (handle failure).Live) : (fetch.rescue handle).Live := by
  refine live_bind (live_mapResult h) fun result => ?_
  cases result with
  | ok value => exact live_succeed value
  | error failure => exact hhandle failure

theorem live_attemptsFrom (hfetch : fetch.Live) (hsleep : ∀ delay, (sleep delay).Live)
    (attempt : Nat) : (attemptsFrom operation sleep fetch attempt attempts delays).Live := by
  induction delays generalizing attempt with
  | nil =>
      refine live_rescue hfetch fun failure => ?_
      cases failure with
      | transient message status =>
          exact live_bind (live_note _) fun _ => live_bind (live_note _) fun _ => live_ofResult _
      | _ => exact live_ofResult _
  | cons delay delays ih =>
      refine live_rescue hfetch fun failure => ?_
      cases failure with
      | transient message status =>
          exact live_bind (live_note _) fun _ => live_bind (hsleep delay) fun _ => ih (attempt + 1)
      | _ => exact live_ofResult _

/-- If every attempt and every sleep is over some time, so are the attempts together. -/
theorem run_retry_live (operation : String) (delays : List Number) (hfetch : fetch.Live)
    (hsleep : ∀ delay, (sleep delay).Live) (progress : Progress τ (σ × List (Step α))) : ∃ result,
      (run progress (retry operation delays (slept .slept sleep) (called fetch))).result =
        some result :=
  run_live progress (live_attemptsFrom (live_observed hfetch _ _)
    (fun delay => live_observed (hsleep delay) _ _) 1)

/-- Attempts write the course that they take. -/
theorem run_retry (hsleep : ∀ delay, (sleep delay).Settles (· = .ok ()))
    {progress : Progress τ (σ × List (Step α))}
    (hresult : (run progress (retry operation delays (slept .slept sleep) (called fetch))).result =
      some result) : ∃ before last,
      Attempts operation (delays.length + 1) delays before last result ∧
      (run progress (retry operation delays (slept .slept sleep) (called fetch))).final.state.2 =
        (Step.course before delays last).reverse ++ progress.state.2 := by
  obtain ⟨all, ⟨before, last, hattempts, rfl⟩, hlog⟩ :=
    run_tells (tells_attemptsFrom hsleep 1 []) rfl hresult
  rw [List.append_nil] at hlog
  exact ⟨before, last, hattempts, hlog⟩

end Routine

end ProgramAudit
