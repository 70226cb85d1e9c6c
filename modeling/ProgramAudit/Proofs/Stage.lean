import ProgramAudit.Proofs.Routine.Live
import ProgramAudit.Proofs.Routine.Logs
import ProgramAudit.Proofs.Routine.Settles
import ProgramAudit.Stage

/-! What becomes of the work of a stage: its value, or a fallback with a reason that can be read. -/

namespace ProgramAudit

variable {τ σ α : Type}

theorem Fault.name_ne_empty (kind : Fault) : kind.name ≠ "" := by
  cases kind with
  | exchange name => exact name.named
  | _ => decide

theorem Failure.name_ne_empty (failure : Failure) : failure.name ≠ "" := by
  cases failure with
  | invalidInput message => exact (by decide : "InputValidationError" ≠ "")
  | transient message status => exact (by decide : "TransientFetchError" ≠ "")
  | refused message code => exact (by decide : "RpcResponseError" ≠ "")
  | misconfigured message => exact (by decide : "ConfigurationError" ≠ "")
  | fault kind detail => exact kind.name_ne_empty

namespace StageResult

section Values

variable [Assessed α]

/-- What a stage makes of the result of its work. -/
def ofResult (stage : String) (limit : Option Number) (fallback : α) :
    Result α → StageResult α
  | .ok value => .ofValue stage value
  | .error failure => .ofFailure stage limit fallback failure

theorem stage_ofResult (stage : String) (limit : Option Number) (fallback : α)
    (result : Result α) : (ofResult stage limit fallback result).stage = stage := by
  cases result <;> rfl

/-- The fallback stands in exactly for a failure. -/
theorem value_ofResult {stage : String} {limit : Option Number} {fallback : α} {result : Result α} :
    (ofResult stage limit fallback result).value = result.toOption.getD fallback := by
  cases result <;> rfl

/-- A stage that is computed has the value of its work. -/
theorem exists_of_computed {stage : String} {limit : Option Number} {fallback : α}
    {result : Result α} (h : (ofResult stage limit fallback result).computed = true) :
    ∃ value, result = .ok value ∧ (ofResult stage limit fallback result).value = value := by
  cases result with
  | ok value => exact ⟨value, rfl, value_ofResult⟩
  | error failure => cases h

end Values

theorem reasonOf_ne_empty (failure : Failure) : reasonOf failure ≠ "" := by
  unfold reasonOf
  split
  · exact failure.name_ne_empty
  · assumption

theorem failureText_ne_empty (limit : Option Number) (failure : Failure) :
    failureText limit failure ≠ "" := by
  unfold failureText
  split
  · intro htext
    exact absurd (String.append_eq_empty_iff.mp htext).2 (by decide : "s" ≠ "")
  · exact reasonOf_ne_empty failure

/-- There is a reason exactly for a stand-in, and it can be read. -/
structure Explains (computed : Bool) (error : Option String) : Prop where
  computed : error = none ↔ computed = true
  reason : ∀ reason, error = some reason → reason ≠ ""

theorem explains_value : Explains true none where
  computed := iff_of_true rfl rfl
  reason := nofun

theorem explains_standIn {reason : String} (h : reason ≠ "") : Explains false (some reason) where
  computed := iff_of_false nofun Bool.false_ne_true
  reason := by
    rintro _ ⟨⟩
    exact h

theorem explains_ofResult [Assessed α] (stage : String) (limit : Option Number) (fallback : α)
    (result : Result α) : Explains (ofResult stage limit fallback result).computed
      (ofResult stage limit fallback result).error := by
  cases result with
  | ok value =>
      unfold ofResult ofValue
      dsimp only
      cases Assessed.computed value with
      | true => exact explains_value
      | false => exact explains_standIn (by decide : neutralText ≠ "")
  | error failure => exact explains_standIn (failureText_ne_empty limit failure)

end StageResult

namespace Stage

variable [Clock τ] [Assessed α]

theorem settles_conclude (stage : String) (limit : Option Number) (fallback : α)
    (result : Result α) :
    (conclude stage limit fallback result : Routine τ σ (StageResult α)).Settles
      (· = .ok (.ofResult stage limit fallback result)) := by
  cases result with
  | ok value => exact Routine.settles_succeed rfl
  | error failure =>
      exact Routine.settles_bind_value (A := fun _ => True) (Routine.settles_note trivial)
        fun _ _ => Routine.settles_succeed rfl

/-- A stage settles with what it makes of a result that its work can settle with. -/
theorem settles_run {P : Result α → Prop} {stage : String} {limit : Option Number} {fallback : α}
    {work : Routine τ σ α} (h : work.Settles P) :
    (run stage limit fallback work).Settles (Routine.Value fun outcome =>
      ∃ result, P result ∧ outcome = .ofResult stage limit fallback result) := by
  refine Routine.settles_inStage.mpr
    (Routine.settles_bind (Routine.settles_mapResult.mpr h) (P := Routine.Value P) ?_ ?_)
  · intro result hresult
    refine (settles_conclude stage limit fallback result).mono fun outcome houtcome => ?_
    subst houtcome
    exact ⟨result, hresult, rfl⟩
  · exact fun failure hfailure => hfailure

theorem settles_runTimed {P : Result α → Prop} {stage : String} {limit : Option Number}
    {fallback : α} {work : Routine τ σ α} (h : work.Settles P)
    (htimeout : P (.error Routine.timeout)) :
    (runTimed stage limit fallback work).Settles (Routine.Value fun outcome =>
      ∃ result, P result ∧ outcome = .ofResult stage limit fallback result) :=
  settles_run (Routine.settles_within h htimeout)

theorem live_run {stage : String} {limit : Option Number} {fallback : α} {work : Routine τ σ α}
    (h : work.Live) : (run stage limit fallback work).Live := by
  refine Routine.live_inStage (Routine.live_bind (Routine.live_mapResult h) fun result => ?_)
  cases result with
  | ok value => exact Routine.live_succeed _
  | error failure =>
      exact Routine.live_bind (Routine.live_note _) fun _ => Routine.live_succeed _

theorem live_runTimed {stage : String} {limit : Option Number} {fallback : α}
    {work : Routine τ σ α} (h : limit.isSome = true) :
    (runTimed stage limit fallback work).Live := by
  obtain ⟨span, rfl⟩ := Option.isSome_iff_exists.mp h
  exact live_run (Routine.live_within span work)

/-! ### Beside a log -/

section Logs

variable {E : Type} {T : Multiset E → Option (Result α) → Prop} {stage : String}
  {limit : Option Number} {fallback : α} {work : Routine τ (σ × List E) α}

/-- What the work of a stage has written, and that the stage makes its outcome of a result of that
work. -/
def Concluded (T : Multiset E → Option (Result α) → Prop) (stage : String) (limit : Option Number)
    (fallback : α) (own : Multiset E) (seen : Option (Result (StageResult α))) : Prop :=
  (∃ before, T own before) ∧ ∀ outcome, seen = some (.ok outcome) →
    ∃ result, outcome = .ofResult stage limit fallback result ∧
      ∀ value, result = .ok value → T own (some (.ok value))

theorem logs_conclude (result : Result α) :
    (conclude stage limit fallback result : Routine τ (σ × List E) (StageResult α)).Logs
      (fun own seen => own = 0 ∧ ∀ outcome, seen = some (.ok outcome) →
        outcome = .ofResult stage limit fallback result) Routine.Once 0 none := by
  cases result with
  | ok value =>
      exact Routine.logs_ofResult ⟨rfl, nofun⟩ ⟨rfl, fun _ hseen => by cases hseen; rfl⟩
  | error failure =>
      exact Routine.logs_note_bind
        (Routine.logs_ofResult ⟨rfl, nofun⟩ ⟨rfl, fun _ hseen => by cases hseen; rfl⟩)

theorem concluded_run (h : work.Logs T Routine.Once 0 none) :
    (run stage limit fallback work).Logs (Concluded T stage limit fallback) Routine.Once 0
      none := by
  have hattempt : work.attempt.Logs (fun own seen => ∃ before, T own before ∧
      seen = before.map .ok) Routine.Once 0 none :=
    Routine.logs_mapResult h fun own seen hholds => ⟨seen, hholds, rfl⟩
  refine Routine.logs_inStage ((Routine.logs_bind hattempt fun result _ _ =>
    logs_conclude result).mono fun own seen hthen => ?_)
  cases hthen with
  | first hfirst =>
      obtain ⟨before, hbefore, -⟩ := hfirst
      exact ⟨⟨before, hbefore⟩, nofun⟩
  | failed hfirst =>
      obtain ⟨before, hbefore, -⟩ := hfirst
      exact ⟨⟨before, hbefore⟩, nofun⟩
  | @second _ _ result _ hfirst hlast =>
      obtain ⟨before, hbefore, hresult⟩ := hfirst
      obtain ⟨rfl, houtcome⟩ := hlast
      rw [add_zero]
      refine ⟨⟨before, hbefore⟩, fun outcome hseen => ⟨result, houtcome outcome hseen, ?_⟩⟩
      rintro value rfl
      cases before with
      | none => cases hresult
      | some result =>
          cases hresult
          exact hbefore

theorem concluded_runTimed (h : work.Logs T Routine.Once 0 none) :
    (runTimed stage limit fallback work).Logs (Concluded T stage limit fallback) Routine.Once 0
      none := by
  refine (concluded_run (Routine.logs_within h)).mono fun own seen hconcluded => ?_
  obtain ⟨⟨before, hbefore⟩, houtcome⟩ := hconcluded
  refine ⟨?_, fun outcome hseen => ?_⟩
  · cases hbefore with
    | within hholds => exact ⟨_, hholds⟩
    | late hholds => exact ⟨_, hholds⟩
  · obtain ⟨result, hresult, hvalue⟩ := houtcome outcome hseen
    refine ⟨result, hresult, fun value hok => ?_⟩
    cases hvalue value hok with
    | within hholds => exact hholds

end Logs

end Stage

end ProgramAudit
