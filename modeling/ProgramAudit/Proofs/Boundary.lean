import Mathlib.Algebra.Order.Group.Int
import ProgramAudit.Audit.Stages
import ProgramAudit.Proofs.Routine.Ends
import ProgramAudit.Proofs.Routine.Records
import ProgramAudit.Proofs.Routine.Tells
import ProgramAudit.Proofs.Stage

/-!
The boundary of a stage. Nothing that goes wrong within a stage gets out of it: the work has its value
or the fallback stands in for one, with a reason that can be read. Only work that is awaited is held to
the budget. The records that are made within a stage carry its name, whoever runs at the same time, and
those made outside are as they were.
-/

namespace ProgramAudit

open Routine

namespace Journal.Record

variable {stage : String} {entry : Record}

theorem field?_append_of_none {name : String} {value : Json} {fields : List (String × Json)}
    (h : Json.field? name fields = none) :
    Json.field? name (fields ++ [(name, value)]) = some value := by
  induction fields with
  | nil => simp [Json.field?]
  | cons first rest ih =>
      obtain ⟨key, held⟩ := first
      by_cases hkey : key = name
      · simp [Json.field?, hkey] at h
      · simp only [Json.field?, hkey, ↓reduceIte, List.cons_append] at h ⊢
        exact ih h

/-- A record has the name of its stage, unless it names one itself. -/
theorem stage_inStage (stage : String) (entry : Record) :
    Json.field? "stage" (entry.inStage stage).fields =
      some ((Json.field? "stage" entry.fields).getD (.str stage)) := by
  unfold inStage setDefault
  cases hstage : Json.field? "stage" entry.fields with
  | none => exact field?_append_of_none hstage
  | some held => simpa using hstage

end Journal.Record

namespace StageResult

variable {α : Type} [Assessed α] {stage : String} {limit : Option Number} {fallback : α}
  {result : Result α}

theorem computed_ofResult : (ofResult stage limit fallback result).computed = false ↔
    (∃ failure, result = .error failure) ∨
      ∃ value, result = .ok value ∧ Assessed.computed value = false := by
  cases result with
  | error failure => exact iff_of_true rfl (.inl ⟨failure, rfl⟩)
  | ok value => simp [ofResult, ofValue]

end StageResult

namespace Routine

variable {τ σ α : Type} [Clock τ]

/-- Names in records do not touch what a routine comes to. -/
theorem run_inStage (stage : String) (routine : Routine τ σ α) {progress other : Progress τ σ}
    (hnow : progress.now = other.now) (hturn : progress.turn = other.turn)
    (hstate : progress.state = other.state) :
    (run progress (routine.inStage stage)).result = (run other routine).result := by
  induction routine generalizing progress other with
  | halt => rfl
  | settle result rest ih => rfl
  | act update next ih =>
      unfold inStage run
      rw [hstate]
      exact ih _ hnow hturn rfl
  | record entry next ih => exact ih hnow hturn hstate
  | moment next ih =>
      unfold inStage run
      rw [hnow, hturn]
      exact ih _ _ rfl rfl hstate
  | wait due abandon next ih =>
      unfold inStage run
      rw [hstate, hnow]
      cases due other.state with
      | none => rfl
      | some turn => exact ih rfl hturn rfl

end Routine

namespace Stage

/-- A call of the boundary. Work that is awaited is held to the budget, and it has its own way to
react when it is told to end; other work runs in place. -/
structure Call (τ σ α : Type) where
  stage : String
  limit : Option Number
  fallback : α
  work : Routine τ σ α
  awaited : Bool
  reaction : Routine τ σ α → Option (Routine τ σ α) := obedient

variable {τ σ α : Type} [Clock τ]

/-- The work as far as the budget goes. -/
def Call.bounded (call : Call τ σ α) : Routine τ σ α :=
  if call.awaited then Routine.bounded call.limit call.reaction call.work else call.work

theorem Call.bounded_eq_work {call : Call τ σ α} (h : call.awaited = false ∨ call.limit = none) :
    call.bounded = call.work := by
  unfold bounded
  rcases h with hplace | hlimit
  · rw [if_neg (by rw [hplace]; exact Bool.false_ne_true)]
  · rw [hlimit]
    split <;> rfl

variable [Assessed α]

theorem prompt_conclude (stage : String) (limit : Option Number) (fallback : α)
    (result : Result α) :
    Prompt (.ok (.ofResult stage limit fallback result))
      (conclude stage limit fallback result : Routine τ σ (StageResult α)) := by
  cases result with
  | ok value => exact .settle
  | error failure => exact .record .settle

/-- A stage comes to what it makes of the result of its work. -/
theorem run_run (stage : String) (limit : Option Number) (fallback : α) (work : Routine τ σ α)
    (start : Progress τ σ) :
    ((run stage limit fallback work).run start).result =
      (work.run start).result.map fun result => .ok (.ofResult stage limit fallback result) := by
  have hconcluded := run_bind_prompt (prompt_conclude (τ := τ) (σ := σ) stage limit fallback)
    work.attempt start
  unfold run
  rw [run_inStage stage _ rfl rfl rfl, hconcluded, attempt, run_mapResult, Option.map_map]
  rfl

namespace Call

def run (call : Call τ σ α) : Routine τ σ (StageResult α) :=
  Stage.run call.stage call.limit call.fallback call.bounded

theorem live_run {call : Call τ σ α} (hawaited : call.awaited = true)
    (hlimit : call.limit.isSome = true)
    (hreaction : ∀ left rest, call.reaction left = some rest → rest.Live) : call.run.Live := by
  obtain ⟨span, hspan⟩ := Option.isSome_iff_exists.mp hlimit
  unfold run bounded
  rw [if_pos hawaited, hspan]
  exact Stage.live_run (live_bounded span call.work hreaction)

/-- A record that is made within the stage: one of its work, or that of a failure at its boundary. -/
def Makes (call : Call τ σ α) (own : Journal.Record → Prop) (entry : Journal.Record) : Prop :=
  own entry ∨ ∃ failure, entry = failureRecord call.limit failure

theorem records_run {call : Call τ σ α} {own : Journal.Record → Prop} (h : call.work.Records own)
    (hreaction : ∀ left rest, call.reaction left = some rest → rest.Records own) :
    call.run.Records fun entry => ∃ made, call.Makes own made ∧ entry = made.inStage call.stage := by
  have hbounded : call.bounded.Records (call.Makes own) := by
    have hwork : call.work.Records (call.Makes own) := h.mono fun _ => .inl
    unfold bounded
    split
    · exact records_bounded hwork fun left rest hrest =>
        (hreaction left rest hrest).mono fun _ => .inl
    · exact hwork
  refine records_inStage (records_bind (records_mapResult hbounded) fun result => ?_)
  cases result with
  | ok value => exact records_ofResult _
  | error failure =>
      exact records_bind (records_note (.inr ⟨failure, rfl⟩)) fun _ => records_ofResult _

/-- What the stage makes of a result of its work. -/
def outcome (call : Call τ σ α) (result : Result α) : StageResult α :=
  .ofResult call.stage call.limit call.fallback result

/-- What an outcome tells of a result: the fallback stands in exactly for a failure, and there is a
reason exactly if the value is not computed. -/
structure Reports (call : Call τ σ α) (result : Result α) (outcome : StageResult α) : Prop where
  stage : outcome.stage = call.stage
  value : outcome.value = result.toOption.getD call.fallback
  computed : outcome.computed = false ↔ (∃ failure, result = .error failure) ∨
    ∃ value, result = .ok value ∧ Assessed.computed value = false
  error : outcome.error = none ↔ outcome.computed = true
  reason : ∀ reason, outcome.error = some reason → reason ≠ ""

omit [Clock τ] in
theorem reports_outcome (call : Call τ σ α) (result : Result α) :
    call.Reports result (call.outcome result) where
  stage := StageResult.stage_ofResult _ _ _ _
  value := StageResult.value_ofResult
  computed := StageResult.computed_ofResult
  error := (StageResult.explains_ofResult _ _ _ _).computed
  reason := (StageResult.explains_ofResult _ _ _ _).reason

theorem settles_run {call : Call τ σ α} {P : Result α → Prop} (h : call.bounded.Settles P) :
    call.run.Settles (Value fun outcome => ∃ result, P result ∧ outcome = call.outcome result) :=
  Stage.settles_run h

/-- Calls that run at once come to their outcomes, and none of them fails the others. -/
theorem settles_all_run {ι : Type} {keys : List ι} {calls : ι → Call τ σ α}
    {P : ι → Result α → Prop} (h : ∀ key ∈ keys, (calls key).bounded.Settles (P key)) :
    (all (keys.map fun key => (calls key).run)).Settles (Value fun outcomes =>
      List.Forall₂ (fun key outcome => ∃ result, P key result ∧
        outcome = (calls key).outcome result) keys outcomes) := by
  refine (settles_all fun key hkey => settles_run (h key hkey)).mono fun result hresult => ?_
  cases result with
  | ok outcomes => exact hresult
  | error failure =>
      obtain ⟨key, -, hfailed⟩ := hresult
      exact hfailed

end Call

def lateRecord : Journal.Record := .make .info "work" "late" []

/-- The work writes a record, takes two seconds and has a value then; its budget is one second. -/
def lateCall (awaited : Bool) : Call Int Unit Json where
  stage := if awaited then "awaited" else "in place"
  limit := some 1
  fallback := .str "neutral"
  work := do
    note lateRecord
    sleepFor (Clock.seconds 2)
    return .str "late"
  awaited := awaited

theorem seconds_lt {few more : Int} (h : few < more) :
    (Clock.seconds (.int few) : Int) < Clock.seconds (.int more) := by
  have hticks (exponent : Nat) : (0 : Int) < Number.twoTo exponent :=
    Int.natCast_pos.mpr (Nat.two_pow_pos exponent)
  exact Int.mul_lt_mul_of_pos_right h (hticks 1074)

/-- The work goes on when its budget is over. -/
theorem lateCall_exceeds (awaited : Bool) (progress : Progress Int Unit) :
    progress.now + Clock.seconds 1 <
      ((lateCall awaited).work.run progress).final.now := by
  have hslept : progress.now + Clock.seconds 2 ≤
      later progress.now (progress.now + Clock.seconds 2) := by
    rw [later_eq]
    exact le_max_right _ _
  calc progress.now + Clock.seconds 1
      < progress.now + Clock.seconds 2 := by
        have hseconds : (Clock.seconds 1 : Int) < Clock.seconds 2 := seconds_lt (by decide)
        omega
    _ ≤ later progress.now (progress.now + Clock.seconds 2) := hslept
    _ ≤ ((lateCall awaited).work.run progress).final.now :=
        now_le_run { progress with
          now := later progress.now (progress.now + Clock.seconds 2)
          turn := progress.turn + 1
          journal := lateRecord :: progress.journal } (pause >>= fun _ => pure (Json.str "late"))

theorem records_lateCall (awaited : Bool) : (lateCall awaited).work.Records (· = lateRecord) :=
  records_bind (records_note rfl) fun _ =>
    records_bind (records_sleepFor _) fun _ => records_ofResult _

/-- The same work, but when it is told to end it has another value at once. -/
def stubbornCall : Call Int Unit Json :=
  { lateCall true with stage := "stubborn", reaction := fun _ => some (return .str "caught") }

def lateCalls : List (Call Int Unit Json) := [lateCall true, lateCall false, stubbornCall]

theorem records_lateCalls {call : Call Int Unit Json} (h : call ∈ lateCalls) :
    call.work.Records (· = lateRecord) := by
  simp only [lateCalls, List.mem_cons, List.not_mem_nil, or_false] at h
  rcases h with rfl | rfl | rfl
  · exact records_lateCall true
  · exact records_lateCall false
  · exact records_lateCall true

theorem records_reaction_lateCalls {call : Call Int Unit Json} (h : call ∈ lateCalls)
    {left rest : Routine Int Unit Json} (hrest : call.reaction left = some rest) :
    rest.Records (· = lateRecord) := by
  simp only [lateCalls, List.mem_cons, List.not_mem_nil, or_false] at h
  rcases h with rfl | rfl | rfl
  · cases hrest
  · cases hrest
  · cases hrest
    exact records_ofResult _

/-- Late work that is awaited comes to what it makes of being told to end. -/
theorem run_bounded_lateCall {reaction : Routine Int Unit Json → Option (Routine Int Unit Json)}
    (start : Progress Int Unit) :
    (∃ stood, reaction stood = none ∧
      ((Routine.bounded (some 1) reaction (lateCall true).work).run start).result =
        some (.error timeout)) ∨
    ∃ stood rest progress, reaction stood = some rest ∧
      ((Routine.bounded (some 1) reaction (lateCall true).work).run start).result =
        (rest.run progress).result := by
  have hspan : (1 : Number).atMost 0 = false := by decide
  have hbounded : Bounded reaction _ _ _ _ := bounded_bounded hspan (lateCall true).work start
  rw [run_yielding] at hbounded
  exact hbounded.of_late (lateCall_exceeds true { start with turn := start.turn + 1 + 1 })

theorem run_lateCall (start : Progress Int Unit) :
    ((lateCall true).bounded.run start).result = some (.error timeout) := by
  obtain ⟨-, -, hrun⟩ | ⟨stood, rest, progress, hrest, -⟩ :=
    @run_bounded_lateCall obedient start
  · exact hrun
  · cases hrest

theorem run_stubbornCall (start : Progress Int Unit) :
    (stubbornCall.bounded.run start).result = some (.ok (.str "caught")) := by
  obtain ⟨stood, hnone, -⟩ | ⟨stood, rest, progress, hrest, hrun⟩ :=
    @run_bounded_lateCall stubbornCall.reaction start
  · cases hnone
  · cases hrest
    exact hrun

def outsideRecord : Journal.Record := .make .info "outside" "seen" []

/-- A record that names a stage itself. -/
def namedRecord : Journal.Record := .make .info "work" "told" [("stage", .str "elsewhere")]

end Stage

end ProgramAudit
