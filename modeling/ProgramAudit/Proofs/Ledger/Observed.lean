import Mathlib.Data.Multiset.Bind
import ProgramAudit.Ledger.Recorded
import ProgramAudit.Proofs.Routine.Logs
import ProgramAudit.Proofs.Stage
import ProgramAudit.Routine.Retry

/-!
Sources that are observed. Each call is noted in a log when it is made, and each answer when it
comes. A routine spends at most an allowance if its calls are among those of the allowance, and the
allowances of routines in a row, or side by side, add up.
-/

namespace ProgramAudit

open Routine Ledger

variable {τ σ α β : Type}

namespace Ledger

/-- What is asked, and what is answered. -/
inductive Event where
  | asked (call : Call)
  | account (address : String) (answer : Option Account)
  | transactions (address : String) (limit : Int) (answer : Option (List Transaction))
  | priced

def Event.call? : Event → Option Call
  | .asked call => some call
  | _ => none

/-- The calls among the events of a log. -/
def calls (events : Multiset Event) : Multiset Call := events.filterMap Event.call?

theorem calls_add (left right : Multiset Event) : calls (left + right) = calls left + calls right :=
  Multiset.filterMap_add Event.call? left right

/-- What is written of an answer; a failure is none. -/
def told (tell : α → Event) : Result α → List Event
  | .ok answer => [tell answer]
  | .error _ => []

theorem calls_told {tell : α → Event} (htell : ∀ answer, (tell answer).call? = none)
    (result : Result α) : calls (told tell result) = 0 := by
  cases result with
  | error failure => rfl
  | ok answer => exact Multiset.filterMap_cons_none (tell answer) 0 (htell answer)

/-- The same source, which notes its calls and its answers. -/
def Source.observed (source : Source τ σ) : Source τ (σ × List Event) where
  account address := (source.account address).observed [.asked (.account address)]
    (told (.account address))
  transactions address limit :=
    (source.transactions address limit).observed [.asked (.transactions address limit)]
      (told (.transactions address limit))
  mint mint := (source.mint mint).observed [.asked (.mint mint)] fun _ => []

end Ledger

/-! ### Allowances -/

/-- The calls of a routine are among those of an allowance. -/
def Routine.Spends (allowance : Multiset Call) (routine : Routine τ (σ × List Event) α) : Prop :=
  routine.Logs (fun own _ => calls own ≤ allowance) Once 0 none

namespace Routine

variable {allowance allowance' : Multiset Call} {tell : α → Event}
  {routine : Routine τ (σ × List Event) α}

theorem Spends.mono (h : Spends allowance routine) (hle : allowance ≤ allowance') :
    Spends allowance' routine := Logs.mono h fun _ _ hcalls => hcalls.trans hle

theorem spends_ofResult (result : Result α) :
    Spends 0 (ofResult result : Routine τ (σ × List Event) α) := logs_ofResult le_rfl le_rfl

theorem spends_notes (entries : List Journal.Record) :
    Spends 0 (notes entries : Routine τ (σ × List Event) Unit) := logs_notes le_rfl le_rfl

theorem spends_mapResult {f : Result α → Result β} (h : Spends allowance routine) :
    Spends allowance (routine.mapResult f) := logs_mapResult h fun _ _ => id

theorem spends_inStage {stage : String} (h : Spends allowance routine) :
    Spends allowance (routine.inStage stage) := logs_inStage h

theorem spends_settleLater (h : Spends allowance routine) : Spends allowance routine.settleLater :=
  logs_settleLater h

theorem spends_spawned (h : Spends allowance routine) : Spends allowance (spawned routine) :=
  logs_spawned h

/-- An observed routine asks for what it notes at its start. -/
theorem spends_observed {start : List Event} {tell : Result α → List Event}
    (hstart : calls start = allowance) (htell : ∀ result, calls (tell result) = 0)
    (routine : Routine τ σ α) : Spends allowance (routine.observed start tell) := by
  refine logs_observed routine (Multiset.zero_le _) hstart.le ?_ ?_ <;>
    exact fun result => by rw [calls_add, htell, zero_add, hstart]

/-- What a routine asks is within an allowance, and its value was told. -/
def Answered (allowance : Multiset Call) (tell : α → Event) (own : Multiset Event)
    (seen : Option (Result α)) : Prop :=
  calls own ≤ allowance ∧ ∀ answer, seen = some (.ok answer) → tell answer ∈ own

theorem logs_call {call : Call} {tell : α → Event} (htell : ∀ answer, (tell answer).call? = none)
    (routine : Routine τ σ α) :
    (routine.observed [.asked call] (told tell)).Logs (Answered {call} tell) Once 0 none := by
  have hcall : calls ([.asked call] : List Event) = {call} := rfl
  have hcalls (result : Result α) :
      calls (told tell result + ([.asked call] : List Event)) ≤ {call} := by
    rw [calls_add, calls_told htell, zero_add, hcall]
  refine logs_observed routine ⟨Multiset.zero_le _, ?_⟩ ⟨hcall.le, ?_⟩
    (fun result => ⟨hcalls result, ?_⟩) fun result => ⟨hcalls result, ?_⟩
  · exact nofun
  · exact nofun
  · exact nofun
  · intro answer hanswer
    cases hanswer
    exact Multiset.mem_add.mpr (Or.inl (Multiset.mem_coe.mpr List.mem_cons_self))

theorem answered_fail (failure : Failure) :
    (fail failure : Routine τ (σ × List Event) α).Logs (Answered 0 tell) Once 0 none :=
  logs_ofResult ⟨le_rfl, nofun⟩ ⟨le_rfl, nofun⟩

variable [Clock τ]

theorem spends_within {limit : Option Number} (h : Spends allowance routine) :
    Spends allowance (within limit routine) := by
  refine (logs_within h).mono fun own seen hcut => ?_
  cases hcut with
  | within hcalls => exact hcalls
  | late hcalls => exact hcalls

theorem spends_bind {P : Result α → Prop} {f : α → Routine τ (σ × List Event) β}
    (h : Spends allowance routine) (hP : routine.Settles P)
    (hf : ∀ value, P (.ok value) → Spends allowance' (f value)) :
    Spends (allowance + allowance') (routine.bind f) := by
  refine (logs_bind (h.settles hP (by simp)) fun value own hvalue =>
    hf value (hvalue.2 _ rfl)).mono fun own seen hthen => ?_
  cases hthen with
  | first hcalls => exact hcalls.1.trans (Multiset.le_add_right _ _)
  | failed hcalls => exact hcalls.1.trans (Multiset.le_add_right _ _)
  | second hfirst hsecond =>
      rw [calls_add]
      exact add_le_add hfirst.1 hsecond

/-- What follows a routine asks for nothing. -/
theorem spends_bind_zero {f : α → Routine τ (σ × List Event) β} (h : Spends allowance routine)
    (hf : ∀ value, Spends 0 (f value)) : Spends allowance (routine.bind f) := by
  have hbind := spends_bind h (settles_true routine) fun value _ => hf value
  rwa [add_zero] at hbind

theorem spends_join {other : Routine τ (σ × List Event) β} (h : Spends allowance routine)
    (hother : Spends allowance' other) : Spends (allowance + allowance') (join routine other) := by
  refine (logs_join h hother).mono fun own seen hjoined => ?_
  obtain ⟨sides, ⟨left, right, rfl, hleft, hright⟩, -⟩ := hjoined
  rw [calls_add]
  exact add_le_add hleft hright

theorem spends_joinAll {κ : Type} {allow : κ → Multiset Call}
    {f : κ → Routine τ (σ × List Event) α} (hf : ∀ key, Spends (allow key) (f key))
    (keys : List κ) : Spends (Multiset.bind keys allow) (joinAll (keys.map f)) := by
  induction keys with
  | nil => exact spends_ofResult (.ok [])
  | cons key keys ih =>
      rw [← Multiset.cons_coe, Multiset.cons_bind]
      cases keys with
      | nil =>
          rw [Multiset.coe_nil, Multiset.zero_bind, add_zero]
          exact spends_mapResult (hf key)
      | cons second keys => exact spends_mapResult (spends_join (hf key) ih)

theorem spends_all {κ : Type} {allow : κ → Multiset Call} {f : κ → Routine τ (σ × List Event) α}
    (hf : ∀ key, Spends (allow key) (f key)) (keys : List κ) :
    Spends (Multiset.bind keys allow) (all (keys.map f)) := by
  unfold all
  split
  · exact (spends_ofResult (.ok [])).mono (Multiset.zero_le _)
  · rw [List.map_map]
    exact spends_settleLater (spends_joinAll (fun key => spends_spawned (hf key)) keys)

/-! ### Answers -/

/-- What comes before asks for nothing. -/
theorem answered_bind {other : Routine τ (σ × List Event) β}
    {f : β → Routine τ (σ × List Event) α} (hother : Spends 0 other)
    (h : ∀ value, (f value).Logs (Answered allowance tell) Once 0 none) :
    (other.bind f).Logs (Answered allowance tell) Once 0 none := by
  refine (logs_bind hother fun value _ _ => h value).mono fun own seen hthen => ?_
  cases hthen with
  | first hcalls => exact ⟨hcalls.trans (Multiset.zero_le _), nofun⟩
  | failed hcalls => exact ⟨hcalls.trans (Multiset.zero_le _), nofun⟩
  | second hcalls hanswered =>
      refine ⟨?_, fun answer hseen => Multiset.mem_add.mpr (Or.inr (hanswered.2 answer hseen))⟩
      rw [calls_add, ← zero_add allowance]
      exact add_le_add hcalls hanswered.1

theorem answered_rescue {handle : Failure → Routine τ (σ × List Event) α}
    (h : routine.Logs (Answered allowance tell) Once 0 none)
    (hhandle : ∀ failure, (handle failure).Logs (Answered allowance' tell) Once 0 none) :
    (routine.rescue handle).Logs (Answered (allowance + allowance') tell) Once 0 none := by
  have hattempt : routine.attempt.Logs (fun own seen => ∃ before,
      Answered allowance tell own before ∧ seen = before.map .ok) Once 0 none :=
    logs_mapResult h fun own seen hanswered => ⟨seen, hanswered, rfl⟩
  have hcontinue (result : Result α) : (match result with
      | .ok value => succeed value
      | .error failure => handle failure : Routine τ (σ × List Event) α).Logs
      (fun own seen => calls own ≤ allowance' ∧ ∀ answer, seen = some (.ok answer) →
        result = .ok answer ∨ tell answer ∈ own) Once 0 none := by
    cases result with
    | ok value =>
        refine logs_ofResult ⟨Multiset.zero_le _, nofun⟩ ⟨Multiset.zero_le _, ?_⟩
        intro answer hseen
        cases hseen
        exact Or.inl rfl
    | error failure =>
        exact (hhandle failure).mono fun own seen hanswered =>
          ⟨hanswered.1, fun answer hseen => Or.inr (hanswered.2 answer hseen)⟩
  refine (logs_bind hattempt fun result _ _ => hcontinue result).mono fun own seen hthen => ?_
  have hle := Multiset.le_add_right allowance allowance'
  cases hthen with
  | first hfirst =>
      obtain ⟨before, hanswered, -⟩ := hfirst
      exact ⟨hanswered.1.trans hle, nofun⟩
  | failed hfirst =>
      obtain ⟨before, hanswered, -⟩ := hfirst
      exact ⟨hanswered.1.trans hle, nofun⟩
  | @second _ _ result _ hfirst hsecond =>
      obtain ⟨before, hanswered, hbefore⟩ := hfirst
      -- The value is the one of the first attempt, or was told to what handles its failure.
      refine ⟨?_, fun answer hseen => Multiset.mem_add.mpr ?_⟩
      · rw [calls_add]
        exact add_le_add hanswered.1 hsecond.1
      · refine (hsecond.2 answer hseen).imp_left fun hresult => hanswered.2 answer ?_
        subst hresult
        cases before with
        | none => cases hbefore
        | some result => exact congrArg some (Except.ok.inj (Option.some.inj hbefore)).symm

/-- There is one call for each attempt. -/
theorem answered_attemptsFrom {operation : String} {call : Call}
    {sleep : Number → Routine τ (σ × List Event) Unit} {attempt attempts : Nat}
    (hsleep : ∀ delay, Spends 0 (sleep delay))
    (h : routine.Logs (Answered {call} tell) Once 0 none) (delays : List Number) :
    (attemptsFrom operation sleep routine attempt attempts delays).Logs
      (Answered (Multiset.replicate (delays.length + 1) call) tell) Once 0 none := by
  induction delays generalizing attempt with
  | nil =>
      have hcalls : Multiset.replicate (([] : List Number).length + 1) call = {call} + 0 := rfl
      rw [hcalls]
      refine answered_rescue h fun failure => ?_
      cases failure with
      | transient message status =>
          exact logs_note_bind (logs_note_bind (answered_fail _))
      | _ => exact answered_fail _
  | cons delay delays ih =>
      have hcalls : Multiset.replicate ((delay :: delays).length + 1) call =
          {call} + Multiset.replicate (delays.length + 1) call :=
        Multiset.replicate_succ call (delays.length + 1)
      rw [hcalls]
      refine answered_rescue h fun failure => ?_
      have hfail (failure : Failure) : (fail failure : Routine τ (σ × List Event) α).Logs
          (Answered (Multiset.replicate (delays.length + 1) call) tell) Once 0 none :=
        (answered_fail failure).mono fun own seen hanswered =>
          ⟨hanswered.1.trans (Multiset.zero_le _), hanswered.2⟩
      cases failure with
      | transient message status =>
          exact logs_note_bind (answered_bind (hsleep delay) fun _ => ih)
      | _ => exact hfail _

end Routine

/-! ### Stages -/

theorem Stage.spends_run [Clock τ] [Assessed α] {stage : String} {limit : Option Number}
    {fallback : α} {allowance : Multiset Call} {work : Routine τ (σ × List Event) α}
    (h : Spends allowance work) : Spends allowance (run stage limit fallback work) := by
  refine spends_inStage (spends_bind_zero (spends_mapResult h) fun result => ?_)
  cases result with
  | ok value => exact spends_ofResult _
  | error failure => exact logs_note_bind (spends_ofResult _)

theorem Stage.spends_runTimed [Clock τ] [Assessed α] {stage : String} {limit : Option Number}
    {fallback : α} {allowance : Multiset Call} {work : Routine τ (σ × List Event) α}
    (h : Spends allowance work) : Spends allowance (runTimed stage limit fallback work) :=
  Stage.spends_run (spends_within h)

/-- What a stage has read, and what its value stands for. -/
def Stage.Staged (T : Multiset Event → Option (Result α) → Prop) (fallback : α)
    (own : Multiset Event) (seen : Option (Result (StageResult α))) : Prop :=
  (∃ before, T own before) ∧ ∀ outcome, seen = some (.ok outcome) →
    outcome.value = fallback ∨ T own (some (.ok outcome.value))

theorem Stage.logs_runTimed [Clock τ] [Assessed α] {stage : String} {limit : Option Number}
    {fallback : α} {work : Routine τ (σ × List Event) α}
    {T : Multiset Event → Option (Result α) → Prop} (h : work.Logs T Once 0 none) :
    (runTimed stage limit fallback work).Logs (Staged T fallback) Once 0 none := by
  refine (concluded_runTimed h).mono fun own seen hconcluded => ?_
  refine ⟨hconcluded.1, fun outcome hseen => ?_⟩
  obtain ⟨result, rfl, hvalue⟩ := hconcluded.2 outcome hseen
  cases result with
  | error failure => exact Or.inl rfl
  | ok value => exact Or.inr (hvalue value rfl)

end ProgramAudit
