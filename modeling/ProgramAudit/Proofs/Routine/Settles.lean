import Mathlib.Data.List.Forall2
import ProgramAudit.Routine.Concurrent
import ProgramAudit.Routine.Part
import ProgramAudit.Routine.Run

/-!
What a routine can settle with. The property below asks nothing of the schedule: states, moments and
turns may be any, so it holds of a routine in every company, and a run of the routine inherits it.
-/

namespace ProgramAudit.Routine

variable {τ σ α β : Type}

/-- Every result that the routine settles with has a property, whatever it reads. -/
def Settles (P : Result α → Prop) : Routine τ σ α → Prop
  | .halt => True
  | .settle result rest => P result ∧ Settles P rest
  | .act _ next => ∀ state, Settles P (next state)
  | .record _ next => Settles P next
  | .moment next => ∀ now turn, Settles P (next now turn)
  | .wait _ _ next => Settles P next

/-- A routine that goes on without ever settling. -/
def Silent (routine : Routine τ σ α) : Prop := routine.Settles fun _ => False

/-- A property of values as one of results: every result is a value with it. -/
def Value (P : α → Prop) : Result α → Prop
  | .ok value => P value
  | .error _ => False

/-- A property of values as one of results that says nothing of failures. -/
def Yields (P : α → Prop) : Result α → Prop
  | .ok value => P value
  | .error _ => True

/-- A property of failures as one of results that says nothing of values. -/
def FailsOnly (P : Failure → Prop) : Result α → Prop
  | .ok _ => True
  | .error failure => P failure

/-- The property of a result of either side. -/
def Either (P : Result α → Prop) (Q : Result β → Prop) : Result (α ⊕ β) → Prop
  | .ok (.inl value) => P (.ok value)
  | .ok (.inr value) => Q (.ok value)
  | .error failure => P (.error failure) ∨ Q (.error failure)

/-- The property of a result of both sides together. -/
def Both (P : Result α → Prop) (Q : Result β → Prop) : Result (α × β) → Prop
  | .ok pair => P (.ok pair.1) ∧ Q (.ok pair.2)
  | .error failure => P (.error failure) ∨ Q (.error failure)

variable {P : Result α → Prop} {Q : Result β → Prop}

theorem Settles.mono {P' : Result α → Prop} {routine : Routine τ σ α}
    (h : routine.Settles P) (himp : ∀ result, P result → P' result) : routine.Settles P' := by
  induction routine with
  | halt => trivial
  | settle result rest ih => exact ⟨himp result h.1, ih h.2⟩
  | act update next ih => exact fun state => ih state (h state)
  | record entry next ih => exact ih h
  | moment next ih => exact fun now turn => ih now turn (h now turn)
  | wait due abandon next ih => exact ih h

theorem settles_true (routine : Routine τ σ α) : routine.Settles fun _ => True := by
  induction routine with
  | halt => trivial
  | settle result rest ih => exact ⟨trivial, ih⟩
  | act update next ih => exact ih
  | record entry next ih => exact ih
  | moment next ih => exact ih
  | wait due abandon next ih => exact ih

theorem settles_yields_true (routine : Routine τ σ α) :
    routine.Settles (Yields fun _ => True) := by
  refine (settles_true routine).mono fun result _ => ?_
  cases result <;> trivial

theorem settles_mapResult {f : Result α → Result β} {routine : Routine τ σ α} :
    (routine.mapResult f).Settles Q ↔ routine.Settles fun result => Q (f result) := by
  induction routine with
  | halt => rfl
  | settle result rest ih => exact and_congr Iff.rfl ih
  | act update next ih => exact forall_congr' ih
  | record entry next ih => exact ih
  | moment next ih => exact forall_congr' fun now => forall_congr' (ih now)
  | wait due abandon next ih => exact ih

theorem settles_map_failsOnly {F : Failure → Prop} {f : α → β} {routine : Routine τ σ α}
    (h : routine.Settles (FailsOnly F)) : (routine.map f).Settles (FailsOnly F) := by
  refine settles_mapResult.mpr (h.mono fun result hresult => ?_)
  cases result with
  | ok value => trivial
  | error failure => exact hresult

theorem silent_silence (routine : Routine τ σ α) :
    (routine.silence : Routine τ σ β).Silent := by
  induction routine with
  | halt => trivial
  | settle result rest ih => exact ih
  | act update next ih => exact ih
  | record entry next ih => exact ih
  | moment next ih => exact ih
  | wait due abandon next ih => exact ih

theorem settles_inStage {stage : String} {routine : Routine τ σ α} :
    (routine.inStage stage).Settles P ↔ routine.Settles P := by
  induction routine with
  | halt => rfl
  | settle result rest ih => exact and_congr Iff.rfl ih
  | act update next ih => exact forall_congr' ih
  | record entry next ih => exact ih
  | moment next ih => exact forall_congr' fun now => forall_congr' (ih now)
  | wait due abandon next ih => exact ih

theorem settles_yielding {routine : Routine τ σ α} (h : routine.Settles P) :
    (yielding routine).Settles P :=
  fun _ _ => h

theorem settles_settleLater {routine : Routine τ σ α} (h : routine.Settles P) :
    routine.settleLater.Settles P := by
  induction routine with
  | halt => trivial
  | settle result rest ih => exact settles_yielding h
  | act update next ih => exact fun state => ih state (h state)
  | record entry next ih => exact ih h
  | moment next ih => exact fun now turn => ih now turn (h now turn)
  | wait due abandon next ih => exact ih h

theorem settles_note {entry : Journal.Record} {Q : Result Unit → Prop} (h : Q (.ok ())) :
    (note entry : Routine τ σ Unit).Settles Q :=
  ⟨h, trivial⟩

theorem settles_notes {entries : List Journal.Record} {Q : Result Unit → Prop} (h : Q (.ok ())) :
    (notes entries : Routine τ σ Unit).Settles Q := by
  induction entries with
  | nil => exact ⟨h, trivial⟩
  | cons entry rest ih => exact ih

theorem settles_ofResult {result : Result α} (h : P result) :
    (ofResult result : Routine τ σ α).Settles P :=
  ⟨h, trivial⟩

theorem settles_halt (P : Result α → Prop) : (halt : Routine τ σ α).Settles P := trivial

theorem settles_succeed {value : α} (h : P (.ok value)) :
    (succeed value : Routine τ σ α).Settles P :=
  ⟨h, trivial⟩

theorem settles_act {update : σ → σ} {next : σ → Routine τ σ α}
    (h : ∀ state, (next state).Settles P) : (Routine.act update next).Settles P := h

theorem settles_moment {next : τ → Nat → Routine τ σ α} (h : ∀ now turn, (next now turn).Settles P) :
    (Routine.moment next).Settles P := h

theorem settles_wait {due : σ → Option (Turn τ)} {abandon : τ → Nat → σ → σ} {routine : Routine τ σ α}
    (h : routine.Settles P) : (Routine.wait due abandon routine).Settles P := h

theorem settles_now {Q : Result τ → Prop} (h : ∀ now, Q (.ok now)) :
    (now : Routine τ σ τ).Settles Q :=
  fun now _ => ⟨h now, trivial⟩

theorem settles_read {part : Part σ α} (h : ∀ value, P (.ok value)) :
    (part.read : Routine τ σ α).Settles P :=
  fun state => ⟨h (part.get state), trivial⟩

theorem settles_step {part : Part σ β} {update : β → α × β} (h : ∀ value, P (.ok value)) :
    (part.step update : Routine τ σ α).Settles P :=
  fun _ => ⟨h _, trivial⟩

theorem settles_change {part : Part σ β} {update : β → β} {Q : Result Unit → Prop} (h : Q (.ok ())) :
    (part.change update : Routine τ σ Unit).Settles Q :=
  fun _ => ⟨h, trivial⟩

theorem settles_tryChange {part : Part σ β} {update : β → Result β} {Q : Result Unit → Prop}
    (h : ∀ value, Q ((update value).map fun _ => ())) :
    (part.tryChange update : Routine τ σ Unit).Settles Q :=
  fun state => ⟨h (part.get state), trivial⟩

theorem settles_releasing {release : τ → Nat → σ → σ} {routine : Routine τ σ α}
    (h : routine.Settles P) : (routine.releasing release).Settles P := by
  induction routine with
  | halt => trivial
  | settle result rest ih => exact fun _ _ _ => h
  | act update next ih => exact fun state => ih state (h state)
  | record entry next ih => exact ih h
  | moment next ih => exact fun now turn => ih now turn (h now turn)
  | wait due abandon next ih => exact ih h

theorem settles_onlyRight {routine : Routine τ σ (α ⊕ β)}
    (h : routine.Settles (Either (fun _ => False) Q)) : routine.onlyRight.Settles Q := by
  induction routine with
  | halt => trivial
  | settle result rest ih =>
      match result, h with
      | .ok (.inl _), h => exact h.1.elim
      | .ok (.inr _), h => exact ⟨h.1, ih h.2⟩
      | .error _, h => exact ⟨h.1.resolve_left id, ih h.2⟩
  | act update next ih => exact fun state => ih state (h state)
  | record entry next ih => exact ih h
  | moment next ih => exact fun now turn => ih now turn (h now turn)
  | wait due abandon next ih => exact ih h

theorem settles_collectBoth {left : Option α} {right : Option β} {routine : Routine τ σ (α ⊕ β)}
    (hleft : ∀ value ∈ left, P (.ok value)) (hright : ∀ value ∈ right, Q (.ok value))
    (h : routine.Settles (Either P Q)) : (collectBoth left right routine).Settles (Both P Q) := by
  induction routine generalizing left right with
  | halt => trivial
  | settle result rest ih =>
      have hrest {γ : Type} {R : Result γ → Prop} : (rest.silence : Routine τ σ γ).Settles R :=
        (silent_silence rest).mono fun _ => False.elim
      match result, h with
      | .error _, h => exact ⟨h.1, hrest⟩
      | .ok (.inl value), h =>
          cases right with
          | none =>
              refine ih (fun other hother => ?_) hright h.2
              cases hother
              exact h.1
          | some other => exact ⟨⟨h.1, hright other rfl⟩, hrest⟩
      | .ok (.inr value), h =>
          cases left with
          | none =>
              refine ih hleft (fun other hother => ?_) h.2
              cases hother
              exact h.1
          | some other => exact ⟨⟨hleft other rfl, h.1⟩, hrest⟩
  | act update next ih => exact fun state => ih state hleft hright (h state)
  | record entry next ih => exact ih hleft hright h
  | moment next ih => exact fun now turn => ih now turn hleft hright (h now turn)
  | wait due abandon next ih => exact ih hleft hright h

theorem settles_spawned {routine : Routine τ σ α} (h : routine.Settles P) :
    (spawned routine).Settles P :=
  settles_settleLater (settles_yielding h)

theorem settles_timeout (h : P (.error timeout)) :
    (yielding (fail timeout) : Routine τ σ α).Settles P :=
  settles_yielding ⟨h, trivial⟩

theorem settles_cancel {reaction : Routine τ σ α → Option (Routine τ σ α)}
    {left ended : Routine τ σ α} (hended : ended.Settles P)
    (hreaction : ∀ rest, reaction left = some rest → rest.Settles P) :
    (cancel reaction left ended).Settles P := by
  unfold cancel
  cases hrest : reaction left with
  | none => exact hended
  | some rest =>
      exact settles_yielding (settles_settleLater (settles_settleLater (hreaction rest hrest)))

variable [Clock τ]

/-- The left side waits inside the merge, so the induction over the right side asks of the left one
only that it may go on with any rest of the right one. -/
theorem settles_mergeWaiting {due : σ → Option (Turn τ)} {abandon : τ → Nat → σ → σ}
    {left : Routine τ σ β → Routine τ σ (α ⊕ β)} {right : Routine τ σ β}
    (hleft : ∀ rest, rest.Settles Q → (left rest).Settles (Either P Q))
    (hright : right.Settles Q) :
    (mergeWaiting due abandon left right).Settles (Either P Q) := by
  induction right with
  | halt => exact hleft .halt trivial
  | settle result rest ih =>
      refine ⟨?_, ih hright.2⟩
      cases result with
      | ok value => exact hright.1
      | error failure => exact Or.inr hright.1
  | act update next ih => exact fun state => ih state (hright state)
  | record entry next ih => exact ih hright
  | moment next ih => exact fun now turn => ih now turn (hright now turn)
  | wait due' abandon' next ih =>
      intro state
      have hwaiting : (left (.wait due' abandon' next)).Settles (Either P Q) := hleft _ hright
      dsimp only
      split
      · split
        · exact ih hright
        · exact hwaiting
      · exact hwaiting
      · exact ih hright

theorem settles_merge {left : Routine τ σ α} {right : Routine τ σ β}
    (hleft : left.Settles P) (hright : right.Settles Q) :
    (merge left right).Settles (Either P Q) := by
  induction left generalizing right with
  | halt =>
      refine settles_mapResult.mpr (hright.mono fun result hresult => ?_)
      cases result with
      | ok value => exact hresult
      | error failure => exact Or.inr hresult
  | settle result rest ih =>
      refine ⟨?_, ih hleft.2 hright⟩
      cases result with
      | ok value => exact hleft.1
      | error failure => exact Or.inl hleft.1
  | act update next ih => exact fun state => ih state (hleft state) hright
  | record entry next ih => exact ih hleft hright
  | moment next ih => exact fun now turn => ih now turn (hleft now turn) hright
  | wait due abandon next ih => exact settles_mergeWaiting (fun _ => ih hleft) hright

theorem settles_beside {background : Routine τ σ Empty} {routine : Routine τ σ β}
    (hbackground : background.Silent) (h : routine.Settles Q) :
    (beside background routine).Settles Q := by
  cases background with
  | halt => exact h
  | _ => exact settles_onlyRight (settles_merge hbackground h)

theorem settles_bind {f : α → Routine τ σ β} {routine : Routine τ σ α} (h : routine.Settles P)
    (hvalue : ∀ value, P (.ok value) → (f value).Settles Q)
    (hfailure : ∀ failure, P (.error failure) → Q (.error failure)) :
    (routine.bind f).Settles Q := by
  induction routine with
  | halt => trivial
  | settle result rest ih =>
      cases result with
      | ok value => exact settles_beside (silent_silence rest) (hvalue value h.1)
      | error failure =>
          exact ⟨hfailure failure h.1, (silent_silence rest).mono fun _ => False.elim⟩
  | act update next ih => exact fun state => ih state (h state)
  | record entry next ih => exact ih h
  | moment next ih => exact fun now turn => ih now turn (h now turn)
  | wait due abandon next ih => exact ih h

theorem settles_rescue {P' : Result α → Prop} {handle : Failure → Routine τ σ α}
    {routine : Routine τ σ α} (h : routine.Settles P) (hvalue : ∀ value, P (.ok value) → P' (.ok value))
    (hhandle : ∀ failure, P (.error failure) → (handle failure).Settles P') :
    (routine.rescue handle).Settles P' := by
  have hattempt : routine.attempt.Settles (Value P) := settles_mapResult.mpr h
  refine settles_bind hattempt (fun found hfound => ?_) fun _ => False.elim
  cases found with
  | ok value => exact settles_succeed (hvalue value hfound)
  | error failure => exact hhandle failure hfound

theorem settles_sleepFor {span : τ} {Q : Result Unit → Prop} (h : Q (.ok ())) :
    (sleepFor span : Routine τ σ Unit).Settles Q :=
  fun _ _ => settles_yielding ⟨h, trivial⟩

theorem settles_sleep {delay : Number} {Q : Result Unit → Prop} (h : Q (.ok ())) :
    (sleep delay : Routine τ σ Unit).Settles Q := by
  unfold sleep
  split
  · exact settles_yielding ⟨h, trivial⟩
  · exact settles_sleepFor h

theorem settles_join {left : Routine τ σ α} {right : Routine τ σ β}
    (hleft : left.Settles P) (hright : right.Settles Q) :
    (join left right).Settles (Both P Q) :=
  settles_collectBoth (by simp) (by simp) (settles_merge hleft hright)

/-- A step of a computation that cannot fail. -/
theorem settles_bind_value {A : α → Prop} {f : α → Routine τ σ β} {routine : Routine τ σ α}
    (h : routine.Settles (Value A)) (hvalue : ∀ value, A value → (f value).Settles Q) :
    (routine >>= f).Settles Q :=
  settles_bind h hvalue fun _ => False.elim

/-- A step of a computation that may fail. -/
theorem settles_bind_yields {A : α → Prop} {B : β → Prop} {f : α → Routine τ σ β}
    {routine : Routine τ σ α} (h : routine.Settles (Yields A))
    (hvalue : ∀ value, A value → (f value).Settles (Yields B)) :
    (routine >>= f).Settles (Yields B) :=
  settles_bind h hvalue fun _ _ => trivial

/-- Steps of a computation that fail in the same ways. -/
theorem settles_bind_failsOnly {F : Failure → Prop} {f : α → Routine τ σ β} {routine : Routine τ σ α}
    (h : routine.Settles (FailsOnly F)) (hvalue : ∀ value, (f value).Settles (FailsOnly F)) :
    (routine >>= f).Settles (FailsOnly F) :=
  settles_bind h (fun value _ => hvalue value) fun _ => id

theorem settles_join_value {A : α → Prop} {B : β → Prop} {left : Routine τ σ α}
    {right : Routine τ σ β} (hleft : left.Settles (Value A)) (hright : right.Settles (Value B)) :
    (join left right).Settles (Value fun pair => A pair.1 ∧ B pair.2) := by
  refine (settles_join hleft hright).mono fun result hresult => ?_
  cases result with
  | ok pair => exact hresult
  | error failure => exact hresult.elim id id

theorem settles_both_value {A : α → Prop} {B : β → Prop} {left : Routine τ σ α}
    {right : Routine τ σ β} (hleft : left.Settles (Value A)) (hright : right.Settles (Value B)) :
    (both left right).Settles (Value fun pair => A pair.1 ∧ B pair.2) :=
  settles_settleLater (settles_join_value (settles_spawned hleft) (settles_spawned hright))

theorem settles_both_failsOnly {F : Failure → Prop} {left : Routine τ σ α} {right : Routine τ σ β}
    (hleft : left.Settles (FailsOnly F)) (hright : right.Settles (FailsOnly F)) :
    (both left right).Settles (FailsOnly F) := by
  refine settles_settleLater ((settles_join (settles_spawned hleft) (settles_spawned hright)).mono
    fun result hresult => ?_)
  cases result with
  | ok pair => trivial
  | error failure => exact hresult.elim id id

/-- The property of the results of a list of routines, one for each key: the first failure is the
failure of one of them. -/
def Each {κ : Type} (P : κ → Result α → Prop) (keys : List κ) : Result (List α) → Prop
  | .ok values => List.Forall₂ (fun key value => P key (.ok value)) keys values
  | .error failure => ∃ key ∈ keys, P key (.error failure)

theorem settles_joinAll {κ : Type} {P : κ → Result α → Prop} {keys : List κ}
    {routine : κ → Routine τ σ α} (h : ∀ key ∈ keys, (routine key).Settles (P key)) :
    (joinAll (keys.map routine)).Settles (Each P keys) := by
  induction keys with
  | nil => exact ⟨.nil, trivial⟩
  | cons key keys ih =>
      have hkey : (routine key).Settles (P key) := h key List.mem_cons_self
      have hkeys := ih fun other hother => h other (List.mem_cons_of_mem key hother)
      cases keys with
      | nil =>
          refine settles_mapResult.mpr (hkey.mono fun result hresult => ?_)
          cases result with
          | ok value => exact .cons hresult .nil
          | error failure => exact ⟨key, List.mem_cons_self, hresult⟩
      | cons second keys =>
          refine settles_mapResult.mpr ((settles_join hkey hkeys).mono fun result hresult => ?_)
          cases result with
          | ok values => exact .cons hresult.1 hresult.2
          | error failure =>
              rcases hresult with hfirst | ⟨other, hother, hlater⟩
              · exact ⟨key, List.mem_cons_self, hfirst⟩
              · exact ⟨other, List.mem_cons_of_mem key hother, hlater⟩

theorem settles_all {κ : Type} {P : κ → Result α → Prop} {keys : List κ}
    {routine : κ → Routine τ σ α} (h : ∀ key ∈ keys, (routine key).Settles (P key)) :
    (all (keys.map routine)).Settles (Each P keys) := by
  cases keys with
  | nil => exact ⟨.nil, trivial⟩
  | cons key keys =>
      have hjoined : (joinAll ((key :: keys).map fun key => spawned (routine key))).Settles
          (Each P (key :: keys)) := settles_joinAll fun key hkey => settles_spawned (h key hkey)
      simpa [all, List.map_map, Function.comp_def] using settles_settleLater hjoined

theorem settles_all_failsOnly {κ : Type} {F : Failure → Prop} {keys : List κ}
    {routine : κ → Routine τ σ α} (h : ∀ key, (routine key).Settles (FailsOnly F)) :
    (all (keys.map routine)).Settles (FailsOnly F) := by
  refine (settles_all fun key _ => h key).mono fun result hresult => ?_
  cases result with
  | ok values => trivial
  | error failure =>
      obtain ⟨_, _, hfailure⟩ := hresult
      exact hfailure

theorem settles_expire {reaction : Routine τ σ α → Option (Routine τ σ α)} {deadline : Turn τ}
    {routine : Routine τ σ α} (h : routine.Settles P) (htimeout : P (.error timeout))
    (hreaction : ∀ left rest, reaction left = some rest → rest.Settles P) :
    (expire reaction deadline routine).Settles P := by
  induction routine with
  | halt => exact settles_cancel (settles_timeout htimeout) (hreaction _)
  | settle result rest ih => exact settles_yielding (settles_yielding h)
  | act update next ih => exact fun state => ih state (h state)
  | record entry next ih => exact ih h
  | moment next ih => exact fun now turn => ih now turn (h now turn)
  | wait due abandon next ih =>
      intro state
      have habandoned : (abandoned abandon : Routine τ σ α).Settles P := fun _ _ _ =>
        settles_yielding (settles_yielding (settles_timeout htimeout))
      dsimp only
      split
      · split
        · exact ih h
        · exact settles_cancel habandoned (hreaction _)
      · exact settles_cancel habandoned (hreaction _)

theorem settles_bounded {limit : Option Number}
    {reaction : Routine τ σ α → Option (Routine τ σ α)} {routine : Routine τ σ α}
    (h : routine.Settles P) (htimeout : P (.error timeout))
    (hreaction : ∀ left rest, reaction left = some rest → rest.Settles P) :
    (bounded limit reaction routine).Settles P := by
  cases limit with
  | none => exact h
  | some span =>
      by_cases hspan : span.atMost 0 = true
      · simpa only [bounded, hspan, ↓reduceIte] using settles_yielding (settles_timeout htimeout)
      · simp only [bounded, hspan, Bool.false_eq_true, ↓reduceIte]
        exact fun _ _ => settles_expire (settles_yielding h) htimeout hreaction

theorem settles_within {limit : Option Number} {routine : Routine τ σ α} (h : routine.Settles P)
    (htimeout : P (.error timeout)) : (within limit routine).Settles P :=
  settles_bounded h htimeout nofun

theorem run_settles (progress : Progress τ σ) {routine : Routine τ σ α} (h : routine.Settles P)
    {result : Result α} (hrun : (run progress routine).result = some result) : P result := by
  induction routine generalizing progress with
  | halt => cases hrun
  | settle settled rest ih =>
      cases hrun
      exact h.1
  | act update next ih => exact ih _ _ (h _) hrun
  | record entry next ih => exact ih _ h hrun
  | moment next ih => exact ih _ _ _ (h _ _) hrun
  | wait due abandon next ih =>
      cases hdue : due progress.state with
      | none =>
          rw [run, hdue] at hrun
          cases hrun
      | some turn =>
          rw [run, hdue] at hrun
          exact ih _ h hrun

-- Routines compute: a fact about one is not to be unfolded into the steps that it takes.
attribute [irreducible] Settles

end ProgramAudit.Routine
