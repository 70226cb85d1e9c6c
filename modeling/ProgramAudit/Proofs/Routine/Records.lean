import ProgramAudit.Routine.Concurrent
import ProgramAudit.Routine.Run

/-!
Records that routines write. A property of every record of a routine asks nothing of the schedule, so
where many run at once each record in the journal still is one that one of them wrote, under whatever
name its stage gave to it.
-/

namespace ProgramAudit.Routine

variable {τ σ α β : Type} {P Q : Journal.Record → Prop}

/-- Every record that the routine writes has a property, also after it has settled. -/
def Records (P : Journal.Record → Prop) : Routine τ σ α → Prop
  | .halt => True
  | .settle _ rest => Records P rest
  | .act _ next => ∀ state, Records P (next state)
  | .record entry next => P entry ∧ Records P next
  | .moment next => ∀ now turn, Records P (next now turn)
  | .wait _ _ next => Records P next

theorem Records.mono {routine : Routine τ σ α} (h : routine.Records P)
    (himp : ∀ entry, P entry → Q entry) : routine.Records Q := by
  induction routine with
  | halt => trivial
  | settle result rest ih => exact ih h
  | act update next ih => exact fun state => ih state (h state)
  | record entry next ih => exact ⟨himp entry h.1, ih h.2⟩
  | moment next ih => exact fun now turn => ih now turn (h now turn)
  | wait due abandon next ih => exact ih h

theorem records_ofResult (result : Result α) : (ofResult result : Routine τ σ α).Records P := trivial

theorem records_note {entry : Journal.Record} (h : P entry) :
    (note entry : Routine τ σ Unit).Records P := ⟨h, trivial⟩

theorem records_mapResult {f : Result α → Result β} {routine : Routine τ σ α}
    (h : routine.Records P) : (routine.mapResult f).Records P := by
  induction routine with
  | halt => trivial
  | settle result rest ih => exact ih h
  | act update next ih => exact fun state => ih state (h state)
  | record entry next ih => exact ⟨h.1, ih h.2⟩
  | moment next ih => exact fun now turn => ih now turn (h now turn)
  | wait due abandon next ih => exact ih h

theorem records_silence {routine : Routine τ σ α} (h : routine.Records P) :
    (routine.silence : Routine τ σ β).Records P := by
  induction routine with
  | halt => trivial
  | settle result rest ih => exact ih h
  | act update next ih => exact fun state => ih state (h state)
  | record entry next ih => exact ⟨h.1, ih h.2⟩
  | moment next ih => exact fun now turn => ih now turn (h now turn)
  | wait due abandon next ih => exact ih h

/-- Within a stage each record is one of the routine, with the name of the stage. -/
theorem records_inStage {stage : String} {routine : Routine τ σ α} (h : routine.Records P) :
    (routine.inStage stage).Records fun entry => ∃ own, P own ∧ entry = own.inStage stage := by
  induction routine with
  | halt => trivial
  | settle result rest ih => exact ih h
  | act update next ih => exact fun state => ih state (h state)
  | record entry next ih => exact ⟨⟨entry, h.1, rfl⟩, ih h.2⟩
  | moment next ih => exact fun now turn => ih now turn (h now turn)
  | wait due abandon next ih => exact ih h

theorem records_yielding {routine : Routine τ σ α} (h : routine.Records P) :
    (yielding routine).Records P := fun _ _ => h

theorem records_settleLater {routine : Routine τ σ α} (h : routine.Records P) :
    routine.settleLater.Records P := by
  induction routine with
  | halt => trivial
  | settle result rest ih => exact records_yielding h
  | act update next ih => exact fun state => ih state (h state)
  | record entry next ih => exact ⟨h.1, ih h.2⟩
  | moment next ih => exact fun now turn => ih now turn (h now turn)
  | wait due abandon next ih => exact ih h

theorem records_spawned {routine : Routine τ σ α} (h : routine.Records P) :
    (spawned routine).Records P :=
  records_settleLater (records_yielding h)

theorem records_onlyRight {routine : Routine τ σ (α ⊕ β)} (h : routine.Records P) :
    routine.onlyRight.Records P := by
  induction routine with
  | halt => trivial
  | settle result rest ih =>
      match result with
      | .ok (.inl _) => exact ih h
      | .ok (.inr _) => exact ih h
      | .error _ => exact ih h
  | act update next ih => exact fun state => ih state (h state)
  | record entry next ih => exact ⟨h.1, ih h.2⟩
  | moment next ih => exact fun now turn => ih now turn (h now turn)
  | wait due abandon next ih => exact ih h

theorem records_timeout : (yielding (fail timeout) : Routine τ σ α).Records P :=
  records_yielding trivial

theorem records_cancel {reaction : Routine τ σ α → Option (Routine τ σ α)}
    {left ended : Routine τ σ α} (hended : ended.Records P)
    (hreaction : ∀ rest, reaction left = some rest → rest.Records P) :
    (cancel reaction left ended).Records P := by
  unfold cancel
  cases hrest : reaction left with
  | none => exact hended
  | some rest =>
      exact records_yielding (records_settleLater (records_settleLater (hreaction rest hrest)))

theorem records_collectBoth {found : Option α} {other : Option β} {routine : Routine τ σ (α ⊕ β)}
    (h : routine.Records P) : (collectBoth found other routine).Records P := by
  induction routine generalizing found other with
  | halt => trivial
  | settle result rest ih =>
      match result with
      | .error _ => exact records_silence h
      | .ok (.inl value) =>
          cases other with
          | none => exact ih h
          | some value' => exact records_silence h
      | .ok (.inr value) =>
          cases found with
          | none => exact ih h
          | some value' => exact records_silence h
  | act update next ih => exact fun state => ih state (h state)
  | record entry next ih => exact ⟨h.1, ih h.2⟩
  | moment next ih => exact fun now turn => ih now turn (h now turn)
  | wait due abandon next ih => exact ih h

variable [Clock τ]

theorem records_mergeWaiting {due : σ → Option (Turn τ)} {abandon : τ → Nat → σ → σ}
    {left : Routine τ σ β → Routine τ σ (α ⊕ β)} {right : Routine τ σ β}
    (hleft : ∀ rest, rest.Records P → (left rest).Records P) (hright : right.Records P) :
    (mergeWaiting due abandon left right).Records P := by
  induction right with
  | halt => exact hleft .halt trivial
  | settle result rest ih => exact ih hright
  | act update next ih => exact fun state => ih state (hright state)
  | record entry next ih => exact ⟨hright.1, ih hright.2⟩
  | moment next ih => exact fun now turn => ih now turn (hright now turn)
  | wait due' abandon' next ih =>
      intro state
      have hwaiting : (left (.wait due' abandon' next)).Records P := hleft _ hright
      dsimp only
      split
      · split
        · exact ih hright
        · exact hwaiting
      · exact hwaiting
      · exact ih hright

theorem records_sleepFor (span : τ) : (sleepFor span : Routine τ σ Unit).Records P :=
  fun _ _ => records_yielding trivial

theorem records_merge {left : Routine τ σ α} {right : Routine τ σ β} (hleft : left.Records P)
    (hright : right.Records P) : (merge left right).Records P := by
  induction left generalizing right with
  | halt => exact records_mapResult hright
  | settle result rest ih => exact ih hleft hright
  | act update next ih => exact fun state => ih state (hleft state) hright
  | record entry next ih => exact ⟨hleft.1, ih hleft.2 hright⟩
  | moment next ih => exact fun now turn => ih now turn (hleft now turn) hright
  | wait due abandon next ih => exact records_mergeWaiting (fun _ => ih hleft) hright

theorem records_beside {background : Routine τ σ Empty} {routine : Routine τ σ α}
    (hbackground : background.Records P) (h : routine.Records P) :
    (beside background routine).Records P := by
  cases background with
  | halt => exact h
  | _ => exact records_onlyRight (records_merge hbackground h)

theorem records_bind {f : α → Routine τ σ β} {routine : Routine τ σ α} (h : routine.Records P)
    (hf : ∀ value, (f value).Records P) : (routine.bind f).Records P := by
  induction routine with
  | halt => trivial
  | settle result rest ih =>
      cases result with
      | ok value => exact records_beside (records_silence h) (hf value)
      | error failure => exact records_silence h
  | act update next ih => exact fun state => ih state (h state)
  | record entry next ih => exact ⟨h.1, ih h.2⟩
  | moment next ih => exact fun now turn => ih now turn (h now turn)
  | wait due abandon next ih => exact ih h

theorem records_join {left : Routine τ σ α} {right : Routine τ σ β} (hleft : left.Records P)
    (hright : right.Records P) : (join left right).Records P :=
  records_collectBoth (records_merge hleft hright)

theorem records_both {left : Routine τ σ α} {right : Routine τ σ β} (hleft : left.Records P)
    (hright : right.Records P) : (both left right).Records P :=
  records_settleLater (records_join (records_spawned hleft) (records_spawned hright))

theorem records_joinAll {routines : List (Routine τ σ α)}
    (h : ∀ routine ∈ routines, routine.Records P) : (joinAll routines).Records P := by
  induction routines with
  | nil => trivial
  | cons routine rest ih =>
      have hfirst : routine.Records P := h routine List.mem_cons_self
      have hrest := ih fun other hother => h other (List.mem_cons_of_mem routine hother)
      cases rest with
      | nil => exact records_mapResult hfirst
      | cons second rest => exact records_mapResult (records_join hfirst hrest)

theorem records_all {routines : List (Routine τ σ α)}
    (h : ∀ routine ∈ routines, routine.Records P) : (all routines).Records P := by
  unfold all
  split
  · trivial
  · refine records_settleLater (records_joinAll fun spawn hspawn => ?_)
    obtain ⟨routine, hroutine, rfl⟩ := List.mem_map.mp hspawn
    exact records_spawned (h routine hroutine)

theorem records_expire {reaction : Routine τ σ α → Option (Routine τ σ α)} {deadline : Turn τ}
    {routine : Routine τ σ α} (h : routine.Records P)
    (hreaction : ∀ left rest, reaction left = some rest → rest.Records P) :
    (expire reaction deadline routine).Records P := by
  induction routine with
  | halt => exact records_cancel records_timeout (hreaction _)
  | settle result rest ih => exact records_yielding (records_yielding h)
  | act update next ih => exact fun state => ih state (h state)
  | record entry next ih => exact ⟨h.1, ih h.2⟩
  | moment next ih => exact fun now turn => ih now turn (h now turn)
  | wait due abandon next ih =>
      intro state
      have habandoned : (abandoned abandon : Routine τ σ α).Records P := fun _ _ _ =>
        records_yielding (records_yielding records_timeout)
      dsimp only
      split
      · split
        · exact ih h
        · exact records_cancel habandoned (hreaction _)
      · exact records_cancel habandoned (hreaction _)

theorem records_bounded {limit : Option Number}
    {reaction : Routine τ σ α → Option (Routine τ σ α)} {routine : Routine τ σ α}
    (h : routine.Records P)
    (hreaction : ∀ left rest, reaction left = some rest → rest.Records P) :
    (bounded limit reaction routine).Records P := by
  cases limit with
  | none => exact h
  | some span =>
      by_cases hspan : span.atMost 0 = true
      · simpa only [bounded, hspan, ↓reduceIte] using records_yielding records_timeout
      · simp only [bounded, hspan, Bool.false_eq_true, ↓reduceIte]
        exact fun _ _ => records_expire (records_yielding h) hreaction

/-- A run adds records of the routine to the journal, in front of those that were there. -/
theorem run_records {routine : Routine τ σ α} (h : routine.Records P) (progress : Progress τ σ) :
    ∃ written, (run progress routine).final.journal = written ++ progress.journal ∧
      ∀ entry ∈ written, P entry := by
  induction routine generalizing progress with
  | halt => exact ⟨[], rfl, nofun⟩
  | settle result rest ih => exact ⟨[], rfl, nofun⟩
  | act update next ih => exact ih _ (h _) _
  | record entry next ih =>
      obtain ⟨written, hjournal, hwritten⟩ :=
        ih h.2 { progress with journal := entry :: progress.journal }
      refine ⟨written ++ [entry], hjournal.trans (by simp), fun other hother => ?_⟩
      rcases List.mem_append.mp hother with hlater | hfirst
      · exact hwritten other hlater
      · rw [List.mem_singleton.mp hfirst]
        exact h.1
  | moment next ih => exact ih _ _ (h _ _) _
  | wait due abandon next ih =>
      unfold run
      cases due progress.state with
      | none => exact ⟨[], rfl, nofun⟩
      | some turn => exact ih h _

attribute [irreducible] Records

end ProgramAudit.Routine
