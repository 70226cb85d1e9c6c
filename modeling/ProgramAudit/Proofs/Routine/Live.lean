import ProgramAudit.Routine.Concurrent
import ProgramAudit.Routine.Run

/-!
Routines that are sure to settle. A routine may wait for a turn that never comes, or stop without a
result; under a time limit it can do neither, and every way of putting routines together keeps that.
-/

namespace ProgramAudit.Routine

variable {τ σ α β : Type}

/-- Until it settles, the routine never stops and every turn that it waits for comes. -/
def Live : Routine τ σ α → Prop
  | .halt => False
  | .settle _ _ => True
  | .act _ next => ∀ state, Live (next state)
  | .record _ next => Live next
  | .moment next => ∀ now turn, Live (next now turn)
  | .wait due _ next => (∀ state, (due state).isSome = true) ∧ Live next

theorem live_ofResult (result : Result α) : (ofResult result : Routine τ σ α).Live := trivial

theorem live_succeed (value : α) : (succeed value : Routine τ σ α).Live := trivial

theorem live_mapResult {f : Result α → Result β} {routine : Routine τ σ α} (h : routine.Live) :
    (routine.mapResult f).Live := by
  induction routine with
  | halt => exact h
  | settle result rest ih => trivial
  | act update next ih => exact fun state => ih state (h state)
  | record entry next ih => exact ih h
  | moment next ih => exact fun now turn => ih now turn (h now turn)
  | wait due abandon next ih => exact ⟨h.1, ih h.2⟩

theorem live_inStage {stage : String} {routine : Routine τ σ α} (h : routine.Live) :
    (routine.inStage stage).Live := by
  induction routine with
  | halt => exact h
  | settle result rest ih => trivial
  | act update next ih => exact fun state => ih state (h state)
  | record entry next ih => exact ih h
  | moment next ih => exact fun now turn => ih now turn (h now turn)
  | wait due abandon next ih => exact ⟨h.1, ih h.2⟩

theorem live_yielding {routine : Routine τ σ α} (h : routine.Live) : (yielding routine).Live :=
  fun _ _ => ⟨fun _ => rfl, h⟩

theorem live_timeout : (yielding (fail timeout) : Routine τ σ α).Live :=
  live_yielding trivial

theorem live_settleLater {routine : Routine τ σ α} (h : routine.Live) :
    routine.settleLater.Live := by
  induction routine with
  | halt => exact h
  | settle result rest ih => exact live_yielding trivial
  | act update next ih => exact fun state => ih state (h state)
  | record entry next ih => exact ih h
  | moment next ih => exact fun now turn => ih now turn (h now turn)
  | wait due abandon next ih => exact ⟨h.1, ih h.2⟩

theorem live_spawned {routine : Routine τ σ α} (h : routine.Live) : (spawned routine).Live :=
  live_settleLater (live_yielding h)

theorem live_cancel {reaction : Routine τ σ α → Option (Routine τ σ α)}
    {left ended : Routine τ σ α} (hended : ended.Live)
    (hreaction : ∀ rest, reaction left = some rest → rest.Live) :
    (cancel reaction left ended).Live := by
  unfold cancel
  cases hrest : reaction left with
  | none => exact hended
  | some rest => exact live_yielding (live_settleLater (live_settleLater (hreaction rest hrest)))

theorem live_note (entry : Journal.Record) : (note entry : Routine τ σ Unit).Live := trivial

theorem live_notes (entries : List Journal.Record) : (notes entries : Routine τ σ Unit).Live := by
  induction entries with
  | nil => trivial
  | cons entry rest ih => exact ih

variable [Clock τ]

theorem isSome_earliest?_left {left right : Option (Turn τ)} (h : left.isSome = true) :
    (Turn.earliest? left right).isSome = true := by
  cases left with
  | none => cases h
  | some turn => cases right <;> rfl

theorem isSome_earliest?_right {left right : Option (Turn τ)} (h : right.isSome = true) :
    (Turn.earliest? left right).isSome = true := by
  cases right with
  | none => cases h
  | some turn => cases left <;> rfl

/-- Only the right side has to settle; the left one may stop or wait for ever. -/
theorem live_onlyRight_merge (left : Routine τ σ α) {right : Routine τ σ β} (h : right.Live) :
    (merge left right).onlyRight.Live := by
  induction left generalizing right with
  | halt =>
      induction right with
      | halt => exact h
      | settle result rest ih => cases result <;> trivial
      | act update next ih => exact fun state => ih state (h state)
      | record entry next ih => exact ih h
      | moment next ih => exact fun now turn => ih now turn (h now turn)
      | wait due abandon next ih => exact ⟨h.1, ih h.2⟩
  | settle result rest ih =>
      cases result with
      | ok value => exact ih h
      | error failure => trivial
  | act update next ih => exact fun state => ih state h
  | record entry next ih => exact ih h
  | moment next ih => exact fun now turn => ih now turn h
  | wait due abandon next ihLeft =>
      -- The left side stays as it is while the right one goes on, so this is an induction inside.
      induction right with
      | halt => exact h.elim
      | settle result rest ih => cases result <;> trivial
      | act update next ih => exact fun state => ih state (h state)
      | record entry next ih => exact ih h
      | moment next ih => exact fun now turn => ih now turn (h now turn)
      | wait due' abandon' next ih =>
          refine ⟨fun state => isSome_earliest?_right (h.1 state), fun state => ?_⟩
          dsimp only
          split
          · split
            · exact ih h.2
            · exact ihLeft h
          · exact ihLeft h
          · exact ih h.2

theorem live_beside (background : Routine τ σ Empty) {routine : Routine τ σ α}
    (h : routine.Live) : (beside background routine).Live := by
  cases background with
  | halt => exact h
  | _ => exact live_onlyRight_merge _ h

theorem live_bind {f : α → Routine τ σ β} {routine : Routine τ σ α} (h : routine.Live)
    (hvalue : ∀ value, (f value).Live) : (routine.bind f).Live := by
  induction routine with
  | halt => exact h
  | settle result rest ih =>
      cases result with
      | ok value => exact live_beside _ (hvalue value)
      | error failure => trivial
  | act update next ih => exact fun state => ih state (h state)
  | record entry next ih => exact ih h
  | moment next ih => exact fun now turn => ih now turn (h now turn)
  | wait due abandon next ih => exact ⟨h.1, ih h.2⟩

/-- A side whose value is there need not settle again, and one value is missing at least. -/
theorem live_collectBoth_merge {left : Routine τ σ α} {right : Routine τ σ β} {found : Option α}
    {other : Option β} (hleft : found = none → left.Live) (hright : other = none → right.Live)
    (hmissing : found = none ∨ other = none) :
    (collectBoth found other (merge left right)).Live := by
  induction left generalizing right found other with
  | halt =>
      have hother : other = none := hmissing.resolve_left fun h => hleft h
      subst hother
      have hlive : right.Live := hright rfl
      cases found with
      | none => exact (hleft rfl).elim
      | some value =>
          -- The left side has its value and is gone; what is left follows the right side alone.
          clear hleft hright hmissing
          induction right with
          | halt => exact hlive
          | settle result rest ih => cases result <;> trivial
          | act update next ih => exact fun state => ih state (hlive state)
          | record entry next ih => exact ih hlive
          | moment next ih => exact fun now turn => ih now turn (hlive now turn)
          | wait due abandon next ih => exact ⟨hlive.1, ih hlive.2⟩
  | settle result rest ih =>
      cases result with
      | error failure => trivial
      | ok value =>
          cases other with
          | some value => trivial
          | none => exact ih (by simp) hright (Or.inr rfl)
  | act update next ih => exact fun state => ih state (fun h => hleft h state) hright hmissing
  | record entry next ih => exact ih hleft hright hmissing
  | moment next ih =>
      exact fun now turn => ih now turn (fun h => hleft h now turn) hright hmissing
  | wait due abandon next ihLeft =>
      induction right generalizing found other with
      | halt =>
          have hfound : found = none := hmissing.resolve_right fun h => hright h
          exact ⟨(hleft hfound).1, ihLeft (fun h => (hleft h).2) hright hmissing⟩
      | settle result rest ih =>
          cases result with
          | error failure => trivial
          | ok value =>
              cases found with
              | some value => trivial
              | none => exact ih hleft (by simp) (Or.inl rfl)
      | act update next ih => exact fun state => ih state hleft (fun h => hright h state) hmissing
      | record entry next ih => exact ih hleft hright hmissing
      | moment next ih =>
          exact fun now turn => ih now turn hleft (fun h => hright h now turn) hmissing
      | wait due' abandon' next ih =>
          refine ⟨fun state => ?_, fun state => ?_⟩
          · rcases hmissing with hfound | hother
            · exact isSome_earliest?_left ((hleft hfound).1 state)
            · exact isSome_earliest?_right ((hright hother).1 state)
          · dsimp only
            split
            · split
              · exact ih hleft (fun h => (hright h).2) hmissing
              · exact ihLeft (fun h => (hleft h).2) hright hmissing
            · exact ihLeft (fun h => (hleft h).2) hright hmissing
            · exact ih hleft (fun h => (hright h).2) hmissing

theorem live_join {left : Routine τ σ α} {right : Routine τ σ β} (hleft : left.Live)
    (hright : right.Live) : (join left right).Live :=
  live_collectBoth_merge (fun _ => hleft) (fun _ => hright) (Or.inl rfl)

/-- Whatever the routine does, its deadline ends it, unless it goes on with something that does not
end. -/
theorem live_expire {reaction : Routine τ σ α → Option (Routine τ σ α)} (deadline : Turn τ)
    (routine : Routine τ σ α) (hreaction : ∀ left rest, reaction left = some rest → rest.Live) :
    (expire reaction deadline routine).Live := by
  have habandoned (abandon : τ → Nat → σ → σ) : (abandoned abandon : Routine τ σ α).Live :=
    fun _ _ _ => live_yielding (live_yielding live_timeout)
  induction routine with
  | halt => exact ⟨fun _ => rfl, live_cancel live_timeout (hreaction _)⟩
  | settle result rest ih => exact live_yielding (live_yielding trivial)
  | act update next ih => exact ih
  | record entry next ih => exact ih
  | moment next ih => exact ih
  | wait due abandon next ih =>
      refine ⟨fun state => isSome_earliest?_left rfl, fun state => ?_⟩
      dsimp only
      split
      · split
        · exact ih
        · exact live_cancel (habandoned abandon) (hreaction _)
      · exact live_cancel (habandoned abandon) (hreaction _)

theorem live_bounded {reaction : Routine τ σ α → Option (Routine τ σ α)} (span : Number)
    (routine : Routine τ σ α) (hreaction : ∀ left rest, reaction left = some rest → rest.Live) :
    (bounded (some span) reaction routine).Live := by
  by_cases hspan : span.atMost 0 = true
  · simpa only [bounded, hspan, ↓reduceIte] using live_yielding live_timeout
  · simp only [bounded, hspan, Bool.false_eq_true, ↓reduceIte]
    exact fun _ _ => live_expire _ _ hreaction

theorem live_within (span : Number) (routine : Routine τ σ α) :
    (within (some span) routine).Live :=
  live_bounded span routine nofun

theorem run_live (progress : Progress τ σ) {routine : Routine τ σ α} (h : routine.Live) :
    ∃ result, (run progress routine).result = some result := by
  induction routine generalizing progress with
  | halt => exact h.elim
  | settle result rest ih => exact ⟨result, rfl⟩
  | act update next ih => exact ih _ _ (h _)
  | record entry next ih => exact ih _ h
  | moment next ih => exact ih _ _ _ (h _ _)
  | wait due abandon next ih =>
      obtain ⟨turn, hturn⟩ := Option.isSome_iff_exists.mp (h.1 progress.state)
      rw [run, hturn]
      exact ih _ h.2

attribute [irreducible] Live

end ProgramAudit.Routine
