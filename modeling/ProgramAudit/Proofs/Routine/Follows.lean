import ProgramAudit.Proofs.Routine.Logs

/-!
Routines with a log beside routines without one. Where one takes the steps of the other and besides
only writes to its log, every combination of such routines does so too, and their runs come to the same.
So what is said of a run by means of a log is said of the run without the log.
-/

namespace ProgramAudit.Routine

variable {τ σ E α β : Type}

/-- The left routine takes the steps of the right one, and besides it only writes to its log. -/
inductive Follows : Routine τ (σ × List E) α → Routine τ σ α → Prop
  | halt : Follows .halt .halt
  | settle {result : Result α} {rest : Routine τ (σ × List E) α} {rest' : Routine τ σ α} :
    Follows rest rest' → Follows (.settle result rest) (.settle result rest')
  | act {update : σ × List E → σ × List E} {update' : σ → σ}
    {next : σ × List E → Routine τ (σ × List E) α} {next' : σ → Routine τ σ α} :
    (∀ state, (update state).1 = update' state.1) → (∀ state, Follows (next state) (next' state.1)) →
    Follows (.act update next) (.act update' next')
  | log {update : σ × List E → σ × List E} {next : σ × List E → Routine τ (σ × List E) α}
    {routine' : Routine τ σ α} : (∀ state, (update state).1 = state.1) →
    (∀ state, Follows (next state) routine') → Follows (.act update next) routine'
  | record {entry : Journal.Record} {next : Routine τ (σ × List E) α} {next' : Routine τ σ α} :
    Follows next next' → Follows (.record entry next) (.record entry next')
  | moment {next : τ → Nat → Routine τ (σ × List E) α} {next' : τ → Nat → Routine τ σ α} :
    (∀ now turn, Follows (next now turn) (next' now turn)) → Follows (.moment next) (.moment next')
  | wait {due : σ × List E → Option (Turn τ)} {due' : σ → Option (Turn τ)}
    {abandon : τ → Nat → σ × List E → σ × List E} {abandon' : τ → Nat → σ → σ}
    {next : Routine τ (σ × List E) α} {next' : Routine τ σ α} :
    (∀ state, due state = due' state.1) →
    (∀ now turn state, (abandon now turn state).1 = abandon' now turn state.1) →
    Follows next next' → Follows (.wait due abandon next) (.wait due' abandon' next')

/-- Nothing is left to settle when the routine has settled. -/
def SettlesOnce : Routine τ σ α → Prop
  | .halt => True
  | .settle _ rest => rest.Silent
  | .act _ next => ∀ state, SettlesOnce (next state)
  | .record _ next => SettlesOnce next
  | .moment next => ∀ now turn, SettlesOnce (next now turn)
  | .wait _ _ next => SettlesOnce next

variable {routine : Routine τ (σ × List E) α} {routine' : Routine τ σ α}

/-! ### Routines that note what they do -/

theorem follows_lift (routine : Routine τ σ α) :
    Follows (routine.lift : Routine τ (σ × List E) α) routine := by
  induction routine with
  | halt => exact .halt
  | settle result rest ih => exact .settle ih
  | act update next ih => exact .act (fun _ => rfl) fun state => ih state.1
  | record entry next ih => exact .record ih
  | moment next ih => exact .moment ih
  | wait due abandon next ih => exact .wait (fun _ => rfl) (fun _ _ _ => rfl) ih

section
unseal Settles

theorem silence_of_silent {routine : Routine τ σ α} (h : routine.Silent) :
    routine.silence = routine := by
  induction routine with
  | halt => rfl
  | settle result rest ih => exact h.1.elim
  | act update next ih => exact congrArg (Routine.act update) (funext fun state => ih state (h state))
  | record entry next ih => exact congrArg (Routine.record entry) (ih h)
  | moment next ih =>
      exact congrArg Routine.moment (funext fun now => funext fun turn => ih now turn (h now turn))
  | wait due abandon next ih => exact congrArg (Routine.wait due abandon) (ih h)

end

theorem follows_noting {routine : Routine τ σ α} (h : routine.SettlesOnce)
    (tell : Result α → List E) : Follows (routine.noting tell) routine := by
  induction routine with
  | halt => exact .halt
  | settle result rest ih =>
      refine .log (fun _ => rfl) fun _ => .settle ?_
      rw [silence_of_silent h]
      exact follows_lift rest
  | act update next ih => exact .act (fun _ => rfl) fun state => ih state.1 (h state.1)
  | record entry next ih => exact .record (ih h)
  | moment next ih => exact .moment fun now turn => ih now turn (h now turn)
  | wait due abandon next ih => exact .wait (fun _ => rfl) (fun _ _ _ => rfl) (ih h)

theorem follows_observed {routine : Routine τ σ α} (h : routine.SettlesOnce) (start : List E)
    (tell : Result α → List E) : Follows (routine.observed start tell) routine :=
  .log (fun _ => rfl) fun _ => follows_noting h tell

theorem follows_ofResult (result : Result α) :
    Follows (ofResult result : Routine τ (σ × List E) α) (ofResult result) := .settle .halt

theorem follows_note (entry : Journal.Record) :
    Follows (note entry : Routine τ (σ × List E) Unit) (note entry) := .record (.settle .halt)

/-! ### Combinations -/

theorem follows_mapResult (h : Follows routine routine') (f : Result α → Result β) :
    Follows (routine.mapResult f) (routine'.mapResult f) := by
  induction h with
  | halt => exact .halt
  | settle _ ih => exact .settle ih
  | act hupdate _ ih => exact .act hupdate ih
  | log hupdate _ ih => exact .log hupdate ih
  | record _ ih => exact .record ih
  | moment _ ih => exact .moment ih
  | wait hdue habandon _ ih => exact .wait hdue habandon ih

theorem follows_silence (h : Follows routine routine') :
    Follows (routine.silence : Routine τ (σ × List E) β) routine'.silence := by
  induction h with
  | halt => exact .halt
  | settle _ ih => exact ih
  | act hupdate _ ih => exact .act hupdate ih
  | log hupdate _ ih => exact .log hupdate ih
  | record _ ih => exact .record ih
  | moment _ ih => exact .moment ih
  | wait hdue habandon _ ih => exact .wait hdue habandon ih

theorem follows_yielding (h : Follows routine routine') :
    Follows (yielding routine) (yielding routine') :=
  .moment fun _ _ => .wait (fun _ => rfl) (fun _ _ _ => rfl) h

theorem follows_settleLater (h : Follows routine routine') :
    Follows routine.settleLater routine'.settleLater := by
  induction h with
  | halt => exact .halt
  | settle hrest _ => exact follows_yielding (.settle hrest)
  | act hupdate _ ih => exact .act hupdate ih
  | log hupdate _ ih => exact .log hupdate ih
  | record _ ih => exact .record ih
  | moment _ ih => exact .moment ih
  | wait hdue habandon _ ih => exact .wait hdue habandon ih

theorem follows_spawned (h : Follows routine routine') :
    Follows (spawned routine) (spawned routine') := follows_settleLater (follows_yielding h)

theorem follows_onlyRight {routine : Routine τ (σ × List E) (α ⊕ β)} {routine' : Routine τ σ (α ⊕ β)}
    (h : Follows routine routine') : Follows routine.onlyRight routine'.onlyRight := by
  induction h with
  | halt => exact .halt
  | @settle result _ _ _ ih =>
      match result with
      | .ok (.inl _) => exact ih
      | .ok (.inr _) => exact .settle ih
      | .error _ => exact .settle ih
  | act hupdate _ ih => exact .act hupdate ih
  | log hupdate _ ih => exact .log hupdate ih
  | record _ ih => exact .record ih
  | moment _ ih => exact .moment ih
  | wait hdue habandon _ ih => exact .wait hdue habandon ih

theorem onlyRight_map_inr (routine : Routine τ σ β) :
    (routine.map .inr : Routine τ σ (α ⊕ β)).onlyRight = routine := by
  unfold map
  induction routine with
  | halt => rfl
  | settle result rest ih =>
      cases result with
      | ok value => exact congrArg (Routine.settle (.ok value)) ih
      | error failure => exact congrArg (Routine.settle (.error failure)) ih
  | act update next ih => exact congrArg (Routine.act update) (funext ih)
  | record entry next ih => exact congrArg (Routine.record entry) ih
  | moment next ih =>
      exact congrArg Routine.moment (funext fun now => funext (ih now))
  | wait due abandon next ih => exact congrArg (Routine.wait due abandon) ih

theorem follows_collectBoth {routine : Routine τ (σ × List E) (α ⊕ β)}
    {routine' : Routine τ σ (α ⊕ β)} (h : Follows routine routine') (left : Option α)
    (right : Option β) :
    Follows (collectBoth left right routine) (collectBoth left right routine') := by
  induction h generalizing left right with
  | halt => exact .halt
  | @settle result _ _ hrest ih =>
      match result with
      | .error _ => exact .settle (follows_silence hrest)
      | .ok (.inl value) =>
          cases right with
          | none => exact ih (some value) none
          | some other => exact .settle (follows_silence hrest)
      | .ok (.inr value) =>
          cases left with
          | none => exact ih none (some value)
          | some other => exact .settle (follows_silence hrest)
  | act hupdate _ ih => exact .act hupdate fun state => ih state left right
  | log hupdate _ ih => exact .log hupdate fun state => ih state left right
  | record _ ih => exact .record (ih left right)
  | moment _ ih => exact .moment fun now turn => ih now turn left right
  | wait hdue habandon _ ih => exact .wait hdue habandon (ih left right)

variable [Clock τ] {left : Routine τ (σ × List E) α} {left' : Routine τ σ α}
  {right : Routine τ (σ × List E) β} {right' : Routine τ σ β}

/-- By induction on the routine that goes on while the other one waits. -/
theorem follows_mergeWaiting {due : σ × List E → Option (Turn τ)} {due' : σ → Option (Turn τ)}
    {abandon : τ → Nat → σ × List E → σ × List E} {abandon' : τ → Nat → σ → σ}
    {goOn : Routine τ (σ × List E) β → Routine τ (σ × List E) (α ⊕ β)}
    {goOn' : Routine τ σ β → Routine τ σ (α ⊕ β)} (hdue : ∀ state, due state = due' state.1)
    (habandon : ∀ now turn state, (abandon now turn state).1 = abandon' now turn state.1)
    (hgoOn : ∀ {right right'}, Follows right right' → Follows (goOn right) (goOn' right'))
    (hright : Follows right right') :
    Follows (mergeWaiting due abandon goOn right) (mergeWaiting due' abandon' goOn' right') := by
  induction hright with
  | halt => exact .wait hdue habandon (hgoOn .halt)
  | settle _ ih => exact .settle ih
  | act hupdate _ ih => exact .act hupdate ih
  | log hupdate _ ih => exact .log hupdate ih
  | record _ ih => exact .record ih
  | moment _ ih => exact .moment ih
  | @wait dueRight dueRight' _ _ _ _ hdueRight habandonRight hnext ih =>
      refine .wait (fun state => ?_) (fun now turn state => ?_) (.act (fun _ => rfl) fun state => ?_)
      · rw [hdue, hdueRight]
      · rw [habandonRight, habandon]
      · have hback := hgoOn (.wait hdueRight habandonRight hnext)
        rw [hdue, hdueRight]
        cases due' state.1 with
        | none => exact ih
        | some turn =>
            cases dueRight' state.1 with
            | none => exact hback
            | some turnRight =>
                dsimp only
                split
                · exact ih
                · exact hback

theorem follows_merge (hleft : Follows left left') (hright : Follows right right') :
    Follows (merge left right) (merge left' right') := by
  induction hleft generalizing right right' with
  | halt => exact follows_mapResult hright _
  | settle _ ih => exact .settle (ih hright)
  | act hupdate _ ih => exact .act hupdate fun state => ih state hright
  | log hupdate _ ih => exact .log hupdate fun state => ih state hright
  | record _ ih => exact .record (ih hright)
  | moment _ ih => exact .moment fun now turn => ih now turn hright
  | wait hdue habandon _ ih => exact follows_mergeWaiting hdue habandon ih hright

theorem beside_eq (background : Routine τ σ Empty) (routine : Routine τ σ α) :
    beside background routine = (merge background routine).onlyRight := by
  cases background with
  | halt => exact (onlyRight_map_inr routine).symm
  | _ => rfl

theorem follows_beside {background : Routine τ (σ × List E) Empty}
    {background' : Routine τ σ Empty} (hbackground : Follows background background')
    (h : Follows routine routine') :
    Follows (beside background routine) (beside background' routine') := by
  rw [beside_eq, beside_eq]
  exact follows_onlyRight (follows_merge hbackground h)

theorem follows_bind {f : α → Routine τ (σ × List E) β} {f' : α → Routine τ σ β}
    (h : Follows routine routine') (hf : ∀ value, Follows (f value) (f' value)) :
    Follows (routine.bind f) (routine'.bind f') := by
  induction h with
  | halt => exact .halt
  | @settle result _ _ hrest _ =>
      cases result with
      | ok value => exact follows_beside (follows_silence hrest) (hf value)
      | error failure => exact .settle (follows_silence hrest)
  | act hupdate _ ih => exact .act hupdate ih
  | log hupdate _ ih => exact .log hupdate ih
  | record _ ih => exact .record ih
  | moment _ ih => exact .moment ih
  | wait hdue habandon _ ih => exact .wait hdue habandon ih

theorem follows_join (hleft : Follows left left') (hright : Follows right right') :
    Follows (join left right) (join left' right') :=
  follows_collectBoth (follows_merge hleft hright) none none

theorem follows_both (hleft : Follows left left') (hright : Follows right right') :
    Follows (both left right) (both left' right') :=
  follows_settleLater (follows_join (follows_spawned hleft) (follows_spawned hright))

section Lists

variable {κ : Type} {keys : List κ} {f : κ → Routine τ (σ × List E) α} {f' : κ → Routine τ σ α}

theorem follows_joinAll (h : ∀ key ∈ keys, Follows (f key) (f' key)) :
    Follows (joinAll (keys.map f)) (joinAll (keys.map f')) := by
  induction keys with
  | nil => exact follows_ofResult _
  | cons key keys ih =>
      have hfirst := h key List.mem_cons_self
      have hrest := ih fun other hother => h other (List.mem_cons_of_mem key hother)
      cases keys with
      | nil => exact follows_mapResult hfirst _
      | cons second keys => exact follows_mapResult (follows_join hfirst hrest) _

theorem follows_all (h : ∀ key ∈ keys, Follows (f key) (f' key)) :
    Follows (all (keys.map f)) (all (keys.map f')) := by
  cases keys with
  | nil => exact follows_ofResult _
  | cons key keys =>
      simp only [all, List.map_cons, List.isEmpty_cons, Bool.false_eq_true, ↓reduceIte]
      rw [← List.map_cons, ← List.map_cons, List.map_map, List.map_map]
      exact follows_settleLater (follows_joinAll fun key hkey => follows_spawned (h key hkey))

end Lists

/-! ### Runs -/

/-- A run with the log comes to what the run without it comes to, and leaves the same behind. -/
theorem run_follows (h : Follows routine routine') (progress : Progress τ (σ × List E)) :
    (run progress routine).result = (run progress.alone routine').result ∧
    (run progress routine).final.alone = (run progress.alone routine').final := by
  induction h generalizing progress with
  | halt => exact ⟨rfl, rfl⟩
  | settle _ _ => exact ⟨rfl, rfl⟩
  | @act update _ _ _ hupdate _ ih =>
      have hstep := ih progress.state { progress with state := update progress.state }
      simp only [Progress.alone, hupdate] at hstep
      exact hstep
  | @log update _ _ hupdate _ ih =>
      have hstep := ih progress.state { progress with state := update progress.state }
      simp only [Progress.alone, hupdate] at hstep
      exact hstep
  | record _ ih => exact ih _
  | moment _ ih => exact ih progress.now progress.turn _
  | @wait due due' _ _ _ _ hdue _ _ ih =>
      cases hfound : due' progress.state.1 with
      | none => simp only [run, Progress.alone, hdue, hfound, and_self]
      | some turn =>
          simp only [run, Progress.alone, hdue, hfound]
          exact ih _

end ProgramAudit.Routine
