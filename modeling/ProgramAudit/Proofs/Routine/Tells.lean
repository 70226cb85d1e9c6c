import ProgramAudit.Proofs.Routine.Live
import ProgramAudit.Proofs.Routine.Logs
import ProgramAudit.Proofs.Routine.Ventures

/-!
The order in which a routine writes into its log. What goes on in the background writes nothing, so
what has been written when a routine settles is a list, and a routine that follows writes behind it.
-/

namespace ProgramAudit.Routine

variable {τ σ E α β : Type}

/-- Nothing is written into the log. -/
def Quiet : Routine τ (σ × List E) α → Prop
  | .halt => True
  | .settle _ rest => rest.Quiet
  | .act update next => ∀ state, (update state).2 = state.2 ∧ (next state).Quiet
  | .record _ next => next.Quiet
  | .moment next => ∀ now turn, (next now turn).Quiet
  | .wait _ _ next => next.Quiet

/-- The first result and all that has been written until then, the last entry first, are as `T`
says, and what goes on behind the result is quiet. -/
def Tells (T : Result α → List E → Prop) : Routine τ (σ × List E) α → List E → Prop
  | .halt, _ => True
  | .settle result rest, written => T result written ∧ rest.Quiet
  | .act update next, written => ∀ state, ∃ entries : List E,
    (update state).2 = entries ++ state.2 ∧ (next state).Tells T (entries ++ written)
  | .record _ next, written => next.Tells T written
  | .moment next, written => ∀ now turn, (next now turn).Tells T written
  | .wait _ _ next, written => next.Tells T written

variable {T : Result α → List E → Prop} {routine : Routine τ (σ × List E) α} {written : List E}

theorem Tells.mono {T' : Result α → List E → Prop} (h : routine.Tells T written)
    (hT : ∀ result written, T result written → T' result written) : routine.Tells T' written := by
  induction routine generalizing written with
  | halt => trivial
  | settle result rest ih => exact ⟨hT result written h.1, h.2⟩
  | act update next ih =>
      intro state
      obtain ⟨entries, hentries, hnext⟩ := h state
      exact ⟨entries, hentries, ih state hnext⟩
  | record entry next ih => exact ih h
  | moment next ih => exact fun now turn => ih now turn (h now turn)
  | wait due abandon next ih => exact ih h

/-! ### One routine after another -/

theorem tells_ofResult {result : Result α} (h : T result written) :
    (ofResult result : Routine τ (σ × List E) α).Tells T written := ⟨h, trivial⟩

theorem tells_mapResult {T : Result β → List E → Prop} {f : Result α → Result β}
    (h : routine.Tells (fun result => T (f result)) written) :
    (routine.mapResult f).Tells T written := by
  have hquiet (rest : Routine τ (σ × List E) α) (hrest : rest.Quiet) : (rest.mapResult f).Quiet := by
    induction rest with
    | halt => trivial
    | settle result rest ih => exact ih hrest
    | act update next ih => exact fun state => ⟨(hrest state).1, ih state (hrest state).2⟩
    | record entry next ih => exact ih hrest
    | moment next ih => exact fun now turn => ih now turn (hrest now turn)
    | wait due abandon next ih => exact ih hrest
  induction routine generalizing written with
  | halt => trivial
  | settle result rest ih => exact ⟨h.1, hquiet rest h.2⟩
  | act update next ih =>
      intro state
      obtain ⟨entries, hentries, hnext⟩ := h state
      exact ⟨entries, hentries, ih state hnext⟩
  | record entry next ih => exact ih h
  | moment next ih => exact fun now turn => ih now turn (h now turn)
  | wait due abandon next ih => exact ih h

theorem quiet_silence (h : routine.Quiet) : (routine.silence : Routine τ (σ × List E) β).Quiet := by
  induction routine with
  | halt => trivial
  | settle result rest ih => exact ih h
  | act update next ih => exact fun state => ⟨(h state).1, ih state (h state).2⟩
  | record entry next ih => exact ih h
  | moment next ih => exact fun now turn => ih now turn (h now turn)
  | wait due abandon next ih => exact ih h

theorem quiet_onlyRight {routine : Routine τ (σ × List E) (α ⊕ β)} (h : routine.Quiet) :
    routine.onlyRight.Quiet := by
  induction routine with
  | halt => trivial
  | settle result rest ih =>
      match result with
      | .ok (.inl _) => exact ih h
      | .ok (.inr _) => exact ih h
      | .error _ => exact ih h
  | act update next ih => exact fun state => ⟨(h state).1, ih state (h state).2⟩
  | record entry next ih => exact ih h
  | moment next ih => exact fun now turn => ih now turn (h now turn)
  | wait due abandon next ih => exact ih h

section

variable [Clock τ]

theorem quiet_merge {right : Routine τ (σ × List E) β} (hleft : routine.Quiet)
    (hright : right.Quiet) : (merge routine right).Quiet := by
  induction routine generalizing right with
  | halt =>
      induction right with
      | halt => trivial
      | settle result rest ih => exact ih hright
      | act update next ih => exact fun state => ⟨(hright state).1, ih state (hright state).2⟩
      | record entry next ih => exact ih hright
      | moment next ih => exact fun now turn => ih now turn (hright now turn)
      | wait due abandon next ih => exact ih hright
  | settle result rest ih => exact ih hleft hright
  | act update next ih => exact fun state => ⟨(hleft state).1, ih state (hleft state).2 hright⟩
  | record entry next ih => exact ih hleft hright
  | moment next ih => exact fun now turn => ih now turn (hleft now turn) hright
  | wait due abandon next ihLeft =>
      induction right with
      | halt => exact ihLeft hleft trivial
      | settle result rest ih => exact ih hright
      | act update next ih => exact fun state => ⟨(hright state).1, ih state (hright state).2⟩
      | record entry next ih => exact ih hright
      | moment next ih => exact fun now turn => ih now turn (hright now turn)
      | wait due' abandon' next ih =>
          refine fun state => ⟨rfl, ?_⟩
          dsimp only
          split
          · split
            · exact ih hright
            · exact ihLeft hleft hright
          · exact ihLeft hleft hright
          · exact ih hright

unseal Settles in
/-- Beside quiet work without a result of its own, a routine tells what it tells alone. -/
theorem tells_onlyRight_merge {background : Routine τ (σ × List E) Empty}
    (hquiet : background.Quiet) (hsilent : background.Silent) (h : routine.Tells T written) :
    (merge background routine).onlyRight.Tells T written := by
  induction background generalizing routine written with
  | halt =>
      induction routine generalizing written with
      | halt => trivial
      | settle result rest ih =>
          have hrest := quiet_onlyRight (quiet_merge hquiet h.2)
          cases result <;> exact ⟨h.1, hrest⟩
      | act update next ih =>
          intro state
          obtain ⟨entries, hentries, hnext⟩ := h state
          exact ⟨entries, hentries, ih state hnext⟩
      | record entry next ih => exact ih h
      | moment next ih => exact fun now turn => ih now turn (h now turn)
      | wait due abandon next ih => exact ih h
  | settle result rest ih => exact hsilent.1.elim
  | act update next ih =>
      exact fun state => ⟨[], (hquiet state).1, ih state (hquiet state).2 (hsilent state) h⟩
  | record entry next ih => exact ih hquiet hsilent h
  | moment next ih => exact fun now turn => ih now turn (hquiet now turn) (hsilent now turn) h
  | wait due abandon next ihBackground =>
      -- The background stays as it is while the routine goes on, so this is an induction inside.
      induction routine generalizing written with
      | halt => exact ihBackground hquiet hsilent h
      | settle result rest ih =>
          have hwaits : (Routine.wait due abandon next).Quiet := hquiet
          have hrest := quiet_onlyRight (quiet_merge hwaits h.2)
          cases result <;> exact ⟨h.1, hrest⟩
      | act update next ih =>
          intro state
          obtain ⟨entries, hentries, hnext⟩ := h state
          exact ⟨entries, hentries, ih state hnext⟩
      | record entry next ih => exact ih h
      | moment next ih => exact fun now turn => ih now turn (h now turn)
      | wait due' abandon' next ih =>
          refine fun state => ⟨[], rfl, ?_⟩
          dsimp only
          split
          · split
            · exact ih h
            · exact ihBackground hquiet hsilent h
          · exact ihBackground hquiet hsilent h
          · exact ih h

theorem tells_beside {background : Routine τ (σ × List E) Empty} (hquiet : background.Quiet)
    (hsilent : background.Silent) (h : routine.Tells T written) :
    (beside background routine).Tells T written := by
  cases background with
  | halt => exact h
  | _ => exact tells_onlyRight_merge hquiet hsilent h

theorem tells_bind {T' : Result β → List E → Prop} {f : α → Routine τ (σ × List E) β}
    (h : routine.Tells T written)
    (hvalue : ∀ value written, T (.ok value) written → (f value).Tells T' written)
    (hfailure : ∀ failure written, T (.error failure) written → T' (.error failure) written) :
    (routine.bind f).Tells T' written := by
  induction routine generalizing written with
  | halt => trivial
  | settle result rest ih =>
      cases result with
      | ok value =>
          exact tells_beside (quiet_silence h.2) (silent_silence rest) (hvalue value written h.1)
      | error failure => exact ⟨hfailure failure written h.1, quiet_silence h.2⟩
  | act update next ih =>
      intro state
      obtain ⟨entries, hentries, hnext⟩ := h state
      exact ⟨entries, hentries, ih state hnext⟩
  | record entry next ih => exact ih h
  | moment next ih => exact fun now turn => ih now turn (h now turn)
  | wait due abandon next ih => exact ih h

theorem tells_note_bind {entry : Journal.Record} {f : Unit → Routine τ (σ × List E) α}
    (h : (f ()).Tells T written) : ((note entry).bind f).Tells T written := h

theorem tells_rescue {T' : Result α → List E → Prop} {handle : Failure → Routine τ (σ × List E) α}
    (h : routine.Tells T written)
    (hvalue : ∀ value written, T (.ok value) written → T' (.ok value) written)
    (hhandle : ∀ failure written, T (.error failure) written → (handle failure).Tells T' written) :
    (routine.rescue handle).Tells T' written := by
  have hattempt : routine.attempt.Tells
      (fun attempted written => ∃ result, attempted = .ok result ∧ T result written) written :=
    tells_mapResult (h.mono fun result _ hresult => ⟨result, rfl, hresult⟩)
  refine tells_bind hattempt ?_ ?_
  · rintro result written ⟨_, ⟨⟩, hresult⟩
    cases result with
    | ok value => exact tells_ofResult (hvalue value written hresult)
    | error failure => exact hhandle failure written hresult
  · rintro failure written ⟨_, ⟨⟩, -⟩

end

/-! ### Observed routines -/

theorem quiet_lift (routine : Routine τ σ α) : (routine.lift : Routine τ (σ × List E) α).Quiet := by
  induction routine with
  | halt => trivial
  | settle result rest ih => exact ih
  | act update next ih => exact fun state => ⟨rfl, ih state.1⟩
  | record entry next ih => exact ih
  | moment next ih => exact ih
  | wait due abandon next ih => exact ih

unseal Settles in
/-- An observed routine has written its start and its result. -/
theorem tells_observed {P : Result α → Prop} {routine : Routine τ σ α} (h : routine.Settles P)
    (start : List E) (tell : Result α → List E) (written : List E) :
    (routine.observed start tell).Tells
      (fun result all => P result ∧ all = tell result ++ (start ++ written)) written := by
  refine fun _ => ⟨start, rfl, ?_⟩
  generalize start ++ written = before
  induction routine with
  | halt => trivial
  | settle result rest ih => exact fun _ => ⟨tell result, rfl, ⟨h.1, rfl⟩, quiet_lift _⟩
  | act update next ih => exact fun state => ⟨[], rfl, ih state.1 (h state.1)⟩
  | record entry next ih => exact ih h
  | moment next ih => exact fun now turn => ih now turn (h now turn)
  | wait due abandon next ih => exact ih h

unseal Live in
theorem live_observed {routine : Routine τ σ α} (h : routine.Live) (start : List E)
    (tell : Result α → List E) : (routine.observed start tell).Live := by
  intro _
  induction routine with
  | halt => exact h
  | settle result rest ih => exact fun _ => trivial
  | act update next ih => exact fun state => ih state.1 (h state.1)
  | record entry next ih => exact ih h
  | moment next ih => exact fun now turn => ih now turn (h now turn)
  | wait due abandon next ih => exact ⟨fun state => h.1 state.1, ih h.2⟩

/-! ### Runs -/

variable [Clock τ] {log : List E} {progress : Progress τ (σ × List E)}

theorem run_tells (h : routine.Tells T written) (hlog : progress.state.2 = written ++ log)
    {result : Result α} (hresult : (run progress routine).result = some result) :
    ∃ all, T result all ∧ (run progress routine).final.state.2 = all ++ log := by
  induction routine generalizing written progress with
  | halt => cases hresult
  | settle settled rest ih =>
      cases hresult
      exact ⟨written, h.1, hlog⟩
  | act update next ih =>
      obtain ⟨entries, hentries, hnext⟩ := h progress.state
      refine ih progress.state hnext ?_ hresult
      rw [hentries, hlog, List.append_assoc]
  | record entry next ih =>
      exact @ih _ { progress with journal := entry :: progress.journal } h hlog hresult
  | moment next ih =>
      exact @ih progress.now progress.turn _ { progress with turn := progress.turn + 1 } (h _ _) hlog
        hresult
  | wait due abandon next ih =>
      cases hdue : due progress.state with
      | none =>
          rw [run, hdue] at hresult
          cases hresult
      | some turn =>
          rw [run, hdue] at hresult ⊢
          exact @ih _ { progress with now := later progress.now turn.1 } h hlog hresult

theorem Prompt.run_log {result : Result α} (h : Prompt result routine)
    (progress : Progress τ (σ × List E)) :
    (routine.run progress).final.state.2 = progress.state.2 := by
  induction h generalizing progress with
  | settle => rfl
  | record _ ih => exact ih _

/-- Quiet work in the background goes on until it waits, and leaves the log as it is. -/
theorem run_log_beside {result : Result α} (h : Prompt result routine)
    {rest : Routine τ (σ × List E) β} (hrest : rest.Quiet) (progress : Progress τ (σ × List E)) :
    (run progress (beside rest.silence routine)).final.state.2 = progress.state.2 := by
  have hmerge : (run progress
      (merge (rest.silence : Routine τ (σ × List E) Empty) routine).onlyRight).final.state.2 =
        progress.state.2 := by
    induction rest generalizing progress with
    | halt => exact h.map_inr.run_log progress
    | settle _ rest ih => exact ih hrest progress
    | act update next ih =>
        obtain ⟨hupdate, hnext⟩ := hrest progress.state
        exact (ih progress.state hnext _).trans hupdate
    | record entry next ih => exact ih hrest _
    | moment next ih => exact ih progress.now progress.turn (hrest _ _) _
    | wait due abandon next ih => exact h.mergeWaiting.run_log progress
  cases hsilence : (rest.silence : Routine τ (σ × List E) Empty) with
  | halt => exact h.run_log progress
  | _ =>
      rw [hsilence] at hmerge
      exact hmerge

/-- What is done at once with the value of a routine leaves the log as it is. -/
theorem run_log_bind_prompt {f : α → Routine τ (σ × List E) β} {g : α → Result β}
    (hf : ∀ value, Prompt (g value) (f value)) (h : routine.Tells T written)
    (progress : Progress τ (σ × List E)) :
    (run progress (routine.bind f)).final.state.2 = (run progress routine).final.state.2 := by
  induction routine generalizing written progress with
  | halt => rfl
  | settle result rest ih =>
      cases result with
      | ok value => exact run_log_beside (hf value) h.2 progress
      | error failure => rfl
  | act update next ih =>
      obtain ⟨entries, -, hnext⟩ := h progress.state
      exact ih progress.state hnext _
  | record entry next ih => exact ih h _
  | moment next ih => exact ih progress.now progress.turn (h _ _) _
  | wait due abandon next ih =>
      unfold bind run
      cases due progress.state with
      | none => rfl
      | some found => exact ih h _

theorem run_mapResult (f : Result α → Result β) (routine : Routine τ σ α)
    (progress : Progress τ σ) : run progress (routine.mapResult f) =
      ⟨(run progress routine).result.map f, (run progress routine).final⟩ := by
  induction routine generalizing progress with
  | halt => rfl
  | settle result rest ih => rfl
  | act update next ih => exact ih progress.state _
  | record entry next ih => exact ih _
  | moment next ih => exact ih progress.now progress.turn _
  | wait due abandon next ih =>
      unfold mapResult run
      cases due progress.state with
      | none => rfl
      | some found => exact ih _

/-- A failure that is handled at once changes the result alone. -/
theorem run_rescue_prompt {handle : Failure → Routine τ (σ × List E) α}
    {fallback : Failure → Result α} (h : routine.Tells T written)
    (hhandle : ∀ failure, Prompt (fallback failure) (handle failure))
    (progress : Progress τ (σ × List E)) :
    (run progress (routine.rescue handle)).result =
        (run progress routine).result.map (fun result => result.tryCatch fallback) ∧
      (run progress (routine.rescue handle)).final.state.2 =
        (run progress routine).final.state.2 := by
  have hattempt := run_mapResult .ok routine progress
  have htells : routine.attempt.Tells (fun _ _ => True) written :=
    tells_mapResult (h.mono fun _ _ _ => trivial)
  let caught (result : Result α) : Result α := result.tryCatch fallback
  refine ⟨(run_bind_prompt (g := caught) ?handled routine.attempt progress).trans ?_,
    (run_log_bind_prompt (g := caught) ?handled htells progress).trans ?_⟩
  case handled =>
    intro result
    cases result with
    | ok value => exact .settle
    | error failure => exact hhandle failure
  · rw [attempt, hattempt, Option.map_map]
    rfl
  · rw [attempt, hattempt]

end ProgramAudit.Routine
