import ProgramAudit.Proofs.Number.DoubleOrder
import ProgramAudit.Proofs.Routine.Logs
import ProgramAudit.Proofs.Routine.Shares
import ProgramAudit.Routine.Part

/-!
Routines on their own, from their start to their end. A routine that nobody interferes with takes the
clock and the state from where they stand to where it leaves them, and what follows it starts there.
-/

namespace ProgramAudit

namespace Routine

variable {τ σ E γ α β : Type} [Clock τ]

/-- On its own the routine goes from one progress to another one, settles there with the result, and
leaves nothing to do behind. -/
inductive Finishes : Progress τ σ → Routine τ σ α → Result α → Progress τ σ → Prop where
  | settle {progress : Progress τ σ} {result : Result α} :
    Finishes progress (.settle result .halt) result progress
  | act {progress final : Progress τ σ} {update : σ → σ} {next : σ → Routine τ σ α}
    {result : Result α}
    (hnext : Finishes { progress with state := update progress.state } (next progress.state) result
      final) : Finishes progress (.act update next) result final
  | record {progress final : Progress τ σ} {entry : Journal.Record} {next : Routine τ σ α}
    {result : Result α}
    (hnext : Finishes { progress with journal := entry :: progress.journal } next result final) :
    Finishes progress (.record entry next) result final
  | moment {progress final : Progress τ σ} {next : τ → Nat → Routine τ σ α} {result : Result α}
    (hnext : Finishes { progress with turn := progress.turn + 1 } (next progress.now progress.turn)
      result final) : Finishes progress (.moment next) result final
  | wait {progress final : Progress τ σ} {due : σ → Option (Turn τ)} {abandon : τ → Nat → σ → σ}
    {next : Routine τ σ α} {found : Turn τ} {result : Result α} (hdue : due progress.state = some found)
    (hnext : Finishes { progress with now := later progress.now found.1 } next result final) :
    Finishes progress (.wait due abandon next) result final

variable {progress between final : Progress τ σ} {routine : Routine τ σ α} {result : Result α}

theorem Finishes.run (h : Finishes progress routine result final) :
    routine.run progress = ⟨some result, final⟩ := by
  induction h with
  | settle => rfl
  | act hnext ih => exact ih
  | record hnext ih => exact ih
  | moment hnext ih => exact ih
  | wait hdue hnext ih =>
      rw [Routine.run, hdue]
      exact ih

/-! ### One routine after another -/

theorem Finishes.bind {f : α → Routine τ σ β} {value : α} {result : Result β}
    (h : Finishes progress routine (.ok value) between)
    (hf : Finishes between (f value) result final) :
    Finishes progress (routine.bind f) result final := by
  generalize hvalue : (.ok value : Result α) = found at h
  induction h with
  | settle =>
      subst hvalue
      exact hf
  | act hnext ih => exact .act (ih hf hvalue)
  | record hnext ih => exact .record (ih hf hvalue)
  | moment hnext ih => exact .moment (ih hf hvalue)
  | wait hdue hnext ih => exact .wait hdue (ih hf hvalue)

theorem Finishes.bind_error {f : α → Routine τ σ β} {failure : Failure}
    (h : Finishes progress routine (.error failure) final) :
    Finishes progress (routine.bind f) (.error failure) final := by
  generalize hfailure : (.error failure : Result α) = found at h
  induction h with
  | settle =>
      subst hfailure
      exact .settle
  | act hnext ih => exact .act (ih hfailure)
  | record hnext ih => exact .record (ih hfailure)
  | moment hnext ih => exact .moment (ih hfailure)
  | wait hdue hnext ih => exact .wait hdue (ih hfailure)

theorem Finishes.mapResult (f : Result α → Result β)
    (h : Finishes progress routine result final) :
    Finishes progress (routine.mapResult f) (f result) final := by
  induction h with
  | settle => exact .settle
  | act hnext ih => exact .act ih
  | record hnext ih => exact .record ih
  | moment hnext ih => exact .moment ih
  | wait hdue hnext ih => exact .wait hdue ih

theorem Finishes.rescue {handle : Failure → Routine τ σ α} {failure : Failure}
    (h : Finishes progress routine (.error failure) between)
    (hhandle : Finishes between (handle failure) result final) :
    Finishes progress (routine.rescue handle) result final :=
  (h.mapResult .ok).bind hhandle

theorem Finishes.rescue_ok {handle : Failure → Routine τ σ α} {value : α}
    (h : Finishes progress routine (.ok value) final) :
    Finishes progress (routine.rescue handle) (.ok value) final :=
  (h.mapResult .ok).bind .settle

/-- What a routine releases when it settles. -/
theorem Finishes.releasing (release : τ → Nat → σ → σ)
    (h : Finishes progress routine result final) :
    Finishes progress (routine.releasing release) result
      { final with turn := final.turn + 1, state := release final.now final.turn final.state } := by
  induction h with
  | settle => exact .moment (.act .settle)
  | act hnext ih => exact .act ih
  | record hnext ih => exact .record ih
  | moment hnext ih => exact .moment ih
  | wait hdue hnext ih => exact .wait hdue ih

theorem finishes_ofResult (result : Result α) (progress : Progress τ σ) :
    Finishes progress (ofResult result) result progress := .settle

theorem Finishes.note_bind {entry : Journal.Record} {f : Unit → Routine τ σ α}
    (h : Finishes { progress with journal := entry :: progress.journal } (f ()) result final) :
    Finishes progress ((note entry).bind f) result final := .record h

theorem Finishes.now_bind {f : τ → Routine τ σ α}
    (h : Finishes { progress with turn := progress.turn + 1 } (f progress.now) result final) :
    Finishes progress (now.bind f) result final := .moment h

theorem Finishes.step_bind {part : Part σ γ} {update : γ → β × γ} {f : β → Routine τ σ α}
    (h : Finishes { progress with
        state := part.modify (fun value => (update value).2) progress.state }
      (f (update (part.get progress.state)).1) result final) :
    Finishes progress ((part.step update).bind f) result final := .act h

theorem Finishes.read_bind {part : Part σ γ} {f : γ → Routine τ σ α}
    (h : Finishes progress (f (part.get progress.state)) result final) :
    Finishes progress (part.read.bind f) result final := .act h

/-! ### Routines that wait for nobody -/

/-- A routine that waits for nobody finishes, and the view that it spares shows what it showed. -/
theorem finishes_of_delivers {view : σ → γ} {P : Result α → Prop} (hdelivers : Delivers P routine)
    (hspares : Spares view routine) (progress : Progress τ σ) : ∃ result final,
      P result ∧ Finishes progress routine result final ∧ view final.state = view progress.state := by
  induction routine generalizing progress with
  | halt => exact hdelivers.elim
  | settle result rest ih =>
      obtain ⟨hresult, rfl⟩ := hdelivers
      exact ⟨result, progress, hresult, .settle, rfl⟩
  | act update next ih =>
      obtain ⟨result, final, hresult, hfinishes, hview⟩ := ih progress.state (hdelivers _)
        (hspares.2 _) { progress with state := update progress.state }
      exact ⟨result, final, hresult, .act hfinishes, hview.trans (hspares.1 progress.state)⟩
  | record entry next ih =>
      obtain ⟨result, final, hresult, hfinishes, hview⟩ := ih hdelivers hspares
        { progress with journal := entry :: progress.journal }
      exact ⟨result, final, hresult, .record hfinishes, hview⟩
  | moment next ih =>
      obtain ⟨result, final, hresult, hfinishes, hview⟩ := ih progress.now progress.turn
        (hdelivers _ _) (hspares _ _) { progress with turn := progress.turn + 1 }
      exact ⟨result, final, hresult, .moment hfinishes, hview⟩
  | wait due abandon next ih =>
      obtain ⟨found, hdue⟩ := Option.isSome_iff_exists.mp (hdelivers.1 progress.state)
      obtain ⟨result, final, hresult, hfinishes, hview⟩ := ih hdelivers.2 hspares.2
        { progress with now := later progress.now found.1 }
      exact ⟨result, final, hresult, .wait hdue hfinishes, hview⟩

/-! ### Observed routines -/

/-- The progress beside a log. -/
def Progress.beside (log : List E) (progress : Progress τ σ) : Progress τ (σ × List E) :=
  { progress with state := (progress.state, log) }

theorem Finishes.observed (start : List E) (tell : Result α → List E) (log : List E)
    (h : Finishes progress routine result final) :
    Finishes (progress.beside log) (routine.observed start tell) result
      (final.beside (tell result ++ (start ++ log))) := by
  refine .act ?_
  change Finishes (progress.beside (start ++ log)) _ _ _
  generalize start ++ log = before
  induction h with
  | settle => exact .act .settle
  | act hnext ih => exact .act ih
  | record hnext ih => exact .record ih
  | moment hnext ih => exact .moment ih
  | wait hdue hnext ih => exact .wait hdue ih

/-! ### Time -/

/-- Time has gone on, or stands still. -/
def Elapsed (before after : τ) : Prop := after = before ∨ Clock.notAfter before after = true

theorem Elapsed.refl (now : τ) : Elapsed now now := .inl rfl

theorem elapsed_later (now due : τ) : Elapsed now (later now due) := by
  unfold later
  split_ifs with hdue
  · exact .inr hdue
  · exact .inl rfl

end Routine

/-- A clock whose moments come one after the other: what is past stays past. -/
class OrderedClock (τ : Type) [Clock τ] : Prop where
  trans {first second third : τ} : Clock.notAfter first second = true →
    Clock.notAfter second third = true → Clock.notAfter first third = true

instance {τ : Type} [ExactClock τ] : OrderedClock τ where
  trans hfirst hsecond :=
    decide_eq_true (le_trans (of_decide_eq_true hfirst) (of_decide_eq_true hsecond))

instance : OrderedClock Float where
  trans hfirst hsecond := decide_eq_true
    (Number.float_le_trans (of_decide_eq_true hfirst) (of_decide_eq_true hsecond))

namespace Routine

variable {τ σ α : Type} [Clock τ] [OrderedClock τ] {first second third : τ}

theorem Elapsed.past (h : Elapsed second third) (hpast : Clock.notAfter first second = true) :
    Clock.notAfter first third = true := by
  rcases h with rfl | hlater
  · exact hpast
  · exact OrderedClock.trans hpast hlater

theorem Elapsed.trans (hfirst : Elapsed first second) (hsecond : Elapsed second third) :
    Elapsed first third := by
  rcases hfirst with rfl | hlater
  · exact hsecond
  · exact .inr (hsecond.past hlater)

/-- A run does not turn back the clock. -/
theorem elapsed_run (progress : Progress τ σ) (routine : Routine τ σ α) :
    Elapsed progress.now (run progress routine).final.now := by
  induction routine generalizing progress with
  | halt => exact .refl _
  | settle result rest ih => exact .refl _
  | act update next ih => exact ih _ { progress with state := update progress.state }
  | record entry next ih => exact ih { progress with journal := entry :: progress.journal }
  | moment next ih => exact ih _ _ { progress with turn := progress.turn + 1 }
  | wait due abandon next ih =>
      rw [run]
      cases due progress.state with
      | none => exact .refl _
      | some found =>
          exact (elapsed_later _ _).trans (ih { progress with now := later progress.now found.1 })

end Routine

end ProgramAudit
