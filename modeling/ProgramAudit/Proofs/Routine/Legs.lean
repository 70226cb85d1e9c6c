import ProgramAudit.Proofs.Routine.Shares

/-!
Routines under a clock of their own. Between two waits a routine goes on without a break; what it
waits for may be due long before it goes on.
-/

namespace ProgramAudit.Routine

variable {τ σ α β γ : Type} [Clock τ]

/-- The routine waits, or there is nothing left of it to do. -/
def Standing : Routine τ σ α → Prop
  | .halt => True
  | .settle _ _ => True
  | .wait _ _ _ => True
  | _ => False

/-- What a routine comes to from where it stands, at one moment and while nobody else goes on. -/
inductive Reaches : Progress τ σ → Routine τ σ α → Progress τ σ → Routine τ σ α → Prop where
  | refl (progress : Progress τ σ) (routine : Routine τ σ α) :
    Reaches progress routine progress routine
  | act {progress progress' : Progress τ σ} {update : σ → σ} {next : σ → Routine τ σ α}
    {routine : Routine τ σ α}
    (hnext : Reaches { progress with state := update progress.state } (next progress.state)
      progress' routine) : Reaches progress (.act update next) progress' routine
  | record {progress progress' : Progress τ σ} {entry : Journal.Record} {next : Routine τ σ α}
    {routine : Routine τ σ α}
    (hnext : Reaches { progress with journal := entry :: progress.journal } next progress' routine) :
    Reaches progress (.record entry next) progress' routine
  | moment {progress progress' : Progress τ σ} {next : τ → Nat → Routine τ σ α}
    {routine : Routine τ σ α}
    (hnext : Reaches { progress with turn := progress.turn + 1 } (next progress.now progress.turn)
      progress' routine) : Reaches progress (.moment next) progress' routine
  | wait {progress progress' : Progress τ σ} {due : σ → Option (Turn τ)} {abandon : τ → Nat → σ → σ}
    {next routine : Routine τ σ α} {found : Turn τ} (hdue : due progress.state = some found)
    (hnow : Clock.notAfter found.1 progress.now = true)
    (hnext : Reaches progress next progress' routine) :
    Reaches progress (.wait due abandon next) progress' routine

variable {progress progress' : Progress τ σ} {routine routine' : Routine τ σ α}

namespace Reaches

theorem spares {view : σ → γ} (h : Reaches progress routine progress' routine')
    (hspares : Spares view routine) :
    Spares view routine' ∧ view progress'.state = view progress.state := by
  induction h with
  | refl progress routine => exact ⟨hspares, rfl⟩
  | act hnext ih =>
      obtain ⟨hrest, hview⟩ := ih (hspares.2 _)
      exact ⟨hrest, hview.trans (hspares.1 _)⟩
  | record hnext ih => exact ih hspares
  | moment hnext ih => exact ih (hspares _ _)
  | wait hdue hnow hnext ih => exact ih hspares.2

variable {G : Type} [AddCommMonoid G] {agreement : Agreement τ σ G} {terms : Terms α G}
  {others : G}

theorem keeps (h : Reaches progress routine progress' routine')
    (hkeeps : Keeps agreement terms routine progress.now progress.turn progress.state others) :
    Keeps agreement terms routine' progress'.now progress'.turn progress'.state others := by
  induction h with
  | refl progress routine => exact hkeeps
  | act hnext ih => exact ih hkeeps
  | record hnext ih => exact ih hkeeps
  | moment hnext ih => exact ih hkeeps
  | @wait progress _ due _ _ _ found hdue hnow hnext ih =>
      obtain ⟨own, -, hholds, hwait⟩ := hkeeps
      obtain ⟨-, hgoes⟩ := hwait _ _ _ _ hholds
      rw [hdue] at hgoes
      exact ih (hgoes progress.now (agreement.pace.refl _) (agreement.pace.of_notAfter hnow))

/-- A routine that leaves alone what an agreement is about goes on beside any shares. -/
theorem holds {view : σ → γ} {total : G}
    (hview : ∀ total now turn state state', view state' = view state →
      agreement.holds total now turn state → agreement.holds total now turn state')
    (h : Reaches progress routine progress' routine') (hspares : Spares view routine)
    (hholds : agreement.holds total progress.now progress.turn progress.state) :
    agreement.holds total progress'.now progress'.turn progress'.state := by
  induction h with
  | refl progress routine => exact hholds
  | act hnext ih => exact ih (hspares.2 _) (hview _ _ _ _ _ (hspares.1 _) hholds)
  | record hnext ih => exact ih hspares hholds
  | moment hnext ih => exact ih (hspares _ _) (agreement.holds_turn hholds)
  | wait hdue hnow hnext ih => exact ih hspares.2 hholds

end Reaches

/-! ### Frames -/

/-- What is built around a routine goes through the steps of the routine. -/
structure Frame (frame : Routine τ σ α → Routine τ σ β) : Prop where
  halt : frame .halt = .halt
  act (update : σ → σ) (next : σ → Routine τ σ α) :
    frame (.act update next) = .act update fun state => frame (next state)
  record (entry : Journal.Record) (next : Routine τ σ α) :
    frame (.record entry next) = .record entry (frame next)
  moment (next : τ → Nat → Routine τ σ α) :
    frame (.moment next) = .moment fun now turn => frame (next now turn)
  wait (due : σ → Option (Turn τ)) (abandon : τ → Nat → σ → σ) (next : Routine τ σ α) :
    ∃ abandon', frame (.wait due abandon next) = .wait due abandon' (frame next)

namespace Frame

variable {frame : Routine τ σ α → Routine τ σ β}

theorem bind (f : α → Routine τ σ β) : Frame (Routine.bind f) where
  halt := rfl
  act _ _ := rfl
  record _ _ := rfl
  moment _ := rfl
  wait _ abandon _ := ⟨abandon, rfl⟩

omit [Clock τ] in
theorem releasing (release : τ → Nat → σ → σ) :
    Frame (Routine.releasing release : Routine τ σ α → Routine τ σ α) where
  halt := rfl
  act _ _ := rfl
  record _ _ := rfl
  moment _ := rfl
  wait _ _ _ := ⟨_, rfl⟩

omit [Clock τ] in
theorem comp {outer : Routine τ σ β → Routine τ σ γ} (houter : Frame outer) (hframe : Frame frame) :
    Frame fun routine => outer (frame routine) where
  halt := by rw [hframe.halt, houter.halt]
  act update next := by rw [hframe.act, houter.act]
  record entry next := by rw [hframe.record, houter.record]
  moment next := by rw [hframe.moment, houter.moment]
  wait due abandon next := by
    obtain ⟨abandon', hinner⟩ := hframe.wait due abandon next
    obtain ⟨abandon'', hwhole⟩ := houter.wait due abandon' (frame next)
    exact ⟨abandon'', by rw [hinner, hwhole]⟩

theorem reaches (hframe : Frame frame) (h : Reaches progress routine progress' routine') :
    Reaches progress (frame routine) progress' (frame routine') := by
  induction h with
  | refl progress routine => exact .refl progress _
  | act hnext ih =>
      rw [hframe.act]
      exact .act ih
  | record hnext ih =>
      rw [hframe.record]
      exact .record ih
  | moment hnext ih =>
      rw [hframe.moment]
      exact .moment ih
  | @wait _ _ due abandon next _ _ hdue hnow hnext ih =>
      obtain ⟨abandon', hwait⟩ := hframe.wait due abandon next
      rw [hwait]
      exact .wait hdue hnow ih

/-- What a frame comes to where it stands: the routine in it still stands, or it has settled and the
frame has gone on from there. -/
theorem reaches_inv (hframe : Frame frame) {routine : Routine τ σ α} {routine' : Routine τ σ β}
    (h : Reaches progress (frame routine) progress' routine') (hstanding : routine'.Standing) :
    (∃ rest, Reaches progress routine progress' rest ∧ rest.Standing ∧ routine' = frame rest) ∨
      ∃ between result done, Reaches progress routine between (.settle result done) ∧
        Reaches between (frame (.settle result done)) progress' routine' := by
  induction routine generalizing progress with
  | halt =>
      rw [hframe.halt] at h
      cases h
      exact .inl ⟨.halt, .refl _ _, trivial, hframe.halt.symm⟩
  | settle result done ih => exact .inr ⟨progress, result, done, .refl _ _, h⟩
  | act update next ih =>
      rw [hframe.act] at h
      cases h with
      | refl => exact hstanding.elim
      | act hnext =>
          obtain ⟨rest, hreaches, hrest⟩ | ⟨between, result, done, hreaches, hrest⟩ := ih _ hnext
          · exact .inl ⟨rest, .act hreaches, hrest⟩
          · exact .inr ⟨between, result, done, .act hreaches, hrest⟩
  | record entry next ih =>
      rw [hframe.record] at h
      cases h with
      | refl => exact hstanding.elim
      | record hnext =>
          obtain ⟨rest, hreaches, hrest⟩ | ⟨between, result, done, hreaches, hrest⟩ := ih hnext
          · exact .inl ⟨rest, .record hreaches, hrest⟩
          · exact .inr ⟨between, result, done, .record hreaches, hrest⟩
  | moment next ih =>
      rw [hframe.moment] at h
      cases h with
      | refl => exact hstanding.elim
      | moment hnext =>
          obtain ⟨rest, hreaches, hrest⟩ | ⟨between, result, done, hreaches, hrest⟩ := ih _ _ hnext
          · exact .inl ⟨rest, .moment hreaches, hrest⟩
          · exact .inr ⟨between, result, done, .moment hreaches, hrest⟩
  | wait due abandon next ih =>
      obtain ⟨abandon', hwait⟩ := hframe.wait due abandon next
      rw [hwait] at h
      cases h with
      | refl => exact .inl ⟨.wait due abandon next, .refl _ _, trivial, hwait.symm⟩
      | wait hdue hnow hnext =>
          obtain ⟨rest, hreaches, hrest⟩ | ⟨between, result, done, hreaches, hrest⟩ := ih hnext
          · exact .inl ⟨rest, .wait hdue hnow hreaches, hrest⟩
          · exact .inr ⟨between, result, done, .wait hdue hnow hreaches, hrest⟩

omit [Clock τ] in
/-- A frame waits only where the routine in it waits or has settled. -/
theorem eq_wait (hframe : Frame frame) {routine : Routine τ σ α} {due : σ → Option (Turn τ)}
    {abandon : τ → Nat → σ → σ} {rest : Routine τ σ β}
    (h : frame routine = .wait due abandon rest) :
    (∃ abandon' next, routine = .wait due abandon' next) ∨
      ∃ result done, routine = .settle result done := by
  cases routine with
  | halt =>
      rw [hframe.halt] at h
      cases h
  | settle result done => exact .inr ⟨result, done, rfl⟩
  | act update next =>
      rw [hframe.act] at h
      cases h
  | record entry next =>
      rw [hframe.record] at h
      cases h
  | moment next =>
      rw [hframe.moment] at h
      cases h
  | wait due' abandon' next =>
      obtain ⟨abandon'', hwait⟩ := hframe.wait due' abandon' next
      rw [hwait] at h
      cases h
      exact .inl ⟨abandon', next, rfl⟩

end Frame

/-- The share with which a routine waits, or has settled. -/
theorem Keeps.standing {G : Type} [AddCommMonoid G] {agreement : Agreement τ σ G}
    {terms : Terms α G} {now : τ} {turn : Nat} {state : σ} {others : G}
    (h : Keeps agreement terms routine now turn state others) (hstanding : routine.Standing) :
    ∃ own, agreement.holds (own + others) now turn state ∧ Stands agreement terms own routine ∧
      ((∃ result, routine = .settle result .halt ∧ terms.settled result own) ∨
        (∃ due abandon next, routine = .wait due abandon next) ∧ terms.during own) := by
  cases routine with
  | halt => exact h.elim
  | settle result rest =>
      obtain ⟨rfl, own, hown, hholds⟩ := h
      exact ⟨own, hholds, stands_ofResult hown, .inl ⟨result, rfl, hown⟩⟩
  | act update next => exact hstanding.elim
  | record entry next => exact hstanding.elim
  | moment next => exact hstanding.elim
  | wait due abandon next =>
      obtain ⟨own, hown, hholds, hwait⟩ := h
      exact ⟨own, hholds, fun _ _ _ _ hholds => ⟨own, hown, hholds, hwait⟩,
        .inr ⟨⟨due, abandon, next, rfl⟩, hown⟩⟩

end ProgramAudit.Routine
