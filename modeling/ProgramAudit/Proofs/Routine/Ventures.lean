import ProgramAudit.Proofs.Routine.Shares

/-!
Routines that may fail while they share a state. Up to its result such a routine keeps the agreement.
With a value it leaves nothing behind; a failure may leave others of its part at work in the
background, and then what handles the failure is still over at once.
-/

namespace ProgramAudit.Routine

variable {τ σ G α β : Type} [Clock τ] [AddCommMonoid G] {agreement : Agreement τ σ G}

/-! ### On one's own -/

/-- A routine settles with a result as `P` says and without a share, and owes nothing until then. -/
def settling (P : Result α → Prop) : Terms α G where
  during _ := True
  left _ := True
  settled result own := P result ∧ own = 0

/-- Whoever runs beside it, the routine settles as `P` says, and leaves nothing behind. -/
def Ventures (agreement : Agreement τ σ G) (P : Result α → Prop) (routine : Routine τ σ α) : Prop :=
  Stands agreement (settling P) 0 routine

section Ventures

variable {P : Result α → Prop} {Q : Result β → Prop} {routine : Routine τ σ α}

theorem ventures_ofResult {result : Result α} (h : P result) :
    Ventures agreement P (ofResult result : Routine τ σ α) :=
  stands_ofResult ⟨h, rfl⟩

theorem Ventures.mono {P' : Result α → Prop} (h : Ventures agreement P routine)
    (hresult : ∀ result, P result → P' result) : Ventures agreement P' routine :=
  Stands.mono h (fun _ => id) (fun _ => id) fun result _ => And.imp_left (hresult result)

theorem ventures_given (result : Result α) :
    Ventures agreement (· = result) (ofResult result : Routine τ σ α) := ventures_ofResult rfl

theorem ventures_note (entry : Journal.Record) :
    Ventures agreement (· = .ok ()) (note entry : Routine τ σ Unit) := comesTo_note entry

theorem ventures_notes (entries : List Journal.Record) :
    Ventures agreement (· = .ok ()) (notes entries : Routine τ σ Unit) := comesTo_notes entries

theorem ventures_now {f : τ → Routine τ σ β} (h : ∀ now, Ventures agreement Q (f now)) :
    Ventures agreement Q (now.bind f) :=
  fun others now turn state hholds =>
    h now others now (turn + 1) state (agreement.holds_turn hholds)

theorem Ventures.mapResult {f : Result α → Result β}
    (h : Ventures agreement P routine) (hresult : ∀ result, P result → Q (f result)) :
    Ventures agreement Q (routine.mapResult f) := by
  intro others now turn state hholds
  refine keeps_mapResult ((h others now turn state hholds).mono (fun _ => id) (fun _ => id) ?_)
  exact fun result own hsettled => ⟨hresult result hsettled.1, hsettled.2⟩

theorem Ventures.bind {f : α → Routine τ σ β} (h : Ventures agreement P routine)
    (hvalue : ∀ value, P (.ok value) → Ventures agreement Q (f value))
    (hfailure : ∀ failure, P (.error failure) → Q (.error failure)) :
    Ventures agreement Q (routine.bind f) := by
  refine stands_bind h ?_ ?_
  · rintro value own ⟨hP, rfl⟩
    exact hvalue value hP
  · exact fun failure own hsettled => ⟨hfailure failure hsettled.1, hsettled.2⟩

theorem Ventures.rescue {P' : Result α → Prop} {handle : Failure → Routine τ σ α}
    (h : Ventures agreement P routine) (hvalue : ∀ value, P (.ok value) → P' (.ok value))
    (hhandle : ∀ failure, P (.error failure) → Ventures agreement P' (handle failure)) :
    Ventures agreement P' (routine.rescue handle) := by
  have hattempt : Ventures agreement (fun result => ∃ found, result = .ok found ∧ P found)
      routine.attempt := h.mapResult fun result hresult => ⟨result, rfl, hresult⟩
  refine hattempt.bind ?_ ?_
  · rintro found ⟨_, ⟨⟩, hfound⟩
    cases found with
    | ok value => exact ventures_ofResult (hvalue value hfound)
    | error failure => exact hhandle failure hfound
  · rintro failure ⟨_, ⟨⟩, -⟩

/-- A run of the routine alone settles. -/
theorem Ventures.run (h : Ventures agreement P routine) {progress : Progress τ σ}
    (hholds : agreement.holds 0 progress.now progress.turn progress.state) :
    ∃ result, (routine.run progress).result = some result ∧ P result := by
  obtain ⟨result, own, hresult, hsettled, -⟩ := run_keeps (h 0 _ _ _ (by rwa [add_zero]))
  exact ⟨result, hresult, hsettled.1⟩

end Ventures

/-! ### With others of one's own -/

/-- How a routine may be over. After a failure some share may still be in use in the background. -/
def Over (agreement : Agreement τ σ G) (P : Result α → Prop) (rest : Routine τ σ α) (now : τ)
    (turn : Nat) (state : σ) (others : G) : Result α → Prop
  | .ok value => P (.ok value) ∧ rest = .halt ∧ agreement.holds others now turn state
  | .error failure => P (.error failure) ∧ ∃ own, agreement.holds (own + others) now turn state

/-- From a state on the routine goes on as agreed until it is over, whatever the others do while it
waits. -/
def Tries (agreement : Agreement τ σ G) (P : Result α → Prop) :
    Routine τ σ α → τ → Nat → σ → G → Prop
  | .halt, _, _, _, _ => False
  | .settle result rest, now, turn, state, others => Over agreement P rest now turn state others result
  | .act update next, now, turn, state, others =>
    Tries agreement P (next state) now turn (update state) others
  | .record _ next, now, turn, state, others => Tries agreement P next now turn state others
  | .moment next, now, turn, state, others =>
    Tries agreement P (next now turn) now (turn + 1) state others
  | .wait due _ next, now, turn, state, others =>
    ∃ own, agreement.holds (own + others) now turn state ∧
      ∀ others now turn state, agreement.holds (own + others) now turn state →
        WhenDue agreement own state now
          (fun time => Tries agreement P next time turn state others) (due state)

/-- With a share of its own the routine goes on as agreed from every state. -/
def Undertakes (agreement : Agreement τ σ G) (P : Result α → Prop) (own : G)
    (routine : Routine τ σ α) : Prop :=
  ∀ others now turn state, agreement.holds (own + others) now turn state →
    Tries agreement P routine now turn state others

variable {P : Result α → Prop} {Q : Result β → Prop} {routine : Routine τ σ α} {own others : G}
  {now : τ} {turn : Nat} {state : σ}

theorem Tries.wait {next : Routine τ σ β} {due : σ → Option (Turn τ)}
    {abandon abandon' : τ → Nat → σ → σ}
    (h : Tries agreement P (.wait due abandon routine) now turn state others)
    (hnext : ∀ now turn state others, Tries agreement P routine now turn state others →
      Tries agreement Q next now turn state others) :
    Tries agreement Q (.wait due abandon' next) now turn state others := by
  obtain ⟨own, hholds, hwait⟩ := h
  exact ⟨own, hholds, fun others now turn state hnow =>
    (hwait others now turn state hnow).mono fun time => hnext time turn state others⟩

theorem tries_of_keeps (h : Keeps agreement (settling P) routine now turn state others) :
    Tries agreement P routine now turn state others := by
  induction routine generalizing now turn state others with
  | halt => exact h
  | settle result rest ih =>
      obtain ⟨rfl, own, ⟨hresult, rfl⟩, hholds⟩ := h
      cases result with
      | ok value => exact ⟨hresult, rfl, by rwa [zero_add] at hholds⟩
      | error failure => exact ⟨hresult, 0, hholds⟩
  | act update next ih => exact ih state h
  | record entry next ih => exact ih h
  | moment next ih => exact ih now turn h
  | wait due abandon next ih =>
      obtain ⟨own, -, hholds, hwait⟩ := h
      exact ⟨own, hholds, fun others now turn state hnow =>
        (hwait others now turn state hnow).2.mono fun time => ih⟩

theorem Ventures.undertakes (h : Ventures agreement P routine) : Undertakes agreement P 0 routine :=
  fun others now turn state hholds => tries_of_keeps (h others now turn state hholds)

theorem undertakes_succeed {value : α} (h : P (.ok value)) :
    Undertakes agreement P 0 (succeed value : Routine τ σ α) :=
  (ventures_ofResult h).undertakes

theorem tries_map {f : α → β} (hvalue : ∀ value, P (.ok value) → Q (.ok (f value)))
    (hfailure : ∀ failure, P (.error failure) → Q (.error failure))
    (h : Tries agreement P routine now turn state others) :
    Tries agreement Q (routine.map f) now turn state others := by
  induction routine generalizing now turn state others with
  | halt => exact h
  | settle result rest ih =>
      cases result with
      | ok value =>
          obtain ⟨hresult, rfl, hholds⟩ := h
          exact ⟨hvalue value hresult, rfl, hholds⟩
      | error failure => exact ⟨hfailure failure h.1, h.2⟩
  | act update next ih => exact ih state h
  | record entry next ih => exact ih h
  | moment next ih => exact ih now turn h
  | wait due abandon next ih => exact h.wait fun _ _ _ _ => ih

theorem Undertakes.map {f : α → β} (h : Undertakes agreement P own routine)
    (hvalue : ∀ value, P (.ok value) → Q (.ok (f value)))
    (hfailure : ∀ failure, P (.error failure) → Q (.error failure)) :
    Undertakes agreement Q own (routine.map f) :=
  fun others now turn state hholds =>
    tries_map hvalue hfailure (h others now turn state hholds)

theorem undertakes_yielding (h : Undertakes agreement P own routine) :
    Undertakes agreement P own (yielding routine) := by
  intro others now turn state hholds
  refine ⟨own, agreement.holds_turn hholds, fun others now turn state hnow time htime _ => ?_⟩
  exact h others time turn state (agreement.holds_time htime hnow)

/-- What is over stays so with its share, whatever the others do. -/
theorem Over.undertakes {rest : Routine τ σ α} {result : Result α}
    (h : Over agreement P rest now turn state others result) : ∃ own,
      agreement.holds (own + others) now turn state ∧
        Undertakes agreement P own (.settle result rest) := by
  cases result with
  | ok value =>
      obtain ⟨hresult, rfl, hholds⟩ := h
      exact ⟨0, by rwa [zero_add], undertakes_succeed hresult⟩
  | error failure =>
      obtain ⟨hresult, own, hholds⟩ := h
      exact ⟨own, hholds, fun _ _ _ _ hnow => ⟨hresult, own, hnow⟩⟩

theorem tries_settleLater (h : Tries agreement P routine now turn state others) :
    Tries agreement P routine.settleLater now turn state others := by
  induction routine generalizing now turn state others with
  | halt => exact h
  | settle result rest ih =>
      obtain ⟨own, hholds, hover⟩ := h.undertakes
      exact undertakes_yielding hover others now turn state hholds
  | act update next ih => exact ih state h
  | record entry next ih => exact ih h
  | moment next ih => exact ih now turn h
  | wait due abandon next ih => exact h.wait fun _ _ _ _ => ih

theorem Undertakes.settleLater (h : Undertakes agreement P own routine) :
    Undertakes agreement P own routine.settleLater :=
  fun others now turn state hholds => tries_settleLater (h others now turn state hholds)

theorem Undertakes.spawned (h : Undertakes agreement P own routine) :
    Undertakes agreement P own (Routine.spawned routine) := (undertakes_yielding h).settleLater

theorem tries_bind {f : α → Routine τ σ β}
    (h : Tries agreement P routine now turn state others)
    (hvalue : ∀ value, P (.ok value) → Undertakes agreement Q 0 (f value))
    (hfailure : ∀ failure, P (.error failure) → Q (.error failure)) :
    Tries agreement Q (routine.bind f) now turn state others := by
  induction routine generalizing now turn state others with
  | halt => exact h
  | settle result rest ih =>
      cases result with
      | ok value =>
          obtain ⟨hresult, rfl, hholds⟩ := h
          exact hvalue value hresult others now turn state (by rwa [zero_add])
      | error failure => exact ⟨hfailure failure h.1, h.2⟩
  | act update next ih => exact ih state h
  | record entry next ih => exact ih h
  | moment next ih => exact ih now turn h
  | wait due abandon next ih => exact h.wait fun _ _ _ _ => ih

theorem Undertakes.bind {f : α → Routine τ σ β} (h : Undertakes agreement P own routine)
    (hvalue : ∀ value, P (.ok value) → Undertakes agreement Q 0 (f value))
    (hfailure : ∀ failure, P (.error failure) → Q (.error failure)) :
    Undertakes agreement Q own (routine.bind f) :=
  fun others now turn state hholds =>
    tries_bind (h others now turn state hholds) hvalue hfailure

/-! ### Side by side -/

/-- A pair of values, or a failure of either side. -/
def Paired (P : Result α → Prop) (Q : Result β → Prop) : Result (α × β) → Prop
  | .ok pair => P (.ok pair.1) ∧ Q (.ok pair.2)
  | .error failure => P (.error failure) ∨ Q (.error failure)

section Sides

variable {value : α} {value' : β} {right : Routine τ σ β}

theorem tries_leftFound (hvalue : P (.ok value)) (h : Tries agreement Q right now turn state others) :
    Tries agreement (Paired P Q) (collectBoth (some value) none (merge .halt right)) now turn state
      others := by
  induction right generalizing now turn state others with
  | halt => exact h
  | settle result rest ih =>
      cases result with
      | ok value' =>
          obtain ⟨hresult, rfl, hholds⟩ := h
          exact ⟨⟨hvalue, hresult⟩, rfl, hholds⟩
      | error failure => exact ⟨.inr h.1, h.2⟩
  | act update next ih => exact ih state h
  | record entry next ih => exact ih h
  | moment next ih => exact ih now turn h
  | wait due abandon next ih => exact h.wait fun _ _ _ _ => ih

theorem tries_rightFound (hvalue : Q (.ok value'))
    (h : Tries agreement P routine now turn state others) :
    Tries agreement (Paired P Q) (collectBoth none (some value') (merge routine .halt)) now turn
      state others := by
  induction routine generalizing now turn state others with
  | halt => exact h
  | settle result rest ih =>
      cases result with
      | ok value =>
          obtain ⟨hresult, rfl, hholds⟩ := h
          exact ⟨⟨hresult, hvalue⟩, rfl, hholds⟩
      | error failure => exact ⟨.inl h.1, h.2⟩
  | act update next ih => exact ih state h
  | record entry next ih => exact ih h
  | moment next ih => exact ih now turn h
  | wait due abandon next ih => exact h.wait fun _ _ _ _ => ih

/-- By induction on both sides. A failure of one side leaves the share of the other one in use. -/
theorem tries_join (hleft : Tries agreement P routine now turn state (own + others))
    (hright : Undertakes agreement Q own right) :
    Tries agreement (Paired P Q) (join routine right) now turn state others := by
  unfold join
  induction routine generalizing right own now turn state others with
  | halt => exact hleft.elim
  | settle result rest ih =>
      cases result with
      | ok value =>
          obtain ⟨hresult, rfl, hholds⟩ := hleft
          exact tries_leftFound hresult (hright others now turn state hholds)
      | error failure =>
          obtain ⟨hresult, own', hholds⟩ := hleft
          exact ⟨.inl hresult, own' + own, by rwa [add_assoc]⟩
  | act update next ih => exact ih state hleft hright
  | record entry next ih => exact ih hleft hright
  | moment next ih => exact ih now turn hleft hright
  | wait due abandon next ihLeft =>
      obtain ⟨mine, hholds, hmine⟩ := hleft
      rw [add_left_comm] at hholds
      have hgoes := hright (mine + others) now turn state hholds
      clear hright hholds own
      induction right generalizing now turn state others with
      | halt => exact hgoes.elim
      | settle result rest ih =>
          cases result with
          | ok value' =>
              obtain ⟨hresult, rfl, hholds⟩ := hgoes
              have hwaits : Tries agreement P (.wait due abandon next) now turn state others :=
                ⟨mine, hholds, hmine⟩
              exact tries_rightFound hresult hwaits
          | error failure =>
              obtain ⟨hresult, own', hholds⟩ := hgoes
              exact ⟨.inr hresult, own' + mine, by rwa [add_assoc]⟩
      | act update next' ih => exact ih state hgoes
      | record entry next' ih => exact ih hgoes
      | moment next' ih => exact ih now turn hgoes
      | wait due' abandon' next' ih =>
          obtain ⟨theirs, hholds, htheirs⟩ := hgoes
          refine ⟨mine + theirs, by rwa [add_assoc, add_left_comm], ?_⟩
          intro others now turn state hnow
          have hforMine : agreement.holds (mine + (theirs + others)) now turn state := by
            rwa [← add_assoc]
          have hforTheirs : agreement.holds (theirs + (mine + others)) now turn state := by
            rwa [add_left_comm, ← add_assoc]
          have hgoesMine := hmine _ _ _ _ hforMine
          have hgoesTheirs := htheirs _ _ _ _ hforTheirs
          have hwaits : Undertakes agreement Q theirs (.wait due' abandon' next') :=
            fun _ _ _ _ hholds => ⟨theirs, hholds, htheirs⟩
          have hnextMine := hgoesMine.mono fun time hgoes => ihLeft hgoes hwaits
          have hnextTheirs := hgoesTheirs.mono fun time hgoes => ih hgoes
          exact whenDue_earliest (fun rest time => Tries agreement (Paired P Q)
            (collectBoth none none rest) time turn state others) hnextMine hnextTheirs

theorem Undertakes.join (hleft : Undertakes agreement P 0 routine)
    (hright : Undertakes agreement Q 0 right) :
    Undertakes agreement (Paired P Q) 0 (join routine right) := by
  intro others now turn state hholds
  exact tries_join (hleft (0 + others) now turn state (by rwa [zero_add])) hright

theorem Undertakes.both (hleft : Undertakes agreement P 0 routine)
    (hright : Undertakes agreement Q 0 right) :
    Undertakes agreement (Paired P Q) 0 (both routine right) :=
  (hleft.spawned.join hright.spawned).settleLater

end Sides

/-! ### Lists -/

section Lists

variable {κ : Type} {R : κ → Result α → Prop} {f : κ → Routine τ σ α}

/-- A value for each key, or a failure of one of them. -/
def Listed (R : κ → Result α → Prop) (keys : List κ) : Result (List α) → Prop
  | .ok values => List.Forall₂ (fun value key => R key (.ok value)) values keys
  | .error failure => ∃ key ∈ keys, R key (.error failure)

theorem undertakes_joinAll (hf : ∀ key, Undertakes agreement (R key) 0 (f key)) (keys : List κ) :
    Undertakes agreement (Listed R keys) 0 (joinAll (keys.map f)) := by
  induction keys with
  | nil => exact undertakes_succeed .nil
  | cons key keys ih =>
      cases keys with
      | nil =>
          refine (hf key).map (fun value hvalue => .cons hvalue .nil) fun failure hfailure => ?_
          exact ⟨key, List.mem_cons_self, hfailure⟩
      | cons second keys =>
          refine ((hf key).join ih).map (fun pair hpair => .cons hpair.1 hpair.2) ?_
          rintro failure (hfirst | ⟨other, hmem, hrest⟩)
          · exact ⟨key, List.mem_cons_self, hfirst⟩
          · exact ⟨other, List.mem_cons_of_mem key hmem, hrest⟩

theorem undertakes_all (hf : ∀ key, Undertakes agreement (R key) 0 (f key)) (keys : List κ) :
    Undertakes agreement (Listed R keys) 0 (all (keys.map f)) := by
  unfold all
  split
  · rename_i hempty
    have hnone : keys = [] := by simpa using hempty
    rw [hnone]
    exact undertakes_succeed .nil
  · rw [List.map_map]
    exact (undertakes_joinAll (fun key => (hf key).spawned) keys).settleLater

end Lists

/-! ### Runs -/

/-- A run of the routine alone settles, even if it leaves others of its part at work. -/
theorem Tries.run {progress : Progress τ σ}
    (h : Tries agreement P routine progress.now progress.turn progress.state 0) :
    ∃ result, (routine.run progress).result = some result ∧ P result := by
  induction routine generalizing progress with
  | halt => exact h.elim
  | settle result rest ih =>
      cases result with
      | ok value => exact ⟨.ok value, rfl, h.1⟩
      | error failure => exact ⟨.error failure, rfl, h.1⟩
  | act update next ih =>
      exact @ih progress.state { progress with state := update progress.state } h
  | record entry next ih =>
      exact @ih { progress with journal := entry :: progress.journal } h
  | moment next ih =>
      exact @ih progress.now progress.turn { progress with turn := progress.turn + 1 } h
  | wait due abandon next ih =>
      obtain ⟨own, hholds, hwait⟩ := h
      have hgoes := hwait 0 _ _ _ hholds
      unfold Routine.run
      cases hdue : due progress.state with
      | none =>
          rw [hdue] at hgoes
          rw [add_zero] at hholds
          exact absurd hgoes (agreement.not_stalled hholds)
      | some found =>
          rw [hdue] at hgoes
          exact @ih { progress with now := later progress.now found.1 }
            (hgoes _ (agreement.pace.later_left _ _) (agreement.pace.later_right _ _))

theorem Undertakes.run (h : Undertakes agreement P 0 routine) {progress : Progress τ σ}
    (hholds : agreement.holds 0 progress.now progress.turn progress.state) :
    ∃ result, (routine.run progress).result = some result ∧ P result :=
  (h 0 _ _ _ (by rwa [add_zero])).run

/-! ### Handling a failure -/

/-- The routine is over without a turn of its own. -/
inductive Prompt (result : Result α) : Routine τ σ α → Prop
  | settle {rest : Routine τ σ α} : Prompt result (.settle result rest)
  | record {entry : Journal.Record} {next : Routine τ σ α} :
    Prompt result next → Prompt result (.record entry next)

theorem Prompt.run {result : Result α} (h : Prompt result routine) (progress : Progress τ σ) :
    (routine.run progress).result = some result := by
  induction h generalizing progress with
  | settle => rfl
  | record _ ih => exact ih _

omit [Clock τ] in
theorem Prompt.map_inr {result : Result α} (h : Prompt result routine) :
    Prompt result (routine.map .inr : Routine τ σ (Empty ⊕ α)).onlyRight := by
  induction h with
  | settle => cases result <;> exact .settle
  | record _ ih => exact .record ih

theorem Prompt.mergeWaiting {due : σ → Option (Turn τ)} {abandon : τ → Nat → σ → σ}
    {left : Routine τ σ α → Routine τ σ (Empty ⊕ α)} {result : Result α}
    (h : Prompt result routine) :
    Prompt result (Routine.mergeWaiting due abandon left routine).onlyRight := by
  induction h with
  | settle => cases result <;> exact .settle
  | record _ ih => exact .record ih

/-- Work in the background goes on until it waits, and then the routine is over. -/
theorem run_merge_prompt {result : Result α} (h : Prompt result routine) (rest : Routine τ σ β)
    (progress : Progress τ σ) :
    (run progress (merge (rest.silence : Routine τ σ Empty) routine).onlyRight).result =
      some result := by
  induction rest generalizing progress with
  | halt => exact h.map_inr.run progress
  | settle _ rest ih => exact ih progress
  | act update next ih => exact ih progress.state _
  | record entry next ih => exact ih _
  | moment next ih => exact ih progress.now progress.turn _
  | wait due abandon next ih => exact h.mergeWaiting.run progress

theorem run_beside_prompt {result : Result α} (h : Prompt result routine) (rest : Routine τ σ β)
    (progress : Progress τ σ) : (run progress (beside rest.silence routine)).result = some result := by
  have hmerge := run_merge_prompt h rest progress
  cases hrest : (rest.silence : Routine τ σ Empty) with
  | halt => exact h.run progress
  | _ =>
      rw [hrest] at hmerge
      exact hmerge

/-- What is done at once with the value of a routine changes its result alone. -/
theorem run_bind_prompt {f : α → Routine τ σ β} {g : α → Result β}
    (h : ∀ value, Prompt (g value) (f value)) (routine : Routine τ σ α) (progress : Progress τ σ) :
    (run progress (routine.bind f)).result =
      (run progress routine).result.map fun result => result >>= g := by
  induction routine generalizing progress with
  | halt => rfl
  | settle result rest ih =>
      cases result with
      | ok value => exact run_beside_prompt (h value) rest progress
      | error failure => rfl
  | act update next ih => exact ih progress.state _
  | record entry next ih => exact ih _
  | moment next ih => exact ih progress.now progress.turn _
  | wait due abandon next ih =>
      unfold bind run
      cases due progress.state with
      | none => rfl
      | some found => exact ih _

/-- What would follow is not done after a failure. -/
theorem run_bind_error {f : α → Routine τ σ β} {failure : Failure} {progress final : Progress τ σ}
    (h : run progress routine = ⟨some (.error failure), final⟩) :
    run progress (routine.bind f) = ⟨some (.error failure), final⟩ := by
  induction routine generalizing progress with
  | halt => cases h
  | settle result rest ih =>
      cases h
      rfl
  | act update next ih => exact ih _ h
  | record entry next ih => exact ih h
  | moment next ih => exact ih _ _ h
  | wait due abandon next ih =>
      unfold run at h
      unfold bind run
      cases hdue : due progress.state with
      | none =>
          rw [hdue] at h
          cases h
      | some found =>
          rw [hdue] at h
          exact ih h

/-- What comes of a routine whose failures are handled at once. -/
inductive Rescued (P : Result α → Prop) (fallback : Failure → Result α) : Result α → Prop
  | value {value : α} : P (.ok value) → Rescued P fallback (.ok value)
  | handled {failure : Failure} : P (.error failure) → Rescued P fallback (fallback failure)

/-- A failure is handled at once, whatever still goes on in the background. -/
theorem run_rescue {P : Result α → Prop} {handle : Failure → Routine τ σ α}
    {fallback : Failure → Result α} (hhandle : ∀ failure, Prompt (fallback failure) (handle failure))
    {progress : Progress τ σ}
    (h : Tries agreement P routine progress.now progress.turn progress.state 0) :
    ∃ result, (run progress (routine.rescue handle)).result = some result ∧
      Rescued P fallback result := by
  induction routine generalizing progress with
  | halt => exact h.elim
  | settle result rest ih =>
      cases result with
      | ok value =>
          obtain ⟨hvalue, rfl, -⟩ := h
          exact ⟨.ok value, rfl, .value hvalue⟩
      | error failure =>
          exact ⟨fallback failure, run_beside_prompt (hhandle failure) (rest.mapResult .ok) progress,
            .handled h.1⟩
  | act update next ih =>
      exact @ih progress.state { progress with state := update progress.state } h
  | record entry next ih =>
      exact @ih { progress with journal := entry :: progress.journal } h
  | moment next ih =>
      exact @ih progress.now progress.turn { progress with turn := progress.turn + 1 } h
  | wait due abandon next ih =>
      obtain ⟨own, hholds, hwait⟩ := h
      have hgoes := hwait 0 _ _ _ hholds
      unfold rescue attempt mapResult bind run
      cases hdue : due progress.state with
      | none =>
          rw [hdue] at hgoes
          rw [add_zero] at hholds
          exact absurd hgoes (agreement.not_stalled hholds)
      | some found =>
          rw [hdue] at hgoes
          exact @ih { progress with now := later progress.now found.1 }
            (hgoes _ (agreement.pace.later_left _ _) (agreement.pace.later_right _ _))

end ProgramAudit.Routine
