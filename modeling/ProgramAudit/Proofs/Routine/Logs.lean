import Mathlib.Algebra.Order.Group.Multiset
import ProgramAudit.Proofs.Routine.Settles

/-!
Routines beside a log. A routine may note in a log when it starts and what it settles with. What a
routine writes itself is kept apart from what the others write in between, so a bound on it carries
over to every combination of routines.
-/

namespace ProgramAudit.Routine

variable {τ σ E G H α β : Type}

/-- The same routine beside a log. -/
def lift : Routine τ σ α → Routine τ (σ × List E) α
  | .halt => .halt
  | .settle result rest => .settle result rest.lift
  | .act update next => .act (Prod.map update id) fun state => (next state.1).lift
  | .record entry next => .record entry next.lift
  | .moment next => .moment fun now turn => (next now turn).lift
  | .wait due abandon next =>
    .wait (fun state => due state.1) (fun now turn => Prod.map (abandon now turn) id) next.lift

/-- The same routine, which notes the result that it settles with. -/
def noting (tell : Result α → List E) : Routine τ σ α → Routine τ (σ × List E) α
  | .halt => .halt
  | .settle result rest =>
    .act (Prod.map id (tell result ++ ·)) fun _ => .settle result rest.silence.lift
  | .act update next => .act (Prod.map update id) fun state => (next state.1).noting tell
  | .record entry next => .record entry (next.noting tell)
  | .moment next => .moment fun now turn => (next now turn).noting tell
  | .wait due abandon next =>
    .wait (fun state => due state.1) (fun now turn => Prod.map (abandon now turn) id)
      (next.noting tell)

/-- The same routine, which notes its start and the result that it settles with. -/
def observed (start : List E) (tell : Result α → List E) (routine : Routine τ σ α) :
    Routine τ (σ × List E) α :=
  .act (Prod.map id (start ++ ·)) fun _ => routine.noting tell

/-- The progress without the log. -/
def Progress.alone (progress : Progress τ (σ × List E)) : Progress τ σ :=
  { progress with state := progress.state.1 }

theorem run_noting [Clock τ] (tell : Result α → List E) (routine : Routine τ σ α)
    (progress : Progress τ (σ × List E)) :
    (run progress (routine.noting tell)).result = (run progress.alone routine).result ∧
    (run progress (routine.noting tell)).final.alone = (run progress.alone routine).final := by
  induction routine generalizing progress with
  | halt => exact ⟨rfl, rfl⟩
  | settle result rest ih => exact ⟨rfl, rfl⟩
  | act update next ih => exact ih progress.state.1 _
  | record entry next ih => exact ih _
  | moment next ih => exact ih progress.now progress.turn _
  | wait due abandon next ih =>
      cases hdue : due progress.state.1 with
      | none => simp only [noting, run, Progress.alone, hdue, and_self]
      | some turn =>
          simp only [noting, run, Progress.alone, hdue]
          exact ih _

/-- Being observed does not change what a routine comes to, nor what it does to its state. -/
theorem run_observed [Clock τ] (start : List E) (tell : Result α → List E) (routine : Routine τ σ α)
    (progress : Progress τ (σ × List E)) :
    (run progress (routine.observed start tell)).result = (run progress.alone routine).result ∧
    (run progress (routine.observed start tell)).final.alone = (run progress.alone routine).final :=
  run_noting tell routine { progress with state := (progress.state.1, start ++ progress.state.2) }

/-- At every step, what the routine has written so far and which results were seen of it are related
by `T`. A result moves on what was seen as `S` says. -/
def Logs (T : Multiset E → G → Prop) (S : G → Result α → G → Prop) :
    Routine τ (σ × List E) α → Multiset E → G → Prop
  | .halt, own, seen => T own seen
  | .settle result rest, own, seen =>
    T own seen ∧ ∃ seen', S seen result seen' ∧ rest.Logs T S own seen'
  | .act update next, own, seen => T own seen ∧ ∀ state, ∃ events : List E,
    (update state).2 = events ++ state.2 ∧ (next state).Logs T S (events + own) seen
  | .record _ next, own, seen => next.Logs T S own seen
  | .moment next, own, seen => T own seen ∧ ∀ now turn, (next now turn).Logs T S own seen
  | .wait _ abandon next, own, seen => T own seen ∧
    (∀ now turn state, (abandon now turn state).2 = state.2) ∧ next.Logs T S own seen

/-- The first result is seen, and there is no further one. -/
def Once (seen : Option (Result α)) (result : Result α) (seen' : Option (Result α)) : Prop :=
  seen = none ∧ seen' = some result

/-- No result is there to be seen. -/
def Never (_ : G) (_ : Result α) (_ : G) : Prop := False

variable {T T' : Multiset E → G → Prop} {S : G → Result α → G → Prop}
  {routine : Routine τ (σ × List E) α} {own : Multiset E} {seen : G}

theorem Logs.holds (h : routine.Logs T S own seen) : T own seen := by
  induction routine with
  | halt => exact h
  | settle result rest ih => exact h.1
  | act update next ih => exact h.1
  | record entry next ih => exact ih h
  | moment next ih => exact h.1
  | wait due abandon next ih => exact h.1

theorem Logs.mono (h : routine.Logs T S own seen) (hT : ∀ own seen, T own seen → T' own seen) :
    routine.Logs T' S own seen := by
  induction routine generalizing own seen with
  | halt => exact hT own seen h
  | settle result rest ih =>
      obtain ⟨hholds, seen', hsees, hrest⟩ := h
      exact ⟨hT own seen hholds, seen', hsees, ih hrest⟩
  | act update next ih =>
      refine ⟨hT own seen h.1, fun state => ?_⟩
      obtain ⟨events, hevents, hnext⟩ := h.2 state
      exact ⟨events, hevents, ih state hnext⟩
  | record entry next ih => exact ih h
  | moment next ih => exact ⟨hT own seen h.1, fun now turn => ih now turn (h.2 now turn)⟩
  | wait due abandon next ih => exact ⟨hT own seen h.1, h.2.1, ih h.2.2⟩

unseal Settles in
/-- What is known of every result is known of the result that was seen. -/
theorem Logs.settles {T : Multiset E → Option (Result α) → Prop} {P : Result α → Prop}
    {seen : Option (Result α)} (h : routine.Logs T Once own seen) (hP : routine.Settles P)
    (hseen : ∀ result ∈ seen, P result) :
    routine.Logs (fun own seen => T own seen ∧ ∀ result ∈ seen, P result) Once own seen := by
  induction routine generalizing own seen with
  | halt => exact ⟨h, hseen⟩
  | settle result rest ih =>
      obtain ⟨hholds, seen', hsees, hrest⟩ := h
      refine ⟨⟨hholds, hseen⟩, seen', hsees, ih hrest hP.2 fun other hother => ?_⟩
      cases hsees.2.symm.trans hother
      exact hP.1
  | act update next ih =>
      refine ⟨⟨h.1, hseen⟩, fun state => ?_⟩
      obtain ⟨events, hevents, hnext⟩ := h.2 state
      exact ⟨events, hevents, ih state hnext (hP state) hseen⟩
  | record entry next ih =>
      exact ih h hP hseen
  | moment next ih =>
      exact ⟨⟨h.1, hseen⟩, fun now turn => ih now turn (h.2 now turn) (hP now turn) hseen⟩
  | wait due abandon next ih =>
      exact ⟨⟨h.1, hseen⟩, h.2.1, ih h.2.2 hP hseen⟩

/-! ### One routine after another -/

theorem logs_ofResult {T : Multiset E → Option (Result α) → Prop} {result : Result α}
    (hnone : T own none) (hsome : T own (some result)) :
    (ofResult result : Routine τ (σ × List E) α).Logs T Once own none :=
  ⟨hnone, some result, ⟨rfl, rfl⟩, hsome⟩

theorem logs_notes {T : Multiset E → Option (Result Unit) → Prop} {entries : List Journal.Record}
    (hnone : T own none) (hsome : T own (some (.ok ()))) :
    (notes entries : Routine τ (σ × List E) Unit).Logs T Once own none := by
  induction entries with
  | nil => exact logs_ofResult hnone hsome
  | cons entry rest ih => exact ih

theorem logs_note_bind [Clock τ] {entry : Journal.Record} {f : Unit → Routine τ (σ × List E) α}
    (h : (f ()).Logs T S own seen) : ((note entry).bind f).Logs T S own seen := h

theorem logs_ok_bind [Clock τ] {value : β} {f : β → Routine τ (σ × List E) α}
    (h : (f value).Logs T S own seen) :
    ((ofResult (.ok value)).bind f).Logs T S own seen := h

theorem logs_error_bind [Clock τ] {T : Multiset E → Option (Result α) → Prop} {failure : Failure}
    {f : β → Routine τ (σ × List E) α} (hnone : T own none)
    (hsome : T own (some (.error failure))) :
    ((ofResult (.error failure)).bind f).Logs T Once own none :=
  ⟨hnone, some (.error failure), ⟨rfl, rfl⟩, hsome⟩

theorem logs_mapResult {T : Multiset E → Option (Result α) → Prop}
    {T' : Multiset E → Option (Result β) → Prop} {f : Result α → Result β}
    {seen : Option (Result α)} (h : routine.Logs T Once own seen)
    (hT : ∀ own seen, T own seen → T' own (seen.map f)) :
    (routine.mapResult f).Logs T' Once own (seen.map f) := by
  induction routine generalizing own seen with
  | halt => exact hT own seen h
  | settle result rest ih =>
      obtain ⟨hholds, seen', ⟨rfl, rfl⟩, hrest⟩ := h
      exact ⟨hT own none hholds, some (f result), ⟨rfl, rfl⟩, ih hrest⟩
  | act update next ih =>
      refine ⟨hT own seen h.1, fun state => ?_⟩
      obtain ⟨events, hevents, hnext⟩ := h.2 state
      exact ⟨events, hevents, ih state hnext⟩
  | record entry next ih => exact ih h
  | moment next ih => exact ⟨hT own seen h.1, fun now turn => ih now turn (h.2 now turn)⟩
  | wait due abandon next ih => exact ⟨hT own seen h.1, h.2.1, ih h.2.2⟩

theorem logs_inStage {stage : String} (h : routine.Logs T S own seen) :
    (routine.inStage stage).Logs T S own seen := by
  induction routine generalizing own seen with
  | halt => exact h
  | settle result rest ih =>
      obtain ⟨hholds, seen', hsees, hrest⟩ := h
      exact ⟨hholds, seen', hsees, ih hrest⟩
  | act update next ih =>
      refine ⟨h.1, fun state => ?_⟩
      obtain ⟨events, hevents, hnext⟩ := h.2 state
      exact ⟨events, hevents, ih state hnext⟩
  | record entry next ih => exact ih h
  | moment next ih => exact ⟨h.1, fun now turn => ih now turn (h.2 now turn)⟩
  | wait due abandon next ih => exact ⟨h.1, h.2.1, ih h.2.2⟩

/-- Work in the background goes on writing, and what was seen stays as it is. -/
theorem logs_silence {R : G → Prop} {T' : Multiset E → H → Prop} {S' : H → Result β → H → Prop}
    {after : H} (hstable : ∀ seen result seen', S seen result seen' → R seen → R seen')
    (hT : ∀ own seen, R seen → T own seen → T' own after) (hR : R seen)
    (h : routine.Logs T S own seen) : (routine.silence : Routine τ _ β).Logs T' S' own after := by
  induction routine generalizing own seen with
  | halt => exact hT own seen hR h
  | settle result rest ih =>
      obtain ⟨hholds, seen', hsees, hrest⟩ := h
      exact ih (hstable seen result seen' hsees hR) hrest
  | act update next ih =>
      refine ⟨hT own seen hR h.1, fun state => ?_⟩
      obtain ⟨events, hevents, hnext⟩ := h.2 state
      exact ⟨events, hevents, ih state hR hnext⟩
  | record entry next ih => exact ih hR h
  | moment next ih => exact ⟨hT own seen hR h.1, fun now turn => ih now turn hR (h.2 now turn)⟩
  | wait due abandon next ih => exact ⟨hT own seen hR h.1, h.2.1, ih hR h.2.2⟩

theorem logs_yielding (h : routine.Logs T S own seen) : (yielding routine).Logs T S own seen :=
  ⟨h.holds, fun _ _ => ⟨h.holds, fun _ _ _ => rfl, h⟩⟩

theorem logs_settleLater (h : routine.Logs T S own seen) :
    routine.settleLater.Logs T S own seen := by
  induction routine generalizing own seen with
  | halt => exact h
  | settle result rest ih => exact logs_yielding h
  | act update next ih =>
      refine ⟨h.1, fun state => ?_⟩
      obtain ⟨events, hevents, hnext⟩ := h.2 state
      exact ⟨events, hevents, ih state hnext⟩
  | record entry next ih => exact ih h
  | moment next ih => exact ⟨h.1, fun now turn => ih now turn (h.2 now turn)⟩
  | wait due abandon next ih => exact ⟨h.1, h.2.1, ih h.2.2⟩

theorem logs_spawned (h : routine.Logs T S own seen) : (spawned routine).Logs T S own seen :=
  logs_settleLater (logs_yielding h)

/-! ### Side by side -/

/-- Two routines write into one log, each its own part. -/
def Apart (T : Multiset E → G → Prop) (T' : Multiset E → H → Prop) (own : Multiset E)
    (seen : G × H) : Prop :=
  ∃ left right, own = left + right ∧ T left seen.1 ∧ T' right seen.2

/-- A result of either side moves on what was seen of that side. -/
inductive Sides (S : G → Result α → G → Prop) (S' : H → Result β → H → Prop) :
    G × H → Result (α ⊕ β) → G × H → Prop
  | left {seen seen' : G} {other : H} {result : Result α} :
    S seen result seen' → Sides S S' (seen, other) (result.map .inl) (seen', other)
  | right {seen : G} {other other' : H} {result : Result β} :
    S' other result other' → Sides S S' (seen, other) (result.map .inr) (seen, other')

section Merge

variable {TL : Multiset E → G → Prop} {TR : Multiset E → H → Prop} {SL : G → Result α → G → Prop}
  {SR : H → Result β → H → Prop} {left : Routine τ (σ × List E) α}
  {right : Routine τ (σ × List E) β}
  {ownLeft ownRight : Multiset E} {seenLeft : G} {seenRight : H}

theorem apart_intro (hleft : TL ownLeft seenLeft) (hright : TR ownRight seenRight) :
    Apart TL TR (ownLeft + ownRight) (seenLeft, seenRight) :=
  ⟨ownLeft, ownRight, rfl, hleft, hright⟩

theorem logs_rightAlone (hleft : TL ownLeft seenLeft)
    (hright : right.Logs TR SR ownRight seenRight) :
    (right.map .inr : Routine τ (σ × List E) (α ⊕ β)).Logs (Apart TL TR) (Sides SL SR)
      (ownLeft + ownRight) (seenLeft, seenRight) := by
  induction right generalizing ownRight seenRight with
  | halt => exact apart_intro hleft hright
  | settle result rest ih =>
      obtain ⟨hholds, seen', hsees, hrest⟩ := hright
      exact ⟨apart_intro hleft hholds, (seenLeft, seen'), .right hsees, ih hrest⟩
  | act update next ih =>
      refine ⟨apart_intro hleft hright.1, fun state => ?_⟩
      obtain ⟨events, hevents, hnext⟩ := hright.2 state
      refine ⟨events, hevents, ?_⟩
      rw [add_left_comm]
      exact ih state hnext
  | record entry next ih => exact ih hright
  | moment next ih =>
      exact ⟨apart_intro hleft hright.1, fun now turn => ih now turn (hright.2 now turn)⟩
  | wait due abandon next ih =>
      exact ⟨apart_intro hleft hright.1, hright.2.1, ih hright.2.2⟩

variable [Clock τ]

theorem logs_mergeWaiting {due : σ × List E → Option (Turn τ)}
    {abandon : τ → Nat → σ × List E → σ × List E}
    {left : Routine τ (σ × List E) β → Routine τ (σ × List E) (α ⊕ β)}
    (hwait : TL ownLeft seenLeft)
    (habandon : ∀ now turn state, (abandon now turn state).2 = state.2)
    (hleft : ∀ rest own seen, rest.Logs TR SR own seen →
      (left rest).Logs (Apart TL TR) (Sides SL SR) (ownLeft + own) (seenLeft, seen))
    (hright : right.Logs TR SR ownRight seenRight) :
    (mergeWaiting due abandon left right).Logs (Apart TL TR) (Sides SL SR)
      (ownLeft + ownRight) (seenLeft, seenRight) := by
  induction right generalizing ownRight seenRight with
  | halt => exact ⟨apart_intro hwait hright, habandon, hleft .halt _ _ hright⟩
  | settle result rest ih =>
      obtain ⟨hholds, seen', hsees, hrest⟩ := hright
      exact ⟨apart_intro hwait hholds, (seenLeft, seen'), .right hsees, ih hrest⟩
  | act update next ih =>
      refine ⟨apart_intro hwait hright.1, fun state => ?_⟩
      obtain ⟨events, hevents, hnext⟩ := hright.2 state
      refine ⟨events, hevents, ?_⟩
      rw [add_left_comm]
      exact ih state hnext
  | record entry next ih => exact ih hright
  | moment next ih =>
      exact ⟨apart_intro hwait hright.1, fun now turn => ih now turn (hright.2 now turn)⟩
  | wait due' abandon' next ih =>
      have hholds := apart_intro hwait hright.1
      have hwaiting : (left (.wait due' abandon' next)).Logs (Apart TL TR) (Sides SL SR)
          (ownLeft + ownRight) (seenLeft, seenRight) := hleft _ _ _ hright
      refine ⟨hholds, ?_, hholds, fun state => ⟨[], rfl, ?_⟩⟩
      · intro now turn state
        exact (hright.2.1 now turn _).trans (habandon now turn state)
      · rw [Multiset.coe_nil, zero_add]
        dsimp only
        split
        · split
          · exact ih hright.2.2
          · exact hwaiting
        · exact hwaiting
        · exact ih hright.2.2

theorem logs_merge (hleft : left.Logs TL SL ownLeft seenLeft)
    (hright : right.Logs TR SR ownRight seenRight) :
    (merge left right).Logs (Apart TL TR) (Sides SL SR) (ownLeft + ownRight)
      (seenLeft, seenRight) := by
  induction left generalizing right ownLeft ownRight seenLeft seenRight with
  | halt => exact logs_rightAlone hleft hright
  | settle result rest ih =>
      obtain ⟨hholds, seen', hsees, hrest⟩ := hleft
      exact ⟨apart_intro hholds hright.holds, (seen', seenRight), .left hsees, ih hrest hright⟩
  | act update next ih =>
      refine ⟨apart_intro hleft.1 hright.holds, fun state => ?_⟩
      obtain ⟨events, hevents, hnext⟩ := hleft.2 state
      refine ⟨events, hevents, ?_⟩
      rw [← add_assoc]
      exact ih state hnext hright
  | record entry next ih => exact ih hleft hright
  | moment next ih =>
      exact ⟨apart_intro hleft.1 hright.holds,
        fun now turn => ih now turn (hleft.2 now turn) hright⟩
  | wait due abandon next ih =>
      exact logs_mergeWaiting hleft.1 hleft.2.1 (fun _ _ _ => ih hleft.2.2) hright

end Merge

section Sequence

variable {T : Multiset E → Option (Result α) → Prop}
  {T' : α → Multiset E → Option (Result β) → Prop}
  {B : Multiset E → G → Prop} {routine : Routine τ (σ × List E) α}

theorem logs_onlyRight {routine : Routine τ (σ × List E) (α ⊕ β)} {seen : G × Option (Result β)}
    {T : Multiset E → G × Option (Result β) → Prop}
    (h : routine.Logs T (Sides Never Once) own seen) :
    routine.onlyRight.Logs (fun own right => T own (seen.1, right)) Once own seen.2 := by
  induction routine generalizing own seen with
  | halt => exact h
  | settle result rest ih =>
      obtain ⟨hholds, seen', hsees, hrest⟩ := h
      cases hsees with
      | left hnever => exact hnever.elim
      | @right _ _ _ result hsees =>
          cases result with
          | ok value => exact ⟨hholds, _, hsees, ih hrest⟩
          | error failure => exact ⟨hholds, _, hsees, ih hrest⟩
  | act update next ih =>
      refine ⟨h.1, fun state => ?_⟩
      obtain ⟨events, hevents, hnext⟩ := h.2 state
      exact ⟨events, hevents, ih state hnext⟩
  | record entry next ih => exact ih h
  | moment next ih => exact ⟨h.1, fun now turn => ih now turn (h.2 now turn)⟩
  | wait due abandon next ih => exact ⟨h.1, h.2.1, ih h.2.2⟩

/-- What is left of the first of two routines, and what the second one comes to. -/
inductive Then (T : Multiset E → Option (Result α) → Prop)
    (T' : α → Multiset E → Option (Result β) → Prop) : Multiset E → Option (Result β) → Prop
  | first {own : Multiset E} : T own none → Then T T' own none
  | failed {own : Multiset E} {failure : Failure} :
    T own (some (.error failure)) → Then T T' own (some (.error failure))
  | second {own own' : Multiset E} {value : α} {seen : Option (Result β)} :
    T own (some (.ok value)) → T' value own' seen → Then T T' (own + own') seen

/-- What is written before a routine starts does not touch it. -/
theorem logs_framed {routine : Routine τ (σ × List E) β} {T : Multiset E → Option (Result β) → Prop}
    {own' : Multiset E} {seen : G} {seen' : Option (Result β)} (hbefore : B own seen)
    (h : routine.Logs T Once own' seen') :
    routine.Logs (fun all seen' => Apart B T all (seen, seen')) Once (own + own') seen' := by
  induction routine generalizing own' seen' with
  | halt => exact apart_intro hbefore h
  | settle result rest ih =>
      obtain ⟨hholds, seen', hsees, hrest⟩ := h
      exact ⟨apart_intro hbefore hholds, seen', hsees, ih hrest⟩
  | act update next ih =>
      refine ⟨apart_intro hbefore h.1, fun state => ?_⟩
      obtain ⟨events, hevents, hnext⟩ := h.2 state
      refine ⟨events, hevents, ?_⟩
      rw [add_left_comm]
      exact ih state hnext
  | record entry next ih => exact ih h
  | moment next ih => exact ⟨apart_intro hbefore h.1, fun now turn => ih now turn (h.2 now turn)⟩
  | wait due abandon next ih => exact ⟨apart_intro hbefore h.1, h.2.1, ih h.2.2⟩

variable [Clock τ]

theorem logs_beside {background : Routine τ (σ × List E) Empty}
    {routine : Routine τ (σ × List E) β} {T' : Multiset E → Option (Result β) → Prop}
    {own' : Multiset E} {seen' : Option (Result β)} {seen : G}
    (hbackground : background.Logs B Never own seen) (h : routine.Logs T' Once own' seen') :
    (beside background routine).Logs (fun all seen' => Apart B T' all (seen, seen')) Once
      (own + own') seen' := by
  cases background with
  | halt => exact logs_framed hbackground h
  | _ => exact logs_onlyRight (logs_merge hbackground h)

theorem logs_bind {f : α → Routine τ (σ × List E) β} (h : routine.Logs T Once own none)
    (hf : ∀ value own, T own (some (.ok value)) → (f value).Logs (T' value) Once 0 none) :
    (routine.bind f).Logs (Then T T') Once own none := by
  induction routine generalizing own with
  | halt => exact .first h
  | settle result rest ih =>
      obtain ⟨hholds, seen', ⟨-, rfl⟩, hrest⟩ := h
      -- The rest goes on in the background: it still writes, but its result stays as it is.
      have hsilence {γ H : Type} {S' : H → Result γ → H → Prop} {after : H}
          {T'' : Multiset E → H → Prop} (hT : ∀ own, T own (some result) → T'' own after) :
          (rest.silence : Routine τ (σ × List E) γ).Logs T'' S' own after :=
        logs_silence (R := (· = some result)) (fun _ _ _ hsees hsome => by
          cases hsees.1.symm.trans hsome) (fun own _ hsome hown => hT own (hsome ▸ hown)) rfl hrest
      cases result with
      | ok value =>
          have hbackground : (rest.silence : Routine τ (σ × List E) Empty).Logs
              (fun own (_ : Unit) => T own (some (.ok value))) Never own () := hsilence fun _ => id
          have hboth := logs_beside hbackground (hf value own hrest.holds)
          rw [add_zero] at hboth
          refine hboth.mono fun all seen hapart => ?_
          obtain ⟨ownLeft, ownRight, rfl, hleft, hright⟩ := hapart
          exact .second hleft hright
      | error failure =>
          exact ⟨.first hholds, _, ⟨rfl, rfl⟩, hsilence fun _ => .failed⟩
  | act update next ih =>
      refine ⟨.first h.1, fun state => ?_⟩
      obtain ⟨events, hevents, hnext⟩ := h.2 state
      exact ⟨events, hevents, ih state hnext⟩
  | record entry next ih => exact ih h
  | moment next ih => exact ⟨.first h.1, fun now turn => ih now turn (h.2 now turn)⟩
  | wait due abandon next ih => exact ⟨.first h.1, h.2.1, ih h.2.2⟩

/-- What follows a routine that writes nothing starts with nothing written. -/
theorem logs_bind_quiet {T : Multiset E → Option (Result β) → Prop}
    {f : α → Routine τ (σ × List E) β} (h : routine.Logs (fun own _ => own = 0) Once 0 none)
    (hnone : T 0 none) (hfailed : ∀ failure, T 0 (some (.error failure)))
    (hf : ∀ value, (f value).Logs T Once 0 none) : (routine.bind f).Logs T Once 0 none := by
  refine (logs_bind h fun value _ _ => hf value).mono fun own seen hthen => ?_
  cases hthen with
  | first hown =>
      rw [hown]
      exact hnone
  | failed hown =>
      rw [hown]
      exact hfailed _
  | second hown hrest =>
      rw [hown, zero_add]
      exact hrest

end Sequence

section Joins

variable {TL : Multiset E → Option (Result α) → Prop} {TR : Multiset E → Option (Result β) → Prop}
  {left : Routine τ (σ × List E) α} {right : Routine τ (σ × List E) β}

/-- What two routines side by side come to: with a pair, each has settled with its part. -/
def Joined (TL : Multiset E → Option (Result α) → Prop)
    (TR : Multiset E → Option (Result β) → Prop) (own : Multiset E)
    (seen : Option (Result (α × β))) : Prop :=
  ∃ sides, Apart TL TR own sides ∧ ∀ pair, seen = some (.ok pair) →
    sides.1 = some (.ok pair.1) ∧ sides.2 = some (.ok pair.2)

/-- What two routines side by side come to: with a pair, each has settled with its part, and with a
failure, one of them has settled with that failure. -/
structure Met (TL : Multiset E → Option (Result α) → Prop)
    (TR : Multiset E → Option (Result β) → Prop) (own : Multiset E)
    (seen : Option (Result (α × β))) (sides : Option (Result α) × Option (Result β)) : Prop where
  apart : Apart TL TR own sides
  pair : ∀ pair, seen = some (.ok pair) →
    sides.1 = some (.ok pair.1) ∧ sides.2 = some (.ok pair.2)
  failed : ∀ failure, seen = some (.error failure) →
    sides.1 = some (.error failure) ∨ sides.2 = some (.error failure)

theorem met_of_apart {own : Multiset E} {sides : Option (Result α) × Option (Result β)}
    (h : Apart TL TR own sides) : ∃ sides, Met TL TR own none sides :=
  ⟨sides, h, nofun, nofun⟩

theorem logs_collectBoth {found : Option α} {found' : Option β}
    {routine : Routine τ (σ × List E) (α ⊕ β)} {seen : Option (Result α) × Option (Result β)}
    (hfound : ∀ value ∈ found, seen.1 = some (.ok value))
    (hfound' : ∀ value ∈ found', seen.2 = some (.ok value))
    (h : routine.Logs (Apart TL TR) (Sides Once Once) own seen) :
    (collectBoth found found' routine).Logs (fun own seen => ∃ sides, Met TL TR own seen sides) Once
      own none := by
  induction routine generalizing found found' own seen with
  | halt => exact met_of_apart h
  | settle result rest ih =>
      obtain ⟨hholds, seen', hsees, hrest⟩ := h
      -- Once there is a pair, both sides have settled, so what goes on cannot settle again.
      have hpair (value : α) (other : β) (hseen : seen' = (some (.ok value), some (.ok other))) :
          (rest.silence : Routine τ (σ × List E) (α × β)).Logs
            (fun own seen => ∃ sides, Met TL TR own seen sides) Once own
            (some (.ok (value, other))) := by
        refine logs_silence (R := (· = (some (.ok value), some (.ok other)))) ?_ ?_ hseen hrest
        · rintro _ result _ hsees rfl
          cases hsees with
          | left h => cases h.1
          | right h => cases h.1
        · rintro own _ rfl hown
          refine ⟨_, hown, fun pair hpair => ?_, nofun⟩
          cases hpair
          exact ⟨rfl, rfl⟩
      -- After a failure the other side may still settle, and the failed one cannot.
      have hfailed (failure : Failure)
          (hseen : seen'.1 = some (.error failure) ∨ seen'.2 = some (.error failure)) :
          (rest.silence : Routine τ (σ × List E) (α × β)).Logs
            (fun own seen => ∃ sides, Met TL TR own seen sides) Once own
            (some (.error failure)) := by
        refine logs_silence (R := fun sides : Option (Result α) × Option (Result β) =>
          sides.1 = some (.error failure) ∨ sides.2 = some (.error failure)) ?_ ?_ hseen hrest
        · rintro _ result _ hsees hside
          cases hsees with
          | left h => exact hside.imp_left fun hsome => by cases h.1.symm.trans hsome
          | right h => exact hside.imp_right fun hsome => by cases h.1.symm.trans hsome
        · intro own sides hside hown
          refine ⟨sides, hown, nofun, fun other hother => ?_⟩
          cases hother
          exact hside
      have hnone := met_of_apart hholds
      cases hsees with
      | @left before after other result hsees =>
          obtain ⟨rfl, rfl⟩ := hsees
          cases result with
          | error failure => exact ⟨hnone, _, ⟨rfl, rfl⟩, hfailed failure (.inl rfl)⟩
          | ok value =>
              cases found' with
              | none =>
                  refine @ih own (some value) none (some (.ok value), other) (fun _ hvalue => ?_)
                    hfound' hrest
                  cases hvalue
                  rfl
              | some value' =>
                  have hother : other = some (.ok value') := hfound' value' rfl
                  exact ⟨hnone, _, ⟨rfl, rfl⟩, hpair value value' (hother ▸ rfl)⟩
      | @right before other after result hsees =>
          obtain ⟨rfl, rfl⟩ := hsees
          cases result with
          | error failure => exact ⟨hnone, _, ⟨rfl, rfl⟩, hfailed failure (.inr rfl)⟩
          | ok value =>
              cases found with
              | none =>
                  refine @ih own none (some value) (before, some (.ok value)) hfound
                    (fun _ hvalue => ?_) hrest
                  cases hvalue
                  rfl
              | some value' =>
                  have hother : before = some (.ok value') := hfound value' rfl
                  exact ⟨hnone, _, ⟨rfl, rfl⟩, hpair value' value (hother ▸ rfl)⟩
  | act update next ih =>
      refine ⟨met_of_apart h.1, fun state => ?_⟩
      obtain ⟨events, hevents, hnext⟩ := h.2 state
      exact ⟨events, hevents, ih state hfound hfound' hnext⟩
  | record entry next ih => exact ih hfound hfound' h
  | moment next ih =>
      exact ⟨met_of_apart h.1, fun now turn => ih now turn hfound hfound' (h.2 now turn)⟩
  | wait due abandon next ih => exact ⟨met_of_apart h.1, h.2.1, ih hfound hfound' h.2.2⟩

theorem logs_meet [Clock τ] {ownLeft ownRight : Multiset E} (hleft : left.Logs TL Once ownLeft none)
    (hright : right.Logs TR Once ownRight none) :
    (join left right).Logs (fun own seen => ∃ sides, Met TL TR own seen sides) Once
      (ownLeft + ownRight) none :=
  logs_collectBoth (by simp) (by simp) (logs_merge hleft hright)

theorem logs_join [Clock τ] {ownLeft ownRight : Multiset E} (hleft : left.Logs TL Once ownLeft none)
    (hright : right.Logs TR Once ownRight none) :
    (join left right).Logs (Joined TL TR) Once (ownLeft + ownRight) none :=
  (logs_meet hleft hright).mono fun _ _ ⟨sides, hmet⟩ => ⟨sides, hmet.apart, hmet.pair⟩

end Joins

section Lists

variable {κ : Type} {entry : κ → α → Multiset E} {f : κ → Routine τ (σ × List E) α}

/-- With a value, a routine has written what belongs to that value. -/
def Writes (entry : α → Multiset E) (own : Multiset E) (seen : Option (Result α)) : Prop :=
  ∀ value, seen = some (.ok value) → own = entry value

/-- With values, a routine has written what belongs to the value of each key. -/
def WritesEach (entry : κ → α → Multiset E) (keys : List κ) (own : Multiset E)
    (seen : Option (Result (List α))) : Prop :=
  ∀ values, seen = some (.ok values) →
    values.length = keys.length ∧ own = (List.zipWith entry keys values).sum

theorem writesEach_nil : (succeed [] : Routine τ (σ × List E) (List α)).Logs
    (WritesEach entry []) Once 0 none := by
  refine logs_ofResult nofun fun values hvalues => ?_
  cases hvalues
  exact ⟨rfl, rfl⟩

variable [Clock τ]

theorem logs_joinAll (hf : ∀ key, (f key).Logs (Writes (entry key)) Once 0 none) (keys : List κ) :
    (joinAll (keys.map f)).Logs (WritesEach entry keys) Once 0 none := by
  induction keys with
  | nil => exact writesEach_nil
  | cons key keys ih =>
      cases keys with
      | nil =>
          refine logs_mapResult (hf key) fun own seen hwrites values hvalues => ?_
          obtain ⟨result, rfl, hresult⟩ := Option.map_eq_some_iff.mp hvalues
          cases result with
          | error failure => cases hresult
          | ok value =>
              cases hresult
              simpa using hwrites value rfl
      | cons second keys =>
          refine logs_mapResult (logs_join (hf key) ih) fun own seen hjoined values hvalues => ?_
          obtain ⟨sides, ⟨left, right, rfl, hleft, hright⟩, hpair⟩ := hjoined
          obtain ⟨result, rfl, hresult⟩ := Option.map_eq_some_iff.mp hvalues
          cases result with
          | error failure => cases hresult
          | ok pair =>
              cases hresult
              obtain ⟨hfirst, hrest⟩ := hpair pair rfl
              obtain ⟨hlength, hown⟩ := hright pair.2 hrest
              rw [hleft pair.1 hfirst, hown]
              exact ⟨congrArg Nat.succ hlength, rfl⟩

theorem logs_all (hf : ∀ key, (f key).Logs (Writes (entry key)) Once 0 none) (keys : List κ) :
    (all (keys.map f)).Logs (WritesEach entry keys) Once 0 none := by
  unfold all
  split
  · rename_i hempty
    have hnone : keys = [] := by simpa using hempty
    rw [hnone]
    exact writesEach_nil
  · rw [List.map_map]
    exact logs_settleLater (logs_joinAll (fun key => logs_spawned (hf key)) keys)

end Lists

/-! ### Time limits -/

/-- A time limit may end a routine wherever it stands. -/
inductive Cut (T : Multiset E → Option (Result α) → Prop) :
    Multiset E → Option (Result α) → Prop
  | within {own : Multiset E} {seen : Option (Result α)} : T own seen → Cut T own seen
  | late {own : Multiset E} : T own none → Cut T own (some (.error timeout))

section Limits

variable {T : Multiset E → Option (Result α) → Prop} {routine : Routine τ (σ × List E) α}

theorem logs_timeout (h : T own none) :
    (fail timeout : Routine τ (σ × List E) α).Logs (Cut T) Once own none :=
  logs_ofResult (.within h) (.late h)

theorem logs_abandoned {abandon : τ → Nat → σ × List E → σ × List E}
    (habandon : ∀ now turn state, (abandon now turn state).2 = state.2) (h : T own none) :
    (abandoned abandon : Routine τ (σ × List E) α).Logs (Cut T) Once own none := by
  refine ⟨.within h, fun now turn => ⟨.within h, fun state => ⟨[], habandon now turn state, ?_⟩⟩⟩
  rw [Multiset.coe_nil, zero_add]
  exact logs_yielding (logs_yielding (logs_yielding (logs_timeout h)))

variable [Clock τ]

theorem logs_expire {deadline : Turn τ} (h : routine.Logs T Once own none) :
    (expire obedient deadline routine).Logs (Cut T) Once own none := by
  induction routine generalizing own with
  | halt => exact ⟨.within h, fun _ _ _ => rfl, logs_yielding (logs_timeout h)⟩
  | settle result rest ih => exact logs_yielding (logs_yielding (h.mono fun _ _ => .within))
  | act update next ih =>
      refine ⟨.within h.1, fun state => ?_⟩
      obtain ⟨events, hevents, hnext⟩ := h.2 state
      exact ⟨events, hevents, ih state hnext⟩
  | record entry next ih => exact ih h
  | moment next ih => exact ⟨.within h.1, fun now turn => ih now turn (h.2 now turn)⟩
  | wait due abandon next ih =>
      refine ⟨.within h.1, h.2.1, .within h.1, fun state => ⟨[], rfl, ?_⟩⟩
      have habandoned := logs_abandoned (τ := τ) h.2.1 h.1
      rw [Multiset.coe_nil, zero_add]
      dsimp only
      split
      · split
        · exact ih h.2.2
        · exact habandoned
      · exact habandoned

theorem logs_within {limit : Option Number} (h : routine.Logs T Once own none) :
    (within limit routine).Logs (Cut T) Once own none := by
  cases limit with
  | none => exact h.mono fun _ _ => .within
  | some span =>
      unfold within bounded
      dsimp only
      split
      · exact logs_yielding (logs_yielding (logs_timeout h.holds))
      · exact ⟨.within h.holds, fun now turn => logs_expire (logs_yielding h)⟩

end Limits

/-! ### Routines that are observed -/

/-- Work in the background of an observed routine writes nothing. -/
theorem logs_lift_silence (routine : Routine τ σ α) {T : Multiset E → G → Prop}
    {S : G → Result β → G → Prop} {seen : G} (h : T own seen) :
    (routine.silence.lift : Routine τ (σ × List E) β).Logs T S own seen := by
  induction routine with
  | halt => exact h
  | settle result rest ih => exact ih
  | act update next ih =>
      refine ⟨h, fun state => ⟨[], rfl, ?_⟩⟩
      rw [Multiset.coe_nil, zero_add]
      exact ih state.1
  | record entry next ih => exact ih
  | moment next ih => exact ⟨h, fun now turn => ih now turn⟩
  | wait due abandon next ih => exact ⟨h, fun _ _ _ => rfl, ih⟩

section Observed

variable {T : Multiset E → Option (Result α) → Prop} {tell : Result α → List E}

theorem logs_noting (routine : Routine τ σ α) (hbefore : T own none)
    (htold : ∀ result, T (tell result + own) none)
    (hafter : ∀ result, T (tell result + own) (some result)) :
    (routine.noting tell).Logs T Once own none := by
  induction routine with
  | halt => exact hbefore
  | settle result rest ih =>
      exact ⟨hbefore, fun state => ⟨tell result, rfl, htold result, some result, ⟨rfl, rfl⟩,
        logs_lift_silence rest (hafter result)⟩⟩
  | act update next ih =>
      refine ⟨hbefore, fun state => ⟨[], rfl, ?_⟩⟩
      rw [Multiset.coe_nil, zero_add]
      exact ih state.1
  | record entry next ih => exact ih
  | moment next ih => exact ⟨hbefore, fun now turn => ih now turn⟩
  | wait due abandon next ih => exact ⟨hbefore, fun _ _ _ => rfl, ih⟩

theorem logs_observed (routine : Routine τ σ α) {start : List E} (hbefore : T 0 none)
    (hstart : T start none) (htold : ∀ result, T (tell result + start) none)
    (hafter : ∀ result, T (tell result + start) (some result)) :
    (routine.observed start tell).Logs T Once 0 none := by
  refine ⟨hbefore, fun state => ⟨start, rfl, ?_⟩⟩
  rw [add_zero]
  exact logs_noting routine hstart htold hafter

/-- A run that starts with an empty log ends with what the routine has written itself. -/
theorem Logs.run [Clock τ] {routine : Routine τ (σ × List E) α} (h : routine.Logs T Once own none)
    (progress : Progress τ (σ × List E)) (hlog : (progress.state.2 : Multiset E) = own) :
    T (run progress routine).final.state.2 (run progress routine).result := by
  induction routine generalizing own progress with
  | halt => exact hlog ▸ h
  | settle result rest ih =>
      obtain ⟨-, seen', ⟨-, rfl⟩, hrest⟩ := h
      exact hlog ▸ hrest.holds
  | act update next ih =>
      obtain ⟨events, hevents, hnext⟩ := h.2 progress.state
      refine ih progress.state hnext _ ?_
      rw [hevents, ← Multiset.coe_add, hlog]
  | record entry next ih => exact ih h _ hlog
  | moment next ih => exact ih _ _ (h.2 _ _) _ hlog
  | wait due abandon next ih =>
      unfold Routine.run
      cases hdue : due progress.state with
      | none => exact hlog ▸ h.1
      | some turn => exact ih h.2.2 _ hlog

end Observed

-- As with what routines settle with, a bound on one is not to be unfolded into its steps.
attribute [irreducible] Logs

end ProgramAudit.Routine
