import Mathlib.Algebra.Order.Group.Defs
import Mathlib.Data.List.Forall2
import ProgramAudit.Proofs.Routine.Ends

/-!
Routines that share a state. Each one holds a share, and an agreement says what the shares of all of
them come to in a state. A routine may change the state as long as its own share makes up for it;
while it waits, the others may do the same. What a routine settles with, and that it settles at all,
then follows from the routine alone, whoever runs beside it.
-/

namespace ProgramAudit

open Routine

/-- An order of moments that agrees with the arithmetic of a clock. -/
structure Pace (τ : Type) [Clock τ] where
  before : τ → τ → Prop
  refl (now : τ) : before now now
  trans {first second third : τ} : before first second → before second third → before first third
  later_left (now due : τ) : before now (later now due)
  later_right (now due : τ) : before due (later now due)
  of_notAfter {due now : τ} : Clock.notAfter due now = true → before due now
  passed {due now : τ} : Clock.notAfter (due - now) (Clock.seconds 0) = true → before due now
  slept {due now time : τ} : before (now + (due - now)) time → before due time

/-- The order that tells no moments apart, under which nothing is claimed about time. -/
def Pace.blind (τ : Type) [Clock τ] : Pace τ where
  before _ _ := True
  refl _ := trivial
  trans _ _ := trivial
  later_left _ _ := trivial
  later_right _ _ := trivial
  of_notAfter _ := trivial
  passed _ := trivial
  slept _ := trivial

/-- The order of an exact clock for which a span of nothing is nothing. -/
def Pace.exact {τ : Type} [ExactClock τ] (hzero : Clock.seconds 0 = (0 : τ)) : Pace τ where
  before first second := first ≤ second
  refl := le_refl
  trans := le_trans
  later_left now due := (later_eq now due).symm ▸ le_max_left now due
  later_right now due := (later_eq now due).symm ▸ le_max_right now due
  of_notAfter := of_decide_eq_true
  passed h := by
    have hle := of_decide_eq_true h
    rw [hzero] at hle
    exact sub_nonpos.mp hle
  slept h := by rwa [add_sub_cancel] at h

/-- What routines agree on that share a state: which shares of all of them go with a state, and with
which share there is nothing to do until others go on. It is never the share of all of them. -/
structure Agreement (τ σ G : Type) [Clock τ] [AddCommMonoid G] where
  pace : Pace τ
  holds : G → τ → Nat → σ → Prop
  stalled : G → σ → Prop
  holds_turn {total : G} {now : τ} {turn : Nat} {state : σ} :
    holds total now turn state → holds total now (turn + 1) state
  holds_time {total : G} {now time : τ} {turn : Nat} {state : σ} :
    pace.before now time → holds total now turn state → holds total time turn state
  stalled_add {left right : G} {state : σ} :
    stalled left state → stalled right state → stalled (left + right) state
  not_stalled {total : G} {now : τ} {turn : Nat} {state : σ} :
    holds total now turn state → ¬stalled total state

/-- What a routine owes those beside it: the share with which it waits, the one that it leaves
behind when it is abandoned, and the one with which it settles. -/
structure Terms (α G : Type) where
  during : G → Prop
  left : G → Prop
  settled : Result α → G → Prop

namespace Routine

variable {τ σ G α β : Type} [Clock τ] [AddCommMonoid G]

/-- What is to be shown of one who waits: with nothing due there is nothing to do, and what is due
goes on at some time from then on. -/
def WhenDue (agreement : Agreement τ σ G) (own : G) (state : σ) (now : τ) (goes : τ → Prop) :
    Option (Turn τ) → Prop
  | none => agreement.stalled own state
  | some found =>
    ∀ time, agreement.pace.before now time → agreement.pace.before found.1 time → goes time

/-- From a state on the routine goes on as agreed until it waits, and so after each wait, whatever
the others have done in between. -/
def Keeps (agreement : Agreement τ σ G) (terms : Terms α G) :
    Routine τ σ α → τ → Nat → σ → G → Prop
  | .halt, _, _, _, _ => False
  | .settle result rest, now, turn, state, others =>
    rest = .halt ∧ ∃ own, terms.settled result own ∧ agreement.holds (own + others) now turn state
  | .act update next, now, turn, state, others =>
    Keeps agreement terms (next state) now turn (update state) others
  | .record _ next, now, turn, state, others => Keeps agreement terms next now turn state others
  | .moment next, now, turn, state, others =>
    Keeps agreement terms (next now turn) now (turn + 1) state others
  | .wait due abandon next, now, turn, state, others =>
    ∃ own, terms.during own ∧ agreement.holds (own + others) now turn state ∧
      ∀ others now turn state, agreement.holds (own + others) now turn state →
        (∃ rest, terms.left rest ∧
          agreement.holds (rest + others) now turn (abandon now turn state)) ∧
          WhenDue agreement own state now
            (fun time => Keeps agreement terms next time turn state others) (due state)

/-- With a share of its own the routine keeps an agreement from every state on. -/
def Stands (agreement : Agreement τ σ G) (terms : Terms α G) (own : G) (routine : Routine τ σ α) :
    Prop :=
  ∀ others now turn state, agreement.holds (own + others) now turn state →
    Keeps agreement terms routine now turn state others

variable {agreement : Agreement τ σ G} {left : G → Prop} {settled : Result α → G → Prop}
  {terms : Terms α G} {terms' : Terms β G} {routine : Routine τ σ α} {own others : G} {now : τ}
  {turn : Nat} {state : σ}

theorem WhenDue.mono {goes goes' : τ → Prop} {due : Option (Turn τ)}
    (h : WhenDue agreement own state now goes due) (hgoes : ∀ time, goes time → goes' time) :
    WhenDue agreement own state now goes' due := by
  cases due with
  | none => exact h
  | some found => exact fun time hnow hfound => hgoes time (h time hnow hfound)

/-- Of two who wait the one whose turn is older goes on. -/
theorem whenDue_earliest {ρ : Type} {mine theirs : G} {due due' : Option (Turn τ)} {left right : ρ}
    (goes : ρ → τ → Prop) : WhenDue agreement mine state now (goes left) due →
      WhenDue agreement theirs state now (goes right) due' →
      WhenDue agreement (mine + theirs) state now
        (goes (match due, due' with
          | some turn, some turn' => if Turn.before turn' turn then right else left
          | some _, none => left
          | none, _ => right)) (Turn.earliest? due due') := by
  intro hleft hright
  cases due with
  | none =>
      cases due' with
      | none => exact agreement.stalled_add hleft hright
      | some found' => exact hright
  | some found =>
      cases due' with
      | none => exact hleft
      | some found' =>
          dsimp only
          rw [Turn.earliest?]
          split_ifs
          · exact hright
          · exact hleft

/-- A step of waiting, for a routine that waits for the same turn and goes on with another one. -/
theorem Keeps.wait {next : Routine τ σ β} {due : σ → Option (Turn τ)} {abandon : τ → Nat → σ → σ}
    (h : Keeps agreement terms (.wait due abandon routine) now turn state others)
    (hduring : ∀ own, terms.during own → terms'.during own)
    (hleft : ∀ rest, terms.left rest → terms'.left rest)
    (hnext : ∀ now turn state others, Keeps agreement terms routine now turn state others →
      Keeps agreement terms' next now turn state others) :
    Keeps agreement terms' (.wait due abandon next) now turn state others := by
  obtain ⟨own, hown, hholds, hwait⟩ := h
  refine ⟨own, hduring own hown, hholds, fun others now turn state hnow => ?_⟩
  obtain ⟨⟨rest, hrest, habandon⟩, hgoes⟩ := hwait others now turn state hnow
  exact ⟨⟨rest, hleft rest hrest, habandon⟩, hgoes.mono fun time => hnext time turn state others⟩

theorem keeps_mapResult {f : Result α → Result β}
    (h : Keeps agreement ⟨terms'.during, terms'.left, fun result => terms'.settled (f result)⟩
      routine now turn state others) :
    Keeps agreement terms' (routine.mapResult f) now turn state others := by
  induction routine generalizing now turn state others with
  | halt => exact h
  | settle result rest ih =>
      obtain ⟨rfl, own, hsettled, hholds⟩ := h
      exact ⟨rfl, own, hsettled, hholds⟩
  | act update next ih => exact ih state h
  | record entry next ih => exact ih h
  | moment next ih => exact ih now turn h
  | wait due abandon next ih => exact h.wait (fun _ => id) (fun _ => id) fun _ _ _ _ => ih

theorem Keeps.mono {terms' : Terms α G} (h : Keeps agreement terms routine now turn state others)
    (hduring : ∀ own, terms.during own → terms'.during own)
    (hleft : ∀ rest, terms.left rest → terms'.left rest)
    (hsettled : ∀ result own, terms.settled result own → terms'.settled result own) :
    Keeps agreement terms' routine now turn state others := by
  induction routine generalizing now turn state others with
  | halt => exact h
  | settle result rest ih =>
      obtain ⟨rfl, own, hown, hholds⟩ := h
      exact ⟨rfl, own, hsettled result own hown, hholds⟩
  | act update next ih => exact ih state h
  | record entry next ih => exact ih h
  | moment next ih => exact ih now turn h
  | wait due abandon next ih => exact h.wait hduring hleft fun _ _ _ _ => ih

theorem Stands.mono {terms' : Terms α G} (h : Stands agreement terms own routine)
    (hduring : ∀ own, terms.during own → terms'.during own)
    (hleft : ∀ rest, terms.left rest → terms'.left rest)
    (hsettled : ∀ result own, terms.settled result own → terms'.settled result own) :
    Stands agreement terms' own routine :=
  fun others now turn state hholds =>
    (h others now turn state hholds).mono hduring hleft hsettled

theorem keeps_bind {f : α → Routine τ σ β}
    (h : Keeps agreement ⟨terms'.during, terms'.left, settled⟩ routine now turn state others)
    (hvalue : ∀ value own, settled (.ok value) own → Stands agreement terms' own (f value))
    (hfailure : ∀ failure own, settled (.error failure) own →
      terms'.settled (.error failure) own) :
    Keeps agreement terms' (routine.bind f) now turn state others := by
  induction routine generalizing now turn state others with
  | halt => exact h.elim
  | settle result rest ih =>
      obtain ⟨rfl, own, hown, hholds⟩ := h
      cases result with
      | ok value => exact hvalue value own hown others now turn state hholds
      | error failure => exact ⟨rfl, own, hfailure failure own hown, hholds⟩
  | act update next ih => exact ih state h
  | record entry next ih => exact ih h
  | moment next ih => exact ih now turn h
  | wait due abandon next ih => exact h.wait (fun _ => id) (fun _ => id) fun _ _ _ _ => ih

theorem stands_bind {f : α → Routine τ σ β}
    (h : Stands agreement ⟨terms'.during, terms'.left, settled⟩ own routine)
    (hvalue : ∀ value own, settled (.ok value) own → Stands agreement terms' own (f value))
    (hfailure : ∀ failure own, settled (.error failure) own →
      terms'.settled (.error failure) own) : Stands agreement terms' own (routine.bind f) :=
  fun others now turn state hholds =>
    keeps_bind (h others now turn state hholds) hvalue hfailure

theorem stands_ofResult {result : Result α} (h : terms.settled result own) :
    Stands agreement terms own (ofResult result) :=
  fun _ _ _ _ hholds => ⟨rfl, own, h, hholds⟩

theorem stands_wait {due : σ → Option (Turn τ)} {abandon : τ → Nat → σ → σ}
    (hduring : terms.during own)
    (habandon : ∀ others now turn state, agreement.holds (own + others) now turn state →
      ∃ rest, terms.left rest ∧
        agreement.holds (rest + others) now turn (abandon now turn state))
    (hnever : ∀ state, due state = none → agreement.stalled own state)
    (hnext : ∀ others now turn state, agreement.holds (own + others) now turn state →
      ∀ found, due state = some found → ∀ time, agreement.pace.before now time →
        agreement.pace.before found.1 time → Keeps agreement terms routine time turn state others) :
    Stands agreement terms own (.wait due abandon routine) := by
  refine fun others now turn state hholds => ⟨own, hduring, hholds, ?_⟩
  refine fun others now turn state hnow => ⟨habandon others now turn state hnow, ?_⟩
  cases hdue : due state with
  | none => exact hnever state hdue
  | some found => exact hnext others now turn state hnow found hdue

theorem stands_yielding (h : Stands agreement terms own routine) (hduring : terms.during own)
    (hleft : terms.left own) : Stands agreement terms own (yielding routine) := by
  intro others now turn state hholds
  refine stands_wait hduring (fun others now turn state hnow => ⟨own, hleft, hnow⟩) ?_ ?_ others now
    (turn + 1) state (agreement.holds_turn hholds)
  · rintro state ⟨⟩
  · intro others now turn state hnow found _ time htime _
    exact h others time turn state (agreement.holds_time htime hnow)

theorem keeps_settleLater (h : Keeps agreement terms routine now turn state others)
    (hduring : ∀ result own, terms.settled result own → terms.during own)
    (hleft : ∀ result own, terms.settled result own → terms.left own) :
    Keeps agreement terms routine.settleLater now turn state others := by
  induction routine generalizing now turn state others with
  | halt => exact h
  | settle result rest ih =>
      obtain ⟨rfl, own, hown, hholds⟩ := h
      have hsettles : Stands agreement terms own (.settle result .halt) := stands_ofResult hown
      exact stands_yielding hsettles (hduring result own hown) (hleft result own hown) others now
        turn state hholds
  | act update next ih => exact ih state h
  | record entry next ih => exact ih h
  | moment next ih => exact ih now turn h
  | wait due abandon next ih => exact h.wait (fun _ => id) (fun _ => id) fun _ _ _ _ => ih

/-- A release takes the share with which a routine settles, or is abandoned, to another one. -/
theorem keeps_releasing {terms' : Terms α G} {release : τ → Nat → σ → σ}
    (h : Keeps agreement ⟨terms'.during, left, settled⟩ routine now turn state others)
    (hrelease : ∀ result own, settled result own → ∀ others now turn state,
      agreement.holds (own + others) now turn state →
        ∃ own', terms'.settled result own' ∧
          agreement.holds (own' + others) now turn (release now turn state))
    (habandon : ∀ own, left own → ∀ others now turn state,
      agreement.holds (own + others) now turn state →
        ∃ own', terms'.left own' ∧
          agreement.holds (own' + others) now turn (release now turn state)) :
    Keeps agreement terms' (routine.releasing release) now turn state others := by
  induction routine generalizing now turn state others with
  | halt => exact h
  | settle result rest ih =>
      obtain ⟨rfl, own, hown, hholds⟩ := h
      obtain ⟨own', hown', hholds'⟩ := hrelease result own hown others now turn state hholds
      exact ⟨rfl, own', hown', agreement.holds_turn hholds'⟩
  | act update next ih => exact ih state h
  | record entry next ih => exact ih h
  | moment next ih => exact ih now turn h
  | wait due abandon next ih =>
      obtain ⟨own, hown, hholds, hwait⟩ := h
      refine ⟨own, hown, hholds, fun others now turn state hnow => ?_⟩
      obtain ⟨⟨rest, hrest, hleave⟩, hgoes⟩ := hwait others now turn state hnow
      exact ⟨habandon rest hrest others now turn _ hleave, hgoes.mono fun time => ih⟩

/-- The routine, when it goes on and when it is abandoned, leaves alone what a view shows of the
state. -/
def Spares {γ : Type} (view : σ → γ) : Routine τ σ α → Prop
  | .halt => True
  | .settle _ rest => Spares view rest
  | .act update next =>
    (∀ state, view (update state) = view state) ∧ ∀ state, Spares view (next state)
  | .record _ next => Spares view next
  | .moment next => ∀ now turn, Spares view (next now turn)
  | .wait _ abandon next =>
    (∀ now turn state, view (abandon now turn state) = view state) ∧ Spares view next

/-- The routine waits for nobody, and is over with a result as `P` says. -/
def Delivers (P : Result α → Prop) : Routine τ σ α → Prop
  | .halt => False
  | .settle result rest => P result ∧ rest = .halt
  | .act _ next => ∀ state, Delivers P (next state)
  | .record _ next => Delivers P next
  | .moment next => ∀ now turn, Delivers P (next now turn)
  | .wait due _ next => (∀ state, (due state).isSome = true) ∧ Delivers P next

/-- A routine that leaves alone what an agreement is about keeps it with any share. -/
theorem stands_spares {γ : Type} {view : σ → γ} {P : Result α → Prop}
    (hview : ∀ total now turn state state', view state' = view state →
      agreement.holds total now turn state → agreement.holds total now turn state')
    (hspares : Spares view routine) (hdelivers : Delivers P routine) (hduring : terms.during own)
    (hleft : terms.left own) (hsettled : ∀ result, P result → terms.settled result own) :
    Stands agreement terms own routine := by
  induction routine with
  | halt => exact hdelivers.elim
  | settle result rest ih =>
      obtain ⟨hresult, rfl⟩ := hdelivers
      exact stands_ofResult (hsettled result hresult)
  | act update next ih =>
      intro others now turn state hholds
      exact ih state (hspares.2 state) (hdelivers state) others now turn _
        (hview _ now turn state _ (hspares.1 state) hholds)
  | record entry next ih => exact ih hspares hdelivers
  | moment next ih =>
      intro others now turn state hholds
      exact ih now turn (hspares now turn) (hdelivers now turn) others now (turn + 1) state
        (agreement.holds_turn hholds)
  | wait due abandon next ih =>
      refine stands_wait hduring ?_ ?_ ?_
      · intro others now turn state hholds
        exact ⟨own, hleft, hview _ now turn state _ (hspares.1 now turn state) hholds⟩
      · intro state hdue
        have hsome := hdelivers.1 state
        rw [hdue] at hsome
        cases hsome
      · intro others now turn state hholds found _ time htime _
        exact ih hspares.2 hdelivers.2 others time turn state (agreement.holds_time htime hholds)

/-! ### Side by side -/

/-- A routine settles with a value and no share, and owes nothing until then. -/
def gives (value : α) : Terms α G where
  during _ := True
  left _ := True
  settled result own := result = .ok value ∧ own = 0

/-- Whoever runs beside it, the routine comes to a value. -/
def ComesTo (agreement : Agreement τ σ G) (value : α) (routine : Routine τ σ α) : Prop :=
  Stands agreement (gives value) 0 routine

section Sides

variable {value : α} {value' : β} {right : Routine τ σ β}

theorem keeps_mapResult_gives {f : Result α → Result β} (hf : f (.ok value) = .ok value')
    (h : Keeps agreement (gives value) routine now turn state others) :
    Keeps agreement (gives value') (routine.mapResult f) now turn state others := by
  refine keeps_mapResult (h.mono (fun _ => id) (fun _ => id) fun result own => ?_)
  rintro ⟨rfl, rfl⟩
  exact ⟨hf, rfl⟩

theorem keeps_leftFound (h : Keeps agreement (gives value') right now turn state others) :
    Keeps agreement (gives (value, value'))
      (collectBoth (some value) none (merge .halt right)) now turn state others := by
  induction right generalizing now turn state others with
  | halt => exact h
  | settle result rest ih =>
      obtain ⟨rfl, own, ⟨rfl, rfl⟩, hholds⟩ := h
      exact ⟨rfl, 0, ⟨rfl, rfl⟩, hholds⟩
  | act update next ih => exact ih state h
  | record entry next ih => exact ih h
  | moment next ih => exact ih now turn h
  | wait due abandon next ih => exact h.wait (fun _ => id) (fun _ => id) fun _ _ _ _ => ih

theorem keeps_rightFound (h : Keeps agreement (gives value) routine now turn state others) :
    Keeps agreement (gives (value, value'))
      (collectBoth none (some value') (merge routine .halt)) now turn state others := by
  induction routine generalizing now turn state others with
  | halt => exact h
  | settle result rest ih =>
      obtain ⟨rfl, own, ⟨rfl, rfl⟩, hholds⟩ := h
      exact ⟨rfl, 0, ⟨rfl, rfl⟩, hholds⟩
  | act update next ih => exact ih state h
  | record entry next ih => exact ih h
  | moment next ih => exact ih now turn h
  | wait due abandon next ih => exact h.wait (fun _ => id) (fun _ => id) fun _ _ _ _ => ih

/-- By induction on both sides: while one side goes on, the other one waits with its share, and the
share stands for all that the first side has to know of it. -/
theorem keeps_join
    (hleft : Keeps agreement (gives value) routine now turn state (own + others))
    (hright : Stands agreement (gives value') own right) :
    Keeps agreement (gives (value, value')) (join routine right) now turn state others := by
  unfold join
  induction routine generalizing right own now turn state others with
  | halt => exact hleft.elim
  | settle result rest ih =>
      obtain ⟨rfl, own', ⟨rfl, rfl⟩, hholds⟩ := hleft
      rw [zero_add] at hholds
      exact keeps_leftFound (hright others now turn state hholds)
  | act update next ih => exact ih state hleft hright
  | record entry next ih => exact ih hleft hright
  | moment next ih => exact ih now turn hleft hright
  | wait due abandon next ihLeft =>
      obtain ⟨mine, -, hholds, hmine⟩ := hleft
      rw [add_left_comm] at hholds
      have hgoes := hright (mine + others) now turn state hholds
      clear hright hholds own
      induction right generalizing now turn state others with
      | halt => exact hgoes.elim
      | settle result rest ih =>
          obtain ⟨rfl, own', ⟨rfl, rfl⟩, hholds⟩ := hgoes
          rw [zero_add] at hholds
          have hgoes : Keeps agreement (gives value) (.wait due abandon next) now turn state others :=
            ⟨mine, trivial, hholds, hmine⟩
          exact keeps_rightFound hgoes
      | act update next' ih => exact ih state hgoes
      | record entry next' ih => exact ih hgoes
      | moment next' ih => exact ih now turn hgoes
      | wait due' abandon' next' ih =>
          obtain ⟨theirs, -, hholds, htheirs⟩ := hgoes
          refine ⟨mine + theirs, trivial, by rwa [add_assoc, add_left_comm], ?_⟩
          intro others now turn state hnow
          have hforMine : agreement.holds (mine + (theirs + others)) now turn state := by
            rwa [← add_assoc]
          have hforTheirs : agreement.holds (theirs + (mine + others)) now turn state := by
            rwa [add_left_comm, ← add_assoc]
          obtain ⟨⟨rest, -, hleave⟩, hgoesMine⟩ := hmine _ _ _ _ hforMine
          obtain ⟨-, hgoesTheirs⟩ := htheirs _ _ _ _ hforTheirs
          constructor
          · obtain ⟨⟨rest', -, hleave'⟩, -⟩ :=
              htheirs (rest + others) now turn _ (by rwa [add_left_comm])
            exact ⟨rest + rest', trivial, by rwa [add_assoc, add_left_comm]⟩
          · have hwaits : Stands agreement (gives value') theirs (.wait due' abandon' next') :=
              fun _ _ _ _ hholds => ⟨theirs, trivial, hholds, htheirs⟩
            have hnextMine := hgoesMine.mono fun time hgoes => ihLeft hgoes hwaits
            have hnextTheirs := hgoesTheirs.mono fun time hgoes => ih hgoes
            exact whenDue_earliest (fun rest time => Keeps agreement (gives (value, value'))
              (collectBoth none none rest) time turn state others) hnextMine hnextTheirs

theorem comesTo_succeed (value : α) : ComesTo agreement value (succeed value : Routine τ σ α) :=
  stands_ofResult ⟨rfl, rfl⟩

theorem comesTo_note (entry : Journal.Record) :
    ComesTo agreement () (note entry : Routine τ σ Unit) :=
  fun _ _ _ _ hholds => ⟨rfl, 0, ⟨rfl, rfl⟩, hholds⟩

theorem comesTo_notes (entries : List Journal.Record) :
    ComesTo agreement () (notes entries : Routine τ σ Unit) := by
  induction entries with
  | nil => exact comesTo_succeed ()
  | cons entry rest ih => exact ih

theorem ComesTo.map (h : ComesTo agreement value routine) (f : α → β) :
    ComesTo agreement (f value) (routine.map f) :=
  fun others now turn state hholds => keeps_mapResult_gives rfl (h others now turn state hholds)

theorem ComesTo.bind {f : α → Routine τ σ β} (h : ComesTo agreement value routine)
    (hf : ComesTo agreement value' (f value)) : ComesTo agreement value' (routine.bind f) := by
  refine stands_bind h ?_ ?_
  · rintro found own ⟨⟨⟩, rfl⟩
    exact hf
  · rintro failure own ⟨⟨⟩, -⟩

theorem ComesTo.spawned (h : ComesTo agreement value routine) :
    ComesTo agreement value (Routine.spawned routine) :=
  fun others now turn state hholds =>
    keeps_settleLater (stands_yielding h trivial trivial others now turn state hholds)
      (fun _ _ _ => trivial) fun _ _ _ => trivial

theorem ComesTo.join (hleft : ComesTo agreement value routine)
    (hright : ComesTo agreement value' right) :
    ComesTo agreement (value, value') (join routine right) := by
  intro others now turn state hholds
  exact keeps_join (hleft (0 + others) now turn state (by rwa [zero_add])) hright

end Sides

section Lists

variable {γ : Type} {values : List α} {routines : List (Routine τ σ α)}

theorem comesTo_joinAll (h : List.Forall₂ (ComesTo agreement) values routines) :
    ComesTo agreement values (joinAll routines) := by
  induction h with
  | nil => exact comesTo_succeed []
  | cons hfirst hrest ih =>
      cases hrest with
      | nil => exact hfirst.map ([·])
      | cons _ _ => exact (hfirst.join ih).map fun pair => pair.1 :: pair.2

/-- Routines that run at once give their values in order, whichever ends first. -/
theorem comesTo_all (h : List.Forall₂ (ComesTo agreement) values routines) :
    ComesTo agreement values (all routines) := by
  have hspawned : List.Forall₂ (ComesTo agreement) values (routines.map spawned) :=
    List.forall₂_map_right_iff.mpr (h.imp fun _ _ => ComesTo.spawned)
  unfold all
  cases h with
  | nil => exact comesTo_succeed []
  | cons hfirst hrest =>
      intro others now turn state hholds
      exact keeps_settleLater (comesTo_joinAll hspawned others now turn state hholds)
        (fun _ _ _ => trivial) fun _ _ _ => trivial

/-- The routines of a list, one after the other. -/
theorem comesTo_mapM {f : γ → Routine τ σ α} {items : List γ}
    (h : List.Forall₂ (ComesTo agreement) values (items.map f)) :
    ComesTo agreement values (items.mapM f) := by
  rw [List.forall₂_map_right_iff] at h
  suffices hloop : ∀ done, ComesTo agreement (done.reverse ++ values)
      (List.mapM.loop f items done) from hloop []
  induction h with
  | nil =>
      intro done
      rw [List.append_nil]
      exact comesTo_succeed done.reverse
  | @cons value item _ _ hfirst _ ih =>
      intro done
      refine hfirst.bind ?_
      simpa using ih (value :: done)

end Lists

/-! ### On its own -/

/-- Nobody else is there to wait for, so a run settles. -/
theorem run_keeps {progress : Progress τ σ}
    (h : Keeps agreement terms routine progress.now progress.turn progress.state 0) :
    ∃ result own, (routine.run progress).result = some result ∧ terms.settled result own ∧
      agreement.holds own (routine.run progress).final.now (routine.run progress).final.turn
        (routine.run progress).final.state := by
  induction routine generalizing progress with
  | halt => exact h.elim
  | settle result rest ih =>
      obtain ⟨-, own, hown, hholds⟩ := h
      rw [add_zero] at hholds
      exact ⟨result, own, rfl, hown, hholds⟩
  | act update next ih =>
      exact @ih progress.state { progress with state := update progress.state } h
  | record entry next ih =>
      exact @ih { progress with journal := entry :: progress.journal } h
  | moment next ih =>
      exact @ih progress.now progress.turn { progress with turn := progress.turn + 1 } h
  | wait due abandon next ih =>
      obtain ⟨own, -, hholds, hwait⟩ := h
      obtain ⟨-, hgoes⟩ := hwait 0 _ _ _ hholds
      unfold run
      cases hdue : due progress.state with
      | none =>
          rw [hdue] at hgoes
          rw [add_zero] at hholds
          exact absurd hgoes (agreement.not_stalled hholds)
      | some found =>
          rw [hdue] at hgoes
          exact @ih { progress with now := later progress.now found.1 }
            (hgoes _ (agreement.pace.later_left _ _) (agreement.pace.later_right _ _))

theorem ComesTo.run {value : α} (h : ComesTo agreement value routine) {progress : Progress τ σ}
    (hholds : agreement.holds 0 progress.now progress.turn progress.state) :
    (routine.run progress).result = some (.ok value) ∧
      agreement.holds 0 (routine.run progress).final.now (routine.run progress).final.turn
        (routine.run progress).final.state := by
  obtain ⟨result, own, hresult, ⟨rfl, rfl⟩, hfinal⟩ := run_keeps (h 0 _ _ _ (by rwa [add_zero]))
  exact ⟨hresult, hfinal⟩

end Routine

end ProgramAudit
