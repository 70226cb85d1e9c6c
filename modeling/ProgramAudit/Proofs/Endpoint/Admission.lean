import ProgramAudit.Proofs.Endpoint.Permits

/-!
Entering a limiter. A routine that waits for a permit, for the gate or for the span to be over keeps
the books with the share that it has at the time, and ends up with the share that it came for.
-/

namespace ProgramAudit

/-- A state as a part of itself. -/
def Part.itself {σ : Type} : Part σ σ where
  get := id
  set value _ := value

/-- What is written to a part is what is read from it. -/
structure Part.Lawful {σ β : Type} (part : Part σ β) : Prop where
  get_set : ∀ value state, part.get (part.set value state) = value

namespace Part.Lawful

variable {σ β γ : Type} {part : Part σ β}

theorem itself : (Part.itself : Part σ σ).Lawful := ⟨fun _ _ => rfl⟩

theorem get_modify (h : part.Lawful) (update : β → β) (state : σ) :
    part.get (part.modify update state) = update (part.get state) :=
  h.get_set _ state

theorem inside (h : part.Lawful) {inner : Part β γ} (hinner : inner.Lawful) :
    (part.inside inner).Lawful where
  get_set value state := by
    change inner.get (part.get (part.modify (inner.set value) state)) = value
    rw [h.get_modify, hinner.get_set]

end Part.Lawful

namespace Endpoint

open Routine

/-- A limiter in a state, with what else is always true of the state. -/
structure Setting (τ σ : Type) [Clock τ] where
  pace : Pace τ
  part : Part σ (Limiter τ)
  lawful : part.Lawful
  permits : Nat
  positive : 0 < permits
  spacing : Number
  aside : σ → Prop
  aside_modify : ∀ update state, aside state → aside (part.modify update state)

variable {τ σ α : Type} [Clock τ]

/-- Those who deal with a limiter agree on its books. -/
def Setting.books (setting : Setting τ σ) : Agreement τ σ (Share τ) where
  pace := setting.pace
  holds total now turn state :=
    Accounts setting.pace setting.permits setting.spacing total now turn
      (setting.part.get state) ∧ setting.aside state
  stalled own state := Stalled own (setting.part.get state)
  holds_turn h := ⟨h.1.later_turn, h.2⟩
  holds_time htime h := ⟨h.1.later_time htime, h.2⟩
  stalled_add := .add
  not_stalled h := h.1.not_stalled setting.positive

variable {setting : Setting τ σ} {own own' others : Share τ} {now : τ} {turn : Nat} {state : σ}
  {known : τ → τ → Prop}

theorem holds_modify {update : Limiter τ → Limiter τ} {now' : τ} {turn' : Nat}
    (h : setting.books.holds own now turn state)
    (hupdate : Accounts setting.pace setting.permits setting.spacing own now turn
      (setting.part.get state) → Accounts setting.pace setting.permits setting.spacing own' now'
        turn' (update (setting.part.get state))) :
    setting.books.holds own' now' turn' (setting.part.modify update state) := by
  refine ⟨?_, setting.aside_modify update state h.2⟩
  rw [setting.lawful.get_modify]
  exact hupdate h.1

/-! ### Permits -/

/-- Whoever waits in line holds no permit; who has been called comes back with one. -/
def permitTerms (τ : Type) : Terms Unit (Share τ) where
  during own := own.permits = 0
  left rest := rest = 0
  settled result own := result = .ok () ∧ own = .permit

omit [Clock τ] in
theorem stalled_queued {limiter : Limiter τ} {ticket : Nat}
    (huncalled : limiter.line.turnOf ticket = none) : Stalled (.queued ticket) limiter where
  waiting := .inl (by simp [Share.queued])
  line other hother := by
    rw [Multiset.mem_singleton.mp hother, Line.isCalled, huncalled]
    rfl
  gateLine other hother := absurd hother (Multiset.notMem_zero other)
  gates := rfl
  permits := rfl

theorem stands_lineUp (ticket : Nat) :
    Stands setting.books (permitTerms τ) (.queued ticket) (Limiter.lineUp setting.part ticket) := by
  refine stands_wait rfl ?_ (fun state => stalled_queued) ?_
  · intro others now turn state hholds
    refine ⟨0, rfl, ?_⟩
    rw [zero_add]
    exact holds_modify hholds fun h => h.giveUp
  · intro others now turn state hholds found hdue time htime _
    have hcalled : (setting.part.get state).line.isCalled ticket = true := by
      rw [Line.isCalled, hdue, Option.isSome_some]
    exact ⟨rfl, .permit, ⟨rfl, rfl⟩, holds_modify hholds fun h =>
      ((h.proceed hcalled).later_time htime).later_turn⟩

theorem stands_awaitPermit :
    Stands setting.books (permitTerms τ) 0 (Limiter.awaitPermit setting.part) := by
  intro others now turn state hholds
  rw [zero_add] at hholds
  change Keeps _ _ (if (setting.part.get state).hasRoom = true then succeed ()
    else _) now (turn + 1) (setting.part.modify (Limiter.enter turn) state) others
  cases hroom : (setting.part.get state).hasRoom with
  | true =>
      rw [if_pos rfl]
      exact ⟨rfl, .permit, ⟨rfl, rfl⟩, holds_modify hholds fun h => (h.enter_room hroom).later_turn⟩
  | false =>
      rw [if_neg Bool.false_ne_true]
      exact stands_lineUp turn others now (turn + 1) _
        (holds_modify hholds fun h => h.enter_line hroom)

/-! ### The gate -/

/-- Whoever waits before the gate holds a permit all the time. -/
def gateTerms (τ : Type) : Terms Unit (Share τ) where
  during own := own.permits = 1
  left rest := rest = .permit
  settled result own := result = .ok () ∧ own = .permit + .gate fun _ _ => True

omit [Clock τ] in
theorem stalled_gateQueued {limiter : Limiter τ} {ticket : Nat}
    (huncalled : limiter.gateLine.turnOf ticket = none) :
    Stalled (.permit + .gateQueued ticket) limiter where
  waiting := .inr (by simp [Share.permit, Share.gateQueued])
  line other hother := absurd hother (Multiset.notMem_zero other)
  gateLine other hother := by
    have hticket : other = ticket := by simpa [Share.permit, Share.gateQueued] using hother
    rw [hticket, Line.isCalled, huncalled]
    rfl
  gates := rfl
  permits := rfl

theorem stands_lineUpGate (ticket : Nat) :
    Stands setting.books (gateTerms τ) (.permit + .gateQueued ticket)
      (Limiter.lineUpGate setting.part ticket) := by
  refine stands_wait rfl ?_ (fun state => stalled_gateQueued) ?_
  · intro others now turn state hholds
    rw [add_assoc, add_left_comm] at hholds
    exact ⟨.permit, rfl, holds_modify hholds fun h => h.giveUpGate⟩
  · intro others now turn state hholds found hdue time htime _
    rw [add_assoc, add_left_comm] at hholds
    have hcalled : (setting.part.get state).gateLine.isCalled ticket = true := by
      rw [Line.isCalled, hdue, Option.isSome_some]
    refine ⟨rfl, _, ⟨rfl, rfl⟩, holds_modify hholds fun h => ?_⟩
    rw [add_assoc, add_left_comm]
    exact (h.proceedGate hcalled).later_time htime

theorem stands_awaitGate :
    Stands setting.books (gateTerms τ) .permit (Limiter.awaitGate setting.part) := by
  intro others now turn state hholds
  change Keeps _ _ (if (setting.part.get state).isOpen = true then succeed ()
    else _) now (turn + 1) (setting.part.modify (Limiter.enterGate turn) state) others
  cases hopen : (setting.part.get state).isOpen with
  | true =>
      rw [if_pos rfl]
      refine ⟨rfl, _, ⟨rfl, rfl⟩, holds_modify hholds fun h => ?_⟩
      rw [add_assoc, add_left_comm]
      exact (h.enterGate_open hopen).later_turn
  | false =>
      rw [if_neg Bool.false_ne_true]
      refine stands_lineUpGate turn others now (turn + 1) _ (holds_modify hholds fun h => ?_)
      rw [add_assoc, add_left_comm]
      exact h.enterGate_line hopen

/-! ### The span between starts -/

/-- The span since the last start is over. -/
def IsOver (setting : Setting τ σ) (lastStart now : τ) : Prop :=
  setting.pace.before (lastStart + Clock.seconds setting.spacing) now

/-- Whoever waits in the gate holds a permit and the gate, and goes on once the span is over. -/
def spanTerms (setting : Setting τ σ) : Terms Unit (Share τ) where
  during own := own.permits = 1
  left rest := ∃ known, rest = .permit + .gate known
  settled
    | .ok (), own => own = .permit + .gate (IsOver setting)
    | .error _, own =>
      setting.spacing.toReal?.isSome = false ∧ ∃ known, own = .permit + .gate known

theorem holds_learn {known' : τ → τ → Prop}
    (h : setting.books.holds (.permit + .gate known + others) now turn state)
    (hknown : ∀ time, setting.pace.before now time →
      known' (setting.part.get state).lastStart time) :
    setting.books.holds (.permit + .gate known' + others) now turn state := by
  rw [add_assoc, add_left_comm] at h ⊢
  exact ⟨h.1.learn hknown, h.2⟩

theorem known_of_holds (h : setting.books.holds (.permit + .gate known + others) now turn state) :
    known (setting.part.get state).lastStart now := by
  refine h.1.gateBooks.known known ?_ now (setting.pace.refl now)
  simp [Share.gate]

theorem keeps_over (hholds : setting.books.holds (.permit + .gate known + others) now turn state)
    (hover : IsOver setting (setting.part.get state).lastStart now) :
    Keeps setting.books (spanTerms setting) (succeed ()) now turn state others :=
  ⟨rfl, _, rfl, holds_learn hholds fun _ => setting.pace.trans hover⟩

/-- Sleeping for what is missing of the span ends after it. -/
theorem keeps_sleepFor {rest : τ}
    (hholds : setting.books.holds (.permit + .gate known + others) now turn state)
    (hrest : ∀ time, setting.pace.before (now + rest) time →
      IsOver setting (setting.part.get state).lastStart time) :
    Keeps setting.books (spanTerms setting) (sleepFor rest) now turn state others := by
  -- What is known while sleeping: whatever comes after the sleep comes after the span.
  let wakes : τ → τ → Prop := fun lastStart _ =>
    ∀ time, setting.pace.before (now + rest) time → IsOver setting lastStart time
  have hslept : setting.books.holds (.permit + .gate wakes + others) now (turn + 1) state :=
    holds_learn (setting.books.holds_turn hholds) fun _ _ => hrest
  have hsettles : Stands setting.books (spanTerms setting) (.permit + .gate (IsOver setting))
      (succeed ()) := fun _ _ _ _ hholds => keeps_over hholds (known_of_holds hholds)
  have hsleeps : Stands setting.books (spanTerms setting) (.permit + .gate wakes)
      (.wait (fun _ => some (now + rest, turn)) Routine.leave pause) := by
    refine stands_wait rfl (fun _ _ _ _ hholds => ⟨_, ⟨wakes, rfl⟩, hholds⟩) ?_ ?_
    · rintro state ⟨⟩
    · intro others now' turn' state hholds found hfound time htime hdue
      cases hfound
      have hover : setting.books.holds (.permit + .gate (IsOver setting) + others) time turn'
          state :=
        holds_learn (setting.books.holds_time htime hholds) fun later hlater =>
          known_of_holds hholds later (setting.pace.trans hdue hlater)
      exact stands_yielding hsettles rfl ⟨_, rfl⟩ others time turn' state hover
  exact hsleeps others now (turn + 1) state hslept

/-- Sleeps off what is missing of a span, if anything is. -/
def sleepOff (rest : τ) : Routine τ σ Unit :=
  if !Clock.notAfter rest (Clock.seconds 0) then sleepFor rest else succeed ()

theorem awaitSpan_eq (part : Part σ (Limiter τ)) :
    Limiter.awaitSpan part = .moment fun now _ => .act id fun state =>
      Routine.bind sleepOff (ofResult ((part.get state).delay now)) :=
  rfl

theorem stands_awaitSpan :
    Stands setting.books (spanTerms setting) (.permit + .gate known)
      (Limiter.awaitSpan setting.part) := by
  intro others now turn state hholds
  have hspacing : (setting.part.get state).spacing = setting.spacing := hholds.1.spaced
  have hlater := setting.books.holds_turn hholds
  rw [awaitSpan_eq]
  change Keeps _ _ (Routine.bind sleepOff (ofResult ((setting.part.get state).delay now))) now
    (turn + 1) state others
  rw [Limiter.delay, Clock.span, hspacing]
  cases hrange : setting.spacing.toReal?.isSome with
  | false =>
      exact ⟨rfl, _, ⟨hrange, known, rfl⟩, hlater⟩
  | true =>
      change Keeps _ _ (sleepOff _) _ _ _ _
      unfold sleepOff
      split
      · exact keeps_sleepFor hlater fun _ => setting.pace.slept
      · rename_i hpast
        exact keeps_over hlater (setting.pace.passed (by simpa using hpast))

/-! ### Through the gate -/

/-- Whoever is in the gate holds a permit besides. -/
def inGate (τ : Type) : Terms Unit (Share τ) where
  during _ := True
  left rest := ∃ known, rest = .permit + .gate known
  settled result own := result = .ok () ∧ ∃ known, own = .permit + .gate known

/-- Whoever enters comes in with a permit. -/
def entered (τ : Type) : Terms Unit (Share τ) where
  during _ := True
  left _ := True
  settled result own := result = .ok () ∧ own = .permit

theorem stands_recordStart :
    Stands setting.books (inGate τ) (.permit + .gate known) (Limiter.recordStart setting.part) := by
  intro others now turn state hholds
  rw [add_assoc, add_left_comm] at hholds
  refine ⟨rfl, .permit + .gate fun _ _ => True, ⟨rfl, _, rfl⟩, holds_modify hholds fun h => ?_⟩
  rw [add_assoc, add_left_comm]
  exact (h.start fun _ _ => trivial).later_turn

variable (hrange : setting.spacing.toReal?.isSome = true)

include hrange

theorem stands_awaitStart :
    Stands setting.books (inGate τ) (.permit + .gate known)
      (Limiter.awaitStart setting.part) := by
  refine stands_bind (stands_awaitSpan.mono (fun _ _ => trivial) (fun _ => id) fun _ _ => id) ?_ ?_
  · rintro ⟨⟩ own rfl
    exact stands_recordStart
  · rintro failure own ⟨hout, -⟩
    rw [hrange] at hout
    cases hout

theorem stands_pass : Stands setting.books (entered τ) .permit (Limiter.pass setting.part) := by
  refine stands_bind (stands_awaitGate.mono (fun _ _ => trivial) (fun _ _ => trivial)
    fun _ _ => id) ?_ ?_
  · rintro ⟨⟩ own ⟨-, rfl⟩ others now turn state hholds
    refine keeps_releasing (stands_awaitStart hrange others now turn state hholds) ?_ ?_
    · rintro result own ⟨rfl, known, rfl⟩ others now turn state hholds
      rw [add_assoc, add_left_comm] at hholds
      exact ⟨.permit, ⟨rfl, rfl⟩, holds_modify hholds fun h => h.leaveGate⟩
    · rintro own ⟨known, rfl⟩ others now turn state hholds
      rw [add_assoc, add_left_comm] at hholds
      exact ⟨.permit, trivial, holds_modify hholds fun h => h.leaveGate⟩
  · rintro failure own ⟨⟨⟩, -⟩

theorem stands_admission :
    Stands setting.books (entered τ) 0 (Limiter.admission setting.part) := by
  refine stands_bind (stands_awaitPermit.mono (fun _ _ => trivial) (fun _ _ => trivial)
    fun _ _ => id) ?_ ?_
  · rintro ⟨⟩ own ⟨-, rfl⟩ others now turn state hholds
    change Keeps _ _ (if (setting.part.get state).isSpaced = true then _ else succeed ()) now turn
      state others
    split
    · exact stands_pass hrange others now turn state hholds
    · exact ⟨rfl, .permit, ⟨rfl, rfl⟩, hholds⟩
  · rintro failure own ⟨⟨⟩, -⟩

/-- Within the limits of a limiter a body settles as it does with a permit in hand. -/
theorem stands_limited {P : Result α → Prop} {body : Routine τ σ α}
    (hbody : Stands setting.books
      ⟨fun _ => True, fun rest => rest = .permit, fun result own => P result ∧ own = .permit⟩
      .permit body) :
    Stands setting.books ⟨fun _ => True, fun _ => True, fun result own => P result ∧ own = 0⟩ 0
      (Limiter.limited setting.part body) := by
  refine stands_bind (stands_admission hrange) ?_ ?_
  · rintro ⟨⟩ own ⟨-, rfl⟩ others now turn state hholds
    refine keeps_releasing (hbody others now turn state hholds) ?_ ?_
    · rintro result own ⟨hresult, rfl⟩ others now turn state hholds
      refine ⟨0, ⟨hresult, rfl⟩, ?_⟩
      rw [zero_add]
      exact holds_modify hholds fun h => h.leave
    · rintro own rfl others now turn state hholds
      refine ⟨0, trivial, ?_⟩
      rw [zero_add]
      exact holds_modify hholds fun h => h.leave
  · rintro failure own ⟨⟨⟩, -⟩

end Endpoint

end ProgramAudit
