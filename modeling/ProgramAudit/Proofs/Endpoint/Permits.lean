import ProgramAudit.Proofs.Endpoint.Line
import ProgramAudit.Proofs.Routine.Shares

/-!
The books of a limiter. Everyone who deals with it holds a share: a place in one of its lines, a
permit, or the gate. The books say how the shares of all add up in the limiter, and every operation
of the limiter moves exactly the share of the one who performs it.
-/

namespace ProgramAudit.Endpoint

/-- What somebody holds of a limiter: places in the line for permits, permits, places in the line
before the gate, and the gate, with what is known in it of the last start and the moment. -/
@[ext]
structure Share (τ : Type) where
  line : Multiset Nat := 0
  permits : Nat := 0
  gateLine : Multiset Nat := 0
  gates : Multiset (τ → τ → Prop) := 0

namespace Share

variable {τ : Type}

def queued (ticket : Nat) : Share τ := { line := {ticket} }

def permit : Share τ := { permits := 1 }

def gateQueued (ticket : Nat) : Share τ := { gateLine := {ticket} }

def gate (known : τ → τ → Prop) : Share τ := { gates := {known} }

instance : Zero (Share τ) := ⟨{}⟩

instance : Add (Share τ) where
  add left right :=
    ⟨left.line + right.line, left.permits + right.permits, left.gateLine + right.gateLine,
      left.gates + right.gates⟩

variable (left right : Share τ)

@[simp] theorem line_zero : (0 : Share τ).line = 0 := rfl

@[simp] theorem permits_zero : (0 : Share τ).permits = 0 := rfl

@[simp] theorem gateLine_zero : (0 : Share τ).gateLine = 0 := rfl

@[simp] theorem gates_zero : (0 : Share τ).gates = 0 := rfl

@[simp] theorem line_add : (left + right).line = left.line + right.line := rfl

@[simp] theorem permits_add : (left + right).permits = left.permits + right.permits := rfl

@[simp] theorem gateLine_add : (left + right).gateLine = left.gateLine + right.gateLine := rfl

@[simp] theorem gates_add : (left + right).gates = left.gates + right.gates := rfl

instance : AddCommMonoid (Share τ) where
  add_assoc _ _ _ := by ext1 <;> simp [add_assoc]
  zero_add _ := by ext1 <;> simp
  add_zero _ := by ext1 <;> simp
  add_comm _ _ := by ext1 <;> simp [add_comm]
  nsmul := nsmulRec

end Share

/-- The books of the permits: every place in the line has one holder, and every permit is free,
promised to somebody who was called, or held. While one is free somebody in the line has been called,
who will pass it on. -/
structure PermitBooks {τ : Type} (permits held : Nat) (queue : Multiset Nat) (turn free : Nat)
    (line : Line τ) : Prop where
  lists : line.Lists queue turn
  balance : free + line.calls + held = permits
  offered : 0 < free → line ≠ [] → 0 < line.calls

/-- The books of the gate: every place in the line before it has one holder, and so has the gate
while somebody is in it, who knows what he knows from now on. -/
structure GateBooks {τ : Type} [Clock τ] (pace : Pace τ) (queue : Multiset Nat)
    (gates : Multiset (τ → τ → Prop)) (now : τ) (turn : Nat) (gated : Bool) (line : Line τ)
    (lastStart : τ) : Prop where
  lists : line.Lists queue turn
  holder : gates.card = gated.toNat
  order : line.InOrder gated
  known : ∀ known ∈ gates, ∀ time, pace.before now time → known lastStart time

/-- The shares of all, as they stand in a limiter with so many permits. -/
structure Accounts {τ : Type} [Clock τ] (pace : Pace τ) (permits : Nat) (spacing : Number)
    (total : Share τ) (now : τ) (turn : Nat) (limiter : Limiter τ) : Prop where
  spaced : limiter.spacing = spacing
  permitBooks : PermitBooks permits total.permits total.line turn limiter.free limiter.line
  gateBooks : GateBooks pace total.gateLine total.gates now turn limiter.gated limiter.gateLine
    limiter.lastStart

variable {τ : Type} {permits held turn free ticket : Nat} {queue : Multiset Nat} {line : Line τ}

namespace PermitBooks

theorem later (h : PermitBooks permits held queue turn free line) :
    PermitBooks permits held queue (turn + 1) free line :=
  { h with lists := h.lists.later }

/-- Somebody takes a free permit while nobody stands in line. -/
theorem take (h : PermitBooks permits held queue turn free line)
    (hroom : (decide (0 < free) && line.isEmpty) = true) :
    PermitBooks permits (1 + held) queue turn (free - 1) line := by
  obtain ⟨hfree, hempty⟩ := Bool.and_eq_true_iff.mp hroom
  have hpositive : 0 < free := of_decide_eq_true hfree
  have hbalance := h.balance
  exact ⟨h.lists, by omega, fun _ hline => absurd (List.isEmpty_iff.mp hempty) hline⟩

theorem join (h : PermitBooks permits held queue turn free line)
    (hroom : (decide (0 < free) && line.isEmpty) = false) :
    PermitBooks permits held ({turn} + queue) (turn + 1) free (line.join turn) where
  lists := h.lists.join
  balance := by
    rw [Line.calls_join]
    exact h.balance
  offered hfree _ := by
    rw [Line.calls_join]
    refine h.offered hfree fun hempty => ?_
    simp [hfree, hempty] at hroom

/-- Somebody leaves the line; a permit that was promised to them is then free, or held. -/
theorem balance_leave (h : PermitBooks permits held ({ticket} + queue) turn free line) :
    free + (line.leave ticket).calls + (line.isCalled ticket).toNat + held = permits := by
  have hcalls : (line.leave ticket).calls + (line.isCalled ticket).toNat = line.calls :=
    Line.calls_leave h.lists.nodup
  have hbalance := h.balance
  omega

/-- Whoever gives up without having been called changes nothing for the others. -/
theorem giveUp (h : PermitBooks permits held ({ticket} + queue) turn free line)
    (hcalled : line.isCalled ticket = false) :
    PermitBooks permits held queue turn free (line.leave ticket) := by
  have hcalls : (line.leave ticket).calls + (line.isCalled ticket).toNat = line.calls :=
    Line.calls_leave h.lists.nodup
  have hbalance := h.balance_leave
  rw [hcalled] at hcalls hbalance
  refine ⟨h.lists.leave, hbalance, fun hfree hline => ?_⟩
  have hstanding : line ≠ [] := by
    rintro rfl
    exact hline rfl
  have hoffered := h.offered hfree hstanding
  rwa [← hcalls] at hoffered

end PermitBooks

variable [Clock τ] {pace : Pace τ} {gates : Multiset (τ → τ → Prop)} {now time lastStart : τ}
  {gated : Bool} {known known' : τ → τ → Prop} {call : Turn τ}

namespace GateBooks

theorem later_turn (h : GateBooks pace queue gates now turn gated line lastStart) :
    GateBooks pace queue gates now (turn + 1) gated line lastStart :=
  { h with lists := h.lists.later }

theorem later_time (h : GateBooks pace queue gates now turn gated line lastStart)
    (htime : pace.before now time) : GateBooks pace queue gates time turn gated line lastStart :=
  { h with known := fun known hknown later hlater =>
      h.known known hknown later (pace.trans htime hlater) }

theorem enter (h : GateBooks pace queue gates now turn gated line lastStart)
    (hopen : (!gated && line.isEmpty) = true) :
    GateBooks pace queue ({fun _ _ => True} + gates) now turn true line lastStart := by
  obtain ⟨hgated, hempty⟩ := Bool.and_eq_true_iff.mp hopen
  have hunheld : gates.card = 0 := by
    rw [h.holder, Bool.not_eq_true' gated |>.mp hgated, Bool.toNat_false]
  refine ⟨h.lists, by simp [hunheld], ?_, ?_⟩
  · rw [List.isEmpty_iff.mp hempty]
    trivial
  · intro known hknown time _
    rw [Multiset.card_eq_zero.mp hunheld, add_zero, Multiset.mem_singleton] at hknown
    rw [hknown]
    trivial

theorem join (h : GateBooks pace queue gates now turn gated line lastStart)
    (hclosed : (!gated && line.isEmpty) = false) :
    GateBooks pace ({turn} + queue) gates now (turn + 1) gated (line.join turn) lastStart :=
  { h with lists := h.lists.join, order := h.order.join_of_not_open hclosed }

theorem proceed (h : GateBooks pace ({ticket} + queue) gates now turn gated line lastStart)
    (hcalled : line.isCalled ticket = true) :
    GateBooks pace queue ({fun _ _ => True} + gates) now turn true (line.leave ticket)
      lastStart := by
  obtain ⟨hgated, hothers⟩ := h.order.leave_called h.lists.nodup hcalled
  have hunheld : gates.card = 0 := by rw [h.holder, hgated, Bool.toNat_false]
  refine ⟨h.lists.leave, by simp [hunheld], .of_uncalled hothers, ?_⟩
  intro known hknown time _
  rw [Multiset.card_eq_zero.mp hunheld, add_zero, Multiset.mem_singleton] at hknown
  rw [hknown]
  trivial

/-- Only one can be in the gate. -/
theorem alone (h : GateBooks pace queue ({known} + gates) now turn gated line lastStart) :
    gates = 0 ∧ gated = true := by
  have hholder := h.holder
  rw [Multiset.card_add, Multiset.card_singleton] at hholder
  cases gated with
  | false => simp at hholder
  | true => exact ⟨Multiset.card_eq_zero.mp (by simpa using hholder), rfl⟩

theorem learn (h : GateBooks pace queue ({known} + gates) now turn gated line lastStart)
    {start : τ} (hknown : ∀ time, pace.before now time → known' start time) :
    GateBooks pace queue ({known'} + gates) now turn gated line start := by
  obtain ⟨hgates, hgated⟩ := h.alone
  refine ⟨h.lists, by simp [hgates, hgated], h.order, ?_⟩
  intro found hfound time htime
  rw [hgates, add_zero, Multiset.mem_singleton] at hfound
  rw [hfound]
  exact hknown time htime

theorem leave (h : GateBooks pace queue ({known} + gates) now turn gated line lastStart) :
    GateBooks pace queue gates now turn false (line.callFirst call) lastStart := by
  obtain ⟨hgates, -⟩ := h.alone
  refine ⟨h.lists.of_tickets Line.tickets_callFirst, by simp [hgates], ?_, ?_⟩
  · exact .callFirst_of_tail h.order.tail_uncalled
  · rw [hgates]
    exact fun known hknown => absurd hknown (Multiset.notMem_zero known)

theorem giveUp_gated (h : GateBooks pace ({ticket} + queue) gates now turn true line lastStart) :
    GateBooks pace queue gates now turn true (line.leave ticket) lastStart :=
  { h with
    lists := h.lists.leave
    order := .of_uncalled fun waiter hwaiter =>
      h.order.uncalled waiter (List.mem_of_mem_filter hwaiter) }

theorem giveUp_open (h : GateBooks pace ({ticket} + queue) gates now turn false line lastStart) :
    GateBooks pace queue gates now turn false ((line.leave ticket).callFirst call) lastStart :=
  { h with
    lists := h.lists.leave.of_tickets Line.tickets_callFirst
    order := .callFirst_of_tail (Line.InOrder.tail_leave h.order.tail_uncalled) }

end GateBooks

namespace Accounts

variable {permits : Nat} {spacing : Number} {total others : Share τ} {limiter : Limiter τ}

open Share

theorem later_turn (h : Accounts pace permits spacing total now turn limiter) :
    Accounts pace permits spacing total now (turn + 1) limiter :=
  { h with permitBooks := h.permitBooks.later, gateBooks := h.gateBooks.later_turn }

theorem later_time (h : Accounts pace permits spacing total now turn limiter)
    (htime : pace.before now time) : Accounts pace permits spacing total time turn limiter :=
  { h with gateBooks := h.gateBooks.later_time htime }

/-! ### Permits -/

/-- Granting a permit that has come free restores the books. -/
theorem grant (hspacing : limiter.spacing = spacing) (hlists : limiter.line.Lists total.line turn)
    (hbalance : limiter.free + limiter.line.calls + total.permits = permits)
    (hfree : 0 < limiter.free)
    (hgate : GateBooks pace total.gateLine total.gates now turn limiter.gated limiter.gateLine
      limiter.lastStart) :
    Accounts pace permits spacing total now turn (limiter.grant call) := by
  unfold Limiter.grant
  cases huncalled : limiter.line.hasUncalled with
  | true =>
      have hcalls : (limiter.line.callNext call).calls = limiter.line.calls + 1 :=
        Line.calls_callNext huncalled
      have hnext : PermitBooks permits total.permits total.line turn (limiter.free - 1)
          (limiter.line.callNext call) :=
        ⟨hlists.of_tickets Line.tickets_callNext, by omega, fun _ _ => by omega⟩
      rw [if_pos rfl]
      exact ⟨hspacing, hnext, hgate⟩
  | false =>
      have hoffered (hline : limiter.line ≠ []) : 0 < limiter.line.calls := by
        rw [Line.calls_eq_length huncalled]
        exact List.length_pos_iff.mpr hline
      rw [if_neg Bool.false_ne_true]
      exact ⟨hspacing, ⟨hlists, hbalance, fun _ => hoffered⟩, hgate⟩

theorem enter_room (h : Accounts pace permits spacing others now turn limiter)
    (hroom : limiter.hasRoom = true) :
    Accounts pace permits spacing (permit + others) now turn (limiter.enter ticket) := by
  rw [Limiter.enter, if_pos hroom]
  exact ⟨h.spaced, by simpa [permit] using h.permitBooks.take hroom,
    by simpa [permit] using h.gateBooks⟩

theorem enter_line (h : Accounts pace permits spacing others now turn limiter)
    (hroom : limiter.hasRoom = false) :
    Accounts pace permits spacing (queued turn + others) now (turn + 1) (limiter.enter turn) := by
  rw [Limiter.enter, if_neg (Bool.eq_false_iff.mp hroom)]
  exact ⟨h.spaced, by simpa [queued] using h.permitBooks.join hroom,
    by simpa [queued] using h.gateBooks.later_turn⟩

theorem leave (h : Accounts pace permits spacing (permit + others) now turn limiter) :
    Accounts pace permits spacing others now turn (limiter.leave call) := by
  have hbalance := h.permitBooks.balance
  have hheld : (permit + others).permits = 1 + others.permits := rfl
  refine grant h.spaced ?_ ?_ (Nat.succ_pos limiter.free) ?_
  · simpa [permit] using h.permitBooks.lists
  · simp only
    omega
  · simpa [permit] using h.gateBooks

/-- Who has been called goes on with a permit. -/
theorem proceed (h : Accounts pace permits spacing (queued ticket + others) now turn limiter)
    (hcalled : limiter.line.isCalled ticket = true) :
    Accounts pace permits spacing (permit + others) now turn (limiter.proceed call ticket) := by
  have hbooks : PermitBooks permits others.permits ({ticket} + others.line) turn limiter.free
      limiter.line := by simpa [queued] using h.permitBooks
  have hlists : (limiter.line.leave ticket).Lists (permit + others).line turn := by
    simpa [permit] using hbooks.lists.leave
  have hbalance := hbooks.balance_leave
  rw [hcalled, Bool.toNat_true] at hbalance
  have hheld : (permit + others).permits = 1 + others.permits := rfl
  have hgate : GateBooks pace (permit + others).gateLine (permit + others).gates now turn
      limiter.gated limiter.gateLine limiter.lastStart := by simpa [queued, permit] using h.gateBooks
  unfold Limiter.proceed
  by_cases hfree : 0 < limiter.free
  · rw [if_pos hfree]
    exact grant h.spaced hlists (by simp only; omega) hfree hgate
  · rw [if_neg hfree]
    exact ⟨h.spaced, ⟨hlists, by simp only; omega, fun hpositive => absurd hpositive hfree⟩, hgate⟩

/-- Who gives up in line leaves no share behind. -/
theorem giveUp (h : Accounts pace permits spacing (queued ticket + others) now turn limiter) :
    Accounts pace permits spacing others now turn (limiter.giveUp call ticket) := by
  have hbooks : PermitBooks permits others.permits ({ticket} + others.line) turn limiter.free
      limiter.line := by simpa [queued] using h.permitBooks
  have hgate : GateBooks pace others.gateLine others.gates now turn limiter.gated limiter.gateLine
      limiter.lastStart := by simpa [queued] using h.gateBooks
  unfold Limiter.giveUp
  cases hcalled : limiter.line.isCalled ticket with
  | true =>
      have hbalance := hbooks.balance_leave
      rw [hcalled, Bool.toNat_true] at hbalance
      rw [if_pos rfl]
      refine grant h.spaced hbooks.lists.leave ?_ (Nat.succ_pos limiter.free) hgate
      simp only
      omega
  | false =>
      rw [if_neg Bool.false_ne_true]
      exact ⟨h.spaced, hbooks.giveUp hcalled, hgate⟩

/-! ### The gate -/

theorem enterGate_open (h : Accounts pace permits spacing others now turn limiter)
    (hopen : limiter.isOpen = true) :
    Accounts pace permits spacing (gate (fun _ _ => True) + others) now turn
      (limiter.enterGate ticket) := by
  rw [Limiter.enterGate, if_pos hopen]
  exact ⟨h.spaced, by simpa [gate] using h.permitBooks,
    by simpa [gate] using h.gateBooks.enter hopen⟩

theorem enterGate_line (h : Accounts pace permits spacing others now turn limiter)
    (hclosed : limiter.isOpen = false) :
    Accounts pace permits spacing (gateQueued turn + others) now (turn + 1)
      (limiter.enterGate turn) := by
  rw [Limiter.enterGate, if_neg (Bool.eq_false_iff.mp hclosed)]
  exact ⟨h.spaced, by simpa [gateQueued] using h.permitBooks.later,
    by simpa [gateQueued] using h.gateBooks.join hclosed⟩

theorem proceedGate
    (h : Accounts pace permits spacing (gateQueued ticket + others) now turn limiter)
    (hcalled : limiter.gateLine.isCalled ticket = true) :
    Accounts pace permits spacing (gate (fun _ _ => True) + others) now turn
      (limiter.proceedGate ticket) := by
  have hgate : GateBooks pace ({ticket} + others.gateLine) others.gates now turn limiter.gated
      limiter.gateLine limiter.lastStart := by simpa [gateQueued] using h.gateBooks
  exact ⟨h.spaced, by simpa [Limiter.proceedGate, gateQueued, gate] using h.permitBooks,
    by simpa [Limiter.proceedGate, gate] using hgate.proceed hcalled⟩

theorem giveUpGate
    (h : Accounts pace permits spacing (gateQueued ticket + others) now turn limiter) :
    Accounts pace permits spacing others now turn (limiter.giveUpGate call ticket) := by
  have hpermit : PermitBooks permits others.permits others.line turn limiter.free limiter.line := by
    simpa [gateQueued] using h.permitBooks
  have hgate : GateBooks pace ({ticket} + others.gateLine) others.gates now turn limiter.gated
      limiter.gateLine limiter.lastStart := by simpa [gateQueued] using h.gateBooks
  unfold Limiter.giveUpGate
  cases hgated : limiter.gated with
  | true =>
      rw [hgated] at hgate
      rw [if_pos rfl]
      exact ⟨h.spaced, hpermit, by simpa only [hgated] using hgate.giveUp_gated⟩
  | false =>
      rw [hgated] at hgate
      rw [if_neg Bool.false_ne_true]
      exact ⟨h.spaced, hpermit, by simpa only [hgated] using hgate.giveUp_open⟩

theorem leaveGate (h : Accounts pace permits spacing (gate known + others) now turn limiter) :
    Accounts pace permits spacing others now turn (limiter.leaveGate call) := by
  have hgate : GateBooks pace others.gateLine ({known} + others.gates) now turn limiter.gated
      limiter.gateLine limiter.lastStart := by simpa [gate] using h.gateBooks
  exact ⟨h.spaced, by simpa [Limiter.leaveGate, gate] using h.permitBooks, hgate.leave⟩

/-- Whoever is in the gate takes note of what the last start and the moment show. -/
theorem learn (h : Accounts pace permits spacing (gate known + others) now turn limiter)
    (hknown : ∀ time, pace.before now time → known' limiter.lastStart time) :
    Accounts pace permits spacing (gate known' + others) now turn limiter := by
  have hgate : GateBooks pace others.gateLine ({known} + others.gates) now turn limiter.gated
      limiter.gateLine limiter.lastStart := by simpa [gate] using h.gateBooks
  exact ⟨h.spaced, by simpa [gate] using h.permitBooks, by simpa [gate] using hgate.learn hknown⟩

theorem start (h : Accounts pace permits spacing (gate known + others) now turn limiter)
    {moment : τ} (hknown : ∀ time, pace.before now time → known' moment time) :
    Accounts pace permits spacing (gate known' + others) now turn (limiter.start moment) := by
  have hgate : GateBooks pace others.gateLine ({known} + others.gates) now turn limiter.gated
      limiter.gateLine limiter.lastStart := by simpa [gate] using h.gateBooks
  exact ⟨h.spaced, by simpa [Limiter.start, gate] using h.permitBooks,
    by simpa [Limiter.start, gate] using hgate.learn hknown⟩

end Accounts

/-! ### Standing still -/

/-- With this share there is nothing to do until others go on: there are places in lines, none of
them called, and nothing but the permits of those before the gate. -/
structure Stalled (own : Share τ) (limiter : Limiter τ) : Prop where
  waiting : own.line ≠ 0 ∨ own.gateLine ≠ 0
  line : ∀ ticket ∈ own.line, limiter.line.isCalled ticket = false
  gateLine : ∀ ticket ∈ own.gateLine, limiter.gateLine.isCalled ticket = false
  gates : own.gates = 0
  permits : own.permits = own.gateLine.card

omit [Clock τ] in
theorem Stalled.add {left right : Share τ} {limiter : Limiter τ} (hleft : Stalled left limiter)
    (hright : Stalled right limiter) : Stalled (left + right) limiter where
  waiting := by
    refine hleft.waiting.imp (fun h hsum => h ?_) fun h hsum => h ?_
    · exact Multiset.le_zero.mp (hsum ▸ Multiset.le_add_right _ _)
    · exact Multiset.le_zero.mp (hsum ▸ Multiset.le_add_right _ _)
  line ticket hticket :=
    (Multiset.mem_add.mp hticket).elim (hleft.line ticket) (hright.line ticket)
  gateLine ticket hticket :=
    (Multiset.mem_add.mp hticket).elim (hleft.gateLine ticket) (hright.gateLine ticket)
  gates := by simp [hleft.gates, hright.gates]
  permits := by simp [hleft.permits, hright.permits]

/-- A limiter has a permit, however few are asked for. -/
theorem permits_positive (permits : Int) : 0 < (max 1 permits).toNat := by
  omega

/-- Nobody holds anything of a new limiter. -/
theorem Accounts.new (pace : Pace τ) (permits : Int) (spacing : Number) (now : τ) (turn : Nat) :
    Accounts pace (max 1 permits).toNat spacing 0 now turn (Limiter.new permits spacing) where
  spaced := rfl
  permitBooks := ⟨⟨rfl, .nil, fun _ hticket => absurd hticket List.not_mem_nil⟩, rfl,
    fun _ hline => absurd rfl hline⟩
  gateBooks := ⟨⟨rfl, .nil, fun _ hticket => absurd hticket List.not_mem_nil⟩, rfl, trivial,
    fun _ hknown => absurd hknown (Multiset.notMem_zero _)⟩

/-- Somebody can always go on: whoever is first before the gate if nobody is in it, and somebody in
line if no permit is held. -/
theorem Accounts.not_stalled {spacing : Number} {total : Share τ} {limiter : Limiter τ}
    (h : Accounts pace permits spacing total now turn limiter) (hpermits : 0 < permits) :
    ¬Stalled total limiter := by
  intro hstalled
  have hungated : limiter.gated = false := by
    have hholder := h.gateBooks.holder
    rw [hstalled.gates, Multiset.card_zero] at hholder
    simpa using hholder.symm
  have hgateLine : limiter.gateLine = [] := by
    have hnone := h.gateBooks.lists.uncalled hstalled.gateLine
    have horder := h.gateBooks.order
    cases hline : limiter.gateLine with
    | nil => rfl
    | cons first rest =>
        rw [hline, hungated] at horder
        rw [hline] at hnone
        have hfirst := horder.1
        simp [hnone first List.mem_cons_self] at hfirst
  have hnoGateTicket : total.gateLine = 0 := by
    rw [← h.gateBooks.lists.eq, hgateLine]
    rfl
  have hnone := h.permitBooks.lists.uncalled hstalled.line
  have hcalls : limiter.line.calls = 0 := by
    refine List.countP_eq_zero.mpr fun waiter hwaiter => ?_
    simp [hnone waiter hwaiter]
  have hbalance := h.permitBooks.balance
  rw [hcalls, hstalled.permits, hnoGateTicket, Multiset.card_zero] at hbalance
  have hline : limiter.line ≠ [] := by
    intro hempty
    rcases hstalled.waiting with hwaiting | hwaiting
    · rw [← h.permitBooks.lists.eq, hempty] at hwaiting
      exact hwaiting rfl
    · exact hwaiting hnoGateTicket
  have hoffered := h.permitBooks.offered (by omega) hline
  omega

end ProgramAudit.Endpoint
