import Mathlib.Algebra.Order.Group.Multiset
import ProgramAudit.Endpoint.Limiter

/-!
Lines. Whoever stands in one does so under a ticket of their own, and calling somebody changes
nothing about who stands where.
-/

namespace ProgramAudit.Endpoint

namespace Line

variable {τ : Type} {line : Line τ} {ticket : Nat} {turn : Turn τ}

def tickets (line : Line τ) : List Nat := line.map Waiter.ticket

/-- How many in the line have been called. -/
def calls (line : Line τ) : Nat := line.countP fun waiter => waiter.called.isSome

theorem tickets_join : (line.join ticket).tickets = line.tickets ++ [ticket] := by
  simp [join, tickets]

theorem calls_join : (line.join ticket).calls = line.calls := by
  simp [join, calls]

theorem tickets_callNext : (line.callNext turn).tickets = line.tickets := by
  induction line with
  | nil => rfl
  | cons waiter rest ih =>
      simp only [callNext]
      split
      · rfl
      · exact congrArg (waiter.ticket :: ·) ih

theorem tickets_callFirst : (line.callFirst turn).tickets = line.tickets := by
  cases line <;> rfl

theorem calls_callNext (h : line.hasUncalled = true) :
    (line.callNext turn).calls = line.calls + 1 := by
  induction line with
  | nil => cases h
  | cons waiter rest ih =>
      cases hcalled : waiter.called with
      | none => simp [callNext, calls, hcalled]
      | some found =>
          have hrest : hasUncalled rest = true := by simpa [hasUncalled, hcalled] using h
          have hnext := ih hrest
          simp only [calls] at hnext
          simp only [callNext, calls, hcalled, Option.isNone_some, Bool.false_eq_true, if_false,
            List.countP_cons, Option.isSome_some, if_true, hnext]

theorem calls_eq_length (h : line.hasUncalled = false) : line.calls = line.length := by
  refine List.countP_eq_length.mpr fun waiter hwaiter => ?_
  have hcalled := List.any_eq_false.mp h waiter hwaiter
  simpa [Option.isSome_iff_ne_none] using hcalled

theorem tickets_leave (hnodup : line.tickets.Nodup) :
    (line.leave ticket).tickets = line.tickets.erase ticket := by
  rw [hnodup.erase_eq_filter, leave, tickets, tickets, List.filter_map]
  rfl

theorem leave_eq_self (h : ticket ∉ line.tickets) : line.leave ticket = line := by
  refine List.filter_eq_self.mpr fun waiter hwaiter => ?_
  rw [bne_iff_ne]
  rintro rfl
  exact h (List.mem_map_of_mem hwaiter)

theorem isCalled_cons_self (waiter : Waiter τ) (rest : Line τ) :
    isCalled waiter.ticket (waiter :: rest) = waiter.called.isSome := by
  simp [isCalled, turnOf]

theorem isCalled_cons_of_ne {waiter : Waiter τ} (rest : Line τ) (h : waiter.ticket ≠ ticket) :
    isCalled ticket (waiter :: rest) = isCalled ticket rest := by
  simp [isCalled, turnOf, h]

theorem calls_leave (hnodup : line.tickets.Nodup) :
    (line.leave ticket).calls + (line.isCalled ticket).toNat = line.calls := by
  induction line with
  | nil => rfl
  | cons waiter rest ih =>
      obtain ⟨hfresh, hrest⟩ := List.nodup_cons.mp hnodup
      by_cases hticket : waiter.ticket = ticket
      · subst hticket
        have hleave : leave waiter.ticket (waiter :: rest) = rest := by
          rw [leave, List.filter_cons_of_neg (by simp)]
          exact leave_eq_self hfresh
        rw [hleave, isCalled_cons_self]
        cases hcalled : waiter.called <;> simp [calls, hcalled]
      · have hleave : leave ticket (waiter :: rest) = waiter :: leave ticket rest := by
          rw [leave, List.filter_cons_of_pos (by simpa using hticket)]
          rfl
        have hnext := ih hrest
        rw [hleave, isCalled_cons_of_ne rest hticket]
        simp only [calls, List.countP_cons] at hnext ⊢
        omega

theorem exists_of_turnOf (h : line.turnOf ticket = some turn) :
    ∃ waiter ∈ line, waiter.ticket = ticket ∧ waiter.called = some turn := by
  obtain ⟨waiter, hfound, hcalled⟩ := Option.bind_eq_some_iff.mp h
  exact ⟨waiter, List.mem_of_find?_eq_some hfound, by simpa using List.find?_some hfound, hcalled⟩

theorem isCalled_of_mem (hnodup : line.tickets.Nodup) {waiter : Waiter τ}
    (hwaiter : waiter ∈ line) :
    line.isCalled waiter.ticket = waiter.called.isSome := by
  induction line with
  | nil => cases hwaiter
  | cons first rest ih =>
      obtain ⟨hfresh, hrest⟩ := List.nodup_cons.mp hnodup
      rcases List.mem_cons.mp hwaiter with rfl | hlater
      · exact isCalled_cons_self waiter rest
      · have hne : first.ticket ≠ waiter.ticket := by
          intro heq
          exact hfresh (List.mem_map.mpr ⟨waiter, hlater, heq.symm⟩)
        rw [isCalled_cons_of_ne rest hne]
        exact ih hrest hlater

/-- A line holds the tickets of those who stand in it, each once, and all of them from turns that
are over. -/
structure Lists (line : Line τ) (tickets : Multiset Nat) (turn : Nat) : Prop where
  eq : (line.tickets : Multiset Nat) = tickets
  nodup : line.tickets.Nodup
  past : ∀ ticket ∈ line.tickets, ticket < turn

variable {tickets : Multiset Nat} {turn : Nat}

theorem Lists.later (h : Lists line tickets turn) : Lists line tickets (turn + 1) :=
  ⟨h.eq, h.nodup, fun ticket hticket => Nat.lt_succ_of_lt (h.past ticket hticket)⟩

theorem Lists.join (h : Lists line tickets turn) :
    Lists (line.join turn) ({turn} + tickets) (turn + 1) where
  eq := by
    rw [tickets_join, ← h.eq, add_comm]
    rfl
  nodup := by
    rw [tickets_join]
    refine List.nodup_append.mpr ⟨h.nodup, List.nodup_singleton turn, fun ticket hticket => ?_⟩
    rw [List.forall_mem_singleton]
    exact (h.past ticket hticket).ne
  past ticket hticket := by
    rw [tickets_join, List.mem_append, List.mem_singleton] at hticket
    rcases hticket with hold | rfl
    · exact Nat.lt_succ_of_lt (h.past ticket hold)
    · exact Nat.lt_succ_self ticket

theorem Lists.leave (h : Lists line ({ticket} + tickets) turn) :
    Lists (line.leave ticket) tickets turn where
  eq := by
    rw [tickets_leave h.nodup, ← Multiset.coe_erase, h.eq, Multiset.singleton_add,
      Multiset.erase_cons_head]
  nodup := by
    rw [tickets_leave h.nodup]
    exact h.nodup.erase ticket
  past other hother := by
    rw [tickets_leave h.nodup] at hother
    exact h.past other (List.mem_of_mem_erase hother)

theorem Lists.of_tickets {line' : Line τ} (h : Lists line tickets turn)
    (htickets : line'.tickets = line.tickets) : Lists line' tickets turn :=
  ⟨htickets ▸ h.eq, htickets ▸ h.nodup, htickets ▸ h.past⟩

theorem Lists.mem (h : Lists line tickets turn) : ticket ∈ tickets ↔ ticket ∈ line.tickets := by
  rw [← h.eq, Multiset.mem_coe]

/-- With none of its tickets called, nobody in a line has been. -/
theorem Lists.uncalled (h : Lists line tickets turn)
    (hcalled : ∀ ticket ∈ tickets, line.isCalled ticket = false) :
    ∀ waiter ∈ line, waiter.called = none := by
  intro waiter hwaiter
  have hticket : waiter.ticket ∈ tickets := h.mem.mpr (List.mem_map_of_mem hwaiter)
  have hnot := hcalled waiter.ticket hticket
  rw [isCalled_of_mem h.nodup hwaiter] at hnot
  simpa using hnot

/-- In the line before the gate only the first may have been called, and has been if nobody is in
the gate. -/
def InOrder (gated : Bool) : Line τ → Prop
  | [] => True
  | first :: rest => first.called.isSome = !gated ∧ ∀ waiter ∈ rest, waiter.called = none

namespace InOrder

variable {gated : Bool} {line : Line τ} {ticket : Nat} {turn : Turn τ}

theorem join_of_not_open (h : InOrder gated line) (hclosed : (!gated && line.isEmpty) = false) :
    InOrder gated (line.join ticket) := by
  cases line with
  | nil => simpa [InOrder, Line.join] using hclosed
  | cons first rest =>
      refine ⟨h.1, fun waiter hwaiter => ?_⟩
      rcases List.mem_append.mp hwaiter with hold | hnew
      · exact h.2 waiter hold
      · rw [List.mem_singleton.mp hnew]

theorem of_uncalled (h : ∀ waiter ∈ line, waiter.called = none) : InOrder true line := by
  cases line with
  | nil => trivial
  | cons first rest =>
      exact ⟨by simp [h first List.mem_cons_self], fun waiter hwaiter =>
        h waiter (List.mem_cons_of_mem first hwaiter)⟩

theorem uncalled (h : InOrder true line) : ∀ waiter ∈ line, waiter.called = none := by
  cases line with
  | nil => simp
  | cons first rest =>
      intro waiter hwaiter
      rcases List.mem_cons.mp hwaiter with rfl | hrest
      · simpa using h.1
      · exact h.2 waiter hrest

theorem callFirst_of_tail (h : ∀ waiter ∈ line.tail, waiter.called = none) :
    InOrder false (line.callFirst turn) := by
  cases line with
  | nil => trivial
  | cons first rest => exact ⟨rfl, h⟩

theorem tail_uncalled (h : InOrder gated line) : ∀ waiter ∈ line.tail, waiter.called = none := by
  cases line with
  | nil => simp
  | cons first rest => exact h.2

theorem tail_leave (h : ∀ waiter ∈ line.tail, waiter.called = none) :
    ∀ waiter ∈ (line.leave ticket).tail, waiter.called = none := by
  cases line with
  | nil => simp [Line.leave]
  | cons first rest =>
      intro waiter hwaiter
      refine h waiter ?_
      by_cases hticket : first.ticket = ticket
      · rw [Line.leave, List.filter_cons_of_neg (by simpa using hticket)] at hwaiter
        exact List.mem_of_mem_filter (List.mem_of_mem_tail hwaiter)
      · rw [Line.leave, List.filter_cons_of_pos (by simpa using hticket)] at hwaiter
        exact List.mem_of_mem_filter hwaiter

/-- Only who is first is called, so nobody is in the gate and the others have not been called. -/
theorem leave_called (h : InOrder gated line) (hnodup : line.tickets.Nodup)
    (hcalled : line.isCalled ticket = true) :
    gated = false ∧ ∀ waiter ∈ line.leave ticket, waiter.called = none := by
  cases line with
  | nil => cases hcalled
  | cons first rest =>
      obtain ⟨hfresh, -⟩ := List.nodup_cons.mp hnodup
      by_cases hticket : first.ticket = ticket
      · subst hticket
        rw [Line.isCalled_cons_self, h.1] at hcalled
        refine ⟨by simpa using hcalled, fun waiter hwaiter => ?_⟩
        rw [Line.leave, List.filter_cons_of_neg (by simp)] at hwaiter
        exact h.2 waiter (List.mem_of_mem_filter hwaiter)
      · rw [Line.isCalled_cons_of_ne rest hticket] at hcalled
        obtain ⟨turn, hturn⟩ := Option.isSome_iff_exists.mp hcalled
        obtain ⟨waiter, hwaiter, -, hfound⟩ := Line.exists_of_turnOf hturn
        rw [h.2 waiter hwaiter] at hfound
        cases hfound

end InOrder

end Line

end ProgramAudit.Endpoint
