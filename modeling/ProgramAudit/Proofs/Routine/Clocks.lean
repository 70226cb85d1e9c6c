import ProgramAudit.Proofs.Number.DoubleSum
import ProgramAudit.Proofs.Routine.Alone

/-!
What clocks read. A reading can be told from another one that lies a span of some length back: it is
before the end of that span or not. On a clock of doubles this takes a span that is a number; what is no
number is not after anything, and nothing is before it.
-/

namespace ProgramAudit

namespace Number

variable {span : Number} {time : Float}

/-- What has some length, and is a double at all, is a number and not below all others. -/
theorem defined_of_positive (hpositive : less 0 span = true) (hranged : span.toReal?.isSome = true) :
    isUndefined span.toReal = false ∧ binaryOf span.toReal ≠ .infinite true := by
  have horder : compare? (.int 0) span = some .lt := beq_iff_eq.mp hpositive
  cases span with
  | int value =>
      change (doubleOfInt? value).isSome = true at hranged
      unfold doubleOfInt? at hranged
      dsimp only at hranged
      split_ifs at hranged with hfinite
      · obtain ⟨hdefined, hbounded⟩ := isFinite_iff.mp hfinite
        exact ⟨hdefined, hbounded true⟩
      · cases hranged
  | real value =>
      change compareMixed 0 value = some .lt at horder
      change (binaryOf value == .undefined) = false ∧ binaryOf value ≠ .infinite true
      unfold compareMixed at horder
      cases hbinary : binaryOf value with
      | undefined =>
          rw [hbinary] at horder
          cases horder
      | infinite negative =>
          rw [hbinary] at horder
          cases negative with
          | true => cases horder
          | false => exact ⟨rfl, nofun⟩
      | finite negative mantissa exponent => exact ⟨rfl, nofun⟩

/-- A moment and a length of time add up to a number, unless a length without an end comes behind a
moment before all others. -/
theorem defined_add_of_positive (hpositive : less 0 span = true)
    (hranged : span.toReal?.isSome = true) (htime : isUndefined time = false)
    (hends : -infinity < time ∨ isFinite span.toReal = true) :
    isUndefined (time + span.toReal) = false := by
  obtain ⟨hdefined, hbounded⟩ := defined_of_positive hpositive hranged
  refine not_isUndefined_add htime hdefined fun negative hinfinite => ?_
  rcases hends with hbegun | hfinite
  · cases negative with
    | true => exact absurd hinfinite (binaryOf_ne_of_infinity_lt hbegun)
    | false => exact hbounded
  · exact (isFinite_iff.mp hfinite).2 _

/-- A quantity that is a number: any integer, and any double but the undefined one. -/
def isDefined : Number → Bool
  | .int _ => true
  | .real value => !isUndefined value

theorem exists_compareMixed {value : Float} (hdefined : isUndefined value = false) (left : Int) :
    ∃ order, compareMixed left value = some order := by
  unfold compareMixed
  unfold isUndefined at hdefined
  cases hbinary : binaryOf value with
  | undefined =>
      rw [hbinary] at hdefined
      cases hdefined
  | infinite negative => exact ⟨_, rfl⟩
  | finite negative mantissa exponent => exact ⟨_, rfl⟩

/-- A number has its place beside zero, seen from both sides. -/
theorem exists_compare? (hdefined : span.isDefined = true) :
    ∃ order, compare? 0 span = some order ∧ compare? span 0 = some order.swap := by
  cases span with
  | int value => exact ⟨compare 0 value, rfl, congrArg some (Int.compare_swap 0 value).symm⟩
  | real value =>
      obtain ⟨order, horder⟩ := exists_compareMixed (Bool.not_eq_true' _ ▸ hdefined) 0
      exact ⟨order, horder, congrArg (Option.map Ordering.swap) horder⟩

/-- A number is at most zero or more than zero. -/
theorem less_of_isDefined (hdefined : span.isDefined = true) (h : span.atMost 0 = false) :
    less 0 span = true := by
  obtain ⟨order, hright, hleft⟩ := exists_compare? hdefined
  unfold atMost at h
  rw [hleft] at h
  unfold less
  rw [hright]
  cases order with
  | lt => rfl
  | eq => cases h
  | gt => cases h

end Number

/-- One moment before another one. -/
def Clock.before {τ : Type} [Clock τ] (first second : τ) : Bool :=
  Clock.notAfter first second && !Clock.notAfter second first

theorem Clock.before_float {first second : Float} :
    Clock.before first second = true ↔ first < second := by
  change (decide (first ≤ second) && !decide (second ≤ first)) = true ↔ first < second
  rw [Number.float_lt_iff]
  simp

/-- A clock with the moments that it can read. Later ones can be read as well, and each one is in order
with the end of a span of some length that has begun at another one. -/
class ReadableClock (τ : Type) [Clock τ] extends OrderedClock τ where
  Reads : τ → Prop
  reads_later {first second : τ} : Reads first → Clock.notAfter first second = true → Reads second
  total {first second : τ} {span : Number} : Reads first → Reads second →
    Number.less 0 span = true → span.toReal?.isSome = true →
      Clock.notAfter (first + Clock.seconds span) second = true ∨
        Clock.notAfter second (first + Clock.seconds span) = true

instance {τ : Type} [ExactClock τ] : ReadableClock τ where
  Reads _ := True
  reads_later _ _ := trivial
  total _ _ _ _ := (le_total _ _).imp decide_eq_true decide_eq_true

/-- A clock of doubles reads any moment that is not before all others. -/
instance : ReadableClock Float where
  Reads moment := -Number.infinity < moment
  reads_later hfirst hlater := Number.float_lt_of_lt_of_le hfirst (of_decide_eq_true hlater)
  total hfirst hsecond hpositive hranged := by
    have hdefined := (Number.not_isUndefined_of_le (Number.float_lt_iff.mp hfirst).1).2
    have hend := Number.defined_add_of_positive hpositive hranged hdefined (.inl hfirst)
    have hnow := (Number.not_isUndefined_of_le (Number.float_lt_iff.mp hsecond).1).2
    exact (Number.float_le_total hend hnow).imp decide_eq_true decide_eq_true

variable {τ : Type} [Clock τ] [ReadableClock τ] {first second : τ} {span : Number}

/-- A reading is before the end of a span exactly if the end is not past. -/
theorem Clock.before_after (hfirst : ReadableClock.Reads first) (hsecond : ReadableClock.Reads second)
    (hpositive : Number.less 0 span = true) (hranged : span.toReal?.isSome = true) :
    Clock.before second (first + Clock.seconds span) = true ↔
      Clock.notAfter (first + Clock.seconds span) second = false := by
  have htotal := ReadableClock.total hfirst hsecond hpositive hranged
  unfold Clock.before
  rw [Bool.and_eq_true, Bool.not_eq_true']
  refine ⟨And.right, fun hends => ⟨htotal.resolve_left ?_, hends⟩⟩
  exact Bool.eq_false_iff.mp hends

theorem Routine.Elapsed.reads (h : Routine.Elapsed first second)
    (hreads : ReadableClock.Reads first) : ReadableClock.Reads second := by
  rcases h with rfl | hlater
  · exact hreads
  · exact ReadableClock.reads_later hreads hlater

end ProgramAudit
