import Mathlib.Algebra.Order.Group.Int
import Mathlib.Algebra.Order.Monoid.Unbundled.MinMax
import ProgramAudit.Routine.Run

/-!
When routines end. Under an exact clock, and without a state, a routine from a moment on ends at one
time with one result, whatever turns it is given. What two routines side by side come to, or one
under a deadline, follows from these times alone: the turns of the others never change it. Where there
is a state, a routine under a deadline does what it does alone until then, so it has its own result if
that is there before, and a timeout if it is there only later or never.
-/

namespace ProgramAudit

/-- A clock without rounding. -/
class ExactClock (τ : Type) extends AddCommGroup τ, LinearOrder τ, IsOrderedAddMonoid τ where
  seconds : Number → τ

instance {τ : Type} [ExactClock τ] : Clock τ where
  notAfter left right := decide (left ≤ right)
  seconds := ExactClock.seconds

/-- A quantity in units of the smallest double; none for a quantity without bounds. -/
def Number.ticks? : Number → Option Int
  | .int value => some (value * twoTo 1074)
  | .real value =>
    match binaryOf value with
    | .finite negative mantissa exponent => some (scaledValue negative mantissa exponent)
    | _ => none

instance : ExactClock Int where
  seconds span := span.ticks?.getD 0

namespace Routine

variable {τ α β γ : Type} [ExactClock τ]

/-- When a routine ends, and with which result; none if it never ends. -/
abbrev Timed (τ α : Type) := Option (τ × Result α)

/-- From a moment on the routine ends as the outcome says, whatever turns it is given. It waits only
for turns from `first` on, and leaves nothing to do behind. -/
def Ends (outcome : Timed τ α) (first : Nat) : Routine τ Unit α → τ → Nat → Prop
  | .halt, _, _ => outcome = none
  | .settle result rest, now, _ => outcome = some (now, result) ∧ rest = .halt
  | .act _ next, now, turn => Ends outcome first (next ()) now turn
  | .record _ next, now, turn => Ends outcome first next now turn
  | .moment next, now, turn =>
    ∀ turn', turn ≤ turn' → Ends outcome first (next now turn') now (turn' + 1)
  | .wait due _ next, now, turn =>
    match due () with
    | none => outcome = none
    | some found => first ≤ found.2 ∧ Ends outcome first next (later now found.1) turn

theorem later_eq (left right : τ) : later left right = max left right := by
  simp only [later, Clock.notAfter, decide_eq_true_eq]
  exact (max_def left right).symm

theorem Turn.le_of_before {left right : Turn τ} (h : Turn.before left right = true) :
    left.1 ≤ right.1 := by
  by_contra hnot
  simp [Turn.before, Clock.notAfter, hnot] at h

theorem Turn.le_of_not_before {left right : Turn τ} (h : Turn.before left right = false) :
    right.1 ≤ left.1 := by
  by_contra hnot
  have hle : left.1 ≤ right.1 := (not_le.mp hnot).le
  simp [Turn.before, Clock.notAfter, hnot, hle] at h

theorem before_of_lt {left right : Turn τ} (h : left.1 < right.1) :
    Turn.before left right = true := by
  simp [Turn.before, Clock.notAfter, h.le, h.not_ge]

theorem not_before_of_le {left right : Turn τ} (h : right.1 ≤ left.1) (hturn : right.2 ≤ left.2) :
    Turn.before left right = false := by
  by_cases hle : left.1 ≤ right.1
  · simp [Turn.before, Clock.notAfter, h, hle, hturn]
  · simp [Turn.before, Clock.notAfter, hle]

variable {outcome : Timed τ α} {first : Nat} {routine : Routine τ Unit α} {now : τ} {turn : Nat}

theorem ends_act {update : Unit → Unit} {next : Unit → Routine τ Unit α} :
    Ends outcome first (.act update next) now turn ↔ Ends outcome first (next ()) now turn :=
  Iff.rfl

theorem ends_wait_none {due : Unit → Option (Turn τ)} {abandon : τ → Nat → Unit → Unit}
    (hdue : due () = none) :
    Ends outcome first (.wait due abandon routine) now turn ↔ outcome = none := by
  simp only [Ends, hdue]

theorem ends_wait_some {due : Unit → Option (Turn τ)} {abandon : τ → Nat → Unit → Unit}
    {found : Turn τ} (hdue : due () = some found) :
    Ends outcome first (.wait due abandon routine) now turn ↔
      first ≤ found.2 ∧ Ends outcome first routine (max now found.1) turn := by
  simp only [Ends, hdue, later_eq]

/-- A step of waiting, for a routine that waits for the same turn and goes on with another one. -/
theorem Ends.wait {after : Timed τ β} {next : Routine τ Unit β} {first' turn' : Nat}
    {due : Unit → Option (Turn τ)} {abandon abandon' : τ → Nat → Unit → Unit}
    (h : Ends outcome first (.wait due abandon routine) now turn) (hfirst : first' ≤ first)
    (hnever : outcome = none → after = none)
    (hnext : ∀ now', now ≤ now' → Ends outcome first routine now' turn →
      Ends after first' next now' turn') :
    Ends after first' (.wait due abandon' next) now turn' := by
  cases hdue : due () with
  | none => exact (ends_wait_none hdue).mpr (hnever ((ends_wait_none hdue).mp h))
  | some found =>
      obtain ⟨hfound, hrest⟩ := (ends_wait_some hdue).mp h
      exact (ends_wait_some hdue).mpr ⟨hfirst.trans hfound, hnext _ (le_max_left now found.1) hrest⟩

theorem Ends.mono {first' turn' : Nat} (h : Ends outcome first routine now turn)
    (hfirst : first' ≤ first) (hturn : turn ≤ turn') : Ends outcome first' routine now turn' := by
  induction routine generalizing now turn turn' with
  | halt => exact h
  | settle result rest ih => exact h
  | act update next ih => exact ih () h hturn
  | record entry next ih => exact ih h hturn
  | moment next ih =>
      exact fun other hother => ih now other (h other (hturn.trans hother)) le_rfl
  | wait due abandon next ih => exact h.wait hfirst id fun _ _ hnext => ih hnext hturn

/-- A routine that waits is not disturbed by time that passes until its turn is due. -/
theorem Ends.advance {due : Unit → Option (Turn τ)} {abandon : τ → Nat → Unit → Unit}
    {found : Turn τ} (hdue : due () = some found)
    (h : Ends outcome first (.wait due abandon routine) now turn) {moment : τ}
    (hmoment : moment ≤ found.1) :
    Ends outcome first (.wait due abandon routine) (max now moment) turn := by
  rw [ends_wait_some hdue] at h ⊢
  rw [max_assoc, max_eq_right hmoment]
  exact h

/-! ### Sequences -/

theorem ends_mapResult {f : Result α → Result β} (h : Ends outcome first routine now turn) :
    Ends (outcome.map (Prod.map id f)) first (routine.mapResult f) now turn := by
  induction routine generalizing now turn with
  | halt => exact congrArg _ h
  | settle result rest ih =>
      obtain ⟨rfl, rfl⟩ := h
      exact ⟨rfl, rfl⟩
  | act update next ih => exact ih () h
  | record entry next ih => exact ih h
  | moment next ih => exact fun other hother => ih now other (h other hother)
  | wait due abandon next ih => exact h.wait le_rfl (congrArg _) fun _ _ => ih

theorem ends_inStage {stage : String} (h : Ends outcome first routine now turn) :
    Ends outcome first (routine.inStage stage) now turn := by
  induction routine generalizing now turn with
  | halt => exact h
  | settle result rest ih =>
      obtain ⟨rfl, rfl⟩ := h
      exact ⟨rfl, rfl⟩
  | act update next ih => exact ih () h
  | record entry next ih => exact ih h
  | moment next ih => exact fun other hother => ih now other (h other hother)
  | wait due abandon next ih => exact h.wait le_rfl id fun _ _ => ih

theorem ends_bind {after : Timed τ β} {f : α → Routine τ Unit β}
    (h : Ends outcome first routine now turn)
    (hvalue : ∀ moment value, outcome = some (moment, .ok value) → ∀ turn', turn ≤ turn' →
      Ends after first (f value) moment turn')
    (hfailure : ∀ moment failure, outcome = some (moment, .error failure) →
      after = some (moment, .error failure))
    (hnever : outcome = none → after = none) : Ends after first (routine.bind f) now turn := by
  induction routine generalizing now turn with
  | halt => exact hnever h
  | settle result rest ih =>
      obtain ⟨houtcome, rfl⟩ := h
      cases result with
      | ok value => exact hvalue now value houtcome turn le_rfl
      | error failure => exact ⟨hfailure now failure houtcome, rfl⟩
  | act update next ih => exact ih () h hvalue
  | record entry next ih => exact ih h hvalue
  | moment next ih =>
      intro other hother
      exact ih now other (h other hother) fun moment value houtcome turn' hturn =>
        hvalue moment value houtcome turn' (by omega)
  | wait due abandon next ih => exact h.wait le_rfl hnever fun _ _ hnext => ih hnext hvalue

theorem ends_yielding (h : Ends outcome first routine now turn) (hfirst : first ≤ turn) :
    Ends outcome first (yielding routine) now turn := by
  intro other hother
  refine (ends_wait_some rfl).mpr ⟨hfirst.trans hother, ?_⟩
  rw [max_self]
  exact h.mono le_rfl (hother.trans (Nat.le_succ other))

theorem ends_settleLater (h : Ends outcome first routine now turn) (hfirst : first ≤ turn) :
    Ends outcome first routine.settleLater now turn := by
  induction routine generalizing now turn with
  | halt => exact h
  | settle result rest ih => exact ends_yielding h hfirst
  | act update next ih => exact ih () h hfirst
  | record entry next ih => exact ih h hfirst
  | moment next ih => exact fun other hother => ih now other (h other hother) (by omega)
  | wait due abandon next ih => exact h.wait le_rfl id fun _ _ hnext => ih hnext hfirst

/-! ### Side by side -/

/-- A routine that never fails. -/
def Succeeds (outcome : Timed τ α) : Prop := ∀ time failure, outcome ≠ some (time, .error failure)

/-- Both values are there when the later one is. -/
def meet : Timed τ α → Timed τ β → Timed τ (α × β)
  | some (time, .ok value), some (time', .ok value') => some (max time time', .ok (value, value'))
  | _, _ => none

theorem succeeds_meet (left : Timed τ α) (right : Timed τ β) : Succeeds (meet left right) := by
  intro time failure h
  unfold meet at h
  split at h <;> simp at h

theorem meet_none (left : Timed τ α) : meet left (none : Timed τ β) = none := by
  rcases left with _ | ⟨time, failure | value⟩ <;> rfl

section Sides

variable {other : Timed τ β} {left : Routine τ Unit α} {right : Routine τ Unit β} {time : τ}

theorem ends_leftFound {value : α} (h : Ends other first right now turn) (hother : Succeeds other)
    (htime : time ≤ now) :
    Ends (meet (some (time, .ok value)) other) first
      (collectBoth (some value) none (merge .halt right)) now turn := by
  induction right generalizing now turn with
  | halt =>
      cases h
      exact rfl
  | settle result rest ih =>
      obtain ⟨rfl, rfl⟩ := h
      cases result with
      | error failure => exact absurd rfl (hother now failure)
      | ok value' => exact ⟨by simp [meet, htime], rfl⟩
  | act update next ih => exact ih () h htime
  | record entry next ih => exact ih h htime
  | moment next ih => exact fun turn' hturn => ih now turn' (h turn' hturn) htime
  | wait due abandon next ih =>
      exact h.wait le_rfl (fun hnone => hnone ▸ meet_none _) fun now' hnow hnext =>
        ih hnext (htime.trans hnow)

theorem ends_rightFound {value : β} (h : Ends outcome first left now turn)
    (houtcome : Succeeds outcome) (htime : time ≤ now) :
    Ends (meet outcome (some (time, .ok value))) first
      (collectBoth none (some value) (merge left .halt)) now turn := by
  induction left generalizing now turn with
  | halt =>
      cases h
      exact rfl
  | settle result rest ih =>
      obtain ⟨rfl, rfl⟩ := h
      cases result with
      | error failure => exact absurd rfl (houtcome now failure)
      | ok value' => exact ⟨by simp [meet, htime], rfl⟩
  | act update next ih => exact ih () h htime
  | record entry next ih => exact ih h htime
  | moment next ih => exact fun turn' hturn => ih now turn' (h turn' hturn) htime
  | wait due abandon next ih =>
      exact h.wait le_rfl (fun hnone => hnone ▸ rfl) fun now' hnow hnext =>
        ih hnext (htime.trans hnow)

theorem ends_leftNever (h : Ends other first right now turn) (hother : Succeeds other) :
    Ends none first (collectBoth none none (merge (.halt : Routine τ Unit α) right)) now turn := by
  induction right generalizing now turn with
  | halt => exact rfl
  | settle result rest ih =>
      obtain ⟨rfl, rfl⟩ := h
      cases result with
      | error failure => exact absurd rfl (hother now failure)
      | ok value => exact rfl
  | act update next ih => exact ih () h
  | record entry next ih => exact ih h
  | moment next ih => exact fun turn' hturn => ih now turn' (h turn' hturn)
  | wait due abandon next ih => exact h.wait le_rfl (fun _ => rfl) fun _ _ => ih

theorem ends_rightNever (h : Ends outcome first left now turn) (houtcome : Succeeds outcome) :
    Ends none first (collectBoth none none (merge left (.halt : Routine τ Unit β))) now turn := by
  induction left generalizing now turn with
  | halt => exact rfl
  | settle result rest ih =>
      obtain ⟨rfl, rfl⟩ := h
      cases result with
      | error failure => exact absurd rfl (houtcome now failure)
      | ok value => exact rfl
  | act update next ih => exact ih () h
  | record entry next ih => exact ih h
  | moment next ih => exact fun turn' hturn => ih now turn' (h turn' hturn)
  | wait due abandon next ih => exact h.wait le_rfl (fun _ => rfl) fun _ _ => ih

theorem ends_bothWait {after : Timed τ (α × β)} {due due' : Unit → Option (Turn τ)}
    {abandon abandon' : τ → Nat → Unit → Unit} {found : Turn τ}
    (hearliest : Turn.earliest? (due ()) (due' ()) = some found) (hfirst : first ≤ found.2)
    (hafter : Ends after first (collectBoth none none (match due (), due' () with
      | some turn, some turn' =>
        if Turn.before turn' turn then merge (.wait due abandon left) right
        else merge left (.wait due' abandon' right)
      | some _, none => merge left (.wait due' abandon' right)
      | none, _ => merge (.wait due abandon left) right)) (max now found.1) turn) :
    Ends after first (collectBoth none none
      (merge (.wait due abandon left) (.wait due' abandon' right))) now turn :=
  (ends_wait_some hearliest).mpr ⟨hfirst, hafter⟩

/-- By induction on both sides: the side that is due first goes on, and the other one still waits
for its turn then. -/
theorem ends_join (hleft : Ends outcome first left now turn)
    (hright : Ends other first right now turn)
    (houtcome : Succeeds outcome) (hother : Succeeds other) :
    Ends (meet outcome other) first (join left right) now turn := by
  unfold join
  induction left generalizing right now turn with
  | halt =>
      cases hleft
      exact ends_leftNever hright hother
  | settle result rest ih =>
      obtain ⟨rfl, rfl⟩ := hleft
      cases result with
      | error failure => exact absurd rfl (houtcome now failure)
      | ok value => exact ends_leftFound hright hother le_rfl
  | act update next ih => exact ih () hleft hright
  | record entry next ih => exact ih hleft hright
  | moment next ih =>
      exact fun turn' hturn => ih now turn' (hleft turn' hturn) (hright.mono le_rfl (by omega))
  | wait due abandon next ihLeft =>
      induction right generalizing now turn with
      | halt =>
          cases hright
          rw [meet_none]
          exact hleft.wait le_rfl (fun _ => rfl) fun _ _ hnext => ends_rightNever hnext houtcome
      | settle result rest ih =>
          obtain ⟨rfl, rfl⟩ := hright
          cases result with
          | error failure => exact absurd rfl (hother now failure)
          | ok value => exact ends_rightFound hleft houtcome le_rfl
      | act update next ih => exact ih () hleft hright
      | record entry next ih => exact ih hleft hright
      | moment next ih =>
          exact fun turn' hturn => ih now turn' (hleft.mono le_rfl (by omega)) (hright turn' hturn)
      | wait due' abandon' next' ih =>
          cases hdue : due () with
          | none =>
              have hnever := (ends_wait_none hdue).mp hleft
              cases hdue' : due' () with
              | none =>
                  refine (ends_wait_none ?_).mpr (hnever ▸ rfl)
                  rw [hdue, hdue']
                  rfl
              | some found' =>
                  obtain ⟨hfirst, hnext⟩ := (ends_wait_some hdue').mp hright
                  refine ends_bothWait (by rw [hdue, hdue']; rfl) hfirst ?_
                  simp only [hdue]
                  exact ih ((ends_wait_none hdue).mpr hnever) hnext
          | some found =>
              obtain ⟨hfirst, hnext⟩ := (ends_wait_some hdue).mp hleft
              cases hdue' : due' () with
              | none =>
                  refine ends_bothWait (by rw [hdue, hdue']; rfl) hfirst ?_
                  simp only [hdue, hdue']
                  exact ihLeft hnext ((ends_wait_none hdue').mpr ((ends_wait_none hdue').mp hright))
              | some found' =>
                  obtain ⟨hfirst', hnext'⟩ := (ends_wait_some hdue').mp hright
                  -- The merge goes on with the side whose turn is older, so the cases follow it.
                  by_cases hbefore : Turn.before found' found = true
                  · refine ends_bothWait (by rw [hdue, hdue', Turn.earliest?, if_pos hbefore])
                      hfirst' ?_
                    simp only [hdue, hdue', hbefore, if_true]
                    exact ih (hleft.advance hdue (Turn.le_of_before hbefore)) hnext'
                  · have hlate := Turn.le_of_not_before (Bool.eq_false_iff.mpr hbefore)
                    refine ends_bothWait (by rw [hdue, hdue', Turn.earliest?, if_neg hbefore])
                      hfirst ?_
                    simp only [hdue, hdue', hbefore]
                    exact ihLeft hnext (hright.advance hdue' hlate)

end Sides

/-! ### Time limits -/

/-- What is not there before the deadline is a timeout at the deadline. -/
def cut (deadline : τ) : Timed τ α → Timed τ α
  | some (time, result) =>
    if time < deadline then some (time, result) else some (deadline, .error timeout)
  | none => some (deadline, .error timeout)

/-- An outcome is not there before a routine has come to it. -/
theorem Ends.le_of_outcome (h : Ends outcome first routine now turn) {time : τ} {result : Result α}
    (houtcome : outcome = some (time, result)) : now ≤ time := by
  subst houtcome
  induction routine generalizing now turn with
  | halt => cases h
  | settle settled rest ih =>
      cases h.1
      exact le_rfl
  | act update next ih => exact ih () h
  | record entry next ih => exact ih h
  | moment next ih => exact ih now turn (h turn le_rfl)
  | wait due abandon next ih =>
      cases hdue : due () with
      | none => cases (ends_wait_none hdue).mp h
      | some found => exact (le_max_left _ _).trans (ih ((ends_wait_some hdue).mp h).2)

theorem Ends.cut_of_le (h : Ends outcome first routine now turn) {deadline : τ}
    (hdeadline : deadline ≤ now) : cut deadline outcome = some (deadline, .error timeout) := by
  cases houtcome : outcome with
  | none => rfl
  | some found =>
      have hlate : ¬found.1 < deadline :=
        not_lt.mpr (hdeadline.trans (h.le_of_outcome houtcome))
      simp [cut, hlate]

theorem ends_abandoned (abandon : τ → Nat → Unit → Unit) (hfirst : first ≤ turn) :
    Ends (some (now, .error timeout)) first (abandoned abandon : Routine τ Unit α) now turn := by
  have hfail (turn : Nat) : Ends (some (now, .error timeout)) first
      (fail timeout : Routine τ Unit α) now turn := ⟨rfl, rfl⟩
  intro turn' hturn
  have hlater : first ≤ turn' + 1 := by omega
  exact ends_yielding (ends_yielding (ends_yielding (hfail _) hlater) hlater) hlater

/-- The deadline has an older turn than all that the routine waits for, so a result that comes at
the deadline comes too late. -/
theorem ends_expire {deadline : Turn τ} {first' : Nat} (h : Ends outcome first routine now turn)
    (hnow : now < deadline.1) (hold : deadline.2 < first) (hfirst : first' ≤ deadline.2)
    (hturn : first' ≤ turn) :
    Ends (cut deadline.1 outcome) first' (expire obedient deadline routine) now turn := by
  induction routine generalizing now turn with
  | halt =>
      cases h
      refine (ends_wait_some rfl).mpr ⟨hfirst, ?_⟩
      rw [max_eq_right hnow.le]
      exact ends_yielding ⟨rfl, rfl⟩ hturn
  | settle result rest ih =>
      obtain ⟨rfl, rfl⟩ := h
      have hcut : cut deadline.1 (some (now, result)) = some (now, result) := by
        simp [cut, hnow]
      exact ends_yielding (ends_yielding ⟨hcut, rfl⟩ hturn) hturn
  | act update next ih => exact ih () h hnow hturn
  | record entry next ih => exact ih h hnow hturn
  | moment next ih => exact fun turn' hturn' => ih now turn' (h turn' hturn') hnow (by omega)
  | wait due abandon next ih =>
      have hexpired (hcut : cut deadline.1 outcome = some (deadline.1, .error timeout)) :
          Ends (cut deadline.1 outcome) first' (abandoned abandon : Routine τ Unit α)
            (max now deadline.1) turn := by
        rw [hcut, max_eq_right hnow.le]
        exact ends_abandoned abandon hturn
      cases hdue : due () with
      | none =>
          have hnever := (ends_wait_none hdue).mp h
          refine (ends_wait_some (by rw [hdue]; rfl)).mpr ⟨hfirst, ?_⟩
          refine ends_act.mpr ?_
          simp only [hdue]
          exact hexpired (hnever ▸ rfl)
      | some found =>
          obtain ⟨hfound, hnext⟩ := (ends_wait_some hdue).mp h
          -- Only the moments count: for equal ones the deadline has the older turn.
          by_cases hbefore : found.1 < deadline.1
          · have hearlier := before_of_lt hbefore
            refine (ends_wait_some (by rw [hdue, Turn.earliest?, if_pos hearlier])).mpr
              ⟨(hfirst.trans hold.le).trans hfound, ?_⟩
            refine ends_act.mpr ?_
            simp only [hdue, hearlier, if_true]
            exact ih hnext (max_lt hnow hbefore) hturn
          · have hlate := not_before_of_le (not_lt.mp hbefore) (hold.le.trans hfound)
            have hcut := hnext.cut_of_le ((not_lt.mp hbefore).trans (le_max_right now found.1))
            refine (ends_wait_some (by simp [hdue, Turn.earliest?, hlate])).mpr ⟨hfirst, ?_⟩
            refine ends_act.mpr ?_
            simp only [hdue, hlate]
            exact hexpired hcut

/-! ### Runs against a deadline, over any state -/

section Deadlines

variable {σ : Type} {due : σ → Option (Turn τ)} {abandon : τ → Nat → σ → σ} {next : Routine τ σ α}
  {progress : Progress τ σ}

theorem run_wait_none (hdue : due progress.state = none) :
    run progress (.wait due abandon next) = ⟨none, progress⟩ := by
  rw [run, hdue]

theorem run_wait_some (found : Turn τ) (hdue : due progress.state = some found) :
    run progress (.wait due abandon next) =
      run { progress with now := later progress.now found.1 } next := by
  rw [run, hdue]

/-- Letting others go on takes one turn and no time. -/
theorem run_yielding (progress : Progress τ σ) (routine : Routine τ σ α) :
    run progress (yielding routine) = run { progress with turn := progress.turn + 1 } routine := by
  simp only [yielding, run, later_eq, max_self]

/-- A run never goes back in time. -/
theorem now_le_run (progress : Progress τ σ) (routine : Routine τ σ α) :
    progress.now ≤ (run progress routine).final.now := by
  induction routine generalizing progress with
  | halt => exact le_refl _
  | settle result rest ih => exact le_refl _
  | act update next ih =>
      exact ih progress.state { progress with state := update progress.state }
  | record entry next ih => exact ih { progress with journal := entry :: progress.journal }
  | moment next ih =>
      exact ih progress.now progress.turn { progress with turn := progress.turn + 1 }
  | wait due abandon next ih =>
      cases hdue : due progress.state with
      | none => rw [run_wait_none hdue]
      | some found =>
          rw [run_wait_some found hdue]
          calc progress.now
              ≤ max progress.now found.1 := le_max_left _ _
            _ = later progress.now found.1 := (later_eq _ _).symm
            _ ≤ _ := ih { progress with now := later progress.now found.1 }

theorem run_settleLater (progress : Progress τ σ) (routine : Routine τ σ α) :
    (run progress routine.settleLater).result = (run progress routine).result := by
  induction routine generalizing progress with
  | halt => rfl
  | settle result rest ih => rfl
  | act update next ih => exact ih _ _
  | record entry next ih => exact ih _
  | moment next ih => exact ih _ _ _
  | wait due abandon next ih =>
      unfold settleLater run
      cases due progress.state with
      | none => rfl
      | some turn => exact ih _

/-- What is left of a routine at a turn, and where it stands then; nothing if it has settled
before. -/
def leftAt (deadline : Turn τ) (progress : Progress τ σ) :
    Routine τ σ α → Option (Routine τ σ α × Progress τ σ)
  | .halt => some (.halt, progress)
  | .settle _ _ => none
  | .act update next =>
    leftAt deadline { progress with state := update progress.state } (next progress.state)
  | .record entry next => leftAt deadline { progress with journal := entry :: progress.journal } next
  | .moment next =>
    leftAt deadline { progress with turn := progress.turn + 1 } (next progress.now progress.turn)
  | .wait due abandon next =>
    match due progress.state with
    | some turn =>
      if Turn.before turn deadline then
        leftAt deadline { progress with now := later progress.now turn.1 } next
      else some (.wait due abandon next, progress)
    | none => some (.wait due abandon next, progress)

/-- The progress of a routine that goes on at a deadline where it has stood until then. -/
def Progress.late (deadline : τ) (progress : Progress τ σ) : Progress τ σ :=
  { progress with now := later progress.now deadline, turn := progress.turn + 1 }

/-- What a deadline makes of a run that would come to an outcome without it, by what is left of the
routine at the deadline. Just at the deadline the outcome may be in time or late. A routine that is
late and does not end when it is told to is waited for. -/
inductive Bounded (reaction : Routine τ σ α → Option (Routine τ σ α)) (deadline : τ)
    (alone : Outcome τ σ α) (left : Option (Routine τ σ α × Progress τ σ)) :
    Option (Result α) → Prop
  | inTime {result : Result α} (hleft : left = none) (hresult : alone.result = some result)
    (hnow : alone.final.now ≤ deadline) : Bounded reaction deadline alone left (some result)
  | late {stood : Routine τ σ α} {progress : Progress τ σ} (hleft : left = some (stood, progress))
    (hlate : ∀ result, alone.result = some result → deadline ≤ alone.final.now)
    (hends : reaction stood = none) : Bounded reaction deadline alone left (some (.error timeout))
  | resisted {stood rest : Routine τ σ α} {progress : Progress τ σ}
    (hleft : left = some (stood, progress))
    (hlate : ∀ result, alone.result = some result → deadline ≤ alone.final.now)
    (hgoes : reaction stood = some rest) :
    Bounded reaction deadline alone left (run (progress.late deadline) rest).result

variable {reaction : Routine τ σ α → Option (Routine τ σ α)}

/-- What a routine comes to that is not done at its deadline: a timeout, or what it goes on with. -/
theorem Bounded.of_late {deadline : τ} {alone : Outcome τ σ α}
    {left : Option (Routine τ σ α × Progress τ σ)} {found : Option (Result α)}
    (h : Bounded reaction deadline alone left found) (hlate : deadline < alone.final.now) :
    (∃ stood, reaction stood = none ∧ found = some (.error timeout)) ∨
      ∃ stood rest progress, reaction stood = some rest ∧ found = (run progress rest).result := by
  cases h with
  | inTime _ _ hnow => exact absurd hlate (not_lt.mpr hnow)
  | late _ _ hends => exact .inl ⟨_, hends, rfl⟩
  | resisted _ _ hgoes => exact .inr ⟨_, _, _, hgoes, rfl⟩

/-- A routine that is told to end at its deadline ends there with a timeout, or goes on. -/
theorem bounded_cancel {deadline : τ} {alone : Outcome τ σ α} {stood ended : Routine τ σ α}
    (hended : ∀ start, (run (τ := τ) (σ := σ) start ended).result = some (.error timeout))
    (hlate : ∀ result, alone.result = some result → deadline ≤ alone.final.now) :
    Bounded reaction deadline alone (some (stood, progress))
      (run { progress with now := later progress.now deadline }
        (cancel reaction stood ended)).result := by
  unfold cancel
  cases hrest : reaction stood with
  | none =>
      rw [hended]
      exact .late rfl hlate hrest
  | some rest =>
      rw [run_yielding, run_settleLater, run_settleLater]
      exact .resisted rfl hlate hrest

theorem bounded_expire (deadline : Turn τ) (routine : Routine τ σ α) {progress : Progress τ σ}
    (hnow : progress.now ≤ deadline.1) :
    Bounded reaction deadline.1 (run progress routine) (leftAt deadline progress routine)
      (run progress (expire reaction deadline routine)).result := by
  induction routine generalizing progress with
  | halt => exact bounded_cancel (fun _ => rfl) nofun
  | settle result rest ih => exact .inTime rfl rfl hnow
  | act update next ih => exact ih _ hnow
  | record entry next ih =>
      exact @ih { progress with journal := entry :: progress.journal } hnow
  | moment next ih => exact @ih _ _ { progress with turn := progress.turn + 1 } hnow
  | wait due abandon next ih =>
      unfold expire leftAt
      cases hdue : due progress.state with
      | none =>
          rw [run_wait_none hdue, run_wait_some deadline (by rw [hdue]; rfl)]
          simp only [run, hdue]
          exact bounded_cancel (fun _ => rfl) nofun
      | some found =>
          rw [run_wait_some found hdue]
          cases hbefore : Turn.before found deadline with
          | true =>
              rw [run_wait_some found (by simp [Turn.earliest?, hdue, hbefore])]
              simp only [run, id, hdue, hbefore, ↓reduceIte]
              refine @ih { progress with now := later progress.now found.1 } ?_
              rw [later_eq]
              exact max_le hnow (Turn.le_of_before hbefore)
          | false =>
              rw [run_wait_some deadline (by simp [Turn.earliest?, hdue, hbefore])]
              simp only [run, id, hdue, hbefore, Bool.false_eq_true, ↓reduceIte]
              refine bounded_cancel (fun _ => rfl) fun result _ => ?_
              calc deadline.1
                  ≤ found.1 := Turn.le_of_not_before hbefore
                _ ≤ max progress.now found.1 := le_max_right _ _
                _ = later progress.now found.1 := (later_eq _ _).symm
                _ ≤ _ := now_le_run { progress with now := later progress.now found.1 } next

/-- Under a time limit the work starts one turn later, and has the limit from the start on. -/
theorem bounded_bounded {span : Number} (hspan : span.atMost 0 = false) (routine : Routine τ σ α)
    (start : Progress τ σ) :
    Bounded reaction (start.now + Clock.seconds span)
      (run { start with turn := start.turn + 1 } (yielding routine))
      (leftAt (start.now + Clock.seconds span, start.turn) { start with turn := start.turn + 1 }
        (yielding routine))
      (run start (bounded (some span) reaction routine)).result := by
  let deadline : Turn τ := (start.now + Clock.seconds span, start.turn)
  have hbounded : run start (bounded (some span) reaction routine) =
      run { start with turn := start.turn + 1 } (expire reaction deadline (yielding routine)) := by
    simp only [bounded, hspan, Bool.false_eq_true, ↓reduceIte, run, deadline]
  rw [hbounded]
  by_cases hnow : start.now ≤ deadline.1
  · exact bounded_expire deadline (yielding routine) hnow
  · have hbefore : Turn.before (start.now, start.turn + 1) deadline = false := by
      by_contra hbefore
      exact hnow (Turn.le_of_before (by simpa using hbefore))
    have hleft : leftAt deadline { start with turn := start.turn + 1 } (yielding routine) =
        some (.wait (fun _ => some (start.now, start.turn + 1)) leave routine,
          { start with turn := start.turn + 2 }) := by
      simp only [yielding, leftAt, hbefore, Bool.false_eq_true, ↓reduceIte]
    have hexpired : run { start with turn := start.turn + 1 }
        (expire reaction deadline (yielding routine)) =
        run { start with turn := start.turn + 2, now := later start.now deadline.1 }
          (cancel reaction (.wait (fun _ => some (start.now, start.turn + 1)) leave routine)
            (abandoned leave)) := by
      simp only [yielding, expire, run, Turn.earliest?, hbefore, Bool.false_eq_true, ↓reduceIte, id]
    rw [hexpired]
    refine hleft ▸ bounded_cancel (fun _ => rfl) fun result _ => (not_le.mp hnow).le.trans
      (now_le_run { start with turn := start.turn + 1 } (yielding routine))

/-- With a limit of nothing the work does not start. -/
theorem run_bounded_nothing {span : Number} (hspan : span.atMost 0 = true)
    (routine : Routine τ σ α) (start : Progress τ σ) :
    (run start (bounded (some span) reaction routine)).result = some (.error timeout) := by
  simp only [bounded, hspan, ↓reduceIte]
  rfl

end Deadlines

end Routine

end ProgramAudit
