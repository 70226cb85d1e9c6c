import ProgramAudit.Proofs.Routine.Ends

/-!
Routines that take a fixed time: whenever one starts, it ends after the same span with the same
result. The spans of routines in a row add up, and those side by side are as long as the longer one.
-/

namespace ProgramAudit.Routine

variable {τ α β γ : Type} [ExactClock τ] {first : Nat} {routine : Routine τ Unit α} {now : τ}
  {turn : Nat}

/-- What happens after a span, for a start at a moment. -/
def shifted (now : τ) (spans : Timed τ α) : Timed τ α :=
  spans.map fun found => (now + found.1, found.2)

/-- A routine that ends after the same span with the same result whenever it starts. -/
def Steady (spans : Timed τ α) (routine : Routine τ Unit α) : Prop :=
  ∀ first now turn, first ≤ turn → Ends (shifted now spans) first routine now turn

variable {spans : Timed τ α}

theorem steady_ofResult (result : Result α) :
    Steady (some (0, result)) (ofResult result : Routine τ Unit α) := by
  intro first now turn _
  exact ⟨by simp [shifted], rfl⟩

theorem steady_halt : Steady (none : Timed τ α) (halt : Routine τ Unit α) :=
  fun _ _ _ _ => rfl

theorem steady_mapResult {f : Result α → Result β} (h : Steady spans routine) :
    Steady (spans.map (Prod.map id f)) (routine.mapResult f) := by
  intro first now turn hfirst
  have hmapped := ends_mapResult (f := f) (h first now turn hfirst)
  have hshift : shifted now (spans.map (Prod.map id f)) =
      (shifted now spans).map (Prod.map id f) := by
    cases spans <;> rfl
  rwa [hshift]

theorem steady_inStage {stage : String} (h : Steady spans routine) :
    Steady spans (routine.inStage stage) :=
  fun first now turn hfirst => ends_inStage (h first now turn hfirst)

theorem steady_yielding (h : Steady spans routine) : Steady spans (yielding routine) :=
  fun first now turn hfirst => ends_yielding (h first now turn hfirst) hfirst

theorem steady_settleLater (h : Steady spans routine) : Steady spans routine.settleLater :=
  fun first now turn hfirst => ends_settleLater (h first now turn hfirst) hfirst

theorem steady_spawned (h : Steady spans routine) : Steady spans (spawned routine) :=
  steady_settleLater (steady_yielding h)

theorem steady_sleepFor (span : τ) :
    Steady (some (max 0 span, .ok ())) (sleepFor span : Routine τ Unit Unit) := by
  intro first now turn hfirst turn' hturn
  refine (ends_wait_some rfl).mpr ⟨hfirst.trans hturn, ?_⟩
  refine ends_yielding ⟨?_, rfl⟩ (by omega)
  have hmax : max now (now + span) = now + max 0 span := by
    simpa using (max_add_add_left now 0 span)
  exact congrArg (fun time => some (time, Except.ok ())) hmax.symm

/-- One routine after another. -/
def follow (spans : Timed τ α) (after : α → Timed τ β) : Timed τ β :=
  match spans with
  | none => none
  | some (span, .ok value) => shifted span (after value)
  | some (span, .error failure) => some (span, .error failure)

theorem shifted_shifted (now span : τ) (spans : Timed τ α) :
    shifted now (shifted span spans) = shifted (now + span) spans := by
  cases spans with
  | none => rfl
  | some found =>
      exact congrArg (fun time => some (time, found.2)) (add_assoc now span found.1).symm

theorem steady_bind {after : α → Timed τ β} {f : α → Routine τ Unit β} (h : Steady spans routine)
    (hf : ∀ value, Steady (after value) (f value)) :
    Steady (follow spans after) (routine.bind f) := by
  intro first now turn hfirst
  refine ends_bind (h first now turn hfirst) ?_ ?_ ?_
  · intro time value houtcome turn' hturn
    rcases spans with _ | ⟨span, failure | found⟩
    · cases houtcome
    · cases houtcome
    · cases houtcome
      rw [follow, shifted_shifted]
      exact hf value first _ turn' (hfirst.trans hturn)
  · intro time failure houtcome
    rcases spans with _ | ⟨span, other | found⟩
    · cases houtcome
    · cases houtcome
      rfl
    · cases houtcome
  · intro houtcome
    rcases spans with _ | found
    · rfl
    · cases houtcome

theorem steady_join {left : Routine τ Unit α} {right : Routine τ Unit β} {other : Timed τ β}
    (hleft : Steady spans left) (hright : Steady other right) (hspans : Succeeds spans)
    (hother : Succeeds other) : Steady (meet spans other) (join left right) := by
  have hshift {γ : Type} {spans : Timed τ γ} (h : Succeeds spans) (now : τ) :
      Succeeds (shifted now spans) := by
    intro time failure hfailure
    rcases spans with _ | ⟨span, found⟩
    · cases hfailure
    · cases hfailure
      exact h span failure rfl
  intro first now turn hfirst
  have hmeet : shifted now (meet spans other) = meet (shifted now spans) (shifted now other) := by
    rcases spans with _ | ⟨span, failure | value⟩
    · rfl
    · exact absurd rfl (hspans span failure)
    · rcases other with _ | ⟨span', failure | value'⟩
      · rfl
      · exact absurd rfl (hother span' failure)
      · exact congrArg (fun time => some (time, Except.ok (value, value')))
          (max_add_add_left now span span').symm
  rw [hmeet]
  exact ends_join (hleft first now turn hfirst) (hright first now turn hfirst) (hshift hspans now)
    (hshift hother now)

/-- What is left of a routine under a time limit. -/
def limited (limit : Number) (spans : Timed τ α) : Timed τ α :=
  if limit.atMost 0 = true ∨ Clock.seconds limit ≤ (0 : τ) then some (0, .error timeout)
  else cut (Clock.seconds limit) spans

theorem shifted_cut (now deadline : τ) (spans : Timed τ α) :
    shifted now (cut deadline spans) = cut (now + deadline) (shifted now spans) := by
  cases spans with
  | none => rfl
  | some found =>
      have hiff : now + found.1 < now + deadline ↔ found.1 < deadline := add_lt_add_iff_left now
      by_cases hlt : found.1 < deadline
      · simp [cut, shifted, hlt]
      · simp [cut, shifted, hlt]

/-- A deadline that is not ahead is over before the routine starts. -/
theorem ends_expire_yielding {deadline : Turn τ} (hnow : deadline.1 ≤ now)
    (hturn : deadline.2 < turn) (hfirst : first ≤ deadline.2) :
    Ends (some (now, .error timeout)) first (expire obedient deadline (yielding routine)) now turn := by
  intro turn' hturn'
  have hlate : Turn.before (now, turn') deadline = false :=
    not_before_of_le hnow (hturn.le.trans hturn')
  refine (ends_wait_some (by simp [Turn.earliest?, hlate])).mpr ⟨hfirst, ?_⟩
  show Ends _ _ (if Turn.before (now, turn') deadline then expire obedient deadline routine
    else abandoned leave) _ _
  rw [hlate, max_eq_left hnow]
  exact ends_abandoned leave (by omega)

theorem steady_within {limit : Number} (h : Steady spans routine) :
    Steady (limited limit spans) (within (some limit) routine) := by
  intro first now turn hfirst
  by_cases hlimit : limit.atMost 0 = true
  · simp only [within, bounded, limited, hlimit, true_or, if_true]
    exact steady_yielding (steady_yielding (steady_ofResult _)) first now turn hfirst
  · simp only [within, bounded, hlimit, Bool.false_eq_true, if_false]
    intro turn' hturn'
    by_cases hspan : Clock.seconds limit ≤ (0 : τ)
    · have hover : now + Clock.seconds limit ≤ now := by simpa using add_le_add_left hspan now
      simp only [limited, hspan, or_true, if_true, shifted, Option.map_some, add_zero]
      exact ends_expire_yielding hover (Nat.lt_succ_self turn') (hfirst.trans hturn')
    · have hahead : now < now + Clock.seconds limit := by
        simpa using not_le.mp hspan
      simp only [limited, hlimit, hspan, Bool.false_eq_true, or_self, if_false, shifted_cut]
      exact ends_expire (steady_yielding h (turn' + 1) now (turn' + 1) le_rfl) hahead
        (Nat.lt_succ_self turn') (hfirst.trans hturn') (by omega)

theorem limited_isSome (limit : Number) (spans : Timed τ α) :
    (limited limit spans).isSome = true := by
  unfold limited cut
  split
  · rfl
  · split
    · split <;> rfl
    · rfl

end ProgramAudit.Routine
