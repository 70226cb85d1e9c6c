import Mathlib.Data.List.Forall2
import Mathlib.Tactic.SplitIfs
import ProgramAudit.Failure

/-! When a computation in several steps has a value. -/

namespace ProgramAudit

variable {α β : Type}

theorem Result.bind_eq_ok {found : Result α} {f : α → Result β} {value : β} :
    (found >>= f) = .ok value ↔ ∃ step, found = .ok step ∧ f step = .ok value := by
  cases found with
  | error failure => exact ⟨nofun, nofun⟩
  | ok step => exact ⟨fun h => ⟨step, rfl, h⟩, fun ⟨_, hstep, h⟩ => Except.ok.inj hstep ▸ h⟩

theorem Result.bind_eq_error {found : Result α} {f : α → Result β} {failure : Failure} :
    (found >>= f) = .error failure ↔
      found = .error failure ∨ ∃ step, found = .ok step ∧ f step = .error failure := by
  cases found with
  | error other =>
      constructor
      · intro h
        exact .inl (congrArg _ (Except.error.inj h))
      · rintro (h | ⟨_, ⟨⟩, _⟩)
        exact congrArg _ (Except.error.inj h)
  | ok step =>
      constructor
      · exact fun h => .inr ⟨step, rfl, h⟩
      · rintro (⟨⟨⟩⟩ | ⟨_, ⟨⟩, h⟩)
        exact h

theorem Result.bind_ok {found : Result α} {f : α → Result β} {step : α} {value : β}
    (hstep : found = .ok step) (h : f step = .ok value) : (found >>= f) = .ok value :=
  bind_eq_ok.mpr ⟨step, hstep, h⟩

theorem Result.pure_eq_ok {value other : α} : (pure value : Result α) = .ok other ↔ value = other :=
  ⟨Except.ok.inj, congrArg Except.ok⟩

theorem Result.map_eq_ok {found : Result α} {f : α → β} {value : β} :
    found.map f = .ok value ↔ ∃ step, found = .ok step ∧ f step = value := by
  cases found with
  | error failure => exact ⟨nofun, nofun⟩
  | ok step => exact ⟨fun h => ⟨step, rfl, Except.ok.inj h⟩,
      fun ⟨_, hstep, h⟩ => Except.ok.inj hstep ▸ congrArg Except.ok h⟩

theorem Result.bind_map {γ : Type} (found : Result α) (f : α → Result β) (g : β → γ) :
    (found >>= fun step => (f step).map g) = (found >>= f).map g := by
  cases found <;> rfl

theorem Result.mapM_eq_ok {f : α → Result β} {items : List α} {values : List β} :
    items.mapM f = .ok values ↔ List.Forall₂ (fun value item => f item = .ok value) values items := by
  induction items generalizing values with
  | nil =>
      rw [List.mapM_nil, Result.pure_eq_ok, List.forall₂_nil_right_iff, eq_comm]
  | cons item rest ih =>
      simp only [List.mapM_cons, Result.bind_eq_ok, Result.pure_eq_ok, List.forall₂_cons_right_iff, ih]
      constructor
      · rintro ⟨value, hvalue, values, hvalues, rfl⟩
        exact ⟨value, values, hvalue, hvalues, rfl⟩
      · rintro ⟨value, values, hvalue, hvalues, rfl⟩
        exact ⟨value, hvalue, values, hvalues, rfl⟩

theorem Result.mapM_eq_ok_map {f : α → Result β} {value : α → β} {items : List α}
    (h : ∀ item ∈ items, f item = .ok (value item)) : items.mapM f = .ok (items.map value) :=
  mapM_eq_ok.mpr (List.forall₂_map_left_iff.mpr (List.forall₂_same.mpr h))

theorem Result.mapM_map_eq_ok_map {γ : Type} {f : α → Result β} {g : γ → α} {value : γ → β}
    {items : List γ} (h : ∀ item ∈ items, f (g item) = .ok (value item)) :
    (items.map g).mapM f = .ok (items.map value) := by
  rw [List.mapM_map]
  exact mapM_eq_ok_map h

/-- Steps that undo a map. -/
theorem Result.mapM_map_eq_ok {f : α → Result β} {g : β → α} {items : List β}
    (h : ∀ item ∈ items, f (g item) = .ok item) : (items.map g).mapM f = .ok items :=
  (mapM_map_eq_ok_map h).trans (congrArg _ (List.map_id' items))

/-- Steps that can fail in one way only fail in this way together. -/
theorem Result.eq_of_mapM_eq_error {f : α → Result β} {failure : Failure}
    (hstep : ∀ item other, f item = .error other → other = failure) {items : List α}
    {other : Failure} (h : items.mapM f = .error other) : other = failure := by
  induction items with
  | nil => cases h
  | cons item rest ih =>
      rw [List.mapM_cons] at h
      rcases bind_eq_error.mp h with hitem | ⟨_, -, hrest⟩
      · exact hstep item other hitem
      · rcases bind_eq_error.mp hrest with hrest | ⟨_, -, ⟨⟩⟩
        exact ih hrest

/-! ### Failing -/

namespace Result

/-- It fails, and by such a failure. -/
def FailsBy (P : Failure → Prop) (result : Result α) : Prop :=
  ∃ failure, result = .error failure ∧ P failure

variable {P : Failure → Prop} {found : Result α} {f : α → Result β}

theorem not_failsBy_ok {value : α} : ¬FailsBy P (.ok value) := by
  rintro ⟨_, ⟨⟩, -⟩

theorem failsBy_error {failure : Failure} : FailsBy P (.error failure : Result α) ↔ P failure := by
  constructor
  · rintro ⟨_, ⟨⟩, h⟩
    exact h
  · exact fun h => ⟨failure, rfl, h⟩

/-- One of the steps fails, after those before it had a value. -/
theorem failsBy_bind :
    FailsBy P (found >>= f) ↔ FailsBy P found ∨ ∃ step, found = .ok step ∧ FailsBy P (f step) := by
  cases found with
  | error failure =>
      change FailsBy P (.error failure : Result β) ↔ _
      rw [failsBy_error, failsBy_error]
      exact ⟨.inl, fun h => h.resolve_right fun ⟨_, hstep, _⟩ => nomatch hstep⟩
  | ok step =>
      constructor
      · exact fun h => .inr ⟨step, rfl, h⟩
      · rintro (h | ⟨_, ⟨⟩, h⟩)
        · exact absurd h not_failsBy_ok
        · exact h

theorem FailsBy.bind_left (h : FailsBy P found) : FailsBy P (found >>= f) :=
  failsBy_bind.mpr (.inl h)

theorem FailsBy.bind_right {step : α} (hstep : found = .ok step) (h : FailsBy P (f step)) :
    FailsBy P (found >>= f) := failsBy_bind.mpr (.inr ⟨step, hstep, h⟩)

theorem failsBy_ite {condition : Prop} [Decidable condition] {value : α} :
    FailsBy P (if condition then found else .ok value) ↔ condition ∧ FailsBy P found := by
  split_ifs with h
  · exact (and_iff_right h).symm
  · exact iff_of_false not_failsBy_ok fun hfails => h hfails.1

theorem failsBy_map {g : α → β} : FailsBy P (found.map g) ↔ FailsBy P found := by
  cases found with
  | error failure => exact failsBy_error.trans failsBy_error.symm
  | ok step => exact iff_of_false not_failsBy_ok not_failsBy_ok

/-- It fails somehow. -/
abbrev Fails (result : Result α) : Prop := FailsBy (fun _ => True) result

theorem fails_or_exists (found : Result α) : Fails found ∨ ∃ value, found = .ok value := by
  cases found with
  | error failure => exact .inl ⟨failure, rfl, trivial⟩
  | ok value => exact .inr ⟨value, rfl⟩

/-- A step whose failing depends on none before it. -/
theorem fails_bind {Q : Prop} (h : ∀ step, found = .ok step → (Fails (f step) ↔ Q)) :
    Fails (found >>= f) ↔ Fails found ∨ Q := by
  refine failsBy_bind.trans ?_
  rcases fails_or_exists found with hfails | ⟨step, hstep⟩
  · exact iff_of_true (.inl hfails) (.inl hfails)
  · refine or_congr_right ⟨?_, fun hq => ⟨step, hstep, (h step hstep).mpr hq⟩⟩
    rintro ⟨other, hother, hfails⟩
    exact (h other hother).mp hfails

/-- Behind the first step nothing fails. -/
theorem fails_bind_iff_left (h : ∀ step, found = .ok step → ¬Fails (f step)) :
    Fails (found >>= f) ↔ Fails found :=
  (fails_bind fun step hstep => iff_of_false (h step hstep) id).trans (or_iff_left id)

theorem fails_mapM {items : List α} : Fails (items.mapM f) ↔ ∃ item ∈ items, Fails (f item) := by
  induction items with
  | nil => exact iff_of_false not_failsBy_ok (by simp)
  | cons item rest ih =>
      have hrest (first : β) : Fails (rest.mapM f >>= fun found => pure (first :: found)) ↔
          ∃ other ∈ rest, Fails (f other) := by
        have hpure (values : List β) : Fails (pure (first :: values) : Result (List β)) ↔ False :=
          iff_of_false not_failsBy_ok id
        rw [fails_bind fun values _ => hpure values, or_false, ih]
      rw [List.mapM_cons, fails_bind fun first _ => hrest first]
      simp only [List.mem_cons, exists_eq_or_imp]

/-! ### Having a value -/

/-- It has a value. -/
def Succeeds (result : Result α) : Prop := ∃ value, result = .ok value

theorem succeeds_ok {value : α} : Succeeds (.ok value) := ⟨value, rfl⟩

theorem not_succeeds_error {failure : Failure} : ¬Succeeds (.error failure : Result α) := nofun

theorem not_succeeds_iff : ¬Succeeds found ↔ ∃ failure, found = .error failure := by
  cases found with
  | error failure => exact iff_of_true not_succeeds_error ⟨failure, rfl⟩
  | ok value => exact iff_of_false (not_not_intro succeeds_ok) nofun

/-- Behind a step with a value, the rest has one. -/
theorem succeeds_bind :
    Succeeds (found >>= f) ↔ ∃ step, found = .ok step ∧ Succeeds (f step) := by
  cases found with
  | error failure => exact iff_of_false not_succeeds_error nofun
  | ok step =>
      constructor
      · exact fun h => ⟨step, rfl, h⟩
      · rintro ⟨_, ⟨⟩, h⟩
        exact h

/-- A rest whose value depends on nothing before it. -/
theorem succeeds_bind_and {Q : Prop} (h : ∀ step, found = .ok step → (Succeeds (f step) ↔ Q)) :
    Succeeds (found >>= f) ↔ Succeeds found ∧ Q := by
  rw [succeeds_bind]
  constructor
  · rintro ⟨step, hstep, hrest⟩
    exact ⟨⟨step, hstep⟩, (h step hstep).mp hrest⟩
  · rintro ⟨⟨step, hstep⟩, hq⟩
    exact ⟨step, hstep, (h step hstep).mpr hq⟩

/-- Behind the first step nothing fails. -/
theorem succeeds_bind_iff_left (h : ∀ step, found = .ok step → Succeeds (f step)) :
    Succeeds (found >>= f) ↔ Succeeds found :=
  (succeeds_bind_and fun step hstep => iff_of_true (h step hstep) trivial).trans (and_iff_left trivial)

theorem succeeds_mapM {items : List α} :
    Succeeds (items.mapM f) ↔ ∀ item ∈ items, Succeeds (f item) := by
  induction items with
  | nil => exact iff_of_true succeeds_ok nofun
  | cons item rest ih =>
      have hrest (first : β) : Succeeds (rest.mapM f >>= fun found => pure (first :: found)) ↔
          ∀ other ∈ rest, Succeeds (f other) :=
        (succeeds_bind_iff_left fun _ _ => succeeds_ok).trans ih
      rw [List.mapM_cons, succeeds_bind_and fun first _ => hrest first, List.forall_mem_cons]

end Result

theorem Option.demand_eq_ok {field : String} {given : Option α} {value : α} :
    Option.demand field given = .ok value ↔ given = some value := by
  cases given with
  | none => exact ⟨nofun, nofun⟩
  | some held => exact ⟨fun h => congrArg some (Except.ok.inj h), fun h => Option.some.inj h ▸ rfl⟩

end ProgramAudit
