import Mathlib.Data.List.Forall2
import ProgramAudit.Proofs.Routine.Settles
import ProgramAudit.Proofs.Routine.Steady
import ProgramAudit.Routine.Retry

/-!
Routines that cannot be told apart: they take the same time to the same result. A routine that is
sure to come to a value after some time leaves a run with that value, however long it takes.
-/

namespace ProgramAudit.Routine

variable {τ α β γ : Type} [ExactClock τ] {first : Nat} {routine : Routine τ Unit α} {now : τ}
  {turn : Nat} {spans : Timed τ α}

omit [ExactClock τ] in
theorem succeeds_none : Succeeds (none : Timed τ α) := by
  intro time failure h
  cases h

omit [ExactClock τ] in
theorem succeeds_value (time : τ) (value : α) : Succeeds (some (time, .ok value)) := by
  intro other failure h
  cases h

omit [ExactClock τ] in
theorem succeeds_map {f : Result α → Result β} (hspans : Succeeds spans)
    (hf : ∀ value, ∃ value', f (.ok value) = .ok value') :
    Succeeds (spans.map (Prod.map id f)) := by
  rcases spans with _ | ⟨span, failure | value⟩
  · exact succeeds_none
  · exact absurd rfl (hspans span failure)
  · obtain ⟨value', hvalue'⟩ := hf value
    have hmap : (some (span, Except.ok value)).map (Prod.map id f) = some (span, .ok value') :=
      congrArg (fun result => some (span, result)) hvalue'
    exact hmap ▸ succeeds_value span value'

/-- The routine takes a fixed time and has a fixed result, or it never ends. -/
def Fixed (routine : Routine τ Unit α) : Prop := ∃ spans, Steady spans routine

/-- Both routines take the same time and have the same result. -/
def Alike (left right : Routine τ Unit α) : Prop := ∃ spans, Steady spans left ∧ Steady spans right

/-- Both routines take the same time to the same value, and neither fails. -/
def SurelyAlike (left right : Routine τ Unit α) : Prop :=
  ∃ spans, Succeeds spans ∧ Steady spans left ∧ Steady spans right

/-- The routine always comes to a value. -/
def Certain (value : α) (routine : Routine τ Unit α) : Prop :=
  ∃ span, Steady (some (span, .ok value)) routine

variable {left right : Routine τ Unit α}

theorem Fixed.alike (h : Fixed routine) : Alike routine routine :=
  h.elim fun spans hsteady => ⟨spans, hsteady, hsteady⟩

theorem SurelyAlike.alike (h : SurelyAlike left right) : Alike left right :=
  h.elim fun spans hsure => ⟨spans, hsure.2⟩

theorem alike_ofResult (result : Result α) :
    Alike (ofResult result : Routine τ Unit α) (ofResult result) :=
  ⟨_, steady_ofResult result, steady_ofResult result⟩

theorem alike_note (entry entry' : Journal.Record) :
    Alike (note entry : Routine τ Unit Unit) (note entry') := alike_ofResult (.ok ())

theorem steady_notes (entries : List Journal.Record) :
    Steady (some (0, .ok ())) (notes entries : Routine τ Unit Unit) := by
  induction entries with
  | nil => exact steady_ofResult (.ok ())
  | cons entry rest ih => exact ih

theorem alike_notes (entries entries' : List Journal.Record) :
    Alike (notes entries : Routine τ Unit Unit) (notes entries') :=
  ⟨_, steady_notes entries, steady_notes entries'⟩

theorem alike_mapResult {f : Result α → Result β} (h : Alike left right) :
    Alike (left.mapResult f) (right.mapResult f) := by
  obtain ⟨spans, hleft, hright⟩ := h
  exact ⟨_, steady_mapResult hleft, steady_mapResult hright⟩

theorem alike_bind {f g : α → Routine τ Unit β} (h : Alike left right)
    (hf : ∀ value, Alike (f value) (g value)) : Alike (left.bind f) (right.bind g) := by
  obtain ⟨spans, hleft, hright⟩ := h
  choose after hleftAfter hrightAfter using hf
  exact ⟨_, steady_bind hleft hleftAfter, steady_bind hright hrightAfter⟩

theorem fixed_sleep (delay : Number) : Fixed (sleep delay : Routine τ Unit Unit) := by
  unfold sleep
  split
  · exact ⟨_, steady_yielding (steady_ofResult _)⟩
  · exact ⟨_, steady_sleepFor _⟩

theorem surelyAlike_succeed (value : α) :
    SurelyAlike (succeed value : Routine τ Unit α) (succeed value) :=
  ⟨_, succeeds_value 0 value, steady_ofResult (.ok value), steady_ofResult (.ok value)⟩

theorem surelyAlike_attempt (h : Alike left right) :
    SurelyAlike left.attempt right.attempt := by
  obtain ⟨spans, hleft, hright⟩ := h
  refine ⟨_, ?_, steady_mapResult hleft, steady_mapResult hright⟩
  cases spans with
  | none => exact succeeds_none
  | some found => exact succeeds_value found.1 found.2

theorem surelyAlike_settleLater (h : SurelyAlike left right) :
    SurelyAlike left.settleLater right.settleLater := by
  obtain ⟨spans, hspans, hleft, hright⟩ := h
  exact ⟨spans, hspans, steady_settleLater hleft, steady_settleLater hright⟩

theorem surelyAlike_spawned (h : SurelyAlike left right) :
    SurelyAlike (spawned left) (spawned right) := by
  obtain ⟨spans, hspans, hleft, hright⟩ := h
  exact ⟨spans, hspans, steady_spawned hleft, steady_spawned hright⟩

theorem surelyAlike_map {f : α → β} (h : SurelyAlike left right) :
    SurelyAlike (left.map f) (right.map f) := by
  obtain ⟨spans, hspans, hleft, hright⟩ := h
  exact ⟨_, succeeds_map hspans fun value => ⟨f value, rfl⟩, steady_mapResult hleft,
    steady_mapResult hright⟩

theorem surelyAlike_join {left' right' : Routine τ Unit β} (h : SurelyAlike left right)
    (h' : SurelyAlike left' right') : SurelyAlike (join left left') (join right right') := by
  obtain ⟨spans, hspans, hleft, hright⟩ := h
  obtain ⟨other, hother, hleft', hright'⟩ := h'
  exact ⟨_, succeeds_meet spans other, steady_join hleft hleft' hspans hother,
    steady_join hright hright' hspans hother⟩

theorem surelyAlike_joinAll {lefts rights : List (Routine τ Unit α)}
    (h : List.Forall₂ SurelyAlike lefts rights) : SurelyAlike (joinAll lefts) (joinAll rights) := by
  induction h with
  | nil => exact surelyAlike_succeed []
  | cons hfirst hrest ih =>
      cases hrest with
      | nil => exact surelyAlike_map hfirst
      | cons hsecond hrest => exact surelyAlike_map (surelyAlike_join hfirst ih)

theorem surelyAlike_all {lefts rights : List (Routine τ Unit α)}
    (h : List.Forall₂ SurelyAlike lefts rights) : SurelyAlike (all lefts) (all rights) := by
  cases h with
  | nil => exact surelyAlike_succeed []
  | cons hfirst hrest =>
      refine surelyAlike_settleLater (surelyAlike_joinAll ?_)
      rw [List.forall₂_map_left_iff, List.forall₂_map_right_iff]
      exact (List.Forall₂.cons hfirst hrest).imp fun _ _ => surelyAlike_spawned

theorem alike_rescue {handle handle' : Failure → Routine τ Unit α} (h : Alike left right)
    (hhandle : ∀ failure, Alike (handle failure) (handle' failure)) :
    Alike (left.rescue handle) (right.rescue handle') := by
  refine alike_bind (surelyAlike_attempt h).alike fun result => ?_
  cases result with
  | ok value => exact alike_ofResult (.ok value)
  | error failure => exact hhandle failure

theorem alike_attemptsFrom {operation : String} {sleep : Number → Routine τ Unit Unit}
    {attempt attempts : Nat} {delays : List Number} (hsleep : ∀ delay, Fixed (sleep delay))
    (h : Alike left right) :
    Alike (attemptsFrom operation sleep left attempt attempts delays)
      (attemptsFrom operation sleep right attempt attempts delays) := by
  induction delays generalizing attempt with
  | nil =>
      refine alike_rescue h fun failure => ?_
      cases failure with
      | transient message status =>
          exact alike_bind (alike_note _ _) fun _ => alike_bind (alike_note _ _) fun _ =>
            alike_ofResult (.error _)
      | _ => exact alike_ofResult (.error _)
  | cons delay delays ih =>
      refine alike_rescue h fun failure => ?_
      cases failure with
      | transient message status =>
          exact alike_bind (alike_note _ _) fun _ => alike_bind (hsleep delay).alike fun _ => ih
      | _ => exact alike_ofResult (.error _)

/-- Repeated attempts cannot be told apart if the single ones cannot. -/
theorem alike_retry {operation : String} {sleep : Number → Routine τ Unit Unit}
    {delays : List Number} (hsleep : ∀ delay, Fixed (sleep delay)) (h : Alike left right) :
    Alike (retry operation delays sleep left) (retry operation delays sleep right) :=
  alike_attemptsFrom hsleep h

/-! ### Values that a routine always comes to -/

theorem certain_succeed (value : α) : Certain value (succeed value : Routine τ Unit α) :=
  ⟨_, steady_ofResult (.ok value)⟩

theorem certain_notes (entries : List Journal.Record) :
    Certain () (notes entries : Routine τ Unit Unit) := ⟨_, steady_notes entries⟩

theorem certain_attempt {value : α} (h : Certain value routine) :
    Certain (.ok value) routine.attempt :=
  h.elim fun span hsteady => ⟨span, steady_mapResult (f := Except.ok) hsteady⟩

theorem certain_settleLater {value : α} (h : Certain value routine) :
    Certain value routine.settleLater :=
  h.elim fun span hsteady => ⟨span, steady_settleLater hsteady⟩

theorem certain_spawned {value : α} (h : Certain value routine) : Certain value (spawned routine) :=
  h.elim fun span hsteady => ⟨span, steady_spawned hsteady⟩

theorem certain_inStage {stage : String} {value : α} (h : Certain value routine) :
    Certain value (routine.inStage stage) :=
  h.elim fun span hsteady => ⟨span, steady_inStage hsteady⟩

theorem certain_join {left : Routine τ Unit α} {right : Routine τ Unit β} {value : α} {value' : β}
    (hleft : Certain value left) (hright : Certain value' right) :
    Certain (value, value') (join left right) := by
  obtain ⟨span, hleft⟩ := hleft
  obtain ⟨span', hright⟩ := hright
  exact ⟨_, steady_join hleft hright (succeeds_value span value) (succeeds_value span' value')⟩

theorem certain_bind {value : α} {value' : β} {f : α → Routine τ Unit β}
    (h : Certain value routine) (hf : Certain value' (f value)) :
    Certain value' (routine.bind f) := by
  obtain ⟨span, hsteady⟩ := h
  obtain ⟨span', hsteady'⟩ := hf
  refine ⟨span + span', fun first now turn hfirst => ?_⟩
  refine ends_bind (hsteady first now turn hfirst) ?_ ?_ ?_
  · intro time found houtcome turn' hturn
    cases houtcome
    have hshift : shifted now (some (span + span', .ok value')) =
        shifted (now + span) (some (span', .ok value')) :=
      shifted_shifted now span (some (span', .ok value'))
    rw [hshift]
    exact hsteady' first _ turn' (hfirst.trans hturn)
  · intro time failure houtcome
    cases houtcome
  · intro houtcome
    cases houtcome

/-- A routine under a time limit always ends with some result. -/
theorem certain_attempt_within (limit : Number) (h : Alike left right) : ∃ result,
    Certain result (within (some limit) left).attempt ∧
    Certain result (within (some limit) right).attempt := by
  obtain ⟨spans, hleft, hright⟩ := h
  obtain ⟨⟨span, result⟩, hspans⟩ := Option.isSome_iff_exists.mp (limited_isSome limit spans)
  have hattempt {routine : Routine τ Unit α} (hsteady : Steady spans routine) :
      Certain result (within (some limit) routine).attempt := by
    have hwithin : Steady (limited limit spans) (within (some limit) routine) :=
      steady_within hsteady
    rw [hspans] at hwithin
    exact ⟨span, steady_mapResult (f := Except.ok) hwithin⟩
  exact ⟨result, hattempt hleft, hattempt hright⟩

/-- A run goes on behind a routine with the value that the routine always comes to. -/
theorem Ends.run_bind {time : τ} {value : α}
    (h : Ends (some (time, .ok value)) first routine now turn) {progress : Progress τ Unit}
    (hnow : progress.now = now) (hturn : turn ≤ progress.turn)
    (f : α → Routine τ Unit β) (g : β → Routine τ Unit γ) :
    ∃ progress', run progress ((routine.bind f).bind g) = run progress' ((f value).bind g) := by
  induction routine generalizing now turn progress with
  | halt => cases h
  | settle result rest ih =>
      obtain ⟨houtcome, rfl⟩ := h
      cases houtcome
      exact ⟨progress, rfl⟩
  | act update next ih => exact ih () h hnow hturn
  | record entry next ih => exact ih h hnow hturn
  | moment next ih =>
      subst hnow
      exact ih progress.now progress.turn (h progress.turn hturn) rfl le_rfl
  | wait due abandon next ih =>
      cases hdue : due () with
      | none => cases (ends_wait_none hdue).mp h
      | some found =>
          obtain ⟨-, hnext⟩ := (ends_wait_some hdue).mp h
          subst hnow
          simp only [bind, run, hdue]
          exact ih hnext (later_eq progress.now found.1) hturn

/-- Whatever a run of the routine ends with meets a condition. -/
def Leads (P : Result α → Prop) (routine : Routine τ Unit α) : Prop :=
  ∀ progress result, (run progress routine).result = some result → P result

variable {P : Result γ → Prop}

theorem leads_of_settles {routine : Routine τ Unit γ} (h : routine.Settles P) : Leads P routine :=
  fun progress _ hresult => run_settles progress h hresult

theorem leads_ofResult_bind {result : Result β} {f : β → Routine τ Unit γ}
    (hvalue : ∀ value, result = .ok value → Leads P (f value))
    (hfailure : ∀ failure, result = .error failure → P (.error failure)) :
    Leads P ((ofResult result).bind f) := by
  cases result with
  | ok value => exact hvalue value rfl
  | error failure =>
      intro progress found hfound
      cases hfound
      exact hfailure failure rfl

theorem leads_note_bind {entry : Journal.Record} {f : Unit → Routine τ Unit γ}
    (h : Leads P (f ())) : Leads P ((note entry).bind f) := fun _ => h _

theorem leads_certain_bind {value : α} {f : α → Routine τ Unit β} {g : β → Routine τ Unit γ}
    (hvalue : Certain value routine) (h : Leads P ((f value).bind g)) :
    Leads P ((routine.bind f).bind g) := by
  intro progress result hresult
  obtain ⟨span, hsteady⟩ := hvalue
  obtain ⟨progress', hrun⟩ :=
    (hsteady 0 progress.now 0 le_rfl).run_bind rfl (Nat.zero_le progress.turn) f g
  exact h progress' result (hrun ▸ hresult)

theorem Leads.run {routine : Routine τ Unit γ} (h : Leads P routine) {progress : Progress τ Unit}
    {result : Result γ} (hresult : (run progress routine).result = some result) : P result :=
  h progress result hresult

-- A goal about a whole program must not be unfolded to the steps of the program.
attribute [irreducible] Leads

end ProgramAudit.Routine
