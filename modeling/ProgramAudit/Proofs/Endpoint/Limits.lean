import Mathlib.Algebra.GroupWithZero.Nat
import ProgramAudit.Proofs.Endpoint.Crowd

/-!
The limits that a limiter keeps. However a crowd is interleaved, there are never more inside than
there are permits, starts keep their distance, and the permits that are missing are those of the
visitors who gave up between their permit and their start.
-/

namespace ProgramAudit.Endpoint

open Routine

variable {τ σ α : Type} [Clock τ] {part : Part σ (Limiter τ)} {setting : Setting τ σ}
  {crowd : Crowd τ σ α}

/-- A limiter as it is made, with nothing else to mind. -/
def Setting.plain (pace : Pace τ) (part : Part σ (Limiter τ)) (lawful : part.Lawful) (permits : Int)
    (spacing : Number) : Setting τ σ where
  pace := pace
  part := part
  lawful := lawful
  permits := (max 1 permits).toNat
  positive := permits_positive permits
  spacing := spacing
  aside _ := True
  aside_modify _ _ := id

namespace Crowd

/-- How many visitors hold a permit. -/
def holders (crowd : Crowd τ σ α) : Nat := (crowd.stages.map Stage.held).sum

def insiders (crowd : Crowd τ σ α) : Nat := crowd.stages.countP Stage.isInside

/-- Nobody at a limiter. -/
def nobody (progress : Progress τ σ) : Crowd τ σ α := { scene := { progress } }

omit [Clock τ] in
theorem insiders_le_holders (crowd : Crowd τ σ α) : crowd.insiders ≤ crowd.holders := by
  unfold insiders holders
  induction crowd.stages with
  | nil => exact le_rfl
  | cons stage rest ih =>
      rw [List.countP_cons, List.map_cons, List.sum_cons]
      cases stage <;> simp [Stage.isInside, Stage.held] <;> omega

theorem permits_eq_held {shares : List (Share τ)} {stages : List (Stage τ σ α)}
    (h : List.Forall₂ (Stage.Has setting) shares stages) :
    shares.sum.permits = (stages.map Stage.held).sum := by
  induction h with
  | nil => rfl
  | cons hshare hrest ih =>
      rw [List.sum_cons, Share.permits_add, ih, hshare.1, List.map_cons, List.sum_cons]

theorem sound_nobody {pace : Pace τ} {lawful : part.Lawful} {permits : Int} {spacing : Number}
    {progress : Progress τ σ} (hfresh : part.get progress.state = Limiter.new permits spacing) :
    (nobody progress : Crowd τ σ α).Sound (.plain pace part lawful permits spacing) where
  balanced := by
    refine ⟨[], .nil, ?_, trivial⟩
    change Accounts _ _ _ 0 _ _ (part.get progress.state)
    rw [hfresh]
    exact Accounts.new pace permits spacing progress.now progress.turn
  recorded :=
    { chain := .nil
      last := by rintro start ⟨⟩
      count := fun _ => rfl }

theorem Sound.balance (h : crowd.Sound setting) :
    (setting.part.get crowd.scene.progress.state).free +
      (setting.part.get crowd.scene.progress.state).line.calls + crowd.holders +
        crowd.scene.lost = setting.permits := by
  obtain ⟨⟨shares, hshares, hbalanced⟩, -⟩ := h
  have hbalance := hbalanced.1.permitBooks.balance
  rw [Share.permits_add, permits_eq_held hshares, ← Nat.add_assoc] at hbalance
  exact hbalance

/-- With nobody there, nobody is in the line. -/
theorem Sound.line_eq_nil (h : crowd.Sound setting) (hempty : crowd.stages = []) :
    (setting.part.get crowd.scene.progress.state).line = [] := by
  obtain ⟨⟨shares, hshares, hbalanced⟩, -⟩ := h
  rw [hempty] at hshares
  cases hshares
  have htickets := hbalanced.1.permitBooks.lists.eq
  exact List.map_eq_nil_iff.mp ((Multiset.coe_eq_zero _).mp htickets)

/-! ### Arrivals -/

section Arrivals

variable {scene : Scene τ σ} {stages : List (Stage τ σ α)} {body : Routine τ σ α}
  {limiter : Limiter τ}

/-- Whoever came last does something. -/
theorem step_visit {scene' : Scene τ σ} {stage : Stage τ σ α} {next : Option (Stage τ σ α)}
    (h : Visit part scene stage scene' next) :
    Step part ⟨scene, stage :: stages⟩ ⟨scene', next.toList ++ stages⟩ := by
  have hstep : Step part ⟨scene, [] ++ stage :: stages⟩ ⟨scene', [] ++ next.toList ++ stages⟩ :=
    .visit h
  exact hstep

/-- The scene once somebody has come while there was a permit and the gate was open, and is in the
gate. -/
def inGate (part : Part σ (Limiter τ)) (scene : Scene τ σ) : Scene τ σ :=
  { scene with
    progress :=
      { scene.progress with
        turn := scene.progress.turn + 1 + 1
        state := part.modify (Limiter.enterGate (scene.progress.turn + 1))
          (part.modify (Limiter.enter scene.progress.turn) scene.state) } }

section

variable (lawful : part.Lawful) (hlimiter : part.get scene.state = limiter)
  (hroom : limiter.hasRoom = true) (hopen : limiter.isOpen = true)

include lawful hlimiter hroom hopen

omit [Clock τ] in
theorem get_inGate : part.get (inGate part scene).state =
    { limiter with free := limiter.free - 1, gated := true } := by
  change part.get (part.modify _ (part.modify _ scene.state)) = _
  rw [lawful.get_modify, lawful.get_modify, hlimiter, Limiter.enter, if_pos hroom]
  exact if_pos hopen

/-- Whoever comes while there is a permit and the gate is open goes straight there. -/
theorem run_inGate (stages : List (Stage τ σ α)) (hspaced : limiter.isSpaced = true)
    (hbody : Spares part.get body) :
    Run part ⟨scene, stages⟩
      ⟨inGate part scene, .resting (Limiter.awaitSpan part) body :: stages⟩ := by
  let entered : Progress τ σ :=
    { scene.progress with
      turn := scene.progress.turn + 1
      state := part.modify (Limiter.enter scene.progress.turn) scene.state }
  have hentered : part.get entered.state = { limiter with free := limiter.free - 1 } := by
    change part.get (part.modify _ scene.state) = _
    rw [lawful.get_modify, hlimiter, Limiter.enter, if_pos hroom]
  have hqueue : Reaches scene.progress (Limiter.awaitPermit part) entered (succeed ()) := by
    refine .moment (.act ?_)
    change Reaches _ (if (part.get scene.state).hasRoom = true then _ else _) _ _
    rw [hlimiter, if_pos hroom]
    exact .refl _ _
  have hgate : Reaches entered (Limiter.awaitGate part) (inGate part scene).progress
      (succeed ()) := by
    have hstill : (part.get entered.state).isOpen = true := by
      rw [hentered]
      exact hopen
    refine .moment (.act ?_)
    change Reaches _ (if (part.get entered.state).isOpen = true then _ else _) _ _
    rw [if_pos hstill]
    exact .refl _ _
  have hspacing : (part.get entered.state).isSpaced = true := by
    rw [hentered]
    exact hspaced
  refine .head (.come hbody) ?_
  refine .head (step_visit (.queue hqueue trivial)) ?_
  refine .head (step_visit (.toGate hspacing)) ?_
  refine .head (step_visit (.gate hgate trivial)) ?_
  exact .single (step_visit .toSpan)

theorem delay_inGate (hrange : limiter.spacing.toReal?.isSome = true) :
    (part.get (inGate part scene).state).delay scene.progress.now =
      .ok (limiter.lastStart + Clock.seconds limiter.spacing - scene.progress.now) := by
  rw [get_inGate lawful hlimiter hroom hopen, Limiter.delay, Clock.span, if_pos hrange]
  rfl

end

section

variable {progress progress' : Progress τ σ} {rest : τ} {routine : Routine τ σ Unit}
  (hdelay : (part.get progress.state).delay progress.now = .ok rest)

include hdelay

theorem reaches_awaitSpan
    (h : Reaches { progress with turn := progress.turn + 1 } (sleepOff rest) progress' routine) :
    Reaches progress (Limiter.awaitSpan part) progress' routine := by
  rw [awaitSpan_eq]
  refine .moment (.act ?_)
  rw [hdelay]
  exact h

theorem reaches_rested (hover : Clock.notAfter rest (Clock.seconds 0) = true) :
    Reaches progress (Limiter.awaitSpan part) { progress with turn := progress.turn + 1 }
      (succeed ()) := by
  refine reaches_awaitSpan hdelay ?_
  rw [sleepOff, hover]
  exact .refl _ _

/-- Whoever is in the gate before the span is over sleeps for the rest of it. -/
theorem reaches_asleep (hahead : Clock.notAfter rest (Clock.seconds 0) = false) :
    Reaches progress (Limiter.awaitSpan part) { progress with turn := progress.turn + 1 + 1 }
      (.wait (fun _ => some (progress.now + rest, progress.turn + 1)) Routine.leave pause) := by
  refine reaches_awaitSpan hdelay ?_
  rw [sleepOff, hahead]
  exact .moment (.refl _ _)

end

/-- Whoever comes before the span is over and gives up in the gate takes the permit along. -/
theorem run_lost (stages : List (Stage τ σ α)) (lawful : part.Lawful)
    (hlimiter : part.get scene.state = limiter)
    (hroom : limiter.hasRoom = true) (hopen : limiter.isOpen = true)
    (hspaced : limiter.isSpaced = true) (hrange : limiter.spacing.toReal?.isSome = true)
    (hahead : Clock.notAfter (limiter.lastStart + Clock.seconds limiter.spacing -
      scene.progress.now) (Clock.seconds 0) = false) (hbody : Spares part.get body) :
    ∃ scene' : Scene τ σ, Run part ⟨scene, stages⟩ ⟨scene', stages⟩ ∧
      scene'.lost = scene.lost + 1 := by
  have hgate := run_inGate lawful hlimiter hroom hopen stages hspaced hbody
  have hasleep := reaches_asleep (delay_inGate lawful hlimiter hroom hopen hrange) hahead
  exact ⟨_, (hgate.tail (step_visit (.rest hasleep trivial))).tail (step_visit .leaveSpan), rfl⟩

omit [Clock τ] in
/-- An open gate has nobody in it and nobody before it, so there is nobody to call. -/
theorem leaveGate_of_isOpen {turn : Turn τ} (hopen : limiter.isOpen = true) :
    limiter.leaveGate turn = limiter := by
  obtain ⟨hgated, hline⟩ : limiter.gated = false ∧ limiter.gateLine = [] := by
    simpa [Limiter.isOpen] using hopen
  cases limiter
  cases hgated
  cases hline
  rfl

/-- Whoever is done in the gate starts, and is inside. -/
theorem run_start (stages : List (Stage τ σ α)) (body : Routine τ σ α) (lawful : part.Lawful)
    (hlimiter : part.get scene.state = { limiter with gated := true })
    (hopen : limiter.isOpen = true) :
    ∃ scene' : Scene τ σ,
      Run part ⟨scene, .resting (succeed ()) body :: stages⟩ ⟨scene', .inside body :: stages⟩ ∧
      scene'.starts = scene.progress.now :: scene.starts ∧
      scene'.progress.now = scene.progress.now ∧
      part.get scene'.state = { limiter with lastStart := scene.progress.now } := by
  let started : Limiter τ := { limiter with lastStart := scene.progress.now }
  have hleft : started.leaveGate (scene.progress.now, scene.progress.turn + 1) = started :=
    leaveGate_of_isOpen hopen
  refine ⟨_, .single (step_visit .start), rfl, rfl, ?_⟩
  change part.get (part.modify _ (part.modify _ scene.state)) = started
  rw [lawful.get_modify, lawful.get_modify, hlimiter, ← hleft]
  rfl

end Arrivals

section

variable {τ : Type} [ExactClock τ] (hzero : Clock.seconds 0 = (0 : τ)) {part : Part σ (Limiter τ)}
  {scene : Scene τ σ}

include hzero

/-- On an exact clock, whoever is in the gate is done with it when the rest of the span is over. -/
theorem run_rested (stages : List (Stage τ σ α)) (body : Routine τ σ α) {rest : τ}
    (hdelay : (part.get scene.state).delay scene.progress.now = .ok rest) :
    ∃ progress : Progress τ σ, progress.now = scene.progress.now + max 0 rest ∧
      progress.state = scene.state ∧
      Run part ⟨scene, .resting (Limiter.awaitSpan part) body :: stages⟩
        ⟨{ scene with progress }, .resting (succeed ()) body :: stages⟩ := by
  by_cases hover : rest ≤ 0
  · have hrested := reaches_rested hdelay (decide_eq_true (hzero ▸ hover))
    refine ⟨{ scene.progress with turn := scene.progress.turn + 1 }, ?_, rfl,
      .single (step_visit (.rest hrested trivial))⟩
    rw [max_eq_left hover, add_zero]
  · have hahead : 0 < rest := not_le.mp hover
    have hasleep := reaches_asleep hdelay (decide_eq_false (hzero ▸ hover))
    let asleep : Scene τ σ :=
      { scene with progress := { scene.progress with turn := scene.progress.turn + 1 + 1 } }
    let due : Scene τ σ :=
      { asleep with
        progress := { asleep.progress with now := scene.progress.now + rest } }
    have hpass : Clock.notAfter asleep.progress.now due.progress.now = true :=
      decide_eq_true (le_add_of_nonneg_right hahead.le)
    have hnow (moment : τ) : Clock.notAfter moment moment = true := decide_eq_true le_rfl
    have hwake : Reaches due.progress
        (.wait (fun _ => some (scene.progress.now + rest, scene.progress.turn + 1)) Routine.leave
          pause) { due.progress with turn := due.progress.turn + 1 } (succeed ()) :=
      .wait rfl (hnow _) (.moment (.wait rfl (hnow _) (.refl _ _)))
    refine ⟨{ due.progress with turn := due.progress.turn + 1 }, ?_, rfl, ?_⟩
    · rw [max_eq_right hahead.le]
    refine .head (step_visit (.rest hasleep trivial)) ?_
    exact .head (.pass hpass) (.single (step_visit (.rest hwake trivial)))

/-- On an exact clock, whoever comes while there is a permit and the gate is open is inside as soon as
the span since the last start is over. -/
theorem run_inside (stages : List (Stage τ σ α)) {body : Routine τ σ α} {limiter : Limiter τ}
    (lawful : part.Lawful) (hlimiter : part.get scene.state = limiter)
    (hroom : limiter.hasRoom = true) (hopen : limiter.isOpen = true)
    (hspaced : limiter.isSpaced = true) (hrange : limiter.spacing.toReal?.isSome = true)
    (hbody : Spares part.get body) :
    let start := max scene.progress.now (limiter.lastStart + Clock.seconds limiter.spacing)
    ∃ scene' : Scene τ σ, Run part ⟨scene, stages⟩ ⟨scene', .inside body :: stages⟩ ∧
      scene'.starts = start :: scene.starts ∧ scene'.progress.now = start ∧
      part.get scene'.state = { limiter with free := limiter.free - 1, lastStart := start } := by
  intro start
  have hgate := run_inGate lawful hlimiter hroom hopen stages hspaced hbody
  have hdelay : (part.get (inGate part scene).state).delay (inGate part scene).progress.now = _ :=
    delay_inGate lawful hlimiter hroom hopen hrange
  obtain ⟨progress, hnow, hstate, hrested⟩ := run_rested hzero stages body hdelay
  have hthen : progress.now = start := by
    rw [hnow, ← max_add_add_left, add_zero]
    exact congrArg _ (add_sub_cancel _ _)
  let rested : Scene τ σ := { inGate part scene with progress }
  have hresting : part.get rested.state =
      { { limiter with free := limiter.free - 1 } with gated := true } := by
    change part.get progress.state = _
    rw [hstate, get_inGate lawful hlimiter hroom hopen]
  obtain ⟨scene', hstart, hstarts, hlater, hleft⟩ := run_start stages body lawful hresting hopen
  refine ⟨scene', (hgate.trans hrested).trans hstart, ?_, hlater.trans hthen, ?_⟩
  · rw [hstarts]
    exact congrArg (· :: scene.starts) hthen
  · rw [hleft, show rested.progress.now = start from hthen]

end

/-- Whoever comes and goes, the permits that are free, promised to somebody who was called, held,
and taken along by those who gave up between their permit and their start are all the permits. Once
nobody is there, exactly the last ones are missing. -/
theorem permits_accounted (lawful : part.Lawful) {permits : Int} {spacing : Number}
    {progress : Progress τ σ} (hfresh : part.get progress.state = Limiter.new permits spacing)
    {crowd : Crowd τ σ α} (hrun : Run part (nobody progress) crowd) :
    let limiter := part.get crowd.scene.progress.state
    limiter.free + limiter.line.calls + crowd.holders + crowd.scene.lost =
        (max 1 permits).toNat ∧
      (crowd.stages = [] → limiter.free + crowd.scene.lost = (max 1 permits).toNat) := by
  have hsound : crowd.Sound (.plain (.blind τ) part lawful permits spacing) :=
    Run.sound (fun _ => trivial) hrun (sound_nobody hfresh)
  have hbalance : (part.get crowd.scene.progress.state).free +
      (part.get crowd.scene.progress.state).line.calls + crowd.holders + crowd.scene.lost =
        (max 1 permits).toNat := hsound.balance
  refine ⟨hbalance, fun hempty => ?_⟩
  have hline : (part.get crowd.scene.progress.state).line = [] := hsound.line_eq_nil hempty
  have hholders : crowd.holders = 0 := by rw [holders, hempty, List.map_nil, List.sum_nil]
  rw [hline, hholders] at hbalance
  exact hbalance

theorem permits_accounted_lost :
    ∃ crowd : Crowd Int (Limiter Int) Unit, crowd.stages = [] ∧
      crowd.scene.progress.state.free + crowd.scene.lost = 1 ∧ crowd.scene.lost = 1 := by
  let scene : Scene Int (Limiter Int) := { progress := ⟨0, 0, .new 1 5, []⟩ }
  have hbody : Spares Part.itself.get (succeed () : Routine Int (Limiter Int) Unit) := trivial
  have hfresh : Part.itself.get scene.state = Limiter.new 1 5 := rfl
  obtain ⟨scene', hrun, hlost⟩ := run_lost [] .itself hfresh (by decide) (by decide) (by decide)
    (by decide) (by decide +kernel) hbody
  exact ⟨⟨scene', []⟩, rfl, (permits_accounted .itself hfresh hrun).2 rfl, hlost⟩

/-- Whoever is timed out in the gate is gone for good with the only permit: nobody is left, no
permit is free, and the next one to come waits forever. -/
theorem permit_lost_on_timeout :
    let outcome := (within (some 1) (Limiter.limited .itself (succeed ()))).run
      (⟨0, 0, .new 1 5, []⟩ : Progress Int (Limiter Int))
    let limiter := outcome.final.state
    outcome.result.map Except.toBool = some false ∧
      limiter.free = 0 ∧ limiter.line.isEmpty = true ∧ limiter.gateLine.isEmpty = true ∧
        limiter.gated = false ∧
      ((Limiter.limited .itself (succeed ())).run outcome.final).result.isNone = true := by
  decide +kernel

/-- Under an exact clock there are never more inside than there are permits, everyone who has come
inside has a recorded start, and the starts keep their distance. -/
theorem within_limits {τ : Type} [ExactClock τ] (hzero : Clock.seconds 0 = (0 : τ))
    {part : Part σ (Limiter τ)} (lawful : part.Lawful) {permits : Int} {spacing : Number}
    (hspacing : Number.less 0 spacing = true) {progress : Progress τ σ}
    (hfresh : part.get progress.state = Limiter.new permits spacing) {crowd : Crowd τ σ α}
    (hrun : Run part (nobody progress) crowd) :
    (crowd.insiders : Int) ≤ max 1 permits ∧
      crowd.scene.starts.length = crowd.scene.admitted ∧
        crowd.scene.starts.IsChain fun later earlier =>
          earlier + Clock.seconds spacing ≤ later := by
  have hsound : crowd.Sound (.plain (.exact hzero) part lawful permits spacing) :=
    Run.sound (fun _ => trivial) hrun (sound_nobody hfresh)
  refine ⟨?_, hsound.recorded.count hspacing, hsound.recorded.chain⟩
  have hbalance : _ = (max 1 permits).toNat := hsound.balance
  have hinside := crowd.insiders_le_holders
  omega

/-- Two visitors with both permits. The first one starts when a span is over from the beginning on, and
the second one a span later. -/
theorem within_limits_both :
    ∃ crowd : Crowd Int (Limiter Int) Unit, crowd.insiders = 2 ∧
      crowd.scene.starts = [Clock.seconds 5 + Clock.seconds 5, Clock.seconds 5] ∧
      (crowd.insiders : Int) ≤ max 1 2 ∧ crowd.scene.starts.length = crowd.scene.admitted ∧
        crowd.scene.starts.IsChain fun later earlier => earlier + Clock.seconds 5 ≤ later := by
  let scene : Scene Int (Limiter Int) := { progress := ⟨0, 0, .new 2 5, []⟩ }
  have hzero : Clock.seconds 0 = (0 : Int) := by decide +kernel
  have hbody : Spares Part.itself.get (succeed () : Routine Int (Limiter Int) Unit) := trivial
  have hfresh : Part.itself.get scene.state = Limiter.new 2 5 := rfl
  obtain ⟨first, hfirst, hstart, hnow, hleft⟩ := run_inside hzero [] .itself hfresh (by decide)
    (by decide) (by decide) (by decide) hbody
  obtain ⟨second, hsecond, hstarts, -, -⟩ := run_inside hzero [.inside (succeed ())] .itself hleft
    (by decide +kernel) (by decide +kernel) (by decide +kernel) (by decide +kernel) hbody
  have hrun := hfirst.trans hsecond
  refine ⟨_, rfl, ?_, within_limits hzero .itself (by decide) hfresh hrun⟩
  rw [hstarts, hstart, hnow]
  decide +kernel

end Crowd

end ProgramAudit.Endpoint
