import ProgramAudit.Proofs.Endpoint.Admission
import ProgramAudit.Proofs.Routine.Legs

/-!
A visit to a limiter, stage by stage: the line for permits, the line before the gate, the gate, and
the body. What is left at a stage is a part of what is left of the whole visit, and its steps are
steps of the whole.
-/

namespace ProgramAudit.Endpoint

open Routine

/-- What is left to do for somebody within the limits of a limiter: in the line for permits, with a
permit on the way to the gate, in the gate, or inside. -/
inductive Stage (τ σ α : Type) where
  | queued (rest : Routine τ σ Unit) (body : Routine τ σ α)
  | gating (rest : Routine τ σ Unit) (body : Routine τ σ α)
  | resting (rest : Routine τ σ Unit) (body : Routine τ σ α)
  | inside (rest : Routine τ σ α)

/-- Where things stand, and what has happened: the recorded starts, the last one first, how many
have come inside, and how many have gone with a permit in hand. -/
structure Scene (τ σ : Type) where
  progress : Progress τ σ
  starts : List τ := []
  admitted : Nat := 0
  lost : Nat := 0

variable {τ σ α : Type} [Clock τ]

namespace Scene

def state (scene : Scene τ σ) : σ := scene.progress.state

/-- A step that takes a turn. -/
def taking (update : τ → Nat → σ → σ) (scene : Scene τ σ) : Scene τ σ :=
  { scene with progress := { scene.progress with
      turn := scene.progress.turn + 1
      state := update scene.progress.now scene.progress.turn scene.progress.state } }

def losing (scene : Scene τ σ) : Scene τ σ := { scene with lost := scene.lost + 1 }

def admitting (scene : Scene τ σ) : Scene τ σ := { scene with admitted := scene.admitted + 1 }

def starting (scene : Scene τ σ) : Scene τ σ :=
  { scene with starts := scene.progress.now :: scene.starts }

end Scene

variable (part : Part σ (Limiter τ))

def releasePermit (now : τ) (turn : Nat) : σ → σ := part.modify (Limiter.leave (now, turn))

def releaseGate (now : τ) (turn : Nat) : σ → σ := part.modify (Limiter.leaveGate (now, turn))

/-- What one visitor does: a leg of what is left at a stage, the step to the next stage, or giving
up a wait. -/
inductive Visit : Scene τ σ → Stage τ σ α → Scene τ σ → Option (Stage τ σ α) → Prop where
  | queue {scene : Scene τ σ} {progress : Progress τ σ} {rest rest' : Routine τ σ Unit}
    {body : Routine τ σ α} (hleg : Reaches scene.progress rest progress rest')
    (hstanding : rest'.Standing) :
    Visit scene (.queued rest body) { scene with progress } (some (.queued rest' body))
  | gate {scene : Scene τ σ} {progress : Progress τ σ} {rest rest' : Routine τ σ Unit}
    {body : Routine τ σ α} (hleg : Reaches scene.progress rest progress rest')
    (hstanding : rest'.Standing) :
    Visit scene (.gating rest body) { scene with progress } (some (.gating rest' body))
  | rest {scene : Scene τ σ} {progress : Progress τ σ} {rest rest' : Routine τ σ Unit}
    {body : Routine τ σ α} (hleg : Reaches scene.progress rest progress rest')
    (hstanding : rest'.Standing) :
    Visit scene (.resting rest body) { scene with progress } (some (.resting rest' body))
  | go {scene : Scene τ σ} {progress : Progress τ σ} {rest rest' : Routine τ σ α}
    (hleg : Reaches scene.progress rest progress rest') :
    Visit scene (.inside rest) { scene with progress } (some (.inside rest'))
  | toGate {scene : Scene τ σ} {body : Routine τ σ α}
    (hspaced : (part.get scene.state).isSpaced = true) :
    Visit scene (.queued (.settle (.ok ()) .halt) body) scene
      (some (.gating (Limiter.awaitGate part) body))
  | straightIn {scene : Scene τ σ} {body : Routine τ σ α}
    (hspaced : (part.get scene.state).isSpaced = false) :
    Visit scene (.queued (.settle (.ok ()) .halt) body) scene.admitting (some (.inside body))
  | toSpan {scene : Scene τ σ} {body : Routine τ σ α} :
    Visit scene (.gating (.settle (.ok ()) .halt) body) scene
      (some (.resting (Limiter.awaitSpan part) body))
  | start {scene : Scene τ σ} {body : Routine τ σ α} :
    Visit scene (.resting (.settle (.ok ()) .halt) body)
      ((scene.starting.admitting.taking fun now _ => part.modify (Limiter.start now)).taking
        (releaseGate part))
      (some (.inside body))
  | breakOff {scene : Scene τ σ} {failure : Failure} {body : Routine τ σ α} :
    Visit scene (.resting (.settle (.error failure) .halt) body)
      (scene.losing.taking (releaseGate part)) none
  | finish {scene : Scene τ σ} {result : Result α} {done : Routine τ σ α} :
    Visit scene (.inside (.settle result done)) (scene.taking (releasePermit part)) none
  | leaveQueue {scene : Scene τ σ} {due : σ → Option (Turn τ)} {abandon : τ → Nat → σ → σ}
    {next : Routine τ σ Unit} {body : Routine τ σ α} :
    Visit scene (.queued (.wait due abandon next) body) (scene.taking abandon) none
  | leaveGate {scene : Scene τ σ} {due : σ → Option (Turn τ)} {abandon : τ → Nat → σ → σ}
    {next : Routine τ σ Unit} {body : Routine τ σ α} :
    Visit scene (.gating (.wait due abandon next) body) (scene.losing.taking abandon) none
  | leaveSpan {scene : Scene τ σ} {due : σ → Option (Turn τ)} {abandon : τ → Nat → σ → σ}
    {next : Routine τ σ Unit} {body : Routine τ σ α} :
    Visit scene (.resting (.wait due abandon next) body)
      (scene.losing.taking fun now turn state =>
        releaseGate part now turn (abandon now turn state)) none
  | leaveBody {scene : Scene τ σ} {due : σ → Option (Turn τ)} {abandon : τ → Nat → σ → σ}
    {next : Routine τ σ α} :
    Visit scene (.inside (.wait due abandon next))
      (scene.taking fun now turn state =>
        releasePermit part now turn (abandon now turn state)) none

/-- What is left of the whole visit at a stage. -/
def Stage.whole : Stage τ σ α → Routine τ σ α
  | .queued rest body =>
    (rest.bind fun _ => Limiter.passIfSpaced part).bind fun _ => body.releasing (releasePermit part)
  | .gating rest body =>
    (rest.bind fun _ => (Limiter.awaitStart part).releasing (releaseGate part)).bind fun _ =>
      body.releasing (releasePermit part)
  | .resting rest body =>
    ((rest.bind fun _ => Limiter.recordStart part).releasing (releaseGate part)).bind fun _ =>
      body.releasing (releasePermit part)
  | .inside rest => rest.releasing (releasePermit part)

variable {part}

theorem frame_queued (body : Routine τ σ α) :
    Frame fun rest => (Stage.queued rest body).whole part :=
  (Frame.bind _).comp (Frame.bind _)

theorem frame_gating (body : Routine τ σ α) :
    Frame fun rest => (Stage.gating rest body).whole part :=
  (Frame.bind _).comp (Frame.bind _)

theorem frame_resting (body : Routine τ σ α) :
    Frame fun rest => (Stage.resting rest body).whole part :=
  (Frame.bind _).comp ((Frame.releasing _).comp (Frame.bind _))

theorem frame_inside : Frame fun rest : Routine τ σ α => (Stage.inside rest).whole part :=
  Frame.releasing _

variable {scene scene' : Scene τ σ} {stage : Stage τ σ α} {next : Option (Stage τ σ α)}

/-- A visit does what the whole visit does: it reaches what is left at the next stage, or an end, or
the whole is abandoned where it waits. -/
theorem Visit.whole (h : Visit part scene stage scene' next) :
    match next with
    | some stage' => Reaches scene.progress (stage.whole part) scene'.progress (stage'.whole part)
    | none =>
      (∃ result done, Reaches scene.progress (stage.whole part) scene'.progress
        (.settle result done)) ∨
      ∃ due abandon rest, stage.whole part = .wait due abandon rest ∧
        scene'.progress = (scene.taking abandon).progress := by
  cases h with
  | queue hleg hstanding => exact (frame_queued _).reaches hleg
  | gate hleg hstanding => exact (frame_gating _).reaches hleg
  | rest hleg hstanding => exact (frame_resting _).reaches hleg
  | go hleg => exact frame_inside.reaches hleg
  | toGate hspaced =>
      refine .act ?_
      change Reaches _ (Routine.bind _ (if (part.get scene.state).isSpaced = true
        then Limiter.pass part else succeed ())) _ _
      rw [if_pos hspaced]
      exact .refl _ _
  | straightIn hspaced =>
      refine .act ?_
      change Reaches _ (Routine.bind _ (if (part.get scene.state).isSpaced = true
        then Limiter.pass part else succeed ())) _ _
      rw [if_neg (Bool.eq_false_iff.mp hspaced)]
      exact .refl _ _
  | toSpan => exact .refl _ _
  | start => exact .moment (.act (.moment (.act (.refl _ _))))
  | breakOff => exact .inl ⟨_, _, .moment (.act (.refl _ _))⟩
  | finish => exact .inl ⟨_, _, .moment (.act (.refl _ _))⟩
  | leaveQueue => exact .inr ⟨_, _, _, rfl, rfl⟩
  | leaveGate => exact .inr ⟨_, _, _, rfl, rfl⟩
  | leaveSpan => exact .inr ⟨_, _, _, rfl, rfl⟩
  | leaveBody => exact .inr ⟨_, _, _, rfl, rfl⟩

end ProgramAudit.Endpoint
