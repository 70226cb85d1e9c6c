import ProgramAudit.Proofs.Endpoint.Crowd

/-!
Nothing that anybody does at a limiter is left out of a crowd: what a whole visit does up to where
it stands next is made of the steps of a crowd, and so is giving it up where it waits.
-/

namespace ProgramAudit.Endpoint

open Routine

variable {τ σ α : Type} [Clock τ] (part : Part σ (Limiter τ))

/-- The steps of a visitor, one after the other, come to where the routine is what is left, or to an
end if it has settled. -/
inductive Covered (progress : Progress τ σ) (routine : Routine τ σ α) :
    Scene τ σ → Stage τ σ α → Prop where
  | stay {scene : Scene τ σ} {stage : Stage τ σ α} (hprogress : scene.progress = progress)
    (hwhole : stage.whole part = routine) : Covered progress routine scene stage
  | visit {scene between : Scene τ σ} {stage stage' : Stage τ σ α}
    (hvisit : Visit part scene stage between (some stage'))
    (hrest : Covered progress routine between stage') : Covered progress routine scene stage
  | gone {scene scene' : Scene τ σ} {stage : Stage τ σ α} {result : Result α} {done : Routine τ σ α}
    (hvisit : Visit part scene stage scene' none) (hprogress : scene'.progress = progress)
    (hsettled : routine = .settle result done) : Covered progress routine scene stage

variable {part} {setting : Setting τ σ} {scene : Scene τ σ} {progress : Progress τ σ}
  {routine : Routine τ σ α} {share others : Share τ}

/-- A step that takes a turn is over before anybody stands. -/
theorem reaches_taking {update : τ → Nat → σ → σ} {next : Routine τ σ α}
    (h : Reaches scene.progress (.moment fun now turn => .act (update now turn) fun _ => next)
      progress routine) (hstanding : routine.Standing) :
    Reaches (scene.taking update).progress next progress routine := by
  cases h with
  | refl => exact hstanding.elim
  | moment h =>
      cases h with
      | refl => exact hstanding.elim
      | act h => exact h

theorem covered_inside {rest : Routine τ σ α}
    (hleg : Reaches scene.progress ((Stage.inside rest).whole part) progress routine)
    (hstanding : routine.Standing) : Covered part progress routine scene (.inside rest) := by
  rcases frame_inside.reaches_inv hleg hstanding with
    ⟨rest', hgo, -, rfl⟩ | ⟨between, result, done, hgo, hfinish⟩
  · exact .visit (.go hgo) (.stay rfl rfl)
  · let reached : Scene τ σ := { scene with progress := between }
    have hleft : Reaches (reached.taking (releasePermit part)).progress (.settle result done)
        progress routine := reaches_taking hfinish hstanding
    cases hleft
    exact .visit (.go hgo) (.gone .finish rfl rfl)

section

variable {rest : Routine τ σ Unit} {body : Routine τ σ α}

theorem covered_resting (hhas : (Stage.resting rest body).Has setting share)
    (hscene : scene.Balanced setting (share + others))
    (hleg : Reaches scene.progress ((Stage.resting rest body).whole setting.part) progress routine)
    (hstanding : routine.Standing) :
    Covered setting.part progress routine scene (.resting rest body) := by
  rcases (frame_resting body).reaches_inv hleg hstanding with
    ⟨rest', hrest, hstill, rfl⟩ | ⟨between, result, done, hrest, hgoes⟩
  · exact .visit (.rest hrest hstill) (.stay rfl rfl)
  · obtain ⟨own, -, -, hform⟩ := hscene.leg hhas.2.1 hrest trivial
    obtain ⟨result, ⟨⟩, -⟩ | ⟨⟨_, _, _, ⟨⟩⟩, -⟩ := hform
    let reached : Scene τ σ := { scene with progress := between }
    refine .visit (.rest hrest trivial) ?_
    cases result with
    | error failure =>
        have hbroken : Reaches (reached.taking (releaseGate setting.part)).progress
            (fail failure) progress routine := reaches_taking hgoes hstanding
        cases hbroken
        exact .gone .breakOff rfl rfl
    | ok value =>
        have hstarted : Reaches
            (reached.taking fun now _ => setting.part.modify (Limiter.start now)).progress
            (.moment fun now turn => .act (releaseGate setting.part now turn) fun _ =>
              (Stage.inside body).whole setting.part) progress routine :=
          reaches_taking hgoes hstanding
        have hinside : Reaches ((reached.starting.admitting.taking fun now _ =>
            setting.part.modify (Limiter.start now)).taking (releaseGate setting.part)).progress
            ((Stage.inside body).whole setting.part) progress routine :=
          reaches_taking hstarted hstanding
        exact .visit .start (covered_inside hinside hstanding)

theorem covered_gating (haside : ∀ state, setting.aside state)
    (hhas : (Stage.gating rest body).Has setting share)
    (hscene : scene.Balanced setting (share + others))
    (hleg : Reaches scene.progress ((Stage.gating rest body).whole setting.part) progress routine)
    (hstanding : routine.Standing) :
    Covered setting.part progress routine scene (.gating rest body) := by
  rcases (frame_gating body).reaches_inv hleg hstanding with
    ⟨rest', hrest, hstill, rfl⟩ | ⟨between, result, done, hrest, hgoes⟩
  · exact .visit (.gate hrest hstill) (.stay rfl rfl)
  · obtain ⟨own, -, -, hform⟩ := hscene.leg hhas.2.1 hrest trivial
    obtain ⟨result, ⟨⟩, rfl, -⟩ | ⟨⟨_, _, _, ⟨⟩⟩, -⟩ := hform
    have hgate : Visit setting.part scene (.gating rest body) { scene with progress := between }
        (some (.gating (.settle (.ok ()) .halt) body)) := .gate hrest trivial
    obtain ⟨own, hown, hbalanced⟩ := hgate.balanced haside hhas hscene
    obtain ⟨own', hown', hbalanced'⟩ := Visit.toSpan.balanced haside hown hbalanced
    exact .visit hgate (.visit .toSpan (covered_resting hown' hbalanced' hgoes hstanding))

theorem covered_queued (haside : ∀ state, setting.aside state)
    (hhas : (Stage.queued rest body).Has setting share)
    (hscene : scene.Balanced setting (share + others))
    (hleg : Reaches scene.progress ((Stage.queued rest body).whole setting.part) progress routine)
    (hstanding : routine.Standing) :
    Covered setting.part progress routine scene (.queued rest body) := by
  rcases (frame_queued body).reaches_inv hleg hstanding with
    ⟨rest', hrest, hstill, rfl⟩ | ⟨between, result, done, hrest, hgoes⟩
  · exact .visit (.queue hrest hstill) (.stay rfl rfl)
  · obtain ⟨own, -, -, hform⟩ := hscene.leg hhas.2.1 hrest trivial
    obtain ⟨result, ⟨⟩, rfl, -⟩ | ⟨⟨_, _, _, ⟨⟩⟩, -⟩ := hform
    have hqueue : Visit setting.part scene (.queued rest body) { scene with progress := between }
        (some (.queued (.settle (.ok ()) .halt) body)) := .queue hrest trivial
    obtain ⟨own, hown, hbalanced⟩ := hqueue.balanced haside hhas hscene
    refine .visit hqueue ?_
    cases hgoes with
    | refl => exact hstanding.elim
    | act hgoes =>
        change Reaches between (Routine.bind (fun _ => body.releasing (releasePermit setting.part))
          (if (setting.part.get between.state).isSpaced = true then Limiter.pass setting.part
            else succeed ())) progress routine at hgoes
        cases hspaced : (setting.part.get between.state).isSpaced with
        | true =>
            rw [hspaced, if_pos rfl] at hgoes
            obtain ⟨own', hown', hbalanced'⟩ :=
              (Visit.toGate hspaced).balanced haside hown hbalanced
            exact .visit (.toGate hspaced) (covered_gating haside hown' hbalanced' hgoes hstanding)
        | false =>
            rw [hspaced, if_neg Bool.false_ne_true] at hgoes
            exact .visit (.straightIn hspaced) (covered_inside hgoes hstanding)

end

/-- A visit is made of the steps of a visitor up to where it stands next. -/
theorem Stage.Has.covered (haside : ∀ state, setting.aside state) {stage : Stage τ σ α}
    (hhas : stage.Has setting share) (hscene : scene.Balanced setting (share + others))
    (hleg : Reaches scene.progress (stage.whole setting.part) progress routine)
    (hstanding : routine.Standing) : Covered setting.part progress routine scene stage := by
  cases stage with
  | queued rest body => exact covered_queued haside hhas hscene hleg hstanding
  | gating rest body => exact covered_gating haside hhas hscene hleg hstanding
  | resting rest body => exact covered_resting hhas hscene hleg hstanding
  | inside rest => exact covered_inside hleg hstanding

/-- Where a visit waits it can be given up, and that is a step of a visitor. -/
theorem Stage.Has.covers_abandon {stage : Stage τ σ α} (hhas : stage.Has setting share)
    (hscene : scene.Balanced setting (share + others)) {due : σ → Option (Turn τ)}
    {abandon : τ → Nat → σ → σ} (hwhole : stage.whole setting.part = .wait due abandon routine) :
    ∃ scene', Visit setting.part scene stage scene' none ∧
      scene'.progress = (scene.taking abandon).progress := by
  cases stage with
  | queued rest body =>
      obtain ⟨_, _, rfl⟩ | ⟨result, done, rfl⟩ := (frame_queued body).eq_wait hwhole
      · cases hwhole
        exact ⟨_, .leaveQueue, rfl⟩
      · obtain ⟨own, -, -, ⟨_, ⟨⟩, rfl, -⟩ | ⟨⟨_, _, _, ⟨⟩⟩, -⟩⟩ :=
          hscene.leg hhas.2.1 (.refl _ _) trivial
        cases hwhole
  | gating rest body =>
      obtain ⟨_, _, rfl⟩ | ⟨result, done, rfl⟩ := (frame_gating body).eq_wait hwhole
      · cases hwhole
        exact ⟨_, .leaveGate, rfl⟩
      · obtain ⟨own, -, -, ⟨_, ⟨⟩, rfl, -⟩ | ⟨⟨_, _, _, ⟨⟩⟩, -⟩⟩ :=
          hscene.leg hhas.2.1 (.refl _ _) trivial
        cases hwhole
  | resting rest body =>
      obtain ⟨_, _, rfl⟩ | ⟨result, done, rfl⟩ := (frame_resting body).eq_wait hwhole
      · cases hwhole
        exact ⟨_, .leaveSpan, rfl⟩
      · obtain ⟨own, -, -, ⟨result, ⟨⟩, -⟩ | ⟨⟨_, _, _, ⟨⟩⟩, -⟩⟩ :=
          hscene.leg hhas.2.1 (.refl _ _) trivial
        cases result <;> cases hwhole
  | inside rest =>
      obtain ⟨_, _, rfl⟩ | ⟨result, done, rfl⟩ := frame_inside.eq_wait hwhole
      · cases hwhole
        exact ⟨_, .leaveBody, rfl⟩
      · cases hwhole

/-! ### Crowds -/

/-- What is left of the whole visit at a stage, and nothing of it once it has settled. -/
def LeftAt (part : Part σ (Limiter τ)) (routine : Routine τ σ α) : Option (Stage τ σ α) → Prop
  | some stage => stage.whole part = routine
  | none => ∃ result done, routine = .settle result done

theorem Covered.run {part : Part σ (Limiter τ)} {stage : Stage τ σ α}
    (h : Covered part progress routine scene stage) (before after : List (Stage τ σ α)) :
    ∃ scene' next, LeftAt part routine next ∧ scene'.progress = progress ∧
      Crowd.Run part ⟨scene, before ++ stage :: after⟩
        ⟨scene', before ++ next.toList ++ after⟩ := by
  induction h with
  | @stay scene stage hprogress hwhole =>
      refine ⟨scene, some stage, hwhole, hprogress, ?_⟩
      rw [Option.toList_some, List.append_assoc]
      exact .refl
  | visit hvisit hrest ih =>
      obtain ⟨scene', next, hleft, hprogress, hrun⟩ := ih
      refine ⟨scene', next, hleft, hprogress, .head (.visit hvisit) ?_⟩
      rw [Option.toList_some, List.append_assoc]
      exact hrun
  | @gone scene scene' stage result done hvisit hprogress hsettled =>
      exact ⟨scene', none, ⟨result, done, hsettled⟩, hprogress, .single (.visit hvisit)⟩

variable {before after : List (Stage τ σ α)} {stage : Stage τ σ α}

/-- What anybody in a crowd does, up to where they stand next, is something that the crowd does. -/
theorem Crowd.Sound.covers (haside : ∀ state, setting.aside state)
    (h : Crowd.Sound setting ⟨scene, before ++ stage :: after⟩)
    (hleg : Reaches scene.progress (stage.whole setting.part) progress routine)
    (hstanding : routine.Standing) :
    ∃ scene' next, LeftAt setting.part routine next ∧ scene'.progress = progress ∧
      Crowd.Run setting.part ⟨scene, before ++ stage :: after⟩
        ⟨scene', before ++ next.toList ++ after⟩ := by
  obtain ⟨⟨shares, hshares, hbalanced⟩, -⟩ := h
  obtain ⟨share, others, hshare, hsum, -⟩ := exists_share hshares
  rw [hsum] at hbalanced
  exact (hshare.covered haside hbalanced hleg hstanding).run before after

/-- Anybody in a crowd may give up wherever they wait, and that is a step of the crowd. -/
theorem Crowd.Sound.covers_abandon (h : Crowd.Sound setting ⟨scene, before ++ stage :: after⟩)
    {due : σ → Option (Turn τ)} {abandon : τ → Nat → σ → σ}
    (hwhole : stage.whole setting.part = .wait due abandon routine) :
    ∃ scene', Crowd.Step setting.part ⟨scene, before ++ stage :: after⟩
        ⟨scene', before ++ after⟩ ∧ scene'.progress = (scene.taking abandon).progress := by
  obtain ⟨⟨shares, hshares, hbalanced⟩, -⟩ := h
  obtain ⟨share, others, hshare, hsum, -⟩ := exists_share hshares
  rw [hsum] at hbalanced
  obtain ⟨scene', hvisit, hprogress⟩ := hshare.covers_abandon hbalanced hwhole
  have hstep : Crowd.Step setting.part ⟨scene, before ++ stage :: after⟩
      ⟨scene', before ++ Option.toList none ++ after⟩ := .visit hvisit
  rw [Option.toList_none, List.append_nil] at hstep
  exact ⟨scene', hstep, hprogress⟩

end ProgramAudit.Endpoint
