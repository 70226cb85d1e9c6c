import ProgramAudit.Proofs.Audit.Sound
import ProgramAudit.Proofs.Endpoint.Failures

/-!
What an audit is refused for. An invalid address or timeframe ends it before anything is done, and no
later step of it finds fault with its input.
-/

namespace ProgramAudit

theorem Report.Timestamp.ofSeconds_orFault (seconds : Number) :
    (ofSeconds seconds).OrFault := by
  have hinstant : (instantOf seconds).OrFault := by
    unfold instantOf
    split
    · exact .value _
    · split
      · exact .value _
      · split
        · exact .fault _ _
        · exact .fault _ _
  refine hinstant.bind fun instant => ?_
  have hrange (year : Int) : (checkRange instant year).OrFault := by
    unfold checkRange
    split_ifs
    · exact .fault _ _
    · exact .fault _ _
    · exact .fault _ _
    · exact .value _
  exact (hrange _).bind fun _ => .value _

namespace Audit

open Routine Traffic

variable {τ σ : Type} [Clock τ] {plan : Plan} {around : Surroundings τ σ} {given : Json}
  {failure : Failure}

theorem run_invalid (h : Address.validate given = .error failure) (progress : Progress τ σ) :
    (run plan around given).run progress = ⟨some (.error failure), progress⟩ := by
  unfold run
  rw [h]
  rfl

theorem run_unbounded {address : String} (hvalid : Address.validate given = .ok address)
    (h : Timeframe.seconds? plan.fetch.timeframe = .error failure) (progress : Progress τ σ) :
    (run plan around given).run progress = ⟨some (.error failure), progress⟩ := by
  unfold run
  rw [hvalid, h]
  rfl

/-- An audit fails by its address, by its timeframe, or by a fault. -/
theorem settles_run_failsOnly (plan : Plan) (around : Surroundings τ σ) (given : Json) :
    (run plan around given).Settles (FailsOnly fun failure => Address.validate given = .error failure ∨
      Timeframe.seconds? plan.fetch.timeframe = .error failure ∨ failure.OfReading) := by
  refine (settles_run (settles_true around.price) trivial).mono fun result hresult => ?_
  cases hresult with
  | invalid h => exact .inl h
  | unbounded h => exact .inr (.inl h)
  | undated h => exact .inr (.inr ((Report.Timestamp.ofSeconds_orFault around.now).ofReading h))
  | unpriced _ h => exact .inr (.inr ((Json.toDouble_orFault _).ofReading h))
  | done => trivial

end Audit

end ProgramAudit
