import ProgramAudit.Endpoint.Connection
import ProgramAudit.Proofs.Endpoint.Silence
import ProgramAudit.Proofs.Routine.Settles
import ProgramAudit.QuickCheck

/-!
What reading from an endpoint can fail with. A request stays unanswered, or something is at fault.
Neither the input nor the configuration is ever blamed, whatever the endpoint delivers.
-/

namespace ProgramAudit

open Routine

/-- A failure of reading: a request without an answer, or a fault. -/
inductive Failure.OfReading : Failure → Prop
  | transient (message : String) (status : Option Int) : OfReading (.transient message status)
  | refused (message : String) (code : Json) : OfReading (.refused message code)
  | fault (kind : Fault) (detail : String) : OfReading (.fault kind detail)

section

variable {α β : Type} {result : Result α} {failure : Failure}

theorem Failure.OfReading.of_isUnanswered (h : Endpoint.Access.isUnanswered failure = true) :
    failure.OfReading := by
  cases failure with
  | transient message status => exact .transient message status
  | refused message code => exact .refused message code
  | _ => cases h

theorem Result.OrFault.ofReading (h : result.OrFault) (hfailure : result = .error failure) :
    failure.OfReading := by
  cases h with
  | value value => cases hfailure
  | fault kind detail =>
      cases hfailure
      exact .fault kind detail

theorem Result.OrFault.failsOnly (h : result.OrFault) : FailsOnly Failure.OfReading result := by
  cases result with
  | ok value => trivial
  | error failure => exact h.ofReading rfl

theorem failsOnly_bind {F : Failure → Prop} {f : α → Result β} (h : FailsOnly F result)
    (hf : ∀ value, FailsOnly F (f value)) : FailsOnly F (result >>= f) := by
  cases result with
  | ok value => exact hf value
  | error failure => exact h

end

namespace Endpoint

variable {τ σ α : Type} [Clock τ]

/-! ### Deliveries -/

namespace Exchange

theorem failsOnly_resultOf (body : Json) : FailsOnly Failure.OfReading (resultOf body) := by
  refine failsOnly_bind (reportedError_orFault body).failsOnly fun reported => ?_
  cases reported with
  | none => exact (Json.demandField_orFault "result" body).failsOnly
  | some error =>
      cases hfailure : failureOf error with
      | ok failure =>
          simp only [hfailure]
          exact .of_isUnanswered (failureOf_eq_ok hfailure).2
      | error failure =>
          simp only [hfailure]
          exact (failureOf_orFault error).ofReading hfailure

theorem failsOnly_read (method : String) (delivery : Delivery) :
    FailsOnly Failure.OfReading (read method delivery) := by
  cases delivery with
  | interrupted interruption =>
      unfold read
      dsimp only
      split_ifs
      · exact Failure.OfReading.transient _ _
      · exact Failure.OfReading.fault _ _
  | answered response =>
      unfold read readResponse
      dsimp only
      split_ifs
      · exact Failure.OfReading.transient _ _
      · exact Failure.OfReading.refused _ _
      · exact failsOnly_bind (json_orFault response).failsOnly failsOnly_resultOf

end Exchange

/-! ### Limits and what is kept -/

theorem span_orFault (span : Number) : (Clock.span span : Result τ).OrFault := by
  unfold Clock.span
  split
  · exact .value _
  · exact .fault _ _

theorem Cache.set_orFault {κ ν : Type} [BEq κ] (now : τ) (key : κ) (value : ν)
    (cache : Cache τ κ ν) : (cache.set now key value).OrFault := by
  have hroom : cache.makeRoom.OrFault := by
    unfold Cache.makeRoom
    split
    · split
      · exact .fault _ _
      · exact .value _
    · exact .value _
  unfold Cache.set
  split
  · exact .value _
  · exact hroom.bind fun roomy => (span_orFault _).bind fun lifetime => .value _

namespace Limiter

variable (part : Part σ (Limiter τ))

omit [Clock τ] in
theorem settles_awaitPermit : (awaitPermit part).Settles (FailsOnly Failure.OfReading) := by
  refine settles_moment fun _ ticket => settles_act fun before => ?_
  split
  · exact settles_succeed trivial
  · exact settles_wait (settles_moment fun _ _ => settles_change trivial)

omit [Clock τ] in
theorem settles_awaitGate : (awaitGate part).Settles (FailsOnly Failure.OfReading) := by
  refine settles_moment fun _ ticket => settles_act fun before => ?_
  split
  · exact settles_succeed trivial
  · exact settles_wait (settles_change trivial)

theorem settles_awaitSpan : (awaitSpan part).Settles (FailsOnly Failure.OfReading) := by
  refine settles_bind_failsOnly (settles_now fun _ => trivial) fun now => ?_
  refine settles_bind_failsOnly (settles_read fun _ => trivial) fun limiter => ?_
  have hdelay : (limiter.delay now).OrFault := (span_orFault _).map _
  refine settles_bind_failsOnly (settles_ofResult hdelay.failsOnly) fun rest => ?_
  split
  · exact settles_sleepFor trivial
  · exact settles_succeed trivial

theorem settles_recordStart : (recordStart part).Settles (FailsOnly Failure.OfReading) :=
  settles_bind_failsOnly (settles_now fun _ => trivial) fun _ => settles_change trivial

theorem settles_pass : (pass part).Settles (FailsOnly Failure.OfReading) :=
  settles_bind_failsOnly (settles_awaitGate part) fun _ =>
    settles_releasing (settles_bind_failsOnly (settles_awaitSpan part) fun _ =>
      settles_recordStart part)

theorem settles_admission : (admission part).Settles (FailsOnly Failure.OfReading) := by
  refine settles_bind_failsOnly (settles_awaitPermit part) fun _ => ?_
  refine settles_bind_failsOnly (settles_read fun _ => trivial) fun limiter => ?_
  split
  · exact settles_pass part
  · exact settles_succeed trivial

theorem settles_limited {routine : Routine τ σ α}
    (h : routine.Settles (FailsOnly Failure.OfReading)) :
    (limited part routine).Settles (FailsOnly Failure.OfReading) :=
  settles_bind_failsOnly (settles_admission part) fun _ => settles_releasing h

end Limiter

/-! ### Requests -/

namespace Access

variable {access : Access τ σ}
  (hpost : ∀ number request, (access.post number request).Settles Result.OrFault)

include hpost

theorem settles_exchange (request : Request) :
    (access.exchange request).Settles (FailsOnly Failure.OfReading) := by
  refine settles_bind_failsOnly (settles_step fun _ => trivial) fun number => ?_
  have hposted := (hpost number request).mono fun _ => Result.OrFault.failsOnly
  refine settles_bind_failsOnly (Limiter.settles_limited _ hposted) fun delivery => ?_
  exact settles_ofResult (Exchange.failsOnly_read request.method delivery)

theorem settles_call (request : Request) :
    (access.call request).Settles (FailsOnly Failure.OfReading) := by
  refine settles_bind_failsOnly (settles_now fun _ => trivial) fun asked => ?_
  refine settles_bind_failsOnly (settles_step fun _ => trivial) fun kept => ?_
  cases kept with
  | some result => exact settles_succeed trivial
  | none =>
      refine settles_bind_failsOnly (settles_exchange hpost request) fun result => ?_
      refine settles_bind_failsOnly (settles_now fun _ => trivial) fun received => ?_
      have hkeep (client : Client τ) :
          Result.OrFault ((client.keep received request result).map fun _ => ()) :=
        ((Cache.set_orFault _ _ _ _).map _).map _
      refine settles_bind_failsOnly ?_ fun _ => settles_succeed trivial
      exact settles_tryChange fun client => (hkeep client).failsOnly

theorem settles_account (address : String) :
    (access.account address).Settles (FailsOnly Failure.OfReading) := by
  refine settles_bind_failsOnly (settles_call hpost _) fun result => ?_
  split
  · exact settles_bind_failsOnly (settles_note trivial) fun _ => settles_succeed trivial
  · exact settles_map_failsOnly (settles_ofResult (Ledger.Account.ofPayload_orFault _).failsOnly)

theorem settles_transaction (signature : Json) :
    (access.transaction signature).Settles (FailsOnly Failure.OfReading) := by
  refine settles_bind_failsOnly (settles_call hpost _) fun result => ?_
  split
  · exact settles_succeed trivial
  · exact settles_ofResult (Ledger.Transaction.ofPayload_orFault _ _).failsOnly

theorem settles_transactions (address : String) (limit : Int) :
    (access.transactions address limit).Settles (FailsOnly Failure.OfReading) := by
  refine settles_bind_failsOnly (settles_call hpost _) fun listed => ?_
  refine settles_bind_failsOnly (settles_all_failsOnly (settles_transaction hpost)) fun fetched => ?_
  exact settles_bind_failsOnly (settles_note trivial) fun _ => settles_succeed trivial

/-- A check fails by its address, or while it reads. -/
theorem settles_check (given : Json) : (QuickCheck.run access.source given).Settles
    (FailsOnly fun failure => Address.validate given = .error failure ∨ failure.OfReading) := by
  refine settles_bind (settles_ofResult (P := (· = Address.validate given)) rfl)
    (fun address _ => ?_) fun _ hfailure => .inl hfailure.symm
  have hreadings : (both (access.source.account address)
      (access.source.transactions address 1)).Settles (FailsOnly Failure.OfReading) :=
    settles_both_failsOnly (settles_account hpost address)
      (settles_map_failsOnly (settles_transactions hpost address 1))
  refine settles_rescue (settles_map_failsOnly hreadings) (fun _ _ => trivial) ?_
  intro failure hfailure
  split
  · exact settles_bind_failsOnly (settles_note trivial) fun _ => settles_succeed trivial
  · exact settles_ofResult (.inr hfailure)

end Access

end Endpoint

end ProgramAudit
