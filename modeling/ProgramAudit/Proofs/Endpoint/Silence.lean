import ProgramAudit.Endpoint.Client
import ProgramAudit.Proofs.Ledger.Faults

/-!
When an endpoint leaves a request unanswered. This shows in what it delivers, and it is told apart
from an answer that cannot be read.
-/

namespace ProgramAudit.Endpoint

/-- The code of an error that a body reports. -/
def Exchange.codeOf (error : Json) : Json := (Json.field? "code" (errorFields error)).getD .null

/-- There is no response, its status is no success, or its body reports an error under a code that
can be looked up. -/
inductive Delivery.Silent : Delivery → Prop
  | interrupted {interruption : Interruption} (h : interruption.isTransport = true) :
    Silent (.interrupted interruption)
  | status {response : Response} (h : response.isSuccess = false) : Silent (.answered response)
  | reported {response : Response} {body error : Json} (hbody : response.json = .ok body)
      (herror : Exchange.reportedError? body = .ok (some error))
      (hcode : (Exchange.codeOf error).isKey = true) : Silent (.answered response)

theorem isUnanswered_of_orFault {α : Type} {result : Result α} {failure : Failure}
    (h : result.OrFault) (hfailure : result = .error failure) :
    Access.isUnanswered failure = false := by
  cases h with
  | value => cases hfailure
  | fault kind detail =>
      cases hfailure
      rfl

namespace Exchange

variable {response : Response} {body error : Json} {failure : Failure} {method : String}

/-! ### Reading a response -/

theorem isSuccess_of_isOverload (h : response.isOverload = true) : response.isSuccess = false := by
  simp only [Response.isOverload, Bool.or_eq_true, beq_iff_eq, decide_eq_true_eq] at h
  simp only [Response.isSuccess, Bool.and_eq_false_iff, decide_eq_false_iff_not]
  omega

theorem read_status (h : response.isSuccess = false) : ∃ failure,
    read method (.answered response) = .error failure ∧ Access.isUnanswered failure = true := by
  simp only [read, readResponse, h, Bool.not_false, if_true]
  split_ifs
  · exact ⟨_, rfl, rfl⟩
  · exact ⟨_, rfl, rfl⟩

theorem read_success (h : response.isSuccess = true) :
    read method (.answered response) = response.json >>= resultOf := by
  have hoverload : response.isOverload = false := by
    cases hoverload : response.isOverload with
    | false => rfl
    | true => cases h.symm.trans (isSuccess_of_isOverload hoverload)
  simp only [read, readResponse, hoverload, h]
  rfl

theorem json_orFault (response : Response) : response.json.OrFault := by
  unfold Response.json
  cases Json.read response.bodyText with
  | ok body => exact .value body
  | error fault => cases fault <;> exact .fault _ _

theorem reportedError_orFault (body : Json) : (reportedError? body).OrFault := by
  unfold reportedError?
  split
  · exact .value _
  · split_ifs
    · exact .fault _ _
    · exact .value _
  · split_ifs
    · exact .fault _ _
    · exact .value _
  · exact .fault _ _

/-! ### Errors that a body reports -/

theorem isTransientCode_orFault (code : Json) : (isTransientCode code).OrFault := by
  unfold isTransientCode
  split_ifs
  · exact .value _
  · exact .fault _ _

theorem failureOf_orFault (error : Json) : (failureOf error).OrFault := by
  refine (isTransientCode_orFault (codeOf error)).bind fun transient => ?_
  cases transient <;> exact .value _

theorem failureOf_eq_ok (h : failureOf error = .ok failure) :
    (codeOf error).isKey = true ∧ Access.isUnanswered failure = true := by
  obtain ⟨transient, htransient, hfailure⟩ := Result.bind_eq_ok.mp h
  change isTransientCode (codeOf error) = _ at htransient
  unfold isTransientCode at htransient
  split_ifs at htransient with hkey
  refine ⟨hkey, ?_⟩
  cases transient <;> cases hfailure <;> rfl

theorem exists_failureOf (h : (codeOf error).isKey = true) :
    ∃ failure, failureOf error = .ok failure := by
  have htransient : isTransientCode (codeOf error) =
      .ok (transientCodes.any fun known => Json.equals (.int known) (codeOf error)) := if_pos h
  change ∃ failure, (isTransientCode (codeOf error) >>= _) = _
  rw [htransient]
  cases transientCodes.any fun known => Json.equals (.int known) (codeOf error)
  · exact ⟨_, rfl⟩
  · exact ⟨_, rfl⟩

theorem resultOf_reported (herror : reportedError? body = .ok (some error)) :
    resultOf body = failureOf error >>= .error := by
  change (reportedError? body >>= _) = _
  rw [herror]
  rfl

/-- Only an error that is reported stands for a request without an answer. -/
theorem exists_reported (h : resultOf body = .error failure)
    (hunanswered : Access.isUnanswered failure = true) :
    ∃ error, reportedError? body = .ok (some error) ∧ (codeOf error).isKey = true := by
  cases hreported : reportedError? body with
  | error found =>
      change (reportedError? body >>= _) = _ at h
      rw [hreported] at h
      cases h
      cases hunanswered.symm.trans (isUnanswered_of_orFault (reportedError_orFault body) hreported)
  | ok reported =>
      cases reported with
      | none =>
          change (reportedError? body >>= _) = _ at h
          rw [hreported] at h
          cases hunanswered.symm.trans
            (isUnanswered_of_orFault (Json.demandField_orFault "result" body) h)
      | some error =>
          rw [resultOf_reported hreported] at h
          cases hfailure : failureOf error with
          | ok found => exact ⟨error, rfl, (failureOf_eq_ok hfailure).1⟩
          | error found =>
              rw [hfailure] at h
              cases h
              cases hunanswered.symm.trans
                (isUnanswered_of_orFault (failureOf_orFault error) hfailure)

/-! ### Deliveries -/

theorem silent_of_read {delivery : Delivery} (h : read method delivery = .error failure)
    (hunanswered : Access.isUnanswered failure = true) : delivery.Silent := by
  cases delivery with
  | interrupted interruption =>
      by_cases htransport : interruption.isTransport = true
      · exact .interrupted htransport
      · rw [read, if_neg htransport] at h
        cases h
        cases hunanswered
  | answered response =>
      cases hsuccess : response.isSuccess with
      | false => exact .status hsuccess
      | true =>
          rw [read_success hsuccess] at h
          cases hbody : response.json with
          | ok body =>
              rw [hbody] at h
              obtain ⟨error, herror, hcode⟩ := exists_reported h hunanswered
              exact .reported hbody herror hcode
          | error found =>
              rw [hbody] at h
              cases h
              cases hunanswered.symm.trans (isUnanswered_of_orFault (json_orFault response) hbody)

/-- A request counts as unanswered just if the endpoint is silent. -/
theorem unanswered_iff {delivery : Delivery} :
    (∃ failure, read method delivery = .error failure ∧ Access.isUnanswered failure = true) ↔
      delivery.Silent := by
  refine ⟨fun ⟨_, hread, hunanswered⟩ => silent_of_read hread hunanswered, fun h => ?_⟩
  cases h with
  | interrupted h => exact ⟨_, if_pos h, rfl⟩
  | status h => exact read_status h
  | @reported response body error hbody herror hcode =>
      cases hsuccess : response.isSuccess with
      | false => exact read_status hsuccess
      | true =>
          obtain ⟨failure, hfailure⟩ := exists_failureOf hcode
          refine ⟨failure, ?_, (failureOf_eq_ok hfailure).2⟩
          rw [read_success hsuccess, hbody]
          change resultOf body = _
          rw [resultOf_reported herror, hfailure]
          rfl

theorem not_silent_of_ok {delivery : Delivery} {result : Json}
    (h : read method delivery = .ok result) : ¬delivery.Silent := by
  rw [← @unanswered_iff method, h]
  rintro ⟨_, ⟨⟩, -⟩

theorem not_silent_of_error {delivery : Delivery} (h : read method delivery = .error failure)
    (hanswered : Access.isUnanswered failure = false) : ¬delivery.Silent := by
  rw [← @unanswered_iff method, h]
  rintro ⟨_, ⟨⟩, hunanswered⟩
  cases hanswered.symm.trans hunanswered

end Exchange

end ProgramAudit.Endpoint
