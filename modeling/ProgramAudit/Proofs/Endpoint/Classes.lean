import ProgramAudit.Proofs.Endpoint.Silence
import ProgramAudit.Proofs.Routine.Attempts

/-!
The classes of what a request may bring. It may pass, it is refused, or it is answered: told from the
status and the body alone, and each class has its own kind of result.
-/

namespace ProgramAudit.Endpoint

open Json

/-- The status tells of success. -/
def Response.Succeeds (response : Response) : Prop := 200 ≤ response.status ∧ response.status ≤ 299

/-- The code of an error that tells of a limit on requests, or of an endpoint that is behind. -/
def Limits (code : Json) : Prop :=
  Json.equals (.int (-32005)) code = true ∨ Json.equals (.int (-32429)) code = true ∨
    Json.equals (.int 429) code = true

namespace Delivery

/-- No response, a status that tells of no success, or a body of fields whose error, if it has fields
itself, has a code that can be looked up. -/
inductive Classed : Delivery → Prop
  | interrupted {interruption : Interruption} (h : interruption.isTransport = true) :
    Classed (.interrupted interruption)
  | status {response : Response} (h : ¬response.Succeeds) : Classed (.answered response)
  | body {response : Response} {fields : List (String × Json)} (h : response.Succeeds)
    (hbody : response.json = .ok (.obj fields))
    (hcode : ∀ inner code, field? "error" fields = some (.obj inner) →
      field? "code" inner = some code → code.isKey = true) : Classed (.answered response)

/-- What may pass: there is no response, the endpoint is overloaded, or it reports a limit. -/
inductive Passes : Delivery → Prop
  | interrupted {interruption : Interruption} (h : interruption.isTransport = true) :
    Passes (.interrupted interruption)
  | overloaded {response : Response} (h : response.status = 429 ∨ 500 ≤ response.status) :
    Passes (.answered response)
  | limited {response : Response} {fields inner : List (String × Json)} {code : Json}
    (h : response.Succeeds) (hbody : response.json = .ok (.obj fields))
    (herror : field? "error" fields = some (.obj inner)) (hcode : field? "code" inner = some code)
    (hlimits : Limits code) : Passes (.answered response)

/-- What stays: any other status that tells of no success, and any other error that is reported. -/
inductive Refuses : Delivery → Prop
  | status {response : Response} (h : ¬response.Succeeds)
    (hload : ¬(response.status = 429 ∨ 500 ≤ response.status)) : Refuses (.answered response)
  | reported {response : Response} {fields : List (String × Json)} {error : Json}
    (h : response.Succeeds) (hbody : response.json = .ok (.obj fields))
    (herror : field? "error" fields = some error)
    (hcode : ∀ inner code, error = .obj inner → field? "code" inner = some code → ¬Limits code) :
    Refuses (.answered response)

/-- A body of fields without an error has a result, which is null if it is left out. -/
inductive Answers : Delivery → Json → Prop
  | result {response : Response} {fields : List (String × Json)} (h : response.Succeeds)
    (hbody : response.json = .ok (.obj fields)) (herror : field? "error" fields = none) :
    Answers (.answered response) ((field? "result" fields).getD .null)

end Delivery

namespace Exchange

variable {method : String} {response : Response} {fields : List (String × Json)} {error code : Json}
  {delivery : Delivery}

theorem isSuccess_iff : response.isSuccess = true ↔ response.Succeeds := by
  simp [Response.isSuccess, Response.Succeeds]

theorem isOverload_iff :
    response.isOverload = true ↔ response.status = 429 ∨ 500 ≤ response.status := by
  simp [Response.isOverload]

/-! ### Codes -/

theorem any_transientCodes :
    (transientCodes.any fun known => Json.equals (.int known) code) = true ↔ Limits code := by
  simp [transientCodes, Limits]

theorem isKey_of_limits (h : Limits code) : code.isKey = true := by
  cases code with
  | arr items => rcases h with h | h | h <;> cases h
  | obj fields => rcases h with h | h | h <;> cases h
  | _ => rfl

theorem not_limits_null : ¬Limits .null := by
  rintro (h | h | h) <;> cases h

/-- An error without a field for its code has null for it. -/
theorem codeOf_cases (error : Json) : codeOf error = .null ∨
    ∃ inner code, error = .obj inner ∧ field? "code" inner = some code ∧ codeOf error = code := by
  cases error with
  | obj inner =>
      cases hcode : field? "code" inner with
      | none => exact .inl (congrArg (·.getD .null) hcode)
      | some code => exact .inr ⟨inner, code, rfl, hcode, congrArg (·.getD .null) hcode⟩
  | _ => exact .inl rfl

theorem limits_codeOf_iff : Limits (codeOf error) ↔
    ∃ inner code, error = .obj inner ∧ field? "code" inner = some code ∧ Limits code := by
  constructor
  · intro h
    rcases codeOf_cases error with hnull | ⟨inner, code, herror, hcode, heq⟩
    · exact absurd (hnull ▸ h) not_limits_null
    · exact ⟨inner, code, herror, hcode, heq ▸ h⟩
  · rintro ⟨inner, code, rfl, hcode, hlimits⟩
    change Limits ((field? "code" inner).getD .null)
    rwa [hcode]

theorem isKey_codeOf (h : ∀ inner code, error = .obj inner → field? "code" inner = some code →
    code.isKey = true) : (codeOf error).isKey = true := by
  rcases codeOf_cases error with hnull | ⟨inner, code, herror, hcode, heq⟩
  · rw [hnull]
    rfl
  · rw [heq]
    exact h inner code herror hcode

theorem failureOf_limited (h : Limits (codeOf error)) : ∃ message,
    failureOf error = .ok (.transient message (some 429)) := by
  have htransient : isTransientCode (codeOf error) = .ok true := by
    rw [isTransientCode, if_pos (isKey_of_limits h), any_transientCodes.mpr h]
  refine ⟨errorText (errorFields error), ?_⟩
  change (isTransientCode (codeOf error) >>= _) = _
  rw [htransient]
  rfl

theorem failureOf_refused (hkey : (codeOf error).isKey = true) (h : ¬Limits (codeOf error)) :
    ∃ message code, failureOf error = .ok (.refused message code) := by
  have htransient : isTransientCode (codeOf error) = .ok false := by
    rw [isTransientCode, if_pos hkey, Bool.eq_false_iff.mpr (mt any_transientCodes.mp h)]
  refine ⟨errorText (errorFields error), codeOf error, ?_⟩
  change (isTransientCode (codeOf error) >>= _) = _
  rw [htransient]
  rfl

/-! ### Results -/

theorem resultOf_obj : resultOf (.obj fields) =
    match field? "error" fields with
    | some error => failureOf error >>= .error
    | none => .ok ((field? "result" fields).getD .null) := by
  cases herror : field? "error" fields with
  | some error => exact resultOf_reported (congrArg Except.ok herror)
  | none =>
      change (Except.ok (field? "error" fields) >>= _) = _
      rw [herror]
      rfl

theorem read_body (h : response.Succeeds) (hbody : response.json = .ok (.obj fields)) :
    read method (.answered response) = resultOf (.obj fields) := by
  rw [read_success (isSuccess_iff.mpr h), hbody]
  rfl

theorem read_passes (h : delivery.Passes) : ∃ message status,
    read method delivery = .error (.transient message status) := by
  cases h with
  | interrupted h => exact ⟨_, none, if_pos h⟩
  | @overloaded response h => exact ⟨_, some response.status, if_pos (isOverload_iff.mpr h)⟩
  | limited h hbody herror hcode hlimits =>
      obtain ⟨message, hfailure⟩ := failureOf_limited
        (limits_codeOf_iff.mpr ⟨_, _, rfl, hcode, hlimits⟩)
      refine ⟨message, some 429, ?_⟩
      rw [read_body h hbody, resultOf_obj, herror]
      exact congrArg (· >>= Except.error) hfailure

theorem read_refuses (hclassed : delivery.Classed) (h : delivery.Refuses) : ∃ message code,
    read method delivery = .error (.refused message code) := by
  cases h with
  | @status response h hload =>
      refine ⟨s!"{method} HTTP {response.status}", .int response.status, ?_⟩
      have hoverload : response.isOverload = false :=
        Bool.eq_false_iff.mpr (mt isOverload_iff.mp hload)
      have hsuccess : response.isSuccess = false :=
        Bool.eq_false_iff.mpr (mt isSuccess_iff.mp h)
      simp only [read, readResponse, hoverload, hsuccess]
      rfl
  | @reported response fields error h hbody herror hcode =>
      have hkey : (codeOf error).isKey = true := by
        cases hclassed with
        | status hstatus => exact absurd h hstatus
        | body _ hbody' hkeys =>
            cases hbody.symm.trans hbody'
            refine isKey_codeOf fun inner code hinner => hkeys inner code ?_
            rw [herror, hinner]
      have hlimits : ¬Limits (codeOf error) := by
        intro hlimits
        obtain ⟨inner, code, hinner, hfound, hlimit⟩ := limits_codeOf_iff.mp hlimits
        exact hcode inner code hinner hfound hlimit
      obtain ⟨message, code, hfailure⟩ := failureOf_refused hkey hlimits
      refine ⟨message, code, ?_⟩
      rw [read_body h hbody, resultOf_obj, herror]
      exact congrArg (· >>= Except.error) hfailure

theorem read_answers {value : Json} (h : delivery.Answers value) :
    read method delivery = .ok value := by
  cases h with
  | result h hbody herror => rw [read_body h hbody, resultOf_obj, herror]

/-! ### Classes -/

theorem classes (h : delivery.Classed) :
    delivery.Passes ∨ delivery.Refuses ∨ ∃ value, delivery.Answers value := by
  cases h with
  | interrupted h => exact .inl (.interrupted h)
  | @status response h =>
      by_cases hload : response.status = 429 ∨ 500 ≤ response.status
      · exact .inl (.overloaded hload)
      · exact .inr (.inl (.status h hload))
  | @body response fields h hbody hcode =>
      cases herror : field? "error" fields with
      | none => exact .inr (.inr ⟨_, .result h hbody herror⟩)
      | some error =>
          by_cases hlimits : Limits (codeOf error)
          · obtain ⟨inner, code, rfl, hfound, hlimit⟩ := limits_codeOf_iff.mp hlimits
            exact .inl (.limited h hbody herror hfound hlimit)
          · refine .inr (.inl (.reported h hbody herror fun inner code hinner hfound hlimit => ?_))
            exact hlimits (limits_codeOf_iff.mpr ⟨inner, code, hinner, hfound, hlimit⟩)

theorem reportedError?_eq_some {body : Json} (h : reportedError? body = .ok (some error)) :
    ∃ fields, body = .obj fields ∧ field? "error" fields = some error := by
  unfold reportedError? at h
  split at h
  · exact ⟨_, rfl, Except.ok.inj h⟩
  · split_ifs at h
    cases h
  · split_ifs at h
    cases h
  · cases h

theorem classed_of_silent (h : delivery.Silent) : delivery.Classed := by
  cases h with
  | interrupted h => exact .interrupted h
  | status h => exact .status fun hsucceeds => Bool.false_ne_true (h ▸ isSuccess_iff.mpr hsucceeds)
  | @reported response body error hbody herror hcode =>
      obtain ⟨fields, rfl, hfield⟩ := reportedError?_eq_some herror
      -- Silence is told by the error alone; the status decides which class it is.
      by_cases hsucceeds : response.Succeeds
      · refine .body hsucceeds hbody fun inner code hinner hfound => ?_
        cases hfield.symm.trans hinner
        have hcodeOf : codeOf (.obj inner) = code := congrArg (·.getD .null) hfound
        exact hcodeOf ▸ hcode
      · exact .status hsucceeds

theorem isTransient_read_iff : (read method delivery).IsTransient ↔ delivery.Passes := by
  constructor
  · rintro ⟨failure, hread, htransient⟩
    have hunanswered : Access.isUnanswered failure = true := by
      cases failure with
      | transient message status => rfl
      | _ => cases htransient
    have hclassed := classed_of_silent (silent_of_read hread hunanswered)
    rcases classes hclassed with hpasses | hrefuses | ⟨value, hanswers⟩
    · exact hpasses
    · obtain ⟨message, code, hrefused⟩ := read_refuses hclassed hrefuses
      cases hread.symm.trans hrefused
      cases htransient
    · cases hread.symm.trans (read_answers hanswers)
  · intro hpasses
    obtain ⟨message, status, hread⟩ := read_passes hpasses
    exact ⟨_, hread, rfl⟩

theorem refused_read_iff (hclassed : delivery.Classed) :
    (∃ message code, read method delivery = .error (.refused message code)) ↔
      delivery.Refuses := by
  refine ⟨?_, read_refuses hclassed⟩
  rintro ⟨message, code, hread⟩
  rcases classes hclassed with hpasses | hrefuses | ⟨value, hanswers⟩
  · obtain ⟨message, status, htransient⟩ := read_passes hpasses
    cases hread.symm.trans htransient
  · exact hrefuses
  · cases hread.symm.trans (read_answers hanswers)

theorem read_otherwise (hclassed : delivery.Classed) (hpasses : ¬delivery.Passes)
    (hrefuses : ¬delivery.Refuses) :
    ∃ value, delivery.Answers value ∧ read method delivery = .ok value := by
  obtain ⟨value, hanswers⟩ := ((classes hclassed).resolve_left hpasses).resolve_left hrefuses
  exact ⟨value, hanswers, read_answers hanswers⟩

end Exchange

end ProgramAudit.Endpoint
