import ProgramAudit.Endpoint.Client
import ProgramAudit.Proofs.Failure
import ProgramAudit.Proofs.Routine.Ventures

/-!
What the calls of a client make of what their requests bring. How a request comes to that is left
open here.
-/

namespace ProgramAudit.Endpoint

open Ledger Routine

/-- The account in a result. -/
def accountOf (result : Json) : Result (Option Account) :=
  match result.get "value" with
  | .null => .ok none
  | payload => (Account.ofPayload payload).map some

/-- The transaction in a result, if it is there and can be read. -/
def transactionOf (signature : Json) : Json → Result (Option Transaction)
  | .null => .ok none
  | payload => Transaction.ofPayload (some signature) payload

/-- The payload of the account of a mint; there is none if the endpoint does not tell. -/
def mintPayloadOf : Result Json → Result (Option Json)
  | .ok result => .ok (some (result.get "value"))
  | .error failure => if Access.isUnanswered failure then .ok none else .error failure

/-- What a payload says about a mint, which is neutral without one. -/
def mintOf (name : String) : Option Json → Result Mint
  | none => .ok (.neutral (some name))
  | some payload => (Mint.ofPayload name payload).map Prod.fst

/-- A result is read from something that is brought. -/
def Reads {α β : Type} (P : Result α → Prop) (read : Result α → Result β) (result : Result β) :
    Prop :=
  ∃ brought, P brought ∧ read brought = result

variable {τ σ G α β γ : Type} [Clock τ] [AddCommMonoid G] {agreement : Agreement τ σ G}
  {access : Access τ σ}

theorem Reads.of_eq_ok {value : α} {read : Result α → Result β} {result : Result β}
    (h : Reads (· = .ok value) read result) : read (.ok value) = result := by
  obtain ⟨_, rfl, hread⟩ := h
  exact hread

section

variable {P : Result α → Prop} {read : Result α → Result β} {routine : Routine τ σ β}
  {f : β → Routine τ σ γ} {next : β → Result γ}

theorem ventures_reads_bind (h : Ventures agreement (Reads P read) routine)
    (hf : ∀ value, Ventures agreement (· = next value) (f value)) :
    Ventures agreement (Reads P fun brought => read brought >>= next) (routine.bind f) := by
  refine h.bind (fun value hvalue => (hf value).mono ?_) ?_
  · rintro result rfl
    obtain ⟨brought, hbrought, hread⟩ := hvalue
    exact ⟨brought, hbrought, congrArg (· >>= next) hread⟩
  · rintro failure ⟨brought, hbrought, hread⟩
    exact ⟨brought, hbrought, congrArg (· >>= next) hread⟩

end

variable {P : Result Json → Prop}

theorem ventures_call_bind {request : Request} {read : Json → Result α} {f : Json → Routine τ σ α}
    (hcall : Ventures agreement P (access.call request))
    (hf : ∀ result, Ventures agreement (· = read result) (f result)) :
    Ventures agreement (Reads P (· >>= read)) ((access.call request).bind f) :=
  ventures_reads_bind (hcall.mono fun brought hbrought => ⟨brought, hbrought, rfl⟩) hf

theorem ventures_account {address : String}
    (hcall : Ventures agreement P (access.call (.account address .base64 access.commitment))) :
    Ventures agreement (Reads P (· >>= accountOf)) (access.account address) := by
  refine ventures_call_bind hcall fun result => ?_
  unfold accountOf
  generalize result.get "value" = payload
  cases payload with
  | null => exact (ventures_note _).bind (fun _ _ => ventures_given _) nofun
  | _ => exact (ventures_given _).mapResult fun _ h => congrArg (Except.map some) h

theorem ventures_transaction {signature : Json}
    (hcall : Ventures agreement P (access.call (.transaction signature access.commitment))) :
    Ventures agreement (Reads P (· >>= transactionOf signature)) (access.transaction signature) := by
  refine ventures_call_bind hcall fun payload => ?_
  cases payload with
  | null => exact ventures_given _
  | _ => exact ventures_given _

theorem ventures_mintPayload {name : String}
    (hcall : Ventures agreement P (access.call (.account name .parsed access.commitment))) :
    Ventures agreement (Reads P mintPayloadOf) (access.mintPayload name) := by
  have hread : Ventures agreement
      (Reads P fun brought => brought.map fun result => some (result.get "value"))
      ((access.call (.account name .parsed access.commitment)).map fun result =>
        some (result.get "value")) :=
    hcall.mapResult fun brought hbrought => ⟨brought, hbrought, rfl⟩
  refine hread.rescue ?_ ?_
  · rintro payload ⟨brought, hbrought, hpayload⟩
    obtain ⟨result, rfl, rfl⟩ := Result.map_eq_ok.mp hpayload
    exact ⟨.ok result, hbrought, rfl⟩
  · rintro failure ⟨brought, hbrought, hfailure⟩
    cases brought with
    | ok result => cases hfailure
    | error found =>
        cases hfailure
        have hpayload : mintPayloadOf (.error failure) =
            if Access.isUnanswered failure then .ok none else .error failure := rfl
        split_ifs at hpayload ⊢ with hunanswered
        · exact (ventures_note _).bind
            (fun _ _ => ventures_ofResult ⟨_, hbrought, hpayload⟩) nofun
        · exact ventures_ofResult ⟨_, hbrought, hpayload⟩

/-- What comes of asking for a mint that stands for itself. -/
theorem ventures_resolveMint {name : String}
    (hcall : Ventures agreement P (access.call (.account name .parsed access.commitment))) :
    Ventures agreement (Reads P fun brought => mintPayloadOf brought >>= mintOf name)
      (access.resolveMint name) := by
  refine ventures_reads_bind (ventures_mintPayload hcall) fun payload => ?_
  cases payload with
  | none => exact ventures_given _
  | some payload =>
      refine (ventures_given (Mint.ofPayload name payload)).bind ?_ ?_
      · rintro ⟨found, records⟩ hfound
        refine (ventures_notes records).bind (fun _ _ => ventures_ofResult ?_) nofun
        exact congrArg (Except.map Prod.fst) hfound
      · exact fun failure hfailure => congrArg (Except.map Prod.fst) hfailure

end ProgramAudit.Endpoint
