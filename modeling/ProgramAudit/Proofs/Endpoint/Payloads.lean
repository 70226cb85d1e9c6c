import ProgramAudit.Proofs.Endpoint.Fallbacks
import ProgramAudit.Proofs.Ledger.Defects

/-!
What payloads that cannot be read do to the transactions of an address. They come all together or not
at all: one payload with a defect fails the whole list.
-/

namespace ProgramAudit.Endpoint

open Ledger Result Routine

variable {τ σ : Type} [Clock τ]

section

variable (outcome : Request → Delivery → Prop) (commitment : String)

/-- The payload of a transaction is brought, and it has no defect. -/
def Sound (signature : Json) (found : Option Transaction) : Prop :=
  ∃ payload, Brought outcome (.transaction signature commitment) (.ok payload) ∧
    ¬Transaction.Defective (some signature) payload ∧
    Transaction.ofPayload (some signature) payload = .ok found

/-- What comes of the transactions of an address. A failure is one of a request, or it comes from one
payload with a defect. Otherwise there is no defect in any payload. -/
inductive TransactionsCome (address : String) (limit : Int) : Result (List Transaction) → Prop
  | unlisted {failure : Failure}
    (h : Brought outcome (.signatures address limit commitment) (.error failure)) :
    TransactionsCome address limit (.error failure)
  | unbrought {listed signature : Json} {failure : Failure}
    (hlisted : Brought outcome (.signatures address limit commitment) (.ok listed))
    (hmem : signature ∈ Access.signaturesOf listed)
    (h : Brought outcome (.transaction signature commitment) (.error failure)) :
    TransactionsCome address limit (.error failure)
  | defective {listed signature payload : Json} {failure : Failure}
    (hlisted : Brought outcome (.signatures address limit commitment) (.ok listed))
    (hmem : signature ∈ Access.signaturesOf listed)
    (hbrought : Brought outcome (.transaction signature commitment) (.ok payload))
    (h : Transaction.Defective (some signature) payload)
    (hread : Transaction.ofPayload (some signature) payload = .error failure) :
    TransactionsCome address limit (.error failure)
  | read {listed : Json} {found : List (Option Transaction)}
    (hlisted : Brought outcome (.signatures address limit commitment) (.ok listed))
    (hfound : List.Forall₂ (fun transaction signature => Sound outcome commitment signature transaction)
      found (Access.signaturesOf listed)) :
    TransactionsCome address limit (.ok found.reduceOption)

end

variable {outcome : Request → Delivery → Prop} {commitment : String}

theorem transactionOf_eq (signature payload : Json) :
    transactionOf signature payload = Transaction.ofPayload (some signature) payload := by
  cases payload <;> rfl

/-- Reading one transaction fails with the request, or by a defect of the payload. -/
theorem TransactionTold.failed_by {signature : Json} {failure : Failure}
    (h : TransactionTold outcome commitment signature (.error failure)) :
    Brought outcome (.transaction signature commitment) (.error failure) ∨
      ∃ payload, Brought outcome (.transaction signature commitment) (.ok payload) ∧
        Transaction.Defective (some signature) payload ∧
        Transaction.ofPayload (some signature) payload = .error failure := by
  obtain ⟨brought, hbrought, hread⟩ := h
  cases brought with
  | error other =>
      cases hread
      exact .inl hbrought
  | ok payload =>
      have hread : Transaction.ofPayload (some signature) payload = .error failure :=
        (transactionOf_eq signature payload).symm.trans hread
      exact .inr ⟨payload, hbrought, Transaction.fails_ofPayload.mp ⟨failure, hread, trivial⟩, hread⟩

theorem TransactionTold.sound {signature : Json} {found : Option Transaction}
    (h : TransactionTold outcome commitment signature (.ok found)) :
    Sound outcome commitment signature found := by
  obtain ⟨brought, hbrought, htold⟩ := h
  obtain ⟨payload, rfl, hread⟩ := Result.bind_eq_ok.mp htold
  rw [transactionOf_eq] at hread
  refine ⟨payload, hbrought, fun hdefective => ?_, hread⟩
  have hfails := Transaction.fails_ofPayload.mpr hdefective
  rw [hread] at hfails
  exact not_failsBy_ok hfails

theorem TransactionsTold.come {address : String} {limit : Int} {result : Result (List Transaction)}
    (h : TransactionsTold outcome commitment address limit result) :
    TransactionsCome outcome commitment address limit result := by
  cases h with
  | unlisted h => exact .unlisted h
  | @listed listed found hlisted hfound =>
      cases found with
      | ok found => exact .read hlisted (hfound.imp fun _ _ => TransactionTold.sound)
      | error failure =>
          obtain ⟨signature, hmem, htold⟩ := hfound
          obtain h | ⟨payload, hbrought, hdefective, hread⟩ := htold.failed_by
          · exact .unbrought hlisted hmem h
          · exact .defective hlisted hmem hbrought hdefective hread

/-- One listed transaction with a defect is enough to lose them all. -/
theorem TransactionsCome.fails {address : String} {limit : Int} {result : Result (List Transaction)}
    (h : TransactionsCome outcome commitment address limit result)
    (hdefective : ∀ listed, Brought outcome (.signatures address limit commitment) (.ok listed) →
      ∃ signature ∈ Access.signaturesOf listed, ∀ payload,
        Brought outcome (.transaction signature commitment) (.ok payload) →
          Transaction.Defective (some signature) payload) : Fails result := by
  cases h with
  | unlisted | unbrought | defective => exact failsBy_error.mpr trivial
  | @read listed found hlisted hfound =>
      obtain ⟨signature, hmem, hdefective⟩ := hdefective listed hlisted
      have heach : ∀ signature ∈ Access.signaturesOf listed,
          ∃ transaction, Sound outcome commitment signature transaction :=
        ((List.forall₂_and_left _ _).mp (hfound.flip.imp fun _ transaction hsound =>
          ⟨⟨transaction, hsound⟩, hsound⟩)).1
      obtain ⟨transaction, payload, hbrought, hsound, -⟩ := heach signature hmem
      exact absurd (hdefective payload hbrought) hsound

section

variable {access : Access τ σ} (h : access.Yields outcome) {options : Client.Options}
  (hlifetime : options.lifetime.toReal?.isSome = true)
  (hspacing : options.spacing.toReal?.isSome = true) {start : Progress τ σ}
  (hstart : access.client.get start.state = .new options)

include h hlifetime hspacing hstart

theorem run_transactions (address : String) (limit : Int) : ∃ result,
    ((access.transactions address limit).run start).result = some result ∧
      TransactionsCome outcome access.commitment address limit result := by
  obtain ⟨result, hresult, htold⟩ := (undertakes_transactions h hspacing address limit).run
    (keeping_holds_new hlifetime hstart)
  exact ⟨result, hresult, htold.come⟩

end

/-! ### An endpoint that lists two transactions -/

/-- What is brought for the first transaction. -/
def firstPayload : Json := .obj [("slot", .int 1), ("transaction", .obj [("message", .obj [])])]

def listingAnswer (second : Json) : Request → Json
  | .account .. => .null
  | .signatures .. => .arr [.obj [("signature", .str "a")], .obj [("signature", .str "b")]]
  | .transaction signature _ => if signature.sortedText = "\"b\"" then second else firstPayload

def listingDelivery (second : Json) (request : Request) : Delivery :=
  .answered ⟨200, (Json.obj [("result", listingAnswer second request)]).render⟩

def listingAccess (second : Json) : Access Int (Client Int) := .delivering (listingDelivery second) 2

theorem yields_listing (second : Json) :
    (listingAccess second).Yields fun request => (· = listingDelivery second request) := by
  refine yields_delivering _ fun h => ?_
  cases h with
  | same => rfl
  | transactions commitment h => simp only [listingDelivery, listingAnswer, h]

theorem brought_listing {second : Json} (hplain : second.isPlain = true) {request : Request}
    {result : Result Json}
    (h : Brought (fun request => (· = listingDelivery second request)) request result) :
    result = .ok (listingAnswer second request) := by
  obtain ⟨_, rfl, rfl⟩ := h
  refine read_rendered _ ?_
  cases request with
  | account => rfl
  | signatures => rfl
  | transaction signature commitment =>
      unfold listingAnswer
      dsimp only
      split_ifs
      · exact hplain
      · decide

def firstTransaction : Transaction where
  signature := .str "a"
  slot := 1
  blockTime := .null
  instructions := []
  volume := 0.0
  fee := 0.0

theorem signaturesOf_listing {second listed : Json} (hplain : second.isPlain = true)
    (h : Brought (fun request => (· = listingDelivery second request))
      (.signatures "p" 2 (listingAccess second).commitment) (.ok listed)) :
    Access.signaturesOf listed = [.str "a", .str "b"] := by
  cases brought_listing hplain h
  rfl

/-- A slot that is no numeral. -/
def unreadPayload : Json := .obj [("slot", .str "abc"), ("transaction", .obj [("message", .obj [])])]

end ProgramAudit.Endpoint
