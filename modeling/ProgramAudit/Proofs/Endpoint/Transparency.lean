import ProgramAudit.Ledger.Recorded
import ProgramAudit.Proofs.Endpoint.Answers
import ProgramAudit.Proofs.Failure

/-!
What a client gives when its endpoint has no state: each call comes to what the answers to its own
requests come to, as if nothing were kept and one request went after the other.
-/

namespace ProgramAudit.Endpoint

open Ledger Routine

variable {τ σ : Type} [Clock τ] {answer : Request → Json} {access : Access τ σ} {permits : Int}
  {spacing : Number}

/-- An endpoint without a state, which answers every request, and alike if they ask for the same. -/
structure Access.Stateless (access : Access τ σ) (answer : Request → Json) : Prop where
  lawful : access.client.Lawful
  alike : ∀ request other, request.Alike other → answer request = answer other
  meets : ∀ request, access.Meets answer request

/-! ### What calls come to -/

/-- What a source gives for a call. -/
inductive Given where
  | account (found : Option Account)
  | transactions (found : Option (List Transaction))
  | mint (found : Option Mint)

def perform (source : Source τ σ) : Call → Routine τ σ Given
  | .account address => (source.account address).map .account
  | .transactions address limit => (source.transactions address limit).map .transactions
  | .mint mint => (source.mint mint).map .mint

section

variable (answer : Request → Json) (commitment : String)

def transactionBy (signature : Json) : Result (Option Transaction) :=
  match answer (.transaction signature commitment) with
  | .null => .ok none
  | payload => Transaction.ofPayload (some signature) payload

/-- The transactions that can be read among those of the listed signatures, in the order of the
list. -/
def transactionsBy (address : String) (limit : Int) : Result (List Transaction) :=
  ((Access.signaturesOf (answer (.signatures address limit commitment))).mapM
    (transactionBy answer commitment)).map List.reduceOption

def mintBy (mint : String) : Result Mint :=
  if Access.isNeutral mint then .ok (.neutral (some mint))
  else (Mint.ofPayload mint ((answer (.account mint .parsed commitment)).get "value")).map Prod.fst

/-- What a call comes to by the answers alone. -/
def givenBy : Call → Result Given
  | .account address => (accountBy answer commitment address).map .account
  | .transactions address limit =>
    (transactionsBy answer commitment address limit).map fun found => .transactions (some found)
  | .mint mint => (mintBy answer commitment mint).map fun found => .mint (some found)

end

section

variable (hrange : spacing.toReal?.isSome = true) (h : access.Stateless answer)

include hrange

theorem comesTo_transaction {signature : Json} {found : Option Transaction}
    (hfound : transactionBy answer access.commitment signature = .ok found) :
    ComesTo (access.setting h.lawful answer permits spacing).books found
      (access.transaction signature) := by
  refine (ventures_transaction (comesTo_call hrange (h.meets _) (h.alike _) rfl)).mono ?_
  exact fun result hresult => hresult.of_eq_ok.symm.trans hfound

/-- The transactions keep the order of their signatures, whichever comes first. -/
theorem comesTo_transactions {address : String} {limit : Int} {found : List Transaction}
    (hfound : transactionsBy answer access.commitment address limit = .ok found) :
    ComesTo (access.setting h.lawful answer permits spacing).books found
      (access.transactions address limit) := by
  obtain ⟨fetched, hfetched, rfl⟩ := Result.map_eq_ok.mp hfound
  refine (comesTo_call hrange (h.meets _) (h.alike _) rfl).bind ?_
  refine ComesTo.bind (comesTo_all (List.forall₂_map_right_iff.mpr ?_))
    ((comesTo_note _).bind (comesTo_succeed fetched.reduceOption))
  exact (Result.mapM_eq_ok.mp hfetched).imp fun _ _ => comesTo_transaction hrange h

theorem comesTo_mint {mint : String} {found : Mint}
    (hfound : mintBy answer access.commitment mint = .ok found) :
    ComesTo (access.setting h.lawful answer permits spacing).books found (access.mint mint) := by
  unfold mintBy at hfound
  unfold Access.mint
  split_ifs at hfound ⊢ with hneutral
  · cases hfound
    exact comesTo_succeed _
  · refine (ventures_resolveMint (comesTo_call hrange (h.meets _) (h.alike _) rfl)).mono ?_
    exact fun result hresult => hresult.of_eq_ok.symm.trans hfound

theorem comesTo_perform {call : Call} {given : Given}
    (hgiven : givenBy answer access.commitment call = .ok given) :
    ComesTo (access.setting h.lawful answer permits spacing).books given
      (perform access.source call) := by
  cases call with
  | account address =>
      obtain ⟨found, hfound, rfl⟩ := Result.map_eq_ok.mp hgiven
      exact (comesTo_account hrange (h.meets _) hfound).map _
  | transactions address limit =>
      obtain ⟨found, hfound, rfl⟩ := Result.map_eq_ok.mp hgiven
      exact ((comesTo_transactions hrange h hfound).map some).map _
  | mint mint =>
      obtain ⟨found, hfound, rfl⟩ := Result.map_eq_ok.mp hgiven
      exact ((comesTo_mint hrange h hfound).map some).map _

end

/-! ### Whole runs -/

/-- Nothing is kept, and requests go one at a time. -/
def Client.Options.oneByOne : Client.Options := { lifetime := 0, permits := 1, spacing := 0 }

theorem run_perform (h : access.Stateless answer) {options : Client.Options}
    (hlifetime : options.lifetime.toReal?.isSome = true)
    (hspacing : options.spacing.toReal?.isSome = true) {start : Progress τ σ}
    (hstart : access.client.get start.state = .new options) {calls : List Call}
    {givens : List Given} (hread : calls.mapM (givenBy answer access.commitment) = .ok givens) :
    let outcome := (calls.mapM (perform access.source)).run start
    outcome.result = some (.ok givens) ∧
      (access.client.get outcome.final.state).cache.Faithful
        (Answers answer access.commitment) := by
  have hcalls : ComesTo (access.setting h.lawful answer options.permits options.spacing).books
      givens (calls.mapM (perform access.source)) :=
    comesTo_mapM (List.forall₂_map_right_iff.mpr
      ((Result.mapM_eq_ok.mp hread).imp fun _ _ => comesTo_perform hspacing h))
  obtain ⟨hresult, hfinal⟩ := hcalls.run (holds_new hlifetime hstart)
  exact ⟨hresult, (holds_iff.mp hfinal).2⟩

/-- An endpoint that serves plain answers has no state, however long it takes for each of them. -/
theorem stateless_serving {latency : Request → τ}
    (halike : ∀ request other, request.Alike other → answer request = answer other)
    (hplain : ∀ request, (answer request).isPlain = true) :
    (Access.serving answer latency).Stateless answer where
  lawful := .itself
  alike := halike
  meets request := serving_meets (hplain request)

/-- Three signatures are listed; the second one has no transaction. -/
def sampleAnswer : Request → Json
  | .account .. => .obj [("value", .null)]
  | .signatures .. =>
    .arr [.obj [("signature", .str "a")], .obj [("signature", .str "b")],
      .obj [("signature", .str "c")]]
  | .transaction signature _ =>
    if signature.sortedText = "\"b\"" then .null
    else .obj [("transaction", .obj [("message", .obj [])])]

/-- The first transaction comes last. -/
def sampleAccess : Access Int (Client Int) :=
  .serving sampleAnswer fun request => if request.subject.sortedText = "\"a\"" then 7 else 1

theorem stateless_sampleAccess : sampleAccess.Stateless sampleAnswer := by
  refine stateless_serving ?_ ?_
  · intro request other h
    cases h with
    | same => rfl
    | transactions commitment h => simp only [sampleAnswer, h]
  · intro request
    cases request with
    | account address encoding commitment =>
        simp only [sampleAnswer]
        decide
    | signatures address limit commitment =>
        simp only [sampleAnswer]
        decide
    | transaction signature commitment =>
        simp only [sampleAnswer]
        split_ifs <;> decide

def sampleTransaction (signature : String) : Transaction where
  signature := .str signature
  slot := 0
  blockTime := .null
  instructions := []
  volume := 0.0
  fee := 0.0

def sampleOptions : Client.Options := { lifetime := 600.0, permits := 2, spacing := 1.0 }

def sampleCalls : List Call :=
  [.account "p", .transactions "p" 3, .transactions "p" 3, .mint "SOL"]

def sampleGivens : List Given :=
  [.account none, .transactions (some [sampleTransaction "a", sampleTransaction "c"]),
    .transactions (some [sampleTransaction "a", sampleTransaction "c"]),
    .mint (some (.neutral (some "SOL")))]

/-- The run of the calls from a new client on. -/
def sampleRun (options : Client.Options) : Outcome Int (Client Int) (List Given) :=
  (sampleCalls.mapM (perform sampleAccess.source)).run ⟨0, 0, .new options, []⟩

end ProgramAudit.Endpoint
