import ProgramAudit.Proofs.Address.Canonical
import ProgramAudit.Proofs.Endpoint.Answers
import ProgramAudit.Proofs.Endpoint.Silence
import ProgramAudit.Proofs.Routine.Ends
import ProgramAudit.QuickCheck

/-!
Fallbacks over an endpoint that may answer in any way. A request that is not answered leaves a mint
neutral and a check inactive. An answer that cannot be read is no such thing: it fails the whole.
-/

namespace ProgramAudit.Endpoint

open Ledger Routine

variable {τ σ : Type} [Clock τ]

/-- Each request brings one of its outcomes, and requests for the same have the same ones. -/
structure Access.Yields (access : Access τ σ) (outcome : Request → Delivery → Prop) : Prop where
  lawful : access.client.Lawful
  alike : ∀ {request other}, request.Alike other → outcome request = outcome other
  posts : ∀ request, access.Posts request (outcome request)

/-! ### What is told -/

/-- Whether a result can be read by those who ask for it. -/
def Request.check : Request → Json → Result Unit
  | .account _ .base64 _, result => (accountOf result).map fun _ => ()
  | .account name .parsed _, result => (mintOf name (some (result.get "value"))).map fun _ => ()
  | .signatures .., _ => .ok ()
  | .transaction signature _, result => (transactionOf signature result).map fun _ => ()

section

variable (outcome : Request → Delivery → Prop) (commitment : String)

/-- One of the outcomes of the request reads so. -/
def Brought (request : Request) (result : Result Json) : Prop :=
  ∃ delivery, outcome request delivery ∧ Exchange.read request.method delivery = result

/-- The endpoint may leave the request unanswered. -/
def Unanswered (request : Request) : Prop := ∃ delivery, outcome request delivery ∧ delivery.Silent

/-- The endpoint may answer the request with what cannot be read. -/
def Unread (request : Request) (failure : Failure) : Prop :=
  ∃ delivery, outcome request delivery ∧ ¬delivery.Silent ∧
    Exchange.read request.method delivery >>= request.check = .error failure

/-- What a mint comes to. -/
inductive MintTold (name : String) : Result Mint → Prop
  | neutral (hneutral : Access.isNeutral name = true) : MintTold name (.ok (.neutral (some name)))
  | unanswered (h : Unanswered outcome (.account name .parsed commitment)) :
    MintTold name (.ok (.neutral (some name)))
  | read {result : Json} {found : Mint} {records : List Journal.Record}
    (hname : Access.isNeutral name = false)
    (h : Brought outcome (.account name .parsed commitment) (.ok result))
    (hread : Mint.ofPayload name (result.get "value") = .ok (found, records)) :
    MintTold name (.ok found)
  | unread {failure : Failure} (h : Unread outcome (.account name .parsed commitment) failure) :
    MintTold name (.error failure)

def AccountTold (address : String) : Result (Option Account) → Prop :=
  Reads (Brought outcome (.account address .base64 commitment)) (· >>= accountOf)

def TransactionTold (signature : Json) : Result (Option Transaction) → Prop :=
  Reads (Brought outcome (.transaction signature commitment)) (· >>= transactionOf signature)

/-- What the transactions of an address come to. -/
inductive TransactionsTold (address : String) (limit : Int) : Result (List Transaction) → Prop
  | unlisted {failure : Failure}
    (h : Brought outcome (.signatures address limit commitment) (.error failure)) :
    TransactionsTold address limit (.error failure)
  | listed {listed : Json} {found : Result (List (Option Transaction))}
    (hlisted : Brought outcome (.signatures address limit commitment) (.ok listed))
    (hfound : Listed (TransactionTold outcome commitment) (Access.signaturesOf listed) found) :
    TransactionsTold address limit (found.map List.reduceOption)

/-- The requests of a check. -/
inductive Asked (address : String) : Request → Prop
  | account : Asked address (.account address .base64 commitment)
  | signatures : Asked address (.signatures address 1 commitment)
  | transaction {listed signature : Json}
    (hlisted : Brought outcome (.signatures address 1 commitment) (.ok listed))
    (hmem : signature ∈ Access.signaturesOf listed) :
    Asked address (.transaction signature commitment)

/-- What a check comes to. -/
inductive CheckTold (address : String) : Result QuickCheck → Prop
  | read {account : Option Account} {transactions : List Transaction}
    (haccount : AccountTold outcome commitment address (.ok account))
    (htransactions : TransactionsTold outcome commitment address 1 (.ok transactions)) :
    CheckTold address (.ok (.ofReadings address account (some transactions)))
  | unreachable {request : Request} (hasked : Asked outcome commitment address request)
    (h : Unanswered outcome request) : CheckTold address (.ok (.unreachable address))
  | unread {request : Request} {failure : Failure}
    (hasked : Asked outcome commitment address request) (h : Unread outcome request failure) :
    CheckTold address (.error failure)

/-- What may be kept under a key. -/
def Goes (key : String × String) (value : Json) : Prop :=
  ∀ request : Request, request.commitment = commitment → request.key = key →
    Brought outcome request (.ok value)

end

variable {outcome : Request → Delivery → Prop} {commitment : String} {request : Request}
  {failure : Failure}

/-! ### Failures -/

/-- How a request of a check may fail. -/
inductive Failed (outcome : Request → Delivery → Prop) (request : Request) (failure : Failure) : Prop
  | unanswered (hunanswered : Access.isUnanswered failure = true) (h : Unanswered outcome request)
  | unread (hanswered : Access.isUnanswered failure = false) (h : Unread outcome request failure)

theorem failed_of_reads {α : Type} {read : Json → Result α}
    (hcheck : request.check = fun result => (read result).map fun _ => ())
    (hfault : ∀ result, (read result).OrFault)
    (h : Reads (Brought outcome request) (· >>= read) (.error failure)) :
    Failed outcome request failure := by
  obtain ⟨_, ⟨delivery, houtcome, rfl⟩, hread⟩ := h
  have hfails : Exchange.read request.method delivery >>= request.check = .error failure := by
    rw [hcheck, Result.bind_map]
    exact congrArg (Except.map fun _ => ()) hread
  cases hbrought : Exchange.read request.method delivery with
  | ok result =>
      rw [hbrought] at hread
      exact .unread (isUnanswered_of_orFault (hfault result) hread)
        ⟨delivery, houtcome, Exchange.not_silent_of_ok hbrought, hfails⟩
  | error found =>
      rw [hbrought] at hread
      cases hread
      cases hunanswered : Access.isUnanswered failure with
      | true =>
          exact .unanswered hunanswered
            ⟨delivery, houtcome, Exchange.silent_of_read hbrought hunanswered⟩
      | false =>
          exact .unread hunanswered
            ⟨delivery, houtcome, Exchange.not_silent_of_error hbrought hunanswered, hfails⟩

theorem failed_of_brought (hcheck : request.check = fun _ => .ok ())
    (h : Brought outcome request (.error failure)) : Failed outcome request failure := by
  have hread : Reads (Brought outcome request) (· >>= Except.ok) (.error failure) := ⟨_, h, rfl⟩
  exact failed_of_reads (by rw [hcheck]; rfl) .value hread

theorem accountOf_orFault (result : Json) : (accountOf result).OrFault := by
  unfold accountOf
  split
  · exact .value none
  · exact (Account.ofPayload_orFault _).map some

theorem transactionOf_orFault (signature result : Json) :
    (transactionOf signature result).OrFault := by
  unfold transactionOf
  split
  · exact .value none
  · exact Transaction.ofPayload_orFault _ _

theorem AccountTold.failed {address : String}
    (h : AccountTold outcome commitment address (.error failure)) :
    Failed outcome (.account address .base64 commitment) failure :=
  failed_of_reads rfl accountOf_orFault h

theorem TransactionTold.failed {signature : Json}
    (h : TransactionTold outcome commitment signature (.error failure)) :
    Failed outcome (.transaction signature commitment) failure :=
  failed_of_reads rfl (transactionOf_orFault signature) h

theorem TransactionsTold.failed {address : String}
    (h : TransactionsTold outcome commitment address 1 (.error failure)) :
    ∃ request, Asked outcome commitment address request ∧ Failed outcome request failure := by
  generalize hresult : (.error failure : Result (List Transaction)) = result at h
  cases h with
  | unlisted h =>
      cases hresult
      exact ⟨_, .signatures, failed_of_brought rfl h⟩
  | @listed listed found hlisted hfound =>
      cases found with
      | ok found => cases hresult
      | error found =>
          cases hresult
          obtain ⟨signature, hmem, htold⟩ := hfound
          exact ⟨_, .transaction hlisted hmem, htold.failed⟩

theorem mintTold_of_reads {name : String} {result : Result Mint}
    (hname : Access.isNeutral name = false)
    (h : Reads (Brought outcome (.account name .parsed commitment))
      (fun brought => mintPayloadOf brought >>= mintOf name) result) :
    MintTold outcome commitment name result := by
  obtain ⟨_, ⟨delivery, houtcome, rfl⟩, rfl⟩ := h
  cases hbrought : Exchange.read (Request.account name .parsed commitment).method delivery with
  | ok result =>
      change MintTold _ _ _ ((Mint.ofPayload name (result.get "value")).map Prod.fst)
      cases hread : Mint.ofPayload name (result.get "value") with
      | ok found => exact .read hname ⟨delivery, houtcome, hbrought⟩ hread
      | error failure =>
          refine .unread ⟨delivery, houtcome, Exchange.not_silent_of_ok hbrought, ?_⟩
          rw [hbrought]
          exact congrArg (fun found => (found.map Prod.fst).map fun _ => ()) hread
  | error failure =>
      cases hunanswered : Access.isUnanswered failure with
      | true =>
          simp only [mintPayloadOf, hunanswered, if_true]
          exact .unanswered ⟨delivery, houtcome, Exchange.silent_of_read hbrought hunanswered⟩
      | false =>
          simp only [mintPayloadOf, hunanswered, Bool.false_eq_true, if_false]
          refine .unread ⟨delivery, houtcome, ?_, by rw [hbrought]; rfl⟩
          exact Exchange.not_silent_of_error hbrought hunanswered

/-! ### Routines -/

/-- How the readings of a check may turn out. -/
inductive Looked (outcome : Request → Delivery → Prop) (commitment address : String) :
    Result QuickCheck → Prop
  | read {account : Option Account} {transactions : List Transaction}
    (haccount : AccountTold outcome commitment address (.ok account))
    (htransactions : TransactionsTold outcome commitment address 1 (.ok transactions)) :
    Looked outcome commitment address (.ok (.ofReadings address account (some transactions)))
  | failed {request : Request} {failure : Failure}
    (hasked : Asked outcome commitment address request) (h : Failed outcome request failure) :
    Looked outcome commitment address (.error failure)

theorem goes_key_iff (halike : ∀ other, request.Alike other → outcome request = outcome other)
    (hcommitment : request.commitment = commitment) (value : Json) :
    Goes outcome commitment request.key value ↔ Brought outcome request (.ok value) := by
  refine ⟨fun hgoes => hgoes request hcommitment rfl, ?_⟩
  rintro ⟨delivery, houtcome, hread⟩ other hother hkey
  have hsame := (Request.key_eq_iff (hcommitment.trans hother.symm)).mp hkey.symm
  refine ⟨delivery, by rwa [← halike other hsame], ?_⟩
  cases hsame <;> exact hread

section

variable {access : Access τ σ} {permits : Int} {spacing : Number}

/-- The limiter of the client, while the client keeps only what the endpoint brings. -/
abbrev Access.Yields.books (h : access.Yields outcome) (permits : Int) (spacing : Number) :
    Agreement τ σ (Share τ) :=
  (access.keeping h.lawful (Goes outcome access.commitment) permits spacing).books

variable (h : access.Yields outcome) (hrange : spacing.toReal?.isSome = true)

include hrange

theorem ventures_request (hcommitment : request.commitment = access.commitment) :
    Ventures (h.books permits spacing) (Brought outcome request) (access.call request) :=
  ventures_call (goes_key_iff (fun _ => h.alike) hcommitment)
    (ventures_exchange hrange (h.posts request))

theorem ventures_mint (name : String) :
    Ventures (h.books permits spacing) (MintTold outcome access.commitment name)
      (access.mint name) := by
  unfold Access.mint
  split_ifs with hneutral
  · exact ventures_ofResult (.neutral hneutral)
  · refine (ventures_resolveMint (ventures_request h hrange rfl)).mono fun result => ?_
    exact mintTold_of_reads (by simpa using hneutral)

theorem undertakes_transactions (address : String) (limit : Int) :
    Undertakes (h.books permits spacing) (TransactionsTold outcome access.commitment address limit) 0
      (access.transactions address limit) := by
  refine (ventures_request h hrange rfl).undertakes.bind (fun listed hlisted => ?_)
    fun failure => .unlisted
  have hfetched (signature : Json) : Undertakes (h.books permits spacing)
      (TransactionTold outcome access.commitment signature) 0 (access.transaction signature) :=
    (ventures_transaction (ventures_request h hrange rfl)).undertakes
  refine (undertakes_all hfetched (Access.signaturesOf listed)).bind (fun found hfound => ?_)
    fun failure hfailure => .listed hlisted hfailure
  exact (ventures_note _).undertakes.bind (fun _ _ => undertakes_succeed (.listed hlisted hfound))
    nofun

theorem undertakes_readings (address : String) :
    Undertakes (h.books permits spacing) (Looked outcome access.commitment address) 0
      ((both (access.source.account address) (access.source.transactions address 1)).map
        fun (account, transactions) => QuickCheck.ofReadings address account transactions) := by
  have haccount : Undertakes (h.books permits spacing)
      (AccountTold outcome access.commitment address) 0 (access.source.account address) :=
    (ventures_account (ventures_request h hrange rfl)).undertakes
  have htransactions : Undertakes (h.books permits spacing)
      (Reads (TransactionsTold outcome access.commitment address 1) (Except.map some)) 0
      (access.source.transactions address 1) :=
    (undertakes_transactions h hrange address 1).map
      (fun _ hfound => ⟨_, hfound, rfl⟩) fun _ hfailure => ⟨_, hfailure, rfl⟩
  refine (haccount.both htransactions).map ?_ ?_
  · rintro ⟨account, transactions⟩ ⟨htold, found, hfound, hread⟩
    obtain ⟨found, rfl, rfl⟩ := Result.map_eq_ok.mp hread
    exact .read htold hfound
  · rintro failure (htold | ⟨found, hfound, hread⟩)
    · exact .failed .account (AccountTold.failed htold)
    · cases found with
      | ok found => cases hread
      | error found =>
          cases hread
          obtain ⟨request, hasked, hfailed⟩ := hfound.failed
          exact .failed hasked hfailed

end

/-! ### Runs -/

theorem prompt_fallback (address : String) (failure : Failure) :
    Prompt (if Access.isUnanswered failure then .ok (QuickCheck.unreachable address)
      else .error failure)
      (if QuickCheck.isUnreachable failure then do
        note (QuickCheck.failedRecord address failure)
        return QuickCheck.unreachable address
      else fail failure : Routine τ σ QuickCheck) := by
  cases failure with
  | transient => exact .record .settle
  | refused => exact .record .settle
  | _ => exact .settle

theorem checkTold_of_rescued {address : String} {result : Result QuickCheck}
    (h : Rescued (Looked outcome commitment address)
      (fun failure => if Access.isUnanswered failure then .ok (QuickCheck.unreachable address)
        else .error failure) result) : CheckTold outcome commitment address result := by
  cases h with
  | value h =>
      cases h with
      | read haccount htransactions => exact .read haccount htransactions
  | handled h =>
      cases h with
      | failed hasked h =>
          cases h with
          | unanswered hunanswered h =>
              rw [if_pos hunanswered]
              exact .unreachable hasked h
          | unread hanswered h =>
              rw [hanswered]
              exact .unread hasked h

theorem mint_neutral (name : String) :
    (Mint.neutral (some name)).mint = if name = "" then "None" else name := by
  by_cases hname : name = ""
  · rw [hname]
    rfl
  · have hgiven : (some name).filter (· != "") = some name := by simp [Option.filter, hname]
    rw [Mint.neutral, hgiven, if_neg hname]
    rfl

theorem mint_ofPayload {name : String} {payload : Json} {found : Mint}
    {records : List Journal.Record} (hname : name ≠ "")
    (h : Mint.ofPayload name payload = .ok (found, records)) : found.mint = name := by
  unfold Mint.ofPayload at h
  split at h
  · cases h
    rw [mint_neutral, if_neg hname]
  · obtain ⟨decimals, -, h⟩ := Result.bind_eq_ok.mp h
    dsimp only at h
    split_ifs at h
    · cases h
      rfl
    · obtain ⟨text, -, h⟩ := Result.bind_eq_ok.mp h
      cases text <;> cases h <;> rfl

theorem MintTold.exists_value {name : String} {result : Result Mint}
    (h : MintTold outcome commitment name result)
    (hread : ∀ failure, ¬Unread outcome (.account name .parsed commitment) failure) :
    ∃ mint, result = .ok mint ∧ mint.mint = if name = "" then "None" else name := by
  cases h with
  | neutral => exact ⟨_, rfl, mint_neutral name⟩
  | unanswered => exact ⟨_, rfl, mint_neutral name⟩
  | read hneutral _ hfound =>
      have hname : name ≠ "" := by
        rintro rfl
        cases hneutral
      exact ⟨_, rfl, by rw [mint_ofPayload hname hfound, if_neg hname]⟩
  | unread h => exact absurd h (hread _)

theorem CheckTold.exists_value {address : String} {result : Result QuickCheck}
    (h : CheckTold outcome commitment address result)
    (hread : ∀ request, Asked outcome commitment address request → ∀ failure,
      ¬Unread outcome request failure) :
    ∃ check, result = .ok check ∧ check.address = address := by
  cases h with
  | read => exact ⟨_, rfl, rfl⟩
  | unreachable => exact ⟨_, rfl, rfl⟩
  | unread hasked h => exact absurd h (hread _ hasked _)

section

variable {access : Access τ σ} (h : access.Yields outcome) {options : Client.Options}
  (hlifetime : options.lifetime.toReal?.isSome = true)
  (hspacing : options.spacing.toReal?.isSome = true) {start : Progress τ σ}
  (hstart : access.client.get start.state = .new options)

include h hlifetime hspacing hstart

theorem run_mint (name : String) : ∃ result,
    ((access.mint name).run start).result = some result ∧
      MintTold outcome access.commitment name result :=
  (ventures_mint h hspacing name).run (keeping_holds_new hlifetime hstart)

theorem run_check {given : Json} {address : String}
    (hvalid : Address.validate given = .ok address) : ∃ result,
    ((QuickCheck.run access.source given).run start).result = some result ∧
      CheckTold outcome access.commitment address result := by
  have hholds : (h.books options.permits options.spacing).holds (0 + 0) start.now start.turn
      start.state := keeping_holds_new hlifetime hstart
  obtain ⟨result, hresult, hrescued⟩ := run_rescue (prompt_fallback address)
    (undertakes_readings h hspacing address 0 _ _ _ hholds)
  refine ⟨result, ?_, checkTold_of_rescued hrescued⟩
  unfold QuickCheck.run
  rw [hvalid]
  exact hresult

/-- An endpoint that is silent throughout leaves every mint neutral and every check inactive. -/
theorem runs_fall_back
    (hsilent : ∀ request delivery, outcome request delivery → delivery.Silent) :
    (∀ name, ((access.mint name).run start).result = some (.ok (.neutral (some name)))) ∧
      ∀ given address, Address.validate given = .ok address →
        ((QuickCheck.run access.source given).run start).result =
          some (.ok (.unreachable address)) := by
  refine ⟨fun name => ?_, fun given address hvalid => ?_⟩
  · obtain ⟨result, hresult, htold⟩ := run_mint h hlifetime hspacing hstart name
    rw [hresult]
    cases htold with
    | neutral => rfl
    | unanswered => rfl
    | read _ hbrought =>
        obtain ⟨delivery, houtcome, hread⟩ := hbrought
        exact absurd (hsilent _ _ houtcome) (Exchange.not_silent_of_ok hread)
    | unread hunread =>
        obtain ⟨delivery, houtcome, hspoken, -⟩ := hunread
        exact absurd (hsilent _ _ houtcome) hspoken
  · obtain ⟨result, hresult, htold⟩ := run_check h hlifetime hspacing hstart hvalid
    rw [hresult]
    cases htold with
    | read haccount =>
        obtain ⟨_, ⟨delivery, houtcome, rfl⟩, haccount⟩ := haccount
        obtain ⟨result, hread, -⟩ := Result.bind_eq_ok.mp haccount
        exact absurd (hsilent _ _ houtcome) (Exchange.not_silent_of_ok hread)
    | unreachable => rfl
    | unread _ hunread =>
        obtain ⟨delivery, houtcome, hspoken, -⟩ := hunread
        exact absurd (hsilent _ _ houtcome) hspoken

/-- An endpoint of which no response can be read fails every check, and every mint that stands for
itself. -/
theorem runs_fail
    (hread : ∀ request delivery, outcome request delivery →
      Exchange.read request.method delivery = .error failure)
    (hanswered : Access.isUnanswered failure = false) :
    (∀ name, Access.isNeutral name = false →
      ((access.mint name).run start).result = some (.error failure)) ∧
      ∀ given address, Address.validate given = .ok address →
        ((QuickCheck.run access.source given).run start).result = some (.error failure) := by
  have hanswers {request : Request} : ¬Unanswered outcome request := by
    rintro ⟨delivery, houtcome, hsilent⟩
    exact Exchange.not_silent_of_error (hread _ _ houtcome) hanswered hsilent
  have hunread {request : Request} {other : Failure} (h : Unread outcome request other) :
      other = failure := by
    obtain ⟨delivery, houtcome, -, hfails⟩ := h
    rw [hread _ _ houtcome] at hfails
    cases hfails
    rfl
  refine ⟨fun name hname => ?_, fun given address hvalid => ?_⟩
  · obtain ⟨result, hresult, htold⟩ := run_mint h hlifetime hspacing hstart name
    rw [hresult]
    cases htold with
    | neutral hneutral => cases hname.symm.trans hneutral
    | unanswered h => exact absurd h hanswers
    | read _ hbrought =>
        obtain ⟨delivery, houtcome, hbrought⟩ := hbrought
        cases (hread _ _ houtcome).symm.trans hbrought
    | unread h => rw [hunread h]
  · obtain ⟨result, hresult, htold⟩ := run_check h hlifetime hspacing hstart hvalid
    rw [hresult]
    cases htold with
    | read haccount =>
        obtain ⟨_, ⟨delivery, houtcome, rfl⟩, haccount⟩ := haccount
        obtain ⟨result, hbrought, -⟩ := Result.bind_eq_ok.mp haccount
        cases (hread _ _ houtcome).symm.trans hbrought
    | unreachable _ h => exact absurd h hanswers
    | unread _ h => rw [hunread h]

/-- Whatever an endpoint brings, asking for a mint and a first look at an address both come to an
end. They fail only by what is brought and cannot be read. Where nothing of the kind is brought they
never fail: the metadata are of that mint, and the check is of that address. A request that is left
unanswered makes the mint neutral and the check inactive. -/
theorem fallbacks_unless_unread :
    (∀ name, ∃ result, ((access.mint name).run start).result = some result ∧
      MintTold outcome access.commitment name result ∧
      ((∀ failure, ¬Unread outcome (.account name .parsed access.commitment) failure) →
        ∃ mint, result = .ok mint ∧ mint.mint = if name = "" then "None" else name)) ∧
    ∀ given address, Address.validate given = .ok address →
      ∃ result, ((QuickCheck.run access.source given).run start).result = some result ∧
        CheckTold outcome access.commitment address result ∧
        ((∀ request, Asked outcome access.commitment address request → ∀ failure,
          ¬Unread outcome request failure) →
          ∃ check, result = .ok check ∧ check.address = address) := by
  refine ⟨fun name => ?_, fun given address hvalid => ?_⟩
  · obtain ⟨result, hresult, htold⟩ := run_mint h hlifetime hspacing hstart name
    exact ⟨result, hresult, htold, htold.exists_value⟩
  · obtain ⟨result, hresult, htold⟩ := run_check h hlifetime hspacing hstart hvalid
    exact ⟨result, hresult, htold, htold.exists_value⟩

end

/-! ### Endpoints without a state -/

/-- A client of its own, and an endpoint that always delivers the same for a request. -/
def Access.delivering (respond : Request → Delivery) (latency : τ) : Access τ (Client τ) where
  client := .itself
  commitment := Client.defaultCommitment
  post _ request := do
    sleepFor latency
    return respond request

theorem yields_delivering {respond : Request → Delivery} (latency : τ)
    (halike : ∀ {request other}, request.Alike other → respond request = respond other) :
    (Access.delivering respond latency).Yields fun request => (· = respond request) where
  lawful := .itself
  alike h := by rw [halike h]
  posts _ := {
    spares := fun _ _ _ => ⟨fun _ _ _ => rfl, fun _ _ => ⟨fun _ _ _ => rfl, trivial⟩⟩
    delivers := fun _ _ _ => ⟨fun _ => rfl, fun _ _ => ⟨fun _ => rfl, ⟨_, rfl, rfl⟩, rfl⟩⟩ }

def sampleAddress : String := Address.ofKey (List.replicate 32 0)

/-- The run of a routine of a new client, from the first moment on. -/
def runNew {α : Type} (routine : Routine Int (Client Int) α) : Option (Result α) :=
  (routine.run ⟨0, 0, .new {}, []⟩).result

/-- There are no accounts, and every other request is too much for the endpoint. -/
def busyDelivery : Request → Delivery
  | .account .. => .answered ⟨200, (Json.obj [("result", .obj [("value", .null)])]).render⟩
  | _ => .answered ⟨503, "busy"⟩

def busyAccess : Access Int (Client Int) := .delivering busyDelivery 2

theorem fallbacks_unless_unread_busy :
    (∃ mint, runNew (busyAccess.mint "m") = some (.ok mint) ∧ mint.mint = "m") ∧
      ∃ check, runNew (QuickCheck.run busyAccess.source (.str sampleAddress)) = some (.ok check) ∧
        check.address = sampleAddress := by
  have hunread (request : Request) (failure : Failure) :
      ¬Unread (fun request => (· = busyDelivery request)) request failure := by
    rintro ⟨_, rfl, hspoken, hfails⟩
    cases request with
    | account address encoding commitment =>
        rw [busyDelivery, read_rendered _ rfl] at hfails
        cases encoding <;> cases hfails
    | _ => exact hspoken (.status rfl)
  obtain ⟨hmint, hcheck⟩ := @fallbacks_unless_unread Int (Client Int) _ _ busyAccess
    (yields_delivering _ fun h => by cases h <;> rfl) {} (by decide +kernel) (by decide +kernel)
    ⟨0, 0, .new {}, []⟩ rfl
  obtain ⟨_, hresult, -, hfound⟩ := hmint "m"
  obtain ⟨mint, rfl, hname⟩ := hfound (hunread _)
  obtain ⟨_, hresult', -, hfound'⟩ := hcheck _ sampleAddress (Address.validate_ofKey rfl)
  obtain ⟨check, rfl, haddress⟩ := hfound' fun request _ => hunread request
  exact ⟨⟨mint, hresult, hname⟩, check, hresult', haddress⟩

/-- An endpoint whose responses are no JSON. -/
def garbledAccess : Access Int (Client Int) := .delivering (fun _ => .answered ⟨200, "not json"⟩) 2

theorem fallbacks_missed :
    runNew (garbledAccess.mint "EPjFWdd5AufqSSqeM2qN1xzybapC8G4wEGGkZwyTDt1v") =
        some (.error (.fault .malformedJson "malformed JSON")) ∧
      runNew (QuickCheck.run garbledAccess.source (.str sampleAddress)) =
        some (.error (.fault .malformedJson "malformed JSON")) := by
  have hread (request : Request) (delivery : Delivery)
      (h : delivery = .answered ⟨200, "not json"⟩) : Exchange.read request.method delivery =
        .error (.fault .malformedJson "malformed JSON") := by
    rw [h]
    rfl
  obtain ⟨hmint, hcheck⟩ := @runs_fail Int (Client Int) _ _ _ garbledAccess
    (yields_delivering _ fun _ => rfl) {} (by decide +kernel) (by decide +kernel)
    ⟨0, 0, .new {}, []⟩ rfl hread rfl
  exact ⟨hmint _ (by decide +kernel), hcheck _ sampleAddress (Address.validate_ofKey rfl)⟩

end ProgramAudit.Endpoint
