import ProgramAudit.Endpoint.Cache
import ProgramAudit.Endpoint.Exchange
import ProgramAudit.Endpoint.Limiter
import ProgramAudit.Ledger.Source

/-!
A client of an endpoint. A result that is kept is given again; every other request passes the limiter,
and its result is kept if it has one.
-/

namespace ProgramAudit.Endpoint

open Ledger

/-- What a client of an endpoint keeps: the results of earlier requests, its limiter, and the number
of the next request. -/
structure Client (τ : Type) where
  cache : Cache τ (String × String) Json
  limiter : Limiter τ
  nextNumber : Int := 1

namespace Client

def defaultCommitment : String := "finalized"

structure Options where
  lifetime : Number := 600.0
  permits : Int := 4
  spacing : Number := 0.0
  commitment : String := defaultCommitment

variable {τ σ : Type} [Clock τ]

def new (options : Options) : Client τ where
  cache := { lifetime := options.lifetime }
  limiter := .new options.permits options.spacing

def limiterPart : Part (Client τ) (Limiter τ) where
  get := limiter
  set limiter client := { client with limiter }

def remember (now : τ) (request : Request) (client : Client τ) : Option Json × Client τ :=
  let (found, cache) := client.cache.get now request.key
  (found, { client with cache })

def takeNumber (client : Client τ) : Int × Client τ :=
  (client.nextNumber, { client with nextNumber := client.nextNumber + 1 })

def keep (now : τ) (request : Request) (result : Json) (client : Client τ) :
    Result (Client τ) :=
  (client.cache.set now request.key result).map fun cache => { client with cache }

end Client

/-- A client within a state, and how its requests get to the endpoint under their numbers. -/
structure Access (τ σ : Type) where
  client : Part σ (Client τ)
  commitment : String
  post : Int → Request → Routine τ σ Delivery

namespace Access

variable {τ σ : Type} [Clock τ]

/-- Posts a request within the limits of the client. -/
def exchange (access : Access τ σ) (request : Request) : Routine τ σ Json := do
  let number ← access.client.step Client.takeNumber
  let delivery ← Limiter.limited (access.client.inside Client.limiterPart)
    (access.post number request)
  Routine.ofResult (Exchange.read request.method delivery)

/-- The result of a request: the one that is kept, or else that of an exchange, which is kept from
then on. -/
def call (access : Access τ σ) (request : Request) : Routine τ σ Json := do
  let asked ← Routine.now
  match ← access.client.step (Client.remember asked request) with
  | some result => return result
  | none =>
    let result ← access.exchange request
    let received ← Routine.now
    access.client.tryChange (Client.keep received request result)
    return result

def origin : String := "solproof.chain.rpc_source"

def account (access : Access τ σ) (address : String) : Routine τ σ (Option Account) := do
  let result ← access.call (.account address .base64 access.commitment)
  match result.get "value" with
  | .null =>
    Routine.note (.make .debug origin "account_not_found" [("address", .str address)])
    return none
  | payload => (Routine.ofResult (Account.ofPayload payload)).map some

/-- A transaction, or none if the endpoint does not have it or it cannot be read. -/
def transaction (access : Access τ σ) (signature : Json) :
    Routine τ σ (Option Transaction) := do
  match ← access.call (.transaction signature access.commitment) with
  | .null => return none
  | payload => Routine.ofResult (Transaction.ofPayload (some signature) payload)

/-- The signatures in a list of entries; an entry without one is passed over. -/
def signaturesOf : Json → List Json
  | .arr items => (items.map fun item => item.get "signature").filter Json.isPresent
  | _ => []

def fetchedRecord (address : String) (signatures : List Json) (found : List Transaction) :
    Journal.Record :=
  .make .info origin "transactions_fetched" [
    ("program", .str address),
    ("signature_count", .int signatures.length),
    ("transaction_count", .int found.length)]

/-- The transactions of an address, newest first. -/
def transactions (access : Access τ σ) (address : String) (limit : Int) :
    Routine τ σ (List Transaction) := do
  let listed ← access.call (.signatures address limit access.commitment)
  let signatures := signaturesOf listed
  let fetched ← Routine.all (signatures.map access.transaction)
  let found := fetched.reduceOption
  Routine.note (fetchedRecord address signatures found)
  return found

/-- Names that stand for no mint of their own. -/
def neutralMints : List String := ["SOL", "GOVERNANCE", "None"]

def isNeutral (mint : String) : Bool := mint.isEmpty || neutralMints.contains mint

def unresolvedRecord (mint : String) (failure : Failure) : Journal.Record :=
  .make .warning origin "token_metadata_failed"
    [("mint", .str mint), ("error", .str failure.text)]

def isUnanswered : Failure → Bool
  | .transient .. => true
  | .refused .. => true
  | _ => false

/-- The payload of the account of a mint, or none if the endpoint does not tell. -/
def mintPayload (access : Access τ σ) (mint : String) : Routine τ σ (Option Json) :=
  ((access.call (.account mint .parsed access.commitment)).map fun result =>
    some (result.get "value")).rescue fun failure =>
      if isUnanswered failure then do
        Routine.note (unresolvedRecord mint failure)
        return none
      else Routine.fail failure

/-- What is known about a mint; what cannot be resolved is neutral. -/
def resolveMint (access : Access τ σ) (mint : String) : Routine τ σ Mint := do
  match ← access.mintPayload mint with
  | none => return .neutral (some mint)
  | some payload =>
    let (found, records) ← Routine.ofResult (Mint.ofPayload mint payload)
    Routine.notes records
    return found

def mint (access : Access τ σ) (mint : String) : Routine τ σ Mint :=
  if isNeutral mint then .succeed (.neutral (some mint)) else access.resolveMint mint

def source (access : Access τ σ) : Source τ σ where
  account := access.account
  transactions address limit := (access.transactions address limit).map some
  mint mint := (access.mint mint).map some

end Access

end ProgramAudit.Endpoint
