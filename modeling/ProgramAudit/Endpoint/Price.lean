import ProgramAudit.Endpoint.Exchange
import ProgramAudit.Journal.Record
import ProgramAudit.Routine.Part

/-!
The price of SOL. It is asked for again after its lifetime, and a failed request changes nothing of
what is known.
-/

namespace ProgramAudit.Endpoint

structure KnownPrice (τ : Type) where
  value : Float
  asked : τ

/-- Its age is less than the lifetime of prices. -/
def KnownPrice.isFresh {τ : Type} [Clock τ] (lifetime : Number) (now : τ) (known : KnownPrice τ) :
    Bool :=
  let age := now - known.asked
  let bound := Clock.seconds lifetime
  Clock.notAfter age bound && !Clock.notAfter bound age

/-- The price of SOL in dollars, asked for again after its lifetime. -/
structure PriceFeed (τ : Type) where
  standing : Float
  lifetime : Number := 600.0
  key : Option String := none
  known : Option (KnownPrice τ) := none

/-- A request for the price, with a key if there is one. -/
structure PriceRequest where
  url : String
  key : Option String
deriving DecidableEq

namespace PriceFeed

variable {τ σ : Type} [Clock τ]

def priceUrl : String :=
  "https://api.coingecko.com/api/v3/simple/price?ids=solana&vs_currencies=usd"

/-- An empty key is none. -/
def request (feed : PriceFeed τ) : PriceRequest :=
  ⟨priceUrl, feed.key.filter fun key => key != ""⟩

/-- The known price if it has not outlived its time. -/
def current? (now : τ) (feed : PriceFeed τ) : Option Float :=
  (feed.known.filter fun known => known.isFresh feed.lifetime now).map KnownPrice.value

/-- What stands in for a price that cannot be read: the last known one, or the standing one. -/
def fallback (feed : PriceFeed τ) : Float :=
  (feed.known.map KnownPrice.value).getD feed.standing

def learn (asked : τ) (value : Float) (feed : PriceFeed τ) : PriceFeed τ :=
  { feed with known := some ⟨value, asked⟩ }

def statusFailure (status : Int) : Failure :=
  .fault (.exchange ⟨"HTTPStatusError", by decide⟩) s!"HTTP {status}"

/-- Looks up a name in a value that is read as an object. -/
def lookUp (name : String) : Json → Result Json
  | .obj fields =>
    match Json.field? name fields with
    | some value => .ok value
    | none => .error (.missingKey (.str name))
  | .arr _ => .error (.wrongType "list indices must be integers or slices, not str")
  | .str _ => .error (.wrongType "string indices must be integers, not 'str'")
  | value => .error (.wrongType s!"'{value.kindName}' object is not subscriptable")

def read : Delivery → Result Float
  | .interrupted interruption => .error interruption.failure
  | .answered response => do
    if response.isSuccess then
      let prices ← lookUp "solana" (← response.json)
      (← lookUp "usd" prices).toDouble
    else .error (statusFailure response.status)

/-- Failures for which the fallback stands in. -/
def isTolerated : Failure → Bool
  | .fault (.exchange _) _ => true
  | .fault .missingKey _ => true
  | failure => failure.isUnreadable

def origin : String := "solproof.chain.source"

def failedRecord (failure : Failure) (fallback : Float) : Journal.Record :=
  .make .warning origin "sol_price_fetch_failed"
    [("error", .str failure.text), ("fallback_usd", .real fallback)]

def fetchedRecord (value : Float) : Journal.Record :=
  .make .debug origin "sol_price_fetched" [("price_usd", .real value)]

/-- Learns from a delivery, or tells the fallback. -/
def settle (part : Part σ (PriceFeed τ)) (asked : τ) (result : Result Float) :
    Routine τ σ Float :=
  match result with
  | .ok value => do
    part.change (learn asked value)
    Routine.note (fetchedRecord value)
    return value
  | .error failure =>
    if isTolerated failure then do
      let fallback := (← part.read).fallback
      Routine.note (failedRecord failure fallback)
      return fallback
    else Routine.fail failure

def price (part : Part σ (PriceFeed τ)) (get : PriceRequest → Routine τ σ Delivery) :
    Routine τ σ Float := do
  let asked ← Routine.now
  let feed ← part.read
  match feed.current? asked with
  | some value => return value
  | none => settle part asked (read (← get feed.request))

end PriceFeed

end ProgramAudit.Endpoint
