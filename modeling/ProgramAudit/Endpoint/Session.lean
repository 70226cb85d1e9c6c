import ProgramAudit.Endpoint.Connection
import ProgramAudit.Endpoint.Recorded

namespace ProgramAudit.Endpoint

/-- A client and a price feed, with what the endpoint has seen of them. -/
structure Session (τ : Type) where
  client : Client τ
  feed : PriceFeed τ
  trace : Traced τ := {}

namespace Session

variable {τ : Type} [Clock τ]

def clientPart : Part (Session τ) (Client τ) where
  get := client
  set client session := { session with client }

def feedPart : Part (Session τ) (PriceFeed τ) where
  get := feed
  set feed session := { session with feed }

def tracePart : Part (Session τ) (Traced τ) where
  get := trace
  set trace session := { session with trace }

def connection (script : Script) : Connection τ (Session τ) where
  client := clientPart
  feed := feedPart
  post := script.post tracePart
  get := script.get tracePart
  count session := session.trace.count

def access (script : Script) (commitment : String) : Access τ (Session τ) :=
  (connection script).access commitment

def price (script : Script) : Routine τ (Session τ) Float := (connection script).price

end Session

end ProgramAudit.Endpoint
