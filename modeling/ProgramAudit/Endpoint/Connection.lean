import ProgramAudit.Endpoint.Client
import ProgramAudit.Endpoint.Price

namespace ProgramAudit.Endpoint

/-- A client and a price feed within a state, how their requests get to the endpoint, and how many
it has seen. -/
structure Connection (τ σ : Type) where
  client : Part σ (Client τ)
  feed : Part σ (PriceFeed τ)
  post : Int → Request → Routine τ σ Delivery
  get : PriceRequest → Routine τ σ Delivery
  count : σ → Nat

namespace Connection

variable {τ σ : Type} [Clock τ]

def access (connection : Connection τ σ) (commitment : String) : Access τ σ where
  client := connection.client
  commitment := commitment
  post := connection.post

def price (connection : Connection τ σ) : Routine τ σ Float :=
  PriceFeed.price connection.feed connection.get

end Connection

end ProgramAudit.Endpoint
