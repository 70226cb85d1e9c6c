import ProgramAudit.Json.Identity
import ProgramAudit.Json.Sorted

namespace ProgramAudit.Endpoint

/-- How the data of an account are asked for: as bytes, or read by the endpoint. -/
inductive Encoding where
  | base64
  | parsed
deriving DecidableEq

def Encoding.word : Encoding → String
  | .base64 => "base64"
  | .parsed => "jsonParsed"

/-- The requests that an endpoint answers. -/
inductive Request where
  | account (address : String) (encoding : Encoding) (commitment : String)
  | signatures (address : String) (limit : Int) (commitment : String)
  | transaction (signature : Json) (commitment : String)
deriving DecidableEq

namespace Request

def method : Request → String
  | .account .. => "getAccountInfo"
  | .signatures .. => "getSignaturesForAddress"
  | .transaction .. => "getTransaction"

def subject : Request → Json
  | .account address _ _ => .str address
  | .signatures address _ _ => .str address
  | .transaction signature _ => signature

def options : Request → Json
  | .account _ encoding commitment =>
    .obj [("encoding", .str encoding.word), ("commitment", .str commitment)]
  | .signatures _ limit commitment =>
    .obj [("limit", .int limit), ("commitment", .str commitment)]
  | .transaction _ commitment => .obj [
      ("encoding", .str Encoding.parsed.word),
      ("maxSupportedTransactionVersion", .int 0),
      ("commitment", .str commitment)]

def params (request : Request) : Json := .arr [request.subject, request.options]

/-- What requests are told apart by: the method, and the text of the params without regard to the
order of fields. -/
def key (request : Request) : String × String := (request.method, request.params.sortedText)

def body (number : Int) (request : Request) : Json :=
  .obj [
    ("jsonrpc", .str "2.0"),
    ("id", .int number),
    ("method", .str request.method),
    ("params", request.params)]

end Request

end ProgramAudit.Endpoint
