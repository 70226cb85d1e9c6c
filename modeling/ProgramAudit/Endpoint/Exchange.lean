import ProgramAudit.Endpoint.Request
import ProgramAudit.Infix
import ProgramAudit.Json.Convert
import ProgramAudit.Json.Reader

/-!
What a response to a request comes to: its result, a failure that may pass, or one that stays.
-/

namespace ProgramAudit.Endpoint

/-- Why a request brings no response. -/
structure Interruption where
  kind : FaultName
  message : String
deriving DecidableEq

/-- The classes of failed transport: the most general one first, and each behind the one that it is a
case of. -/
def transportKinds : List String :=
  ["TransportError", "TimeoutException", "ConnectTimeout", "ReadTimeout", "WriteTimeout",
    "PoolTimeout", "NetworkError", "ConnectError", "ReadError", "WriteError", "CloseError",
    "ProtocolError", "LocalProtocolError", "RemoteProtocolError", "ProxyError",
    "UnsupportedProtocol"]

namespace Interruption

def isTransport (interruption : Interruption) : Bool :=
  transportKinds.contains interruption.kind.text

def failure (interruption : Interruption) : Failure :=
  .fault (.exchange interruption.kind) interruption.message

end Interruption

structure Response where
  status : Int
  text : String
deriving DecidableEq

namespace Response

def isSuccess (response : Response) : Bool :=
  decide (200 ≤ response.status) && decide (response.status ≤ 299)

/-- The endpoint asks for less or is out of order. -/
def isOverload (response : Response) : Bool :=
  response.status == 429 || decide (500 ≤ response.status)

/-- A mark of the byte order may stand before the text of a body. -/
def bodyText (response : Response) : String :=
  match response.text.toList with
  | '\uFEFF' :: rest => String.ofList rest
  | _ => response.text

def readFailure : Json.ReadFault → Failure
  | .malformed => .fault .malformedJson "malformed JSON"
  | .digitLimit => .invalidValue "too many digits in an integer"

def json (response : Response) : Result Json :=
  (Json.read response.bodyText).mapError readFailure

end Response

inductive Delivery where
  | interrupted (interruption : Interruption)
  | answered (response : Response)
deriving DecidableEq

namespace Exchange

def transientCodes : List Int := [-32005, -32429, 429]

def isTransientCode (code : Json) : Result Bool :=
  if code.isKey then .ok (transientCodes.any fun known => Json.equals (.int known) code)
  else .error (.wrongType s!"unhashable type: '{code.kindName}'")

/-- The error that a body reports. A body without fields has none to look up. -/
def reportedError? : Json → Result (Option Json)
  | .obj fields => .ok (Json.field? "error" fields)
  | .arr items =>
    if items.any fun item => Json.equals (.str "error") item then
      .error (.wrongType "list indices must be integers or slices, not str")
    else .ok none
  | .str text =>
    if isInfix "error".toList text.toList then
      .error (.wrongType "string indices must be integers, not 'str'")
    else .ok none
  | value => .error (.wrongType s!"argument of type '{value.kindName}' is not iterable")

/-- An error that is no object is taken as the message of one. -/
def errorFields : Json → List (String × Json)
  | .obj fields => fields
  | value => [("message", .str value.text)]

def errorText (fields : List (String × Json)) : String :=
  let message := (Json.field? "message" fields).getD (.obj fields)
  let code := (Json.field? "code" fields).getD .null
  "Solana RPC error: " ++ message.text ++ " (code=" ++ code.text ++ ")"

/-- The failure that a reported error stands for. -/
def failureOf (error : Json) : Result Failure := do
  let fields := errorFields error
  let code := (Json.field? "code" fields).getD .null
  if ← isTransientCode code then return .transient (errorText fields) (some 429)
  else return .refused (errorText fields) code

/-- The result in a body, null if it has none. -/
def resultOf (body : Json) : Result Json := do
  match ← reportedError? body with
  | some error => .error (← failureOf error)
  | none => body.demandField "result"

def readResponse (method : String) (response : Response) : Result Json := do
  let text := s!"{method} HTTP {response.status}"
  if response.isOverload then .error (.transient text (some response.status))
  else if !response.isSuccess then .error (.refused text (.int response.status))
  else resultOf (← response.json)

/-- The result of a request. An interruption of the connection may pass. -/
def read (method : String) : Delivery → Result Json
  | .interrupted interruption =>
    if interruption.isTransport then
      .error (.transient (method ++ " transport error: " ++ interruption.message) none)
    else .error interruption.failure
  | .answered response => readResponse method response

end Exchange

end ProgramAudit.Endpoint
