import ProgramAudit.Endpoint.Client
import ProgramAudit.Endpoint.Price
import ProgramAudit.Json.Field
import ProgramAudit.Json.Writer
import ProgramAudit.Table

/-! An endpoint whose replies are known beforehand. -/

namespace ProgramAudit.Endpoint

inductive Reply where
  | interruption (interruption : Interruption)
  | text (text : String)
  | body (value : Json)
  | error (value : Json)
  | result (value : Json)

/-- A reply and how long it takes. -/
structure PlannedReply where
  latency : Option Number := none
  status : Int := 200
  reply : Reply := .result .null

namespace PlannedReply

def envelope (number : Json) (name : String) (value : Json) : Json :=
  .obj [("jsonrpc", .str "2.0"), ("id", number), (name, value)]

def delivery (number : Json) (planned : PlannedReply) : Delivery :=
  let answered := fun text => Delivery.answered ⟨planned.status, text⟩
  match planned.reply with
  | .interruption interruption => .interrupted interruption
  | .text text => answered text
  | .body value => answered value.render
  | .error value => answered (envelope number "error" value).render
  | .result value => answered (envelope number "result" value).render

def replyOfJson (value : Json) : Reply :=
  let kind := (value.get? "raise").bind fun kind => FaultName.ofText? kind.text
  match kind, value.get? "text", value.get? "body", value.get? "error" with
  | some kind, _, _, _ => .interruption ⟨kind, value.textOr "message" ""⟩
  | _, some text, _, _ => .text text.text
  | _, _, some body, _ => .body body
  | _, _, _, some error => .error error
  | _, _, _, _ => .result (value.get "result")

def ofJson (value : Json) : PlannedReply where
  latency := (value.get "latency").number?
  status := value.intOr "status" 200
  reply := replyOfJson value

end PlannedReply

/-- The replies to requests of each method about each subject, one after the other, and those to
requests for the price. The last one of a list is repeated. -/
structure Script where
  replies : Table String (Table String (List PlannedReply)) := []
  prices : List PlannedReply := []

structure Posting (τ : Type) where
  moment : τ
  number : Int
  request : Request

/-- What an endpoint has seen, the last request first. -/
structure Traced (τ : Type) where
  postings : List (Posting τ) := []
  lookUps : List (τ × PriceRequest) := []

namespace Traced

def count (trace : Traced τ) : Nat := trace.postings.length + trace.lookUps.length

def times (request : Request) (trace : Traced τ) : Nat :=
  (trace.postings.filter fun posting =>
    posting.request.method == request.method
      && decide (posting.request.subject = request.subject)).length

end Traced

namespace Script

variable {τ σ : Type} [Clock τ]

def anySubject : String := "*"

def nth (position : Nat) (replies : List PlannedReply) : PlannedReply :=
  ((replies[position]?).or replies.getLast?).getD {}

def repliesTo (request : Request) (script : Script) : List PlannedReply :=
  match Table.get? request.method script.replies with
  | none => []
  | some bySubject =>
    ((request.subject.string?.bind fun subject => Table.get? subject bySubject).or
      (Table.get? anySubject bySubject)).getD []

def deliver (number : Json) (planned : PlannedReply) : Routine τ σ Delivery := do
  match planned.latency with
  | some delay => Routine.sleep delay
  | none => pure ()
  return planned.delivery number

def post (script : Script) (part : Part σ (Traced τ)) (number : Int) (request : Request) :
    Routine τ σ Delivery := do
  let moment ← Routine.now
  let earlier ← part.step fun trace =>
    (trace.times request, { trace with postings := ⟨moment, number, request⟩ :: trace.postings })
  deliver (.int number) (nth earlier (script.repliesTo request))

def get (script : Script) (part : Part σ (Traced τ)) (request : PriceRequest) :
    Routine τ σ Delivery := do
  let moment ← Routine.now
  let earlier ← part.step fun trace =>
    (trace.lookUps.length, { trace with lookUps := (moment, request) :: trace.lookUps })
  deliver .null (nth earlier script.prices)

def ofJson (replies prices : Json) : Script where
  replies := replies.entries.map fun (method, bySubject) =>
    (method, bySubject.entries.map fun (subject, planned) =>
      (subject, planned.items.map PlannedReply.ofJson))
  prices := prices.items.map PlannedReply.ofJson

end Script

end ProgramAudit.Endpoint
