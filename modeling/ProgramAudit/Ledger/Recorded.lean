import ProgramAudit.Ledger.Source
import ProgramAudit.Table

namespace ProgramAudit.Ledger

inductive Call where
  | account (address : String)
  | transactions (address : String) (limit : Int)
  | mint (mint : String)
deriving DecidableEq

namespace Call

def method : Call → String
  | .account _ => "get_account"
  | .transactions .. => "get_transactions"
  | .mint _ => "get_token_metadata"

def subject : Call → String
  | .account address => address
  | .transactions address _ => address
  | .mint subject => subject

def text : Call → String
  | .transactions address limit => s!"get_transactions {address} {limit}"
  | call => call.method ++ " " ++ call.subject

end Call

/-- A failure that calls of a method meet, for one address or for all, a number of times. -/
structure PlannedFailure where
  method : String
  subject : Option String
  times : Int
  failure : Failure

def PlannedFailure.meets (call : Call) (planned : PlannedFailure) : Bool :=
  planned.method == call.method && planned.subject.all (· == call.subject)
    && decide (0 < planned.times)

/-- The answers of a source that are known beforehand. -/
structure Recording where
  accounts : Table String (Option Account)
  transactions : Table String (Option (List Transaction))
  mints : Table String Mint
  latency : Table String Number

/-- What has happened to a recorded source: the calls, the last one first, the failures still to
come, and the delays that its callers have slept. -/
structure CallLog where
  calls : List Call
  planned : List PlannedFailure
  delays : List Number

namespace CallLog

/-- Uses up the first planned failure that a call meets. -/
def takeFailure (call : Call) : List PlannedFailure → Option Failure × List PlannedFailure
  | [] => (none, [])
  | planned :: rest =>
    if planned.meets call then
      (some planned.failure, { planned with times := planned.times - 1 } :: rest)
    else
      let (failure, later) := takeFailure call rest
      (failure, planned :: later)

def noteCall (call : Call) (log : CallLog) : CallLog :=
  { log with calls := call :: log.calls }

def noteDelay (delay : Number) (log : CallLog) : CallLog :=
  { log with delays := delay :: log.delays }

def fail (call : Call) (log : CallLog) : Option Failure × CallLog :=
  let (failure, planned) := takeFailure call log.planned
  (failure, { log with planned })

end CallLog

namespace Recording

variable {τ α : Type} [Clock τ]

/-- Answers a call after its latency, unless a failure is planned for it. -/
def answer (recording : Recording) (call : Call) (value : α) : Routine τ CallLog α := do
  Routine.modify (CallLog.noteCall call)
  match Table.get? call.method recording.latency with
  | some delay => Routine.sleep delay
  | none => pure ()
  match ← Routine.step (CallLog.fail call) with
  | some failure => Routine.fail failure
  | none => return value

def account (recording : Recording) (address : String) : Routine τ CallLog (Option Account) :=
  recording.answer (.account address) (Table.get? address recording.accounts).join

def recent (recording : Recording) (address : String) (limit : Int) :
    Option (List Transaction) :=
  ((Table.get? address recording.transactions).getD (some [])).map (List.take limit.toNat)

def mintOf (recording : Recording) (mint : String) : Mint :=
  (Table.get? mint recording.mints).getD (.neutral (some mint))

def source (recording : Recording) : Source τ CallLog where
  account := recording.account
  transactions address limit :=
    recording.answer (.transactions address limit) (recording.recent address limit)
  mint mint := recording.answer (.mint mint) (some (recording.mintOf mint))

def sleep (delay : Number) : Routine τ CallLog Unit := do
  Routine.modify (CallLog.noteDelay delay)
  Routine.sleep delay

end Recording

end ProgramAudit.Ledger
