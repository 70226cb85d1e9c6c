import ProgramAudit.Ledger.Account
import ProgramAudit.Ledger.Instruction

namespace ProgramAudit.Ledger

/-- A transaction as the endpoint lists it. The volume is how far the balance of the first account
moved; signature and block time are kept as the endpoint gave them. -/
structure Transaction where
  signature : Json
  slot : Int
  blockTime : Json
  instructions : List Instruction
  volume : Float
  fee : Float

namespace Transaction

/-- The distance between the first balances before and after, in SOL; nothing if either cannot be
read. -/
def balanceDelta (before after : Json) : Result Float :=
  if before.isPresent && after.isPresent then
    Result.orIfUnreadable 0.0 do
      let left ← (← before.first).toInteger
      let right ← (← after.first).toInteger
      solOfLamports (left - right).natAbs
  else .ok 0.0

/-- The address of a key entry: an address, or an object that has one. -/
def addressOfKey? (entry : Json) : Option String :=
  match entry with
  | .str address => some address
  | .obj _ => if (entry.get "pubkey").isPresent then some (entry.get "pubkey").text else none
  | _ => none

def elementsOrNone (value : Json) : Result (List Json) :=
  if value.isPresent then value.elements else .ok []

def keysOfMessage (message : Json) : Result (List String) :=
  (elementsOrNone (message.get "accountKeys")).map fun entries => entries.filterMap addressOfKey?

def instructionsOfMessage (keys : List String) (message : Json) : Result (List Instruction) := do
  let entries ← elementsOrNone (message.get "instructions")
  return (← entries.mapM (Instruction.ofPayload keys)).filterMap id

/-- The signature under which a transaction was asked for, else the first one that it lists. -/
def signatureOf (asked : Option Json) (transaction : Json) : Result Json :=
  match asked with
  | some signature => .ok signature
  | none =>
    let listed := transaction.get "signatures"
    if listed.isPresent then listed.first.map fun signature => .str signature.text
    else .ok (.str "")

def feeOf (status : Json) : Result Float :=
  Result.orIfUnreadable 0.0 do
    solOfLamports (← ((status.get "fee").orElse (.int 0)).toInteger)

/-- Reads a transaction of an endpoint; a payload without a message is none. -/
def ofPayload (asked : Option Json) (payload : Json) : Result (Option Transaction) :=
  let transaction := payload.get "transaction"
  let message := transaction.get "message"
  let status := payload.get "meta"
  if message.isObject then do
    let signature ← signatureOf asked transaction
    let keys ← keysOfMessage message
    let instructions ← instructionsOfMessage keys message
    let fee ← feeOf status
    let slot ← ((payload.get "slot").orElse (.int 0)).toInteger
    let volume ← balanceDelta (status.get "preBalances") (status.get "postBalances")
    return some {
      signature, slot, blockTime := payload.get "blockTime", instructions, volume, fee }
  else .ok none

def fields (transaction : Transaction) : List (String × Json) :=
  [("signature", transaction.signature),
    ("slot", .int transaction.slot),
    ("blockTime", transaction.blockTime),
    ("instructions", .arr (transaction.instructions.map Instruction.toJson)),
    ("volumeSOL", .real transaction.volume),
    ("feeSOL", .real transaction.fee)]

def toJson (transaction : Transaction) : Json := .obj transaction.fields

end Transaction

end ProgramAudit.Ledger
