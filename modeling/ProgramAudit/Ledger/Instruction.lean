import ProgramAudit.Json.Convert

namespace ProgramAudit.Ledger

/-- What an endpoint has read out of an instruction: its type and named values. -/
structure ParsedInstruction where
  type : String
  info : List (String × Json)

/-- An instruction of a transaction. The order of the accounts matters: the first is taken as the
source and the second as the destination. -/
structure Instruction where
  programId : String
  accounts : List String
  parsed : Option ParsedInstruction

namespace Instruction

def parsedType (instruction : Instruction) : Option String :=
  instruction.parsed.map ParsedInstruction.type

def parsedInfo (instruction : Instruction) : List (String × Json) :=
  match instruction.parsed with
  | some parsed => parsed.info
  | none => []

/-- A named value of the instruction, null if there is none. -/
def infoField (name : String) (instruction : Instruction) : Json :=
  (Json.field? name instruction.parsedInfo).getD .null

def keyAt? (keys : List String) (index : Json) : Option String :=
  match index.integer? with
  | some position => if 0 ≤ position then keys[position.toNat]? else none
  | none => none

/-- The program of a payload: its address, or the index of its address among the keys. -/
def programOfPayload (keys : List String) (payload : Json) : Json :=
  if (payload.get "programId").isNull then
    match keyAt? keys (payload.get "programIdIndex") with
    | some key => .str key
    | none => .null
  else payload.get "programId"

/-- The account that an entry stands for: an address stands for itself and an index for a key. -/
def accountAt? (keys : List String) : Json → Option String
  | .str account => some account
  | entry => keyAt? keys entry

def accountsOfPayload (keys : List String) (payload : Json) : Result (List String) :=
  if (payload.get "accounts").isPresent then
    (payload.get "accounts").elements.map fun entries => entries.filterMap (accountAt? keys)
  else .ok []

def parsedOfPayload? (payload : Json) : Option ParsedInstruction :=
  match payload.get "parsed" with
  | .obj fields =>
    let type := (Json.field? "type" fields).getD .null
    if type.isPresent then
      match (Json.field? "info" fields).getD .null with
      | .obj info => some ⟨type.text, info⟩
      | _ => some ⟨type.text, []⟩
    else none
  | _ => none

/-- Reads an instruction of an endpoint, with addresses in place or as indices among the keys. A
payload without a program is none. -/
def ofPayload (keys : List String) (payload : Json) : Result (Option Instruction) :=
  let program := programOfPayload keys payload
  if payload.isObject && program.isPresent then
    (accountsOfPayload keys payload).map fun accounts =>
      some { programId := program.text, accounts, parsed := parsedOfPayload? payload }
  else .ok none

def parsedJson (parsed : ParsedInstruction) : Json :=
  .obj [("type", .str parsed.type), ("info", .obj parsed.info)]

def toJson (instruction : Instruction) : Json :=
  .obj ([("programId", .str instruction.programId), ("accounts", Json.strings instruction.accounts)]
    ++ match instruction.parsed with
      | some parsed => [("parsed", parsedJson parsed)]
      | none => [])

end Instruction

end ProgramAudit.Ledger
