import ProgramAudit.Json.Field
import ProgramAudit.Ledger.Transaction

/-! Accounts and transactions read back from their written form. -/

namespace ProgramAudit.Ledger

def ParsedInstruction.ofJson? (value : Json) : Option ParsedInstruction :=
  if value.isObject then some ⟨value.textOr "type" "", value.entriesOf "info"⟩ else none

def Instruction.ofJson (value : Json) : Instruction where
  programId := value.textOr "programId" ""
  accounts := value.textsOr "accounts" []
  parsed := ParsedInstruction.ofJson? (value.get "parsed")

def Transaction.ofJson (value : Json) : Transaction where
  signature := (value.get? "signature").getD (.str "sig")
  slot := value.intOr "slot" 1
  blockTime := value.get "blockTime"
  instructions := (value.itemsOf "instructions").map Instruction.ofJson
  volume := value.realOr "volumeSOL" 0.0
  fee := value.realOr "feeSOL" 0.0

/-- The data of a written account are hexadecimal digits. -/
def Account.ofJson (value : Json) : Account where
  lamports := value.intOr "lamports" 0
  owner := value.textOr "owner" ""
  executable := value.boolOr "executable" false
  data := ((value.get "data").string?.bind Bytes.ofHex?).getD []

end ProgramAudit.Ledger
