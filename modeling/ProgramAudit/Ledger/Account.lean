import ProgramAudit.Bytes.Base64
import ProgramAudit.Bytes.Hex
import ProgramAudit.Json.Convert

namespace ProgramAudit.Ledger

def lamportsPerSol : Int := 1000000000

def solOfLamports (lamports : Int) : Result Float :=
  match Number.quotient? lamports lamportsPerSol with
  | some amount => .ok amount
  | none => .error .quotientTooLarge

structure Account where
  lamports : Int
  owner : String
  executable : Bool
  data : Bytes

namespace Account

def balance (account : Account) : Result Float := solOfLamports account.lamports

def base64Failure : Bytes.Base64.Defect → Failure
  | .lone length => .fault .malformedBase64
      s!"Invalid base64-encoded string: number of data characters ({length}) cannot be 1 more than a multiple of 4"
  | .unpadded => .fault .malformedBase64 "Incorrect padding"

/-- The bytes of an encoded payload: ASCII text in base 64. -/
def decodeData : Json → Result Bytes
  | .str text =>
    if text.toList.all fun c => c.toNat < 128 then
      (Bytes.Base64.decode text.toList).mapError base64Failure
    else .error (.invalidValue "string argument should contain only ASCII characters")
  | value => .error (.wrongType
      s!"argument should be a bytes-like object or ASCII string, not '{value.kindName}'")

/-- The data of a payload: an encoded text, alone or before the name of its encoding. Anything else
is no data. -/
def dataOfPayload (data : Json) : Result Bytes :=
  match data with
  | .arr (encoded :: _) => if encoded.isPresent then decodeData encoded else .ok []
  | .str text => if text.isEmpty then .ok [] else decodeData data
  | _ => .ok []

def ofPayload (payload : Json) : Result Account := do
  let data ← dataOfPayload (← payload.demandField "data")
  let lamports ← ((payload.get "lamports").orElse (.int 0)).toInteger
  return {
    lamports
    owner := ((payload.get "owner").orElse (.str "")).text
    executable := (payload.get "executable").isPresent
    data }

def toJson (account : Account) : Result Json := do
  return .obj [
    ("lamports", .int account.lamports),
    ("owner", .str account.owner),
    ("executable", .bool account.executable),
    ("data", .str (Bytes.hexText account.data)),
    ("balanceSOL", .real (← account.balance))]

end Account

end ProgramAudit.Ledger
