import ProgramAudit.Bytes.Basic

namespace ProgramAudit.Bytes

/-- The two digits of a byte, the high half first. -/
def hexPair (byte : UInt8) : List Char :=
  [Nat.digitChar (byte.toNat / 16), Nat.digitChar (byte.toNat % 16)]

def hexText (bytes : Bytes) : String :=
  String.ofList (bytes.flatMap hexPair)

def hexDigit? (c : Char) : Option Nat :=
  if c.isDigit then some (c.toNat - '0'.toNat)
  else if 'a' ≤ c ∧ c ≤ 'f' then some (c.toNat - 'a'.toNat + 10)
  else if 'A' ≤ c ∧ c ≤ 'F' then some (c.toNat - 'A'.toNat + 10)
  else none

def ofHexDigits? : List Char → Option Bytes
  | [] => some []
  | [_] => none
  | high :: low :: rest =>
    match hexDigit? high, hexDigit? low with
    | some high, some low => (ofHexDigits? rest).map (UInt8.ofNat (16 * high + low) :: ·)
    | _, _ => none

def ofHex? (text : String) : Option Bytes :=
  ofHexDigits? text.toList

end ProgramAudit.Bytes
