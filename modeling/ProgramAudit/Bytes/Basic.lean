import ProgramAudit.Infix

namespace ProgramAudit

abbrev Bytes := List UInt8

namespace Bytes

/-- The number that bytes denote, the lowest byte first. -/
def littleEndian (bytes : Bytes) : Nat :=
  bytes.foldr (fun byte value => byte.toNat + 256 * value) 0

def contains (marker data : Bytes) : Bool := isInfix marker data

def ofText (text : String) : Bytes :=
  text.toUTF8.toList

end Bytes

end ProgramAudit
