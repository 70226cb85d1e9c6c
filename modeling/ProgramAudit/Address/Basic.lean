import ProgramAudit.Address.Base58
import ProgramAudit.Failure
import ProgramAudit.Text.Blank

namespace ProgramAudit.Address

def keyLength : Nat := 32

def longestText : Nat := 44

def ofKey (key : Bytes) : String :=
  String.ofList (Base58.encode key)

/-- The key of an address without surrounding blanks. -/
def key? (text : String) : Option Bytes :=
  if longestText < text.utf8ByteSize then none
  else (Base58.decode? text.toList).filter fun key => key.length == keyLength

def isValid (text : String) : Bool :=
  (key? (Text.strip text)).isSome

/-- The stripped address, if the given value is one. -/
def ofValue? : Json → Option String
  | .str text => if isValid text then some (Text.strip text) else none
  | _ => none

def invalid (given : Json) : Failure :=
  .invalidInput ("Invalid program address: " ++ (given.orElse (.str "missing")).text)

def validate (given : Json) : Result String :=
  match ofValue? given with
  | some address => .ok address
  | none => .error (invalid given)

/-- The addresses among candidates, each once, in the order in which they first appear. -/
def distinct (candidates : List (Option String)) : List String :=
  candidates.foldl (fun found candidate =>
    match candidate with
    | some text =>
      if isValid text && !found.contains (Text.strip text) then found ++ [Text.strip text]
      else found
    | none => found) []

end ProgramAudit.Address
