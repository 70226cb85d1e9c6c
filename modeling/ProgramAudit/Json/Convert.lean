import ProgramAudit.Failure
import ProgramAudit.Number.Reading

namespace ProgramAudit.Json

/-- The name of the kind of a value in messages. -/
def kindName : Json → String
  | .null => "NoneType"
  | .bool _ => "bool"
  | .int _ => "int"
  | .real _ => "float"
  | .str _ => "str"
  | .arr _ => "list"
  | .obj _ => "dict"

def noNumeral (text : String) : Failure :=
  .invalidValue ("invalid literal for int() with base 10: " ++ Text.quoted text)

/-- Drops the fraction of a double. -/
def wholePart (x : Float) : Result Int :=
  match Number.integerPart? x with
  | some value => .ok value
  | none =>
    if Number.isUndefined x then .error (.invalidValue "cannot convert float NaN to integer")
    else .error (.fault .overflow "cannot convert float infinity to integer")

/-- Reads a value as an integer: numbers without their fraction, strings as decimal numerals. -/
def toInteger : Json → Result Int
  | .bool value => .ok (if value then 1 else 0)
  | .int value => .ok value
  | .real value => wholePart value
  | .str text =>
    match Number.readInteger? text with
    | some value => .ok value
    | none => .error (noNumeral text)
  | value => .error (.wrongType
      s!"int() argument must be a string, a bytes-like object or a real number, not '{value.kindName}'")

def doubleOf (value : Int) : Result Float :=
  match Number.doubleOfInt? value with
  | some x => .ok x
  | none => .error .integerTooLarge

def toDouble : Json → Result Float
  | .bool value => .ok (if value then 1.0 else 0.0)
  | .int value => doubleOf value
  | .real value => .ok value
  | .str text =>
    match Number.readReal? text with
    | some value => .ok value
    | none => .error (.invalidValue ("could not convert string to float: " ++ Text.quoted text))
  | value => .error (.wrongType
      s!"float() argument must be a string or a real number, not '{value.kindName}'")

/-- What a value consists of: the items of a list, the characters of a string, the names of the
fields of an object. -/
def elements : Json → Result (List Json)
  | .arr items => .ok items
  | .str text => .ok (text.toList.map fun c => .str (String.singleton c))
  | .obj fields => .ok (fields.map fun field => .str field.1)
  | value => .error (.wrongType s!"'{value.kindName}' object is not iterable")

/-- The first element of a value that is not empty. -/
def first : Json → Result Json
  | .arr (item :: _) => .ok item
  | .str text =>
    match text.toList with
    | c :: _ => .ok (.str (String.singleton c))
    | [] => .error (.fault .exhausted "")
  | .arr [] => .error (.fault .exhausted "")
  | .obj _ => .error (.missingKey (.int 0))
  | value => .error (.wrongType s!"'{value.kindName}' object is not subscriptable")

/-- Reads the field of an object, null if it is absent; other values have no fields. -/
def demandField (name : String) : Json → Result Json
  | .obj fields => .ok ((field? name fields).getD .null)
  | value => .error (.missingAttribute value.kindName "get")

end ProgramAudit.Json

namespace ProgramAudit

/-- A failure that stands for an unreadable value; others pass through. -/
def Failure.isUnreadable : Failure → Bool
  | .fault .wrongType _ => true
  | .fault .invalidValue _ => true
  | .fault .malformedJson _ => true
  | .fault .malformedBase64 _ => true
  | .invalidInput _ => true
  | _ => false

/-- The value, or a default if it cannot be read. -/
def Result.orIfUnreadable (fallback : α) : Result α → Result α
  | .ok value => .ok value
  | .error failure => if failure.isUnreadable then .ok fallback else .error failure

end ProgramAudit
