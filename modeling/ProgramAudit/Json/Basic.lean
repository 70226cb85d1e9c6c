import ProgramAudit.Number.Basic
import ProgramAudit.Text.Quoted

namespace ProgramAudit

/-- A JSON value. Integers and doubles are told apart, and the fields of an object keep their order. -/
inductive Json where
  | null
  | bool (value : Bool)
  | int (value : Int)
  | real (value : Float)
  | str (value : String)
  | arr (items : List Json)
  | obj (fields : List (String × Json))
deriving Inhabited

namespace Json

def ofNumber : Number → Json
  | .int value => .int value
  | .real value => .real value

def ofOption (encode : α → Json) : Option α → Json
  | none => .null
  | some value => encode value

def strings (texts : List String) : Json :=
  .arr (texts.map .str)

def field? (name : String) : List (String × Json) → Option Json
  | [] => none
  | (key, value) :: rest => if key = name then some value else field? name rest

/-- Sets a field: a field of that name keeps its place, a new one comes last. -/
def setField (name : String) (value : Json) : List (String × Json) → List (String × Json)
  | [] => [(name, value)]
  | (key, old) :: rest =>
    if key = name then (key, value) :: rest else (key, old) :: setField name value rest

/-- The field of an object; other values have no fields. -/
def get? (name : String) : Json → Option Json
  | .obj fields => field? name fields
  | _ => none

/-- The field of an object, null if it is absent. -/
def get (name : String) (value : Json) : Json :=
  (value.get? name).getD .null

def isNull : Json → Bool
  | .null => true
  | _ => false

def isObject : Json → Bool
  | .obj _ => true
  | _ => false

def string? : Json → Option String
  | .str text => some text
  | _ => none

/-- Null, false, zeros and everything empty count as absent. -/
def isPresent : Json → Bool
  | .null => false
  | .bool value => value
  | .int value => value != 0
  | .real value => !(value == 0.0)
  | .str text => text != ""
  | .arr items => !items.isEmpty
  | .obj fields => !fields.isEmpty

/-- The value itself if it counts as present. -/
def orElse (value fallback : Json) : Json :=
  if value.isPresent then value else fallback

/-- Booleans count as the integers zero and one. -/
def number? : Json → Option Number
  | .bool value => some (.int (if value then 1 else 0))
  | .int value => some (.int value)
  | .real value => some (.real value)
  | _ => none

def integer? : Json → Option Int
  | .bool value => some (if value then 1 else 0)
  | .int value => some value
  | _ => none

/-- Lists and objects cannot be used as keys. -/
def isKey : Json → Bool
  | .arr _ => false
  | .obj _ => false
  | _ => true

def equalsNumber (number : Number) (other : Json) : Bool :=
  match other.number? with
  | some right => number.same right
  | none => false

mutual

/-- Equality of values: numbers by their exact value, booleans as numbers, objects without regard
to the order of their fields. -/
def equals : Json → Json → Bool
  | .null, other => other.isNull
  | .bool value, other => equalsNumber (.int (if value then 1 else 0)) other
  | .int value, other => equalsNumber (.int value) other
  | .real value, other => equalsNumber (.real value) other
  | .str text, .str other => text == other
  | .arr items, .arr others => equalsAll items others
  | .obj fields, .obj others => fields.length == others.length && equalsFields fields others
  | _, _ => false
termination_by structural value => value

def equalsAll : List Json → List Json → Bool
  | [], [] => true
  | item :: rest, other :: others => equals item other && equalsAll rest others
  | _, _ => false
termination_by structural items => items

def equalsFields : List (String × Json) → List (String × Json) → Bool
  | [], _ => true
  | entry :: rest, others => equalsField entry others && equalsFields rest others
termination_by structural fields => fields

def equalsField : String × Json → List (String × Json) → Bool
  | (name, value), others =>
    match field? name others with
    | some other => equals value other
    | none => false
termination_by structural entry => entry

end

instance : BEq Json := ⟨equals⟩

/-- It stands for no number. -/
def isUndefined : Json → Bool
  | .real x => Number.isUndefined x
  | _ => false

/-- Two values are one key: equal ones, and any that stand for no number, although these equal
nothing. -/
def sameKey (left right : Json) : Bool :=
  left == right || left.isUndefined && right.isUndefined

end Json

end ProgramAudit
