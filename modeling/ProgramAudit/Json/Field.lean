import ProgramAudit.Json.Basic

/-!
Fields of stored objects. A field that is absent, or of another kind than expected, has its default.
-/

namespace ProgramAudit.Json

def textOr (name fallback : String) (value : Json) : String :=
  ((value.get? name).bind string?).getD fallback

def numberOr (name : String) (fallback : Number) (value : Json) : Number :=
  ((value.get? name).bind number?).getD fallback

def intOr (name : String) (fallback : Int) (value : Json) : Int :=
  ((value.get? name).bind integer?).getD fallback

def realOr (name : String) (fallback : Float) (value : Json) : Float :=
  ((value.get? name).bind number?).elim fallback Number.toReal

def boolOr (name : String) (fallback : Bool) (value : Json) : Bool :=
  match value.get? name with
  | some (.bool value) => value
  | _ => fallback

/-- The items of a list; other values have none. -/
def items : Json → List Json
  | .arr items => items
  | _ => []

/-- The fields of an object; other values have none. -/
def entries : Json → List (String × Json)
  | .obj fields => fields
  | _ => []

def itemsOf (name : String) (value : Json) : List Json := (value.get name).items

def entriesOf (name : String) (value : Json) : List (String × Json) := (value.get name).entries

def textsOr (name : String) (fallback : List String) (value : Json) : List String :=
  match value.get? name with
  | some (.arr items) => items.filterMap string?
  | _ => fallback

/-- A part that is an empty object if it is absent, and missing if it is null. -/
def part? (name : String) (value : Json) : Option Json :=
  match value.get? name with
  | none => some (.obj [])
  | some .null => none
  | some part => some part

/-- A list that is empty if it is absent, and missing if it is null. -/
def items? (name : String) (value : Json) : Option (List Json) :=
  match value.get? name with
  | some .null => none
  | some part => some part.items
  | none => some []

def texts? (name : String) (value : Json) : Option (List String) :=
  (value.items? name).map fun items => items.filterMap string?

end ProgramAudit.Json
