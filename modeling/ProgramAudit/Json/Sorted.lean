import ProgramAudit.Json.Writer

/-! Texts of values that do not depend on the order of fields. -/

namespace ProgramAudit.Json

/-- Puts a field in front of the first one whose name does not come before its own. -/
def insertField (entry : String × Json) : List (String × Json) → List (String × Json)
  | [] => [entry]
  | first :: rest =>
    if entry.1 ≤ first.1 then entry :: first :: rest else first :: insertField entry rest

/-- Fields in the order of the code points of their names. -/
def sortFields (fields : List (String × Json)) : List (String × Json) :=
  fields.foldr insertField []

mutual

/-- The value with the fields of each of its objects in order. -/
def sorted : Json → Json
  | .arr items => .arr (sortedAll items)
  | .obj fields => .obj (sortFields (sortedFields fields))
  | value => value
termination_by structural value => value

def sortedAll : List Json → List Json
  | [] => []
  | item :: rest => sorted item :: sortedAll rest
termination_by structural items => items

def sortedFields : List (String × Json) → List (String × Json)
  | [] => []
  | entry :: rest => sortedField entry :: sortedFields rest
termination_by structural fields => fields

def sortedField : String × Json → String × Json
  | (name, value) => (name, sorted value)
termination_by structural entry => entry

end

def sortedText (value : Json) : String := value.sorted.render

end ProgramAudit.Json
