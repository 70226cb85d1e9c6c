import ProgramAudit.Json.Basic

namespace ProgramAudit.Json

open Text

mutual

/-- The text of a value inside another one: strings stand in quotes. -/
def innerText : Json → String
  | .null => "None"
  | .bool value => if value then "True" else "False"
  | .int value => toString value
  | .real value => Number.realText value
  | .str text => quoted text
  | .arr items => "[" ++ ", ".intercalate (innerTexts items) ++ "]"
  | .obj fields => "\x7b" ++ ", ".intercalate (fieldTexts fields) ++ "\x7d"
termination_by structural value => value

def innerTexts : List Json → List String
  | [] => []
  | item :: rest => innerText item :: innerTexts rest
termination_by structural items => items

def fieldTexts : List (String × Json) → List String
  | [] => []
  | entry :: rest => fieldText entry :: fieldTexts rest
termination_by structural fields => fields

def fieldText : String × Json → String
  | (name, value) => quoted name ++ ": " ++ innerText value
termination_by structural entry => entry

end

def text : Json → String
  | .str text => text
  | value => innerText value

end ProgramAudit.Json
