import ProgramAudit.Failure
import ProgramAudit.Number.Reading
import ProgramAudit.Table
import ProgramAudit.Text.Blank
import ProgramAudit.Text.Quoted

namespace ProgramAudit

abbrev Environment := Table String String

namespace Environment

/-- A variable with an empty value counts as absent. -/
def value? (name : String) (environment : Environment) : Option String :=
  (Table.get? name environment).filter fun value => value != ""

def stripped? (name : String) (environment : Environment) : Option String :=
  ((environment.value? name).map Text.strip).filter fun value => value != ""

def first? (names : List String) (environment : Environment) : Option String :=
  names.findSome? fun name => environment.value? name

def notReadable (name kind value : String) : Failure :=
  .misconfigured (name ++ " must be " ++ kind ++ ", got " ++ Text.quoted value)

def realOr (name : String) (fallback : Float) (environment : Environment) : Result Float :=
  match environment.stripped? name with
  | none => .ok fallback
  | some value =>
    match Number.readReal? value with
    | some number => .ok number
    | none => .error (notReadable name "a number" value)

def integerOr (name : String) (fallback : Int) (environment : Environment) : Result Int :=
  match environment.stripped? name with
  | none => .ok fallback
  | some value =>
    match Number.readInteger? value with
    | some number => .ok number
    | none => .error (notReadable name "an integer" value)

end Environment

end ProgramAudit
