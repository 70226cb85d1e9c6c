import ProgramAudit.Json.Text

namespace ProgramAudit

/-- The name of a class of faults, which is never empty. -/
structure FaultName where
  text : String
  named : text ≠ ""
deriving DecidableEq

def FaultName.ofText? (text : String) : Option FaultName :=
  if h : text = "" then none else some ⟨text, h⟩

/-- What went wrong in a computation that was not meant to fail. -/
inductive Fault where
  | invalidValue
  | wrongType
  | missingKey
  | missingAttribute
  | overflow
  | zeroDivision
  | exhausted
  | timedOut
  | pastClock
  | unexpected
  | malformedJson
  | malformedBase64
  | exchange (name : FaultName)
deriving DecidableEq

/-- The name under which reports and records show a fault. -/
def Fault.name : Fault → String
  | .invalidValue => "ValueError"
  | .wrongType => "TypeError"
  | .missingKey => "KeyError"
  | .missingAttribute => "AttributeError"
  | .overflow => "OverflowError"
  | .zeroDivision => "ZeroDivisionError"
  | .exhausted => "StopIteration"
  | .timedOut => "TimeoutError"
  | .pastClock => "OSError"
  | .unexpected => "RuntimeError"
  | .malformedJson => "JSONDecodeError"
  | .malformedBase64 => "Error"
  | .exchange name => name.text

/-- Why a computation has no value. Input is refused before any request; a transient failure may
pass when the request is repeated; a refusal by the endpoint will not; a configuration failure ends
the program. -/
inductive Failure where
  | invalidInput (message : String)
  | transient (message : String) (status : Option Int)
  | refused (message : String) (code : Json)
  | misconfigured (message : String)
  | fault (kind : Fault) (detail : String)

namespace Failure

def name : Failure → String
  | .invalidInput _ => "InputValidationError"
  | .transient .. => "TransientFetchError"
  | .refused .. => "RpcResponseError"
  | .misconfigured _ => "ConfigurationError"
  | .fault kind _ => kind.name

def text : Failure → String
  | .invalidInput message => message
  | .transient message _ => message
  | .refused message _ => message
  | .misconfigured message => message
  | .fault _ detail => detail

def isTransient : Failure → Bool
  | .transient .. => true
  | _ => false

/-- The text of a missing key is the key as it stands inside a value. -/
def missingKey (key : Json) : Failure := .fault .missingKey key.innerText

def wrongType (detail : String) : Failure := .fault .wrongType detail

def invalidValue (detail : String) : Failure := .fault .invalidValue detail

def integerTooLarge : Failure := .fault .overflow "int too large to convert to float"

def quotientTooLarge : Failure := .fault .overflow "integer division result too large for a float"

def zeroDivision : Failure := .fault .zeroDivision "float division by zero"

def missingAttribute (owner field : String) : Failure :=
  .fault .missingAttribute s!"'{owner}' object has no attribute '{field}'"

/-- The failure of reading a field of an absent value. -/
def absent (field : String) : Failure := missingAttribute "NoneType" field

end Failure

abbrev Result (α : Type) := Except Failure α

/-- The value, or the failure of reading one of its fields. -/
def Option.demand (field : String) : Option α → Result α
  | some value => .ok value
  | none => .error (.absent field)

end ProgramAudit
