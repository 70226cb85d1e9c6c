import ProgramAudit.Journal.Record
import ProgramAudit.Environment
import ProgramAudit.Text.Case

namespace ProgramAudit.Journal

namespace Level

/-- The failure of comparing a rank with what is none. -/
def incomparable (kind : String) : Failure :=
  .wrongType s!"'<' not supported between instances of 'int' and '{kind}'"

/-- What the names of levels stand for. Two of them stand for something else: a text and a table. -/
def ranks : Table String (Result Int) := [
  ("NOTSET", .ok 0),
  ("DEBUG", .ok 10),
  ("INFO", .ok 20),
  ("WARN", .ok 30),
  ("WARNING", .ok 30),
  ("ERROR", .ok 40),
  ("FATAL", .ok 50),
  ("CRITICAL", .ok 50),
  ("BASIC_FORMAT", .error (incomparable "str")),
  ("_STYLES", .error (incomparable "dict"))]

/-- The rank of a name; an unknown one ranks as information. Where it is none, every record fails that
is held against it. -/
def rankOf (name : String) : Result Int := (Table.get? name ranks).getD (.ok info.rank)

/-- The level of the records of a method. A method without a level of its own ranks as
information. -/
def ofMethod (method : String) : Level :=
  match method with
  | "debug" => debug
  | "info" => info
  | "warning" => warning
  | "warn" => warning
  | "error" => error
  | "exception" => error
  | "critical" => critical
  | word => ⟨word, info.rank⟩

/-- The name of the level below which nothing is written. -/
def nameIn (environment : Environment) : String :=
  Text.upperCase (Text.strip
    ((environment.first? ["SOLPROOF_LOG_LEVEL", "LOG_LEVEL"]).getD "INFO"))

def thresholdOf (environment : Environment) : Result Int := rankOf (nameIn environment)

end Level

/-- What writes records: the fields that each of them carries. -/
structure Logger where
  bound : List (String × Json)

namespace Logger

def named (name : String) : Logger := ⟨[("logger", .str name)]⟩

/-- A logger whose records carry the program of an audit. -/
def ofProgram (program : String) : Logger :=
  ⟨[("logger", .str "solproof.audit"), ("program", .str program)]⟩

/-- The record of an event, unless its level is below the threshold. -/
def record? (threshold : Result Int) (method event : String) (fields : List (String × Json))
    (logger : Logger) : Result (Option Record) := do
  let least ← threshold
  let level := Level.ofMethod method
  return if least ≤ level.rank then some (.ofEvent level logger.bound event fields) else none

end Logger

end ProgramAudit.Journal
