import ProgramAudit.Json.Basic

namespace ProgramAudit.Journal

/-- The weight of a record and the word that names it. -/
structure Level where
  word : String
  rank : Int
deriving DecidableEq

namespace Level

def debug : Level := ⟨"debug", 10⟩
def info : Level := ⟨"info", 20⟩
def warning : Level := ⟨"warning", 30⟩
def error : Level := ⟨"error", 40⟩
def critical : Level := ⟨"critical", 50⟩

end Level

/-- One structured record of an event, with the fields bound to its logger and its own. -/
structure Record where
  level : Level
  fields : List (String × Json)

namespace Record

/-- Adds a field unless the record has one of that name. -/
def setDefault (name : String) (value : Json) (record : Record) : Record :=
  if (Json.field? name record.fields).isSome then record
  else { record with fields := record.fields ++ [(name, value)] }

def set (name : String) (value : Json) (record : Record) : Record :=
  { record with fields := Json.setField name value record.fields }

/-- A record carries its event under the name of its type, unless that name is taken. -/
def nameEvent (event : String) (record : Record) : Record :=
  if (Json.field? "event_type" record.fields).isSome then record.set "event" (.str event)
  else record.set "event_type" (.str event)

/-- A record of a logger: the bound fields, the fields of the event over them, and the event. -/
def ofEvent (level : Level) (bound : List (String × Json)) (event : String)
    (fields : List (String × Json)) : Record :=
  let joined := fields.foldl (fun done entry => Json.setField entry.1 entry.2 done) bound
  (Record.mk level joined).nameEvent event

def make (level : Level) (origin event : String) (fields : List (String × Json)) : Record :=
  ofEvent level [("logger", .str origin)] event fields

/-- Records made while a stage runs carry its name. -/
def inStage (stage : String) (record : Record) : Record :=
  record.setDefault "stage" (.str stage)

/-- The written form: the level over any field of that name, without absent values and times. -/
def toJson (record : Record) : Json :=
  let fields := Json.setField "level" (.str record.level.word) record.fields
  .obj (fields.filter fun entry => !entry.2.isNull && entry.1 != "timestamp")

end Record

end ProgramAudit.Journal
