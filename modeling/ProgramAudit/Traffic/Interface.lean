import ProgramAudit.Program.Profile
import ProgramAudit.Traffic.Kind

namespace ProgramAudit.Traffic

/-- A guess at one instruction of a program: its name and the named types of its arguments. -/
structure InterfaceEntry where
  name : String
  arguments : List (String × String)

/-- A guess at the interface of a program, from the transactions that use it. -/
structure Interface where
  name : String := "unknown"
  entries : List InterfaceEntry := []
  computed : Bool := true

namespace Interface

def unnamed : String := "unknown"

/-- The type of an instruction; one without a type or with an empty one is unknown. -/
def typeName (instruction : Ledger.Instruction) : String :=
  (instruction.parsedType.filter (· != "")).getD unnamed

def entryOf (classified : Classified) (index : Nat) : InterfaceEntry :=
  let stem := if classified.kind = .governance then "governanceInstruction" else "instruction"
  { name := s!"{stem}{index}"
    arguments := classified.transaction.instructions.mapIdx fun position instruction =>
      (s!"arg{position}", typeName instruction) }

def defaultCount : Int := 5

/-- The first transactions of a window, each as one instruction. -/
def ofWindow (profile : Option Program.Profile) (count : Int) (window : List Classified) :
    Result Interface :=
  (Option.demand "suspected_type" profile).map fun profile =>
    { name := profile.category.word
      entries := (upTo count window).mapIdx fun index classified => entryOf classified index }

def argumentJson (argument : String × String) : Json :=
  .obj [("name", .str argument.1), ("type", .str argument.2)]

def entryJson (entry : InterfaceEntry) : Json :=
  .obj [
    ("name", .str entry.name),
    ("args", .arr (entry.arguments.map argumentJson)),
    ("returns", .str "void")]

def toJson (interface : Interface) : Json :=
  .obj [
    ("version", .str "0.1.0"),
    ("name", .str interface.name),
    ("instructions", .arr (interface.entries.map entryJson))]

end Interface

end ProgramAudit.Traffic
