import ProgramAudit.Journal.Record
import ProgramAudit.Traffic.Kind

namespace ProgramAudit.Traffic

/-- How much an edge counts: an integer, or a truth value, which counts one or nothing. -/
inductive EdgeCount where
  | int (value : Int)
  | truth (value : Bool)
deriving DecidableEq

namespace EdgeCount

def value : EdgeCount → Int
  | .int value => value
  | .truth value => if value then 1 else 0

def toJson : EdgeCount → Json
  | .int value => .int value
  | .truth value => .bool value

end EdgeCount

structure CallEdge where
  source : String
  target : String
  action : String
  weight : EdgeCount := .int 1
deriving DecidableEq

def CallEdge.count (edge : CallEdge) : Int := edge.weight.value

/-- The accounts that instructions connect. Parallel edges are kept, and the nodes stand in the
order of their first appearance. -/
structure CallGraph where
  root : String
  nodes : List String := []
  edges : List CallEdge := []
  computed : Bool := true
deriving DecidableEq

/-- What the graph reads of a transaction: its kind and the accounts of each instruction. In
malformed traffic accounts can be missing, or be no addresses. -/
structure Footprint where
  kind : Kind
  accounts : List (Option (List Json))

namespace Footprint

def ofClassified (classified : Classified) : Footprint :=
  { kind := classified.kind
    accounts := classified.transaction.instructions.map fun instruction =>
      some (instruction.accounts.map .str) }

def noAddresses : Failure := .wrongType "instruction accounts must be addresses"

/-- The edge of an instruction: from its first account to its second. -/
def edge? (kind : Kind) : Option (List Json) → Result (Option CallEdge)
  | none => .error (.wrongType "object of type 'NoneType' has no len()")
  | some (source :: target :: _) =>
    match source, target with
    | .str source, .str target => .ok (some { source, target, action := kind.word })
    | _, _ => .error noAddresses
  | some _ => .ok none

def edges : Option Footprint → Result (List CallEdge)
  | none => .error (.absent "kind")
  | some footprint => do
    return (← footprint.accounts.mapM (edge? footprint.kind)).filterMap id

end Footprint

namespace CallGraph

/-- What is said of traffic that cannot be read. -/
def empty (root : String) : CallGraph := { root, computed := false }

def ends (edge : CallEdge) : List String := [edge.source, edge.target]

def ofEdges (root : String) (edges : List CallEdge) : CallGraph :=
  { root, nodes := distinct (root :: edges.flatMap ends), edges }

def edgesOf (footprints : List (Option Footprint)) : Result (List CallEdge) := do
  return (← footprints.mapM Footprint.edges).flatten

/-- The graph of traffic; one malformed transaction leaves it empty. -/
def ofFootprints (root : String) (footprints : List (Option Footprint)) : CallGraph :=
  match edgesOf footprints with
  | .ok edges => ofEdges root edges
  | .error _ => empty root

def footprintsOf (window : List Classified) : List (Option Footprint) :=
  window.map fun classified => some (Footprint.ofClassified classified)

def ofWindow (root : String) (window : List Classified) : CallGraph :=
  ofFootprints root (footprintsOf window)

def origin : String := "solproof.analysis.call_graph"

def record (root : String) (footprints : List (Option Footprint)) : Journal.Record :=
  match edgesOf footprints with
  | .ok edges =>
    .make .debug origin "call_graph_built" [
      ("program", .str root),
      ("nodes", .int (ofEdges root edges).nodes.length),
      ("edges", .int edges.length)]
  | .error failure =>
    .make .warning origin "call_graph_failed"
      [("program", .str root), ("error", .str failure.text)]

/-- The ends and the kind of an edge, which parallel edges share. -/
structure EdgeKey where
  source : String
  target : String
  action : String
deriving DecidableEq

def keyOf (edge : CallEdge) : EdgeKey := ⟨edge.source, edge.target, edge.action⟩

def addEdge (table : Table EdgeKey Int) (edge : CallEdge) : Table EdgeKey Int :=
  Table.adjust (keyOf edge) (fun count => count.getD 0 + edge.count) table

def ofEntry (entry : EdgeKey × Int) : CallEdge :=
  { source := entry.1.source
    target := entry.1.target
    action := entry.1.action
    weight := .int entry.2 }

/-- Parallel edges become one with the sum of their counts. -/
def summary (graph : CallGraph) : List CallEdge :=
  (graph.edges.foldl addEdge []).map ofEntry

def hasAction (action : String) (graph : CallGraph) : Bool :=
  graph.edges.any fun edge => edge.action == action

/-- The interactions are complex above fifty edges. -/
def complexity (graph : CallGraph) : String :=
  if 50 < graph.edges.length then "High"
  else if 20 < graph.edges.length then "Moderate"
  else "Low"

def edgeJson (edge : CallEdge) : Json :=
  .obj [
    ("from", .str edge.source),
    ("to", .str edge.target),
    ("action", .str edge.action),
    ("count", edge.weight.toJson)]

def toJson (graph : CallGraph) : Json :=
  .obj [
    ("root", .str graph.root),
    ("nodes", Json.strings graph.nodes),
    ("edges", .arr (graph.edges.map edgeJson)),
    ("computed", .bool graph.computed)]

end CallGraph

end ProgramAudit.Traffic
