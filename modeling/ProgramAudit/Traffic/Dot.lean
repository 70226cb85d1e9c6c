import ProgramAudit.Number.Reading
import ProgramAudit.Traffic.CallGraph

namespace ProgramAudit.Traffic.Dot

/-- A text in double quotes, with quotes and backslashes escaped. -/
def escape : List Char → List Char
  | [] => []
  | c :: rest => if c = '"' ∨ c = '\\' then '\\' :: c :: escape rest else c :: escape rest

def quote (text : String) : List Char :=
  '"' :: escape text.toList ++ ['"']

def overlong : Failure :=
  .invalidValue s!"Exceeds the limit ({Number.integerDigitLimit} digits) for integer string conversion; use sys.set_int_max_str_digits() to increase the limit"

/-- A count in writing; an integer with more digits than the limit cannot be written. -/
def countText : EdgeCount → Result String
  | .int value =>
    if (Nat.toDigits 10 value.natAbs).length ≤ Number.integerDigitLimit then .ok (toString value)
    else .error overlong
  | .truth value => .ok (Json.bool value).text

def label (edge : CallEdge) : Result String :=
  (countText edge.weight).map fun count => s!"{edge.action} ({count})"

/-- The statement of an edge under its label. -/
def arrow (edge : CallEdge) (label : String) : List Char :=
  "  ".toList ++ quote edge.source ++ " -> ".toList ++ quote edge.target ++ " [label=".toList
    ++ quote label ++ "];\n".toList

def statement (edge : CallEdge) : Result (List Char) := (label edge).map (arrow edge)

/-- A call graph in the digraph language, one statement per edge. -/
def render (graph : CallGraph) : Result String :=
  (graph.edges.mapM statement).map fun statements =>
    String.ofList ("digraph \x7b\n".toList ++ statements.flatten ++ "\x7d\n".toList)

end ProgramAudit.Traffic.Dot
