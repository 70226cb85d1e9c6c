import ProgramAudit.Json.Basic

namespace ProgramAudit.Json

open Text

def unitEscape (code : Nat) : List Char :=
  '\\' :: 'u' :: hexPadded 4 code

/-- Only printable ASCII is written as it is; code points past the first plane take two units. -/
def escapeText (c : Char) : List Char :=
  if c = '"' ∨ c = '\\' then ['\\', c]
  else if c = '\n' then ['\\', 'n']
  else if c = '\r' then ['\\', 'r']
  else if c = '\t' then ['\\', 't']
  else if c = '\x08' then ['\\', 'b']
  else if c = '\x0c' then ['\\', 'f']
  else if 0x20 ≤ c.toNat ∧ c.toNat < 0x7f then [c]
  else if c.toNat < 0x10000 then unitEscape c.toNat
  else
    let offset := c.toNat - 0x10000
    unitEscape (0xd800 + offset / 0x400) ++ unitEscape (0xdc00 + offset % 0x400)

def writeString (text : String) : String :=
  String.ofList ('"' :: text.toList.flatMap escapeText ++ ['"'])

def writeReal (x : Float) : String :=
  if Number.isFinite x then Number.realText x
  else if Number.isUndefined x then "NaN"
  else if x < 0.0 then "-Infinity"
  else "Infinity"

/-- The layout of lists and objects: the text before each item at a depth, the text between items
and the text after a field name. -/
structure Layout where
  opening : Nat → String
  separator : Nat → String
  closing : Nat → String
  colon : String

def Layout.line : Layout where
  opening _ := ""
  separator _ := ", "
  closing _ := ""
  colon := ": "

def indentation (width depth : Nat) : String :=
  "\n" ++ String.ofList (List.replicate (width * depth) ' ')

def Layout.indented (width : Nat) : Layout where
  opening depth := indentation width (depth + 1)
  separator depth := "," ++ indentation width (depth + 1)
  closing depth := indentation width depth
  colon := ": "

def Layout.group (layout : Layout) (depth : Nat) (left right : String) (parts : List String) :
    String :=
  if parts.isEmpty then left ++ right
  else
    left ++ layout.opening depth ++ (layout.separator depth).intercalate parts ++
      layout.closing depth ++ right

mutual

def write (layout : Layout) (depth : Nat) : Json → String
  | .null => "null"
  | .bool value => if value then "true" else "false"
  | .int value => toString value
  | .real value => writeReal value
  | .str text => writeString text
  | .arr items => layout.group depth "[" "]" (writeAll layout (depth + 1) items)
  | .obj fields => layout.group depth "\x7b" "\x7d" (writeFields layout (depth + 1) fields)
termination_by structural value => value

def writeAll (layout : Layout) (depth : Nat) : List Json → List String
  | [] => []
  | item :: rest => write layout depth item :: writeAll layout depth rest
termination_by structural items => items

def writeFields (layout : Layout) (depth : Nat) : List (String × Json) → List String
  | [] => []
  | entry :: rest => writeField layout depth entry :: writeFields layout depth rest
termination_by structural fields => fields

def writeField (layout : Layout) (depth : Nat) : String × Json → String
  | (name, value) => writeString name ++ layout.colon ++ write layout depth value
termination_by structural entry => entry

end

def render (value : Json) : String :=
  write .line 0 value

def renderIndented (value : Json) : String :=
  write (.indented 2) 0 value

end ProgramAudit.Json
