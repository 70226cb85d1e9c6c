namespace ProgramAudit.Text

/-- The code points that separate words, as inclusive ranges: separators of the space category and
the controls with a spacing direction. -/
def blankRanges : List (Nat × Nat) :=
  [(0x9, 0xd), (0x1c, 0x20), (0x85, 0x85), (0xa0, 0xa0), (0x1680, 0x1680), (0x2000, 0x200a),
    (0x2028, 0x2029), (0x202f, 0x202f), (0x205f, 0x205f), (0x3000, 0x3000)]

def isBlank (c : Char) : Bool :=
  blankRanges.any fun range => range.1 ≤ c.toNat && c.toNat ≤ range.2

/-- Takes what is blank away at both ends. -/
def trimWhere (blank : Char → Bool) (text : List Char) : List Char :=
  ((text.dropWhile blank).reverse.dropWhile blank).reverse

def trim (text : List Char) : List Char :=
  trimWhere isBlank text

def strip (text : String) : String :=
  String.ofList (trim text.toList)

end ProgramAudit.Text
