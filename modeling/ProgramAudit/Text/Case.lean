namespace ProgramAudit.Text

/-- Lower case of the ASCII letters; every other letter stays. -/
def lowerCase (text : String) : String :=
  String.ofList (text.toList.map Char.toLower)

/-- The letters beyond ASCII whose upper form is made of ASCII letters. -/
def upperForms : List (Char × List Char) :=
  [('ı', ['I']), ('ſ', ['S']), ('ß', ['S', 'S']), ('ﬀ', ['F', 'F']), ('ﬁ', ['F', 'I']),
    ('ﬂ', ['F', 'L']), ('ﬃ', ['F', 'F', 'I']), ('ﬄ', ['F', 'F', 'L']), ('ﬅ', ['S', 'T']),
    ('ﬆ', ['S', 'T'])]

/-- Upper case of the letters whose upper form is made of ASCII letters. Every other letter stays. -/
def upperForm (c : Char) : List Char :=
  match upperForms.find? fun entry => entry.1 = c with
  | some (_, form) => form
  | none => [c.toUpper]

def upperCase (text : String) : String :=
  String.ofList (text.toList.flatMap upperForm)

end ProgramAudit.Text
