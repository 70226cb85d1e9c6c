import Mathlib.Data.List.TakeWhile
import ProgramAudit.Proofs.Failure
import ProgramAudit.Proofs.Json.RoundTrip
import ProgramAudit.Traffic.Dot

/-!
Reading a digraph back. A reader takes the text apart into words and quoted texts, looks for statements
among them, and reads the action and the count out of each label. It finds the edges of the graph that was
written, whatever texts they are made of, so a text says which edges it was made of. Only a graph with a
count of too many digits cannot be written at all.
-/

namespace ProgramAudit.Traffic

namespace EdgeCount

/-- It can be written: an integer is within the limit of digits. -/
def Short : EdgeCount → Prop
  | .int value => (Nat.toDigits 10 value.natAbs).length ≤ Number.integerDigitLimit
  | .truth _ => True

instance : DecidablePred Short
  | .int _ => inferInstanceAs (Decidable (_ ≤ Number.integerDigitLimit))
  | .truth _ => inferInstanceAs (Decidable True)

/-- How it is written: an integer in digits, a truth value as a word. -/
def word : EdgeCount → String
  | .int value => toString value
  | .truth value => (Json.bool value).text

end EdgeCount

namespace Dot

open Number Text

/-! ### Texts in quotes -/

/-- A text with a backslash before each occurrence of a mark. -/
def guarded (mark : Char) (text : List Char) : List Char :=
  text.flatMap fun c => if c = mark then ['\\', c] else [c]

theorem guarded_cons (mark c : Char) (text : List Char) : guarded mark (c :: text) =
    (if c = mark then ['\\', c] else [c]) ++ guarded mark text := rfl

/-- Backslashes go first: behind the quotes they would double the ones that guard the quotes. -/
theorem escape_eq_guarded (text : List Char) : escape text = guarded '"' (guarded '\\' text) := by
  induction text with
  | nil => rfl
  | cons c text ih =>
      by_cases hslash : c = '\\'
      · subst hslash
        simp [escape, guarded_cons, ih]
      · by_cases hquote : c = '"'
        · subst hquote
          simp [escape, guarded_cons, ih]
        · simp [escape, guarded_cons, hslash, hquote, ih]

/-- What the text of a digraph is made of: words between blanks, and texts in quotes. -/
inductive Token where
  | word (text : List Char)
  | quoted (text : List Char)

/-- Where a reader is: outside of quotes behind the beginning of a word, or in quotes behind the
beginning of a text. -/
inductive Place where
  | outside (word : List Char)
  | inside (text : List Char)

/-- Blanks that follow one another have no word between them. -/
def ended : List Char → List Token
  | [] => []
  | word => [.word word]

/-- A quote opens a text and the next one closes it, but a backslash takes the character behind it as it
is. A text that is never closed cannot be read. -/
def scan : Place → List Char → Option (List Token)
  | .outside word, [] => some (ended word)
  | .inside _, [] => none
  | .outside word, '\\' :: c :: rest => scan (.outside (word ++ ['\\', c])) rest
  | .inside text, '\\' :: c :: rest => scan (.inside (text ++ [c])) rest
  | .outside word, '"' :: rest => (scan (.inside []) rest).map (ended word ++ ·)
  | .inside text, '"' :: rest => (scan (.outside []) rest).map (.quoted text :: ·)
  | .outside word, c :: rest =>
    if c.isWhitespace then (scan (.outside []) rest).map (ended word ++ ·)
    else scan (.outside (word ++ [c])) rest
  | .inside text, c :: rest => scan (.inside (text ++ [c])) rest

/-- By induction over the text: one step for each character of it, escaped or not. -/
theorem scan_escape (read text rest : List Char) :
    scan (.inside read) (escape text ++ '"' :: rest) =
      (scan (.outside []) rest).map (.quoted (read ++ text) :: ·) := by
  induction text generalizing read with
  | nil => simp [escape, scan]
  | cons c text ih =>
      have hstep : scan (.inside read) (escape (c :: text) ++ '"' :: rest) =
          scan (.inside (read ++ [c])) (escape text ++ '"' :: rest) := by
        by_cases hguard : c = '"' ∨ c = '\\'
        · rw [escape, if_pos hguard]
          rfl
        · rw [escape, if_neg hguard]
          rw [not_or] at hguard
          simp [scan, hguard]
      rw [hstep, ih, List.append_assoc]
      rfl

/-! ### Statements -/

/-- An arrow from one node to another, with a label. -/
structure Statement where
  source : String
  target : String
  label : String

namespace Statement

def ofEdge (edge : CallEdge) : Statement :=
  ⟨edge.source, edge.target, s!"{edge.action} ({edge.weight.word})"⟩

def tokens (statement : Statement) : List Token :=
  [.quoted statement.source.toList, .word ['-', '>'], .quoted statement.target.toList,
    .word ['[', 'l', 'a', 'b', 'e', 'l', '='], .quoted statement.label.toList, .word [']', ';']]

end Statement

/-- The statements up to the closing brace, with nothing between or behind them. -/
def statements? : List Token → Option (List Statement)
  | [.word ['\x7d']] => some []
  | .quoted source :: .word ['-', '>'] :: .quoted target
      :: .word ['[', 'l', 'a', 'b', 'e', 'l', '='] :: .quoted label :: .word [']', ';'] :: rest =>
    (statements? rest).map (⟨.ofList source, .ofList target, .ofList label⟩ :: ·)
  | _ => none

def digraph? : List Token → Option (List Statement)
  | .word ['d', 'i', 'g', 'r', 'a', 'p', 'h'] :: .word ['\x7b'] :: rest => statements? rest
  | _ => none

def read? (text : String) : Option (List Statement) :=
  (scan (.outside []) text.toList).bind digraph?

theorem scan_arrow (edge : CallEdge) (label : String) (rest : List Char) :
    scan (.outside []) (arrow edge label ++ rest) =
      (scan (.outside []) rest).map
        ((⟨edge.source, edge.target, label⟩ : Statement).tokens ++ ·) := by
  simp [arrow, quote, scan, scan_escape, ended, Statement.tokens, Char.isWhitespace,
    Function.comp_def]

/-- The text of an edge that can be written. -/
def written (edge : CallEdge) : List Char := arrow edge (Statement.ofEdge edge).label

theorem scan_written (edges : List CallEdge) :
    scan (.outside []) (edges.flatMap written ++ "\x7d\n".toList) =
      some ((edges.map Statement.ofEdge).flatMap Statement.tokens ++ [.word ['\x7d']]) := by
  induction edges with
  | nil => rfl
  | cons edge edges ih =>
      rw [List.flatMap_cons, List.append_assoc, written, scan_arrow, ih, Option.map_some,
        List.map_cons, List.flatMap_cons, List.append_assoc]
      rfl

theorem statements?_tokens (statements : List Statement) :
    statements? (statements.flatMap Statement.tokens ++ [.word ['\x7d']]) = some statements := by
  induction statements with
  | nil => rfl
  | cons statement statements ih =>
      obtain ⟨source, target, label⟩ := statement
      simp [Statement.tokens, statements?, ih]

/-- The text of edges that can be written. -/
def digraph (edges : List CallEdge) : String :=
  String.ofList ("digraph \x7b\n".toList ++ edges.flatMap written ++ "\x7d\n".toList)

theorem scan_digraph (edges : List CallEdge) : scan (.outside []) (digraph edges).toList =
    some (.word ['d', 'i', 'g', 'r', 'a', 'p', 'h'] :: .word ['\x7b'] ::
      ((edges.map Statement.ofEdge).flatMap Statement.tokens ++ [.word ['\x7d']])) := by
  have hhead (rest : List Char) : scan (.outside []) ("digraph \x7b\n".toList ++ rest) =
      (scan (.outside []) rest).map
        ([.word ['d', 'i', 'g', 'r', 'a', 'p', 'h'], .word ['\x7b']] ++ ·) := by
    simp [scan, ended, Char.isWhitespace, Function.comp_def]
  have htext : (digraph edges).toList =
      "digraph \x7b\n".toList ++ (edges.flatMap written ++ "\x7d\n".toList) :=
    String.toList_ofList.trans (List.append_assoc _ _ _)
  rw [htext, hhead, scan_written, Option.map_some, List.cons_append, List.singleton_append]

theorem read?_digraph (edges : List CallEdge) :
    read? (digraph edges) = some (edges.map Statement.ofEdge) := by
  rw [read?, scan_digraph]
  exact statements?_tokens _

/-! ### Labels -/

/-- The integer that decimal digits stand for, with or without a minus. -/
def amount : List Char → Int
  | '-' :: digits => -digitsValue (digitsOf digits)
  | digits => digitsValue (digitsOf digits)

/-- The action of a label, and the numeral in the parentheses at its end. The numeral has no parenthesis
of its own, so the last one that opens is the right one. -/
def parts? (label : List Char) : Option (List Char × List Char) :=
  match label.reverse with
  | ')' :: rest =>
    match rest.dropWhile (· != '(') with
    | '(' :: ' ' :: action => some (action.reverse, (rest.takeWhile (· != '(')).reverse)
    | _ => none
  | _ => none

/-- A count that is no word is an integer. -/
def weightOf (text : List Char) : EdgeCount :=
  if text = ['T', 'r', 'u', 'e'] then .truth true
  else if text = ['F', 'a', 'l', 's', 'e'] then .truth false
  else .int (amount text)

def Statement.edge? (statement : Statement) : Option CallEdge :=
  (parts? statement.label.toList).map fun (action, text) =>
    { source := statement.source
      target := statement.target
      action := .ofList action
      weight := weightOf text }

theorem amount_signed (value : Int) : amount (Json.signed value) = value := by
  cases value with
  | ofNat n =>
      obtain ⟨digit, more, hmore, hlow, -⟩ := Json.exists_toDigits_cons n
      have hsign : ∀ rest, Nat.toDigits 10 n ≠ '-' :: rest := by
        intro rest hrest
        rw [hmore, List.cons.injEq] at hrest
        simp at hrest
      unfold amount Json.signed
      split
      · exact absurd ‹_› (hsign _)
      · exact congrArg Int.ofNat (Json.digitsValue_toDigits n)
  | negSucc n =>
      rw [Json.signed, amount, Json.digitsValue_toDigits, Int.negSucc_eq]
      rfl

theorem not_mem_signed {mark : Char} (h : mark ≠ '-' ∧ mark.isDigit = false) (value : Int) :
    mark ∉ Json.signed value := by
  have hdigits (n : Nat) : mark ∉ Nat.toDigits 10 n := by
    intro hmem
    have hdigit := Nat.isDigit_of_mem_toDigits (by decide) (by decide) hmem
    rw [h.2] at hdigit
    cases hdigit
  cases value with
  | ofNat n => exact hdigits n
  | negSucc n =>
      intro hmem
      rcases List.mem_cons.mp hmem with hsign | hmem
      · exact h.1 hsign
      · exact hdigits _ hmem

theorem toList_word (value : Int) : (EdgeCount.int value).word.toList = Json.signed value :=
  Json.toList_toString value

theorem not_mem_word (weight : EdgeCount) : '(' ∉ weight.word.toList := by
  match weight with
  | .int value =>
      rw [toList_word]
      exact not_mem_signed (by decide) value
  | .truth true => decide
  | .truth false => decide

theorem weightOf_word (weight : EdgeCount) : weightOf weight.word.toList = weight := by
  match weight with
  | .int value =>
      have hword {c : Char} {rest : List Char} (h : c ≠ '-' ∧ c.isDigit = false) :
          Json.signed value ≠ c :: rest := fun heq =>
        not_mem_signed h value (heq ▸ List.mem_cons_self)
      rw [toList_word, weightOf, if_neg (hword ⟨by decide, rfl⟩), if_neg (hword ⟨by decide, rfl⟩),
        amount_signed]
  | .truth true => rfl
  | .truth false => rfl

theorem toList_label (action word : String) : s!"{action} ({word})".toList =
    action.toList ++ (' ' :: '(' :: word.toList ++ [')']) := by
  simp [toString]

theorem parts?_label (action numeral : List Char) (h : '(' ∉ numeral) :
    parts? (action ++ (' ' :: '(' :: numeral ++ [')'])) = some (action, numeral) := by
  have hreverse : (action ++ (' ' :: '(' :: numeral ++ [')'])).reverse =
      ')' :: (numeral.reverse ++ '(' :: ' ' :: action.reverse) := by
    simp
  have hother : ∀ c ∈ numeral.reverse, (c != '(') = true := by
    intro c hc
    refine bne_iff_ne.mpr fun heq => h ?_
    exact heq ▸ List.mem_reverse.mp hc
  unfold parts?
  rw [hreverse]
  simp only [List.dropWhile_append_of_pos hother, List.takeWhile_append_of_pos hother]
  simp

theorem edge?_ofEdge (edge : CallEdge) : (Statement.ofEdge edge).edge? = some edge := by
  simp only [Statement.edge?, Statement.ofEdge, toList_label,
    parts?_label _ _ (not_mem_word edge.weight), Option.map_some, weightOf_word,
    String.ofList_toList]

/-! ### Edges -/

/-- The edges that a text was made of. -/
def edges? (text : String) : Option (List CallEdge) :=
  (read? text).bind (List.mapM Statement.edge?)

theorem edges?_digraph (edges : List CallEdge) : edges? (digraph edges) = some edges := by
  have heach : Statement.edge? ∘ Statement.ofEdge = some := funext edge?_ofEdge
  rw [edges?, read?_digraph, Option.bind_some, List.mapM_map, heach]
  exact (List.mapM_pure (f := id)).trans (congrArg some (List.map_id _))

/-! ### Counts that can be written -/

theorem statement_of_short {edge : CallEdge} (h : edge.weight.Short) :
    statement edge = .ok (written edge) := by
  have htext : countText edge.weight = .ok edge.weight.word := by
    cases hweight : edge.weight with
    | int value => exact if_pos (hweight ▸ h : (EdgeCount.int value).Short)
    | truth value => rfl
  rw [statement, label, htext]
  rfl

theorem statement_of_not_short {edge : CallEdge} (h : ¬edge.weight.Short) :
    statement edge = .error overlong := by
  have htext : countText edge.weight = .error overlong := by
    cases hweight : edge.weight with
    | int value => exact if_neg (hweight ▸ h : ¬(EdgeCount.int value).Short)
    | truth value => exact absurd trivial (hweight ▸ h : ¬(EdgeCount.truth value).Short)
  rw [statement, label, htext]
  rfl

theorem render_of_short {graph : CallGraph} (h : ∀ edge ∈ graph.edges, edge.weight.Short) :
    render graph = .ok (digraph graph.edges) := by
  have hstatements : graph.edges.mapM statement = .ok (graph.edges.map written) :=
    Result.mapM_eq_ok_map fun edge hedge => statement_of_short (h edge hedge)
  unfold render digraph
  rw [hstatements, List.flatMap_def]
  unfold Except.map
  dsimp only

/-- Exactly a graph of counts that can be written has a text. -/
theorem render_eq_ok {graph : CallGraph} {text : String} : render graph = .ok text ↔
    (∀ edge ∈ graph.edges, edge.weight.Short) ∧ digraph graph.edges = text := by
  constructor
  · intro h
    have hshort : ∀ edge ∈ graph.edges, edge.weight.Short := by
      intro edge hedge
      by_contra hlong
      obtain ⟨statements, hstatements, -⟩ := Result.map_eq_ok.mp h
      obtain ⟨text, htext⟩ := Result.succeeds_mapM.mp ⟨statements, hstatements⟩ edge hedge
      cases (statement_of_not_short hlong).symm.trans htext
    exact ⟨hshort, Except.ok.inj ((render_of_short hshort).symm.trans h)⟩
  · intro ⟨hshort, htext⟩
    rw [render_of_short hshort, htext]

theorem eq_overlong {graph : CallGraph} {failure : Failure} (h : render graph = .error failure) :
    failure = overlong := by
  have hstep (edge : CallEdge) (other : Failure) (hedge : statement edge = .error other) :
      other = overlong := by
    by_cases hshort : edge.weight.Short
    · cases (statement_of_short hshort).symm.trans hedge
    · exact Except.error.inj (hedge.symm.trans (statement_of_not_short hshort))
  unfold render at h
  cases hmade : graph.edges.mapM statement with
  | ok texts =>
      rw [hmade] at h
      cases h
  | error other =>
      rw [hmade] at h
      exact (Except.error.inj h) ▸ Result.eq_of_mapM_eq_error hstep hmade

/-- **A digraph is read back as it was written.** Escaping guards the backslashes of a text and then its
quotes. A graph has a text exactly if none of its counts has **more digits than the limit**. A reader for
whom a quote opens a text, a backslash takes the next character as it is and the next other quote closes
the text finds one statement for each edge, in their order, from the source to the target and with the
action and the count as its label, and reads the edges out of the statements. So graphs are written alike
exactly if they have the same edges. -/
theorem render_reads_back (graph : CallGraph) :
    (∀ text, escape text = guarded '"' (guarded '\\' text)) ∧
    ((∃ text, render graph = .ok text) ↔ ∀ edge ∈ graph.edges, edge.weight.Short) ∧
    (∀ failure, render graph = .error failure → failure = overlong) ∧
    ∀ text, render graph = .ok text →
      read? text = some (graph.edges.map Statement.ofEdge) ∧
      edges? text = some graph.edges ∧
      ∀ other, render other = .ok text ↔ other.edges = graph.edges := by
  refine ⟨escape_eq_guarded, ?_, fun _ => eq_overlong, fun text h => ?_⟩
  · simp only [render_eq_ok, exists_and_left, exists_eq', and_true]
  · obtain ⟨hshort, rfl⟩ := render_eq_ok.mp h
    refine ⟨read?_digraph _, edges?_digraph _, fun other => ⟨fun hother => ?_, fun hedges => ?_⟩⟩
    · obtain ⟨-, htext⟩ := render_eq_ok.mp hother
      have hedges : some other.edges = some graph.edges := by
        rw [← edges?_digraph other.edges, htext, edges?_digraph]
      exact Option.some.inj hedges
    · rw [render_eq_ok, hedges]
      exact ⟨hshort, rfl⟩

/-- Names and an action that look like statements, a negative count and a truth value. -/
def imitating : CallGraph where
  root := "r"
  edges := [
    { source := "a\"b\\", target := "-> [label=\"x\"];\n", action := "mint (7)", weight := .int (-3) },
    { source := "\\\"", target := "", action := "\x7d", weight := .truth true }]

theorem render_reads_back_imitating : ∃ text, render imitating = .ok text ∧
    read? text = some [⟨"a\"b\\", "-> [label=\"x\"];\n", "mint (7) (-3)"⟩,
      ⟨"\\\"", "", "\x7d (True)"⟩] ∧
    edges? text = some imitating.edges := by
  obtain ⟨-, hwritten, -, hread⟩ := render_reads_back imitating
  have hshort : ∀ edge ∈ imitating.edges, edge.weight.Short := by
    decide
  obtain ⟨text, htext⟩ := hwritten.mpr hshort
  obtain ⟨hstatements, hedges, -⟩ := hread text htext
  exact ⟨text, htext, hstatements, hedges⟩

theorem length_toDigits_tenTo (exponent : Nat) :
    (Nat.toDigits 10 (Number.tenTo exponent)).length = exponent + 1 := by
  induction exponent with
  | zero => rfl
  | succ exponent ih =>
      have hbase : 10 ≤ Number.tenTo (exponent + 1) := Nat.le_self_pow (Nat.succ_ne_zero exponent) 10
      have hfewer : Number.tenTo (exponent + 1) / 10 = Number.tenTo exponent :=
        Nat.mul_div_cancel _ (by decide)
      rw [Nat.toDigits_of_base_le (by decide) hbase, List.length_append, hfewer, ih]
      rfl

/-- A power of ten has one digit more than its exponent. -/
theorem not_short_tenTo {exponent : Nat} (hexponent : Number.integerDigitLimit ≤ exponent) :
    ¬ (EdgeCount.int (Number.tenTo exponent : Nat)).Short := by
  intro hshort
  have hlength : (Nat.toDigits 10 (Number.tenTo exponent)).length ≤ Number.integerDigitLimit := hshort
  rw [length_toDigits_tenTo] at hlength
  omega

/-- One count too many leaves the graph without a text. -/
theorem render_of_not_short {graph : CallGraph} {edge : CallEdge} (hedge : edge ∈ graph.edges)
    (hlong : ¬ edge.weight.Short) : render graph = .error overlong := by
  cases hrender : render graph with
  | error failure => exact congrArg _ (eq_overlong hrender)
  | ok text => exact absurd ((render_eq_ok.mp hrender).1 edge hedge) hlong

/-- The smallest count with more digits than the limit. -/
def overlongGraph : CallGraph where
  root := "r"
  edges := [{ source := "a", target := "b", action := "x", weight := .int (Number.tenTo 4300 : Nat) }]

/-- A count that is one and is not written so. -/
def truthGraph : CallGraph where
  root := "r"
  edges := [{ source := "a", target := "b", action := "x", weight := .truth true }]

/-- A count of 4301 digits leaves its graph without a text, and a truth value is not written as the
integer that it is. -/
theorem count_unwritten :
    render overlongGraph = .error overlong ∧
    truthGraph.edges.map CallEdge.count = [1] ∧
    ∃ text, render truthGraph = .ok text ∧ read? text = some [⟨"a", "b", "x (True)"⟩] := by
  have hlong : ¬ (EdgeCount.int (Number.tenTo 4300 : Nat)).Short := not_short_tenTo le_rfl
  have hshort : ∀ edge ∈ truthGraph.edges, edge.weight.Short := List.forall_mem_singleton.mpr trivial
  exact ⟨render_of_not_short List.mem_cons_self hlong, rfl, digraph truthGraph.edges,
    render_of_short hshort, read?_digraph _⟩

end Dot

end ProgramAudit.Traffic
