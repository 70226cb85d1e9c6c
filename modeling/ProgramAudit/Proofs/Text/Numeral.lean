import Mathlib.Data.List.TakeWhile
import ProgramAudit.Number.Reading

/-!
Trimmed texts and numerals. What stands between blanks comes out of trimming as it is, and a run of
digits of any scripts is read as the number that its digits stand for, up to the longest numeral.
-/

namespace ProgramAudit

namespace Text

variable {text before between after digits : List Char} {c : Char} {blank : Char → Bool}

/-! ### Blanks at the ends -/

theorem trimWhere_of_forall (h : ∀ c ∈ text, blank c = false) : trimWhere blank text = text := by
  have hdrop {rest : List Char} (hrest : ∀ c ∈ rest, blank c = false) :
      rest.dropWhile blank = rest := by
    cases rest with
    | nil => rfl
    | cons c rest => simp [hrest c List.mem_cons_self]
  rw [trimWhere, hdrop h, hdrop fun c hc => h c (List.mem_reverse.mp hc), List.reverse_reverse]

/-- A text without blanks stays as it is. -/
theorem trim_of_forall (h : ∀ c ∈ text, isBlank c = false) : trim text = text :=
  trimWhere_of_forall h

/-- What trimming takes away is blank. -/
theorem exists_of_trim (text : List Char) : ∃ before after : List Char,
    (∀ c ∈ before, isBlank c = true) ∧ (∀ c ∈ after, isBlank c = true) ∧
      text = before ++ trim text ++ after := by
  refine ⟨text.takeWhile isBlank,
    ((text.dropWhile isBlank).reverse.takeWhile isBlank).reverse, ?_, ?_, ?_⟩
  · exact fun c hc => List.mem_takeWhile_imp hc
  · exact fun c hc => List.mem_takeWhile_imp (List.mem_reverse.mp hc)
  · have hrest : trim text ++ ((text.dropWhile isBlank).reverse.takeWhile isBlank).reverse =
        text.dropWhile isBlank := by
      rw [trim, trimWhere, ← List.reverse_append, List.takeWhile_append_dropWhile, List.reverse_reverse]
    rw [List.append_assoc, hrest, List.takeWhile_append_dropWhile]

/-- A text that neither starts nor ends with a blank comes out of the blanks around it. -/
theorem trim_surrounded {first last : Char} {inner : List Char}
    (hbefore : ∀ c ∈ before, isBlank c = true) (hafter : ∀ c ∈ after, isBlank c = true)
    (hfirst : isBlank first = false) (hlast : isBlank last = false) :
    trim (before ++ (first :: inner ++ [last]) ++ after) = first :: inner ++ [last] := by
  have hback : ∀ c ∈ after.reverse, isBlank c = true := fun c hc => hafter c (List.mem_reverse.mp hc)
  rw [trim, trimWhere, List.append_assoc, List.dropWhile_append_of_pos hbefore]
  simp only [List.cons_append, List.dropWhile_cons, hfirst, Bool.false_eq_true, if_false]
  rw [← List.cons_append, List.reverse_append, List.dropWhile_append_of_pos hback,
    ← List.cons_append, List.reverse_append]
  simp [hlast]

/-! ### Digits -/

/-- Near each run of digits there is no blank. -/
theorem isBlank_of_isDigit (h : isDigit c = true) : isBlank c = false := by
  obtain ⟨value, hvalue⟩ := Option.isSome_iff_exists.mp h
  obtain ⟨start, hstart, -⟩ := Option.map_eq_some_iff.mp hvalue
  have hrange := List.find?_some hstart
  have happart : ∀ start ∈ digitZeros, ∀ range ∈ blankRanges,
      start + 10 ≤ range.1 ∨ range.2 < start := by decide
  simp only [Bool.and_eq_true, decide_eq_true_eq] at hrange
  simp only [isBlank, List.any_eq_false, Bool.and_eq_true, decide_eq_true_eq]
  intro range hmem
  have hclear := happart start (List.mem_of_find?_eq_some hstart) range hmem
  omega

theorem lt_of_digitValue? {value : Nat} (h : digitValue? c = some value) : value < 10 := by
  obtain ⟨start, hstart, rfl⟩ := Option.map_eq_some_iff.mp h
  have hrange := List.find?_some hstart
  simp only [Bool.and_eq_true, decide_eq_true_eq] at hrange
  omega

/-- The number that a run of digits stands for. -/
def amountOf (digits : List Char) : Nat := digitsValue (digits.filterMap digitValue?)

theorem exists_digitValue? (h : isDigit c = true) :
    ∃ value, digitValue? c = some value ∧ value < 10 := by
  obtain ⟨value, hvalue⟩ := Option.isSome_iff_exists.mp h
  exact ⟨value, hvalue, lt_of_digitValue? hvalue⟩

/-- What tells an ASCII digit from the other marks of a numeral. -/
theorem digitChar_plain {value : Nat} (h : value < 10) :
    (Nat.digitChar value).isDigit = true ∧ Nat.digitChar value ≠ '_' ∧
      Nat.digitChar value ≠ '-' ∧ Nat.digitChar value ≠ '+' ∧
      (Nat.digitChar value).toNat - '0'.toNat = value := by
  revert value
  decide

end Text

namespace Number

open Text

variable {digits : List Char} {values : List Nat}

/-! ### Runs of digits -/

theorem plainNumeral_ofList (h : ∀ c ∈ digits, isDigit c = true) :
    plainNumeral (String.ofList digits) = (digits.filterMap digitValue?).map Nat.digitChar := by
  have hmargin : ∀ c ∈ digits, isMargin c = false := fun c hc => by
    rw [isMargin, isBlank_of_isDigit (h c hc), Bool.false_and]
  rw [plainNumeral, String.toList_ofList, trimWhere_of_forall hmargin]
  clear hmargin
  induction digits with
  | nil => rfl
  | cons c rest ih =>
      obtain ⟨value, hvalue, -⟩ := exists_digitValue? (h c List.mem_cons_self)
      have hrest := ih fun c hc => h c (List.mem_cons_of_mem _ hc)
      simp only [List.map_cons, List.filterMap_cons_some hvalue, hvalue, hrest]

theorem length_digitValues (h : ∀ c ∈ digits, isDigit c = true) :
    (digits.filterMap digitValue?).length = digits.length := by
  induction digits with
  | nil => rfl
  | cons c rest ih =>
      obtain ⟨value, hvalue, -⟩ := exists_digitValue? (h c List.mem_cons_self)
      rw [List.filterMap_cons_some hvalue, List.length_cons, List.length_cons,
        ih fun c hc => h c (List.mem_cons_of_mem _ hc)]

/-- A run of ASCII digits has no sign and no grouping. -/
theorem reading_digitChars (hsmall : ∀ value ∈ values, value < 10) :
    takeSign (values.map Nat.digitChar) = (false, values.map Nat.digitChar) ∧
      (∀ previous, joinDigitGroups previous (values.map Nat.digitChar) =
        some (values.map Nat.digitChar)) ∧
      (values.map Nat.digitChar).all Char.isDigit = true ∧
      digitsOf (values.map Nat.digitChar) = values := by
  induction values with
  | nil => exact ⟨rfl, fun _ => rfl, rfl, rfl⟩
  | cons value rest ih =>
      obtain ⟨hdigit, hgroup, hminus, hplus, hback⟩ :=
        digitChar_plain (hsmall value List.mem_cons_self)
      obtain ⟨-, hjoin, hall, hvalues⟩ := ih fun value hvalue =>
        hsmall value (List.mem_cons_of_mem _ hvalue)
      refine ⟨?_, fun previous => ?_, ?_, ?_⟩
      · simp [takeSign, hminus, hplus]
      · simp [joinDigitGroups, hgroup, hjoin]
      · simp [hdigit, hall]
      · exact congrArg₂ List.cons hback hvalues

/-- A run of digits is read as its number, unless it is longer than the longest numeral. -/
theorem readInteger?_digits (h : ∀ c ∈ digits, isDigit c = true) (hne : digits ≠ []) :
    readInteger? (String.ofList digits) =
      if digits.length ≤ integerDigitLimit then some (amountOf digits : Int) else none := by
  have hsmall : ∀ value ∈ digits.filterMap digitValue?, value < 10 := by
    intro value hvalue
    obtain ⟨c, -, hc⟩ := List.mem_filterMap.mp hvalue
    exact lt_of_digitValue? hc
  obtain ⟨hsign, hjoin, hall, hvalues⟩ := reading_digitChars hsmall
  have hlength : ((digits.filterMap digitValue?).map Nat.digitChar).length = digits.length := by
    rw [List.length_map, length_digitValues h]
  have hsome : ((digits.filterMap digitValue?).map Nat.digitChar).isEmpty = false := by
    rw [List.isEmpty_eq_false_iff, ← List.length_pos_iff, hlength]
    exact List.length_pos_iff.mpr hne
  simp only [readInteger?, plainNumeral_ofList h, hsign, hjoin, hsome, hall, hvalues, hlength]
  by_cases hlong : digits.length ≤ integerDigitLimit
  · simp [hlong, amountOf]
  · simp [hlong]

end Number

end ProgramAudit
