import ProgramAudit.Proofs.Text.Numeral
import ProgramAudit.Traffic.Timeframe

/-!
What a timeframe stands for. Texts of the written form are told apart from all others, each letter
has its seconds, and two kinds of texts of the form still have none: those with the long s for a
letter, and those with more digits than the longest numeral.
-/

namespace ProgramAudit.Traffic.Timeframe

open Text

/-- The written form: digits of any script and a letter, with blanks around each. -/
inductive Written : List Char → List Char → Char → Prop
  | intro {before digits between after : List Char} {letter : Char}
    (hbefore : ∀ c ∈ before, isBlank c = true) (hdigits : ∀ c ∈ digits, isDigit c = true)
    (hne : digits ≠ []) (hbetween : ∀ c ∈ between, isBlank c = true)
    (hafter : ∀ c ∈ after, isBlank c = true) :
    Written (before ++ (digits ++ between ++ [letter]) ++ after) digits letter

/-- The letters of the units in either case, each with its seconds. -/
def letters : List (Char × Int) :=
  [('s', 1), ('S', 1), ('m', 60), ('M', 60), ('h', 3600), ('H', 3600), ('d', 86400), ('D', 86400),
    ('w', 604800), ('W', 604800)]

/-- The letters that pass for one of a unit: those with seconds, and the long s. -/
def Passes (letter : Char) : Prop := (∃ seconds, (letter, seconds) ∈ letters) ∨ letter = 'ſ'

/-- No window at all: the text is blank, or the word for the whole history in any case. -/
def Whole (text : String) : Prop := strip text = "" ∨ lowerCase (strip text) = "all"

variable {text digits : List Char} {letter : Char}

/-! ### Letters -/

theorem toLower_cases (c : Char) : c.toLower = c ∨ c.toNat + 32 = c.toLower.toNat := by
  unfold Char.toLower
  split
  · rename_i hupper
    right
    have hsmall : c.val.toNat ≤ 90 := UInt32.le_iff_toNat_le.mp hupper.2
    have hshift : (c.val + 32).toNat = (c.val.toNat + 32) % 2 ^ 32 := UInt32.toNat_add c.val 32
    change c.val.toNat + 32 = (c.val + 32).toNat
    omega
  · exact .inl rfl

/-- Only the two cases of a letter have it for their lower case. -/
theorem eq_or_eq_of_toLower {c lower : Char} (upper : Char) (h : c.toLower = lower)
    (hupper : upper.toNat + 32 = lower.toNat) : c = lower ∨ c = upper := by
  rcases toLower_cases c with hsame | hshift
  · exact .inl (hsame.symm.trans h)
  · refine .inr (Char.toNat_inj.mp ?_)
    rw [h] at hshift
    omega

theorem unitSeconds?_toLower (letter : Char) (seconds : Int) :
    unitSeconds? letter.toLower = some seconds ↔ (letter, seconds) ∈ letters := by
  constructor
  · intro h
    generalize hlower : letter.toLower = lower at h
    unfold unitSeconds? at h
    split at h <;> cases h
    · rcases eq_or_eq_of_toLower 'S' hlower rfl with rfl | rfl <;> decide
    · rcases eq_or_eq_of_toLower 'M' hlower rfl with rfl | rfl <;> decide
    · rcases eq_or_eq_of_toLower 'H' hlower rfl with rfl | rfl <;> decide
    · rcases eq_or_eq_of_toLower 'D' hlower rfl with rfl | rfl <;> decide
    · rcases eq_or_eq_of_toLower 'W' hlower rfl with rfl | rfl <;> decide
  · have hall : ∀ entry ∈ letters, unitSeconds? entry.1.toLower = some entry.2 := by decide
    exact hall (letter, seconds)

theorem isUnit_iff : isUnit letter = true ↔ Passes letter := by
  simp only [isUnit, Bool.or_eq_true, beq_iff_eq, Option.isSome_iff_exists, unitSeconds?_toLower,
    Passes]

theorem letter_plain (h : Passes letter) : isBlank letter = false ∧ isDigit letter = false := by
  rcases h with ⟨seconds, hmem⟩ | rfl
  · have hall : ∀ entry ∈ letters, isBlank entry.1 = false ∧ isDigit entry.1 = false := by
      decide +kernel
    exact hall _ hmem
  · decide +kernel

/-! ### The written form -/

theorem isDigit_of_isBlank {c : Char} (h : isBlank c = true) : isDigit c = false := by
  cases hdigit : isDigit c with
  | false => rfl
  | true => cases h.symm.trans (isBlank_of_isDigit hdigit)

/-- A text of the form is taken apart into its digits and its letter. -/
theorem split?_written (h : Written text digits letter) (hletter : Passes letter) :
    split? text = some (digits, letter) := by
  have hunit : isUnit letter = true := isUnit_iff.mpr hletter
  obtain ⟨hblank, hnoDigit⟩ := letter_plain hletter
  cases h with
  | @intro before digits between after letter hbefore hdigits hne hbetween hafter =>
      have htrim : trim (before ++ (digits ++ between ++ [letter]) ++ after) =
          digits ++ (between ++ [letter]) := by
        obtain ⟨first, rest, rfl⟩ := List.exists_cons_of_ne_nil hne
        have hfirst := isBlank_of_isDigit (hdigits first List.mem_cons_self)
        rw [List.cons_append, trim_surrounded hbefore hafter hfirst hblank]
        simp
      have hhead : (between ++ [letter]).takeWhile isDigit = [] ∧
          (between ++ [letter]).dropWhile isDigit = between ++ [letter] := by
        cases between with
        | nil => simp [hnoDigit]
        | cons c rest => simp [isDigit_of_isBlank (hbetween c List.mem_cons_self)]
      have hsome : digits.isEmpty = false := List.isEmpty_eq_false_iff.mpr hne
      simp only [split?, htrim]
      rw [List.takeWhile_append_of_pos hdigits, List.dropWhile_append_of_pos hdigits, hhead.1, hhead.2,
        List.dropWhile_append_of_pos hbetween]
      simp [hblank, hsome, hunit]

theorem written_of_split? (h : split? text = some (digits, letter)) :
    Written text digits letter ∧ Passes letter := by
  obtain ⟨before, after, hbefore, hafter, htext⟩ := exists_of_trim text
  unfold split? at h
  dsimp only at h
  split at h
  · rename_i unit hrest
    split_ifs at h with hform
    cases h
    simp only [Bool.and_eq_true, Bool.not_eq_true', List.isEmpty_eq_false_iff] at hform
    refine ⟨?_, isUnit_iff.mp hform.2⟩
    have hbody : trim text = (trim text).takeWhile isDigit ++
        ((trim text).dropWhile isDigit).takeWhile isBlank ++ [letter] := by
      rw [List.append_assoc, ← hrest, List.takeWhile_append_dropWhile,
        List.takeWhile_append_dropWhile]
    have hdigits : ∀ c ∈ (trim text).takeWhile isDigit, isDigit c = true :=
      fun c hc => List.mem_takeWhile_imp hc
    have hbetween : ∀ c ∈ ((trim text).dropWhile isDigit).takeWhile isBlank, isBlank c = true :=
      fun c hc => List.mem_takeWhile_imp hc
    have hwritten : Written _ _ letter := .intro hbefore hdigits hform.1 hbetween hafter
    rwa [← hbody, ← htext] at hwritten
  · cases h

theorem Written.plain (hdigits : ∀ c ∈ digits, isDigit c = true) (hne : digits ≠ [])
    (letter : Char) : Written (digits ++ [letter]) digits letter := by
  have hwritten := @Written.intro [] digits [] [] letter nofun hdigits hne nofun nofun
  simpa using hwritten

theorem Written.unique {other : List Char} {letter' : Char} (h : Written text digits letter)
    (h' : Written text other letter') (hletter : Passes letter) (hletter' : Passes letter') :
    digits = other ∧ letter = letter' :=
  Prod.mk.inj (Option.some.inj ((split?_written h hletter).symm.trans (split?_written h' hletter')))

/-- The digits are some of the text, and there is one. -/
theorem Written.digits_of (h : Written text digits letter) :
    (∀ c ∈ digits, isDigit c = true) ∧ digits ≠ [] ∧ digits ⊆ text := by
  cases h with
  | intro _ hdigits hne => exact ⟨hdigits, hne, fun c hc => by simp [hc]⟩

/-! ### The whole history -/

/-- No digit is in the word for the whole history, in whichever case. -/
theorem not_isDigit_of_all {c : Char} (h : c.toLower ∈ ['a', 'l', 'l']) : isDigit c = false := by
  have hcases : c.toLower = 'a' ∨ c.toLower = 'l' := by
    simpa only [List.mem_cons, List.not_mem_nil, or_false, or_self] using h
  rcases hcases with h | h
  · rcases eq_or_eq_of_toLower 'A' h rfl with rfl | rfl <;> decide +kernel
  · rcases eq_or_eq_of_toLower 'L' h rfl with rfl | rfl <;> decide +kernel

/-- There is a digit in a text of the form, and in none that stands for the whole history. -/
theorem not_whole_of_written {text : String} (h : Written text.toList digits letter) :
    ¬Whole text := by
  obtain ⟨hdigits, hne, hsub⟩ := h.digits_of
  obtain ⟨digit, hdigit⟩ := List.exists_mem_of_ne_nil digits hne
  obtain ⟨before, after, hbefore, hafter, htext⟩ := exists_of_trim text.toList
  have hclear := isBlank_of_isDigit (hdigits digit hdigit)
  have hmem : digit ∈ trim text.toList := by
    have hthree := hsub hdigit
    rw [htext, List.mem_append, List.mem_append] at hthree
    rcases hthree with (hin | hin) | hin
    · cases hclear.symm.trans (hbefore digit hin)
    · exact hin
    · cases hclear.symm.trans (hafter digit hin)
  rintro (hempty | hall)
  · have hnil : trim text.toList = [] := by simpa [strip] using hempty
    rw [hnil] at hmem
    cases hmem
  · have hword : (trim text.toList).map Char.toLower = ['a', 'l', 'l'] := by
      have hlist := congrArg String.toList hall
      simpa [lowerCase, strip] using hlist
    have hlower : digit.toLower ∈ ['a', 'l', 'l'] := hword ▸ List.mem_map_of_mem hmem
    cases (hdigits digit hdigit).symm.trans (not_isDigit_of_all hlower)

/-! ### What a text stands for -/

/-- Neither the whole history nor of the written form with one of the letters. -/
def Malformed (text : String) : Prop :=
  ¬Whole text ∧ ∀ digits letter, Written text.toList digits letter → ¬Passes letter

/-- What a text stands for: no window, the number of its digits times the seconds of its letter, or
nothing. -/
inductive Meaning (text : String) : Result (Option Int) → Prop
  | whole (h : Whole text) : Meaning text (.ok none)
  | span {digits : List Char} {letter : Char} {seconds : Int}
    (h : Written text.toList digits letter) (hletter : (letter, seconds) ∈ letters)
    (hlength : digits.length ≤ Number.integerDigitLimit) :
    Meaning text (.ok (some (amountOf digits * seconds)))
  | longS {digits : List Char} (h : Written text.toList digits 'ſ')
    (hlength : digits.length ≤ Number.integerDigitLimit) :
    Meaning text (.error (.missingKey (.str "ſ")))
  | overlong {digits : List Char} {letter : Char} (h : Written text.toList digits letter)
    (hletter : Passes letter) (hlength : Number.integerDigitLimit < digits.length) :
    Meaning text (.error (Json.noNumeral (String.ofList digits)))
  | malformed (h : Malformed text) : Meaning text (.error (invalid text))

theorem word_iff_whole {text : String} :
    (lowerCase (strip text) = "" ∨ lowerCase (strip text) = "all") ↔ Whole text := by
  refine or_congr_left ⟨fun h => ?_, fun h => ?_⟩
  · simpa [lowerCase] using h
  · rw [h]
    rfl

theorem seconds?_of_whole {text : String} (h : Whole text) : seconds? (some text) = .ok none := by
  unfold seconds?
  dsimp only
  rw [if_pos (word_iff_whole.mpr h)]

theorem seconds?_of_malformed {text : String} (h : Malformed text) :
    seconds? (some text) = .error (invalid text) := by
  have hnone : split? text.toList = none := by
    rw [Option.eq_none_iff_forall_ne_some]
    rintro ⟨digits, letter⟩ hsplit
    obtain ⟨hwritten, hletter⟩ := written_of_split? hsplit
    exact h.2 digits letter hwritten hletter
  unfold seconds?
  dsimp only
  rw [if_neg (mt word_iff_whole.mp h.1), hnone]

/-- A text of the form goes by its letter, unless it has too many digits. -/
theorem seconds?_of_written {text : String} (h : Written text.toList digits letter)
    (hletter : Passes letter) :
    seconds? (some text) =
      if digits.length ≤ Number.integerDigitLimit then
        match unitSeconds? letter.toLower with
        | some seconds => .ok (some (amountOf digits * seconds))
        | none => .error (.missingKey (.str (String.singleton letter)))
      else .error (Json.noNumeral (String.ofList digits)) := by
  obtain ⟨hdigits, hne, -⟩ := h.digits_of
  unfold seconds?
  dsimp only
  rw [if_neg (mt word_iff_whole.mp (not_whole_of_written h)), split?_written h hletter]
  dsimp only
  rw [Number.readInteger?_digits hdigits hne]
  cases unitSeconds? letter.toLower with
  | none => split_ifs <;> rfl
  | some seconds => split_ifs <;> rfl

theorem seconds?_of_meaning {text : String} {result : Result (Option Int)}
    (h : Meaning text result) : seconds? (some text) = result := by
  cases h with
  | whole h => exact seconds?_of_whole h
  | span h hletter hlength =>
      have hseconds := (unitSeconds?_toLower _ _).mpr hletter
      rw [seconds?_of_written h (.inl ⟨_, hletter⟩), if_pos hlength, hseconds]
  | longS h hlength =>
      rw [seconds?_of_written h (.inr rfl), if_pos hlength]
      rfl
  | overlong h hletter hlength =>
      rw [seconds?_of_written h hletter, if_neg (Nat.not_le.mpr hlength)]
  | malformed h => exact seconds?_of_malformed h

/-- Each text stands for something. -/
theorem exists_meaning (text : String) : ∃ result, Meaning text result := by
  by_cases hwhole : Whole text
  · exact ⟨_, .whole hwhole⟩
  by_cases hform : ∃ digits letter, Written text.toList digits letter ∧ Passes letter
  · obtain ⟨digits, letter, hwritten, hletter⟩ := hform
    rcases Nat.lt_or_ge Number.integerDigitLimit digits.length with hlong | hlength
    · exact ⟨_, .overlong hwritten hletter hlong⟩
    · rcases hletter with ⟨seconds, hmem⟩ | rfl
      · exact ⟨_, .span hwritten hmem hlength⟩
      · exact ⟨_, .longS hwritten hlength⟩
  · refine ⟨_, .malformed ⟨hwhole, fun digits letter hwritten hletter => ?_⟩⟩
    exact hform ⟨digits, letter, hwritten, hletter⟩

/-- The seconds of a text are what it stands for. -/
theorem seconds?_eq_iff {text : String} {result : Result (Option Int)} :
    seconds? (some text) = result ↔ Meaning text result := by
  refine ⟨fun h => ?_, seconds?_of_meaning⟩
  obtain ⟨result', hmeaning⟩ := exists_meaning text
  rwa [← h, seconds?_of_meaning hmeaning]

end ProgramAudit.Traffic.Timeframe
