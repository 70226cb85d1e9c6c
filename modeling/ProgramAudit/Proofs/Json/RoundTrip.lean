import ProgramAudit.Proofs.Json.Written

/-!
A value that is written on a line is read back as it was, if a text says all of it: there are no
doubles in it, its integers are not too long to be read, and no field comes twice.
-/

namespace ProgramAudit.Json

open Number Text

/-! ### Integers -/

/-- Behind a value there is a mark, or nothing. -/
def Closes : List Char → Prop
  | [] => True
  | c :: _ => c = ',' ∨ c = ']' ∨ c = '\x7d'

variable {rest : List Char}

/-- The digits of a number do not start with a zero, unless it is zero. -/
theorem exists_toDigits_cons (n : Nat) :
    ∃ digit more, Nat.toDigits 10 n = Nat.digitChar digit :: more ∧ digit < 10 ∧
      (0 < n → 0 < digit) := by
  induction n using Nat.strongRecOn with
  | _ n ih =>
      by_cases hone : n < 10
      · exact ⟨n, [], Nat.toDigits_of_lt_base hone, hone, id⟩
      · obtain ⟨digit, more, hmore, hlow, hpositive⟩ := ih (n / 10) (by omega)
        rw [Nat.toDigits_of_base_le (by decide) (by omega), hmore]
        exact ⟨digit, _, List.cons_append, hlow, fun _ => hpositive (by omega)⟩

theorem digitsValue_toDigits (n : Nat) : digitsValue (digitsOf (Nat.toDigits 10 n)) = n := by
  rw [digitsValue, digitsOf, List.foldl_map, ← Nat.ofDigitChars_eq_foldl]
  exact Nat.ofDigitChars_ten_toDigits

theorem Closes.not_isDigit (h : Closes rest) :
    rest.takeWhile Char.isDigit = [] ∧ rest.dropWhile Char.isDigit = rest := by
  cases rest with
  | nil => exact ⟨rfl, rfl⟩
  | cons c more => rcases h with rfl | rfl | rfl <;> exact ⟨rfl, rfl⟩

theorem takeWhole_toDigits (n : Nat) (h : Closes rest) :
    takeWhole (Nat.toDigits 10 n ++ rest) = (Nat.toDigits 10 n, rest) := by
  rcases Nat.eq_zero_or_pos n with rfl | hpos
  · rfl
  · have hdigits : ∀ c ∈ Nat.toDigits 10 n, c.isDigit = true := fun c hc =>
      Nat.isDigit_of_mem_toDigits (by decide) (by decide) hc
    obtain ⟨digit, more, hmore, -, hdigit⟩ := exists_toDigits_cons n
    have hnonzero : 0 < digit := hdigit hpos
    have hfirst : ∀ tail, Nat.toDigits 10 n ++ rest ≠ '0' :: tail := by
      intro tail htail
      rw [hmore, List.cons_append, List.cons.injEq, Nat.digitChar_eq_zero] at htail
      omega
    unfold takeWhole
    split
    · exact absurd ‹_› (hfirst _)
    · rw [List.takeWhile_append_of_pos hdigits, List.dropWhile_append_of_pos hdigits,
        h.not_isDigit.1, h.not_isDigit.2, List.append_nil]

theorem takeFraction_closes (h : Closes rest) : takeFraction rest = ([], rest) := by
  cases rest with
  | nil => rfl
  | cons c more => rcases h with rfl | rfl | rfl <;> rfl

theorem takeExponent_closes (h : Closes rest) : takeExponent rest = (none, rest) := by
  cases rest with
  | nil => rfl
  | cons c more => rcases h with rfl | rfl | rfl <;> rfl

/-- The text of an integer. -/
def signed : Int → List Char
  | .ofNat n => Nat.toDigits 10 n
  | .negSucc n => '-' :: Nat.toDigits 10 (n + 1)

theorem exists_signed_cons (value : Int) :
    ∃ c more, signed value = c :: more ∧ (c = '-' ∨ c.isDigit = true) := by
  cases value with
  | ofNat n =>
      obtain ⟨digit, more, hmore, hlow, -⟩ := exists_toDigits_cons n
      exact ⟨_, more, hmore, .inr (by simpa using hlow)⟩
  | negSucc n => exact ⟨_, _, rfl, .inl rfl⟩

/-- An integer does not start with any other mark. -/
theorem ne_mark {c mark : Char} (h : c = '-' ∨ c.isDigit = true)
    (hmark : mark ≠ '-' ∧ mark.isDigit = false) : c ≠ mark := by
  rintro rfl
  rcases h with h | h
  · exact hmark.1 h
  · rw [hmark.2] at h
    cases h

theorem toList_toString (value : Int) : (toString value).toList = signed value := by
  cases value with
  | ofNat n => exact Nat.toList_repr
  | negSucc n =>
      change ("-" ++ (n + 1).repr).toList = _
      rw [String.toList_append, Nat.toList_repr]
      rfl

theorem readNumber_signed {value : Int}
    (hshort : (Nat.toDigits 10 value.natAbs).length ≤ integerDigitLimit) (h : Closes rest) :
    readNumber (signed value ++ rest) = .ok (.int value, rest) := by
  cases value with
  | ofNat n =>
      have hsign : ∀ tail, Nat.toDigits 10 n ++ rest ≠ '-' :: tail := by
        intro tail htail
        obtain ⟨digit, more, hmore, -⟩ := exists_toDigits_cons n
        rw [hmore, List.cons_append, List.cons.injEq] at htail
        simp at htail
      have hnotLong : ¬integerDigitLimit < (Nat.toDigits 10 n).length := Nat.not_lt.mpr hshort
      unfold readNumber
      split
      rename_i negative body hbody
      split at hbody
      · exact absurd ‹_› (hsign _)
      · cases hbody
        simp [signed, takeWhole_toDigits n h, takeFraction_closes h, takeExponent_closes h,
          hnotLong, digitsValue_toDigits]
  | negSucc n =>
      have hnotLong : ¬integerDigitLimit < (Nat.toDigits 10 (n + 1)).length := Nat.not_lt.mpr hshort
      simp [readNumber, signed, takeWhole_toDigits (n + 1) h, takeFraction_closes h,
        takeExponent_closes h, hnotLong, digitsValue_toDigits, Int.negSucc_eq]

/-- No word starts as an integer does. -/
theorem readWord?_signed (value : Int) : readWord? (signed value ++ rest) = none := by
  cases value with
  | ofNat n =>
      obtain ⟨digit, more, hmore, hlow, -⟩ := exists_toDigits_cons n
      have hletter : digit ≠ 15 := by omega
      simp [readWord?, words, signed, hmore, dropWord?, hletter]
  | negSucc n =>
      obtain ⟨digit, more, hmore, -⟩ := exists_toDigits_cons (n + 1)
      simp [readWord?, words, signed, hmore, dropWord?]

/-! ### Plain values -/

mutual

/-- A text says all of the value. -/
def isPlain : Json → Bool
  | .null | .bool _ | .str _ => true
  | .int value => (Nat.toDigits 10 value.natAbs).length ≤ integerDigitLimit
  | .real _ => false
  | .arr items => arePlain items
  | .obj fields => (fields.map Prod.fst).Nodup && hasPlain fields
termination_by structural value => value

def arePlain : List Json → Bool
  | [] => true
  | item :: rest => isPlain item && arePlain rest
termination_by structural items => items

def hasPlain : List (String × Json) → Bool
  | [] => true
  | entry :: rest => entryIsPlain entry && hasPlain rest
termination_by structural fields => fields

def entryIsPlain : String × Json → Bool
  | (_, value) => isPlain value
termination_by structural entry => entry

end

/-! ### Lines -/

/-- The characters of a value on a line. -/
def line (value : Json) : List Char := value.render.toList

def fieldLine (entry : String × Json) : List Char :=
  (writeString entry.1).toList ++ ':' :: ' ' :: line entry.2

/-- Lines behind each other, with marks between them. -/
def listed (lines : List (List Char)) : List Char := [',', ' '].intercalate lines

theorem toList_group (depth : Nat) (left right : String) (parts : List String) :
    (Layout.line.group depth left right parts).toList =
      left.toList ++ listed (parts.map String.toList) ++ right.toList := by
  unfold Layout.group
  split_ifs with hparts
  · rw [List.isEmpty_iff.mp hparts, String.toList_append]
    simp [listed]
  · simp [Layout.line, listed]

theorem line_int (value : Int) : line (.int value) = signed value :=
  toList_toString value

theorem line_str (text : String) :
    line (.str text) = '"' :: (text.toList.flatMap escapeText ++ ['"']) := by
  simp [line, render, write, writeString]

theorem line_arr (items : List Json) :
    line (.arr items) = '[' :: (listed (items.map line) ++ [']']) := by
  rw [line, render, write, writeAll_line, toList_group, List.map_map]
  rfl

theorem line_obj (fields : List (String × Json)) :
    line (.obj fields) = '\x7b' :: (listed (fields.map fieldLine) ++ ['\x7d']) := by
  have hentries : (fields.map fun entry => writeString entry.1 ++ ": " ++ entry.2.render).map
      String.toList = fields.map fieldLine := by
    rw [List.map_map]
    refine List.map_congr_left fun entry _ => ?_
    simp [fieldLine, line]
  rw [line, render, write, writeFields_line, toList_group, hentries]
  rfl

theorem listed_cons_cons (first second : List Char) (rest : List (List Char)) :
    listed (first :: second :: rest) = first ++ ',' :: ' ' :: listed (second :: rest) := by
  simp [listed]

theorem listed_singleton (first : List Char) : listed [first] = first :=
  List.intercalate_singleton

/-! ### How values start -/

/-- A value starts with a mark of its own. -/
def Opens : List Char → Prop
  | [] => False
  | c :: _ => isSpace c = false ∧ c ≠ ']' ∧ c ≠ '\x7d'

theorem Opens.skipSpace {text : List Char} (h : Opens text) : skipSpace text = text := by
  cases text with
  | nil => exact h.elim
  | cons c more =>
      rw [Json.skipSpace, List.dropWhile_cons, h.1]
      rfl

theorem opens_line {value : Json} (h : value.isPlain = true) : Opens (line value ++ rest) := by
  cases value with
  | null => exact ⟨rfl, by decide, by decide⟩
  | bool value => cases value <;> exact ⟨rfl, by decide, by decide⟩
  | int value =>
      rw [line_int]
      obtain ⟨c, more, hmore, hc⟩ := exists_signed_cons value
      rw [hmore]
      have hblank (mark : Char) (hmark : mark ≠ '-' ∧ mark.isDigit = false) :
          decide (c = mark) = false := decide_eq_false (ne_mark hc hmark)
      refine ⟨?_, ne_mark hc (by decide), ne_mark hc (by decide)⟩
      rw [isSpace, hblank ' ' (by decide), hblank '\t' (by decide), hblank '\n' (by decide),
        hblank '\r' (by decide)]
      rfl
  | real value => cases h
  | str text =>
      rw [line_str]
      exact ⟨rfl, by decide, by decide⟩
  | arr items =>
      rw [line_arr]
      exact ⟨rfl, by decide, by decide⟩
  | obj fields =>
      rw [line_obj]
      exact ⟨rfl, by decide, by decide⟩

theorem exists_listed_cons (first : List Char) (others : List (List Char)) :
    ∃ more, listed (first :: others) = first ++ more := by
  cases others with
  | nil => exact ⟨[], by rw [listed_singleton, List.append_nil]⟩
  | cons second others => exact ⟨_, listed_cons_cons first second others⟩

theorem opens_items {item : Json} (h : item.isPlain = true) (others : List (List Char)) :
    Opens (listed (line item :: others) ++ rest) := by
  obtain ⟨more, hmore⟩ := exists_listed_cons (line item) others
  rw [hmore, List.append_assoc]
  exact opens_line h

theorem opens_fields (entry : String × Json) (others : List (List Char)) :
    Opens (listed (fieldLine entry :: others) ++ rest) := by
  obtain ⟨more, hmore⟩ := exists_listed_cons (fieldLine entry) others
  rw [hmore, List.append_assoc, fieldLine, writeString, String.toList_ofList]
  exact ⟨rfl, by decide, by decide⟩

/-! ### One step of the reader -/

theorem setField_of_notMem {name : String} {value : Json} {fields : List (String × Json)}
    (h : name ∉ fields.map Prod.fst) : setField name value fields = fields ++ [(name, value)] := by
  induction fields with
  | nil => rfl
  | cons entry rest ih =>
      rw [List.map_cons, List.mem_cons, not_or] at h
      rw [setField, if_neg (Ne.symm h.1), ih h.2, List.cons_append]

theorem escapeText_ne_nil (c : Char) : escapeText c ≠ [] := by
  intro hempty
  -- A character that left no trace would take fuel and leave the closing quote unread.
  have hread := @readStringBody_escapeText ['"'] 0 [] c
  rw [hempty] at hread
  cases hread

theorem length_le_flatMap_escapeText (text : List Char) :
    text.length ≤ (text.flatMap escapeText).length := by
  induction text with
  | nil => exact Nat.le_refl 0
  | cons c text ih =>
      have hc : 0 < (escapeText c).length := List.length_pos_iff.mpr (escapeText_ne_nil c)
      rw [List.flatMap_cons, List.length_append, List.length_cons]
      omega

/-- A string that has been opened is read to its end. -/
theorem readStringBody_opened (text : String) :
    readStringBody ((text.toList.flatMap escapeText ++ '"' :: rest).length + 1) []
      (text.toList.flatMap escapeText ++ '"' :: rest) = .ok (text, rest) := by
  have hlength := length_le_flatMap_escapeText text.toList
  have hfuel : text.toList.length <
      (text.toList.flatMap escapeText ++ '"' :: rest).length + 1 := by
    rw [List.length_append]
    omega
  rw [readStringBody_written text.toList _ [] hfuel]
  simp

theorem readValue_signed {value : Int} (fuel : Nat)
    (hshort : (Nat.toDigits 10 value.natAbs).length ≤ integerDigitLimit) (h : Closes rest) :
    readValue (fuel + 1) (signed value ++ rest) = .ok (.int value, rest) := by
  obtain ⟨c, more, hmore, hc⟩ := exists_signed_cons value
  have hword := @readWord?_signed rest value
  have hnumber := readNumber_signed hshort h
  rw [hmore, List.cons_append] at hword hnumber ⊢
  unfold readValue
  split
  · exact absurd (List.cons.inj ‹_›).1 (ne_mark hc (by decide))
  · exact absurd (List.cons.inj ‹_›).1 (ne_mark hc (by decide))
  · exact absurd (List.cons.inj ‹_›).1 (ne_mark hc (by decide))
  · rw [hword, hnumber]

theorem readValue_opens_arr {text : List Char} (fuel : Nat) (h : Opens text) :
    readValue (fuel + 1) ('[' :: text) = readItems fuel [] text := by
  simp only [readValue, h.skipSpace]
  split
  · exact absurd rfl h.2.1
  · rfl

theorem readValue_opens_obj {text : List Char} (fuel : Nat) (h : Opens text) :
    readValue (fuel + 1) ('\x7b' :: text) = readFields fuel [] text := by
  simp only [readValue, h.skipSpace]
  split
  · exact absurd rfl h.2.2
  · rfl

theorem skipSpace_blank {text : List Char} (h : Opens text) : skipSpace (' ' :: text) = text :=
  h.skipSpace

section Items

variable {fuel : Nat} {text chars after : List Char} {item : Json}

/-- A comma behind an item: the list goes on. -/
theorem readItems_comma (htext : skipSpace text = chars ++ ',' :: after)
    (hitem : readValue fuel (chars ++ ',' :: after) = .ok (item, ',' :: after))
    (done : List Json) :
    readItems (fuel + 1) done text = readItems fuel (item :: done) after := by
  rw [readItems, htext, hitem]
  rfl

/-- A bracket behind an item: the list is read. -/
theorem readItems_bracket (htext : skipSpace text = chars ++ ']' :: after)
    (hitem : readValue fuel (chars ++ ']' :: after) = .ok (item, ']' :: after))
    (done : List Json) :
    readItems (fuel + 1) done text = .ok (.arr (done.reverse ++ [item]), after) := by
  rw [readItems, htext, hitem, ← List.reverse_cons]
  rfl

end Items

section Fields

variable {fuel : Nat} {text after : List Char} {entry : String × Json}

theorem fieldLine_append (entry : String × Json) (after : List Char) :
    fieldLine entry ++ after = '"' :: (entry.1.toList.flatMap escapeText ++
      '"' :: ':' :: ' ' :: (line entry.2 ++ after)) := by
  simp [fieldLine, writeString]

theorem skipSpace_colon (after : List Char) : skipSpace (':' :: after) = ':' :: after := rfl

/-- A comma behind a field: the object goes on. -/
theorem readFields_comma (htext : skipSpace text = fieldLine entry ++ ',' :: after)
    (hopens : Opens (line entry.2 ++ ',' :: after))
    (hvalue : readValue fuel (line entry.2 ++ ',' :: after) = .ok (entry.2, ',' :: after))
    (done : List (String × Json)) :
    readFields (fuel + 1) done text = readFields fuel (setField entry.1 entry.2 done) after := by
  simp only [readFields, htext, fieldLine_append, readStringBody_opened, skipSpace_colon,
    skipSpace_blank hopens, hvalue]
  rfl

/-- A brace behind a field: the object is read. -/
theorem readFields_brace (htext : skipSpace text = fieldLine entry ++ '\x7d' :: after)
    (hopens : Opens (line entry.2 ++ '\x7d' :: after))
    (hvalue : readValue fuel (line entry.2 ++ '\x7d' :: after) = .ok (entry.2, '\x7d' :: after))
    (done : List (String × Json)) :
    readFields (fuel + 1) done text = .ok (.obj (setField entry.1 entry.2 done), after) := by
  simp only [readFields, htext, fieldLine_append, readStringBody_opened, skipSpace_colon,
    skipSpace_blank hopens, hvalue]
  rfl

end Fields

theorem exists_fuel {size fuel : Nat} (h : size < fuel) : ∃ left, fuel = left + 1 ∧ size ≤ left :=
  ⟨fuel - 1, by omega, by omega⟩

/-! ### Reading back -/

mutual

/-- By recursion on the value, with as much fuel as its line is long. -/
theorem readValue_line : ∀ value : Json, value.isPlain = true → ∀ (fuel : Nat) (rest : List Char),
    (line value).length ≤ fuel → Closes rest →
      readValue fuel (line value ++ rest) = .ok (value, rest)
  | .null => by
    intro _ fuel rest hfuel _
    obtain ⟨left, rfl, -⟩ := exists_fuel (show 3 < fuel from hfuel)
    rfl
  | .bool true => by
    intro _ fuel rest hfuel _
    obtain ⟨left, rfl, -⟩ := exists_fuel (show 3 < fuel from hfuel)
    rfl
  | .bool false => by
    intro _ fuel rest hfuel _
    obtain ⟨left, rfl, -⟩ := exists_fuel (show 4 < fuel from hfuel)
    rfl
  | .int value => by
    intro hplain fuel rest hfuel hrest
    rw [line_int] at hfuel ⊢
    obtain ⟨c, more, hmore, -⟩ := exists_signed_cons value
    rw [hmore, List.length_cons] at hfuel
    obtain ⟨left, rfl, -⟩ := exists_fuel hfuel
    exact readValue_signed left (of_decide_eq_true hplain) hrest
  | .real value => by
    intro hplain
    cases hplain
  | .str text => by
    intro _ fuel rest hfuel _
    rw [line_str] at hfuel ⊢
    obtain ⟨left, rfl, -⟩ := exists_fuel hfuel
    rw [List.cons_append, List.append_assoc, List.singleton_append, readValue,
      readStringBody_opened]
    rfl
  | .arr items => by
    intro hplain fuel rest hfuel _
    rw [line_arr] at hfuel ⊢
    obtain ⟨left, rfl, hleft⟩ := exists_fuel hfuel
    rw [List.length_append, List.length_singleton] at hleft
    have hitems := readItems_listed items hplain
    rw [List.cons_append, List.append_assoc, List.singleton_append]
    cases items with
    | nil => rfl
    | cons item more =>
        have hopens : Opens (listed ((item :: more).map line) ++ ']' :: rest) :=
          opens_items (Bool.and_eq_true_iff.mp hplain).1 _
        rw [readValue_opens_arr left hopens]
        exact hitems (List.cons_ne_nil _ _) left [] rest _ hopens.skipSpace hleft
  | .obj fields => by
    intro hplain fuel rest hfuel _
    rw [line_obj] at hfuel ⊢
    obtain ⟨left, rfl, hleft⟩ := exists_fuel hfuel
    rw [List.length_append, List.length_singleton] at hleft
    obtain ⟨hdistinct, hvalues⟩ := Bool.and_eq_true_iff.mp hplain
    have hfields := readFields_listed fields hvalues
    rw [List.cons_append, List.append_assoc, List.singleton_append]
    cases fields with
    | nil => rfl
    | cons entry more =>
        have hopens : Opens (listed ((entry :: more).map fieldLine) ++ '\x7d' :: rest) :=
          opens_fields entry _
        rw [readValue_opens_obj left hopens]
        exact hfields (List.cons_ne_nil _ _) left [] rest _ (of_decide_eq_true hdistinct)
          hopens.skipSpace hleft
termination_by structural value => value

theorem readItems_listed : ∀ items : List Json, arePlain items = true → items ≠ [] →
    ∀ (fuel : Nat) (done : List Json) (rest text : List Char),
    skipSpace text = listed (items.map line) ++ ']' :: rest →
      (listed (items.map line)).length < fuel →
        readItems fuel done text = .ok (.arr (done.reverse ++ items), rest)
  | [] => by
    intro _ hnonempty
    exact absurd rfl hnonempty
  | item :: more => by
    intro hplain _ fuel done rest text htext hfuel
    obtain ⟨hitemPlain, hmorePlain⟩ := Bool.and_eq_true_iff.mp hplain
    obtain ⟨left, rfl, hleft⟩ := exists_fuel hfuel
    have hitem := readValue_line item hitemPlain left
    have hmore := readItems_listed more hmorePlain
    cases more with
    | nil =>
        rw [List.map_singleton, listed_singleton] at htext hleft
        exact readItems_bracket htext (hitem _ hleft (.inr (.inl rfl))) done
    | cons next others =>
        have hopens : Opens (listed ((next :: others).map line) ++ ']' :: rest) :=
          opens_items (Bool.and_eq_true_iff.mp hmorePlain).1 _
        rw [List.map_cons, List.map_cons, listed_cons_cons, ← List.map_cons] at htext hleft
        rw [List.append_assoc, List.cons_append, List.cons_append] at htext
        rw [List.length_append, List.length_cons, List.length_cons] at hleft
        rw [readItems_comma htext (hitem _ (by omega) (.inl rfl)),
          hmore (List.cons_ne_nil _ _) left (item :: done) rest _ (skipSpace_blank hopens)
          (by omega), List.reverse_cons, List.append_assoc, List.singleton_append]
termination_by structural items => items

theorem readFields_listed : ∀ fields : List (String × Json), hasPlain fields = true → fields ≠ [] →
    ∀ (fuel : Nat) (done : List (String × Json)) (rest text : List Char),
    ((done ++ fields).map Prod.fst).Nodup →
      skipSpace text = listed (fields.map fieldLine) ++ '\x7d' :: rest →
        (listed (fields.map fieldLine)).length < fuel →
          readFields fuel done text = .ok (.obj (done ++ fields), rest)
  | [] => by
    intro _ hnonempty
    exact absurd rfl hnonempty
  | entry :: more => by
    intro hplain _ fuel done rest text hdistinct htext hfuel
    obtain ⟨hentryPlain, hmorePlain⟩ := Bool.and_eq_true_iff.mp hplain
    obtain ⟨left, rfl, hleft⟩ := exists_fuel hfuel
    have hvalue := readField_line entry hentryPlain left
    have hmore := readFields_listed more hmorePlain
    have hopensValue (after : List Char) : Opens (line entry.2 ++ after) := by
      obtain ⟨name, value⟩ := entry
      exact opens_line hentryPlain
    have hshort : (line entry.2).length ≤ (fieldLine entry).length := by
      rw [fieldLine, List.length_append, List.length_cons, List.length_cons]
      omega
    have hnew : setField entry.1 entry.2 done = done ++ [entry] := by
      refine setField_of_notMem fun hmem => ?_
      rw [List.map_append, List.nodup_append] at hdistinct
      exact hdistinct.2.2 _ hmem _ (List.mem_map_of_mem List.mem_cons_self) rfl
    cases more with
    | nil =>
        rw [List.map_singleton, listed_singleton] at htext hleft
        rw [readFields_brace htext (hopensValue _)
          (hvalue _ (Nat.le_trans hshort hleft) (.inr (.inr rfl))), hnew]
    | cons next others =>
        have hopens : Opens (listed ((next :: others).map fieldLine) ++ '\x7d' :: rest) :=
          opens_fields next _
        rw [List.map_cons, List.map_cons, listed_cons_cons, ← List.map_cons] at htext hleft
        rw [List.append_assoc, List.cons_append, List.cons_append] at htext
        rw [List.length_append, List.length_cons, List.length_cons] at hleft
        rw [readFields_comma htext (hopensValue _) (hvalue _ (by omega) (.inl rfl)), hnew,
          hmore (List.cons_ne_nil _ _) left (done ++ [entry]) rest _
          (by simpa using hdistinct) (skipSpace_blank hopens) (by omega), List.append_assoc,
          List.singleton_append]
termination_by structural fields => fields

theorem readField_line : ∀ entry : String × Json, entryIsPlain entry = true →
    ∀ (fuel : Nat) (rest : List Char), (line entry.2).length ≤ fuel → Closes rest →
      readValue fuel (line entry.2 ++ rest) = .ok (entry.2, rest)
  | (_, value) => readValue_line value

end

/-- What is rendered is read back. -/
theorem read_render {value : Json} (h : value.isPlain = true) : read value.render = .ok value := by
  have hchars : value.render.toList = line value := rfl
  have hopens : Opens (line value ++ []) := opens_line h
  have hread : readValue (2 * (line value).length + 2) (line value ++ []) = .ok (value, []) :=
    readValue_line value h _ [] (by omega) trivial
  rw [List.append_nil] at hopens hread
  rw [read, hchars, hopens.skipSpace, hread]
  rfl

end ProgramAudit.Json
