import Mathlib.Tactic.SplitIfs
import ProgramAudit.Json.Reader
import ProgramAudit.Json.Writer

/-!
A written string is read back, with the text behind it left over. So a string ends where its own
text says, and two strings that are written alike are one.
-/

namespace ProgramAudit.Json

open Text

variable {rest : List Char}

/-! ### Units -/

theorem hexValue?_digitChar {digit : Nat} (h : digit < 16) :
    hexValue? (Nat.digitChar digit) = some digit := by
  have hall : ∀ digit : Fin 16, hexValue? (Nat.digitChar digit) = some digit.val := by decide
  exact hall ⟨digit, h⟩

theorem hexPadded_four {code : Nat} (h : code < 0x10000) :
    hexPadded 4 code = [Nat.digitChar (code / 4096), Nat.digitChar (code / 256 % 16),
      Nat.digitChar (code / 16 % 16), Nat.digitChar (code % 16)] := by
  have hstep {value : Nat} (hvalue : 16 ≤ value) :
      Nat.toDigits 16 value = Nat.toDigits 16 (value / 16) ++ [Nat.digitChar (value % 16)] :=
    Nat.toDigits_of_base_le (by decide) hvalue
  have hlast {value : Nat} (hvalue : value < 16) :
      Nat.toDigits 16 value = [Nat.digitChar value] :=
    Nat.toDigits_of_lt_base hvalue
  have hzero {value : Nat} (hvalue : value = 0) : Nat.digitChar value = '0' := by
    rw [hvalue]
    rfl
  unfold hexPadded
  by_cases hone : code < 16
  · rw [hlast hone, hzero (by omega : code / 4096 = 0), hzero (by omega : code / 256 % 16 = 0),
      hzero (by omega : code / 16 % 16 = 0), Nat.mod_eq_of_lt hone]
    rfl
  · rw [hstep (Nat.le_of_not_lt hone)]
    by_cases htwo : code / 16 < 16
    · rw [hlast htwo, hzero (by omega : code / 4096 = 0), hzero (by omega : code / 256 % 16 = 0),
        Nat.mod_eq_of_lt htwo]
      rfl
    · rw [hstep (Nat.le_of_not_lt htwo), Nat.div_div_eq_div_mul]
      by_cases hthree : code / 256 < 16
      · rw [hlast hthree, hzero (by omega : code / 4096 = 0), Nat.mod_eq_of_lt hthree]
        rfl
      · rw [hstep (Nat.le_of_not_lt hthree), Nat.div_div_eq_div_mul, hlast (by omega)]
        rfl

theorem readUnit?_hexPadded {code : Nat} (h : code < 0x10000) :
    readUnit? (hexPadded 4 code ++ rest) = some (code, rest) := by
  have hdigits : 4096 * (code / 4096) + 256 * (code / 256 % 16) + 16 * (code / 16 % 16) +
      code % 16 = code := by omega
  rw [hexPadded_four h]
  simp only [List.cons_append, List.nil_append, readUnit?,
    hexValue?_digitChar (by omega : code / 4096 < 16),
    hexValue?_digitChar (by omega : code / 256 % 16 < 16),
    hexValue?_digitChar (by omega : code / 16 % 16 < 16),
    hexValue?_digitChar (by omega : code % 16 < 16), hdigits]

/-- A unit that cannot be the first of two is a character, whatever follows. -/
theorem readEscape?_unit {unit : Nat} (h : unit < 0x10000) (hsingle : isHighUnit unit = false) :
    readEscape? ('u' :: (hexPadded 4 unit ++ rest)) = some (unitChar unit, rest) := by
  simp only [readEscape?, readUnit?_hexPadded h, hsingle, Bool.false_and]
  split
  · split <;> rfl
  · rfl

theorem readEscape?_pair {high low : Nat} (hhigh : isHighUnit high = true)
    (hlow : isLowUnit low = true) :
    readEscape? ('u' :: (hexPadded 4 high ++ (unitEscape low ++ rest))) =
      some (joinUnits high low, rest) := by
  have hbounds : high < 0x10000 ∧ low < 0x10000 := by
    simp only [isHighUnit, isLowUnit, Bool.and_eq_true, decide_eq_true_eq] at hhigh hlow
    omega
  simp only [readEscape?, unitEscape, List.cons_append, readUnit?_hexPadded hbounds.1,
    readUnit?_hexPadded hbounds.2, hhigh, hlow, Bool.and_true, if_true]

/-! ### Characters -/

/-- No character has a code point among the units of a pair. -/
theorem code_bounds (c : Char) : c.toNat < 0xd800 ∨ 0xdfff < c.toNat ∧ c.toNat < 0x110000 :=
  c.valid

theorem readEscape?_plane {c : Char} (h : c.toNat < 0x10000) :
    readEscape? ('u' :: (hexPadded 4 c.toNat ++ rest)) = some (c, rest) := by
  have hsingle : isHighUnit c.toNat = false ∧ isLowUnit c.toNat = false := by
    simp only [isHighUnit, isLowUnit, Bool.and_eq_false_iff, decide_eq_false_iff_not]
    have hcode := code_bounds c
    omega
  rw [readEscape?_unit h hsingle.1, unitChar, hsingle.1, hsingle.2]
  simp [Char.ofNat_toNat]

theorem readEscape?_past {c : Char} (h : 0x10000 ≤ c.toNat) :
    readEscape? ('u' :: (hexPadded 4 (0xd800 + (c.toNat - 0x10000) / 0x400) ++
      (unitEscape (0xdc00 + (c.toNat - 0x10000) % 0x400) ++ rest))) = some (c, rest) := by
  have hcode := code_bounds c
  rw [readEscape?_pair]
  · have hjoined : 0x10000 + 0x400 * (0xd800 + (c.toNat - 0x10000) / 0x400 - 0xd800) +
        (0xdc00 + (c.toNat - 0x10000) % 0x400 - 0xdc00) = c.toNat := by omega
    rw [joinUnits, hjoined, Char.ofNat_toNat]
  · simp only [isHighUnit, Bool.and_eq_true, decide_eq_true_eq]
    omega
  · simp only [isLowUnit, Bool.and_eq_true, decide_eq_true_eq]
    omega

/-- One written character is read as itself; the cases are those of the writer. -/
theorem readStringBody_escapeText (fuel : Nat) (done : List Char) (c : Char) :
    readStringBody (fuel + 1) done (escapeText c ++ rest) =
      readStringBody fuel (c :: done) rest := by
  have hescaped {escape : List Char}
      (h : readEscape? (escape ++ rest) = some (c, rest)) :
      readStringBody (fuel + 1) done ('\\' :: escape ++ rest) =
        readStringBody fuel (c :: done) rest := by
    rw [List.cons_append, readStringBody]
    simp [h]
  unfold escapeText
  split_ifs with hmark hnewline hreturn htab hback hfeed hplain hplane
  · refine @hescaped [c] ?_
    obtain rfl | rfl := hmark <;> rfl
  · subst hnewline
    exact @hescaped ['n'] rfl
  · subst hreturn
    exact @hescaped ['r'] rfl
  · subst htab
    exact @hescaped ['t'] rfl
  · subst hback
    exact @hescaped ['b'] rfl
  · subst hfeed
    exact @hescaped ['f'] rfl
  · obtain ⟨hquote, hslash⟩ := not_or.mp hmark
    rw [List.singleton_append, readStringBody, if_neg hquote, if_neg hslash, if_neg (by omega)]
  · exact @hescaped ('u' :: hexPadded 4 c.toNat) (readEscape?_plane hplane)
  · refine @hescaped ('u' :: hexPadded 4 _ ++ unitEscape _) ?_
    rw [List.cons_append, List.cons_append, List.append_assoc]
    exact readEscape?_past (Nat.le_of_not_lt hplane)

/-! ### Strings -/

theorem readStringBody_written (text : List Char) (fuel : Nat) (done : List Char)
    (h : text.length < fuel) :
    readStringBody fuel done (text.flatMap escapeText ++ '"' :: rest) =
      .ok (String.ofList (done.reverse ++ text), rest) := by
  induction text generalizing fuel done with
  | nil =>
      obtain ⟨fuel, rfl⟩ := Nat.exists_eq_succ_of_ne_zero (by omega : fuel ≠ 0)
      simp [readStringBody]
  | cons c text ih =>
      obtain ⟨fuel, rfl⟩ := Nat.exists_eq_succ_of_ne_zero (by omega : fuel ≠ 0)
      rw [List.flatMap_cons, List.append_assoc, readStringBody_escapeText,
        ih fuel (c :: done) (by simpa using h)]
      simp

/-- A written string says itself where it ends. -/
theorem writeString_append_inj {text other rest others : String}
    (h : writeString text ++ rest = writeString other ++ others) :
    text = other ∧ rest = others := by
  have hbody : text.toList.flatMap escapeText ++ '"' :: rest.toList =
      other.toList.flatMap escapeText ++ '"' :: others.toList := by
    simpa [writeString] using congrArg String.toList h
  let fuel := text.toList.length + other.toList.length + 1
  have hleft := @readStringBody_written rest.toList text.toList fuel [] (by omega)
  have hright := @readStringBody_written others.toList other.toList fuel [] (by omega)
  rw [hbody, hright] at hleft
  simpa [eq_comm, String.toList_inj] using hleft

theorem writeString_injective : Function.Injective writeString := by
  intro text other h
  exact (writeString_append_inj (congrArg (· ++ "") h)).1

/-! ### Texts on a line -/

mutual

theorem write_line (depth : Nat) : ∀ value : Json, write .line depth value = value.render
  | .null | .bool _ | .int _ | .real _ | .str _ => rfl
  | .arr items => by
    rw [render, write, write, writeAll_line (depth + 1) items, writeAll_line (0 + 1) items]
    rfl
  | .obj fields => by
    rw [render, write, write, writeFields_line (depth + 1) fields, writeFields_line (0 + 1) fields]
    rfl
termination_by structural value => value

theorem writeAll_line (depth : Nat) :
    ∀ items : List Json, writeAll .line depth items = items.map render
  | [] => rfl
  | item :: rest => by
    rw [writeAll, write_line depth item, writeAll_line depth rest, List.map_cons]
termination_by structural items => items

theorem writeFields_line (depth : Nat) : ∀ fields : List (String × Json),
    writeFields .line depth fields =
      fields.map fun entry => writeString entry.1 ++ ": " ++ entry.2.render
  | [] => rfl
  | entry :: rest => by
    rw [writeFields, writeField_line depth entry, writeFields_line depth rest, List.map_cons]
termination_by structural fields => fields

theorem writeField_line (depth : Nat) : ∀ entry : String × Json,
    writeField .line depth entry = writeString entry.1 ++ ": " ++ entry.2.render
  | (name, value) => by
    rw [writeField, write_line depth value]
    rfl
termination_by structural entry => entry

end

end ProgramAudit.Json
