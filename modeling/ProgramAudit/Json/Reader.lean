import ProgramAudit.Json.Basic
import ProgramAudit.Number.Reading

/-!
The text of a value, read from the left. A value ends where its text ends, and a fault stops the
reading.
-/

namespace ProgramAudit.Json

open Number Text

/-- Why a text is no JSON value: its form is wrong, or an integer has too many digits. -/
inductive ReadFault where
  | malformed
  | digitLimit
deriving DecidableEq

abbrev Read (α : Type) := Except ReadFault (α × List Char)

def isSpace (c : Char) : Bool :=
  c = ' ' || c = '\t' || c = '\n' || c = '\r'

def skipSpace (text : List Char) : List Char :=
  text.dropWhile isSpace

def hexValue? (c : Char) : Option Nat :=
  if '0' ≤ c ∧ c ≤ '9' then some (c.toNat - '0'.toNat)
  else if 'a' ≤ c ∧ c ≤ 'f' then some (c.toNat - 'a'.toNat + 10)
  else if 'A' ≤ c ∧ c ≤ 'F' then some (c.toNat - 'A'.toNat + 10)
  else none

/-- The code unit of four hexadecimal digits. -/
def readUnit? : List Char → Option (Nat × List Char)
  | a :: b :: c :: d :: rest =>
    match hexValue? a, hexValue? b, hexValue? c, hexValue? d with
    | some a, some b, some c, some d => some (4096 * a + 256 * b + 16 * c + d, rest)
    | _, _, _, _ => none
  | _ => none

def isHighUnit (unit : Nat) : Bool :=
  0xd800 ≤ unit && unit < 0xdc00

def isLowUnit (unit : Nat) : Bool :=
  0xdc00 ≤ unit && unit < 0xe000

/-- The code point of two code units. -/
def joinUnits (high low : Nat) : Char :=
  Char.ofNat (0x10000 + 0x400 * (high - 0xd800) + (low - 0xdc00))

/-- A unit without its partner has no code point of its own. -/
def unitChar (unit : Nat) : Char :=
  if isHighUnit unit || isLowUnit unit then '\ufffd' else Char.ofNat unit

def shortEscape? (c : Char) : Option Char :=
  if c = '"' ∨ c = '\\' ∨ c = '/' then some c
  else if c = 'b' then some '\x08'
  else if c = 'f' then some '\x0c'
  else if c = 'n' then some '\n'
  else if c = 'r' then some '\r'
  else if c = 't' then some '\t'
  else none

/-- One escaped character behind the backslash. -/
def readEscape? : List Char → Option (Char × List Char)
  | 'u' :: rest =>
    match readUnit? rest with
    | none => none
    | some (unit, rest) =>
      match rest with
      | '\\' :: 'u' :: more =>
        match readUnit? more with
        | some (low, after) =>
          if isHighUnit unit && isLowUnit low then some (joinUnits unit low, after)
          else some (unitChar unit, rest)
        | none => some (unitChar unit, rest)
      | _ => some (unitChar unit, rest)
  | c :: rest => (shortEscape? c).map fun decoded => (decoded, rest)
  | [] => none

/-- The characters up to the closing quote, in reverse behind those already read. -/
def readStringBody (fuel : Nat) (done : List Char) (text : List Char) : Read String :=
  match fuel, text with
  | 0, _ => .error .malformed
  | _, [] => .error .malformed
  | fuel + 1, c :: rest =>
    if c = '"' then .ok (String.ofList done.reverse, rest)
    else if c = '\\' then
      match readEscape? rest with
      | some (decoded, rest) => readStringBody fuel (decoded :: done) rest
      | none => .error .malformed
    else if c.toNat < 0x20 then .error .malformed
    else readStringBody fuel (c :: done) rest

/-- The digits of the integer part: a single zero, or digits that do not start with zero. -/
def takeWhole (text : List Char) : List Char × List Char :=
  match text with
  | '0' :: rest => (['0'], rest)
  | _ => (text.takeWhile Char.isDigit, text.dropWhile Char.isDigit)

def takeFraction (text : List Char) : List Char × List Char :=
  match text with
  | '.' :: rest =>
    let digits := rest.takeWhile Char.isDigit
    if digits.isEmpty then ([], text) else (digits, rest.dropWhile Char.isDigit)
  | _ => ([], text)

/-- The exponent with its sign, if a digit follows the mark. -/
def takeExponent (text : List Char) : Option Int × List Char :=
  match text with
  | mark :: rest =>
    if mark = 'e' ∨ mark = 'E' then
      let (negative, body) := takeSign rest
      let digits := body.takeWhile Char.isDigit
      if digits.isEmpty then (none, text)
      else
        let value : Int := digitsValue (digitsOf digits)
        (some (if negative then -value else value), body.dropWhile Char.isDigit)
    else (none, text)
  | [] => (none, text)

/-- A number without fraction and exponent is an integer, any other a double. -/
def readNumber (text : List Char) : Read Json :=
  let (negative, body) :=
    match text with
    | '-' :: rest => (true, rest)
    | _ => (false, text)
  let (whole, rest) := takeWhole body
  if whole.isEmpty then .error .malformed
  else
    let (fraction, rest) := takeFraction rest
    let (exponent, rest) := takeExponent rest
    if fraction.isEmpty && exponent.isNone then
      if whole.length > integerDigitLimit then .error .digitLimit
      else
        let value : Int := digitsValue (digitsOf whole)
        .ok (.int (if negative then -value else value), rest)
    else
      let numeral : Numeral := ⟨whole ++ fraction, fraction.length, exponent.getD 0⟩
      .ok (.real (numeral.value negative), rest)

def dropWord? : List Char → List Char → Option (List Char)
  | [], text => some text
  | _, [] => none
  | expected :: word, c :: rest => if expected = c then dropWord? word rest else none

/-- The words that stand for a value. -/
def words : List (List Char × Json) :=
  [("null".toList, .null), ("true".toList, .bool true), ("false".toList, .bool false),
    ("NaN".toList, .real (Float.ofBits 0x7ff8000000000000)), ("Infinity".toList, .real infinity),
    ("-Infinity".toList, .real (-infinity))]

def readWord? (text : List Char) : Option (Json × List Char) :=
  words.findSome? fun (word, value) => (dropWord? word text).map fun rest => (value, rest)

mutual

def readValue (fuel : Nat) (text : List Char) : Read Json :=
  match fuel with
  | 0 => .error .malformed
  | fuel + 1 =>
    match text with
    | '"' :: rest => (readStringBody (rest.length + 1) [] rest).map fun (s, rest) => (.str s, rest)
    | '[' :: rest =>
      match skipSpace rest with
      | ']' :: rest => .ok (.arr [], rest)
      | rest => readItems fuel [] rest
    | '\x7b' :: rest =>
      match skipSpace rest with
      | '\x7d' :: rest => .ok (.obj [], rest)
      | rest => readFields fuel [] rest
    | _ =>
      match readWord? text with
      | some result => .ok result
      | none => readNumber text
termination_by structural fuel

/-- The items of a list up to its end, in reverse behind those already read. -/
def readItems (fuel : Nat) (done : List Json) (text : List Char) : Read Json :=
  match fuel with
  | 0 => .error .malformed
  | fuel + 1 =>
    match readValue fuel (skipSpace text) with
    | .error fault => .error fault
    | .ok (item, rest) =>
      match skipSpace rest with
      | ',' :: rest => readItems fuel (item :: done) rest
      | ']' :: rest => .ok (.arr (item :: done).reverse, rest)
      | _ => .error .malformed
termination_by structural fuel

/-- The fields of an object up to its end; a repeated name keeps its first place and its last
value. -/
def readFields (fuel : Nat) (done : List (String × Json)) (text : List Char) : Read Json :=
  match fuel with
  | 0 => .error .malformed
  | fuel + 1 =>
    match skipSpace text with
    | '"' :: rest =>
      match readStringBody (rest.length + 1) [] rest with
      | .error fault => .error fault
      | .ok (name, rest) =>
        match skipSpace rest with
        | ':' :: rest =>
          match readValue fuel (skipSpace rest) with
          | .error fault => .error fault
          | .ok (value, rest) =>
            match skipSpace rest with
            | ',' :: rest => readFields fuel (setField name value done) rest
            | '\x7d' :: rest => .ok (.obj (setField name value done), rest)
            | _ => .error .malformed
        | _ => .error .malformed
    | _ => .error .malformed
termination_by structural fuel

end

/-- Reads a text that holds one value and blanks around it. -/
def read (text : String) : Except ReadFault Json :=
  let chars := text.toList
  match readValue (2 * chars.length + 2) (skipSpace chars) with
  | .error fault => .error fault
  | .ok (value, rest) => if (skipSpace rest).isEmpty then .ok value else .error .malformed

end ProgramAudit.Json
