import ProgramAudit.Number.Binary
import ProgramAudit.Text.Blank
import ProgramAudit.Text.Digit

/-!
Numerals as people write them: digits of any script, underscores between digits, blanks around.
-/

namespace ProgramAudit.Number

open Text

/-- The blanks that may surround a numeral. The four separators of ASCII are not among them. -/
def isMargin (c : Char) : Bool :=
  isBlank c && !(0x1c ≤ c.toNat && c.toNat ≤ 0x1f)

/-- Digits of any script become ASCII digits, blanks at the ends go, and everything else stays. -/
def plainNumeral (text : String) : List Char :=
  (trimWhere isMargin text.toList).map fun c =>
    match digitValue? c with
    | some value => Nat.digitChar value
    | none => c

def takeSign : List Char → Bool × List Char
  | '-' :: rest => (true, rest)
  | '+' :: rest => (false, rest)
  | text => (false, text)

/-- Drops the underscores of a numeral; each has to stand between two digits. -/
def joinDigitGroups (previous : Char) : List Char → Option (List Char)
  | [] => some []
  | '_' :: next :: rest =>
    if previous.isDigit && next.isDigit then
      (joinDigitGroups next rest).map (next :: ·)
    else none
  | ['_'] => none
  | c :: rest => (joinDigitGroups c rest).map (c :: ·)

def digitsOf (digits : List Char) : List Nat :=
  digits.map fun c => c.toNat - '0'.toNat

/-- The longest numeral that is read as an integer. -/
def integerDigitLimit : Nat := 4300

/-- Reads a sign and decimal digits; none without a digit, with any other character or with more
digits than the limit. -/
def readInteger? (text : String) : Option Int :=
  let (negative, rest) := takeSign (plainNumeral text)
  match joinDigitGroups ' ' rest with
  | none => none
  | some digits =>
    if digits.isEmpty || !digits.all Char.isDigit || digits.length > integerDigitLimit then none
    else
      let value : Int := digitsValue (digitsOf digits)
      some (if negative then -value else value)

/-- A decimal numeral: its digits with the point taken out, the number of digits behind the point
and the exponent. -/
structure Numeral where
  digits : List Char
  places : Nat
  exponent : Int

/-- Reads the exponent part, which may be absent. -/
def readExponent? : List Char → Option Int
  | [] => some 0
  | mark :: rest =>
    if mark = 'e' ∨ mark = 'E' then
      let (negative, digits) := takeSign rest
      if digits.isEmpty || !digits.all Char.isDigit then none
      else
        let value : Int := digitsValue (digitsOf digits)
        some (if negative then -value else value)
    else none

def readNumeral? (text : List Char) : Option Numeral :=
  let whole := text.takeWhile Char.isDigit
  let rest := text.dropWhile Char.isDigit
  let (fraction, tail) :=
    match rest with
    | '.' :: tail => (tail.takeWhile Char.isDigit, tail.dropWhile Char.isDigit)
    | _ => ([], rest)
  if whole.isEmpty && fraction.isEmpty then none
  else (readExponent? tail).map fun exponent => ⟨whole ++ fraction, fraction.length, exponent⟩

/-- Exponents past this bound make every numeral zero or infinite. -/
def exponentBound (digitCount : Nat) : Int := 400 + digitCount

def Numeral.value (numeral : Numeral) (negative : Bool) : Float :=
  let mantissa := digitsValue (digitsOf numeral.digits)
  let bound := exponentBound numeral.digits.length
  let exponent := max (-bound) (min bound (numeral.exponent - numeral.places))
  if mantissa = 0 then nearestDouble negative 0 1
  else if 0 ≤ exponent then nearestDouble negative (mantissa * tenTo exponent.toNat) 1
  else nearestDouble negative mantissa (tenTo (-exponent).toNat)

def signed (negative : Bool) (x : Float) : Float :=
  if negative then -x else x

/-- Reads a decimal number, or the words for infinity and for no number in any case. -/
def readReal? (text : String) : Option Float :=
  match joinDigitGroups ' ' (plainNumeral text) with
  | none => none
  | some plain =>
    let (negative, body) := takeSign plain
    let word := String.ofList (body.map Char.toLower)
    if word = "inf" ∨ word = "infinity" then some (signed negative infinity)
    else if word = "nan" then some (Float.ofBits 0x7ff8000000000000)
    else (readNumeral? body).map fun numeral => numeral.value negative

end ProgramAudit.Number
