import ProgramAudit.Number.Binary

/-!
The decimal text of a double: the fewest digits that read back, and of those the nearest to it.
-/

namespace ProgramAudit.Number

/-- A positive decimal number `digits · 10 ^ exponent`. -/
structure Decimal where
  digits : Nat
  exponent : Int
deriving DecidableEq

def Decimal.numerator (decimal : Decimal) : Nat :=
  decimal.digits * tenTo decimal.exponent.toNat

def Decimal.denominator (decimal : Decimal) : Nat :=
  tenTo (-decimal.exponent).toNat

def Decimal.nearest (decimal : Decimal) : Float :=
  nearestDouble false decimal.numerator decimal.denominator

/-- Drops the zeros at the end of the digits. -/
def Decimal.normalize (fuel : Nat) (decimal : Decimal) : Decimal :=
  match fuel with
  | 0 => decimal
  | fuel + 1 =>
    if decimal.digits ≠ 0 ∧ decimal.digits % 10 = 0 then
      Decimal.normalize fuel ⟨decimal.digits / 10, decimal.exponent + 1⟩
    else decimal

/-- The exponent of the leading decimal digit of a positive quotient. -/
def leadingExponent (numerator denominator : Nat) : Int :=
  if denominator ≤ numerator then
    ((Nat.toDigits 10 (numerator / denominator)).length : Int) - 1
  else
    let quotient := (denominator + numerator - 1) / numerator
    Int.negOfNat (Nat.toDigits 10 (quotient - 1)).length

/-- The better of the two neighbours of a positive quotient on the grid with a number of digits, if
one of them reads back as the double. -/
def gridDecimal? (x : Float) (numerator denominator : Nat) (exponent : Int) : Option Decimal :=
  let scale := fun (d : Decimal) => (d.numerator * denominator, numerator * d.denominator)
  let unit : Decimal := ⟨1, exponent⟩
  let below : Decimal := ⟨numerator * unit.denominator / (denominator * unit.numerator), exponent⟩
  let above : Decimal := ⟨below.digits + 1, exponent⟩
  let distanceBelow := (scale below).2 - (scale below).1
  let distanceAbove := (scale above).1 - (scale above).2
  match below.nearest == x, above.nearest == x with
  | true, true =>
    if distanceBelow < distanceAbove then some below
    else if distanceAbove < distanceBelow then some above
    else if below.digits % 2 = 0 then some below else some above
  | true, false => some below
  | false, true => some above
  | false, false => none

/-- The shortest decimal that reads back as a positive double, the nearest of them if there are
several; seventeen digits always suffice. -/
def shortestDecimal (x : Float) (mantissa : Nat) (exponent : Int) : Decimal :=
  let value := scaleByTwo mantissa 1 exponent
  let leading := leadingExponent value.1 value.2
  let grids := (List.range 17).map fun (count : Nat) => leading - (count : Int)
  match grids.findSome? (gridDecimal? x value.1 value.2) with
  | some decimal => decimal.normalize 20
  | none => ⟨mantissa, exponent⟩

/-- How a decimal is written: which exponents of the leading digit are written with a point in
place, and the least number of digits of an exponent. -/
structure DecimalStyle where
  pointFrom : Int
  pointBelow : Int
  exponentDigits : Nat

/-- Numbers are written in place from a tenth of a thousandth up to ten to the sixteenth. -/
def realStyle : DecimalStyle := ⟨-4, 16, 2⟩

def padLeft (width : Nat) (digits : List Char) : List Char :=
  List.replicate (width - digits.length) '0' ++ digits

def DecimalStyle.write (style : DecimalStyle) (decimal : Decimal) : List Char :=
  let digits := Nat.toDigits 10 decimal.digits
  let count : Int := digits.length
  let leading := decimal.exponent + count - 1
  if style.pointFrom ≤ leading ∧ leading < style.pointBelow then
    if 0 ≤ decimal.exponent then
      digits ++ List.replicate decimal.exponent.toNat '0' ++ ['.', '0']
    else if 0 ≤ leading then
      digits.take (leading + 1).toNat ++ '.' :: digits.drop (leading + 1).toNat
    else '0' :: '.' :: List.replicate (-leading - 1).toNat '0' ++ digits
  else
    let head := digits.take 1
    let tail := digits.drop 1
    let point := if tail.isEmpty then [] else '.' :: tail
    let sign := if leading < 0 then '-' else '+'
    let exponent := padLeft style.exponentDigits (Nat.toDigits 10 leading.natAbs)
    head ++ point ++ 'e' :: sign :: exponent

/-- The text of a double: the shortest digits that read back, always with a point or an exponent. -/
def realText (x : Float) : String :=
  match binaryOf x with
  | .undefined => "nan"
  | .infinite negative => if negative then "-inf" else "inf"
  | .finite negative mantissa exponent =>
    let sign := if negative then ['-'] else []
    let body :=
      if mantissa = 0 then ['0', '.', '0']
      else
        let magnitude := if negative then -x else x
        realStyle.write (shortestDecimal magnitude mantissa exponent)
    String.ofList (sign ++ body)

end ProgramAudit.Number
