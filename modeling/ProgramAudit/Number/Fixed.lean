import ProgramAudit.Number.Shortest

namespace ProgramAudit.Number

/-- A fixed number of decimal places; a half goes to the even neighbour. -/
structure FixedStyle where
  places : Nat

/-- The exact value of a double times a power of ten, rounded to an integer. -/
def scaledMagnitude (places mantissa : Nat) (exponent : Int) : Nat :=
  let value := scaleByTwo (mantissa * tenTo places) 1 exponent
  roundQuotient value.1 value.2

def FixedStyle.write (style : FixedStyle) (magnitude : Nat) : List Char :=
  let digits := padLeft (style.places + 1) (Nat.toDigits 10 magnitude)
  let split := digits.length - style.places
  if style.places = 0 then digits else digits.take split ++ '.' :: digits.drop split

def FixedStyle.text (style : FixedStyle) (x : Float) : String :=
  match binaryOf x with
  | .undefined => "nan"
  | .infinite negative => if negative then "-inf" else "inf"
  | .finite negative mantissa exponent =>
    let sign := if negative then ['-'] else []
    String.ofList (sign ++ style.write (scaledMagnitude style.places mantissa exponent))

/-- The double nearest to the decimal that a double rounds to. -/
def roundToPlaces (places : Nat) (x : Float) : Float :=
  match binaryOf x with
  | .finite negative mantissa exponent =>
    nearestDouble negative (scaledMagnitude places mantissa exponent) (tenTo places)
  | _ => x

end ProgramAudit.Number
