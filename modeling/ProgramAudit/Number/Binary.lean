/-!
Doubles as exact dyadic numbers. A quotient of naturals is rounded once, to the nearest double with
a half to the even neighbour, so reading and writing decimals need no arithmetic on doubles.
-/

namespace ProgramAudit.Number

def twoTo (exponent : Nat) : Nat := Nat.pow 2 exponent

def tenTo (exponent : Nat) : Nat := Nat.pow 10 exponent

def total (amounts : List Int) : Int := amounts.foldr (· + ·) 0

/-- What a double stands for: a signed dyadic number, an infinity or nothing. -/
inductive Binary where
  | finite (negative : Bool) (mantissa : Nat) (exponent : Int)
  | infinite (negative : Bool)
  | undefined
deriving DecidableEq

/-- Reads the sign, the exponent field and the fraction field of a double. -/
def binaryOf (x : Float) : Binary :=
  let bits : Nat := x.toBits.toNat
  let negative := bits / twoTo 63 == 1
  let field : Nat := bits / twoTo 52 % twoTo 11
  let fraction : Nat := bits % twoTo 52
  if field = 2047 then
    if fraction = 0 then .infinite negative else .undefined
  else if field = 0 then .finite negative fraction (-1074)
  else .finite negative (twoTo 52 + fraction) ((field : Int) - 1075)

def isFinite (x : Float) : Bool :=
  match binaryOf x with
  | .finite .. => true
  | _ => false

def isUndefined (x : Float) : Bool :=
  binaryOf x == .undefined

/-- The quotient of two naturals, to the nearest integer; a half goes to the even neighbour. -/
def roundQuotient (numerator denominator : Nat) : Nat :=
  let quotient := numerator / denominator
  let twice := 2 * (numerator % denominator)
  if twice < denominator then quotient
  else if denominator < twice then quotient + 1
  else if quotient % 2 = 0 then quotient else quotient + 1

/-- Multiplies by a power of two, which may be a fraction: numerator and denominator. -/
def scaleByTwo (numerator denominator : Nat) (exponent : Int) : Nat × Nat :=
  if 0 ≤ exponent then (numerator * twoTo exponent.toNat, denominator)
  else (numerator, denominator * twoTo (-exponent).toNat)

def signBit (negative : Bool) : Nat :=
  if negative then twoTo 63 else 0

/-- The double nearest to a quotient of naturals; a tie goes to the even mantissa, and a value past
the largest double to infinity. -/
def nearestDouble (negative : Bool) (numerator denominator : Nat) : Float :=
  let estimate : Int := (Nat.log2 numerator : Int) - (Nat.log2 denominator : Int) - 53
  let low := scaleByTwo numerator denominator (-estimate)
  let normal := if low.1 < twoTo 53 * low.2 then estimate else estimate + 1
  let exponent := max normal (-1074)
  let scaled := scaleByTwo numerator denominator (-exponent)
  let mantissa := roundQuotient scaled.1 scaled.2
  let bits :=
    if mantissa < twoTo 52 then mantissa
    else (exponent + 1074).toNat * twoTo 52 + mantissa
  let bounded := if 2047 * twoTo 52 ≤ bits then 2047 * twoTo 52 else bits
  Float.ofBits (UInt64.ofNat (signBit negative + bounded))

def infinity : Float := Float.ofBits 0x7ff0000000000000

/-- The double nearest to an integer, if it is within the range of doubles. -/
def doubleOfInt? (n : Int) : Option Float :=
  let x := nearestDouble (n < 0) n.natAbs 1
  if isFinite x then some x else none

end ProgramAudit.Number
