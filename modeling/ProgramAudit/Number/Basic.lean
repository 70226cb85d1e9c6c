import ProgramAudit.Number.Shortest

namespace ProgramAudit

inductive Number where
  | int (value : Int)
  | real (value : Float)
deriving Inhabited, DecidableEq

namespace Number

instance : OfNat Number n := ⟨.int n⟩

instance : OfScientific Number where
  ofScientific mantissa negative exponent :=
    .real (OfScientific.ofScientific mantissa negative exponent)

/-- An integer past the range of doubles has none. -/
def toReal? : Number → Option Float
  | .int value => doubleOfInt? value
  | .real value => some value

/-- The double of a quantity; past the range it is the infinity of its sign. -/
def toReal : Number → Float
  | .int value => nearestDouble (value < 0) value.natAbs 1
  | .real value => value

def text : Number → String
  | .int value => toString value
  | .real value => realText value

/-- Two integers are joined exactly, any other pair as doubles. -/
def join? (exact : Int → Int → Int) (rounded : Float → Float → Float) :
    Number → Number → Option Number
  | .int left, .int right => some (.int (exact left right))
  | left, right =>
    match left.toReal?, right.toReal? with
    | some left, some right => some (.real (rounded left right))
    | _, _ => none

def add? : Number → Number → Option Number := join? (· + ·) (· + ·)

def sub? : Number → Number → Option Number := join? (· - ·) (· - ·)

def mul? : Number → Number → Option Number := join? (· * ·) (· * ·)

/-- The value of a finite double times `2 ^ 1074`, which is an integer. -/
def scaledValue (negative : Bool) (mantissa : Nat) (exponent : Int) : Int :=
  let magnitude : Int := mantissa * twoTo (exponent + 1074).toNat
  if negative then -magnitude else magnitude

/-- Compares an integer with a double by their exact values. -/
def compareMixed (left : Int) (right : Float) : Option Ordering :=
  match binaryOf right with
  | .undefined => none
  | .infinite negative => some (if negative then .gt else .lt)
  | .finite negative mantissa exponent =>
    some (compare (left * twoTo 1074) (scaledValue negative mantissa exponent))

def compareReal (left right : Float) : Option Ordering :=
  if left < right then some .lt
  else if right < left then some .gt
  else if left == right then some .eq
  else none

/-- The order of two quantities by their exact values; none beside an undefined double. -/
def compare? : Number → Number → Option Ordering
  | .int left, .int right => some (compare left right)
  | .int left, .real right => compareMixed left right
  | .real left, .int right => (compareMixed right left).map Ordering.swap
  | .real left, .real right => compareReal left right

def less (left right : Number) : Bool :=
  left.compare? right == some .lt

def atMost (left right : Number) : Bool :=
  match left.compare? right with
  | some order => order.isLE
  | none => false

def same (left right : Number) : Bool :=
  left.compare? right == some .eq

/-- Drops the fraction; infinities and undefined doubles have no integer part. -/
def integerPart? (x : Float) : Option Int :=
  match binaryOf x with
  | .finite negative mantissa exponent =>
    let magnitude : Nat :=
      if 0 ≤ exponent then mantissa * twoTo exponent.toNat else mantissa / twoTo (-exponent).toNat
    some (if negative then -(magnitude : Int) else magnitude)
  | _ => none

/-- The double nearest to a quotient of integers; none past the range of doubles. -/
def quotient? (numerator denominator : Int) : Option Float :=
  let negative := decide (numerator < 0) != decide (denominator < 0)
  let x := nearestDouble negative numerator.natAbs denominator.natAbs
  if numerator = 0 then some 0.0
  else if isFinite x then some x else none

/-- Sums from the left, starting from the integer zero; doubles stay doubles. -/
def sum (values : List Float) : Number :=
  match values with
  | [] => 0
  | values => .real (values.foldl (· + ·) 0.0)

end Number

end ProgramAudit
