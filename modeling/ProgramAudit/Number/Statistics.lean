import ProgramAudit.Number.Basic

/-!
Mean and deviation of doubles. Sums are exact and rounded once at the end, so no rounding of a
partial sum reaches the result.
-/

namespace ProgramAudit.Number

/-- Why a list of doubles has no exact sum: a partial sum passed the range of doubles, or
infinities of both signs met. -/
inductive SumFault where
  | overflow
  | opposed
deriving DecidableEq

/-- The value of a finite double in units of `2 ^ -1074`; other doubles count nothing. -/
def units (x : Float) : Int :=
  match binaryOf x with
  | .finite negative mantissa exponent => scaledValue negative mantissa exponent
  | _ => 0

def unitsPerOne : Nat := twoTo 1074

/-- Adds a double to partial sums that do not overlap: the rounding errors stay as partial sums and
the running sum comes last. -/
def addToPartials (x : Float) : List Float → List Float × Float
  | [] => ([], x)
  | held :: rest =>
    let larger := if x.abs < held.abs then held else x
    let smaller := if x.abs < held.abs then x else held
    let high := larger + smaller
    let low := smaller - (high - larger)
    let (kept, last) := addToPartials high rest
    (if low == 0.0 then (kept, last) else (low :: kept, last))

/-- Some running sum of the finite doubles passes the range, although each double is within it. -/
def overflowsPartially (partials : List Float) : List Float → Bool
  | [] => false
  | x :: rest =>
    let (kept, last) := addToPartials x partials
    if isFinite last then
      overflowsPartially (if last == 0.0 then kept else kept ++ [last]) rest
    else if isFinite x then true
    else overflowsPartially [] rest

def exactSum (values : List Float) : Except SumFault Float :=
  if overflowsPartially [] values then .error .overflow
  else
    let special := values.filter fun x => !isFinite x
    let infinities := special.filter fun x => !isUndefined x
    if special.isEmpty then
      let total := Number.total (values.map units)
      .ok (nearestDouble (total < 0) total.natAbs unitsPerOne)
    else if isUndefined (infinities.foldl (· + ·) 0.0) then .error .opposed
    else .ok (special.foldl (· + ·) 0.0)

def mean (values : List Float) : Except SumFault Float :=
  (exactSum values).map (· / Float.ofNat values.length)

/-- The largest natural whose square is at most a natural. -/
def integerRoot (n : Nat) : Nat :=
  if n = 0 then 0
  else
    let root := 2 * integerRoot (n / 4)
    if (root + 1) * (root + 1) ≤ n then root + 1 else root
termination_by n
decreasing_by omega

def bitLength (n : Nat) : Nat :=
  if n = 0 then 0 else Nat.log2 n + 1

/-- The integer root of a quotient, made odd if the root is not exact, so that one later rounding
cannot meet a false tie. -/
def oddRoot (numerator denominator : Nat) : Nat :=
  let root := integerRoot (numerator / denominator)
  if root * root * denominator = numerator then root else root ||| 1

/-- The double nearest to the square root of a quotient of naturals. -/
def nearestRoot (numerator denominator : Nat) : Float :=
  let shift : Int :=
    Int.fdiv ((bitLength numerator : Int) - (bitLength denominator : Int) - 109) 2
  if 0 ≤ shift then
    nearestDouble false
      (oddRoot numerator (denominator * twoTo (2 * shift.toNat)) * twoTo shift.toNat) 1
  else
    nearestDouble false (oddRoot (numerator * twoTo (2 * (-shift).toNat)) denominator)
      (twoTo (-shift).toNat)

/-- The population deviation, from the exact variance; none if a value is not finite. -/
def deviation? (values : List Float) : Option Float :=
  if values.all isFinite then
    let amounts := values.map units
    let count := values.length
    let total := Number.total amounts
    let squares := Number.total (amounts.map fun amount => amount * amount)
    let spread := (count : Int) * squares - total * total
    some (nearestRoot spread.toNat (count * count * (unitsPerOne * unitsPerOne)))
  else none

/-- The remainder of a finite double by a natural, with the sign of the double. -/
def remainderOf (x : Float) (divisor : Nat) : Float :=
  let amount := units x
  nearestDouble (amount < 0) (amount.natAbs % (divisor * unitsPerOne)) unitsPerOne

/-- The quotient of a double by a positive natural, rounded down in double arithmetic; none for a
double that is not finite. -/
def floorQuotient? (x : Float) (divisor : Nat) : Option Int :=
  if isFinite x then
    let remainder := remainderOf x divisor
    let exact := (x - remainder) / Float.ofNat divisor
    let lowered := if remainder < 0.0 then exact - 1.0 else exact
    let floor := lowered.floor
    integerPart? (if lowered - floor > 0.5 then floor + 1.0 else floor)
  else none

end ProgramAudit.Number
