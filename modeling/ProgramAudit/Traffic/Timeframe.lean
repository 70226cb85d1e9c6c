import ProgramAudit.Number.Checked
import ProgramAudit.Number.Reading
import ProgramAudit.Text.Case
import ProgramAudit.Ledger.Transaction

namespace ProgramAudit.Traffic.Timeframe

open Text

/-- The seconds of a unit letter in lower case. -/
def unitSeconds? : Char → Option Int
  | 's' => some 1
  | 'm' => some 60
  | 'h' => some 3600
  | 'd' => some 86400
  | 'w' => some 604800
  | _ => none

/-- The unit letters in either case. The long s counts as a letter of the unit s, and has no
seconds. -/
def isUnit (c : Char) : Bool :=
  (unitSeconds? c.toLower).isSome || c == 'ſ'

/-- An amount of digits of any script and a unit letter, with blanks around each. -/
def split? (text : List Char) : Option (List Char × Char) :=
  let body := trim text
  let digits := body.takeWhile isDigit
  match (body.dropWhile isDigit).dropWhile isBlank with
  | [unit] => if !digits.isEmpty && isUnit unit then some (digits, unit) else none
  | _ => none

def invalid (text : String) : Failure :=
  .invalidInput ("Invalid timeframe: " ++ quoted text)

/-- The length of a timeframe in seconds; none for no timeframe, an empty one or the whole
history. -/
def seconds? : Option String → Result (Option Int)
  | none => .ok none
  | some text =>
    let word := lowerCase (strip text)
    if word = "" ∨ word = "all" then .ok none
    else
      match split? text.toList with
      | none => .error (invalid text)
      | some (digits, unit) =>
        match Number.readInteger? (String.ofList digits) with
        | none => .error (Json.noNumeral (String.ofList digits))
        | some amount =>
          match unitSeconds? unit.toLower with
          | some seconds => .ok (some (amount * seconds))
          | none => .error (.missingKey (.str (String.singleton unit)))

def incomparable (left : Json) (right : Number) : Failure :=
  .wrongType s!"'>=' not supported between instances of '{left.kindName}' and '{(Json.ofNumber right).kindName}'"

/-- A transaction is kept if its time is not before the cutoff, or not known. -/
def keeps (cutoff : Number) (transaction : Ledger.Transaction) : Result Bool :=
  if transaction.blockTime.isNull then .ok true
  else
    match transaction.blockTime.number? with
    | some time => .ok (cutoff.atMost time)
    | none => .error (incomparable transaction.blockTime cutoff)

def filter (timeframe : Option String) (now : Number) (transactions : List Ledger.Transaction) :
    Result (List Ledger.Transaction) := do
  match ← seconds? timeframe with
  | none => return transactions
  | some window =>
    let cutoff ← now.minus (.int window)
    transactions.filterM (keeps cutoff)

end ProgramAudit.Traffic.Timeframe
