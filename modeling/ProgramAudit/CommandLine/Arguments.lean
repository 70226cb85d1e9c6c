import ProgramAudit.Number.Reading
import ProgramAudit.Table
import ProgramAudit.Text.Digit

/-!
The arguments of the command line: one address and options. An option of several letters may be cut
short while only one fits, its value follows it or an equality sign, and options of one letter may
stand together.
-/

namespace ProgramAudit.CommandLine

inductive Flag where
  | help
  | limit
  | timeframe
  | quick
  | dot
  | verbose
deriving DecidableEq

namespace Flag

def spellings : Table String Flag := [
  ("-h", .help),
  ("--help", .help),
  ("--limit", .limit),
  ("--timeframe", .timeframe),
  ("--quick", .quick),
  ("--dot", .dot),
  ("-v", .verbose),
  ("--verbose", .verbose)]

def ofSpelling? (spelling : String) : Option Flag := Table.get? spelling spellings

def takesValue : Flag → Bool
  | .limit => true
  | .timeframe => true
  | .dot => true
  | _ => false

def startingWith (start : List Char) : List Flag :=
  (spellings.filter fun entry => start.isPrefixOf entry.1.toList).map Prod.snd

end Flag

/-- An argument by itself: an operand, the separator before operands, options without a value and
whether letters are left behind them, an option with a value that may still follow, and what is no
use of an option. -/
inductive Word where
  | operand (text : String)
  | separator
  | flags (flags : List Flag) (surplus : Bool)
  | setting (flag : Flag) (value : Option String)
  | misused
  | unknown
  | ambiguous
deriving DecidableEq

namespace Word

/-- A minus sign and digits, with a point before the last of them if there is one. -/
def isNegativeNumber : List Char → Bool
  | '-' :: body =>
    let text := if body.getLast? = some '\n' then body.dropLast else body
    let whole := text.takeWhile Text.isDigit
    match text.dropWhile Text.isDigit with
    | [] => !whole.isEmpty
    | '.' :: fraction => !fraction.isEmpty && fraction.all Text.isDigit
    | _ => false
  | _ => false

/-- What stands before and behind the first equality sign. -/
def splitValue (text : List Char) : List Char × Option (List Char) :=
  match text.dropWhile (· != '=') with
  | [] => (text, none)
  | _ :: value => (text.takeWhile (· != '='), some value)

def isLong : List Char → Bool
  | '-' :: '-' :: _ => true
  | _ => false

/-- What looks like an option and is none: an operand if it is a negative number or has a blank in
it. -/
def unmatched (text : List Char) : Word :=
  if isNegativeNumber text || text.contains ' ' then .operand (String.ofList text) else .unknown

/-- An option of several letters with what is attached to it. -/
def ofLong (flag : Flag) (value : Option (List Char)) : Word :=
  if flag.takesValue then .setting flag (value.map String.ofList)
  else if value.isSome then .misused
  else .flags [flag] false

def flagOfLetter? (letter : Char) : Option Flag := Flag.ofSpelling? (String.ofList ['-', letter])

/-- The options of letters that stand together. Neither a value nor a further option may be attached
to them. -/
def ofLetters (found : List Flag) : List Char → Word
  | [] => .flags found.reverse false
  | letter :: rest =>
    match flagOfLetter? letter with
    | some flag => ofLetters (flag :: found) rest
    | none => if letter = '=' ∨ letter = '-' then .misused else .flags found.reverse true

/-- An option that is possibly cut short. -/
def ofShortened (text : List Char) : Word :=
  let (start, value) := splitValue text
  match Flag.startingWith start with
  | [] => unmatched text
  | [flag] => ofLong flag value
  | _ => .ambiguous

def ofShort (text : List Char) : Word :=
  match text with
  | '-' :: letter :: rest =>
    if (flagOfLetter? letter).isSome then ofLetters [] (letter :: rest) else unmatched text
  | _ => unmatched text

def ofOption (text : List Char) : Word :=
  if isLong text then
    let (spelling, value) := splitValue text
    match Flag.ofSpelling? (String.ofList spelling) with
    | some flag => ofLong flag value
    | none => ofShortened text
  else ofShort text

def ofText (text : String) : Word :=
  match text.toList with
  | '-' :: c :: rest => ofOption ('-' :: c :: rest)
  | _ => .operand text

/-- The words of arguments; behind a separator all are operands. -/
def ofTexts : List String → List Word
  | [] => []
  | "--" :: rest => .separator :: rest.map .operand
  | text :: rest => ofText text :: ofTexts rest

end Word

structure Arguments where
  address : String
  limit : Option Int := none
  timeframe : Option String := none
  quick : Bool := false
  dot : Option String := none
  verbose : Bool := false

/-- What has been read so far; a surplus is refused in the end. -/
structure Draft where
  address : Option String := none
  surplus : Bool := false
  arguments : Arguments := { address := "" }

inductive Usage where
  | run (arguments : Arguments)
  | help
  | rejected

namespace Usage

def setFlag (flag : Flag) (draft : Draft) : Draft :=
  match flag with
  | .quick => { draft with arguments := { draft.arguments with quick := true } }
  | .verbose => { draft with arguments := { draft.arguments with verbose := true } }
  | _ => draft

def setFlags (flags : List Flag) (draft : Draft) : Draft :=
  flags.foldl (fun done flag => setFlag flag done) draft

def setValue? (flag : Flag) (value : String) (draft : Draft) : Option Draft :=
  match flag with
  | .limit => (Number.readInteger? value).map fun limit =>
    { draft with arguments := { draft.arguments with limit := some limit } }
  | .timeframe => some
    { draft with arguments := { draft.arguments with timeframe := some value } }
  | .dot => some { draft with arguments := { draft.arguments with dot := some value } }
  | _ => none

/-- An operand is the address if there is none yet, and a surplus otherwise. -/
def setOperand (text : String) (draft : Draft) : Draft :=
  if draft.address.isNone then { draft with address := some text }
  else { draft with surplus := true }

def conclude (draft : Draft) : Usage :=
  match draft.address with
  | some address =>
    if draft.surplus then .rejected else .run { draft.arguments with address }
  | none => .rejected

/-- Reads the words one after the other. A separator goes with an address next to it. -/
def ofWords (draft : Draft) : List Word → Usage
  | [] => conclude draft
  | .operand text :: .separator :: rest =>
    ofWords { setOperand text draft with surplus := draft.surplus || draft.address.isSome } rest
  | .operand text :: rest => ofWords (setOperand text draft) rest
  | .separator :: .operand text :: rest =>
    ofWords { setOperand text draft with surplus := draft.surplus || draft.address.isSome } rest
  | .flags found surplus :: rest =>
    if found.contains .help then .help
    else ofWords (setFlags found { draft with surplus := draft.surplus || surplus }) rest
  | .setting flag (some value) :: rest =>
    match setValue? flag value draft with
    | some draft => ofWords draft rest
    | none => .rejected
  | .setting flag none :: .operand value :: rest =>
    match setValue? flag value draft with
    | some draft => ofWords draft rest
    | none => .rejected
  | .setting _ none :: _ => .rejected
  | .misused :: _ => .rejected
  | _ :: rest => ofWords { draft with surplus := true } rest

/-- Understands arguments. An option that several could be is refused before anything else. -/
def ofTexts (texts : List String) : Usage :=
  let words := Word.ofTexts texts
  if words.contains .ambiguous then .rejected else ofWords {} words

end Usage

end ProgramAudit.CommandLine
