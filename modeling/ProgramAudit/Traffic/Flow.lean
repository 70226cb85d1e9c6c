import ProgramAudit.Ledger.Mint
import ProgramAudit.Number.Checked
import ProgramAudit.Table
import ProgramAudit.Traffic.Kind

/-! Amounts that the instructions of a transaction move, from whom and to whom, by mint. -/

namespace ProgramAudit.Traffic

open Ledger

/-- The thresholds of the economics: how far the deviation of the volumes may pass their mean, and
what share of the outflows one of them may have. -/
structure EconomicPolicy where
  volatilityRatio : Number := 0.5
  concentrationRatio : Number := 0.8
  topFlows : Int := 5
  tokenProgram : String := "TokenkegQfeZyiNwAJbNbGKPFXCWuBvf9Ss623VQ5DA"
  transferTypes : List String := ["transfer", "transferChecked"]

def EconomicPolicy.isTransfer (policy : EconomicPolicy) (instruction : Instruction) : Bool :=
  instruction.programId == policy.tokenProgram && KindPolicy.hasType policy.transferTypes instruction

namespace Mints

def sol : String := "SOL"

def governance : String := "GOVERNANCE"

/-- The mint of a transfer whose decimals have to be looked up. -/
def lookedUp? (policy : EconomicPolicy) (instruction : Instruction) : Option String :=
  let mint := instruction.infoField "mint"
  if policy.isTransfer instruction && mint.isPresent && mint.text != sol && mint.text != governance
  then some mint.text else none

/-- The mints of the transfers, each once, in the order in which they first appear. -/
def ofWindow (policy : EconomicPolicy) (window : List Classified) : List String :=
  distinct (window.flatMap fun classified =>
    classified.transaction.instructions.filterMap (lookedUp? policy))

end Mints

abbrev Decimals := Table String Json

def Decimals.of (decimals : Decimals) (mint : String) : Int :=
  ((Table.get? mint decimals).bind Json.integer?).getD Mint.defaultDecimals

/-- A movement of tokens that an instruction shows. An endpoint of the movement is an address unless
the payload gives something else. -/
structure Flow where
  source : Json
  destination : Json
  amount : Float
  mint : String
  kind : String

namespace Flow

def givenAmount (instruction : Instruction) : Json :=
  match instruction.infoField "amount" with
  | .null => (instruction.infoField "tokenAmount").get "amount"
  | amount => amount

def rawAmount (instruction : Instruction) : Result Float :=
  Result.orIfUnreadable 0.0 (givenAmount instruction).toDouble

def scaled (decimals : Int) (amount : Result Float) : Result Float :=
  if 0 ≤ decimals then do
    let x ← amount
    return x / (← Json.doubleOf (Number.tenTo decimals.toNat))
  else do
    let _ ← Json.doubleOf decimals
    let x ← amount
    let scale := Number.nearestDouble false 1 (Number.tenTo (min decimals.natAbs 400))
    if scale == 0.0 then .error .zeroDivision else return x / scale

def ofTransfer (decimals : Decimals) (instruction : Instruction) : Result Flow := do
  let mint := ((instruction.infoField "mint").orElse (.str Mint.unknownText)).text
  return {
    source := (instruction.infoField "source").orElse (.str "")
    destination := (instruction.infoField "destination").orElse (.str "")
    amount := ← scaled (decimals.of mint) (rawAmount instruction)
    mint
    kind := "transfer" }

def ofSwap (transaction : Transaction) (instruction : Instruction) (source destination : String) :
    Flow :=
  { source := .str source
    destination := .str destination
    amount := if transaction.volume == 0.0 then 1.0 else transaction.volume
    mint := ((instruction.infoField "mint").orElse (.str Mints.sol)).text
    kind := "swap" }

def ofVote (program voter : String) : Flow :=
  { source := .str voter
    destination := .str program
    amount := 1.0
    mint := Mints.governance
    kind := "vote" }

def ofNftMint (program : String) (instruction : Instruction) : Flow :=
  { source := .str program
    destination := (instruction.infoField "mintAuthority").orElse
      (.str (instruction.accounts.headD ""))
    amount := 1.0
    mint := (instruction.infoField "mint").text
    kind := "nft_mint" }

/-- The movement that an instruction shows: a token transfer by itself, others by the kind of their
transaction. -/
def ofInstruction? (policy : EconomicPolicy) (decimals : Decimals) (program : String)
    (classified : Classified) (instruction : Instruction) : Result (Option Flow) :=
  if policy.isTransfer instruction then (ofTransfer decimals instruction).map some
  else
    match classified.kind, instruction.accounts with
    | .swap, source :: destination :: _ =>
      .ok (some (ofSwap classified.transaction instruction source destination))
    | .custom, source :: destination :: _ =>
      .ok (some (ofSwap classified.transaction instruction source destination))
    | .governance, voter :: _ => .ok (some (ofVote program voter))
    | .nftMint, _ =>
      if (instruction.infoField "mint").isPresent then .ok (some (ofNftMint program instruction))
      else .ok none
    | _, _ => .ok none

def hasEnds (flow : Flow) : Bool := flow.source.isPresent && flow.destination.isPresent

/-- The movements of a transaction that have two ends. -/
def ofClassified (policy : EconomicPolicy) (decimals : Decimals) (program : String)
    (classified : Classified) : Result (List Flow) := do
  let found ← classified.transaction.instructions.mapM
    (ofInstruction? policy decimals program classified)
  return (found.filterMap id).filter hasEnds

/-- Who moved which mint, and how. -/
structure Key where
  account : Json
  mint : String
  kind : String

instance : BEq Key where
  beq left right :=
    left.account.sameKey right.account && left.mint == right.mint && left.kind == right.kind

/-- An amount under the key that it counts for. -/
abbrev Entry := Key × Float

def isFrom (program : String) (flow : Flow) : Bool := flow.source == .str program

def isTo (program : String) (flow : Flow) : Bool :=
  !flow.isFrom program && flow.destination == .str program

def outflow (flow : Flow) : Entry := (⟨flow.destination, flow.mint, flow.kind⟩, flow.amount)

def inflow (flow : Flow) : Entry := (⟨flow.source, flow.mint, flow.kind⟩, flow.amount)

end Flow

/-- All movements of one key together. -/
structure TokenFlow where
  account : Json
  mint : String
  kind : String
  amount : Number
  count : Int

namespace TokenFlow

def toJson (flow : TokenFlow) : Json :=
  .obj [
    ("account", flow.account),
    ("mint", .str flow.mint),
    ("flowType", .str flow.kind),
    ("amount", .ofNumber flow.amount),
    ("txCount", .int flow.count)]

/-- The sum of the amounts of a key, from the left, and their number. -/
structure Total where
  amount : Float
  count : Int

def Total.add (amount : Float) : Option Total → Total
  | none => ⟨0.0 + amount, 1⟩
  | some total => ⟨total.amount + amount, total.count + 1⟩

/-- The totals of the keys in the order in which the keys first came. -/
def totals (entries : List Flow.Entry) : Table Flow.Key Total :=
  entries.foldl (fun table entry => Table.adjust entry.1 (Total.add entry.2) table) []

def ofTotal (entry : Flow.Key × Total) : TokenFlow :=
  { account := entry.1.account
    mint := entry.1.mint
    kind := entry.1.kind
    amount := .real entry.2.amount
    count := entry.2.count }

def amountOf (flow : TokenFlow) : Float := flow.amount.toReal

/-- Puts an item before the first later one that the search by halves finds greater. -/
def insertionPoint (item : TokenFlow) (sorted : Array TokenFlow) (low high : Nat) : Nat :=
  if low < high then
    let middle := (low + high) / 2
    match sorted[middle]? with
    | some other =>
      if item.amountOf < other.amountOf then insertionPoint item sorted low middle
      else insertionPoint item sorted (middle + 1) high
    | none => low
  else low
termination_by high - low
decreasing_by all_goals omega

def insertByHalves (sorted : Array TokenFlow) (item : TokenFlow) : Array TokenFlow :=
  let position := insertionPoint item sorted 0 sorted.size
  sorted.extract 0 position ++ #[item] ++ sorted.extract position sorted.size

/-- The leading items that each follow the one before them, and the rest. -/
def takeRun (follows : TokenFlow → TokenFlow → Bool) (last : TokenFlow) :
    List TokenFlow → List TokenFlow × List TokenFlow
  | [] => ([], [])
  | item :: rest =>
    if follows last item then
      let (run, others) := takeRun follows item rest
      (item :: run, others)
    else ([], item :: rest)

/-- The sorted run at the head of a list, and the rest. -/
def leadingRun : List TokenFlow → List TokenFlow × List TokenFlow
  | [] => ([], [])
  | [item] => ([item], [])
  | first :: second :: rest =>
    let falls := fun left right : TokenFlow => decide (right.amountOf < left.amountOf)
    if falls first second then
      let (run, others) := takeRun falls second rest
      ((first :: second :: run).reverse, others)
    else
      let (run, others) := takeRun (fun left right => !falls left right) second rest
      (first :: second :: run, others)

/-- Undefined amounts have no place in the order; where they end up follows from the insertions. -/
def sortWithUndefined (flows : List TokenFlow) : List TokenFlow :=
  let (run, others) := leadingRun flows.reverse
  (others.foldl insertByHalves run.toArray).toList.reverse

def sort (flows : List TokenFlow) : List TokenFlow :=
  if flows.any fun flow => Number.isUndefined flow.amountOf then sortWithUndefined flows
  else flows.mergeSort fun left right => decide (right.amountOf ≤ left.amountOf)

/-- Groups amounts by their keys, the greatest totals first. An account that cannot be a key is a
failure. -/
def group (entries : List Flow.Entry) : Result (List TokenFlow) :=
  match entries.find? fun entry => !entry.1.account.isKey with
  | some entry => .error (.wrongType s!"unhashable type: '{entry.1.account.kindName}'")
  | none => .ok (sort ((totals entries).map ofTotal))

end TokenFlow

/-- The greatest flows into and out of a program. -/
structure TokenFlows where
  topInflows : List TokenFlow := []
  topOutflows : List TokenFlow := []
  concentrationRisk : Bool := false

namespace TokenFlows

/-- The greatest flow has more than a share of the sum of all. -/
def isConcentrated (policy : EconomicPolicy) (sorted : List TokenFlow) : Result Bool :=
  match sorted with
  | [] => .ok false
  | greatest :: _ => do
    let total := Number.sum (sorted.map TokenFlow.amountOf)
    return (← policy.concentrationRatio.times total).less greatest.amount

/-- The flows of a window relative to a program. -/
def ofWindow (policy : EconomicPolicy) (decimals : Decimals) (program : String)
    (window : List Classified) : Result TokenFlows := do
  let flows := (← window.mapM (Flow.ofClassified policy decimals program)).flatten
  let outflows ← TokenFlow.group ((flows.filter (Flow.isFrom program)).map Flow.outflow)
  let inflows ← TokenFlow.group ((flows.filter (Flow.isTo program)).map Flow.inflow)
  return {
    topInflows := upTo policy.topFlows inflows
    topOutflows := upTo policy.topFlows outflows
    concentrationRisk := ← isConcentrated policy outflows }

def toJson (flows : TokenFlows) : Json :=
  .obj [
    ("topInflows", .arr (flows.topInflows.map TokenFlow.toJson)),
    ("topOutflows", .arr (flows.topOutflows.map TokenFlow.toJson)),
    ("concentrationRisk", .bool flows.concentrationRisk)]

end TokenFlows

end ProgramAudit.Traffic
