import ProgramAudit.Report.Document

/-!
Drafts of what a report is made of. In a draft any value may be missing. Where a report writes a value
down as it is, a missing one is written as null. Where it looks into one, it fails.
-/

namespace ProgramAudit.Report.Draft

open Sections (orFail notIterable)

variable {α : Type}

def text (value : Option String) : Json := Json.ofOption .str value

def whole (value : Option Int) : Json := Json.ofOption .int value

def flag (value : Option Bool) : Json := Json.ofOption .bool value

def number (value : Option Number) : Json := Json.ofOption .ofNumber value

def texts (values : List (Option String)) : Json := .arr (values.map text)

/-- A list in writing. The list has to be there, and so has each of its items. -/
def written (write : α → Result Json) (items : Option (List (Option α))) : Result Json := do
  let items ← orFail notIterable items
  return .arr (← items.mapM fun item => do write (← Option.demand "to_dict" item))

/-! ### Findings -/

structure Risk where
  issue : Option String
  implication : Option String
  mitigation : Option String

namespace Risk

def ofWhole (risk : Finding.Risk) : Risk := ⟨risk.issue, risk.implication, risk.mitigation⟩

def toJson (risk : Risk) : Json :=
  .obj [
    ("issue", text risk.issue),
    ("implication", text risk.implication),
    ("mitigation", text risk.mitigation)]

def noContainer : Failure := .wrongType "argument of type 'NoneType' is not iterable"

def isMalicious (risk : Risk) : Result Bool := do
  let implication ← orFail noContainer risk.implication
  return isInfix "malicious".toList implication.toList

end Risk

structure Vulnerability where
  kind : Option String
  severity : Option Severity
  details : Option String
  confidence : Option Int
  mitigation : Option String

namespace Vulnerability

def ofWhole (found : Finding.Vulnerability) : Vulnerability :=
  ⟨found.kind, found.severity, found.details, found.confidence, found.mitigation⟩

def toJson (found : Vulnerability) : Result Json := do
  let severity ← Option.demand "value" found.severity
  return .obj [
    ("type", text found.kind),
    ("severity", .str severity.word),
    ("details", text found.details),
    ("confidence", whole found.confidence),
    ("mitigation", text found.mitigation)]

end Vulnerability

/-! ### Scores -/

structure Safety where
  score : Option Int
  risks : Option (List (Option Risk))
  computed : Option Bool

def Safety.ofWhole (safety : Score.Safety) : Safety :=
  ⟨safety.score, some (safety.risks.map fun risk => some (.ofWhole risk)), safety.computed⟩

structure Behavior where
  scamProbability : Option Int
  launderingLikelihood : Option Int
  confidence : Table String (Option Int)
  computed : Option Bool

namespace Behavior

def ofWhole (behavior : Score.Behavior) : Behavior :=
  ⟨behavior.scamProbability, behavior.launderingLikelihood,
    behavior.confidence.map fun entry => (entry.1, some entry.2), behavior.computed⟩

def toJson (behavior : Behavior) : Json :=
  .obj [
    ("scamProbability", whole behavior.scamProbability),
    ("launderingLikelihood", whole behavior.launderingLikelihood),
    ("programTypeConfidence",
      .obj (behavior.confidence.map fun entry => (entry.1, whole entry.2))),
    ("computed", flag behavior.computed)]

end Behavior

/-- A headline and what there is to say about it: a factor of a risk, or an anomaly. -/
structure Remark where
  issue : Option String
  details : Option String

namespace Remark

def ofFactor (factor : Score.RiskFactor) : Remark := ⟨factor.issue, factor.details⟩

def ofAnomaly (anomaly : Traffic.Anomaly) : Remark := ⟨anomaly.issue, anomaly.details⟩

def toJson (remark : Remark) : Json :=
  .obj [("issue", text remark.issue), ("details", text remark.details)]

end Remark

structure Prediction where
  likelihood : Option Int
  outlook : Option String
  factors : Option (List (Option Remark))
  computed : Option Bool

namespace Prediction

def ofWhole (prediction : Score.Prediction) : Prediction :=
  ⟨prediction.likelihood, prediction.outlook,
    some (prediction.factors.map fun factor => some (.ofFactor factor)), prediction.computed⟩

def toJson (prediction : Prediction) : Result Json := do
  let factors ← written (fun factor => .ok (Remark.toJson factor)) prediction.factors
  return .obj [
    ("riskLikelihood", whole prediction.likelihood),
    ("prediction", text prediction.outlook),
    ("riskFactors", factors),
    ("computed", flag prediction.computed)]

end Prediction

/-! ### The program -/

structure ControlFlow where
  branches : Option Int
  loops : Option Int

namespace ControlFlow

def ofWhole (flow : Program.ControlFlow) : ControlFlow := ⟨flow.branches, flow.loops⟩

def noSum (left right : Option Int) : Failure := .wrongType
  s!"unsupported operand type(s) for +: '{(whole left).kindName}' and '{(whole right).kindName}'"

/-- Branches and loops that can be added up. -/
def known (flow : ControlFlow) : Result Program.ControlFlow :=
  match flow.branches, flow.loops with
  | some branches, some loops => .ok { branches, loops }
  | branches, loops => .error (noSum branches loops)

end ControlFlow

/-- The system calls are a set, in the order in which it is gone through. -/
structure Profile where
  byteLength : Option Int
  instructionCount : Option Int
  syscalls : Option (List (Option String))
  category : Option Program.Category
  controlFlow : Option ControlFlow
  reentrancyRisk : Option Severity
  usesBorsh : Option Bool
  hiddenMint : Option Bool
  computed : Option Bool

namespace Profile

def ofWhole (profile : Program.Profile) : Profile where
  byteLength := profile.byteLength
  instructionCount := profile.instructionCount
  syscalls := profile.syscalls.map fun names => names.map some
  category := profile.category
  controlFlow := some (.ofWhole profile.controlFlow)
  reentrancyRisk := profile.reentrancyRisk
  usesBorsh := profile.usesBorsh
  hiddenMint := profile.hiddenMint
  computed := profile.computed

/-- The name that is behind the other one of a comparison is named first. -/
def noOrder (names : List (Option String)) : Failure := .wrongType
  (if names.head? = some none then "'<' not supported between instances of 'str' and 'NoneType'"
    else "'<' not supported between instances of 'NoneType' and 'str'")

/-- Names in their order. A missing one has no place among others, but on its own it needs none. -/
def sortedNames (names : List (Option String)) : Result (List (Option String)) :=
  if names.length ≤ 1 then .ok names
  else do
    let known ← names.mapM (orFail (noOrder names))
    return (Program.Profile.sortNames known).map some

end Profile

/-! ### Traffic -/

structure CallEdge where
  source : Option String
  target : Option String
  action : Option String
  weight : Option Traffic.EdgeCount

namespace CallEdge

def count (edge : CallEdge) : Option Int := edge.weight.map Traffic.EdgeCount.value

def ofWhole (edge : Traffic.CallEdge) : CallEdge :=
  ⟨edge.source, edge.target, edge.action, edge.weight⟩

def toJson (edge : CallEdge) : Json :=
  .obj [
    ("from", text edge.source),
    ("to", text edge.target),
    ("action", text edge.action),
    ("count", Json.ofOption Traffic.EdgeCount.toJson edge.weight)]

/-- The ends and the kind of an edge, which parallel edges share. -/
structure Key where
  source : Option String
  target : Option String
  action : Option String
deriving DecidableEq

def key (edge : CallEdge) : Key := ⟨edge.source, edge.target, edge.action⟩

def noCount : Failure := .wrongType "unsupported operand type(s) for +: 'int' and 'NoneType'"

/-- An edge under its key, if it says how many it stands for. -/
def counted (edge : CallEdge) : Result (Key × Int) := do
  return (edge.key, ← orFail noCount edge.count)

end CallEdge

structure CallGraph where
  nodes : Option (List (Option String))
  edges : Option (List (Option CallEdge))
  computed : Option Bool

namespace CallGraph

def ofWhole (graph : Traffic.CallGraph) : CallGraph :=
  ⟨some (graph.nodes.map some), some (graph.edges.map fun edge => some (.ofWhole edge)),
    graph.computed⟩

/-- Parallel edges become one with the sum of their counts. -/
def summary (counted : List (CallEdge.Key × Int)) : List CallEdge :=
  (counted.foldl (fun table edge =>
    Table.adjust edge.1 (fun count => count.getD 0 + edge.2) table) []).map fun entry =>
      ⟨entry.1.source, entry.1.target, entry.1.action, some (.int entry.2)⟩

/-- The interactions are complex above fifty edges. -/
def complexity (edges : List CallEdge) : String :=
  if 50 < edges.length then "High" else if 20 < edges.length then "Moderate" else "Low"

end CallGraph

structure Tally where
  count : Option Int
  volume : Option Number

namespace Tally

def ofWhole (tally : Traffic.Tally) : Tally := ⟨tally.count, tally.volume⟩

def noIncrease (held : String) : Failure :=
  .wrongType s!"unsupported operand type(s) for +=: '{held}' and 'NoneType'"

def known (tally : Tally) : Result Traffic.Tally := do
  let count ← orFail (noIncrease "int") tally.count
  let volume ← orFail (noIncrease "float") tally.volume
  return { count, volume }

end Tally

structure TokenFlow where
  account : Json
  mint : Option String
  kind : Option String
  amount : Option Number
  count : Option Int

namespace TokenFlow

def ofWhole (flow : Traffic.TokenFlow) : TokenFlow :=
  ⟨flow.account, flow.mint, flow.kind, flow.amount, flow.count⟩

def toJson (flow : TokenFlow) : Json :=
  .obj [
    ("account", flow.account),
    ("mint", text flow.mint),
    ("flowType", text flow.kind),
    ("amount", number flow.amount),
    ("txCount", whole flow.count)]

end TokenFlow

structure TokenFlows where
  topInflows : Option (List (Option TokenFlow))
  topOutflows : Option (List (Option TokenFlow))
  concentrationRisk : Option Bool

namespace TokenFlows

def ofWhole (flows : Traffic.TokenFlows) : TokenFlows :=
  ⟨some (flows.topInflows.map fun flow => some (.ofWhole flow)),
    some (flows.topOutflows.map fun flow => some (.ofWhole flow)), flows.concentrationRisk⟩

def toJson (flows : TokenFlows) : Result Json := do
  let inflows ← written (fun flow => .ok (TokenFlow.toJson flow)) flows.topInflows
  let outflows ← written (fun flow => .ok (TokenFlow.toJson flow)) flows.topOutflows
  return .obj [
    ("topInflows", inflows),
    ("topOutflows", outflows),
    ("concentrationRisk", flag flows.concentrationRisk)]

end TokenFlows

structure Volatility where
  mean : Option Number
  deviation : Option Number
  high : Option Bool

namespace Volatility

def ofWhole (volatility : Traffic.Volatility) : Volatility :=
  ⟨volatility.mean, volatility.deviation, volatility.high⟩

def toJson (volatility : Volatility) : Json :=
  .obj [
    ("meanVolumeSOL", number volatility.mean),
    ("stdDevVolumeSOL", number volatility.deviation),
    ("highVolatility", flag volatility.high)]

end Volatility

structure Economics where
  totalVolume : Option Number
  averageFee : Option Float
  transactionCount : Option Int
  byKind : Table Traffic.Kind (Option Tally)
  suspiciousVolume : Option Number
  tokenFlows : Option TokenFlows
  volatility : Option Volatility
  computed : Option Bool

namespace Economics

def ofWhole (economics : Traffic.Economics) : Economics where
  totalVolume := economics.totalVolume
  averageFee := economics.averageFee
  transactionCount := economics.transactionCount
  byKind := economics.byKind.map fun entry => (entry.1, some (.ofWhole entry.2))
  suspiciousVolume := economics.suspiciousVolume
  tokenFlows := some (.ofWhole economics.tokenFlows)
  volatility := some (.ofWhole economics.volatility)
  computed := economics.computed

def heldTally? (economics : Economics) (kind : Traffic.Kind) : Option Tally :=
  (Table.get? kind economics.byKind).join

/-- The tallies of some kinds together; a kind without a tally adds nothing. -/
def tally (kinds : List Traffic.Kind) (economics : Economics) : Result Traffic.Tally := do
  let tallies ← (kinds.filterMap economics.heldTally?).mapM Tally.known
  return tallies.foldl Traffic.Tally.add ⟨0, 0.0⟩

end Economics

structure FeeSpike where
  signature : Json
  fee : Option Number
  details : Option String

namespace FeeSpike

def ofWhole (spike : Traffic.FeeSpike) : FeeSpike := ⟨spike.signature, spike.fee, spike.details⟩

def toJson (spike : FeeSpike) : Json :=
  .obj [
    ("issue", .str "Fee Spike"),
    ("signature", spike.signature),
    ("feeSOL", number spike.fee),
    ("details", text spike.details)]

end FeeSpike

structure Fees where
  transactionCount : Option Int
  average : Option Number
  threshold : Option Number
  spikes : Option (List (Option FeeSpike))

namespace Fees

def ofWhole (fees : Traffic.Fees) : Fees :=
  ⟨fees.transactionCount, fees.average, fees.threshold,
    some (fees.spikes.map fun spike => some (.ofWhole spike))⟩

def toJson (fees : Fees) : Result Json := do
  let spikes ← written (fun spike => .ok (FeeSpike.toJson spike)) fees.spikes
  return .obj [
    ("totalTransactions", whole fees.transactionCount),
    ("averageFeeSOL", number fees.average),
    ("spikeThresholdSOL", number fees.threshold),
    ("manipulation", spikes)]

end Fees

structure DeepDive where
  frequency : Table String (Option Int)
  anomalies : Option (List (Option Remark))

namespace DeepDive

def ofWhole (dive : Traffic.DeepDive) : DeepDive :=
  ⟨dive.frequency.map fun entry => (entry.1, some entry.2),
    some (dive.anomalies.map fun anomaly => some (.ofAnomaly anomaly))⟩

def toJson (dive : DeepDive) : Result Json := do
  let anomalies ← written (fun anomaly => .ok (Remark.toJson anomaly)) dive.anomalies
  return .obj [
    ("instructionFrequency", .obj (dive.frequency.map fun entry => (entry.1, whole entry.2))),
    ("anomalies", anomalies)]

end DeepDive

structure Argument where
  name : Option String
  type : Option String

namespace Argument

def ofWhole (argument : String × String) : Argument := ⟨argument.1, argument.2⟩

def toJson (argument : Argument) : Json :=
  .obj [("name", text argument.name), ("type", text argument.type)]

end Argument

structure InterfaceEntry where
  name : Option String
  arguments : Option (List (Option Argument))
  returns : Option String

namespace InterfaceEntry

def ofWhole (entry : Traffic.InterfaceEntry) : InterfaceEntry :=
  ⟨entry.name, some (entry.arguments.map fun argument => some (.ofWhole argument)), some "void"⟩

def toJson (entry : InterfaceEntry) : Result Json := do
  let arguments ← written (fun argument => .ok (Argument.toJson argument)) entry.arguments
  return .obj [
    ("name", text entry.name),
    ("args", arguments),
    ("returns", text entry.returns)]

end InterfaceEntry

structure Interface where
  version : Option String
  name : Option String
  entries : Option (List (Option InterfaceEntry))

namespace Interface

def ofWhole (interface : Traffic.Interface) : Interface :=
  ⟨some "0.1.0", interface.name, some (interface.entries.map fun entry => some (.ofWhole entry))⟩

def toJson (interface : Interface) : Result Json := do
  let entries ← written InterfaceEntry.toJson interface.entries
  return .obj [
    ("version", text interface.version),
    ("name", text interface.name),
    ("instructions", entries)]

end Interface

structure Upgrade where
  signature : Json
  timestamp : Json
  changes : Option (List (Option String))

namespace Upgrade

def ofWhole (upgrade : Traffic.Upgrade) : Upgrade :=
  ⟨upgrade.signature, upgrade.timestamp, some [some "Program binary updated"]⟩

def toJson (upgrade : Upgrade) : Result Json := do
  let changes ← orFail notIterable upgrade.changes
  return .obj [
    ("signature", upgrade.signature),
    ("timestamp", upgrade.timestamp),
    ("changes", texts changes)]

end Upgrade

/-! ### Control -/

structure Authority where
  address : Option String
  balance : Option Float
  walletAge : Option Int
  mintCount : Option Int

namespace Authority

def ofWhole (authority : Control.Authority) : Authority :=
  ⟨authority.address, authority.balance, authority.walletAge, authority.mintCount⟩

def toJson (authority : Authority) : Json :=
  .obj [
    ("authority", text authority.address),
    ("totalSOLWithdrawn", Json.ofOption .real authority.balance),
    ("walletAgeDays", whole authority.walletAge),
    ("tokenMintCount", whole authority.mintCount)]

end Authority

structure Governance where
  form : Option String
  trustScore : Option Int
  details : Option (List (Option String))

namespace Governance

def ofWhole (governance : Control.Governance) : Governance :=
  ⟨governance.form, governance.trustScore, some (governance.details.map some)⟩

def toJson (governance : Governance) : Result Json := do
  let details ← orFail notIterable governance.details
  return .obj [
    ("type", text governance.form),
    ("trustScore", whole governance.trustScore),
    ("details", texts details)]

end Governance

end ProgramAudit.Report.Draft
