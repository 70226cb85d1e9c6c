import ProgramAudit.Ledger.Source
import ProgramAudit.Number.Fixed
import ProgramAudit.Number.Statistics
import ProgramAudit.Traffic.Flow

/-!
What a window of transactions amounts to: counts and volumes by kind, flows, and the average fee.
-/

namespace ProgramAudit.Traffic

open Ledger

/-- How many transactions there are, and what they moved. -/
structure Tally where
  count : Int := 0
  volume : Number := 0

def Tally.toJson (tally : Tally) : Json :=
  .obj [("count", .int tally.count), ("volumeSOL", .ofNumber tally.volume)]

def Tally.add (left right : Tally) : Tally :=
  ⟨left.count + right.count, left.volume.plus right.volume⟩

/-- How far the volumes of single transactions spread. -/
structure Volatility where
  mean : Number := 0.0
  deviation : Number := 0.0
  high : Bool := false

namespace Volatility

def sumFailure : Number.SumFault → Failure
  | .overflow => .fault .overflow "intermediate overflow in fsum"
  | .opposed => .invalidValue "-inf + inf in fsum"

def ofVolumes (policy : EconomicPolicy) (volumes : List Float) : Result Volatility :=
  if volumes.isEmpty then .ok {}
  else do
    let mean ← (Number.mean volumes).mapError sumFailure
    match Number.deviation? volumes with
    | none => .error (.missingAttribute "float" "numerator")
    | some deviation =>
      let bound ← policy.volatilityRatio.times (.real mean)
      return {
        mean := .real mean
        deviation := .real deviation
        high := bound.less (.real deviation) }

def toJson (volatility : Volatility) : Json :=
  .obj [
    ("meanVolumeSOL", .ofNumber volatility.mean),
    ("stdDevVolumeSOL", .ofNumber volatility.deviation),
    ("highVolatility", .bool volatility.high)]

end Volatility

structure Economics where
  totalVolume : Number := 0.0
  averageFee : Float := 0.0
  transactionCount : Int := 0
  byKind : Table Kind Tally := []
  suspiciousVolume : Number := 0.0
  tokenFlows : TokenFlows := {}
  volatility : Volatility := {}
  computed : Bool := true

namespace Economics

/-- What is said of a window that cannot be aggregated. -/
def neutral : Economics :=
  { byKind := Kind.all.map fun kind => (kind, ⟨0, 0.0⟩), computed := false }

def tallyOf (kind : Kind) (economics : Economics) : Option Tally :=
  Table.get? kind economics.byKind

/-- The tallies of some kinds together. -/
def tally (kinds : List Kind) (economics : Economics) : Tally :=
  (kinds.filterMap fun kind => economics.tallyOf kind).foldl Tally.add ⟨0, 0.0⟩

def others (economics : Economics) : Tally := economics.tally [.unknown, .custom]

def volumeOf (classified : Classified) : Float := classified.transaction.volume

def tallyKind (window : List Classified) (kind : Kind) : Tally :=
  let members := window.filter fun classified => decide (classified.kind = kind)
  ⟨members.length, Number.sum (members.map volumeOf)⟩

def averageFeeOf (window : List Classified) : Float :=
  if window.isEmpty then 0.0
  else
    (Number.sum (window.map fun classified => classified.transaction.fee)).toReal
      / Float.ofNat window.length

def ofWindow (policy : EconomicPolicy) (decimals : Decimals) (program : String)
    (window : List Classified) : Result Economics := do
  let tokenFlows ← TokenFlows.ofWindow policy decimals program window
  let volatility ← Volatility.ofVolumes policy (window.map volumeOf)
  return {
    totalVolume := Number.sum (window.map volumeOf)
    averageFee := averageFeeOf window
    transactionCount := window.length
    byKind := Kind.all.map fun kind => (kind, tallyKind window kind)
    suspiciousVolume := Number.sum ((window.filter Classified.nonStandard).map volumeOf)
    tokenFlows
    volatility }

/-- A volume in a record has at most six places. -/
def rounded : Number → Json
  | .int value => .int value
  | .real value => .real (Number.roundToPlaces 6 value)

def record (program : String) (economics : Economics) : Journal.Record :=
  .make .debug "solproof.analysis.economics" "economics_aggregated" [
    ("program", .str program),
    ("transaction_count", .int economics.transactionCount),
    ("total_volume_sol", rounded economics.totalVolume),
    ("suspicious_volume_sol", rounded economics.suspiciousVolume),
    ("concentration_risk", .bool economics.tokenFlows.concentrationRisk)]

def kindsJson (economics : Economics) : Json :=
  .obj (economics.byKind.map fun entry => (entry.1.word, entry.2.toJson))

def toJson (economics : Economics) : Json :=
  .obj [
    ("totalVolumeSOL", .ofNumber economics.totalVolume),
    ("averageFeeSOL", .real economics.averageFee),
    ("transactionCount", .int economics.transactionCount),
    ("byType", economics.kindsJson),
    ("suspiciousVolumeSOL", .ofNumber economics.suspiciousVolume),
    ("tokenFlows", economics.tokenFlows.toJson),
    ("volatility", economics.volatility.toJson),
    ("computed", .bool economics.computed)]

end Economics

namespace Mints

variable {τ σ : Type} [Clock τ]

def failedRecord (mint : String) (failure : Failure) : Journal.Record :=
  .make .warning "solproof.analysis.economics" "token_decimals_failed"
    [("mint", .str mint), ("error", .str failure.text)]

/-- The decimals that a look-up gave: a failure or a value that is no integer counts as the default.
An answer without metadata is a failure of the whole. -/
def decimalsOf : Result (Option Mint) → Result Json
  | .ok (some mint) =>
    .ok (if mint.decimals.integer?.isSome then mint.decimals else .int Mint.defaultDecimals)
  | .ok none => .error (.absent "decimals")
  | .error _ => .ok (.int Mint.defaultDecimals)

def isReadable (result : Result (Option Mint)) : Bool := (decimalsOf result).isOk

/-- The records of the look-ups that failed, as far as the answers can be read. -/
def failures (mints : List String) (found : List (Result (Option Mint))) :
    List Journal.Record :=
  ((mints.zip found).takeWhile fun entry => isReadable entry.2).filterMap fun (mint, result) =>
    match result with
    | .ok _ => none
    | .error failure => some (failedRecord mint failure)

/-- Looks up the decimals of distinct mints at once. -/
def lookUp (source : Source τ σ) (mints : List String) : Routine τ σ Decimals := do
  let asked := distinct mints
  let found ← Routine.all (asked.map fun mint => (source.mint mint).attempt)
  Routine.notes (failures asked found)
  let decimals ← Routine.ofResult (found.mapM decimalsOf)
  return asked.zip decimals

end Mints

end ProgramAudit.Traffic
