import ProgramAudit.Ledger.Stored
import ProgramAudit.Traffic.CallGraph
import ProgramAudit.Traffic.DeepDive
import ProgramAudit.Traffic.Fees
import ProgramAudit.Traffic.Upgrades
import ProgramAudit.Traffic.Window

/-! Transactions, what they amount to, and the policies, read back from their written form. -/

namespace ProgramAudit.Traffic

def Kind.ofField (name : String) (value : Json) : Kind :=
  (Kind.ofWord? (value.textOr name "unknown")).getD .unknown

namespace KindPolicy

def tokenTypesOr (fallback : Table String Kind) (value : Json) : Table String Kind :=
  match value.get? "token_subtypes" with
  | some (.obj fields) => fields.filterMap fun (type, kind) =>
    (kind.string?.bind Kind.ofWord?).map fun kind => (type, kind)
  | _ => fallback

def ofJson (value : Json) : KindPolicy :=
  let base : KindPolicy := {}
  { governancePrograms := value.textsOr "governance_program_ids" base.governancePrograms
    governanceTypes := value.textsOr "governance_parsed_types" base.governanceTypes
    tokenProgram := value.textOr "token_program_id" base.tokenProgram
    tokenTypes := tokenTypesOr base.tokenTypes value
    swapPrograms := value.textsOr "swap_program_ids" base.swapPrograms
    nftPrograms := value.textsOr "nft_program_ids" base.nftPrograms
    nftTypes := value.textsOr "nft_parsed_types" base.nftTypes
    programIsSwap := value.boolOr "self_program_is_swap" base.programIsSwap }

end KindPolicy

def FetchPlan.ofJson (value : Json) : FetchPlan :=
  let base : FetchPlan := {}
  { limit := value.intOr "limit" base.limit
    timeframe := (value.get? "timeframe").elim base.timeframe Json.string?
    retryDelays :=
      match value.get? "retry_delays_sec" with
      | some (.arr delays) => delays.filterMap Json.number?
      | _ => base.retryDelays }

def EconomicPolicy.ofJson (value : Json) : EconomicPolicy :=
  let base : EconomicPolicy := {}
  { volatilityRatio := value.numberOr "volatility_ratio" base.volatilityRatio
    concentrationRatio := value.numberOr "concentration_ratio" base.concentrationRatio
    topFlows := value.intOr "top_flows" base.topFlows
    tokenProgram := value.textOr "token_program_id" base.tokenProgram
    transferTypes := value.textsOr "token_transfer_types" base.transferTypes }

def Classified.ofJson (value : Json) : Classified where
  transaction := .ofJson value
  kind := .ofField "kind" value
  nonStandard := value.boolOr "nonStandard" true

namespace Footprint

/-- The accounts of an instruction; anything but a list is none. -/
def accountsOfJson (instruction : Json) : Option (List Json) :=
  match instruction.get? "accounts" with
  | some (.arr accounts) => some accounts
  | some _ => none
  | none => some []

def ofJson (kind : Kind) (value : Json) : Footprint where
  kind := kind
  accounts := (value.itemsOf "instructions").map accountsOfJson

end Footprint

def TokenFlow.ofJson (value : Json) : TokenFlow where
  account := value.get "account"
  mint := value.textOr "mint" ""
  kind := value.textOr "flowType" ""
  amount := .real (value.realOr "amount" 0.0)
  count := value.intOr "txCount" 0

def TokenFlows.ofJson (value : Json) : TokenFlows where
  topInflows := (value.itemsOf "topInflows").map TokenFlow.ofJson
  topOutflows := (value.itemsOf "topOutflows").map TokenFlow.ofJson
  concentrationRisk := value.boolOr "concentrationRisk" false

def Volatility.ofJson (value : Json) : Volatility where
  mean := .real (value.realOr "meanVolumeSOL" 0.0)
  deviation := .real (value.realOr "stdDevVolumeSOL" 0.0)
  high := value.boolOr "highVolatility" false

def Tally.ofJson (value : Json) : Tally where
  count := value.intOr "count" 0
  volume := .real (value.realOr "volumeSOL" 0.0)

def Economics.ofJson (value : Json) : Economics where
  totalVolume := .real (value.realOr "totalVolumeSOL" 0.0)
  averageFee := value.realOr "averageFeeSOL" 0.0
  transactionCount := value.intOr "transactionCount" 0
  byKind := (value.entriesOf "byType").filterMap fun (word, tally) =>
    (Kind.ofWord? word).map fun kind => (kind, .ofJson tally)
  suspiciousVolume := .real (value.realOr "suspiciousVolumeSOL" 0.0)
  tokenFlows := .ofJson (value.get "tokenFlows")
  volatility := .ofJson (value.get "volatility")
  computed := value.boolOr "computed" true

def EdgeCount.ofJson? : Json → Option EdgeCount
  | .int value => some (.int value)
  | .bool value => some (.truth value)
  | _ => none

def CallEdge.ofJson (value : Json) : CallEdge where
  source := value.textOr "from" ""
  target := value.textOr "to" ""
  action := value.textOr "action" ""
  weight := ((value.get? "count").bind EdgeCount.ofJson?).getD (.int 1)

def CallGraph.ofJson (value : Json) : CallGraph where
  root := value.textOr "root" ""
  nodes := value.textsOr "nodes" []
  edges := (value.itemsOf "edges").map CallEdge.ofJson
  computed := value.boolOr "computed" true

def FeeSpike.ofJson (value : Json) : FeeSpike where
  signature := value.get "signature"
  fee := .real (value.realOr "feeSOL" 0.0)
  details := value.textOr "details" ""

def Fees.ofJson (value : Json) : Fees where
  transactionCount := value.intOr "totalTransactions" 0
  average := .real (value.realOr "averageFeeSOL" 0.0)
  threshold := .real (value.realOr "spikeThresholdSOL" 0.0)
  spikes := (value.itemsOf "spikes").map FeeSpike.ofJson

def Anomaly.ofJson (value : Json) : Anomaly :=
  ⟨value.textOr "issue" "", value.textOr "details" ""⟩

def DeepDive.ofJson (value : Json) : DeepDive where
  frequency := (value.entriesOf "instructionFrequency").map fun (type, count) =>
    (type, count.integer?.getD 0)
  anomalies := (value.itemsOf "anomalies").map Anomaly.ofJson

def InterfaceEntry.ofJson (value : Json) : InterfaceEntry where
  name := value.textOr "name" ""
  arguments := (value.itemsOf "args").map fun argument =>
    (argument.textOr "name" "", argument.textOr "type" "")

def Interface.ofJson (value : Json) : Interface where
  name := value.textOr "name" "unknown"
  entries := (value.itemsOf "instructions").map InterfaceEntry.ofJson

def Upgrade.ofJson (value : Json) : Upgrade :=
  ⟨value.get "signature", value.get "timestamp"⟩

end ProgramAudit.Traffic
