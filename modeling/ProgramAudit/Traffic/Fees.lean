import ProgramAudit.Traffic.Economics

namespace ProgramAudit.Traffic

structure FeeSpike where
  signature : Json
  fee : Number
  details : String

def FeeSpike.toJson (spike : FeeSpike) : Json :=
  .obj [
    ("issue", .str "Fee Spike"),
    ("signature", spike.signature),
    ("feeSOL", .ofNumber spike.fee),
    ("details", .str spike.details)]

structure Fees where
  transactionCount : Int := 0
  average : Number := 0.0
  threshold : Number := 0.0
  spikes : List FeeSpike := []
  computed : Bool := true

namespace Fees

def amountStyle : Number.FixedStyle := ⟨6⟩

def details (average fee : Float) : String :=
  "Fee " ++ amountStyle.text fee ++ " SOL exceeds average (" ++ amountStyle.text average ++ " SOL)"

def spikesOver (average : Float) (threshold : Number) (window : List Classified) :
    List FeeSpike :=
  (window.filter fun classified => threshold.less (.real classified.transaction.fee)).map
    fun classified =>
      { signature := classified.transaction.signature
        fee := .real classified.transaction.fee
        details := details average classified.transaction.fee }

/-- The fees above a multiple of their mean. -/
def ofWindow (multiplier : Number) (window : List Classified) : Result Fees :=
  if window.isEmpty then .ok {}
  else do
    let average := Economics.averageFeeOf window
    let threshold ← Number.times (.real average) multiplier
    return {
      transactionCount := window.length
      average := .real average
      threshold
      spikes := spikesOver average threshold window }

def defaultMultiplier : Number := 3.0

def toJson (fees : Fees) : Json :=
  .obj [
    ("totalTransactions", .int fees.transactionCount),
    ("averageFeeSOL", .ofNumber fees.average),
    ("spikeThresholdSOL", .ofNumber fees.threshold),
    ("manipulation", .arr (fees.spikes.map FeeSpike.toJson))]

end Fees

end ProgramAudit.Traffic
