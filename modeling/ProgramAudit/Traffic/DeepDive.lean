import ProgramAudit.Program.Profile
import ProgramAudit.Traffic.Economics
import ProgramAudit.Traffic.Interface

namespace ProgramAudit.Traffic

/-- Something about a program that calls for a closer look. -/
structure Anomaly where
  issue : String
  details : String
deriving DecidableEq

def Anomaly.toJson (anomaly : Anomaly) : Json :=
  .obj [("issue", .str anomaly.issue), ("details", .str anomaly.details)]

/-- How often each type of instruction is used, and what is odd about the use. -/
structure DeepDive where
  frequency : Table String Int := []
  anomalies : List Anomaly := []
  computed : Bool := true

namespace DeepDive

def addType (table : Table String Int) (type : String) : Table String Int :=
  Table.adjust type (fun count => count.getD 0 + 1) table

def frequencyOf (window : List Classified) : Table String Int :=
  (window.flatMap fun classified =>
    classified.transaction.instructions.map Interface.typeName).foldl addType []

def dormant : Anomaly :=
  ⟨"High instruction count with low activity", "May indicate dormant or complex logic"⟩

def nonStandard : Anomaly := ⟨"High non-standard transactions", "May indicate hidden logic"⟩

def isDormant (profile : Program.Profile) (economics : Economics) : Bool :=
  decide (1000 < profile.instructionCount) && decide (economics.transactionCount < 10)

def othersRatio : Number := 0.3

/-- More than a share of the transactions are of no known kind. -/
def othersExceed (ratio : Number) (economics : Economics) : Result Bool := do
  let bound ← Number.times (.int economics.transactionCount) ratio
  return bound.less (.int economics.others.count)

/-- Looks at the instructions of a window and at two signs of hidden logic. -/
def ofWindow (profile : Option Program.Profile) (economics : Option Economics)
    (window : List Classified) : Result DeepDive := do
  let profile ← Option.demand "instruction_count_estimate" profile
  let economics ← if decide (1000 < profile.instructionCount)
    then Option.demand "transaction_count" economics
    else Option.demand "others" economics
  let exceeds ← othersExceed othersRatio economics
  return {
    frequency := frequencyOf window
    anomalies := (if isDormant profile economics then [dormant] else [])
      ++ (if exceeds then [nonStandard] else []) }

def frequencyJson (dive : DeepDive) : Json :=
  .obj (dive.frequency.map fun entry => (entry.1, .int entry.2))

def toJson (dive : DeepDive) : Json :=
  .obj [
    ("instructionFrequency", dive.frequencyJson),
    ("anomalies", .arr (dive.anomalies.map Anomaly.toJson))]

end DeepDive

end ProgramAudit.Traffic
