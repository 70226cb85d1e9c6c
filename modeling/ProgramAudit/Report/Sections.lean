import ProgramAudit.Control.Governance
import ProgramAudit.Report.Ranking
import ProgramAudit.Score.Behavior
import ProgramAudit.Score.Prediction
import ProgramAudit.Text.Case
import ProgramAudit.Traffic.Fees
import ProgramAudit.Traffic.Upgrades

namespace ProgramAudit.Report

open Program Traffic Control Finding Score

/-- What a report is made of. Each part may be missing. -/
structure Inputs where
  address : String
  profile : Option Profile
  economics : Option Economics
  graph : Option CallGraph
  authorities : Option (List Authority)
  governance : Option Governance
  vulnerabilities : Option (List Vulnerability)
  safety : Option Safety
  behavior : Option Behavior
  prediction : Option Prediction
  fees : Option Fees
  deepDive : Option DeepDive
  assessedRisks : Option (List Risk)
  interface : Option Interface
  upgrades : Option (List Upgrade)
  solPrice : Option Float
  degraded : List String := []
  network : String := "mainnet"

structure Sections where
  profile : Profile
  syscalls : List String
  reentrancyRisk : Severity
  economics : Economics
  graph : CallGraph
  authorities : List Authority
  governance : Governance
  vulnerabilities : List Vulnerability
  safety : Safety
  behavior : Behavior
  prediction : Prediction
  fees : Fees
  deepDive : DeepDive
  assessedRisks : List Risk
  interface : Interface
  upgrades : List Upgrade
  solPrice : Float

namespace Sections

def notIterable : Failure := .wrongType "'NoneType' object is not iterable"

def noLength : Failure := .wrongType "object of type 'NoneType' has no len()"

def noPrice (volume : Number) : Failure :=
  .wrongType s!"unsupported operand type(s) for *: '{(Json.ofNumber volume).kindName}' and 'NoneType'"

def orFail (failure : Failure) : Option α → Result α
  | some value => .ok value
  | none => .error failure

/-- All parts of a report, or the failure of the first one that is missing. -/
def ofInputs (inputs : Inputs) : Result Sections := do
  let safety ← Option.demand "risks" inputs.safety
  let vulnerabilities ← orFail notIterable inputs.vulnerabilities
  let profile ← Option.demand "suspected_type" inputs.profile
  let authorities ← orFail noLength inputs.authorities
  let economics ← Option.demand "total_volume_sol" inputs.economics
  let assessedRisks ← orFail notIterable inputs.assessedRisks
  let behavior ← Option.demand "to_dict" inputs.behavior
  let prediction ← Option.demand "to_dict" inputs.prediction
  let syscalls ← profile.demandSyscalls
  let reentrancyRisk ← Option.demand "value" profile.reentrancyRisk
  let graph ← Option.demand "nodes" inputs.graph
  let deepDive ← Option.demand "to_dict" inputs.deepDive
  let interface ← Option.demand "to_dict" inputs.interface
  let solPrice ← orFail (noPrice economics.totalVolume) inputs.solPrice
  let fees ← Option.demand "to_dict" inputs.fees
  let governance ← Option.demand "to_dict" inputs.governance
  let upgrades ← orFail notIterable inputs.upgrades
  return {
    profile, syscalls, reentrancyRisk, economics, graph, authorities, governance, vulnerabilities,
    safety, behavior, prediction, fees, deepDive, assessedRisks, interface, upgrades, solPrice }

def breakdown (sections : Sections) : Breakdown :=
  .ofFindings sections.vulnerabilities sections.safety

def ranking (sections : Sections) : List RankedRisk :=
  RankedRisk.ranking sections.vulnerabilities sections.safety

/-- Volumes have four places, amounts of money two, and fees six. -/
def volumeStyle : Number.FixedStyle := ⟨4⟩

def moneyStyle : Number.FixedStyle := ⟨2⟩

def feeStyle : Number.FixedStyle := ⟨6⟩

def volumeText (volume : Number) : Json := .str (volumeStyle.text volume.toReal)

def moneyText (price : Float) (volume : Number) : Json :=
  .str (moneyStyle.text (volume.toReal * price))

def keyFindings (sections : Sections) : List String :=
  let count := sections.authorities.length
  let control := if count = 1 then "single authority" else "authorities"
  let breakdown := sections.breakdown
  [s!"Safety Score: {sections.safety.score}/100",
    s!"Vulnerabilities: {sections.vulnerabilities.length} ({breakdown.high} High, {breakdown.moderate} Moderate)",
    "Transaction Volume: " ++ volumeStyle.text sections.economics.totalVolume.toReal ++ " SOL",
    s!"Authority Control: {count} {control}"]

def executiveSummary (sections : Sections) : Json :=
  .obj [
    ("safetyScore", .int sections.safety.score),
    ("riskLevel", .str (riskLevel sections.safety.score)),
    ("programType", .str (Text.upperCase sections.profile.category.word)),
    ("keyFindings", Json.strings sections.keyFindings),
    ("riskScoreBreakdown", sections.breakdown.toJson)]

def riskAssessment (sections : Sections) : Json :=
  .obj [
    ("prioritizedRisks", .arr (sections.ranking.map RankedRisk.toJson)),
    ("riskScoreBreakdown", sections.breakdown.toJson),
    ("totalRisks", .int sections.ranking.length),
    ("assessedRisks", .arr (sections.assessedRisks.map Risk.toJson)),
    ("behavior", sections.behavior.toJson),
    ("prediction", sections.prediction.toJson)]

/-- The control flow of a program is complex above seventy branches and loops. -/
def flowComplexity (flow : ControlFlow) : String :=
  if 70 < flow.total then "High" else "Moderate"

def dependencies (address : String) (graph : CallGraph) : List String :=
  graph.nodes.filter (· != address)

def binaryAnalysis (address : String) (sections : Sections) : Json :=
  let profile := sections.profile
  .obj [
    ("size", .int profile.byteLength),
    ("instructionCount", .int profile.instructionCount),
    ("syscalls", Json.strings sections.syscalls),
    ("likelyBehavior", .str profile.category.word),
    ("controlFlow", .obj (Profile.flowJson profile.controlFlow ++
      [("complexity", .str (flowComplexity profile.controlFlow))])),
    ("reentrancyRisk", .str sections.reentrancyRisk.word),
    ("usesBorsh", .bool profile.usesBorsh),
    ("hiddenMintSignal", .bool profile.hiddenMint),
    ("dependencies", Json.strings (dependencies address sections.graph)),
    ("deepDive", sections.deepDive.toJson),
    ("idl", sections.interface.toJson),
    ("computed", .bool profile.computed)]

/-- The kinds of transactions as the report groups them. -/
def kindGroups : List (String × List Kind) :=
  [("swaps", [.swap]), ("transfers", [.transfer]), ("mints", [.mint]), ("burns", [.burn]),
    ("governance", [.governance]), ("nftMints", [.nftMint]), ("others", [.unknown, .custom])]

def groupsJson (economics : Economics) : Json :=
  .obj (kindGroups.map fun group => (group.1, (economics.tally group.2).toJson))

def economicAnalysis (sections : Sections) : Json :=
  let economics := sections.economics
  .obj [
    ("totalVolumeSOL", volumeText economics.totalVolume),
    ("totalVolumeUSD", moneyText sections.solPrice economics.totalVolume),
    ("averageFeeSOL", .str (feeStyle.text economics.averageFee)),
    ("transactionCount", .int economics.transactionCount),
    ("transactionTypes", groupsJson economics),
    ("suspiciousVolumeSOL", volumeText economics.suspiciousVolume),
    ("suspiciousVolumeUSD", moneyText sections.solPrice economics.suspiciousVolume),
    ("tokenFlows", economics.tokenFlows.toJson),
    ("volatility", economics.volatility.toJson),
    ("feeAnalysis", sections.fees.toJson),
    ("solPriceUSD", .real sections.solPrice),
    ("computed", .bool economics.computed)]

def authorityAnalysis (sections : Sections) : Json :=
  .obj [
    ("authorities", .arr (sections.authorities.map Authority.toJson)),
    ("governance", sections.governance.toJson),
    ("upgradeHistory", .arr (sections.upgrades.map Upgrade.toJson))]

def callGraphAnalysis (sections : Sections) : Json :=
  let graph := sections.graph
  .obj [
    ("nodes", Json.strings graph.nodes),
    ("edges", .arr (graph.edges.map CallGraph.edgeJson)),
    ("summary", .arr (graph.summary.map CallGraph.edgeJson)),
    ("interactionComplexity", .str graph.complexity),
    ("computed", .bool graph.computed)]

def vulnerabilityAnalysis (sections : Sections) : Json :=
  .arr (sections.vulnerabilities.map Vulnerability.toJson)

def safetyAnalysis (sections : Sections) : Json :=
  .obj [
    ("safetyScore", .int sections.safety.score),
    ("feedback", .arr (sections.safety.risks.map Risk.toJson)),
    ("computed", .bool sections.safety.computed)]

end Sections

structure Recommendation where
  urgent : Bool
  action : String
  link : Option String := none

namespace Recommendation

def toJson (recommendation : Recommendation) : Json :=
  .obj [
    ("priority", .str (if recommendation.urgent then "High" else "Moderate")),
    ("action", .str recommendation.action),
    ("link", Json.ofOption .str recommendation.link)]

def explorerLink (address : String) : String := "https://solscan.io/account/" ++ address

def isGoverned (sections : Sections) : Bool :=
  sections.profile.category == .governance || Governance.hasVotes sections.graph

def rerun (degraded : List String) : Recommendation where
  urgent := false
  action := "Re-run the audit; some sections used fallback values: " ++ ", ".intercalate degraded
    ++ "."

def ofSections (address : String) (degraded : List String) (sections : Sections) :
    List Recommendation :=
  [{ urgent := true
     action := "Monitor program updates on Solscan."
     link := some (explorerLink address ++ "#events") },
    { urgent := isGoverned sections
      action := "Verify governance or token logic on-chain."
      link := some (explorerLink address) },
    { urgent := !sections.vulnerabilities.isEmpty
      action := "Address detected vulnerabilities." }]
    ++ (if degraded.isEmpty then [] else [rerun degraded])

end Recommendation

end ProgramAudit.Report
