import ProgramAudit.Report.Draft.Parts

/-!
A report composed of drafts. Each section has its own way of being written from the inputs, and a report
has either all sections in writing or the neutral ones. What is recorded about it is read from the inputs
once more, behind the composition.
-/

namespace ProgramAudit.Report

/-- A report in writing. -/
structure Sheet where
  address : String
  generatedAt : String
  network : String
  degraded : List String
  sections : List (String × Json)
  computed : Bool

def Document.sheet (document : Document) : Sheet where
  address := document.address
  generatedAt := document.generatedAt
  network := document.network
  degraded := document.degraded
  sections :=
    match document.body with
    | .composed sections => document.sectionFields sections
    | .neutral => Document.neutralFields
  computed := document.computed

namespace Sheet

/-- What a report says about itself, whatever its sections are. -/
def metadata (sheet : Sheet) : Json :=
  Document.metadata ⟨sheet.address, sheet.generatedAt, sheet.network, sheet.degraded, .neutral⟩

def toJson (sheet : Sheet) : Json :=
  .obj ([("programAddress", .str sheet.address), ("timestamp", .str sheet.generatedAt)]
    ++ sheet.sections ++ [("metadata", sheet.metadata)])

end Sheet

namespace Draft

open Sections (orFail notIterable noLength noPrice)

/-- What a report is made of. Each part may be missing, and so may each value in it. -/
structure Inputs where
  address : String
  profile : Option Profile
  economics : Option Economics
  graph : Option CallGraph
  authorities : Option (List (Option Authority))
  governance : Option Governance
  vulnerabilities : Option (List (Option Vulnerability))
  safety : Option Safety
  behavior : Option Behavior
  prediction : Option Prediction
  fees : Option Fees
  deepDive : Option DeepDive
  assessedRisks : Option (List (Option Risk))
  interface : Option Interface
  upgrades : Option (List (Option Upgrade))
  solPrice : Option Float
  degraded : List String
  network : String

namespace Inputs

def ofWhole (inputs : Report.Inputs) : Inputs where
  address := inputs.address
  profile := inputs.profile.map Profile.ofWhole
  economics := inputs.economics.map Economics.ofWhole
  graph := inputs.graph.map CallGraph.ofWhole
  authorities := inputs.authorities.map fun found => found.map fun item => some (.ofWhole item)
  governance := inputs.governance.map Governance.ofWhole
  vulnerabilities :=
    inputs.vulnerabilities.map fun found => found.map fun item => some (.ofWhole item)
  safety := inputs.safety.map Safety.ofWhole
  behavior := inputs.behavior.map Behavior.ofWhole
  prediction := inputs.prediction.map Prediction.ofWhole
  fees := inputs.fees.map Fees.ofWhole
  deepDive := inputs.deepDive.map DeepDive.ofWhole
  assessedRisks := inputs.assessedRisks.map fun risks => risks.map fun item => some (.ofWhole item)
  interface := inputs.interface.map Interface.ofWhole
  upgrades := inputs.upgrades.map fun found => found.map fun item => some (.ofWhole item)
  solPrice := inputs.solPrice
  degraded := inputs.degraded
  network := inputs.network

/-! ### Risks -/

/-- The risks of the safety, each with whether it speaks of malice. -/
def judgedRisks (inputs : Inputs) : Result (List (Risk × Bool)) := do
  let safety ← Option.demand "risks" inputs.safety
  let risks ← orFail notIterable safety.risks
  risks.mapM fun risk => do
    let risk ← Option.demand "malicious" risk
    return (risk, ← risk.isMalicious)

def findings (inputs : Inputs) : Result (List Vulnerability) := do
  let found ← orFail notIterable inputs.vulnerabilities
  found.mapM (Option.demand "severity")

def countOf (severity : Severity) (found : List Vulnerability) : Nat :=
  found.countP fun found => decide (found.severity = some severity)

def breakdown (inputs : Inputs) : Result Breakdown := do
  let risks ← inputs.judgedRisks
  let found ← inputs.findings
  let malicious := risks.countP Prod.snd
  return {
    critical := countOf .critical found
    high := countOf .high found + malicious
    moderate := countOf .moderate found + (risks.length - malicious)
    low := countOf .low found }

def rankedJson (kind : Option String) (severity : Severity) (details mitigation : Option String) :
    Json :=
  .obj [
    ("type", text kind),
    ("severity", .str severity.word),
    ("details", text details),
    ("mitigation", text mitigation)]

/-- The findings of a severity; one without a severity is of none. -/
def findingsOf (severity : Severity) (found : List Vulnerability) : List Json :=
  (found.filter fun found => decide (found.severity = some severity)).map fun found =>
    rankedJson found.kind severity found.details found.mitigation

def risksOf (malicious : Bool) (risks : List (Risk × Bool)) : List Json :=
  (risks.filter fun risk => risk.2 == malicious).map fun risk =>
    rankedJson risk.1.issue (if malicious then .high else .moderate) risk.1.implication
      risk.1.mitigation

/-- The most severe first; of one severity the vulnerabilities go before the safety risks. -/
def ranking (inputs : Inputs) : Result (List Json) := do
  let risks ← inputs.judgedRisks
  let found ← inputs.findings
  return findingsOf .critical found
    ++ findingsOf .high found ++ risksOf true risks
    ++ findingsOf .moderate found ++ risksOf false risks
    ++ findingsOf .low found

/-! ### Sections -/

def unformatted : Failure :=
  .wrongType "unsupported format string passed to NoneType.__format__"

def unordered : Failure :=
  .wrongType "'<' not supported between instances of 'NoneType' and 'int'"

def keyFindings (score : Int) (breakdown : Breakdown) (inputs : Inputs) : Result (List String) := do
  let authorities ← orFail noLength inputs.authorities
  let found ← orFail noLength inputs.vulnerabilities
  let economics ← Option.demand "total_volume_sol" inputs.economics
  let volume ← orFail unformatted economics.totalVolume
  let count := authorities.length
  let control := if count = 1 then "single authority" else "authorities"
  return [s!"Safety Score: {score}/100",
    s!"Vulnerabilities: {found.length} ({breakdown.high} High, {breakdown.moderate} Moderate)",
    "Transaction Volume: " ++ Sections.volumeStyle.text volume.toReal ++ " SOL",
    s!"Authority Control: {count} {control}"]

def executiveSummary (inputs : Inputs) : Result Json := do
  let breakdown ← inputs.breakdown
  let safety ← Option.demand "safety_score" inputs.safety
  let score ← orFail unordered safety.score
  let profile ← Option.demand "suspected_type" inputs.profile
  let category ← Option.demand "value" profile.category
  let findings ← inputs.keyFindings score breakdown
  return .obj [
    ("safetyScore", .int score),
    ("riskLevel", .str (riskLevel score)),
    ("programType", .str (Text.upperCase category.word)),
    ("keyFindings", Json.strings findings),
    ("riskScoreBreakdown", breakdown.toJson)]

def riskAssessment (inputs : Inputs) : Result Json := do
  let breakdown ← inputs.breakdown
  let ranking ← inputs.ranking
  let assessed ← written (fun risk => .ok (Risk.toJson risk)) inputs.assessedRisks
  let behavior ← Option.demand "to_dict" inputs.behavior
  let prediction ← Option.demand "to_dict" inputs.prediction
  let predicted ← prediction.toJson
  return .obj [
    ("prioritizedRisks", .arr ranking),
    ("riskScoreBreakdown", breakdown.toJson),
    ("totalRisks", .int ranking.length),
    ("assessedRisks", assessed),
    ("behavior", behavior.toJson),
    ("prediction", predicted)]

def dependencies (address : String) (nodes : List (Option String)) : List (Option String) :=
  nodes.filter (· != some address)

def binaryAnalysis (inputs : Inputs) : Result Json := do
  let profile ← Option.demand "control_flow" inputs.profile
  let names ← orFail notIterable profile.syscalls
  let syscalls ← Profile.sortedNames names
  let category ← Option.demand "value" profile.category
  let flow ← Option.demand "branches" profile.controlFlow
  let flow ← flow.known
  let risk ← Option.demand "value" profile.reentrancyRisk
  let graph ← Option.demand "nodes" inputs.graph
  let nodes ← orFail notIterable graph.nodes
  let dive ← Option.demand "to_dict" inputs.deepDive
  let deepDive ← dive.toJson
  let interface ← Option.demand "to_dict" inputs.interface
  let guessed ← interface.toJson
  return .obj [
    ("size", whole profile.byteLength),
    ("instructionCount", whole profile.instructionCount),
    ("syscalls", texts syscalls),
    ("likelyBehavior", .str category.word),
    ("controlFlow", .obj (Program.Profile.flowJson flow ++
      [("complexity", .str (Sections.flowComplexity flow))])),
    ("reentrancyRisk", .str risk.word),
    ("usesBorsh", flag profile.usesBorsh),
    ("hiddenMintSignal", flag profile.hiddenMint),
    ("dependencies", texts (dependencies inputs.address nodes)),
    ("deepDive", deepDive),
    ("idl", guessed),
    ("computed", flag profile.computed)]

/-- The tallies of the groups of kinds that a report has. -/
def groups (economics : Economics) : Result (List (String × Json)) :=
  Sections.kindGroups.mapM fun group => do
    return (group.1, (← economics.tally group.2).toJson)

def economicAnalysis (inputs : Inputs) : Result Json := do
  let economics ← Option.demand "total_volume_sol" inputs.economics
  let volume ← orFail unformatted economics.totalVolume
  let price ← orFail (noPrice volume) inputs.solPrice
  let fee ← orFail unformatted economics.averageFee
  let groups ← groups economics
  let suspicious ← orFail unformatted economics.suspiciousVolume
  let flows ← Option.demand "to_dict" economics.tokenFlows
  let tokenFlows ← flows.toJson
  let volatility ← Option.demand "to_dict" economics.volatility
  let fees ← Option.demand "to_dict" inputs.fees
  let feeAnalysis ← fees.toJson
  return .obj [
    ("totalVolumeSOL", Sections.volumeText volume),
    ("totalVolumeUSD", Sections.moneyText price volume),
    ("averageFeeSOL", .str (Sections.feeStyle.text fee)),
    ("transactionCount", whole economics.transactionCount),
    ("transactionTypes", .obj groups),
    ("suspiciousVolumeSOL", Sections.volumeText suspicious),
    ("suspiciousVolumeUSD", Sections.moneyText price suspicious),
    ("tokenFlows", tokenFlows),
    ("volatility", volatility.toJson),
    ("feeAnalysis", feeAnalysis),
    ("solPriceUSD", .real price),
    ("computed", flag economics.computed)]

def authorityAnalysis (inputs : Inputs) : Result Json := do
  let authorities ← written (fun authority => .ok (Authority.toJson authority)) inputs.authorities
  let governance ← Option.demand "to_dict" inputs.governance
  let governed ← governance.toJson
  let upgrades ← written Upgrade.toJson inputs.upgrades
  return .obj [
    ("authorities", authorities),
    ("governance", governed),
    ("upgradeHistory", upgrades)]

def callGraphAnalysis (inputs : Inputs) : Result Json := do
  let graph ← Option.demand "nodes" inputs.graph
  let nodes ← orFail notIterable graph.nodes
  let edges ← orFail notIterable graph.edges
  let edges ← edges.mapM (Option.demand "to_dict")
  let counted ← edges.mapM CallEdge.counted
  return .obj [
    ("nodes", texts nodes),
    ("edges", .arr (edges.map CallEdge.toJson)),
    ("summary", .arr ((CallGraph.summary counted).map CallEdge.toJson)),
    ("interactionComplexity", .str (CallGraph.complexity edges)),
    ("computed", flag graph.computed)]

def vulnerabilityAnalysis (inputs : Inputs) : Result Json :=
  written Vulnerability.toJson inputs.vulnerabilities

def safetyAnalysis (inputs : Inputs) : Result Json := do
  let safety ← Option.demand "safety_score" inputs.safety
  let feedback ← written (fun risk => .ok (Risk.toJson risk)) safety.risks
  return .obj [
    ("safetyScore", whole safety.score),
    ("feedback", feedback),
    ("computed", flag safety.computed)]

/-- Whether an edge stands for a vote; behind the first one that does, no edge is looked at. -/
def hasVotes : List (Option CallEdge) → Result Bool
  | [] => .ok false
  | edge :: rest => do
    let edge ← Option.demand "action" edge
    if edge.action = some Traffic.Kind.governance.word then return true else hasVotes rest

/-- Votes are looked for only if the program is of another category. -/
def isGoverned (inputs : Inputs) : Result Bool := do
  let profile ← Option.demand "suspected_type" inputs.profile
  if profile.category = some .governance then return true
  else
    let graph ← Option.demand "edges" inputs.graph
    hasVotes (← orFail notIterable graph.edges)

def recommendations (inputs : Inputs) : Result Json := do
  let governed ← inputs.isGoverned
  let found := inputs.vulnerabilities.getD []
  let advice : List Recommendation :=
    [{ urgent := true
       action := "Monitor program updates on Solscan."
       link := some (Recommendation.explorerLink inputs.address ++ "#events") },
      { urgent := governed
        action := "Verify governance or token logic on-chain."
        link := some (Recommendation.explorerLink inputs.address) },
      { urgent := !found.isEmpty
        action := "Address detected vulnerabilities." }]
    ++ (if inputs.degraded.isEmpty then [] else [Recommendation.rerun inputs.degraded])
  return .arr (advice.map Recommendation.toJson)

/-- A section of a report: its name, and how it is written from the inputs. -/
structure Section where
  name : String
  write : Inputs → Result Json

/-- The sections in the order in which they are written. -/
def sections : List Section :=
  [⟨"executiveSummary", executiveSummary⟩,
    ⟨"riskAssessment", riskAssessment⟩,
    ⟨"binaryAnalysis", binaryAnalysis⟩,
    ⟨"economicAnalysis", economicAnalysis⟩,
    ⟨"authorityAnalysis", authorityAnalysis⟩,
    ⟨"callGraphAnalysis", callGraphAnalysis⟩,
    ⟨"vulnerabilityAnalysis", vulnerabilityAnalysis⟩,
    ⟨"safetyAnalysis", safetyAnalysis⟩,
    ⟨"recommendations", recommendations⟩]

def fields (inputs : Inputs) : Result (List (String × Json)) :=
  sections.mapM fun part => do return (part.name, ← part.write inputs)

/-! ### Reports -/

def neutral (inputs : Inputs) (generatedAt : String) : Sheet :=
  (Document.fallback inputs.address generatedAt inputs.network inputs.degraded).sheet

def composed (inputs : Inputs) (generatedAt : String) (fields : List (String × Json)) : Sheet where
  address := inputs.address
  generatedAt := generatedAt
  network := inputs.network
  degraded := inputs.degraded
  sections := fields
  computed := true

def failedRecord (inputs : Inputs) (failure : Failure) : Journal.Record :=
  .make .warning Document.origin "report_composition_failed"
    [("program", .str inputs.address), ("error", .str failure.text)]

/-- The record of a composed report reads the score of the safety again. -/
def composedRecord (inputs : Inputs) (ranking : List Json) : Result Journal.Record := do
  let safety ← Option.demand "safety_score" inputs.safety
  return .make .info Document.origin "report_composed" [
    ("program", .str inputs.address),
    ("safety_score", whole safety.score),
    ("total_risks", .int ranking.length),
    ("degraded_sections", Json.strings inputs.degraded)]

/-- What can fail while a report is composed: the ranking, and then each section. -/
def content (inputs : Inputs) : Result (List Json × List (String × Json)) := do
  let ranking ← inputs.ranking
  let fields ← inputs.fields
  return (ranking, fields)

/-- Composes a report with all sections, or the neutral one if something for them is missing, and records
what became of it. -/
def compose (inputs : Inputs) (generatedAt : String) : Result (Sheet × Journal.Record) :=
  match inputs.content with
  | .error failure => .ok (inputs.neutral generatedAt, inputs.failedRecord failure)
  | .ok (ranking, fields) => do
    let record ← inputs.composedRecord ranking
    return (inputs.composed generatedAt fields, record)

end Inputs

end Draft

end ProgramAudit.Report
