import ProgramAudit.Report.Sections

/-! A report. It is composed of all its sections, or neutral throughout. -/

namespace ProgramAudit.Report

open Control Score Traffic

/-- The content of a report: all sections, or neutral ones throughout. -/
inductive Body where
  | composed (sections : Sections)
  | neutral

structure Document where
  address : String
  generatedAt : String
  network : String
  degraded : List String
  body : Body

namespace Document

def computed (document : Document) : Bool :=
  match document.body with
  | .composed _ => true
  | .neutral => false

def safetyScore (document : Document) : Int :=
  match document.body with
  | .composed sections => sections.safety.score
  | .neutral => 50

def ownSection : String := "report"

/-- The report without content; it counts itself among the degraded sections. -/
def fallback (address generatedAt network : String) (degraded : List String) : Document where
  address := if address.isEmpty then "unknown" else address
  generatedAt := generatedAt
  network := network
  degraded := distinct (degraded ++ [ownSection])
  body := .neutral

/-- Composes a report of all sections; without one of them it has no content. -/
def compose (inputs : Inputs) (generatedAt : String) : Document :=
  match Sections.ofInputs inputs with
  | .ok sections =>
    { address := inputs.address
      generatedAt
      network := inputs.network
      degraded := inputs.degraded
      body := .composed sections }
  | .error _ => fallback inputs.address generatedAt inputs.network inputs.degraded

def origin : String := "solproof.analysis.report"

def record (inputs : Inputs) : Journal.Record :=
  match Sections.ofInputs inputs with
  | .ok sections => .make .info origin "report_composed" [
      ("program", .str inputs.address),
      ("safety_score", .int sections.safety.score),
      ("total_risks", .int sections.ranking.length),
      ("degraded_sections", Json.strings inputs.degraded)]
  | .error failure => .make .warning origin "report_composition_failed"
      [("program", .str inputs.address), ("error", .str failure.text)]

def metadata (document : Document) : Json :=
  .obj [
    ("version", .str "0.1.0"),
    ("generatedBy", .str "SolProof"),
    ("generationTime", .str document.generatedAt),
    ("solanaNetwork", .str document.network),
    ("degradedSections", Json.strings document.degraded)]

/-- The sections of a report by their names. -/
def sectionFields (document : Document) (sections : Sections) : List (String × Json) :=
  [("executiveSummary", sections.executiveSummary),
    ("riskAssessment", sections.riskAssessment),
    ("binaryAnalysis", sections.binaryAnalysis document.address),
    ("economicAnalysis", sections.economicAnalysis),
    ("authorityAnalysis", sections.authorityAnalysis),
    ("callGraphAnalysis", sections.callGraphAnalysis),
    ("vulnerabilityAnalysis", sections.vulnerabilityAnalysis),
    ("safetyAnalysis", sections.safetyAnalysis),
    ("recommendations", .arr ((Recommendation.ofSections document.address document.degraded
      sections).map Recommendation.toJson))]

def neutralSummary : Json :=
  .obj [
    ("safetyScore", .int 50),
    ("riskLevel", .str "Moderate"),
    ("programType", .str "UNKNOWN"),
    ("keyFindings", .arr []),
    ("riskScoreBreakdown", (Breakdown.toJson {}))]

def neutralAssessment : Json :=
  .obj [
    ("prioritizedRisks", .arr []),
    ("riskScoreBreakdown", (Breakdown.toJson {})),
    ("totalRisks", .int 0),
    ("assessedRisks", .arr [])]

def neutralBinary : Json :=
  .obj [
    ("size", .int 0),
    ("instructionCount", .int 0),
    ("syscalls", .arr []),
    ("likelyBehavior", .str "unknown"),
    ("controlFlow",
      .obj [("branches", .int 0), ("loops", .int 0), ("complexity", .str "Low")]),
    ("dependencies", .arr []),
    ("idl", (Interface.toJson {})),
    ("computed", .bool false)]

def neutralEconomics : Json :=
  .obj [
    ("totalVolumeSOL", .str "0.0000"),
    ("averageFeeSOL", .str "0.000000"),
    ("transactionCount", .int 0),
    ("transactionTypes", .obj []),
    ("suspiciousVolumeSOL", .str "0.0000"),
    ("tokenFlows", (TokenFlows.toJson {})),
    ("computed", .bool false)]

def neutralFields : List (String × Json) :=
  [("executiveSummary", neutralSummary),
    ("riskAssessment", neutralAssessment),
    ("binaryAnalysis", neutralBinary),
    ("economicAnalysis", neutralEconomics),
    ("authorityAnalysis", .obj [
      ("authorities", .arr []),
      ("governance", Governance.neutral.toJson),
      ("upgradeHistory", .arr [])]),
    ("callGraphAnalysis", .obj [
      ("nodes", .arr []),
      ("edges", .arr []),
      ("summary", .arr []),
      ("interactionComplexity", .str "Low"),
      ("computed", .bool false)]),
    ("vulnerabilityAnalysis", .arr []),
    ("safetyAnalysis", .obj [
      ("safetyScore", .int 50),
      ("feedback", .arr []),
      ("computed", .bool false)]),
    ("recommendations", .arr [])]

def toJson (document : Document) : Json :=
  let sections := match document.body with
    | .composed sections => document.sectionFields sections
    | .neutral => neutralFields
  .obj ([("programAddress", .str document.address), ("timestamp", .str document.generatedAt)]
    ++ sections ++ [("metadata", document.metadata)])

end Document

end ProgramAudit.Report
