import ProgramAudit.Json.Field
import ProgramAudit.Proofs.Failure
import ProgramAudit.Report.Document

/-! Every section of a report is made of the part of its inputs that it shows. -/

namespace ProgramAudit.Report

open Finding

variable {α : Type}

theorem Sections.orFail_eq_ok {failure : Failure} {given : Option α} {value : α} :
    orFail failure given = .ok value ↔ given = some value := by
  cases given with
  | none => exact ⟨nofun, nofun⟩
  | some held => exact ⟨fun h => congrArg some (Except.ok.inj h), fun h => Option.some.inj h ▸ rfl⟩

structure Sections.MadeOf (inputs : Inputs) (sections : Sections) : Prop where
  profile : inputs.profile = some sections.profile
  economics : inputs.economics = some sections.economics
  graph : inputs.graph = some sections.graph
  authorities : inputs.authorities = some sections.authorities
  governance : inputs.governance = some sections.governance
  vulnerabilities : inputs.vulnerabilities = some sections.vulnerabilities
  safety : inputs.safety = some sections.safety
  behavior : inputs.behavior = some sections.behavior
  prediction : inputs.prediction = some sections.prediction
  fees : inputs.fees = some sections.fees
  deepDive : inputs.deepDive = some sections.deepDive
  assessedRisks : inputs.assessedRisks = some sections.assessedRisks
  interface : inputs.interface = some sections.interface
  upgrades : inputs.upgrades = some sections.upgrades
  solPrice : inputs.solPrice = some sections.solPrice

theorem Sections.madeOf_of_ofInputs {inputs : Inputs} {sections : Sections}
    (h : ofInputs inputs = .ok sections) : sections.MadeOf inputs := by
  simp only [ofInputs, Result.bind_eq_ok, Result.pure_eq_ok, Option.demand_eq_ok, orFail_eq_ok] at h
  obtain ⟨safety, hsafety, vulnerabilities, hvulnerabilities, profile, hprofile, authorities,
    hauthorities, economics, heconomics, risks, hrisks, behavior, hbehavior, prediction,
    hprediction, syscalls, -, reentrancy, -, graph, hgraph, deepDive, hdeepDive, interface,
    hinterface, price, hprice, fees, hfees, governance, hgovernance, upgrades, hupgrades, rfl⟩ := h
  exact ⟨hprofile, heconomics, hgraph, hauthorities, hgovernance, hvulnerabilities, hsafety,
    hbehavior, hprediction, hfees, hdeepDive, hrisks, hinterface, hupgrades, hprice⟩

theorem Sections.flowComplexity_eq_high (flow : Program.ControlFlow) :
    flowComplexity flow = "High" ↔ 70 < flow.total := by
  unfold flowComplexity
  split <;> simp [*]

theorem riskLevel_eq_high (score : Int) : riskLevel score = "High" ↔ score < 50 := by
  unfold riskLevel
  split
  · simp [*]
  · split <;> simp [*]

namespace Document

theorem sections_of_computed {inputs : Inputs} {generatedAt : String}
    (h : (compose inputs generatedAt).computed = true) :
    ∃ sections : Sections, sections.MadeOf inputs ∧
      (compose inputs generatedAt).body = .composed sections := by
  unfold compose at h ⊢
  cases hsections : Sections.ofInputs inputs with
  | ok sections => exact ⟨sections, Sections.madeOf_of_ofInputs hsections, rfl⟩
  | error failure =>
      rw [hsections] at h
      cases h

/-! ### What a reader finds in a report -/

/-- The values under a name in the objects of a list. -/
def listed (name : String) (value : Json) : List Json := value.items.map (Json.get name)

def weaknesses (document : Document) : List Json :=
  listed "type" (document.toJson.get "vulnerabilityAnalysis")

def feedback (document : Document) : List Json :=
  listed "issue" ((document.toJson.get "safetyAnalysis").get "feedback")

def assessedRisks (document : Document) : List Json :=
  listed "issue" ((document.toJson.get "riskAssessment").get "assessedRisks")

def riskFactors (document : Document) : List Json :=
  listed "issue" (((document.toJson.get "riskAssessment").get "prediction").get "riskFactors")

def binary (document : Document) : Json := document.toJson.get "binaryAnalysis"

def authorities (document : Document) : List Json :=
  ((document.toJson.get "authorityAnalysis").get "authorities").items

theorem listed_map (name : String) (written : α → Json) (items : List α) :
    listed name (.arr (items.map written)) = items.map fun item => (written item).get name := by
  simp [listed, Json.items]

theorem str_mem_map {texts : List String} {text : String} :
    Json.str text ∈ texts.map Json.str ↔ text ∈ texts := by
  simp [List.mem_map]

variable {document : Document} {sections : Sections} (h : document.body = .composed sections)

include h

theorem toJson_eq : document.toJson = .obj ([("programAddress", .str document.address),
    ("timestamp", .str document.generatedAt)] ++ document.sectionFields sections ++
    [("metadata", document.metadata)]) := by
  rw [toJson, h]

theorem weaknesses_eq :
    document.weaknesses = (sections.vulnerabilities.map Vulnerability.kind).map .str := by
  rw [weaknesses, toJson_eq h, List.map_map]
  exact listed_map "type" Vulnerability.toJson _

theorem feedback_eq : document.feedback = (sections.safety.risks.map Risk.issue).map .str := by
  rw [feedback, toJson_eq h, List.map_map]
  exact listed_map "issue" Risk.toJson _

theorem assessedRisks_eq :
    document.assessedRisks = (sections.assessedRisks.map Risk.issue).map .str := by
  rw [assessedRisks, toJson_eq h, List.map_map]
  exact listed_map "issue" Risk.toJson _

theorem riskFactors_eq :
    document.riskFactors = (sections.prediction.factors.map Score.RiskFactor.issue).map .str := by
  rw [riskFactors, toJson_eq h, List.map_map]
  exact listed_map "issue" Score.RiskFactor.toJson _

theorem hiddenMintSignal_eq :
    document.binary.get "hiddenMintSignal" = .bool sections.profile.hiddenMint := by
  rw [binary, toJson_eq h]
  rfl

theorem instructionCount_eq :
    document.binary.get "instructionCount" = .int sections.profile.instructionCount := by
  rw [binary, toJson_eq h]
  rfl

theorem flowComplexity_eq : (document.binary.get "controlFlow").get "complexity" =
    .str (Sections.flowComplexity sections.profile.controlFlow) := by
  rw [binary, toJson_eq h]
  rfl

theorem interactionComplexity_eq :
    (document.toJson.get "callGraphAnalysis").get "interactionComplexity" =
      .str sections.graph.complexity := by
  rw [toJson_eq h]
  rfl

theorem riskLevel_eq : (document.toJson.get "executiveSummary").get "riskLevel" =
    .str (riskLevel sections.safety.score) := by
  rw [toJson_eq h]
  rfl

theorem safetyScore_eq : (document.toJson.get "safetyAnalysis").get "safetyScore" =
    .int sections.safety.score := by
  rw [toJson_eq h]
  rfl

theorem authorities_eq : document.authorities =
    sections.authorities.map Control.Authority.toJson := by
  rw [authorities, toJson_eq h]
  rfl

end Document

end ProgramAudit.Report
