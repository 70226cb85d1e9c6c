import ProgramAudit.Program.Image
import ProgramAudit.Report.Document
import ProgramAudit.Stage

namespace ProgramAudit

open Program Traffic Control Finding Score

instance : Assessed Json := ⟨fun _ => true⟩

instance {α : Type} : Assessed (List α) := ⟨fun _ => true⟩

instance : Assessed Image := ⟨Image.computed⟩

instance : Assessed Profile := ⟨Profile.computed⟩

instance : Assessed Economics := ⟨Economics.computed⟩

instance : Assessed CallGraph := ⟨CallGraph.computed⟩

instance : Assessed Fees := ⟨Fees.computed⟩

instance : Assessed Interface := ⟨Interface.computed⟩

instance : Assessed Governance := ⟨Governance.computed⟩

instance : Assessed Behavior := ⟨Behavior.computed⟩

instance : Assessed Safety := ⟨Safety.computed⟩

instance : Assessed DeepDive := ⟨DeepDive.computed⟩

instance : Assessed Prediction := ⟨Prediction.computed⟩

instance : Assessed Report.Document := ⟨Report.Document.computed⟩

namespace Audit

structure Fetched where
  program : StageResult Image
  transactions : StageResult (List Classified)
  price : StageResult Json

structure Derived where
  binary : StageResult Profile
  tokenDecimals : StageResult Decimals

structure Analyzed where
  economics : StageResult Economics
  callGraph : StageResult CallGraph
  vulnerabilities : StageResult (List Vulnerability)
  authorities : StageResult (List Authority)
  fees : StageResult Fees
  interface : StageResult Interface
  upgrades : StageResult (List Upgrade)

structure Fused where
  governance : StageResult Governance
  behavior : StageResult Behavior
  safety : StageResult Safety
  deepDive : StageResult DeepDive
  risks : StageResult (List Risk)

structure Stages where
  fetched : Fetched
  derived : Derived
  analyzed : Analyzed
  fused : Fused
  prediction : StageResult Prediction

/-- The name of a stage, whether its value is more than a stand-in, and why it is not. -/
structure Outcome where
  stage : String
  computed : Bool
  error : Option String
deriving DecidableEq

def Outcome.of {α : Type} (result : StageResult α) : Outcome :=
  ⟨result.stage, result.computed, result.error⟩

def Outcome.degraded (outcome : Outcome) : Bool := !outcome.computed

def Outcome.toJson (outcome : Outcome) : Json :=
  .obj [
    ("stage", .str outcome.stage),
    ("computed", .bool outcome.computed),
    ("error", Json.ofOption .str outcome.error)]

def Stages.outcomes (stages : Stages) : List Outcome :=
  [.of stages.fetched.program,
    .of stages.fetched.transactions,
    .of stages.fetched.price,
    .of stages.derived.binary,
    .of stages.derived.tokenDecimals,
    .of stages.analyzed.economics,
    .of stages.analyzed.callGraph,
    .of stages.analyzed.vulnerabilities,
    .of stages.analyzed.authorities,
    .of stages.analyzed.fees,
    .of stages.analyzed.interface,
    .of stages.analyzed.upgrades,
    .of stages.fused.governance,
    .of stages.fused.behavior,
    .of stages.fused.safety,
    .of stages.fused.deepDive,
    .of stages.fused.risks,
    .of stages.prediction]

def degradedNames (outcomes : List Outcome) : List String :=
  (outcomes.filter Outcome.degraded).map Outcome.stage

end Audit

structure Audit where
  address : String
  stages : Audit.Stages
  report : StageResult Report.Document

namespace Audit

def outcomes (audit : Audit) : List Outcome :=
  audit.stages.outcomes ++ [.of audit.report]

def degraded (audit : Audit) : List String := degradedNames audit.outcomes

def document (audit : Audit) : Report.Document := audit.report.value

def toJson (audit : Audit) : Json :=
  .obj [
    ("address", .str audit.address),
    ("stages", .obj (audit.outcomes.map fun outcome => (outcome.stage, outcome.toJson))),
    ("report", audit.document.toJson)]

end Audit

end ProgramAudit
