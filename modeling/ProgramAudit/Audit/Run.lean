import ProgramAudit.Audit.Stages
import ProgramAudit.Journal.Logger
import ProgramAudit.Report.Timestamp
import ProgramAudit.Traffic.Window

/-! One audit: its stages, each of which may fail alone, and the report on them. -/

namespace ProgramAudit.Audit

open Program Traffic Control Finding Score Ledger

/-- How an audit is run: the time limit of a stage that reads, the one of the transactions with
their retries, and which transactions are read. -/
structure Plan where
  stageTimeout : Option Number := some 5.0
  fetchTimeout : Option Number := some 60.0
  fetch : FetchPlan := {}
  network : String := "mainnet"
  kinds : KindPolicy := {}

def defaultPrice : Json := .real 150.0

/-- Everything around an audit: where it reads from, who tells the price, how it waits before
reading again, and what time it is. -/
structure Surroundings (τ σ : Type) where
  source : Source τ σ
  price : Routine τ σ Json
  sleep : Number → Routine τ σ Unit
  now : Number

def record (level : Journal.Level) (address event : String) (fields : List (String × Json)) :
    Journal.Record :=
  .ofEvent level (Journal.Logger.ofProgram address).bound event fields

variable {τ σ α β : Type} [Clock τ]

/-- A result with the records that it leaves. -/
def recorded (records : α → List Journal.Record) (result : Result α) : Routine τ σ α := do
  let value ← Routine.ofResult result
  Routine.notes (records value)
  return value

def priceStage (plan : Plan) (around : Surroundings τ σ) : Routine τ σ (StageResult Json) :=
  Stage.runTimed "price" plan.stageTimeout defaultPrice around.price

def programStage (plan : Plan) (around : Surroundings τ σ) (address : String) :
    Routine τ σ (StageResult Image) :=
  Stage.runTimed "program" plan.stageTimeout (.missing address)
    (Image.fetch around.source address)

def transactionsStage (plan : Plan) (around : Surroundings τ σ) (address : String) :
    Routine τ σ (StageResult (List Classified)) :=
  Stage.runTimed "transactions" plan.fetchTimeout []
    (Window.fetchClassified around.source around.sleep plan.fetch plan.kinds around.now address)

def fetchAll (plan : Plan) (around : Surroundings τ σ) (address : String) :
    Routine τ σ Fetched := do
  let (program, transactions, price) ← (Routine.join
    (Routine.spawned (programStage plan around address))
    (Routine.join (Routine.spawned (transactionsStage plan around address))
      (Routine.spawned (priceStage plan around)))).settleLater
  return { program, transactions, price }

def decimalsStage (plan : Plan) (around : Surroundings τ σ) (window : List Classified) :
    Routine τ σ (StageResult Decimals) :=
  Stage.runTimed "token_decimals" plan.stageTimeout []
    (Mints.lookUp around.source (Mints.ofWindow {} window))

def binaryStage (image : Image) (address : String) : Routine τ σ (StageResult Profile) :=
  let authorities := image.candidateAuthorities
  Stage.run "binary" none (.neutral address authorities)
    (recorded (fun _ => [Profile.record {} (some image.data) address authorities])
      (.ok (Profile.ofData {} (some image.data) address authorities)))

/-- The profile of a program whose image is only a stand-in. -/
def unavailableBinary (program : StageResult Image) (address : String) : StageResult Profile :=
  let reason := program.error.getD "None"
  { stage := "binary"
    value := .neutral address program.value.candidateAuthorities
    computed := false
    error := some s!"program image unavailable: {reason}" }

/-- Profiles the image if it is there, and looks up the decimals of the tokens. -/
def derive (plan : Plan) (around : Surroundings τ σ) (address : String) (fetched : Fetched) :
    Routine τ σ Derived := do
  let lookUp := decimalsStage plan around fetched.transactions.value
  if fetched.program.degraded then
    let tokenDecimals ← lookUp
    return { binary := unavailableBinary fetched.program address, tokenDecimals }
  else
    let (binary, tokenDecimals) ← Routine.both (binaryStage fetched.program.value address) lookUp
    return { binary, tokenDecimals }

def economicsStage (address : String) (window : List Classified) (decimals : Decimals) :
    Routine τ σ (StageResult Economics) :=
  Stage.run "economics" none .neutral
    (recorded (fun economics => [economics.record address])
      (Economics.ofWindow {} decimals address window))

def callGraphStage (address : String) (window : List Classified) :
    Routine τ σ (StageResult CallGraph) :=
  Stage.run "call_graph" none (.empty address)
    (recorded (fun _ => [CallGraph.record address (CallGraph.footprintsOf window)])
      (.ok (CallGraph.ofWindow address window)))

def vulnerabilitiesStage (profile : Profile) : Routine τ σ (StageResult (List Vulnerability)) :=
  Stage.run "vulnerabilities" none []
    (recorded (fun _ => Scan.records Rule.standard {} profile)
      (Scan.run Rule.standard {} (some profile)))

def authoritiesStage (plan : Plan) (around : Surroundings τ σ) (profile : Profile) :
    Routine τ σ (StageResult (List Authority)) :=
  Stage.runTimed "authorities" plan.stageTimeout []
    (Authority.fetchAll around.source around.now ((profile.candidateAuthorities.getD []).map some))

def feesStage (window : List Classified) : Routine τ σ (StageResult Fees) :=
  Stage.run "fees" none { computed := false }
    (Routine.ofResult (Fees.ofWindow Fees.defaultMultiplier window))

def interfaceStage (profile : Profile) (window : List Classified) :
    Routine τ σ (StageResult Interface) :=
  Stage.run "idl" none { computed := false }
    (Routine.ofResult (Interface.ofWindow (some profile) Interface.defaultCount window))

def upgradesStage (window : List Classified) : Routine τ σ (StageResult (List Upgrade)) :=
  Stage.run "upgrades" none [] (recorded Upgrade.records (.ok (Upgrade.ofWindow window)))

/-- Runs the analyses that do not need one another at once. -/
def analyze (plan : Plan) (around : Surroundings τ σ) (address : String) (fetched : Fetched)
    (derived : Derived) : Routine τ σ Analyzed := do
  let window := fetched.transactions.value
  let profile := derived.binary.value
  let (economics, callGraph, vulnerabilities, authorities, fees, interface, upgrades) ←
    (Routine.join
      (Routine.spawned (economicsStage address window derived.tokenDecimals.value))
    (Routine.join (Routine.spawned (callGraphStage address window))
    (Routine.join (Routine.spawned (vulnerabilitiesStage profile))
    (Routine.join (Routine.spawned (authoritiesStage plan around profile))
    (Routine.join (Routine.spawned (feesStage window))
    (Routine.join (Routine.spawned (interfaceStage profile window))
      (Routine.spawned (upgradesStage window)))))))).settleLater
  return { economics, callGraph, vulnerabilities, authorities, fees, interface, upgrades }

def governanceStage (analyzed : Analyzed) : Routine τ σ (StageResult Governance) :=
  Stage.run "governance" none .neutral
    (Routine.ofResult (Governance.infer {} analyzed.authorities.value
      (some analyzed.callGraph.value)))

def behaviorStage (profile : Profile) (analyzed : Analyzed) :
    Routine τ σ (StageResult Behavior) :=
  Stage.run "behavior" none .neutral
    (Routine.ofResult (Behavior.infer {} (some profile) (some analyzed.economics.value)))

def safetyStage (profile : Profile) (analyzed : Analyzed) : Routine τ σ (StageResult Safety) :=
  Stage.run "safety" none .neutral
    (recorded (fun safety => [Safety.record (some profile) safety])
      (Safety.assess {} (some profile) analyzed.authorities.value
        (some analyzed.economics.value) (some analyzed.callGraph.value)))

def deepDiveStage (profile : Profile) (window : List Classified) (analyzed : Analyzed) :
    Routine τ σ (StageResult DeepDive) :=
  Stage.run "deep_dive" none { computed := false }
    (Routine.ofResult (DeepDive.ofWindow (some profile) (some analyzed.economics.value) window))

def risksStage (profile : Profile) (analyzed : Analyzed) : Routine τ σ (StageResult (List Risk)) :=
  Stage.run "risks" none []
    (Routine.ofResult (Risk.assess (some profile) analyzed.vulnerabilities.value))

/-- Draws the conclusions from the analyses at once. -/
def fuse (fetched : Fetched) (derived : Derived) (analyzed : Analyzed) : Routine τ σ Fused := do
  let profile := derived.binary.value
  let (governance, behavior, safety, deepDive, risks) ←
    (Routine.join (Routine.spawned (governanceStage analyzed))
    (Routine.join (Routine.spawned (behaviorStage profile analyzed))
    (Routine.join (Routine.spawned (safetyStage profile analyzed))
    (Routine.join
      (Routine.spawned (deepDiveStage profile fetched.transactions.value analyzed))
      (Routine.spawned (risksStage profile analyzed)))))).settleLater
  return { governance, behavior, safety, deepDive, risks }

def predictionStage (analyzed : Analyzed) (fused : Fused) :
    Routine τ σ (StageResult Prediction) :=
  Stage.run "prediction" none .neutral
    (Routine.ofResult (Prediction.predict {} analyzed.authorities.value
      (some analyzed.economics.value) (some fused.safety.value)))

def runStages (plan : Plan) (around : Surroundings τ σ) (address : String) :
    Routine τ σ Stages := do
  let fetched ← fetchAll plan around address
  let derived ← derive plan around address fetched
  let analyzed ← analyze plan around address fetched derived
  let fused ← fuse fetched derived analyzed
  let prediction ← predictionStage analyzed fused
  return { fetched, derived, analyzed, fused, prediction }

def reportInputs (plan : Plan) (address : String) (price : Float) (stages : Stages) :
    Report.Inputs where
  address := address
  profile := some stages.derived.binary.value
  economics := some stages.analyzed.economics.value
  graph := some stages.analyzed.callGraph.value
  authorities := some stages.analyzed.authorities.value
  governance := some stages.fused.governance.value
  vulnerabilities := some stages.analyzed.vulnerabilities.value
  safety := some stages.fused.safety.value
  behavior := some stages.fused.behavior.value
  prediction := some stages.prediction.value
  fees := some stages.analyzed.fees.value
  deepDive := some stages.fused.deepDive.value
  assessedRisks := some stages.fused.risks.value
  interface := some stages.analyzed.interface.value
  upgrades := some stages.analyzed.upgrades.value
  solPrice := some price
  degraded := degradedNames stages.outcomes
  network := plan.network

def reportStage (inputs : Report.Inputs) (generatedAt : String) :
    Routine τ σ (StageResult Report.Document) :=
  Stage.run "report" none
    (.fallback inputs.address generatedAt inputs.network inputs.degraded)
    (recorded (fun _ => [Report.Document.record inputs])
      (.ok (Report.Document.compose inputs generatedAt)))

def fallbackRecord? (address : String) (outcome : Outcome) : Option Journal.Record :=
  if outcome.degraded then
    some (record .warning address "stage_fallback_used"
      [("stage", .str outcome.stage), ("reason", .str (StageResult.reasonTold outcome.error))])
  else none

def startedRecord (plan : Plan) (address : String) : Journal.Record :=
  record .info address "audit_started"
    [("limit", .int plan.fetch.limit), ("timeframe", Json.ofOption .str plan.fetch.timeframe)]

def completedRecord (audit : Audit) : Journal.Record :=
  record .info audit.address "audit_completed" [
    ("safety_score", .int audit.document.safetyScore),
    ("degraded_sections", Json.strings (degradedNames audit.stages.outcomes)),
    ("transaction_count", .int audit.stages.fetched.transactions.value.length)]

/-- Audits a program. Only an invalid address or timeframe ends an audit before anything is read;
everything that goes wrong later degrades a stage. -/
def run (plan : Plan) (around : Surroundings τ σ) (given : Json) : Routine τ σ Audit := do
  let address ← Routine.ofResult (Address.validate given)
  let _ ← Routine.ofResult (Timeframe.seconds? plan.fetch.timeframe)
  Routine.note (startedRecord plan address)
  let stages ← runStages plan around address
  Routine.notes (stages.outcomes.filterMap (fallbackRecord? address))
  let generatedAt ← Routine.ofResult (Report.Timestamp.ofSeconds around.now)
  let price ← Routine.ofResult stages.fetched.price.value.toDouble
  let report ← reportStage (reportInputs plan address price stages) generatedAt
  let audit : Audit := { address, stages, report }
  Routine.note (completedRecord audit)
  return audit

end ProgramAudit.Audit
