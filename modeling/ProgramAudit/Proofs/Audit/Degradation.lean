import ProgramAudit.Json.Identity
import ProgramAudit.Proofs.Audit.Sound
import ProgramAudit.Proofs.Table

/-!
Degradation. Under time limits an audit of a valid address always ends with a report, and the report
names exactly the stages that have only a stand-in. The names are collected in three places: before
the report, in the report without content, and from the outcomes at the end.
-/

namespace ProgramAudit.Audit

/-- The stages before the report, in their order. -/
def analysisNames : List String :=
  ["program", "transactions", "price", "binary", "token_decimals", "economics", "call_graph",
    "vulnerabilities", "authorities", "fees", "idl", "upgrades", "governance", "behavior", "safety",
    "deep_dive", "risks", "prediction"]

/-- The stages of an audit, in their order. -/
def stageNames : List String := analysisNames ++ ["report"]

variable {τ σ : Type} [Clock τ]
variable {plan : Plan} {around : Surroundings τ σ} {address : String} {given : Json}
  {P : Result Json → Prop}

open Routine

/-! ### Termination -/

theorem live_recorded {α : Type} (records : α → List Journal.Record) (result : Result α) :
    (recorded records result : Routine τ σ α).Live :=
  live_bind (live_ofResult result) fun _ => live_bind (live_notes _) fun _ => live_succeed _

theorem live_fetchAll (hstage : plan.stageTimeout.isSome = true)
    (hfetch : plan.fetchTimeout.isSome = true) : (fetchAll plan around address).Live :=
  live_bind (live_settleLater (live_join (live_spawned (Stage.live_runTimed hstage))
    (live_join (live_spawned (Stage.live_runTimed hfetch))
      (live_spawned (Stage.live_runTimed hstage))))) fun _ => live_succeed _

theorem live_derive (hstage : plan.stageTimeout.isSome = true) (fetched : Fetched) :
    (derive plan around address fetched).Live := by
  have hdecimals : (decimalsStage plan around fetched.transactions.value).Live :=
    Stage.live_runTimed hstage
  have hbinary : (binaryStage fetched.program.value address : Routine τ σ _).Live :=
    Stage.live_run (live_recorded _ _)
  unfold derive
  dsimp only
  split
  · exact live_bind hdecimals fun _ => live_succeed _
  · refine live_bind (live_settleLater (live_join (live_spawned hbinary)
      (live_spawned hdecimals))) fun _ => live_succeed _

theorem live_analyze (hstage : plan.stageTimeout.isSome = true) (fetched : Fetched)
    (derived : Derived) : (analyze plan around address fetched derived).Live :=
  live_bind (live_settleLater
    (live_join (live_spawned (Stage.live_run (live_recorded _ _)))
    (live_join (live_spawned (Stage.live_run (live_recorded _ _)))
    (live_join (live_spawned (Stage.live_run (live_recorded _ _)))
    (live_join (live_spawned (Stage.live_runTimed hstage))
    (live_join (live_spawned (Stage.live_run (live_ofResult _)))
    (live_join (live_spawned (Stage.live_run (live_ofResult _)))
      (live_spawned (Stage.live_run (live_recorded _ _)))))))))) fun _ => live_succeed _

theorem live_fuse (fetched : Fetched) (derived : Derived) (analyzed : Analyzed) :
    (fuse fetched derived analyzed : Routine τ σ Fused).Live :=
  live_bind (live_settleLater
    (live_join (live_spawned (Stage.live_run (live_ofResult _)))
    (live_join (live_spawned (Stage.live_run (live_ofResult _)))
    (live_join (live_spawned (Stage.live_run (live_recorded _ _)))
    (live_join (live_spawned (Stage.live_run (live_ofResult _)))
      (live_spawned (Stage.live_run (live_ofResult _)))))))) fun _ => live_succeed _

theorem live_runStages (hstage : plan.stageTimeout.isSome = true)
    (hfetch : plan.fetchTimeout.isSome = true) : (runStages plan around address).Live :=
  live_bind (live_fetchAll hstage hfetch) fun fetched =>
    live_bind (live_derive hstage fetched) fun derived =>
    live_bind (live_analyze hstage fetched derived) fun analyzed =>
    live_bind (live_fuse fetched derived analyzed) fun _ =>
    live_bind (Stage.live_run (live_ofResult _)) fun _ => live_succeed _

/-- Under time limits an audit ends, whatever its source does or fails to do. -/
theorem live_audit (hstage : plan.stageTimeout.isSome = true)
    (hfetch : plan.fetchTimeout.isSome = true) : (run plan around given).Live :=
  live_bind (live_ofResult _) fun _ =>
    live_bind (live_ofResult _) fun _ =>
    live_bind (live_note _) fun _ =>
    live_bind (live_runStages hstage hfetch) fun _ =>
    live_bind (live_notes _) fun _ =>
    live_bind (live_ofResult _) fun _ =>
    live_bind (live_ofResult _) fun _ =>
    live_bind (Stage.live_run (live_recorded _ _)) fun _ =>
    live_bind (live_note _) fun _ => live_succeed _

/-! ### The names of what is degraded -/

theorem Outcome.toJson_computed (outcome : Outcome) :
    outcome.toJson.get "computed" = .bool outcome.computed := rfl

theorem Outcome.toJson_error (outcome : Outcome) :
    outcome.toJson.get "error" = Json.ofOption .str outcome.error := rfl

/-- An outcome says why exactly if it is degraded, and what it says can be read. -/
def Outcome.Explained (outcome : Outcome) : Prop :=
  StageResult.Explains outcome.computed outcome.error

theorem explained_binaryOf (address : String) (program : StageResult Program.Image) :
    (Outcome.of (binaryOf address program)).Explained := by
  unfold binaryOf
  split
  · exact StageResult.explains_standIn fun htext =>
      absurd (String.append_eq_empty_iff.mp htext).1 (by decide : "program image unavailable: " ≠ "")
  · exact StageResult.explains_ofResult _ _ _ _

theorem stage_binaryOf (address : String) (program : StageResult Program.Image) :
    (binaryOf address program).stage = "binary" := by
  unfold binaryOf
  split
  · rfl
  · exact StageResult.stage_ofResult _ _ _ _

theorem Stages.Sound.names {stages : Stages} (h : stages.Sound plan address P) :
    stages.outcomes.map Outcome.stage = analysisNames := by
  obtain ⟨⟨⟨_, -, hprogram⟩, ⟨_, htransactions⟩, ⟨_, -, hprice⟩⟩, ⟨hbinary, ⟨_, hdecimals⟩⟩,
    ⟨heconomics, hgraph, hvulnerabilities, ⟨_, -, hauthorities⟩, hfees, hinterface, hupgrades⟩,
    ⟨hgovernance, hbehavior, hsafety, hdeepDive, hrisks⟩, hprediction⟩ := h
  simp only [Stages.outcomes, Outcome.of, List.map_cons, List.map_nil, hprogram, htransactions,
    hprice, hbinary, hdecimals, heconomics, hgraph, hvulnerabilities, hauthorities, hfees,
    hinterface, hupgrades, hgovernance, hbehavior, hsafety, hdeepDive, hrisks, hprediction,
    stage_binaryOf, StageResult.stage_ofResult, analysisNames]

theorem Stages.Sound.explained {stages : Stages} (h : stages.Sound plan address P) :
    ∀ outcome ∈ stages.outcomes, outcome.Explained := by
  obtain ⟨⟨⟨_, -, hprogram⟩, ⟨_, htransactions⟩, ⟨_, -, hprice⟩⟩, ⟨hbinary, ⟨_, hdecimals⟩⟩,
    ⟨heconomics, hgraph, hvulnerabilities, ⟨_, -, hauthorities⟩, hfees, hinterface, hupgrades⟩,
    ⟨hgovernance, hbehavior, hsafety, hdeepDive, hrisks⟩, hprediction⟩ := h
  have hofResult {α : Type} [Assessed α] {result : StageResult α} {stage limit fallback found}
      (h : result = StageResult.ofResult stage limit fallback found) :
      (Outcome.of result).Explained :=
    h ▸ StageResult.explains_ofResult _ _ _ _
  simp only [Stages.outcomes, List.forall_mem_cons]
  exact ⟨hofResult hprogram, hofResult htransactions, hofResult hprice,
    hbinary ▸ explained_binaryOf _ _, hofResult hdecimals, hofResult heconomics, hofResult hgraph,
    hofResult hvulnerabilities, hofResult hauthorities, hofResult hfees, hofResult hinterface,
    hofResult hupgrades, hofResult hgovernance, hofResult hbehavior, hofResult hsafety,
    hofResult hdeepDive, hofResult hrisks, hofResult hprediction, nofun⟩

theorem nodup_stageNames : stageNames.Nodup := by decide

theorem nodup_degradedNames {stages : Stages} (h : stages.Sound plan address P) :
    (degradedNames stages.outcomes ++ [Report.Document.ownSection]).Nodup := by
  have hsublist : (degradedNames stages.outcomes).Sublist analysisNames :=
    h.names ▸ List.filter_sublist.map _
  exact nodup_stageNames.sublist (hsublist.append (List.Sublist.refl _))

/-- What the report says of its own stage. -/
theorem degraded_compose (inputs : Report.Inputs) (generatedAt : String)
    (h : (inputs.degraded ++ [Report.Document.ownSection]).Nodup) :
    (Report.Document.compose inputs generatedAt).degraded = inputs.degraded ++
      (if (Report.Document.compose inputs generatedAt).computed then []
        else [Report.Document.ownSection]) := by
  unfold Report.Document.compose
  cases Report.Sections.ofInputs inputs with
  | ok sections => simp [Report.Document.computed]
  | error failure => exact distinct_of_nodup h

theorem Sound.report_outcome {audit : Audit} {now : Number} (h : audit.Sound plan now address P) :
    Outcome.of audit.report = ⟨Report.Document.ownSection,
      audit.document.computed,
      if audit.document.computed then none else some StageResult.neutralText⟩ := by
  obtain ⟨_, _, -, -, hreport⟩ := h.report
  unfold document
  rw [hreport]
  rfl

theorem Sound.degraded_eq {audit : Audit} {now : Number} (h : audit.Sound plan now address P) :
    audit.degraded = degradedNames audit.stages.outcomes ++
      (if audit.document.computed then [] else [Report.Document.ownSection]) := by
  simp only [degraded, outcomes, degradedNames, List.filter_append, List.map_append,
    h.report_outcome]
  cases audit.document.computed <;> rfl

theorem Sound.document_degraded {audit : Audit} {now : Number}
    (h : audit.Sound plan now address P) : audit.document.degraded = audit.degraded := by
  obtain ⟨generatedAt, price, hvalue⟩ := h.document_eq
  rw [h.degraded_eq, hvalue]
  exact degraded_compose _ generatedAt (nodup_degradedNames h.stages)

theorem metadata_degradedSections (document : Report.Document) :
    (document.toJson.get "metadata").get "degradedSections" = Json.strings document.degraded := by
  unfold Report.Document.toJson
  cases document.body <;> rfl

/-- The stages of an audit, what each says of itself, and what the report says of all. -/
structure Accounted (audit : Audit) : Prop where
  names : audit.outcomes.map Outcome.stage = stageNames
  explained : ∀ outcome ∈ audit.outcomes, (outcome.toJson.get "computed" = .bool false ↔
    ∃ reason, reason ≠ "" ∧ outcome.toJson.get "error" = .str reason)
  degraded : audit.degraded =
    (audit.outcomes.filter fun outcome => outcome.toJson.get "computed" = .bool false).map
      Outcome.stage
  reported : (audit.document.toJson.get "metadata").get "degradedSections" =
    Json.strings audit.degraded
  own : audit.document.computed = false ↔ audit.degraded.getLast? = some "report"

theorem Sound.accounted {audit : Audit} {now : Number} (h : audit.Sound plan now address P) :
    audit.Accounted where
  names := by
    simp only [outcomes, List.map_append, h.stages.names, h.report_outcome]
    rfl
  explained := by
    have hexplained : ∀ outcome ∈ audit.outcomes, outcome.Explained := by
      intro outcome houtcome
      rcases List.mem_append.mp houtcome with hbefore | hreport
      · exact h.stages.explained outcome hbefore
      · rw [h.report_outcome, List.mem_singleton] at hreport
        subst hreport
        cases audit.document.computed with
        | true => exact StageResult.explains_value
        | false => exact StageResult.explains_standIn (by decide : StageResult.neutralText ≠ "")
    intro outcome houtcome
    obtain ⟨hcomputed, hreason⟩ := hexplained outcome houtcome
    rw [Outcome.toJson_computed, Outcome.toJson_error]
    cases herror : outcome.error with
    | none =>
        rw [hcomputed.mp herror]
        exact ⟨nofun, fun ⟨_, _, hnull⟩ => nomatch hnull⟩
    | some reason =>
        have hdegraded : outcome.computed = false := by
          simpa [herror] using hcomputed
        rw [hdegraded]
        exact ⟨fun _ => ⟨reason, hreason reason herror, rfl⟩, fun _ => rfl⟩
  degraded := by
    simp only [Audit.degraded, degradedNames]
    congr 2
    funext outcome
    cases outcome with
    | mk stage computed error => cases computed <;> rfl
  reported := by rw [metadata_degradedSections, h.document_degraded]
  own := by
    -- No stage before the report has its name, so the last name tells which of the two it is.
    have hmissing : "report" ∉ degradedNames audit.stages.outcomes := fun hmem =>
      (List.nodup_append.mp (nodup_degradedNames h.stages)).2.2 _ hmem _
        List.mem_cons_self rfl
    rw [h.degraded_eq]
    cases audit.document.computed with
    | true => simpa using fun hlast => hmissing (List.mem_of_getLast? hlast)
    | false => simp [Report.Document.ownSection]

/-! ### Audits that are not refused -/

/-- A price that is a double, if there is one. -/
def IsReal (result : Result Json) : Prop := ∀ value, result = .ok value → ∃ x, value = .real x

/-- What an audit needs so that nothing ends it before its report: a valid address, a timeframe, a
date, and time limits. -/
structure Ready (plan : Plan) (around : Surroundings τ σ) (given : Json) : Prop where
  valid : (Address.ofValue? given).isSome = true
  timeframe : (Traffic.Timeframe.seconds? plan.fetch.timeframe).isOk = true
  dated : (Report.Timestamp.ofSeconds around.now).isOk = true
  stage : plan.stageTimeout.isSome = true
  fetch : plan.fetchTimeout.isSome = true
  priced : around.price.Settles IsReal

theorem Ready.sound (h : Ready plan around given) (progress : Progress τ σ) :
    ∃ audit address, (Routine.run progress (run plan around given)).result = some (.ok audit) ∧
      Address.validate given = .ok address ∧ audit.Sound plan around.now address IsReal := by
  have hlive : (run plan around given).Live := live_audit h.stage h.fetch
  obtain ⟨result, hresult⟩ := run_live progress hlive
  cases run_settles progress (settles_run h.priced nofun) hresult with
  | invalid hinvalid =>
      obtain ⟨address, haddress⟩ := Option.isSome_iff_exists.mp h.valid
      simp [Address.validate, haddress] at hinvalid
  | unbounded hunbounded => simpa [hunbounded, Except.isOk, Except.toBool] using h.timeframe
  | undated hundated => simpa [hundated, Except.isOk, Except.toBool] using h.dated
  | @unpriced _ found hreal hunpriced =>
      cases found with
      | error failure => cases hunpriced
      | ok value =>
          obtain ⟨x, rfl⟩ := hreal value rfl
          cases hunpriced
  | done hvalid hsound => exact ⟨_, _, hresult, hvalid, hsound⟩

/-- A source that is silent about accounts, fails for transactions and knows no mint. -/
def brokenSurroundings : Surroundings τ Unit where
  source := {
    account := fun _ => .halt
    transactions := fun _ _ => fail (.transient "refused" none)
    mint := fun _ => succeed none }
  price := .halt
  sleep := Routine.sleep
  now := 1700000000

theorem ready_brokenSurroundings :
    Ready {} (brokenSurroundings : Surroundings τ Unit)
      (.str "11111111111111111111111111111111") where
  valid := by decide +kernel
  timeframe := by decide +kernel
  dated := (by decide +kernel : (Report.Timestamp.ofSeconds 1700000000).isOk = true)
  stage := rfl
  fetch := rfl
  priced := settles_halt _

end ProgramAudit.Audit
