import ProgramAudit.Proofs.Report.Drafts
import ProgramAudit.Proofs.Table

/-!
Drafts without gaps. Each section comes out of them as it comes out of the parts themselves, so nothing is
lost by drafting.
-/

namespace ProgramAudit.Report.Draft

open Result Sections

variable {α β : Type}

/-! ### Parts without gaps -/

theorem written_map {write : α → Result Json} {draft : β → α} {json : β → Json} {items : List β}
    (h : ∀ item ∈ items, write (draft item) = .ok (json item)) :
    written write (some (items.map fun item => some (draft item))) = .ok (.arr (items.map json)) :=
  bind_ok rfl <| bind_ok (mapM_map_eq_ok_map h) rfl

theorem texts_map (values : List String) : texts (values.map some) = Json.strings values := by
  rw [texts, List.map_map]
  rfl

theorem toJson_behavior (behavior : Score.Behavior) :
    (Behavior.ofWhole behavior).toJson = behavior.toJson := by
  simp only [Behavior.toJson, Behavior.ofWhole, List.map_map]
  rfl

theorem toJson_prediction (prediction : Score.Prediction) :
    (Prediction.ofWhole prediction).toJson = .ok prediction.toJson :=
  bind_ok (written_map fun _ _ => rfl) rfl

theorem toJson_tokenFlows (flows : Traffic.TokenFlows) :
    (TokenFlows.ofWhole flows).toJson = .ok flows.toJson :=
  bind_ok (written_map fun _ _ => rfl) <| bind_ok (written_map fun _ _ => rfl) rfl

theorem toJson_fees (fees : Traffic.Fees) : (Fees.ofWhole fees).toJson = .ok fees.toJson :=
  bind_ok (written_map fun _ _ => rfl) rfl

theorem toJson_deepDive (dive : Traffic.DeepDive) :
    (DeepDive.ofWhole dive).toJson = .ok dive.toJson := by
  refine bind_ok (written_map fun _ _ => rfl) ?_
  simp only [DeepDive.ofWhole, List.map_map]
  rfl

theorem toJson_interface (interface : Traffic.Interface) :
    (Interface.ofWhole interface).toJson = .ok interface.toJson :=
  bind_ok (written_map fun _ _ => bind_ok (written_map fun _ _ => rfl) rfl) rfl

theorem toJson_governance (governance : Control.Governance) :
    (Governance.ofWhole governance).toJson = .ok governance.toJson := by
  refine bind_ok rfl ?_
  rw [texts_map]
  rfl

theorem sortedNames_map (names : List String) :
    Profile.sortedNames (names.map some) = .ok ((Program.Profile.sortNames names).map some) := by
  unfold Profile.sortedNames
  split_ifs with hshort
  · match names with
    | [] | [_] => simp [Program.Profile.sortNames]
    | _ :: _ :: _ => simp at hshort
  · exact bind_ok (mapM_map_eq_ok fun _ _ => rfl) rfl

theorem demandSyscalls_eq_ok {profile : Program.Profile} {found : List String} :
    profile.demandSyscalls = .ok found ↔
      ∃ names, profile.syscalls = some names ∧ Program.Profile.sortNames names = found := by
  unfold Program.Profile.demandSyscalls
  cases profile.syscalls with
  | none => exact iff_of_false nofun nofun
  | some names => simp

theorem heldTally?_ofWhole (economics : Traffic.Economics) (kind : Traffic.Kind) :
    (Economics.ofWhole economics).heldTally? kind =
      (economics.tallyOf kind).map Tally.ofWhole := by
  unfold Economics.heldTally? Economics.ofWhole Traffic.Economics.tallyOf
  dsimp only
  induction economics.byKind with
  | nil => rfl
  | cons entry rest ih =>
      rw [List.map_cons, Table.get?, Table.get?]
      split_ifs
      · rfl
      · exact ih

theorem tally_ofWhole (economics : Traffic.Economics) (kinds : List Traffic.Kind) :
    (Economics.ofWhole economics).tally kinds = .ok (economics.tally kinds) := by
  have hheld : kinds.filterMap (Economics.ofWhole economics).heldTally? =
      (kinds.filterMap fun kind => economics.tallyOf kind).map Tally.ofWhole := by
    rw [List.map_filterMap]
    exact congrArg (kinds.filterMap ·) (funext (heldTally?_ofWhole economics))
  refine bind_ok ?_ rfl
  rw [hheld]
  exact mapM_map_eq_ok fun _ _ => rfl

theorem groups_ofWhole (economics : Traffic.Economics) :
    Inputs.groups (.ofWhole economics) =
      .ok (kindGroups.map fun group => (group.1, (economics.tally group.2).toJson)) :=
  mapM_eq_ok_map fun group _ => bind_ok (tally_ofWhole economics group.2) rfl

/-- The key of a draft of an edge, from the key of the edge. -/
def draftKey (key : Traffic.CallGraph.EdgeKey) : CallEdge.Key := ⟨key.source, key.target, key.action⟩

theorem beq_draftKey (left right : Traffic.CallGraph.EdgeKey) :
    (draftKey left == draftKey right) = (left == right) := by
  obtain ⟨source, target, action⟩ := left
  obtain ⟨source', target', action'⟩ := right
  rw [Bool.eq_iff_iff, beq_iff_eq, beq_iff_eq]
  simp [draftKey]

theorem summary_ofWhole (graph : Traffic.CallGraph) :
    (CallGraph.summary (graph.edges.map fun edge =>
      (draftKey (Traffic.CallGraph.keyOf edge), edge.count))).map CallEdge.toJson =
        graph.summary.map Traffic.CallGraph.edgeJson := by
  let more (edge : Traffic.CallEdge) (count : Option Int) : Int := count.getD 0 + edge.count
  have htable : graph.edges.foldl (fun table edge =>
      Table.adjust (draftKey (Traffic.CallGraph.keyOf edge)) (more edge) table) [] =
        (graph.edges.foldl (fun table edge =>
          Table.adjust (Traffic.CallGraph.keyOf edge) (more edge) table) []).map
            (Prod.map draftKey id) :=
    Table.foldl_adjust_map Traffic.CallGraph.keyOf more [] fun edge _ held _ =>
      beq_draftKey held (Traffic.CallGraph.keyOf edge)
  rw [CallGraph.summary, List.foldl_map, htable, List.map_map, List.map_map,
    Traffic.CallGraph.summary, List.map_map]
  rfl

/-! ### Inputs without gaps -/

namespace Inputs

/-- Drafts of the parts that the sections of a report are made of. -/
def ofSections (address network : String) (degraded : List String) (sections : Report.Sections) :
    Inputs where
  address := address
  profile := some (.ofWhole sections.profile)
  economics := some (.ofWhole sections.economics)
  graph := some (.ofWhole sections.graph)
  authorities := some (sections.authorities.map fun item => some (.ofWhole item))
  governance := some (.ofWhole sections.governance)
  vulnerabilities := some (sections.vulnerabilities.map fun item => some (.ofWhole item))
  safety := some (.ofWhole sections.safety)
  behavior := some (.ofWhole sections.behavior)
  prediction := some (.ofWhole sections.prediction)
  fees := some (.ofWhole sections.fees)
  deepDive := some (.ofWhole sections.deepDive)
  assessedRisks := some (sections.assessedRisks.map fun item => some (.ofWhole item))
  interface := some (.ofWhole sections.interface)
  upgrades := some (sections.upgrades.map fun item => some (.ofWhole item))
  solPrice := some sections.solPrice
  degraded := degraded
  network := network

theorem ofWhole_eq {given : Report.Inputs} {sections : Report.Sections} (h : sections.MadeOf given) :
    ofWhole given = ofSections given.address given.network given.degraded sections := by
  simp only [ofWhole, ofSections, h.profile, h.economics, h.graph, h.authorities, h.governance,
    h.vulnerabilities, h.safety, h.behavior, h.prediction, h.fees, h.deepDive, h.assessedRisks,
    h.interface, h.upgrades, h.solPrice, Option.map_some]

variable {address network : String} {degraded : List String} {sections : Report.Sections}

-- Below, a step by `rfl` looks into a part: it is there, so the step has its value at once.

theorem judgedRisks_ofSections : (ofSections address network degraded sections).judgedRisks =
    .ok (sections.safety.risks.map fun risk => (.ofWhole risk, RankedRisk.isMalicious risk)) :=
  bind_ok rfl <| bind_ok rfl <| mapM_map_eq_ok_map fun _ _ => rfl

theorem findings_ofSections : (ofSections address network degraded sections).findings =
    .ok (sections.vulnerabilities.map .ofWhole) :=
  bind_ok rfl <| mapM_map_eq_ok_map fun _ _ => rfl

theorem countOf_ofWhole (severity : Severity) (found : List Finding.Vulnerability) :
    countOf severity (found.map .ofWhole) = Breakdown.countOf severity found := by
  unfold countOf Breakdown.countOf
  rw [List.countP_map]
  simp [Function.comp_def, Vulnerability.ofWhole]

theorem breakdown_ofSections : (ofSections address network degraded sections).breakdown =
    .ok sections.breakdown := by
  refine bind_ok judgedRisks_ofSections <| bind_ok findings_ofSections ?_
  simp only [countOf_ofWhole, List.countP_map, List.length_map]
  rfl

theorem findingsOf_ofWhole (severity : Severity) (found : List Finding.Vulnerability) :
    findingsOf severity (found.map .ofWhole) =
      (RankedRisk.vulnerabilitiesOf severity found).map RankedRisk.toJson := by
  unfold findingsOf RankedRisk.vulnerabilitiesOf
  rw [List.filter_map, List.map_map, List.map_map]
  simp only [Function.comp_def, Vulnerability.ofWhole, Option.some.injEq]
  refine List.map_congr_left fun item hitem => ?_
  obtain ⟨-, hseverity⟩ := List.mem_filter.mp hitem
  obtain rfl := of_decide_eq_true hseverity
  rfl

theorem risksOf_ofWhole (malicious : Bool) (risks : List Finding.Risk) :
    risksOf malicious (risks.map fun risk => (.ofWhole risk, RankedRisk.isMalicious risk)) =
      (RankedRisk.risksOf malicious risks).map RankedRisk.toJson := by
  unfold risksOf RankedRisk.risksOf
  rw [List.filter_map, List.map_map, List.map_map]
  refine List.map_congr_left fun risk hrisk => ?_
  obtain ⟨-, hmalicious⟩ := List.mem_filter.mp hrisk
  obtain rfl := beq_iff_eq.mp hmalicious
  rfl

theorem ranking_ofSections : (ofSections address network degraded sections).ranking =
    .ok (sections.ranking.map RankedRisk.toJson) := by
  refine bind_ok judgedRisks_ofSections <| bind_ok findings_ofSections ?_
  simp only [findingsOf_ofWhole, risksOf_ofWhole, Sections.ranking, RankedRisk.ranking, List.map_append]
  rfl

theorem keyFindings_ofSections :
    (ofSections address network degraded sections).keyFindings sections.safety.score
      sections.breakdown = .ok sections.keyFindings := by
  refine bind_ok rfl <| bind_ok rfl ?_
  simp only [List.length_map]
  rfl

theorem executiveSummary_ofSections :
    (ofSections address network degraded sections).executiveSummary =
      .ok sections.executiveSummary :=
  bind_ok breakdown_ofSections <| bind_ok rfl <| bind_ok rfl <| bind_ok rfl <| bind_ok rfl <|
    bind_ok keyFindings_ofSections rfl

theorem riskAssessment_ofSections : (ofSections address network degraded sections).riskAssessment =
    .ok sections.riskAssessment := by
  refine bind_ok breakdown_ofSections <| bind_ok ranking_ofSections <|
    bind_ok (written_map fun _ _ => rfl) <| bind_ok rfl <| bind_ok rfl <|
    bind_ok (toJson_prediction sections.prediction) ?_
  rw [toJson_behavior, List.length_map]
  rfl

theorem dependencies_map (nodes : List String) :
    dependencies address (nodes.map some) = (nodes.filter (· != address)).map some := by
  unfold dependencies
  rw [List.filter_map]
  refine congrArg (List.map some) (List.filter_congr fun node _ => ?_)
  simp [bne]

theorem binaryAnalysis_ofSections (hsyscalls : sections.profile.demandSyscalls = .ok sections.syscalls)
    (hrisk : sections.profile.reentrancyRisk = some sections.reentrancyRisk) :
    (ofSections address network degraded sections).binaryAnalysis =
      .ok (sections.binaryAnalysis address) := by
  obtain ⟨names, hnames, hsorted⟩ := demandSyscalls_eq_ok.mp hsyscalls
  have hdrafts : (Profile.ofWhole sections.profile).syscalls = some (names.map some) :=
    congrArg (Option.map (List.map some)) hnames
  refine bind_ok rfl <| bind_ok (orFail_eq_ok.mpr hdrafts) <| bind_ok (sortedNames_map names) <|
    bind_ok rfl <| bind_ok rfl <| bind_ok rfl <| bind_ok (Option.demand_eq_ok.mpr hrisk) <|
    bind_ok rfl <| bind_ok rfl <| bind_ok rfl <| bind_ok (toJson_deepDive sections.deepDive) <|
    bind_ok rfl <| bind_ok (toJson_interface sections.interface) ?_
  have hnodes : texts (dependencies (ofSections address network degraded sections).address
      (sections.graph.nodes.map some)) = Json.strings (Sections.dependencies address sections.graph) :=
    (congrArg texts (dependencies_map sections.graph.nodes)).trans (texts_map _)
  rw [hsorted, texts_map, hnodes]
  rfl

theorem economicAnalysis_ofSections :
    (ofSections address network degraded sections).economicAnalysis =
      .ok sections.economicAnalysis :=
  bind_ok rfl <| bind_ok rfl <| bind_ok rfl <| bind_ok rfl <|
    bind_ok (groups_ofWhole sections.economics) <| bind_ok rfl <| bind_ok rfl <|
    bind_ok (toJson_tokenFlows sections.economics.tokenFlows) <| bind_ok rfl <| bind_ok rfl <|
    bind_ok (toJson_fees sections.fees) rfl

theorem authorityAnalysis_ofSections :
    (ofSections address network degraded sections).authorityAnalysis =
      .ok sections.authorityAnalysis :=
  bind_ok (written_map fun _ _ => rfl) <| bind_ok rfl <| bind_ok (toJson_governance _) <|
    bind_ok (written_map fun _ _ => rfl) rfl

theorem counted_ofWhole (edges : List Traffic.CallEdge) :
    (edges.map CallEdge.ofWhole).mapM CallEdge.counted =
      .ok (edges.map fun edge => (draftKey (Traffic.CallGraph.keyOf edge), edge.count)) :=
  mapM_map_eq_ok_map fun _ _ => rfl

theorem callGraphAnalysis_ofSections :
    (ofSections address network degraded sections).callGraphAnalysis =
      .ok sections.callGraphAnalysis := by
  have hedges : (sections.graph.edges.map fun edge => some (CallEdge.ofWhole edge)).mapM
      (Option.demand "to_dict") = .ok (sections.graph.edges.map CallEdge.ofWhole) :=
    mapM_map_eq_ok_map fun _ _ => rfl
  refine bind_ok rfl <| bind_ok rfl <| bind_ok rfl <| bind_ok hedges <|
    bind_ok (counted_ofWhole sections.graph.edges) ?_
  rw [summary_ofWhole, texts_map, List.map_map]
  unfold CallGraph.complexity
  rw [List.length_map]
  rfl

theorem vulnerabilityAnalysis_ofSections :
    (ofSections address network degraded sections).vulnerabilityAnalysis =
      .ok sections.vulnerabilityAnalysis :=
  written_map fun _ _ => rfl

theorem safetyAnalysis_ofSections :
    (ofSections address network degraded sections).safetyAnalysis = .ok sections.safetyAnalysis :=
  bind_ok rfl <| bind_ok (written_map fun _ _ => rfl) rfl

/-- Either a value is what is looked for, or the rest decides. -/
theorem ite_some_eq_ok [DecidableEq α] {value sought : α} {rest : Result Bool} {found : Bool}
    (h : rest = .ok found) :
    (if some value = some sought then pure true else rest) = .ok (value == sought || found) := by
  by_cases hvalue : value = sought
  · rw [if_pos (congrArg some hvalue), beq_iff_eq.mpr hvalue, Bool.true_or]
    rfl
  · rw [if_neg fun hsome => hvalue (Option.some.inj hsome), beq_eq_false_iff_ne.mpr hvalue,
      Bool.false_or, h]

theorem hasVotes_ofWhole (edges : List Traffic.CallEdge) :
    hasVotes (edges.map fun edge => some (.ofWhole edge)) =
      .ok (edges.any fun edge => edge.action == Traffic.Kind.governance.word) := by
  induction edges with
  | nil => rfl
  | cons edge rest ih => exact bind_ok rfl (ite_some_eq_ok ih)

theorem isGoverned_ofSections : (ofSections address network degraded sections).isGoverned =
    .ok (Recommendation.isGoverned sections) :=
  bind_ok rfl <| ite_some_eq_ok <| bind_ok rfl <| bind_ok rfl <|
    hasVotes_ofWhole sections.graph.edges

theorem recommendations_ofSections :
    (ofSections address network degraded sections).recommendations =
      .ok (.arr ((Recommendation.ofSections address degraded sections).map Recommendation.toJson)) := by
  have hempty : ((ofSections address network degraded sections).vulnerabilities.getD []).isEmpty =
      sections.vulnerabilities.isEmpty := List.isEmpty_map
  refine bind_ok isGoverned_ofSections ?_
  simp only [hempty]
  rfl

/-- Drafts without gaps are written as the document that is composed of the same sections. -/
theorem fields_ofSections (hsyscalls : sections.profile.demandSyscalls = .ok sections.syscalls)
    (hrisk : sections.profile.reentrancyRisk = some sections.reentrancyRisk) {generatedAt : String}
    {body : Body} : (ofSections address network degraded sections).fields =
      .ok (Document.sectionFields ⟨address, generatedAt, network, degraded, body⟩ sections) := by
  rw [fields, mapM_eq_ok, Inputs.sections]
  simp only [Document.sectionFields, List.forall₂_cons, List.forall₂_nil_left_iff, and_true]
  exact ⟨bind_ok executiveSummary_ofSections rfl, bind_ok riskAssessment_ofSections rfl,
    bind_ok (binaryAnalysis_ofSections hsyscalls hrisk) rfl, bind_ok economicAnalysis_ofSections rfl,
    bind_ok authorityAnalysis_ofSections rfl, bind_ok callGraphAnalysis_ofSections rfl,
    bind_ok vulnerabilityAnalysis_ofSections rfl, bind_ok safetyAnalysis_ofSections rfl,
    bind_ok recommendations_ofSections rfl⟩

/-! ### Reports without gaps -/

theorem reads_of_ofInputs {given : Report.Inputs} {sections : Report.Sections}
    (h : Sections.ofInputs given = .ok sections) :
    sections.profile.demandSyscalls = .ok sections.syscalls ∧
      sections.profile.reentrancyRisk = some sections.reentrancyRisk := by
  simp only [Sections.ofInputs, bind_eq_ok, pure_eq_ok, Option.demand_eq_ok, orFail_eq_ok] at h
  obtain ⟨_, -, _, -, profile, -, _, -, _, -, _, -, _, -, _, -, syscalls, hsyscalls, risk, hrisk, _, -,
    _, -, _, -, _, -, _, -, _, -, _, -, rfl⟩ := h
  exact ⟨hsyscalls, hrisk⟩

theorem given_of_map {draft : β → α} {value? : Option β} (h : Given (value?.map draft)) :
    Given value? := by
  obtain ⟨_, hdraft⟩ := h
  obtain ⟨value, hvalue, -⟩ := Option.map_eq_some_iff.mp hdraft
  exact ⟨value, hvalue⟩

/-- Parts are there if the drafts of them are sufficient. -/
theorem succeeds_ofInputs {given : Report.Inputs} (h : (ofWhole given).Sufficient) :
    Succeeds (Sections.ofInputs given) := by
  obtain ⟨draft, hdraft, hprofile⟩ := h.profile
  obtain ⟨profile, hgiven, rfl⟩ := Option.map_eq_some_iff.mp hdraft
  obtain ⟨names, hnames⟩ := given_of_map hprofile.syscalls.given
  have hsyscalls : Succeeds profile.demandSyscalls :=
    ⟨_, demandSyscalls_eq_ok.mpr ⟨names, hnames, rfl⟩⟩
  simp only [Sections.ofInputs, succeeds_bind, Option.demand_eq_ok, orFail_eq_ok, succeeds_pure,
    and_true, exists_eq_ok, exists_eq_some, exists_and_right]
  exact ⟨given_of_map h.safety.given, given_of_map h.vulnerabilities.given, profile, hgiven,
    given_of_map h.authorities.given, given_of_map h.economics.given,
    given_of_map h.assessedRisks.given, given_of_map h.behavior, given_of_map h.prediction.given,
    hsyscalls, hprofile.reentrancyRisk, given_of_map h.graph.given,
    given_of_map h.deepDive.given, given_of_map h.interface.given, h.solPrice,
    given_of_map h.fees.given, given_of_map h.governance.given, given_of_map h.upgrades.given⟩

end Inputs

end ProgramAudit.Report.Draft
