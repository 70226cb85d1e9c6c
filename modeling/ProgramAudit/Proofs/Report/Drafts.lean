import ProgramAudit.Proofs.Report.Sections
import ProgramAudit.Report.Draft.Composition

/-!
What a report needs of its drafts. A section can be written exactly if the values that it looks into are
there, whatever else is missing, and all sections can be written exactly if the inputs are sufficient.
-/

namespace ProgramAudit.Report.Draft

open Result Sections

variable {α : Type} {P Q : α → Prop} {value? : Option α}

/-! ### Values that are there -/

def Given (value? : Option α) : Prop := ∃ value, value? = some value

/-- It is there, and it is such. -/
def Has (P : α → Prop) (value? : Option α) : Prop := ∃ value, value? = some value ∧ P value

/-- A list is there, and each of its items is there and is such. -/
def HasAll (P : α → Prop) (items : Option (List (Option α))) : Prop :=
  Has (fun items => ∀ item ∈ items, Has P item) items

theorem Has.imp (h : Has P value?) (himp : ∀ value, P value → Q value) : Has Q value? := by
  obtain ⟨value, hvalue, hp⟩ := h
  exact ⟨value, hvalue, himp value hp⟩

theorem Has.and (hp : Has P value?) (hq : Has Q value?) :
    Has (fun value => P value ∧ Q value) value? := by
  obtain ⟨value, hvalue, hp⟩ := hp
  obtain ⟨other, hother, hq⟩ := hq
  obtain rfl : other = value := Option.some.inj (hother.symm.trans hvalue)
  exact ⟨other, hother, hp, hq⟩

theorem Has.given (h : Has P value?) : Given value? := by
  obtain ⟨value, hvalue, -⟩ := h
  exact ⟨value, hvalue⟩

theorem HasAll.imp {items : Option (List (Option α))} (h : HasAll P items)
    (himp : ∀ value, P value → Q value) : HasAll Q items :=
  Has.imp h fun _ hall item hitem => (hall item hitem).imp himp

/-! ### Steps that look into a value -/

theorem exists_eq_some : (∃ value, value? = some value) ↔ Given value? := Iff.rfl

theorem exists_eq_some_and : (∃ value, value? = some value ∧ P value) ↔ Has P value? := Iff.rfl

theorem has_and_right {R : Prop} : Has (fun value => P value ∧ R) value? ↔ Has P value? ∧ R := by
  simp only [Has, ← and_assoc, exists_and_right]

theorem exists_eq_ok {found : Result α} : (∃ value, found = .ok value) ↔ Succeeds found := Iff.rfl

theorem succeeds_pure {value : α} : Succeeds (pure value) ↔ True := iff_true_intro succeeds_ok

theorem succeeds_demand {field : String} : Succeeds (Option.demand field value?) ↔ Given value? :=
  exists_congr fun _ => Option.demand_eq_ok

theorem mapM_demand_eq_ok {field : String} {items : List (Option α)} {values : List α} :
    items.mapM (Option.demand field) = .ok values ↔ values.map some = items := by
  rw [mapM_eq_ok, ← List.forall₂_eq_eq_eq, List.forall₂_map_left_iff]
  simp only [Option.demand_eq_ok, eq_comm (b := some _)]

theorem succeeds_written {write : α → Result Json} {items : Option (List (Option α))} :
    Succeeds (written write items) ↔ HasAll (fun item => Succeeds (write item)) items := by
  simp only [written, succeeds_bind, orFail_eq_ok, Option.demand_eq_ok, succeeds_pure, and_true,
    exists_eq_ok, succeeds_mapM, exists_eq_some_and]
  rfl

theorem succeeds_written_ok {write : α → Json} {items : Option (List (Option α))} :
    Succeeds (written (fun item => .ok (write item)) items) ↔ HasAll (fun _ => True) items := by
  simp only [succeeds_written, iff_true_intro succeeds_ok]

/-! ### What the parts of a report need -/

structure Safety.Sufficient (safety : Safety) : Prop where
  score : Given safety.score
  risks : HasAll (fun risk => Given risk.implication) safety.risks

structure Profile.Sufficient (profile : Profile) : Prop where
  category : Given profile.category
  controlFlow : Has (fun flow => Given flow.branches ∧ Given flow.loops) profile.controlFlow
  syscalls : Has (fun names => names.length ≤ 1 ∨ ∀ name ∈ names, Given name) profile.syscalls
  reentrancyRisk : Given profile.reentrancyRisk

structure Economics.Sufficient (economics : Economics) : Prop where
  totalVolume : Given economics.totalVolume
  averageFee : Given economics.averageFee
  suspiciousVolume : Given economics.suspiciousVolume
  tallies : ∀ kind tally, economics.heldTally? kind = some tally →
    Given tally.count ∧ Given tally.volume
  tokenFlows : Has (fun flows => HasAll (fun _ => True) flows.topInflows ∧
    HasAll (fun _ => True) flows.topOutflows) economics.tokenFlows
  volatility : Given economics.volatility

structure CallGraph.Sufficient (graph : CallGraph) : Prop where
  nodes : Given graph.nodes
  edges : HasAll (fun edge => Given edge.count) graph.edges

/-- What a report needs of its inputs. All else may be missing. -/
structure Inputs.Sufficient (inputs : Inputs) : Prop where
  safety : Has Safety.Sufficient inputs.safety
  vulnerabilities : HasAll (fun found => Given found.severity) inputs.vulnerabilities
  profile : Has Profile.Sufficient inputs.profile
  economics : Has Economics.Sufficient inputs.economics
  graph : Has CallGraph.Sufficient inputs.graph
  authorities : HasAll (fun _ => True) inputs.authorities
  governance : Has (fun governance => Given governance.details) inputs.governance
  behavior : Given inputs.behavior
  prediction : Has (fun prediction => HasAll (fun _ => True) prediction.factors) inputs.prediction
  fees : Has (fun fees => HasAll (fun _ => True) fees.spikes) inputs.fees
  deepDive : Has (fun dive => HasAll (fun _ => True) dive.anomalies) inputs.deepDive
  assessedRisks : HasAll (fun _ => True) inputs.assessedRisks
  interface : Has (fun interface => HasAll (fun entry => HasAll (fun _ => True) entry.arguments)
    interface.entries) inputs.interface
  upgrades : HasAll (fun upgrade => Given upgrade.changes) inputs.upgrades
  solPrice : Given inputs.solPrice

/-! ### Parts in writing -/

theorem succeeds_prediction {prediction : Prediction} :
    Succeeds prediction.toJson ↔ HasAll (fun _ => True) prediction.factors := by
  simp only [Prediction.toJson, succeeds_bind, succeeds_pure, and_true, exists_eq_ok,
    succeeds_written_ok]

theorem succeeds_known {flow : ControlFlow} :
    Succeeds flow.known ↔ Given flow.branches ∧ Given flow.loops := by
  unfold ControlFlow.known
  cases hbranches : flow.branches with
  | none => exact iff_of_false not_succeeds_error nofun
  | some branches =>
      cases hloops : flow.loops with
      | none => exact iff_of_false not_succeeds_error nofun
      | some loops => exact iff_of_true succeeds_ok ⟨⟨branches, rfl⟩, ⟨loops, rfl⟩⟩

theorem succeeds_sortedNames {names : List (Option String)} :
    Succeeds (Profile.sortedNames names) ↔ names.length ≤ 1 ∨ ∀ name ∈ names, Given name := by
  unfold Profile.sortedNames
  split_ifs with hshort
  · exact iff_of_true succeeds_ok (.inl hshort)
  · simp only [succeeds_bind, succeeds_pure, and_true, exists_eq_ok, succeeds_mapM, hshort, false_or]
    simp only [Succeeds, orFail_eq_ok]
    rfl

theorem succeeds_tally_known {tally : Tally} :
    Succeeds tally.known ↔ Given tally.count ∧ Given tally.volume := by
  simp only [Tally.known, succeeds_bind, orFail_eq_ok, succeeds_pure, and_true, exists_eq_some,
    exists_and_right]

theorem succeeds_tally {economics : Economics} {kinds : List Traffic.Kind} :
    Succeeds (economics.tally kinds) ↔ ∀ kind ∈ kinds, ∀ tally,
      economics.heldTally? kind = some tally → Given tally.count ∧ Given tally.volume := by
  simp only [Economics.tally, succeeds_bind, succeeds_pure, and_true, exists_eq_ok, succeeds_mapM,
    succeeds_tally_known, List.mem_filterMap]
  constructor
  · exact fun h kind hkind tally htally => h tally ⟨kind, hkind, htally⟩
  · rintro h tally ⟨kind, hkind, htally⟩
    exact h kind hkind tally htally

theorem succeeds_tokenFlows {flows : TokenFlows} : Succeeds flows.toJson ↔
    HasAll (fun _ => True) flows.topInflows ∧ HasAll (fun _ => True) flows.topOutflows := by
  simp only [TokenFlows.toJson, succeeds_bind, succeeds_pure, and_true, exists_eq_ok,
    exists_and_right, succeeds_written_ok]

theorem succeeds_fees {fees : Fees} : Succeeds fees.toJson ↔ HasAll (fun _ => True) fees.spikes := by
  simp only [Fees.toJson, succeeds_bind, succeeds_pure, and_true, exists_eq_ok, succeeds_written_ok]

theorem succeeds_deepDive {dive : DeepDive} :
    Succeeds dive.toJson ↔ HasAll (fun _ => True) dive.anomalies := by
  simp only [DeepDive.toJson, succeeds_bind, succeeds_pure, and_true, exists_eq_ok,
    succeeds_written_ok]

theorem succeeds_interface {interface : Interface} : Succeeds interface.toJson ↔
    HasAll (fun entry => HasAll (fun _ => True) entry.arguments) interface.entries := by
  simp only [Interface.toJson, InterfaceEntry.toJson, succeeds_bind, succeeds_pure, and_true,
    exists_eq_ok, succeeds_written, iff_true_intro succeeds_ok]

theorem succeeds_governance {governance : Governance} :
    Succeeds governance.toJson ↔ Given governance.details := by
  simp only [Governance.toJson, succeeds_bind, orFail_eq_ok, succeeds_pure, and_true, exists_eq_some]

theorem succeeds_upgrade {upgrade : Upgrade} : Succeeds upgrade.toJson ↔ Given upgrade.changes := by
  simp only [Upgrade.toJson, succeeds_bind, orFail_eq_ok, succeeds_pure, and_true, exists_eq_some]

theorem succeeds_vulnerability {found : Vulnerability} :
    Succeeds found.toJson ↔ Given found.severity := by
  simp only [Vulnerability.toJson, succeeds_bind, Option.demand_eq_ok, succeeds_pure, and_true,
    exists_eq_some]

theorem succeeds_counted {edge : CallEdge} : Succeeds edge.counted ↔ Given edge.count := by
  simp only [CallEdge.counted, succeeds_bind, orFail_eq_ok, succeeds_pure, and_true, exists_eq_some]

/-! ### Sections in writing -/

namespace Inputs

variable {inputs : Inputs}

theorem succeeds_judgedRisks : Succeeds inputs.judgedRisks ↔
    Has (fun safety => HasAll (fun risk => Given risk.implication) safety.risks) inputs.safety := by
  simp only [judgedRisks, Risk.isMalicious, succeeds_bind, Option.demand_eq_ok, orFail_eq_ok,
    succeeds_mapM, succeeds_pure, and_true, exists_eq_ok, exists_eq_some, exists_eq_some_and]
  rfl

theorem succeeds_findings :
    Succeeds inputs.findings ↔ HasAll (fun _ => True) inputs.vulnerabilities := by
  simp only [findings, succeeds_bind, orFail_eq_ok, succeeds_mapM, succeeds_demand]
  simp only [HasAll, Has, Given, and_true]

theorem succeeds_breakdown :
    Succeeds inputs.breakdown ↔ Succeeds inputs.judgedRisks ∧ Succeeds inputs.findings := by
  simp only [breakdown, succeeds_bind, succeeds_pure, and_true, exists_eq_ok, exists_and_right]

theorem succeeds_ranking :
    Succeeds inputs.ranking ↔ Succeeds inputs.judgedRisks ∧ Succeeds inputs.findings := by
  simp only [ranking, succeeds_bind, succeeds_pure, and_true, exists_eq_ok, exists_and_right]

theorem succeeds_keyFindings {score : Int} {breakdown : Breakdown} :
    Succeeds (inputs.keyFindings score breakdown) ↔ Given inputs.authorities ∧
      Given inputs.vulnerabilities ∧
      Has (fun economics => Given economics.totalVolume) inputs.economics := by
  simp only [keyFindings, succeeds_bind, orFail_eq_ok, Option.demand_eq_ok, succeeds_pure, and_true,
    exists_eq_some, exists_and_right, exists_eq_some_and]

theorem succeeds_executiveSummary : Succeeds inputs.executiveSummary ↔
    (Succeeds inputs.judgedRisks ∧ Succeeds inputs.findings) ∧
      Has (fun safety => Given safety.score) inputs.safety ∧
      Has (fun profile => Given profile.category) inputs.profile ∧
      Given inputs.authorities ∧ Given inputs.vulnerabilities ∧
      Has (fun economics => Given economics.totalVolume) inputs.economics := by
  simp only [executiveSummary, succeeds_bind, orFail_eq_ok, Option.demand_eq_ok, succeeds_pure,
    and_true, exists_eq_some, exists_eq_ok, exists_and_right, exists_eq_some_and, succeeds_keyFindings,
    succeeds_breakdown, has_and_right]

theorem succeeds_riskAssessment : Succeeds inputs.riskAssessment ↔
    (Succeeds inputs.judgedRisks ∧ Succeeds inputs.findings) ∧
      HasAll (fun _ => True) inputs.assessedRisks ∧ Given inputs.behavior ∧
      Has (fun prediction => HasAll (fun _ => True) prediction.factors) inputs.prediction := by
  simp only [riskAssessment, succeeds_bind, Option.demand_eq_ok, succeeds_pure, and_true,
    exists_eq_some, exists_eq_ok, exists_and_right, exists_eq_some_and, succeeds_breakdown,
    succeeds_ranking, succeeds_written_ok, succeeds_prediction, and_self_left]

theorem succeeds_binaryAnalysis : Succeeds inputs.binaryAnalysis ↔
    Has (fun profile =>
        Has (fun names => names.length ≤ 1 ∨ ∀ name ∈ names, Given name) profile.syscalls ∧
        Given profile.category ∧
        Has (fun flow => Given flow.branches ∧ Given flow.loops) profile.controlFlow ∧
        Given profile.reentrancyRisk) inputs.profile ∧
      Has (fun graph => Given graph.nodes) inputs.graph ∧
      Has (fun dive => HasAll (fun _ => True) dive.anomalies) inputs.deepDive ∧
      Has (fun interface => HasAll (fun entry => HasAll (fun _ => True) entry.arguments)
        interface.entries) inputs.interface := by
  simp only [binaryAnalysis, succeeds_bind, orFail_eq_ok, Option.demand_eq_ok, succeeds_pure, and_true,
    exists_eq_some, exists_eq_ok, exists_and_right, exists_eq_some_and, succeeds_sortedNames,
    succeeds_known, succeeds_deepDive, succeeds_interface]
  simp only [has_and_right, ← and_assoc]

theorem succeeds_groups {economics : Economics} : Succeeds (groups economics) ↔
    ∀ kind tally, economics.heldTally? kind = some tally → Given tally.count ∧ Given tally.volume := by
  have hcovered : ∀ kind : Traffic.Kind, ∃ group ∈ kindGroups, kind ∈ group.2 := by
    intro kind
    cases kind <;> decide
  simp only [groups, succeeds_mapM, succeeds_bind, succeeds_pure, and_true, exists_eq_ok, succeeds_tally]
  constructor
  · intro h kind tally htally
    obtain ⟨group, hgroup, hkind⟩ := hcovered kind
    exact h group hgroup kind hkind tally htally
  · exact fun h _ _ kind _ tally htally => h kind tally htally

theorem succeeds_economicAnalysis : Succeeds inputs.economicAnalysis ↔
    Has Economics.Sufficient inputs.economics ∧ Given inputs.solPrice ∧
      Has (fun fees => HasAll (fun _ => True) fees.spikes) inputs.fees := by
  simp only [economicAnalysis, succeeds_bind, orFail_eq_ok, Option.demand_eq_ok, succeeds_pure,
    and_true, exists_eq_some, exists_eq_ok, exists_and_right, exists_eq_some_and, succeeds_tokenFlows,
    succeeds_fees, succeeds_groups]
  constructor
  · rintro ⟨economics, heconomics, hvolume, hprice, hfee, htallies, hsuspicious, flows, hflows, hlists,
      hvolatility, hfees⟩
    exact ⟨⟨economics, heconomics, hvolume, hfee, hsuspicious, htallies, ⟨flows, hflows, hlists⟩,
      hvolatility⟩, hprice, hfees⟩
  · rintro ⟨⟨economics, heconomics, h⟩, hprice, hfees⟩
    obtain ⟨flows, hflows, hlists⟩ := h.tokenFlows
    exact ⟨economics, heconomics, h.totalVolume, hprice, h.averageFee, h.tallies, h.suspiciousVolume,
      flows, hflows, hlists, h.volatility, hfees⟩

theorem succeeds_authorityAnalysis : Succeeds inputs.authorityAnalysis ↔
    HasAll (fun _ => True) inputs.authorities ∧
      Has (fun governance => Given governance.details) inputs.governance ∧
      HasAll (fun upgrade => Given upgrade.changes) inputs.upgrades := by
  simp only [authorityAnalysis, succeeds_bind, Option.demand_eq_ok, succeeds_pure, and_true,
    exists_eq_ok, exists_and_right, exists_eq_some_and, succeeds_written, iff_true_intro succeeds_ok,
    succeeds_governance, succeeds_upgrade, has_and_right]

/-- Edges that are all there can be counted if each says how many it stands for. -/
theorem succeeds_edges {edges : List (Option CallEdge)} {field : String} :
    (∃ found, edges.mapM (Option.demand field) = .ok found ∧
      Succeeds (found.mapM CallEdge.counted)) ↔
        ∀ edge ∈ edges, Has (fun edge => Given edge.count) edge := by
  simp only [mapM_demand_eq_ok, succeeds_mapM, succeeds_counted]
  constructor
  · rintro ⟨found, rfl, hcounts⟩ edge hedge
    obtain ⟨edge, hmem, rfl⟩ := List.mem_map.mp hedge
    exact ⟨edge, rfl, hcounts edge hmem⟩
  · intro h
    obtain ⟨found, hfound⟩ : Succeeds (edges.mapM (Option.demand field)) :=
      succeeds_mapM.mpr fun edge hedge => succeeds_demand.mpr (h edge hedge).given
    obtain rfl := mapM_demand_eq_ok.mp hfound
    refine ⟨found, rfl, fun edge hedge => ?_⟩
    obtain ⟨other, hother, hcount⟩ := h (some edge) (List.mem_map_of_mem hedge)
    exact Option.some.inj hother ▸ hcount

theorem succeeds_callGraphAnalysis :
    Succeeds inputs.callGraphAnalysis ↔ Has CallGraph.Sufficient inputs.graph := by
  simp only [callGraphAnalysis, succeeds_bind, orFail_eq_ok, Option.demand_eq_ok, succeeds_pure,
    and_true, exists_eq_ok, exists_and_right, exists_eq_some, exists_eq_some_and, succeeds_edges]
  refine exists_congr fun graph => and_congr_right fun _ => ?_
  exact ⟨fun h => ⟨h.1, h.2⟩, fun h => ⟨h.nodes, h.edges⟩⟩

theorem succeeds_vulnerabilityAnalysis : Succeeds inputs.vulnerabilityAnalysis ↔
    HasAll (fun found => Given found.severity) inputs.vulnerabilities := by
  simp only [vulnerabilityAnalysis, succeeds_written, succeeds_vulnerability]

theorem succeeds_safetyAnalysis : Succeeds inputs.safetyAnalysis ↔
    Has (fun safety => HasAll (fun _ => True) safety.risks) inputs.safety := by
  simp only [safetyAnalysis, succeeds_bind, Option.demand_eq_ok, succeeds_pure, and_true,
    exists_eq_ok, exists_eq_some_and, succeeds_written_ok]

theorem succeeds_hasVotes {edges : List (Option CallEdge)} (h : ∀ edge ∈ edges, Given edge) :
    Succeeds (hasVotes edges) := by
  induction edges with
  | nil => exact succeeds_ok
  | cons edge rest ih =>
      obtain ⟨hfirst, hrest⟩ := List.forall_mem_cons.mp h
      obtain ⟨edge, rfl⟩ := hfirst
      refine succeeds_bind.mpr ⟨edge, rfl, ?_⟩
      split_ifs
      · exact succeeds_ok
      · exact ih hrest

/-- Advice needs nothing that the sections before it do not need. -/
theorem succeeds_recommendations (hprofile : Given inputs.profile)
    (hgraph : Has CallGraph.Sufficient inputs.graph) : Succeeds inputs.recommendations := by
  obtain ⟨profile, hprofile⟩ := hprofile
  obtain ⟨graph, hgraph, -, edges, hedges, hall⟩ := hgraph
  have hgoverned : Succeeds inputs.isGoverned := by
    refine succeeds_bind.mpr ⟨profile, Option.demand_eq_ok.mpr hprofile, ?_⟩
    split_ifs
    · exact succeeds_ok
    · exact succeeds_bind.mpr ⟨graph, Option.demand_eq_ok.mpr hgraph, succeeds_bind.mpr
        ⟨edges, orFail_eq_ok.mpr hedges, succeeds_hasVotes fun edge hedge => (hall edge hedge).given⟩⟩
  exact (succeeds_bind_iff_left fun _ _ => succeeds_ok).mpr hgoverned

/-! ### All sections -/

theorem succeeds_fields :
    Succeeds inputs.fields ↔ ∀ part ∈ sections, Succeeds (part.write inputs) := by
  simp only [fields, succeeds_mapM, succeeds_bind, succeeds_pure, and_true, exists_eq_ok]

theorem succeeds_content : Succeeds inputs.content ↔ Succeeds inputs.ranking ∧ Succeeds inputs.fields := by
  simp only [content, succeeds_bind, succeeds_pure, and_true, exists_eq_ok, exists_and_right]

theorem sufficient_of_succeeds (h : ∀ part ∈ sections, Succeeds (part.write inputs)) :
    inputs.Sufficient := by
  simp only [sections, List.forall_mem_cons, succeeds_executiveSummary, succeeds_riskAssessment,
    succeeds_binaryAnalysis, succeeds_economicAnalysis, succeeds_authorityAnalysis,
    succeeds_callGraphAnalysis, succeeds_vulnerabilityAnalysis, succeeds_safetyAnalysis,
    succeeds_judgedRisks] at h
  obtain ⟨⟨⟨hjudged, -⟩, hscore, -⟩, ⟨-, hassessed, hbehavior, hprediction⟩,
    ⟨hprofile, -, hdive, hinterface⟩, ⟨heconomics, hprice, hfees⟩,
    ⟨hauthorities, hgovernance, hupgrades⟩, hgraph, hvulnerabilities, -⟩ := h
  exact {
    safety := (hscore.and hjudged).imp fun _ h => ⟨h.1, h.2⟩
    vulnerabilities := hvulnerabilities
    profile := hprofile.imp fun _ ⟨hnames, hcategory, hflow, hrisk⟩ => ⟨hcategory, hflow, hnames, hrisk⟩
    economics := heconomics
    graph := hgraph
    authorities := hauthorities
    governance := hgovernance
    behavior := hbehavior
    prediction := hprediction
    fees := hfees
    deepDive := hdive
    assessedRisks := hassessed
    interface := hinterface
    upgrades := hupgrades
    solPrice := hprice }

theorem Sufficient.succeeds (h : inputs.Sufficient) :
    ∀ part ∈ sections, Succeeds (part.write inputs) := by
  have hjudged : Succeeds inputs.judgedRisks :=
    succeeds_judgedRisks.mpr (h.safety.imp fun _ => Safety.Sufficient.risks)
  have hfindings : Succeeds inputs.findings :=
    succeeds_findings.mpr (h.vulnerabilities.imp fun _ _ => trivial)
  have hfeedback : Succeeds inputs.safetyAnalysis := succeeds_safetyAnalysis.mpr
    (h.safety.imp fun _ hsafety => hsafety.risks.imp fun _ _ => trivial)
  have hbinary : Succeeds inputs.binaryAnalysis := succeeds_binaryAnalysis.mpr
    ⟨h.profile.imp fun _ hprofile => ⟨hprofile.syscalls, hprofile.category, hprofile.controlFlow,
      hprofile.reentrancyRisk⟩, h.graph.imp fun _ => CallGraph.Sufficient.nodes, h.deepDive, h.interface⟩
  have hsummary : Succeeds inputs.executiveSummary := succeeds_executiveSummary.mpr
    ⟨⟨hjudged, hfindings⟩, h.safety.imp fun _ => Safety.Sufficient.score,
      h.profile.imp fun _ => Profile.Sufficient.category, h.authorities.given, h.vulnerabilities.given,
      h.economics.imp fun _ => Economics.Sufficient.totalVolume⟩
  simp only [sections, List.forall_mem_cons]
  exact ⟨hsummary,
    succeeds_riskAssessment.mpr ⟨⟨hjudged, hfindings⟩, h.assessedRisks, h.behavior, h.prediction⟩,
    hbinary,
    succeeds_economicAnalysis.mpr ⟨h.economics, h.solPrice, h.fees⟩,
    succeeds_authorityAnalysis.mpr ⟨h.authorities, h.governance, h.upgrades⟩,
    succeeds_callGraphAnalysis.mpr h.graph,
    succeeds_vulnerabilityAnalysis.mpr h.vulnerabilities,
    hfeedback,
    succeeds_recommendations h.profile.given h.graph, nofun⟩

/-- All sections can be written exactly if the inputs are sufficient. -/
theorem succeeds_content_iff : Succeeds inputs.content ↔ inputs.Sufficient := by
  rw [succeeds_content, succeeds_fields]
  constructor
  · exact fun h => sufficient_of_succeeds h.2
  · intro h
    have hjudged := h.safety.imp fun _ => Safety.Sufficient.risks
    have hfindings := h.vulnerabilities.imp fun _ _ => trivial
    exact ⟨succeeds_ranking.mpr ⟨succeeds_judgedRisks.mpr hjudged, succeeds_findings.mpr hfindings⟩,
      h.succeeds⟩

end Inputs

end ProgramAudit.Report.Draft
