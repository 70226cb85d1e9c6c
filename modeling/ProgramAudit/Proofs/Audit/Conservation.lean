import ProgramAudit.Proofs.Audit.Agreement
import ProgramAudit.Proofs.Routine.Ends
import ProgramAudit.Proofs.Traffic.Counts

/-!
Conservation of counts. Several sections of a report count one window, each in its own way; what they
count adds up to the window, whatever it holds.
-/

namespace ProgramAudit

open Program Traffic Control Finding Score Report

namespace Report

/-- Integers that add up to an amount. -/
def AddUpTo (values : List Json) (amount : Nat) : Prop :=
  ∃ counts : List Int, values = counts.map .int ∧ counts.sum = amount

theorem addUpTo_natCast {α : Type} (count : α → Nat) (items : List α) :
    AddUpTo (items.map fun item => .int (count item)) (items.map count).sum := by
  refine ⟨items.map fun item => (count item : Int), by rw [List.map_map]; rfl, ?_⟩
  rw [Nat.cast_list_sum, List.map_map]
  rfl

namespace Document

def economic (document : Document) : Json := document.toJson.get "economicAnalysis"

/-- The groups of transactions with the count that stands under each. -/
def groupCounts (document : Document) : List (String × Json) :=
  (document.economic.get "transactionTypes").entries.map fun group =>
    (group.1, group.2.get "count")

def frequencies (document : Document) : List (String × Json) :=
  ((document.binary.get "deepDive").get "instructionFrequency").entries

def graph (document : Document) : Json := document.toJson.get "callGraphAnalysis"

/-- What a report counts of a window is all of it, each once. -/
structure Conserves (document : Document) (window : List Classified) : Prop where
  transactions : document.economic.get "transactionCount" = .int window.length
  fees : (document.economic.get "feeAnalysis").get "totalTransactions" = .int window.length
  groups : document.groupCounts = Sections.kindGroups.map fun group =>
    (group.1, .int (window.countP fun classified => decide (classified.kind ∈ group.2)))
  grouped : AddUpTo (document.groupCounts.map Prod.snd) window.length
  single : ∀ classified ∈ window,
    Sections.kindGroups.countP (fun group => decide (classified.kind ∈ group.2)) = 1
  types : (document.frequencies.map Prod.fst).Nodup
  instructions : AddUpTo (document.frequencies.map Prod.snd) (instructionsOf window).length
  edges : (document.graph.get "edges").items.length = (instructionsOf window).countP connects
  summary : AddUpTo (listed "count" (document.graph.get "summary"))
    ((instructionsOf window).countP connects)

variable {document : Document} {sections : Sections} (h : document.body = .composed sections)

include h

theorem transactionCount_eq :
    document.economic.get "transactionCount" = .int sections.economics.transactionCount := by
  rw [economic, toJson_eq h]
  rfl

theorem totalTransactions_eq : (document.economic.get "feeAnalysis").get "totalTransactions" =
    .int sections.fees.transactionCount := by
  rw [economic, toJson_eq h]
  rfl

theorem groupCounts_eq : document.groupCounts = Sections.kindGroups.map fun group =>
    (group.1, .int (sections.economics.tally group.2).count) := by
  rw [groupCounts, economic, toJson_eq h]
  rfl

theorem frequencies_eq : document.frequencies =
    sections.deepDive.frequency.map fun entry => (entry.1, .int entry.2) := by
  rw [frequencies, binary, toJson_eq h]
  rfl

theorem edges_eq : (document.graph.get "edges").items =
    sections.graph.edges.map CallGraph.edgeJson := by
  rw [graph, toJson_eq h]
  rfl

theorem summaryCounts_eq : listed "count" (document.graph.get "summary") =
    (sections.graph.summary.map CallEdge.count).map .int := by
  have hlisted : listed "count" (document.graph.get "summary") =
      sections.graph.summary.map fun edge => (CallGraph.edgeJson edge).get "count" := by
    rw [graph, toJson_eq h]
    exact listed_map "count" CallGraph.edgeJson _
  rw [hlisted, CallGraph.summary, List.map_map, List.map_map, List.map_map]
  rfl

end Document

end Report

namespace Audit

/-- The sections of a report that count are made of one window. -/
structure Counted (window : List Classified) (sections : Sections) : Prop where
  economics : ∃ decimals program,
    Economics.ofWindow {} decimals program window = .ok sections.economics
  fees : Fees.ofWindow Fees.defaultMultiplier window = .ok sections.fees
  deepDive : ∃ profile economics, DeepDive.ofWindow profile economics window = .ok sections.deepDive
  graph : ∃ root, sections.graph = CallGraph.ofWindow root window

theorem Stages.Sound.counted {plan : Plan} {address : String} {P : Result Json → Prop}
    {stages : Stages} (h : stages.Sound plan address P) {price : Float} {sections : Sections}
    (hmade : sections.MadeOf (reportInputs plan address price stages))
    (heconomics : stages.analyzed.economics.computed = true)
    (hfees : stages.analyzed.fees.computed = true)
    (hdeepDive : stages.fused.deepDive.computed = true) :
    Counted stages.fetched.transactions.value sections := by
  have hmadeEconomics : stages.analyzed.economics.value = sections.economics :=
    Option.some.inj hmade.economics
  have hmadeFees : stages.analyzed.fees.value = sections.fees := Option.some.inj hmade.fees
  have hmadeDive : stages.fused.deepDive.value = sections.deepDive :=
    Option.some.inj hmade.deepDive
  have hmadeGraph : stages.analyzed.callGraph.value = sections.graph := Option.some.inj hmade.graph
  constructor
  case economics =>
    rw [h.analyzed.economics] at heconomics hmadeEconomics
    obtain ⟨economics, hresult, hvalue⟩ := StageResult.exists_of_computed heconomics
    exact ⟨_, _, by rw [hresult, ← hvalue, hmadeEconomics]⟩
  case fees =>
    rw [h.analyzed.fees] at hfees hmadeFees
    obtain ⟨fees, hresult, hvalue⟩ := StageResult.exists_of_computed hfees
    rw [hresult, ← hvalue, hmadeFees]
  case deepDive =>
    rw [h.fused.deepDive] at hdeepDive hmadeDive
    obtain ⟨dive, hresult, hvalue⟩ := StageResult.exists_of_computed hdeepDive
    exact ⟨_, _, by rw [hresult, ← hvalue, hmadeDive]⟩
  case graph =>
    rw [h.analyzed.callGraph] at hmadeGraph
    exact ⟨address, hmadeGraph.symm⟩

theorem Counted.conserves {window : List Classified} {sections : Sections}
    (h : Counted window sections) {document : Document}
    (hbody : document.body = .composed sections) : document.Conserves window := by
  obtain ⟨_, _, heconomics⟩ := h.economics
  obtain ⟨_, _, hdive⟩ := h.deepDive
  obtain ⟨root, hgraph⟩ := h.graph
  have hfrequency := DeepDive.frequency_of_ofWindow hdive
  have hgroups : document.groupCounts = Sections.kindGroups.map fun group =>
      (group.1, .int (window.countP fun classified => decide (classified.kind ∈ group.2))) := by
    have hdistinct : ∀ group ∈ Sections.kindGroups, group.2.Nodup := by decide
    rw [Document.groupCounts_eq hbody]
    exact List.map_congr_left fun group hgroup =>
      by rw [Economics.count_tally heconomics (hdistinct group hgroup)]
  constructor
  case transactions =>
    rw [Document.transactionCount_eq hbody, (Economics.counts_of_ofWindow heconomics).1]
  case fees => rw [Document.totalTransactions_eq hbody, Fees.transactionCount_of_ofWindow h.fees]
  case groups => exact hgroups
  case grouped =>
    rw [hgroups, ← sum_kindGroups window, List.map_map]
    exact addUpTo_natCast _ _
  case single => exact fun classified _ => countP_kindGroups classified.kind
  case types =>
    rw [Document.frequencies_eq hbody, hfrequency, List.map_map]
    exact DeepDive.nodup_frequencyOf window
  case instructions =>
    refine ⟨sections.deepDive.frequency.map Prod.snd, ?_, ?_⟩
    · rw [Document.frequencies_eq hbody, List.map_map, List.map_map]
      rfl
    · rw [hfrequency]
      exact DeepDive.total_frequencyOf window
  case edges =>
    rw [Document.edges_eq hbody, List.length_map, hgraph, CallGraph.length_edges_ofWindow]
  case summary =>
    refine ⟨_, Document.summaryCounts_eq hbody, ?_⟩
    rw [hgraph, CallGraph.sum_summary_ofWindow]

/-- **What the sections of a report count adds up.** For every window that the economics, the fees
and the closer look could read, each counts all transactions or instructions of that window once;
the graph of the calls can read every window. -/
theorem run_conserves {τ σ : Type} [Clock τ] (plan : Plan) (around : Surroundings τ σ)
    (given : Json) (progress : Routine.Progress τ σ) (audit : Audit)
    (hrun : (Routine.run progress (run plan around given)).result = some (.ok audit))
    (heconomics : audit.stages.analyzed.economics.computed = true)
    (hfees : audit.stages.analyzed.fees.computed = true)
    (hdeepDive : audit.stages.fused.deepDive.computed = true) :
    audit.document.Conserves audit.stages.fetched.transactions.value := by
  have hended := Routine.run_settles progress
    (settles_run (P := fun _ => True) (Routine.settles_true around.price) trivial) hrun
  cases hended with
  | done _ hsound =>
      obtain ⟨sections, price, hmade, hbody⟩ := hsound.sections hsound.computed
      exact (hsound.stages.counted hmade heconomics hfees hdeepDive).conserves hbody

/-- A source that lists two transactions. -/
def busySurroundings : Surroundings Int Unit where
  source := {
    account := fun _ => Routine.succeed none
    transactions := fun _ _ => Routine.succeed (some [
      { signature := .str "first", slot := 1, blockTime := .null, volume := 0.5, fee := 0.1
        instructions := [⟨"p", ["a", "b"], some ⟨"transfer", []⟩⟩, ⟨"p", ["a"], none⟩] },
      { signature := .str "second", slot := 2, blockTime := .null, volume := 0.5, fee := 0.1
        instructions := [⟨"q", ["a", "b", "c"], some ⟨"vote", []⟩⟩] }])
    mint := fun _ => Routine.succeed none }
  price := Routine.succeed (.real 1.0)
  sleep := Routine.sleep
  now := 1700000000

def busyPlan : Plan :=
  { stageTimeout := some 5, fetchTimeout := some 5, fetch := { timeframe := none } }

def busyRun : Option (Result Audit) :=
  (Routine.run ⟨(0 : Int), 0, (), []⟩
    (run busyPlan busySurroundings (.str "11111111111111111111111111111111"))).result

theorem run_conserves_busy : ∃ audit, busyRun = some (.ok audit) ∧
    audit.stages.fetched.transactions.value.length = 2 ∧
    audit.document.Conserves audit.stages.fetched.transactions.value := by
  have hall : (match busyRun with
      | some (.ok audit) => audit.stages.fetched.transactions.value.length == 2 &&
          audit.stages.analyzed.economics.computed && audit.stages.analyzed.fees.computed &&
          audit.stages.fused.deepDive.computed
      | some (.error _) => false
      | none => false) = true := by decide +kernel
  split at hall
  case h_1 audit hrun =>
    simp only [Bool.and_eq_true, beq_iff_eq] at hall
    obtain ⟨⟨⟨hlength, heconomics⟩, hfees⟩, hdeepDive⟩ := hall
    exact ⟨audit, hrun, hlength, run_conserves busyPlan busySurroundings _ _ audit hrun heconomics
      hfees hdeepDive⟩
  case h_2 => cases hall
  case h_3 => cases hall

end Audit

end ProgramAudit
