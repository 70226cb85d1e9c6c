import Mathlib.Algebra.BigOperators.Ring.Finset
import ProgramAudit.Proofs.Failure
import ProgramAudit.Proofs.Table
import ProgramAudit.Report.Sections
import ProgramAudit.Traffic.DeepDive
import ProgramAudit.Traffic.Fees

/-!
Counts of a window. The tallies by kind, the groups of a report, the frequencies of instruction types
and the edges between accounts are each one more way to count what the window has, and none of them
loses anything or counts it twice.
-/

namespace ProgramAudit.Traffic

open Ledger

/-- The instructions of all transactions. -/
def instructionsOf (window : List Classified) : List Instruction :=
  window.flatMap fun classified => classified.transaction.instructions

theorem countP_eq_sum {α : Type} (counted : α → Bool) (items : List α) :
    items.countP counted = (items.map fun item => if counted item then 1 else 0).sum := by
  induction items with
  | nil => rfl
  | cons item items ih =>
      rw [List.countP_cons, ih, List.map_cons, List.sum_cons, Nat.add_comm]

/-- Members are counted once for each way in which they count, whichever goes first. -/
theorem sum_countP_comm {α β : Type} (counts : α → β → Bool) (ways : List α) (members : List β) :
    (ways.map fun way => members.countP (counts way)).sum =
      (members.map fun member => ways.countP (counts · member)).sum := by
  induction ways with
  | nil => simp
  | cons way ways ih =>
      simp only [List.map_cons, List.sum_cons, List.countP_cons, List.sum_map_add, ih,
        ← countP_eq_sum]
      exact Nat.add_comm _ _

/-! ### Kinds -/

namespace Economics

variable {policy : EconomicPolicy} {decimals : Decimals} {program : String}
  {window : List Classified} {economics : Economics}

theorem counts_of_ofWindow (h : ofWindow policy decimals program window = .ok economics) :
    economics.transactionCount = window.length ∧
      economics.byKind = Kind.all.map fun kind => (kind, tallyKind window kind) := by
  simp only [ofWindow, Result.bind_eq_ok, Result.pure_eq_ok] at h
  obtain ⟨flows, -, volatility, -, rfl⟩ := h
  exact ⟨rfl, rfl⟩

theorem tallyOf_of_ofWindow (h : ofWindow policy decimals program window = .ok economics)
    (kind : Kind) : economics.tallyOf kind = some (tallyKind window kind) := by
  rw [tallyOf, (counts_of_ofWindow h).2]
  cases kind <;> rfl

theorem count_foldl_add (tallies : List Tally) (start : Tally) :
    (tallies.foldl Tally.add start).count = start.count + (tallies.map Tally.count).sum := by
  induction tallies generalizing start with
  | nil => simp
  | cons tally tallies ih =>
      rw [List.foldl_cons, ih, List.map_cons, List.sum_cons, Tally.add, Int.add_assoc]

/-- Distinct kinds together have as many transactions as are of one of them. -/
theorem count_tally (h : ofWindow policy decimals program window = .ok economics)
    {kinds : List Kind} (hkinds : kinds.Nodup) : (economics.tally kinds).count =
      (window.countP fun classified => decide (classified.kind ∈ kinds) : Nat) := by
  have htallies : (kinds.filterMap fun kind => economics.tallyOf kind) =
      kinds.map (tallyKind window) := by
    rw [← List.filterMap_eq_map]
    exact List.filterMap_congr fun kind _ => tallyOf_of_ofWindow h kind
  have heach (kind : Kind) : (tallyKind window kind).count =
      (window.countP fun classified => decide (classified.kind = kind) : Nat) := by
    rw [List.countP_eq_length_filter]
    rfl
  have hone (classified : Classified) :
      kinds.countP (fun kind => decide (classified.kind = kind)) =
        if decide (classified.kind ∈ kinds) then 1 else 0 := by
    have hcount : kinds.countP (fun kind => decide (classified.kind = kind)) =
        kinds.count classified.kind :=
      List.countP_congr fun kind _ => by rw [decide_eq_true_iff, beq_iff_eq, eq_comm]
    simp only [hcount, hkinds.count, decide_eq_true_eq]
  have hsum : (kinds.map fun kind =>
      window.countP fun classified => decide (classified.kind = kind)).sum =
        window.countP fun classified => decide (classified.kind ∈ kinds) := by
    rw [sum_countP_comm, countP_eq_sum]
    simp only [hone]
  rw [tally, htallies, count_foldl_add, List.map_map, ← hsum, Nat.cast_list_sum, List.map_map,
    Int.zero_add]
  exact congrArg List.sum (List.map_congr_left fun kind _ => heach kind)

end Economics

/-! ### Groups of a report -/

theorem countP_kindGroups (kind : Kind) :
    Report.Sections.kindGroups.countP (fun group => decide (kind ∈ group.2)) = 1 := by
  cases kind <;> decide

theorem sum_kindGroups (window : List Classified) :
    (Report.Sections.kindGroups.map fun group =>
      window.countP fun classified => decide (classified.kind ∈ group.2)).sum = window.length := by
  rw [sum_countP_comm]
  simp only [countP_kindGroups, List.map_const', List.sum_replicate_nat, Nat.mul_one]

/-! ### Fees -/

theorem Fees.transactionCount_of_ofWindow {multiplier : Number} {window : List Classified}
    {fees : Fees} (h : ofWindow multiplier window = .ok fees) :
    fees.transactionCount = window.length := by
  unfold ofWindow at h
  split at h
  · rename_i hempty
    cases h
    rw [List.isEmpty_iff.mp hempty]
    rfl
  · simp only [Result.bind_eq_ok, Result.pure_eq_ok] at h
    obtain ⟨threshold, -, rfl⟩ := h
    rfl

/-! ### Types of instructions -/

namespace DeepDive

theorem frequency_of_ofWindow {profile : Option Program.Profile} {economics : Option Economics}
    {window : List Classified} {dive : DeepDive}
    (h : ofWindow profile economics window = .ok dive) :
    dive.frequency = frequencyOf window := by
  obtain ⟨profile, -, h⟩ := Result.bind_eq_ok.mp h
  split at h <;>
  · simp only [Result.bind_eq_ok, Result.pure_eq_ok] at h
    obtain ⟨economics, -, exceeds, -, rfl⟩ := h
    rfl

theorem nodup_frequencyOf (window : List Classified) : (Table.keys (frequencyOf window)).Nodup :=
  Table.nodup_keys_foldl_adjust List.nodup_nil

theorem total_frequencyOf (window : List Classified) :
    Table.total (frequencyOf window) = (instructionsOf window).length := by
  have htotal (types : List String) : Table.total (types.foldl (fun table type =>
      Table.adjust type (fun count => count.getD 0 + 1) table) []) = types.length := by
    rw [Table.total_foldl_adjust (fun type : String => type) fun _ => 1]
    simp [Table.total]
  have hlength : (window.flatMap fun classified =>
      classified.transaction.instructions.map Interface.typeName).length =
        (instructionsOf window).length := by
    simp only [instructionsOf, List.length_flatMap, List.length_map]
  rw [← hlength]
  exact htotal _

end DeepDive

/-! ### Edges -/

/-- An instruction with two accounts connects the first with the second. -/
def connects (instruction : Instruction) : Bool := decide (2 ≤ instruction.accounts.length)

namespace CallGraph

/-- The edge of an instruction in a transaction of a kind. -/
def edgeOf? (kind : Kind) (instruction : Instruction) : Option CallEdge :=
  match instruction.accounts with
  | source :: target :: _ => some { source, target, action := kind.word }
  | _ => none

theorem isSome_edgeOf? (kind : Kind) (instruction : Instruction) :
    (edgeOf? kind instruction).isSome = connects instruction := by
  unfold edgeOf? connects
  match instruction.accounts with
  | [] => rfl
  | [_] => rfl
  | _ :: _ :: _ => simp

def edgesIn (classified : Classified) : List CallEdge :=
  classified.transaction.instructions.filterMap (edgeOf? classified.kind)

theorem edge?_eq_ok (kind : Kind) (instruction : Instruction) :
    Footprint.edge? kind (some (instruction.accounts.map .str)) =
      .ok (edgeOf? kind instruction) := by
  unfold edgeOf?
  match instruction.accounts with
  | [] => rfl
  | [_] => rfl
  | _ :: _ :: _ => rfl

theorem edges_ofClassified (classified : Classified) :
    Footprint.edges (some (Footprint.ofClassified classified)) = .ok (edgesIn classified) := by
  have hall : (Footprint.ofClassified classified).accounts.mapM
      (Footprint.edge? classified.kind) =
        .ok (classified.transaction.instructions.map (edgeOf? classified.kind)) := by
    rw [Footprint.ofClassified, List.mapM_map]
    exact Result.mapM_eq_ok_map fun instruction _ => edge?_eq_ok classified.kind instruction
  refine Result.bind_eq_ok.mpr ⟨_, hall, ?_⟩
  rw [Result.pure_eq_ok, List.filterMap_map]
  rfl

theorem edges_ofWindow (root : String) (window : List Classified) :
    (ofWindow root window).edges = window.flatMap edgesIn := by
  have hall : edgesOf (footprintsOf window) = .ok (window.flatMap edgesIn) := by
    refine Result.bind_eq_ok.mpr ⟨window.map edgesIn, ?_, by rw [Result.pure_eq_ok]; rfl⟩
    rw [footprintsOf, List.mapM_map]
    exact Result.mapM_eq_ok_map fun classified _ => edges_ofClassified classified
  rw [ofWindow, ofFootprints, hall]
  rfl

theorem length_edges_ofWindow (root : String) (window : List Classified) :
    (ofWindow root window).edges.length = (instructionsOf window).countP connects := by
  have heach (classified : Classified) : (edgesIn classified).length =
      classified.transaction.instructions.countP connects := by
    rw [edgesIn, List.length_filterMap_eq_countP]
    exact List.countP_congr fun instruction _ => by rw [isSome_edgeOf?]
  rw [edges_ofWindow, instructionsOf, List.length_flatMap, List.countP_flatMap]
  exact congrArg List.sum (List.map_congr_left fun classified _ => heach classified)

theorem count_of_mem_edges {root : String} {window : List Classified} {edge : CallEdge}
    (h : edge ∈ (ofWindow root window).edges) : edge.count = 1 := by
  rw [edges_ofWindow, List.mem_flatMap] at h
  obtain ⟨classified, -, h⟩ := h
  obtain ⟨instruction, -, h⟩ := List.mem_filterMap.mp h
  unfold edgeOf? at h
  split at h
  · cases h
    rfl
  · cases h

/-- Merging parallel edges keeps what they count. -/
theorem sum_summary (graph : CallGraph) :
    (graph.summary.map CallEdge.count).sum = (graph.edges.map CallEdge.count).sum := by
  calc (graph.summary.map CallEdge.count).sum
      = Table.total (graph.edges.foldl addEdge []) := by
        rw [summary, List.map_map]
        rfl
    _ = 0 + (graph.edges.map CallEdge.count).sum :=
        Table.total_foldl_adjust keyOf CallEdge.count graph.edges []
    _ = (graph.edges.map CallEdge.count).sum := Int.zero_add _

theorem sum_summary_ofWindow (root : String) (window : List Classified) :
    ((ofWindow root window).summary.map CallEdge.count).sum =
      (instructionsOf window).countP connects := by
  have hones : (ofWindow root window).edges.map CallEdge.count =
      List.replicate (ofWindow root window).edges.length 1 :=
    List.map_eq_replicate_iff.mpr fun _ => count_of_mem_edges
  rw [sum_summary, hones, ← length_edges_ofWindow root]
  simp

end CallGraph

end ProgramAudit.Traffic
