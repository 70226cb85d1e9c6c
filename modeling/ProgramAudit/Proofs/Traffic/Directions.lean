import ProgramAudit.Proofs.Number.DoubleProduct
import ProgramAudit.Proofs.Traffic.Grouping
import ProgramAudit.Proofs.Traffic.Sides

/-!
What is reported of the two sides of a program. Each side is told from its own movements alone, so
transactions without any on a side can come and go without a trace on it.
-/

namespace ProgramAudit

namespace Number

variable {x y : Float}

theorem less_real : (Number.real x).less (.real y) = decide (x < y) := by
  rw [less, compare?, compareReal]
  split_ifs with hless <;> simp [hless]

end Number

namespace Traffic

open Ledger Result

namespace Flow

/-- Both ends of a movement are texts. -/
def Textual (flow : Flow) : Prop :=
  ∃ source destination, flow.source = .str source ∧ flow.destination = .str destination

theorem textual_iff {flow : Flow} : flow.Textual ↔
    flow.source.string?.isSome = true ∧ flow.destination.string?.isSome = true := by
  obtain ⟨source, destination, amount, mint, kind⟩ := flow
  unfold Textual
  cases source <;> cases destination <;> simp [Json.string?]

namespace Side

variable {side : Side} {program : String} {flows : List Flow}

/-- The text that a movement on a side counts for. -/
def text (side : Side) (flow : Flow) : TextKey :=
  ⟨(side.entry flow).1.account.text, flow.mint, flow.kind⟩

/-- The amounts that count on a side, under their texts. -/
def texts (side : Side) (program : String) (flows : List Flow) : List TextEntry :=
  (flows.filter (side.counts program)).map fun flow => (side.text flow, flow.amount)

theorem entry_eq {flow : Flow} (h : flow.Textual) :
    side.entry flow = TextEntry.entry (side.text flow, flow.amount) := by
  obtain ⟨source, destination, amount, mint, kind⟩ := flow
  obtain ⟨source, destination, hsource, hdestination⟩ := h
  cases hsource
  cases hdestination
  cases side <;> rfl

theorem entries_eq (h : ∀ flow ∈ flows, flow.Textual) :
    side.entries program flows = (side.texts program flows).map TextEntry.entry := by
  rw [entries, texts, List.map_map]
  exact List.map_congr_left fun flow hflow => entry_eq (h flow (List.mem_of_mem_filter hflow))

theorem mem_texts {key : TextKey} : key ∈ (side.texts program flows).map Prod.fst ↔
    ∃ flow ∈ flows, side.counts program flow = true ∧ side.text flow = key := by
  simp only [texts, List.map_map, List.mem_map, List.mem_filter, Function.comp_apply, and_assoc]

end Side

section

variable (policy : EconomicPolicy) (decimals : Decimals) (program : String)

/-- Whether a transaction shows a movement on a side. -/
def Side.moves (side : Side) (classified : Classified) : Bool :=
  (shown policy decimals program classified).any (side.counts program)

variable {policy decimals program} {window others : List Classified} {flows flows' : List Flow}
  {side : Side}

/-- Only the transactions with movements on a side make up the side. -/
theorem filter_flatMap_shown (window : List Classified) :
    (window.flatMap (shown policy decimals program)).filter (side.counts program) =
      (window.filter (side.moves policy decimals program)).flatMap fun classified =>
        (shown policy decimals program classified).filter (side.counts program) := by
  induction window with
  | nil => rfl
  | cons classified window ih =>
      rw [List.flatMap_cons, List.filter_append, ih]
      by_cases hmoves : side.moves policy decimals program classified = true
      · rw [List.filter_cons_of_pos hmoves, List.flatMap_cons]
      · rw [List.filter_cons_of_neg hmoves]
        have hnone : (shown policy decimals program classified).filter (side.counts program) = [] :=
          List.filter_eq_nil_iff.mpr fun flow hflow hcounts =>
            hmoves (List.any_eq_true.mpr ⟨flow, hflow, hcounts⟩)
        rw [hnone, List.nil_append]

theorem texts_congr (h : ofWindow policy decimals program window = .ok flows)
    (h' : ofWindow policy decimals program others = .ok flows')
    (hsame : others.filter (side.moves policy decimals program) =
      window.filter (side.moves policy decimals program)) :
    side.texts program flows' = side.texts program flows := by
  rw [Side.texts, Side.texts, ofWindow_eq_shown h, ofWindow_eq_shown h', filter_flatMap_shown,
    filter_flatMap_shown, hsame]

end

end Flow

namespace TokenFlows

open ProgramAudit.Traffic.Flow

/-! ### Concentration -/

section

variable {policy : EconomicPolicy} {ratio : Float} {groups : List TokenFlow}

/-- What all groups come to. -/
def sumOf (groups : List TokenFlow) : Float := (groups.map TokenFlow.amountOf).foldl (· + ·) 0.0

/-- The first group stands for all: where any passes a bound of their sum, so does the first. -/
theorem exists_passing_iff {greatest : TokenFlow} {others : List TokenFlow}
    (hsorted : (∀ group ∈ greatest :: others, Number.isUndefined group.amountOf = false) →
      (greatest :: others).Pairwise fun left right => ¬left.amountOf < right.amountOf) :
    ratio * sumOf (greatest :: others) < greatest.amountOf ↔
      ∃ group ∈ greatest :: others, ratio * sumOf (greatest :: others) < group.amountOf := by
  constructor
  · exact fun h => ⟨greatest, List.mem_cons_self, h⟩
  · rintro ⟨group, hgroup, hpasses⟩
    by_cases hdefined : ∀ group ∈ greatest :: others, Number.isUndefined group.amountOf = false
    · rcases List.mem_cons.mp hgroup with rfl | hother
      · exact hpasses
      · have hnot := List.rel_of_pairwise_cons (hsorted hdefined) hother
        have hle : group.amountOf ≤ greatest.amountOf := by
          rcases Number.float_le_total (hdefined group hgroup) (hdefined greatest List.mem_cons_self)
            with hle | hge
          · exact hle
          · by_contra hgreater
            exact hnot (Number.float_lt_iff.mpr ⟨hge, hgreater⟩)
        exact Number.float_lt_of_lt_of_le hpasses hle
    · -- A total that is no number passes into the sum, and from it into the bound.
      push Not at hdefined
      obtain ⟨other, hother, hundefined⟩ := hdefined
      have hsum : Number.isUndefined (sumOf (greatest :: others)) = true :=
        Number.isUndefined_foldl_add (.inr ⟨_, List.mem_map_of_mem hother, by simpa using hundefined⟩)
      exact absurd hpasses (Number.not_lt_of_isUndefined (Number.isUndefined_mul hsum))

theorem isConcentrated_eq (hratio : policy.concentrationRatio.toReal? = some ratio)
    (hamounts : ∀ group ∈ groups, group.amount = .real group.amountOf)
    (hsorted : (∀ group ∈ groups, Number.isUndefined group.amountOf = false) →
      groups.Pairwise fun left right => ¬left.amountOf < right.amountOf) :
    ∃ risk, isConcentrated policy groups = .ok risk ∧
      (risk = true ↔ ∃ group ∈ groups, ratio * sumOf groups < group.amountOf) := by
  cases groups with
  | nil => exact ⟨false, rfl, iff_of_false Bool.false_ne_true (by simp)⟩
  | cons greatest others =>
      refine ⟨decide (ratio * sumOf (greatest :: others) < greatest.amountOf), ?_, ?_⟩
      · have htimes := Number.times_real hratio (sumOf (greatest :: others))
        unfold isConcentrated
        change policy.concentrationRatio.times (.real (sumOf (greatest :: others))) >>= _ = _
        rw [htimes, ← Number.less_real, ← hamounts greatest List.mem_cons_self]
        rfl
      · rw [decide_eq_true_iff]
        exact exists_passing_iff hsorted

end

/-! ### The sides apart -/

variable {policy : EconomicPolicy} {decimals : Decimals} {program : String}
  {window others : List Classified} {flows : List Flow} {ratio : Float}

/-- The groups of a side: one for each text that a movement on the side counts for, with the sum from
the left of the amounts of just these movements and their number. Each movement counts for one group,
and where no total is undefined, none stands before a greater one. -/
structure Groups (program : String) (flows : List Flow) (side : Side) (keys : List TextKey)
    (groups : List TokenFlow) : Prop where
  groups_eq : groups = keys.map (TokenFlow.ofText (side.texts program flows))
  nodup : keys.Nodup
  mem_iff : ∀ key, key ∈ keys ↔ ∃ flow ∈ flows, side.counts program flow = true ∧ side.text flow = key
  sum_counts : (groups.map TokenFlow.count).sum = flows.countP (side.counts program)
  sorted : (∀ group ∈ groups, Number.isUndefined group.amountOf = false) →
    groups.Pairwise fun left right => ¬left.amountOf < right.amountOf

/-- None that is left out is greater than one that is not. -/
theorem not_lt_of_omitted {side : Side} {keys : List TextKey} {groups : List TokenFlow}
    (h : Groups program flows side keys groups)
    (hdefined : ∀ group ∈ groups, Number.isUndefined group.amountOf = false) {count : Nat}
    {kept omitted : TokenFlow} (hkept : kept ∈ groups.take count)
    (homitted : omitted ∈ groups.drop count) : ¬kept.amountOf < omitted.amountOf := by
  have hsorted := h.sorted hdefined
  rw [← List.take_append_drop count groups] at hsorted
  exact (List.pairwise_append.mp hsorted).2.2 kept hkept omitted homitted

def sortedGroups (program : String) (flows : List Flow) (side : Side) : List TokenFlow :=
  (TokenFlow.sortedTexts (side.texts program flows)).map (TokenFlow.ofText (side.texts program flows))

theorem group_entries (h : ∀ flow ∈ flows, flow.Textual) (side : Side) :
    TokenFlow.group (side.entries program flows) = .ok (sortedGroups program flows side) := by
  rw [Side.entries_eq h]
  exact TokenFlow.group_eq_ok _

theorem groups_sortedGroups (program : String) (flows : List Flow) (side : Side) :
    Groups program flows side (TokenFlow.sortedTexts (side.texts program flows))
      (sortedGroups program flows side) where
  groups_eq := rfl
  nodup := TokenFlow.nodup_sortedTexts _
  mem_iff _ := TokenFlow.mem_sortedTexts.trans Side.mem_texts
  sum_counts := by
    have hsum := TokenFlow.sum_counts (side.texts program flows)
    rw [sortedGroups, List.map_map, List.countP_eq_length_filter]
    rwa [Side.texts, List.length_map, ← Side.texts] at hsum
  sorted hdefined := by
    have hkeys := @TokenFlow.pairwise_sortedTexts (side.texts program flows) fun key hkey =>
      hdefined _ (List.mem_map_of_mem hkey)
    exact List.pairwise_map.mpr (hkeys.imp And.left)

theorem ofWindow_eq_sortedGroups (hcount : 0 ≤ policy.topFlows)
    (hratio : policy.concentrationRatio.toReal? = some ratio)
    (hflows : Flow.ofWindow policy decimals program window = .ok flows)
    (htextual : ∀ flow ∈ flows, flow.Textual) :
    ∃ reported, ofWindow policy decimals program window = .ok reported ∧
      (∀ side : Side, side.reported reported =
        (sortedGroups program flows side).take policy.topFlows.toNat) ∧
      (reported.concentrationRisk = true ↔ ∃ group ∈ sortedGroups program flows .outward,
        ratio * sumOf (sortedGroups program flows .outward) < group.amountOf) := by
  have hamounts : ∀ group ∈ sortedGroups program flows .outward,
      group.amount = .real group.amountOf := by
    intro group hgroup
    obtain ⟨key, hkey, rfl⟩ := List.mem_map.mp hgroup
    rw [TokenFlow.ofText_eq (TokenFlow.mem_sortedTexts.mp hkey)]
    rfl
  obtain ⟨risk, hrisk, hiff⟩ := isConcentrated_eq hratio hamounts
    (groups_sortedGroups program flows .outward).sorted
  refine ⟨_, ofWindow_eq_ok.mpr ⟨flows, _, _, risk, hflows, group_entries htextual .outward,
    group_entries htextual .inward, hrisk, rfl⟩, fun side => ?_, hiff⟩
  cases side <;> exact if_pos hcount

/-- A transaction that pays three accounts, the second one by infinities of both signs. -/
def paidOpposed : Classified :=
  classifiedOf "program" [transferOf (.str "program") (.str "a") "mint" (.str "1"),
    transferOf (.str "program") (.str "b") "mint" (.str "1e400"),
    transferOf (.str "program") (.str "b") "mint" (.str "-1e400"),
    transferOf (.str "program") (.str "c") "mint" (.str "2")]

end TokenFlows

end Traffic

end ProgramAudit
