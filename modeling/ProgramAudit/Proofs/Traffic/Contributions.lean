import ProgramAudit.Proofs.Json.Keys
import ProgramAudit.Proofs.Traffic.Grouping
import ProgramAudit.Proofs.Traffic.Sides
import ProgramAudit.Traffic.Economics

/-!
What a group counts. Each instruction that shows a movement of a group counts once, so a transaction
counts as often as it has such instructions.
-/

namespace ProgramAudit

/-! ### Counting -/

section

variable {α : Type} (count : α → Nat) (items : List α)

theorem countP_pos_le_sum : items.countP (0 < count ·) ≤ (items.map count).sum := by
  induction items with
  | nil => exact le_rfl
  | cons item items ih =>
      simp only [List.countP_cons, List.map_cons, List.sum_cons, decide_eq_true_eq]
      split_ifs <;> omega

/-- A sum of counts is the number of those that are not zero if none counts twice. -/
theorem sum_eq_countP_pos_iff :
    (items.map count).sum = items.countP (0 < count ·) ↔ ∀ item ∈ items, count item ≤ 1 := by
  induction items with
  | nil => simp
  | cons item items ih =>
      have hle := countP_pos_le_sum count items
      simp only [List.countP_cons, List.map_cons, List.sum_cons, decide_eq_true_eq,
        List.forall_mem_cons, ← ih]
      split_ifs <;> omega

end

namespace Traffic

open Ledger Result

namespace Flow

/-! ### Keys -/

/-- What a key counts as: keys are told apart by it. -/
structure Key.Handle where
  account : Json.Handle
  mint : String
  kind : String
deriving DecidableEq

def Key.handle (key : Key) : Key.Handle := ⟨key.account.handle, key.mint, key.kind⟩

theorem Key.beq_handle {left right : Key} (hleft : left.account.isKey = true)
    (hright : right.account.isKey = true) :
    (left.handle == right.handle) = (left == right) := by
  change _ = (left.account.sameKey right.account && left.mint == right.mint && left.kind == right.kind)
  rw [Bool.eq_iff_iff]
  simp only [Bool.and_eq_true, beq_iff_eq, Json.sameKey_iff hleft hright, Key.handle,
    Key.Handle.mk.injEq, and_assoc]

end Flow

namespace TokenFlow

open ProgramAudit.Traffic.Flow

def key (group : TokenFlow) : Key := ⟨group.account, group.mint, group.kind⟩

variable {entries : List Entry} {groups : List TokenFlow} {group : TokenFlow}

theorem group_eq_ok_iff : TokenFlow.group entries = .ok groups ↔
    (∀ entry ∈ entries, entry.1.account.isKey = true) ∧
      groups = sort ((totals entries).map ofTotal) := by
  unfold TokenFlow.group
  cases hfind : entries.find? fun entry => !entry.1.account.isKey with
  | none =>
      have hkeys : ∀ entry ∈ entries, entry.1.account.isKey = true := by
        simpa using hfind
      constructor
      · intro h
        exact ⟨hkeys, (Except.ok.inj h).symm⟩
      · rintro ⟨-, rfl⟩
        rfl
  | some entry =>
      have hentry := List.find?_some hfind
      refine iff_of_false nofun fun ⟨hkeys, _⟩ => ?_
      rw [hkeys entry (List.mem_of_find?_eq_some hfind)] at hentry
      cases hentry

theorem map_totals (hkeys : ∀ entry ∈ entries, entry.1.account.isKey = true) :
    (totals entries).map (Prod.map Key.handle id) =
      totalsUnder (entries.map (Prod.map Key.handle id)) := by
  rw [totalsUnder, List.foldl_map]
  refine (Table.foldl_adjust_map Prod.fst (fun entry => Total.add entry.2) [] ?_).symm
  intro entry hentry held hheld
  obtain ⟨other, hother, rfl⟩ := List.mem_map.mp (hheld.resolve_left List.not_mem_nil)
  exact Key.beq_handle (hkeys other hother) (hkeys entry hentry)

theorem exists_of_mem_totals {key : Key} {total : Total} (h : (key, total) ∈ totals entries) :
    ∃ entry ∈ entries, entry.1 = key := by
  have hkey : key ∈ Table.keys (totals entries) := List.mem_map_of_mem h
  apply List.mem_map.mp
  apply (Table.mem_keys_foldl_adjust Prod.fst (fun entry => Total.add entry.2) hkey).resolve_left
  exact List.not_mem_nil

/-- Keys that count as the same are one key, and its total counts all of their movements. -/
theorem count_of_mem_totals (hkeys : ∀ entry ∈ entries, entry.1.account.isKey = true) {first : Entry}
    {total : Total} (hfirst : first ∈ entries) (h : (first.1, total) ∈ totals entries) :
    total.count = (entries.countP fun entry => entry.1 == first.1 : Nat) := by
  have htotals : (first.1.handle, total) ∈ (totals entries).map (Prod.map Key.handle id) :=
    List.mem_map_of_mem h
  rw [map_totals hkeys, totalsUnder_eq] at htotals
  obtain ⟨handle, -, hsame⟩ := List.mem_map.mp htotals
  obtain ⟨rfl, rfl⟩ := Prod.mk.inj hsame
  rw [Total.of, List.length_map, ← List.countP_eq_length_filter, List.countP_map, Nat.cast_inj]
  refine List.countP_congr fun entry hentry => ?_
  rw [← Key.beq_handle (hkeys entry hentry) (hkeys first hfirst)]
  exact Iff.rfl

/-- A group counts its movements, and has at least one. -/
theorem count_of_mem_group (h : TokenFlow.group entries = .ok groups) (hgroup : group ∈ groups) :
    group.count = (entries.countP fun entry => entry.1 == group.key : Nat) ∧ 0 < group.count := by
  obtain ⟨hkeys, rfl⟩ := group_eq_ok_iff.mp h
  obtain ⟨⟨key, total⟩, htotal, rfl⟩ := List.mem_map.mp ((perm_sort _).mem_iff.mp hgroup)
  obtain ⟨first, hfirst, rfl⟩ := exists_of_mem_totals htotal
  have hcount := count_of_mem_totals hkeys hfirst htotal
  have hself : (first.1 == first.1) = true := by
    rw [← Key.beq_handle (hkeys first hfirst) (hkeys first hfirst), beq_self_eq_true]
  have hpositive : 0 < entries.countP fun entry => entry.1 == first.1 :=
    List.countP_pos_iff.mpr ⟨first, hfirst, hself⟩
  exact ⟨hcount, (Int.natCast_pos.mpr hpositive).trans_eq hcount.symm⟩

end TokenFlow

/-! ### Contributions -/

namespace Flow

variable (policy : EconomicPolicy) (decimals : Decimals) (program : String)

namespace Side

/-- Whether an instruction of a transaction shows a movement of a key on a side. -/
def contributes (side : Side) (key : Key) (classified : Classified) (instruction : Instruction) : Bool :=
  (shownBy policy decimals program classified instruction).any fun flow =>
    side.counts program flow && (side.entry flow).1 == key

/-- How many instructions of a transaction contribute to a key. -/
def contributions (side : Side) (key : Key) (classified : Classified) : Nat :=
  classified.transaction.instructions.countP (side.contributes policy decimals program key classified)

end Side

variable {policy decimals program} {classified : Classified} {window : List Classified}
  {flows : List Flow} {side : Side}

theorem countP_shown (key : Key) :
    (shown policy decimals program classified).countP
        (fun flow => side.counts program flow && (side.entry flow).1 == key) =
      side.contributions policy decimals program key classified := by
  rw [shown, List.countP_filterMap, Side.contributions]
  refine List.countP_congr fun instruction _ => ?_
  rw [Side.contributes]
  cases shownBy policy decimals program classified instruction <;> simp

theorem countP_ofWindow (key : Key) (h : ofWindow policy decimals program window = .ok flows) :
    flows.countP (fun flow => side.counts program flow && (side.entry flow).1 == key) =
      (window.map (side.contributions policy decimals program key)).sum := by
  rw [ofWindow_eq_shown h, List.countP_flatMap]
  exact congrArg List.sum (List.map_congr_left fun classified _ => countP_shown key)

end Flow

namespace TokenFlows

open ProgramAudit.Traffic.Flow

variable {policy : EconomicPolicy} {decimals : Decimals} {program : String}
  {window : List Classified} {reported : TokenFlows} {side : Side} {group : TokenFlow}

theorem mem_group_of_mem_reported (h : ofWindow policy decimals program window = .ok reported)
    (hgroup : group ∈ side.reported reported) : ∃ flows groups,
      Flow.ofWindow policy decimals program window = .ok flows ∧
        TokenFlow.group (side.entries program flows) = .ok groups ∧ group ∈ groups := by
  obtain ⟨flows, outflows, inflows, risk, hflows, hout, hin, -, rfl⟩ := ofWindow_eq_ok.mp h
  cases side with
  | inward => exact ⟨flows, inflows, hflows, hin, mem_of_mem_upTo hgroup⟩
  | outward => exact ⟨flows, outflows, hflows, hout, mem_of_mem_upTo hgroup⟩

/-- A reported group counts the instructions that contribute to it, on its side. So it counts at least
the transactions that have such an instruction, and exactly those if none of them has two. -/
theorem counts_instructions (h : ofWindow policy decimals program window = .ok reported) (side : Side)
    (hgroup : group ∈ side.reported reported) :
    let contributions := side.contributions policy decimals program group.key
    let transactions := window.countP (0 < contributions ·)
    group.count = (window.map contributions).sum ∧
      0 < transactions ∧ transactions ≤ window.length ∧ transactions ≤ group.count ∧
      (group.count = transactions ↔ ∀ classified ∈ window, contributions classified ≤ 1) := by
  intro contributions transactions
  obtain ⟨flows, groups, hflows, hgroups, hmem⟩ := mem_group_of_mem_reported h hgroup
  obtain ⟨hcount, hpositive⟩ := TokenFlow.count_of_mem_group hgroups hmem
  have hsum : group.count = ((window.map contributions).sum : Nat) := by
    rw [hcount, Side.entries, List.countP_map, List.countP_filter, ← countP_ofWindow group.key hflows]
    rw [Nat.cast_inj]
    exact List.countP_congr fun flow _ => by simp [and_comm]
  have hsome : 0 < transactions := by
    apply Nat.pos_of_ne_zero
    intro hnone
    have hzero : (window.map contributions).sum = 0 := by
      apply List.sum_eq_zero
      intro count hcontributions
      obtain ⟨classified, hclassified, rfl⟩ := List.mem_map.mp hcontributions
      simpa using List.countP_eq_zero.mp hnone classified hclassified
    omega
  have hle := countP_pos_le_sum contributions window
  have hsame := sum_eq_countP_pos_iff contributions window
  exact ⟨hsum, hsome, List.countP_le_length, by omega, by rw [← hsame]; omega⟩

/-- A transaction that pays the same account twice. -/
def paidTwice : Classified :=
  classifiedOf "program" [transferOf (.str "program") (.str "account") "mint" (.str "1"),
    transferOf (.str "program") (.str "account") "mint" (.str "2")]

theorem counts_instructions_paidTwice :
    ∃ reported group, ofWindow {} [("mint", .int 0)] "program" [paidTwice] = .ok reported ∧
      group ∈ Side.outward.reported reported ∧
      (let contributions :=
        Side.outward.contributions {} [("mint", .int 0)] "program" group.key
      let transactions := [paidTwice].countP (0 < contributions ·)
      group.count = (([paidTwice].map contributions).sum : Nat) ∧
        0 < transactions ∧ transactions ≤ [paidTwice].length ∧ transactions ≤ group.count ∧
        (group.count = transactions ↔
          ∀ classified ∈ [paidTwice], contributions classified ≤ 1)) := by
  have hcounts : (ofWindow {} [("mint", .int 0)] "program" [paidTwice]).toOption.map
      (fun reported => reported.topOutflows.length) = some 1 := by decide +kernel
  cases hreported : ofWindow {} [("mint", .int 0)] "program" [paidTwice] with
  | error failure =>
      rw [hreported] at hcounts
      cases hcounts
  | ok reported =>
      rw [hreported] at hcounts
      have hlength : 0 < reported.topOutflows.length := by
        have hone : reported.topOutflows.length = 1 := Option.some.inj hcounts
        omega
      have hgroup := List.getElem_mem hlength
      exact ⟨reported, _, rfl, hgroup, counts_instructions hreported .outward hgroup⟩

/-- One transaction counts twice if it pays the same account twice. -/
theorem counted_twice : (Economics.ofWindow {} [("mint", .int 0)] "program" [paidTwice]).toOption.map
    (fun economics => (economics.tokenFlows.topOutflows.map TokenFlow.count,
      economics.transactionCount)) = some ([2], 1) := by
  decide +kernel

end TokenFlows

end Traffic

end ProgramAudit
