import ProgramAudit.Proofs.Number.DoubleSum
import ProgramAudit.Proofs.Table
import ProgramAudit.Traffic.Flow

/-!
Movements grouped by who moved what, and how. Each key gets the amounts that were moved under it, no
others, in the order in which they came, and the greatest totals stand first; where totals are equal,
the keys stand as they first came.
-/

namespace ProgramAudit.Traffic

/-- A key whose account is a text, as an address is. -/
structure Flow.TextKey where
  account : String
  mint : String
  kind : String
deriving DecidableEq

namespace Flow

def TextKey.key (key : TextKey) : Key := ⟨.str key.account, key.mint, key.kind⟩

/-- An amount under a text. -/
abbrev TextEntry := TextKey × Float

def TextEntry.entry (entry : TextEntry) : Entry := Prod.map TextKey.key id entry

/-- The amounts under a key, in the order in which they came. -/
def amounts (key : TextKey) (entries : List TextEntry) : List Float :=
  (entries.filter (Prod.fst · == key)).map Prod.snd

theorem TextKey.beq_key (left right : TextKey) : (left.key == right.key) = (left == right) := by
  have haccount : (Json.str left.account).sameKey (.str right.account) =
      (left.account == right.account) := Bool.or_false _
  change ((Json.str left.account).sameKey (.str right.account) && left.mint == right.mint &&
    left.kind == right.kind) = _
  rw [haccount, Bool.eq_iff_iff]
  cases left
  cases right
  simp [and_assoc]

theorem amounts_ne_nil {key : TextKey} {entries : List TextEntry} :
    amounts key entries ≠ [] ↔ key ∈ entries.map Prod.fst := by
  simp [amounts]

end Flow

namespace TokenFlow

open ProgramAudit.Traffic.Flow

/-! ### Totals -/

/-- What amounts come to together. -/
def Total.of (amounts : List Float) : Total := ⟨amounts.foldl (· + ·) 0.0, amounts.length⟩

theorem foldl_add_some (amounts : List Float) (total : Total) :
    amounts.foldl (fun found amount => some (Total.add amount found)) (some total) =
      some ⟨amounts.foldl (· + ·) total.amount, total.count + amounts.length⟩ := by
  induction amounts generalizing total with
  | nil => simp
  | cons amount amounts ih =>
      rw [List.foldl_cons, ih, List.foldl_cons, List.length_cons]
      simp only [Total.add, Option.some.injEq, Total.mk.injEq, true_and]
      omega

theorem foldl_add_none {amounts : List Float} (h : amounts ≠ []) :
    amounts.foldl (fun found amount => some (Total.add amount found)) none =
      some (Total.of amounts) := by
  cases amounts with
  | nil => exact absurd rfl h
  | cons amount amounts =>
      rw [List.foldl_cons, foldl_add_some]
      simp only [Total.add, Total.of, List.foldl_cons, List.length_cons, Option.some.injEq,
        Total.mk.injEq, true_and]
      omega

section

variable {κ : Type} [BEq κ]

/-- The totals under keys of any kind. -/
def totalsUnder (entries : List (κ × Float)) : Table κ Total :=
  entries.foldl (fun table entry => Table.adjust entry.1 (Total.add entry.2) table) []

variable [LawfulBEq κ]

/-- Each key gets the total of its own amounts. -/
theorem totalsUnder_eq (entries : List (κ × Float)) : totalsUnder entries =
    (distinct (entries.map Prod.fst)).map fun key =>
      (key, Total.of ((entries.filter (Prod.fst · == key)).map Prod.snd)) := by
  have hkeys : Table.keys (totalsUnder entries) = distinct (entries.map Prod.fst) :=
    Table.keys_foldl_adjust Prod.fst (fun entry => Total.add entry.2) entries []
  have hfound : ∀ key ∈ Table.keys (totalsUnder entries), Table.get? key (totalsUnder entries) =
      some (Total.of ((entries.filter (Prod.fst · == key)).map Prod.snd)) := by
    intro key hkey
    rw [hkeys, mem_distinct] at hkey
    have hsome : (entries.filter (Prod.fst · == key)).map Prod.snd ≠ [] := by simpa using hkey
    rw [← foldl_add_none hsome, List.foldl_map]
    exact Table.get?_foldl_adjust Prod.fst (fun entry => Total.add entry.2) entries []
  have hnodup : (Table.keys (totalsUnder entries)).Nodup := hkeys ▸ nodup_distinct _
  rw [← hkeys]
  exact Table.eq_map_keys hnodup hfound

end

theorem totals_entries (entries : List TextEntry) :
    totals (entries.map TextEntry.entry) = (totalsUnder entries).map (Prod.map TextKey.key id) := by
  rw [totals, List.foldl_map]
  exact Table.foldl_adjust_map Prod.fst (fun entry => Total.add entry.2) []
    fun entry _ held _ => TextKey.beq_key held entry.1

/-- The movements under a text together. -/
def ofText (entries : List TextEntry) (key : TextKey) : TokenFlow :=
  { account := .str key.account
    mint := key.mint
    kind := key.kind
    amount := Number.sum (amounts key entries)
    count := (amounts key entries).length }

theorem ofText_eq {entries : List TextEntry} {key : TextKey} (h : key ∈ entries.map Prod.fst) :
    ofText entries key = ofTotal (key.key, Total.of (amounts key entries)) := by
  have hsum : Number.sum (amounts key entries) = .real (Total.of (amounts key entries)).amount := by
    cases hamounts : amounts key entries with
    | nil => exact absurd hamounts (amounts_ne_nil.mpr h)
    | cons amount others => rfl
  rw [ofText, hsum]
  rfl

/-- Texts can be keys, so grouping them does not fail. -/
theorem group_entries (entries : List TextEntry) :
    group (entries.map TextEntry.entry) =
      .ok (sort ((distinct (entries.map Prod.fst)).map (ofText entries))) := by
  have hkeys : (entries.map TextEntry.entry).find? (fun entry => !entry.1.account.isKey) = none := by
    rw [List.find?_eq_none]
    intro entry hentry
    obtain ⟨entry, -, rfl⟩ := List.mem_map.mp hentry
    exact Bool.false_ne_true
  have htotals : (totals (entries.map TextEntry.entry)).map ofTotal =
      (distinct (entries.map Prod.fst)).map (ofText entries) := by
    rw [totals_entries, totalsUnder_eq, List.map_map, List.map_map]
    exact List.map_congr_left fun key hkey => (ofText_eq (mem_distinct.mp hkey)).symm
  unfold group
  rw [hkeys, htotals]

/-! ### Sorting -/

theorem perm_insertByHalves (sorted : Array TokenFlow) (item : TokenFlow) :
    (insertByHalves sorted item).toList.Perm (item :: sorted.toList) := by
  unfold insertByHalves
  dsimp only
  generalize insertionPoint item sorted 0 sorted.size = position
  have hparts : (sorted.extract 0 position ++ #[item] ++ sorted.extract position sorted.size).toList =
      sorted.toList.take position ++ item :: sorted.toList.drop position := by
    simp
  rw [hparts]
  refine List.perm_middle.trans (.of_eq ?_)
  rw [List.take_append_drop]

theorem perm_foldl_insertByHalves (sorted : Array TokenFlow) (items : List TokenFlow) :
    (items.foldl insertByHalves sorted).toList.Perm (sorted.toList ++ items) := by
  induction items generalizing sorted with
  | nil => simp
  | cons item items ih =>
      rw [List.foldl_cons]
      refine (ih _).trans (((perm_insertByHalves sorted item).append_right items).trans ?_)
      exact List.perm_middle.symm

theorem takeRun_append (follows : TokenFlow → TokenFlow → Bool) (last : TokenFlow)
    (flows : List TokenFlow) :
    (takeRun follows last flows).1 ++ (takeRun follows last flows).2 = flows := by
  induction flows generalizing last with
  | nil => rfl
  | cons flow flows ih =>
      unfold takeRun
      split_ifs
      · exact congrArg (flow :: ·) (ih flow)
      · rfl

theorem perm_leadingRun (flows : List TokenFlow) :
    ((leadingRun flows).1 ++ (leadingRun flows).2).Perm flows := by
  match flows with
  | [] => exact .refl _
  | [flow] => exact .refl _
  | first :: second :: rest =>
      unfold leadingRun
      dsimp only
      split_ifs
      · refine ((List.reverse_perm _).append_right _).trans (.of_eq ?_)
        exact congrArg (first :: second :: ·) (takeRun_append _ second rest)
      · exact .of_eq (congrArg (first :: second :: ·) (takeRun_append _ second rest))

theorem perm_sort (flows : List TokenFlow) : (sort flows).Perm flows := by
  unfold sort
  split_ifs
  · unfold sortWithUndefined
    dsimp only
    refine (List.reverse_perm _).trans ((perm_foldl_insertByHalves _ _).trans ?_)
    exact (perm_leadingRun flows.reverse).trans (List.reverse_perm flows)
  · exact List.mergeSort_perm flows _

/-- The order of the sorting, with the undefined amounts before all others. -/
def ordered (left right : TokenFlow) : Bool :=
  Number.isUndefined left.amountOf ||
    (!Number.isUndefined right.amountOf && decide (right.amountOf ≤ left.amountOf))

theorem ordered_trans (first second third : TokenFlow) (h : ordered first second = true)
    (h' : ordered second third = true) : ordered first third = true := by
  simp only [ordered, Bool.or_eq_true, Bool.and_eq_true, Bool.not_eq_true', decide_eq_true_eq] at *
  rcases h with hfirst | ⟨hsecond, hle⟩
  · exact .inl hfirst
  · rcases h' with hundefined | ⟨hthird, hle'⟩
    · cases hsecond.symm.trans hundefined
    · exact .inr ⟨hthird, Number.float_le_trans hle' hle⟩

theorem ordered_total (left right : TokenFlow) : (ordered left right || ordered right left) = true := by
  cases hleft : Number.isUndefined left.amountOf with
  | true => simp [ordered, hleft]
  | false =>
      cases hright : Number.isUndefined right.amountOf with
      | true => simp [ordered, hright]
      | false =>
          have htotal := Number.float_le_total hright hleft
          simpa [ordered, hleft, hright] using htotal

section

variable {flows : List TokenFlow} (hdefined : ∀ flow ∈ flows, Number.isUndefined flow.amountOf = false)

include hdefined

theorem sort_eq_mergeSort : sort flows = flows.mergeSort ordered := by
  have hany : ¬(flows.any fun flow => Number.isUndefined flow.amountOf) = true := by
    intro hany
    obtain ⟨flow, hflow, hundefined⟩ := List.any_eq_true.mp hany
    cases (hdefined flow hflow).symm.trans hundefined
  have hsame : ∀ left ∈ flows, ∀ right ∈ flows,
      decide (right.amountOf ≤ left.amountOf) = ordered left right := by
    intro left hleft right hright
    rw [ordered, hdefined left hleft, hdefined right hright]
    rfl
  have hsorted : (flows.mergeSort fun left right => decide (right.amountOf ≤ left.amountOf)).map id =
      (flows.map id).mergeSort ordered := List.map_mergeSort hsame
  rw [sort, if_neg hany]
  rwa [List.map_id, List.map_id] at hsorted

theorem pairwise_sort :
    (sort flows).Pairwise fun left right => ¬left.amountOf < right.amountOf := by
  have hsorted : (sort flows).Pairwise fun left right => ordered left right = true := by
    rw [sort_eq_mergeSort hdefined]
    exact List.pairwise_mergeSort ordered_trans ordered_total flows
  refine hsorted.imp_of_mem fun {left right} hleft hright hordered hless => ?_
  rw [ordered, hdefined left ((perm_sort flows).mem_iff.mp hleft),
    hdefined right ((perm_sort flows).mem_iff.mp hright)] at hordered
  exact (Number.float_lt_iff.mp hless).2 (of_decide_eq_true hordered)

/-- What is not greater stays behind. -/
theorem sublist_sort {left right : TokenFlow} (hle : right.amountOf ≤ left.amountOf)
    (h : [left, right].Sublist flows) : [left, right].Sublist (sort flows) := by
  have hordered : ordered left right = true := by
    rw [ordered, hdefined right (h.subset (by simp)), decide_eq_true hle]
    exact Bool.or_true _
  rw [sort_eq_mergeSort hdefined]
  exact List.pair_sublist_mergeSort ordered_trans ordered_total hordered h

end

/-! ### Groups -/

/-- The text of a group. -/
def textKey (flow : TokenFlow) : TextKey := ⟨flow.account.text, flow.mint, flow.kind⟩

/-- The texts of the groups, as the groups are sorted. -/
def sortedTexts (entries : List TextEntry) : List TextKey :=
  (sort ((distinct (entries.map Prod.fst)).map (ofText entries))).map textKey

theorem perm_sortedTexts (entries : List TextEntry) :
    (sortedTexts entries).Perm (distinct (entries.map Prod.fst)) := by
  refine ((perm_sort _).map textKey).trans (.of_eq ?_)
  rw [List.map_map]
  exact List.map_id _

theorem map_sortedTexts (entries : List TextEntry) :
    (sortedTexts entries).map (ofText entries) =
      sort ((distinct (entries.map Prod.fst)).map (ofText entries)) := by
  rw [sortedTexts, List.map_map]
  refine (List.map_congr_left fun flow hflow => ?_).trans (List.map_id _)
  obtain ⟨key, -, rfl⟩ := List.mem_map.mp ((perm_sort _).mem_iff.mp hflow)
  rfl

theorem group_eq_ok (entries : List TextEntry) :
    group (entries.map TextEntry.entry) = .ok ((sortedTexts entries).map (ofText entries)) := by
  rw [group_entries, map_sortedTexts]

theorem mem_sortedTexts {entries : List TextEntry} {key : TextKey} :
    key ∈ sortedTexts entries ↔ key ∈ entries.map Prod.fst :=
  (perm_sortedTexts entries).mem_iff.trans mem_distinct

theorem nodup_sortedTexts (entries : List TextEntry) : (sortedTexts entries).Nodup :=
  (perm_sortedTexts entries).nodup_iff.mpr (nodup_distinct _)

theorem length_amounts (key : TextKey) (entries : List TextEntry) :
    (amounts key entries).length = (entries.map Prod.fst).count key := by
  rw [amounts, List.length_map, ← List.countP_eq_length_filter, List.count, List.countP_map]
  rfl

/-- Every amount counts for one group. -/
theorem sum_counts (entries : List TextEntry) :
    ((sortedTexts entries).map fun key => (ofText entries key).count).sum = entries.length := by
  have hperm : (sortedTexts entries).Perm (entries.map Prod.fst).dedup :=
    (List.perm_ext_iff_of_nodup (nodup_sortedTexts entries) (List.nodup_dedup _)).mpr fun key =>
      mem_sortedTexts.trans List.mem_dedup.symm
  calc ((sortedTexts entries).map fun key => (ofText entries key).count).sum
      = ((sortedTexts entries).map fun key => ((entries.map Prod.fst).count key : Int)).sum := by
        simp only [ofText, length_amounts]
    _ = ((entries.map Prod.fst).dedup.map fun key => ((entries.map Prod.fst).count key : Int)).sum :=
        (hperm.map _).sum_eq
    _ = (((entries.map Prod.fst).dedup.map fun key => (entries.map Prod.fst).count key).sum : Nat) := by
        rw [Nat.cast_list_sum, List.map_map]
        rfl
    _ = entries.length := by
        rw [List.sum_map_count_dedup_eq_length, List.length_map]

theorem amountOf_ofText {entries : List TextEntry} {key : TextKey}
    (h : key ∈ entries.map Prod.fst) :
    (ofText entries key).amountOf = (amounts key entries).foldl (· + ·) 0.0 := by
  rw [ofText_eq h]
  rfl

theorem not_isUndefined_amountOf {entries : List TextEntry} {key : TextKey}
    (hfinite : ∀ entry ∈ entries, Number.isFinite entry.2 = true)
    (h : key ∈ entries.map Prod.fst) :
    Number.isUndefined (ofText entries key).amountOf = false := by
  rw [amountOf_ofText h]
  refine Number.not_isUndefined_foldl_add (by decide +kernel) fun amount hamount => ?_
  obtain ⟨entry, hentry, rfl⟩ := List.mem_map.mp hamount
  exact hfinite entry (List.mem_of_mem_filter hentry)

/-- Where no total is undefined, no group stands before a greater one, and equal ones stand in the
order of their first amounts. -/
theorem pairwise_sortedTexts {entries : List TextEntry}
    (hdefined : ∀ key ∈ sortedTexts entries,
      Number.isUndefined (ofText entries key).amountOf = false) :
    (sortedTexts entries).Pairwise fun left right =>
      ¬(ofText entries left).amountOf < (ofText entries right).amountOf ∧
        (((ofText entries left).amountOf == (ofText entries right).amountOf) = true →
          (entries.map Prod.fst).idxOf left < (entries.map Prod.fst).idxOf right) := by
  have hflows : ∀ flow ∈ (distinct (entries.map Prod.fst)).map (ofText entries),
      Number.isUndefined flow.amountOf = false := by
    intro flow hflow
    obtain ⟨key, hkey, rfl⟩ := List.mem_map.mp hflow
    exact hdefined key ((perm_sortedTexts entries).mem_iff.mpr hkey)
  refine List.pairwise_iff_forall_sublist.mpr fun {left right} hpair => ⟨?_, fun hsame => ?_⟩
  · have hsorted := hpair.map (ofText entries)
    rw [map_sortedTexts] at hsorted
    exact List.pairwise_iff_forall_sublist.mp (pairwise_sort hflows) hsorted
  · have hleft : left ∈ distinct (entries.map Prod.fst) :=
      (perm_sortedTexts entries).mem_iff.mp (hpair.subset List.mem_cons_self)
    have hright : right ∈ distinct (entries.map Prod.fst) :=
      (perm_sortedTexts entries).mem_iff.mp (hpair.subset (by simp))
    have hne : left ≠ right := by
      have hnodup := hpair.nodup (nodup_sortedTexts entries)
      simpa using hnodup
    rcases pair_sublist hleft hright hne with hfirst | hsecond
    · exact List.pairwise_iff_forall_sublist.mp (pairwise_idxOf_distinct _) hfirst
    · -- The sorting would have kept them the other way round.
      have hkept := sublist_sort hflows (Number.float_beq_iff.mp hsame).1
        (hsecond.map (ofText entries))
      exact absurd (hkept.map textKey) (not_pair_sublist (nodup_sortedTexts entries) hpair)

/-- Amounts under texts come to one group for each text, with the sum of its own amounts from the left
and their number, however they stand between those of others. Where no total is undefined, as none of
finite amounts is, the greatest groups stand first, and equal ones in the order of their first
amounts. -/
theorem group_by_text (entries : List TextEntry) :
    ∃ keys : List TextKey, group (entries.map TextEntry.entry) = .ok (keys.map (ofText entries)) ∧
      keys.Nodup ∧ (∀ key, key ∈ keys ↔ key ∈ entries.map Prod.fst) ∧
      (keys.map fun key => (ofText entries key).count).sum = entries.length ∧
      (∀ others : List TextEntry, (∀ key, amounts key others = amounts key entries) →
        ∃ keys' : List TextKey, group (others.map TextEntry.entry) = .ok (keys'.map (ofText entries)) ∧
          keys'.Perm keys) ∧
      ((∀ key ∈ keys, Number.isUndefined (ofText entries key).amountOf = false) →
        keys.Pairwise fun left right =>
          ¬(ofText entries left).amountOf < (ofText entries right).amountOf ∧
            (((ofText entries left).amountOf == (ofText entries right).amountOf) = true →
              (entries.map Prod.fst).idxOf left < (entries.map Prod.fst).idxOf right)) ∧
      ((∀ entry ∈ entries, Number.isFinite entry.2 = true) →
        ∀ key ∈ keys, Number.isUndefined (ofText entries key).amountOf = false) := by
  refine ⟨sortedTexts entries, group_eq_ok entries, nodup_sortedTexts entries,
    fun key => mem_sortedTexts, sum_counts entries, fun others hsame => ?_, pairwise_sortedTexts,
    fun hfinite key hkey => not_isUndefined_amountOf hfinite (mem_sortedTexts.mp hkey)⟩
  have hgroups : ofText others = ofText entries := by
    funext key
    rw [ofText, ofText, hsame key]
  refine ⟨sortedTexts others, hgroups ▸ group_eq_ok others, ?_⟩
  refine (List.perm_ext_iff_of_nodup (nodup_sortedTexts others) (nodup_sortedTexts entries)).mpr
    fun key => ?_
  rw [mem_sortedTexts, mem_sortedTexts, ← amounts_ne_nil, ← amounts_ne_nil, hsame key]

/-- Infinities of both signs under one key come to a total that is no number, and beside it a group
stands before a greater one, and before an equal one that came first. -/
theorem opposite_infinities_unsorted :
    let text (account : String) : TextKey := ⟨account, "mint", "transfer"⟩
    let entries : List TextEntry :=
      [(text "a", 1), (text "b", 1), (text "c", Number.infinity), (text "c", -Number.infinity),
        (text "d", 1), (text "e", 1), (text "f", 1), (text "g", 2)]
    (∀ entry ∈ entries, Number.isUndefined entry.2 = false) ∧
      group (entries.map TextEntry.entry) =
        .ok (["b", "c", "g", "a", "d", "e", "f"].map fun account => ofText entries (text account)) ∧
      (ofText entries (text "b")).amountOf < (ofText entries (text "g")).amountOf ∧
      ((ofText entries (text "b")).amountOf == (ofText entries (text "a")).amountOf) = true ∧
      (entries.map Prod.fst).idxOf (text "a") < (entries.map Prod.fst).idxOf (text "b") := by
  intro text entries
  have hsorted : sortedTexts entries = ["b", "c", "g", "a", "d", "e", "f"].map text := by
    decide +kernel
  refine ⟨by decide +kernel, ?_, by decide +kernel, by decide +kernel, by decide +kernel⟩
  rw [group_eq_ok, hsorted, List.map_map]
  rfl

end TokenFlow

end ProgramAudit.Traffic
