import Mathlib.Algebra.Ring.Int.Defs
import Mathlib.Data.List.Induction
import Mathlib.Data.List.Nodup
import Mathlib.Data.List.Perm.Subperm
import ProgramAudit.Table

namespace ProgramAudit

namespace Table

variable {κ ν : Type} [BEq κ] [LawfulBEq κ] {table : Table κ ν} {key : κ} {value : ν}

theorem mem_of_get? (h : get? key table = some value) : (key, value) ∈ table := by
  induction table with
  | nil => cases h
  | cons entry rest ih =>
      obtain ⟨held, stored⟩ := entry
      unfold get? at h
      split at h
      · rename_i hheld
        cases h
        rw [eq_of_beq hheld]
        exact List.mem_cons_self
      · exact List.mem_cons_of_mem _ (ih h)

theorem mem_of_mem_put {entry : κ × ν} (h : entry ∈ put key value table) :
    entry = (key, value) ∨ entry ∈ table := by
  induction table with
  | nil => exact .inl (List.mem_singleton.mp h)
  | cons first rest ih =>
      obtain ⟨held, stored⟩ := first
      unfold put adjust at h
      split at h
      · rename_i hheld
        rw [eq_of_beq hheld] at h
        exact (List.mem_cons.mp h).imp_right (List.mem_cons_of_mem _)
      · rcases List.mem_cons.mp h with rfl | hrest
        · exact .inr List.mem_cons_self
        · exact (ih hrest).imp_right (List.mem_cons_of_mem _)

theorem not_mem_keys_of_get? (h : get? key table = none) : key ∉ keys table := by
  induction table with
  | nil => exact List.not_mem_nil
  | cons first rest ih =>
      obtain ⟨held, stored⟩ := first
      unfold get? at h
      split_ifs at h with hheld
      intro hmem
      rcases List.mem_cons.mp hmem with rfl | hrest
      · exact hheld (beq_self_eq_true key)
      · exact ih h hrest

theorem get?_eq_none_iff : get? key table = none ↔ key ∉ keys table := by
  refine ⟨not_mem_keys_of_get?, fun h => ?_⟩
  cases hfound : get? key table with
  | none => rfl
  | some value => exact absurd (List.mem_map_of_mem (mem_of_get? hfound)) h

theorem get?_filter_self (key : κ) (table : Table κ ν) :
    get? key (table.filter fun entry => !(entry.1 == key)) = none := by
  induction table with
  | nil => rfl
  | cons first rest ih =>
      by_cases heq : first.1 = key
      · simpa [heq] using ih
      · simp [heq, get?, ih]

theorem get?_filter_of_ne {other : κ} (h : other ≠ key) (table : Table κ ν) :
    get? other (table.filter fun entry => !(entry.1 == key)) = get? other table := by
  induction table with
  | nil => rfl
  | cons first rest ih =>
      by_cases heq : first.1 = key
      · simp [heq, get?, ih, h.symm]
      · simp [heq, get?, ih]

theorem get?_adjust_self (key : κ) (change : Option ν → ν) (table : Table κ ν) :
    get? key (adjust key change table) = some (change (get? key table)) := by
  induction table with
  | nil => simp [adjust, get?]
  | cons first rest ih =>
      by_cases heq : first.1 = key
      · simp [adjust, get?, heq]
      · simpa [adjust, get?, heq] using ih

theorem get?_adjust_of_ne {other : κ} (h : other ≠ key) (change : Option ν → ν)
    (table : Table κ ν) : get? other (adjust key change table) = get? other table := by
  induction table with
  | nil => simp [adjust, get?, h.symm]
  | cons first rest ih =>
      by_cases heq : first.1 = key
      · simp [adjust, get?, heq, h.symm]
      · simp [adjust, get?, heq, ih]

theorem get?_put_self (key : κ) (value : ν) (table : Table κ ν) :
    get? key (put key value table) = some value := get?_adjust_self key _ table

theorem get?_put_of_ne {other : κ} (h : other ≠ key) (value : ν) (table : Table κ ν) :
    get? other (put key value table) = get? other table := get?_adjust_of_ne h _ table

/-- A table that holds for each of its keys what a function gives. -/
theorem get?_map_pair {value : κ → ν} {items : List κ} :
    get? key (items.map fun item => (item, value item)) =
      if key ∈ items then some (value key) else none := by
  induction items with
  | nil => rfl
  | cons item items ih =>
      by_cases heq : item = key
      · subst heq
        simp [get?]
      · have hne : key ≠ item := fun h => heq h.symm
        simp [get?, heq, hne, ih]

theorem keys_adjust (key : κ) (change : Option ν → ν) (table : Table κ ν) :
    keys (adjust key change table) =
      if key ∈ keys table then keys table else keys table ++ [key] := by
  induction table with
  | nil => rfl
  | cons first rest ih =>
      obtain ⟨held, stored⟩ := first
      unfold adjust
      split
      · rename_i hheld
        simp [keys, eq_of_beq hheld]
      · rename_i hother
        have hne : key ≠ held := fun heq => hother (beq_iff_eq.mpr heq.symm)
        simp only [keys, List.map_cons, List.mem_cons, hne, false_or] at ih ⊢
        rw [ih]
        by_cases hmem : key ∈ List.map Prod.fst rest <;> simp [hmem]

theorem length_adjust_le (key : κ) (change : Option ν → ν) (table : Table κ ν) :
    (adjust key change table).length ≤ table.length + 1 := by
  have hlength := congrArg List.length (keys_adjust key change table)
  split_ifs at hlength <;> simp only [keys, List.length_map, List.length_append,
    List.length_singleton] at hlength <;> omega

theorem mem_keys_put {other : κ} (h : other ∈ keys (put key value table)) :
    other = key ∨ other ∈ keys table := by
  obtain ⟨entry, hentry, rfl⟩ := List.mem_map.mp h
  rcases mem_of_mem_put hentry with rfl | hold
  · exact .inl rfl
  · exact .inr (List.mem_map_of_mem hold)

theorem nodup_keys_adjust {change : Option ν → ν} (h : (keys table).Nodup) :
    (keys (adjust key change table)).Nodup := by
  rw [keys_adjust]
  split
  · exact h
  · rename_i hnew
    simpa using h.concat hnew

theorem nodup_keys_foldl_adjust {α : Type} {key : α → κ} {change : α → Option ν → ν}
    {items : List α} (h : (keys table).Nodup) :
    (keys (items.foldl (fun table item => adjust (key item) (change item) table) table)).Nodup := by
  induction items generalizing table with
  | nil => exact h
  | cons item items ih => exact ih (nodup_keys_adjust h)

/-- The items of one key, and no others, make its entry. By induction over the items. -/
theorem get?_foldl_adjust {α : Type} (keyOf : α → κ) (change : α → Option ν → ν) (items : List α)
    (table : Table κ ν) :
    get? key (items.foldl (fun table item => adjust (keyOf item) (change item) table) table) =
      (items.filter (keyOf · == key)).foldl (fun found item => some (change item found))
        (get? key table) := by
  induction items generalizing table with
  | nil => rfl
  | cons item items ih =>
      rw [List.foldl_cons, ih]
      by_cases heq : keyOf item = key
      · subst heq
        simp [get?_adjust_self]
      · simp [get?_adjust_of_ne (Ne.symm heq), heq]

theorem keys_foldl_adjust {α : Type} (keyOf : α → κ) (change : α → Option ν → ν) (items : List α)
    (table : Table κ ν) :
    keys (items.foldl (fun table item => adjust (keyOf item) (change item) table) table) =
      (items.map keyOf).foldl
        (fun found item => if found.contains item then found else found ++ [item])
        (keys table) := by
  induction items generalizing table with
  | nil => rfl
  | cons item items ih =>
      rw [List.foldl_cons, ih, keys_adjust, List.map_cons, List.foldl_cons]
      simp only [List.contains_iff_mem]

/-- A table is what it holds for each of its keys. -/
theorem eq_map_keys {value : κ → ν} (hnodup : (keys table).Nodup)
    (h : ∀ key ∈ keys table, get? key table = some (value key)) :
    table = (keys table).map fun key => (key, value key) := by
  induction table with
  | nil => rfl
  | cons first rest ih =>
      obtain ⟨held, stored⟩ := first
      obtain ⟨hnew, hnodup⟩ := List.nodup_cons.mp hnodup
      have hheld : some stored = some (value held) := by
        simpa [get?] using h held List.mem_cons_self
      have hrest : ∀ key ∈ keys rest, get? key rest = some (value key) := by
        intro key hkey
        have hne : held ≠ key := fun heq => hnew (heq ▸ hkey)
        simpa [get?, hne] using h key (List.mem_cons_of_mem held hkey)
      rw [keys, List.map_cons, List.map_cons, Option.some.inj hheld]
      exact congrArg _ (ih hnodup hrest)

omit [LawfulBEq κ] in
theorem mem_keys_adjust {other : κ} {change : Option ν → ν} (h : other ∈ keys (adjust key change table)) :
    other = key ∨ other ∈ keys table := by
  induction table with
  | nil => exact .inl (List.mem_singleton.mp h)
  | cons first rest ih =>
      obtain ⟨held, stored⟩ := first
      unfold adjust at h
      split_ifs at h with hheld
      · exact .inr h
      · rcases List.mem_cons.mp h with rfl | hrest
        · exact .inr List.mem_cons_self
        · exact (ih hrest).imp_right (List.mem_cons_of_mem _)

omit [LawfulBEq κ] in
theorem mem_keys_foldl_adjust {α : Type} (keyOf : α → κ) (change : α → Option ν → ν)
    {items : List α}
    (h : key ∈ keys (items.foldl (fun table item => adjust (keyOf item) (change item) table) table)) :
    key ∈ keys table ∨ key ∈ items.map keyOf := by
  induction items generalizing table with
  | nil => exact .inl h
  | cons item items ih =>
      rw [List.map_cons, List.mem_cons]
      rcases ih h with hkey | hkey
      · exact (mem_keys_adjust hkey).symm.imp_right .inl
      · exact .inr (.inr hkey)

section

variable {κ' : Type} [BEq κ'] {name : κ → κ'}

omit [LawfulBEq κ]

/-- Keys under other names. -/
theorem adjust_map (hname : ∀ held ∈ keys table, (name held == name key) = (held == key))
    (change : Option ν → ν) :
    adjust (name key) change (table.map (Prod.map name id)) =
      (adjust key change table).map (Prod.map name id) := by
  induction table with
  | nil => rfl
  | cons first rest ih =>
      obtain ⟨held, stored⟩ := first
      have hrest := ih fun other hother => hname other (List.mem_cons_of_mem held hother)
      simp only [List.map_cons, Prod.map_apply, id_eq, adjust, hname held List.mem_cons_self, hrest]
      split_ifs <;> rfl

/-- Names that tell apart the keys of some items, and those that are held already, make the same table.
By induction over the items. -/
theorem foldl_adjust_map {α : Type} (keyOf : α → κ) (change : α → Option ν → ν) {items : List α}
    (table : Table κ ν)
    (hname : ∀ item ∈ items, ∀ held, held ∈ keys table ∨ held ∈ items.map keyOf →
      (name held == name (keyOf item)) = (held == keyOf item)) :
    items.foldl (fun table item => adjust (name (keyOf item)) (change item) table)
        (table.map (Prod.map name id)) =
      (items.foldl (fun table item => adjust (keyOf item) (change item) table) table).map
        (Prod.map name id) := by
  induction items generalizing table with
  | nil => rfl
  | cons item items ih =>
      have hfirst : ∀ held ∈ keys table, (name held == name (keyOf item)) = (held == keyOf item) :=
        fun held hheld => hname item List.mem_cons_self held (.inl hheld)
      rw [List.foldl_cons, List.foldl_cons, adjust_map hfirst]
      refine ih _ fun other hother held hheld => hname other (List.mem_cons_of_mem item hother) held ?_
      rw [List.map_cons, List.mem_cons]
      rcases hheld with hheld | hheld
      · rcases mem_keys_adjust hheld with rfl | hheld
        · exact .inr (.inl rfl)
        · exact .inl hheld
      · exact .inr (.inr hheld)

end

end Table

/-! ### Tables that count -/

namespace Table

variable {κ : Type} [BEq κ]

/-- What the entries of a table add up to. -/
def total (counts : Table κ Int) : Int := (counts.map Prod.snd).sum

theorem total_adjust (key : κ) (more : Int) (counts : Table κ Int) :
    total (adjust key (fun count => count.getD 0 + more) counts) = total counts + more := by
  induction counts with
  | nil => simp [adjust, total]
  | cons first rest ih =>
      obtain ⟨held, count⟩ := first
      unfold adjust
      split
      · simp only [total, List.map_cons, List.sum_cons, Option.getD_some]
        omega
      · simp only [total, List.map_cons, List.sum_cons] at ih ⊢
        omega

/-- By induction over the items: each adds its own count to the entry of its key. -/
theorem total_foldl_adjust {α : Type} (key : α → κ) (more : α → Int) (items : List α)
    (counts : Table κ Int) :
    total (items.foldl (fun table item =>
      adjust (key item) (fun count => count.getD 0 + more item) table) counts) =
      total counts + (items.map more).sum := by
  induction items generalizing counts with
  | nil => simp
  | cons item items ih =>
      rw [List.foldl_cons, ih, total_adjust, List.map_cons, List.sum_cons, Int.add_assoc]

end Table

theorem mem_of_mem_upTo {α : Type} {count : Int} {items : List α} {item : α}
    (h : item ∈ upTo count items) : item ∈ items := by
  unfold upTo at h
  split_ifs at h <;> exact List.mem_of_mem_take h

variable {α : Type} [BEq α] [LawfulBEq α]

/-- Behind what is found, items that are new to it and to one another stand as they are. -/
theorem foldl_distinct_of_nodup {found items : List α} (h : (found ++ items).Nodup) :
    items.foldl (fun found item => if found.contains item then found else found ++ [item]) found =
      found ++ items := by
  induction items generalizing found with
  | nil => simp
  | cons item items ih =>
      have hnew : item ∉ found := by
        intro hmem
        exact (List.nodup_append.mp h).2.2 item hmem item List.mem_cons_self rfl
      have hnodup : (found ++ [item] ++ items).Nodup := by simpa using h
      simpa [hnew] using ih hnodup

theorem mem_foldl_distinct {found items : List α} {item : α} :
    item ∈ items.foldl
      (fun found item => if found.contains item then found else found ++ [item]) found ↔
        item ∈ found ∨ item ∈ items := by
  induction items generalizing found with
  | nil => simp
  | cons first rest ih =>
      rw [List.foldl_cons, ih, List.mem_cons]
      by_cases hmem : first ∈ found
      · have hfound : item = first → item ∈ found := fun h => h ▸ hmem
        simp only [List.contains_iff_mem, hmem, if_true]
        constructor
        · exact Or.imp_right Or.inr
        · rintro (h | h | h)
          · exact .inl h
          · exact .inl (hfound h)
          · exact .inr h
      · simp [hmem, or_assoc]

theorem mem_distinct {items : List α} {item : α} : item ∈ distinct items ↔ item ∈ items := by
  rw [distinct, mem_foldl_distinct]
  simp

theorem nodup_foldl_distinct {found items : List α} (h : found.Nodup) :
    (items.foldl (fun found item => if found.contains item then found else found ++ [item])
      found).Nodup := by
  induction items generalizing found with
  | nil => exact h
  | cons item items ih =>
      by_cases hmem : item ∈ found
      · simpa [hmem] using ih h
      · have hnodup : (found ++ [item]).Nodup := by
          simpa using h.concat hmem
        simpa [hmem] using ih hnodup

theorem nodup_distinct (items : List α) : (distinct items).Nodup :=
  nodup_foldl_distinct List.nodup_nil

theorem distinct_of_nodup {items : List α} (h : items.Nodup) : distinct items = items := by
  show _ = [] ++ items
  exact foldl_distinct_of_nodup h

theorem distinct_concat (items : List α) (item : α) :
    distinct (items ++ [item]) =
      if item ∈ items then distinct items else distinct items ++ [item] := by
  have hstep : distinct (items ++ [item]) =
      if (distinct items).contains item then distinct items else distinct items ++ [item] := by
    rw [distinct, List.foldl_append]
    rfl
  rw [hstep]
  simp only [List.contains_iff_mem, mem_distinct]

/-- Behind other items stand the ones that are new to them. By induction from the end. -/
theorem distinct_append [DecidableEq α] (items others : List α) :
    distinct (items ++ others) = distinct items ++ (distinct others).filter (· ∉ items) := by
  induction others using List.reverseRecOn with
  | nil => simp [distinct]
  | append_singleton others other ih =>
      rw [← List.append_assoc, distinct_concat, distinct_concat, ih]
      by_cases hitems : other ∈ items
      · by_cases hothers : other ∈ others <;> simp [hitems, hothers]
      · by_cases hothers : other ∈ others <;> simp [hitems, hothers]

/-- As many values as there are distinct items are those of a function of the items. -/
theorem exists_map_of_nodup {β : Type} [Inhabited β] {items : List α} {values : List β}
    (hnodup : items.Nodup) (hlength : values.length = items.length) :
    ∃ value : α → β, values = items.map value := by
  refine ⟨fun item => values[items.idxOf item]?.getD default, ?_⟩
  refine List.ext_getElem (by rw [hlength, List.length_map]) fun index hvalue hitem => ?_
  have hindex : index < items.length := hlength ▸ hvalue
  rw [List.getElem_map, hnodup.idxOf_getElem index hindex, List.getElem?_eq_getElem hvalue,
    Option.getD_some]

/-- The distinct items stand in the order of their first appearances. By induction from the end: a new
item first appears behind all that were there. -/
theorem pairwise_idxOf_distinct (items : List α) :
    (distinct items).Pairwise fun first second => items.idxOf first < items.idxOf second := by
  induction items using List.reverseRecOn with
  | nil => exact List.Pairwise.nil
  | append_singleton items item ih =>
      have hstays {other : α} (hother : other ∈ distinct items) :
          (items ++ [item]).idxOf other = items.idxOf other :=
        List.idxOf_append_of_mem (mem_distinct.mp hother)
      have hold : (distinct items).Pairwise fun first second =>
          (items ++ [item]).idxOf first < (items ++ [item]).idxOf second :=
        ih.imp_of_mem fun hfirst hsecond hlt => by
          rw [hstays hfirst, hstays hsecond]
          exact hlt
      rw [distinct_concat]
      split_ifs with hfound
      · exact hold
      · refine List.pairwise_append.mpr
          ⟨hold, List.pairwise_singleton _ _, fun first hfirst last hlast => ?_⟩
        obtain rfl : last = item := List.mem_singleton.mp hlast
        rw [hstays hfirst, List.idxOf_append_of_notMem hfound]
        exact Nat.lt_add_right _ (List.idxOf_lt_length_of_mem (mem_distinct.mp hfirst))

theorem length_le_distinct {items others : List α} (hnodup : items.Nodup) (h : items ⊆ others) :
    items.length ≤ (distinct others).length :=
  (hnodup.subperm fun _ hitem => mem_distinct.mpr (h hitem)).length_le

omit [BEq α] [LawfulBEq α] in
/-- Two items of a list stand in it one way or the other. -/
theorem pair_sublist {items : List α} {first second : α} (hfirst : first ∈ items)
    (hsecond : second ∈ items) (hne : first ≠ second) :
    [first, second].Sublist items ∨ [second, first].Sublist items := by
  obtain ⟨before, behind, rfl⟩ := List.append_of_mem hfirst
  rcases List.mem_append.mp hsecond with hbefore | hbehind
  · exact .inr ((List.singleton_sublist.mpr hbefore).append
      (List.singleton_sublist.mpr List.mem_cons_self))
  · have hrest : second ∈ behind := (List.mem_cons.mp hbehind).resolve_left hne.symm
    exact .inl (((List.singleton_sublist.mpr hrest).cons_cons first).trans
      (List.sublist_append_right before _))

theorem not_pair_sublist {items : List α} {first second : α}
    (hnodup : items.Nodup) (h : [first, second].Sublist items) : ¬[second, first].Sublist items := by
  intro h'
  have hordered := pairwise_idxOf_distinct items
  rw [distinct_of_nodup hnodup, List.pairwise_iff_forall_sublist] at hordered
  exact Nat.lt_asymm (hordered h) (hordered h')

end ProgramAudit
