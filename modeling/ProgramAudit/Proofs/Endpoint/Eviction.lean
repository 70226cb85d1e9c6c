import ProgramAudit.Proofs.Endpoint.Operations

/-!
Which entry makes room for another one. Entries stand in the order in which their keys came in, so a
full cache drops the key that came in first, and as long as all keys have a place nothing is dropped
before it has expired.
-/

namespace ProgramAudit.Endpoint.Cache

variable {τ κ ν : Type} [Clock τ] [BEq κ]

/-- How many operations it took until a key last came in, that is, until it was set while it had no
entry, or while its entry had just made room. -/
def insertedAt (lifetime : Number) (capacity : Int) (key : κ) : List (Operation τ κ ν) → Nat
  | [] => 0
  | .set _ written _ :: earlier =>
    if written == key && !(Table.keys (after lifetime capacity earlier).roomy).contains key then
      earlier.length + 1
    else insertedAt lifetime capacity key earlier
  | _ :: earlier => insertedAt lifetime capacity key earlier

/-- Of all keys that have an entry this one came in first. -/
def CameFirst (lifetime : Number) (capacity : Int) (operations : List (Operation τ κ ν)) (key : κ) :
    Prop :=
  ∀ other ∈ Table.keys (after lifetime capacity operations).entries, other ≠ key →
    insertedAt lifetime capacity key operations < insertedAt lifetime capacity other operations

/-- The keys that were set since everything was cleared. -/
def written : List (Operation τ κ ν) → List κ
  | [] => []
  | .get _ _ :: earlier => written earlier
  | .set _ key _ :: earlier => key :: written earlier
  | .clear :: _ => []

/-- Since everything was cleared, a key was set that already had an entry in a full cache. -/
def OverwritesFull (lifetime : Number) (capacity : Int) : List (Operation τ κ ν) → Prop
  | [] => False
  | .get _ _ :: earlier => OverwritesFull lifetime capacity earlier
  | .set _ key _ :: earlier =>
    (key ∈ Table.keys (after lifetime capacity earlier).entries ∧
      (after lifetime capacity earlier).size = capacity) ∨ OverwritesFull lifetime capacity earlier
  | .clear :: _ => False

/-! ### The order of the entries -/

variable [LawfulBEq κ] {lifetime : Number} {capacity : Int} {operations : List (Operation τ κ ν)}
  {key other : κ} {value : ν} {now time : τ}

omit [LawfulBEq κ] in
theorem insertedAt_le (key : κ) (operations : List (Operation τ κ ν)) :
    insertedAt lifetime capacity key operations ≤ operations.length := by
  induction operations with
  | nil => exact Nat.le_refl 0
  | cons operation earlier ih =>
      cases operation with
      | set now written value =>
          rw [insertedAt]
          split_ifs
          · exact Nat.le_refl _
          · exact Nat.le_succ_of_le ih
      | get now asked => exact Nat.le_succ_of_le ih
      | clear => exact Nat.le_succ_of_le ih

theorem insertedAt_set_of_ne (h : other ≠ key) :
    insertedAt lifetime capacity other (.set now key value :: operations) =
      insertedAt lifetime capacity other operations := by
  rw [insertedAt, beq_false_of_ne h.symm]
  rfl

theorem insertedAt_set_of_mem (h : key ∈ Table.keys (after lifetime capacity operations).roomy) :
    insertedAt lifetime capacity other (.set now key value :: operations) =
      insertedAt lifetime capacity other operations := by
  by_cases heq : other = key
  · subst heq
    rw [insertedAt, List.contains_iff_mem.mpr h, beq_self_eq_true]
    rfl
  · exact insertedAt_set_of_ne heq

theorem insertedAt_set_of_not_mem
    (h : key ∉ Table.keys (after lifetime capacity operations).roomy) :
    insertedAt lifetime capacity key (.set now key value :: operations) =
      operations.length + 1 := by
  rw [insertedAt, Bool.eq_false_iff.mpr (mt List.contains_iff_mem.mp h), beq_self_eq_true]
  rfl

/-- By induction over the operations: a key that is set keeps its place, or comes in behind all
others. -/
theorem pairwise_insertedAt (husable : Usable lifetime capacity)
    (hranged : lifetime.toReal?.isSome = true) (operations : List (Operation τ κ ν)) :
    (Table.keys (after lifetime capacity operations).entries).Pairwise fun first second =>
      insertedAt lifetime capacity first operations <
        insertedAt lifetime capacity second operations := by
  induction operations with
  | nil => exact List.Pairwise.nil
  | cons operation earlier ih =>
      cases operation with
      | get now key => exact ih.sublist (keys_get_sublist now key _)
      | clear => exact List.Pairwise.nil
      | set now key value =>
          have hafter := reflects_after husable earlier
          have hroomy := ih.sublist ((roomy_sublist (after lifetime capacity earlier)).map Prod.fst)
          rw [after, Operation.apply, hafter.set_eq husable hranged]
          change (Table.keys (Table.adjust key _ (after lifetime capacity earlier).roomy)).Pairwise _
          rw [Table.keys_adjust]
          -- No key that stays counts as new, and one that is new gets a greater number than all.
          split_ifs with hheld
          · exact hroomy.imp fun hlt => by
              rw [insertedAt_set_of_mem hheld, insertedAt_set_of_mem hheld]
              exact hlt
          · have hother {other : κ}
                (hother : other ∈ Table.keys (after lifetime capacity earlier).roomy) :
                insertedAt lifetime capacity other (.set now key value :: earlier) =
                  insertedAt lifetime capacity other earlier :=
              insertedAt_set_of_ne fun heq => hheld (heq ▸ hother)
            refine List.pairwise_append.mpr
              ⟨hroomy.imp_of_mem fun hfirst hsecond hlt => ?_, List.pairwise_singleton _ _, ?_⟩
            · rw [hother hfirst, hother hsecond]
              exact hlt
            · intro first hfirst last hlast
              obtain rfl : last = key := List.mem_singleton.mp hlast
              rw [hother hfirst, insertedAt_set_of_not_mem hheld]
              exact Nat.lt_succ_of_le (insertedAt_le first earlier)

/-- A key that came in first loses its entry to a new one in a full cache, and no other key does. -/
theorem find?_put_eq_none_iff (husable : Usable lifetime capacity)
    (hranged : lifetime.toReal?.isSome = true) (hne : other ≠ key)
    (hother : other ∈ Table.keys (after lifetime capacity operations).entries)
    (entry : CacheEntry τ ν) :
    Table.get? other (Table.put key entry (after lifetime capacity operations).roomy) = none ↔
      (after lifetime capacity operations).size = capacity ∧
        CameFirst lifetime capacity operations other := by
  have hafter := reflects_after husable operations
  have hordered := pairwise_insertedAt husable hranged operations
  have hnodup := hafter.nodup
  have hsize := hafter.size_le
  rw [Table.get?_put_of_ne hne, roomy, hafter.capacity_eq]
  unfold size CameFirst at *
  -- In a full cache the first entry goes, and its key has the least number; else nothing goes.
  split_ifs with hfull
  · generalize (after lifetime capacity operations).entries = entries at *
    cases entries with
    | nil => cases hother
    | cons first rest =>
      obtain ⟨hfirst, -⟩ := List.nodup_cons.mp hnodup
      obtain ⟨hbefore, -⟩ := List.pairwise_cons.mp hordered
      rw [List.tail_cons, Table.get?_eq_none_iff]
      constructor
      · intro hgone
        obtain rfl : other = first.1 := (List.mem_cons.mp hother).resolve_right hgone
        refine ⟨Int.le_antisymm hsize hfull, fun third hthird hthirdne => ?_⟩
        exact hbefore third ((List.mem_cons.mp hthird).resolve_left hthirdne)
      · rintro ⟨-, hleast⟩ hmem
        have hless := hleast first.1 List.mem_cons_self (fun heq => hfirst (heq ▸ hmem))
        exact Nat.lt_asymm hless (hbefore other hmem)
  · constructor
    · intro hgone
      exact absurd hother (Table.get?_eq_none_iff.mp hgone)
    · rintro ⟨hsame, -⟩
      exact absurd hsame.ge hfull

/-! ### Caches in which all keys have a place -/

omit [Clock τ] in
theorem mem_written_of_latest? (h : latest? key operations = some (time, value)) :
    key ∈ written operations := by
  induction operations with
  | nil => cases h
  | cons operation earlier ih =>
      cases operation with
      | get now asked => exact ih h
      | set now held replaced =>
          rw [latest?] at h
          split_ifs at h with heq
          · rw [eq_of_beq heq]
            exact List.mem_cons_self
          · exact List.mem_cons_of_mem held (ih h)
      | clear => cases h

theorem keys_subset_written (husable : Usable lifetime capacity)
    (operations : List (Operation τ κ ν)) :
    Table.keys (after lifetime capacity operations).entries ⊆ written operations := by
  intro key hkey
  obtain ⟨entry, hentry⟩ :=
    Option.ne_none_iff_exists'.mp fun hnone => Table.get?_eq_none_iff.mp hnone hkey
  obtain ⟨time, value, hlatest, -⟩ := (reflects_after husable operations).latest key entry hentry
  exact mem_written_of_latest? hlatest

/-- What is set next finds room if all keys have a place. -/
theorem size_lt_of_few (husable : Usable lifetime capacity)
    (hfew : (distinct (written (.set now key value :: operations))).length ≤ capacity)
    (hnever : ¬OverwritesFull lifetime capacity (.set now key value :: operations)) :
    ((after lifetime capacity operations).size : Int) < capacity := by
  have hafter := reflects_after husable operations
  refine lt_of_le_of_ne hafter.size_le fun hfull => hnever (.inl ⟨?_, hfull⟩)
  by_contra hnew
  have hlength := length_le_distinct (List.nodup_cons.mpr ⟨hnew, hafter.nodup⟩)
    (List.cons_subset_cons key (keys_subset_written husable operations))
  rw [List.length_cons, Table.keys, List.length_map] at hlength
  unfold size at hfull
  change (distinct (key :: written operations)).length ≤ capacity at hfew
  omega

/-- An entry is dropped by the look that finds it expired, and by no other. -/
theorem find?_get_or_expired {cache : Cache τ κ ν} {entry : CacheEntry τ ν}
    (hentry : cache.find? key = some entry) (now : τ) (asked : κ) :
    (cache.get now asked).2.find? key = some entry ∨ Clock.notAfter entry.expires now = true := by
  by_cases heq : key = asked
  · subst heq
    cases hdisabled : cache.isDisabled with
    | true =>
        rw [get_disabled hdisabled]
        exact .inl hentry
    | false =>
        cases hexpired : Clock.notAfter entry.expires now with
        | true => exact .inr rfl
        | false =>
            rw [get_fresh hdisabled hentry hexpired]
            exact .inl hentry
  · exact .inl ((find?_get_of_ne heq now cache).trans hentry)

/-- By induction over the operations: what was set last is still there, or it was seen to have
expired. -/
theorem find?_or_expired (husable : Usable lifetime capacity)
    (hranged : lifetime.toReal?.isSome = true)
    (hfew : (distinct (written operations)).length ≤ capacity)
    (hnever : ¬OverwritesFull lifetime capacity operations)
    (hlatest : latest? key operations = some (time, value)) :
    (after lifetime capacity operations).find? key = some ⟨time + Clock.seconds lifetime, value⟩ ∨
      ∃ reading ∈ readings operations,
        Clock.notAfter (time + Clock.seconds lifetime) reading = true := by
  induction operations with
  | nil => cases hlatest
  | cons operation earlier ih =>
      have hafter := reflects_after husable earlier
      cases operation with
      | get now asked =>
          -- If the look drops the entry, its moment is one that shows it expired.
          rcases ih hfew hnever hlatest with hheld | ⟨reading, hreading, hexpired⟩
          · refine (find?_get_or_expired hheld now asked).imp_right fun hexpired => ?_
            exact ⟨now, List.mem_cons_self, hexpired⟩
          · exact .inr ⟨reading, List.mem_cons_of_mem now hreading, hexpired⟩
      | set now held replaced =>
          have hroom := size_lt_of_few husable hfew hnever
          rw [after, Operation.apply, hafter.set_eq husable hranged, hafter.lifetime_eq,
            roomy_of_lt (hroom.trans_eq hafter.capacity_eq.symm)]
          change Table.get? key (Table.put held _ _) = _ ∨ _
          rw [latest?] at hlatest
          split_ifs at hlatest with heq
          · obtain rfl : held = key := eq_of_beq heq
            cases hlatest
            exact .inl (Table.get?_put_self held _ _)
          · have hne : key ≠ held := fun h => heq (beq_iff_eq.mpr h.symm)
            rw [Table.get?_put_of_ne hne]
            have hfewer : (distinct (written earlier)).length ≤ capacity :=
              (Int.ofNat_le.mpr (length_le_distinct (nodup_distinct _) fun item hitem =>
                List.mem_cons_of_mem held (mem_distinct.mp hitem))).trans hfew
            refine (ih hfewer (fun h => hnever (.inr h)) hlatest).imp_right ?_
            rintro ⟨reading, hreading, hexpired⟩
            exact ⟨reading, List.mem_cons_of_mem now hreading, hexpired⟩
      | clear => cases hlatest

/-- Setting a key that has no entry takes the entry of another one only in a full cache, and then of
the one that came in first; below that number nothing is taken at all. As long as there are places
for all keys, and none is set in a full cache while it has an entry, nothing is missed before it has
expired. -/
theorem set_drops_first [OrderedClock τ] (husable : Usable lifetime capacity)
    (hranged : lifetime.toReal?.isSome = true) (operations : List (Operation τ κ ν)) :
    let cache := after lifetime capacity operations
    (∀ now key value, ∃ next, cache.set now key value = .ok next ∧
      (cache.find? key = none → ∀ other ∈ Table.keys cache.entries,
        next.find? other = none ↔
          cache.size = capacity ∧ CameFirst lifetime capacity operations other) ∧
      ((cache.size : Int) < capacity → ∀ other, other ≠ key →
        next.find? other = cache.find? other)) ∧
      ∀ now key time value, InTime (.get now key :: operations) →
        (distinct (written operations)).length ≤ capacity →
          ¬OverwritesFull lifetime capacity operations →
            latest? key operations = some (time, value) →
              Clock.notAfter (time + Clock.seconds lifetime) now = false →
                (cache.get now key).1 = some value := by
  intro cache
  have hafter : Reflects lifetime capacity operations cache := reflects_after husable operations
  constructor
  · intro now key value
    refine ⟨_, hafter.set_eq husable hranged now key value, ?_, ?_⟩
    · intro hnew other hother
      have hne : other ≠ key := by
        rintro rfl
        exact Table.get?_eq_none_iff.mp hnew hother
      exact find?_put_eq_none_iff husable hranged hne hother _
    · intro hroom other hne
      change Table.get? other (Table.put key _ cache.roomy) = cache.find? other
      rw [Table.get?_put_of_ne hne, roomy_of_lt (hroom.trans_eq hafter.capacity_eq.symm)]
      rfl
  · intro now key time value hintime hfew hnever hlatest hfresh
    have hdisabled : cache.isDisabled = false := by
      rw [isDisabled, hafter.lifetime_eq]
      exact husable.enabled
    rcases find?_or_expired husable hranged hfew hnever hlatest with
      hentry | ⟨reading, hreading, hexpired⟩
    · rw [get_fresh hdisabled hentry hfresh]
    · cases hfresh.symm.trans (OrderedClock.trans hexpired (hintime.notAfter_of_mem hreading))

/-- Of two keys in a full cache the first makes room for a third, and before that neither is missed. -/
theorem set_drops_first_of_two :
    let operations : List (Operation Float String Int) := [.set 1 "b" 2, .set 0 "a" 1]
    (∃ next, (after 10 2 operations).set 2 "c" 3 = .ok next ∧ next.find? "a" = none ∧
      next.find? "b" ≠ none) ∧ ((after 10 2 operations).get 3 "a").1 = some 1 := by
  intro operations
  have husable : Usable 10 2 := ⟨by decide, by decide⟩
  have hdrops := set_drops_first husable (by decide +kernel) operations
  obtain ⟨next, hset, hdropped, -⟩ := hdrops.1 2 "c" 3
  have hnew : (after 10 2 operations).find? "c" = none := by decide +kernel
  have hfirst : CameFirst 10 2 operations "a" := by
    unfold CameFirst
    decide +kernel
  have hsecond : ¬CameFirst 10 2 operations "b" := by
    unfold CameFirst
    decide +kernel
  refine ⟨⟨next, hset, (hdropped hnew "a" (by decide +kernel)).mpr ⟨by decide +kernel, hfirst⟩,
    fun hnone => hsecond ((hdropped hnew "b" (by decide +kernel)).mp hnone).2⟩, ?_⟩
  have hintime : InTime (.get 3 "a" :: operations) := by
    unfold InTime
    decide +kernel
  have hnever : ¬OverwritesFull 10 2 operations := by
    unfold OverwritesFull OverwritesFull OverwritesFull
    decide +kernel
  exact hdrops.2 3 "a" 0 1 hintime (by decide +kernel) hnever (by decide +kernel) (by decide +kernel)

/-- A key that has an entry in a full cache takes that of another key when it is set again, although
both have a place, and the other one is missed while it has not expired. And what came in first makes
room even if it was set again after a key that stays. -/
theorem set_again_drops_other :
    (let operations : List (Operation Float String Int) := [.set 1 "b" 2, .set 0 "a" 1]
      let again := .set 2 "b" 3 :: operations
      "b" ∈ Table.keys (after 10 2 operations).entries ∧
        (after 10 2 operations).find? "a" ≠ none ∧ (after 10 2 again).find? "a" = none ∧
          InTime (.get 3 "a" :: again) ∧ (distinct (written again)).length ≤ 2 ∧
            latest? "a" again = some (0, 1) ∧ Clock.notAfter ((0 : Float) + 10) 3 = false ∧
              ((after 10 2 again).get 3 "a").1 = none) ∧
      let operations : List (Operation Float String Int) :=
        [.set 3 "c" 4, .set 2 "a" 3, .set 1 "b" 2, .set 0 "a" 1]
      (after 10 3 operations).find? "d" = none ∧
        latest? "a" operations = some (2, 3) ∧ latest? "b" operations = some (1, 2) ∧
          (after 10 3 (.set 4 "d" 5 :: operations)).find? "a" = none ∧
            (after 10 3 (.set 4 "d" 5 :: operations)).find? "b" ≠ none := by
  unfold InTime
  decide +kernel

end ProgramAudit.Endpoint.Cache
