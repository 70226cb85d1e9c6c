import ProgramAudit.Proofs.Endpoint.Kept
import ProgramAudit.Proofs.Routine.Clocks

/-!
Caches after any sequence of operations. An entry is always that of the last time its key was set, so
what is found was set last and has not expired, and there are never more entries than places.
-/

namespace ProgramAudit.Endpoint.Cache

/-- What is done with a cache, and what the clock shows then. To clear it nobody looks at the clock. -/
inductive Operation (τ κ ν : Type) where
  | get (now : τ) (key : κ)
  | set (now : τ) (key : κ) (value : ν)
  | clear

variable {τ κ ν : Type}

def Operation.reading? : Operation τ κ ν → Option τ
  | .get now _ => some now
  | .set now _ _ => some now
  | .clear => none

/-- The clock at some operations, the last one first. -/
def readings (operations : List (Operation τ κ ν)) : List τ :=
  operations.filterMap Operation.reading?

/-- A lifetime of some length, and a place for at least one entry. -/
structure Usable (lifetime : Number) (capacity : Int) : Prop where
  positive : Number.less 0 lifetime = true
  places : 1 ≤ capacity

section

variable [Clock τ]

/-- The clock is not turned back between the operations. -/
def InTime (operations : List (Operation τ κ ν)) : Prop :=
  (readings operations).Pairwise fun later earlier => Clock.notAfter earlier later = true

variable [BEq κ]

/-- The last time that a key was set since everything was cleared, and the value. -/
def latest? (key : κ) : List (Operation τ κ ν) → Option (τ × ν)
  | [] => none
  | .get _ _ :: earlier => latest? key earlier
  | .set now written value :: earlier =>
    if written == key then some (now, value) else latest? key earlier
  | .clear :: _ => none

/-- What an operation makes of a cache. A value that cannot be kept leaves it as it is. -/
def Operation.apply (cache : Cache τ κ ν) : Operation τ κ ν → Cache τ κ ν
  | .get now key => (cache.get now key).2
  | .set now key value => (cache.set now key value).toOption.getD cache
  | .clear => cache.clear

/-- A new cache behind some operations, the last one first. -/
def after (lifetime : Number) (capacity : Int) : List (Operation τ κ ν) → Cache τ κ ν
  | [] => { lifetime, capacity }
  | operation :: earlier => operation.apply (after lifetime capacity earlier)

end

/-! ### Setting a value -/

theorem Usable.enabled {lifetime : Number} {capacity : Int} (h : Usable lifetime capacity) :
    lifetime.atMost 0 = false := by
  have hpositive : Number.compare? (.int 0) lifetime = some .lt := beq_iff_eq.mp h.positive
  have hgreater : Number.compare? lifetime (.int 0) = some .gt := by
    cases lifetime with
    | int value =>
        have hvalue : 0 < value := compare_lt_iff_lt.mp (Option.some.inj hpositive)
        exact congrArg some (compare_gt_iff_gt.mpr hvalue)
    | real value =>
        have hmixed : Number.compareMixed 0 value = some .lt := hpositive
        rw [Number.compare?, hmixed]
        rfl
  unfold Number.atMost
  rw [show Number.compare? lifetime 0 = some .gt from hgreater]
  rfl

/-- The entries beside which there is room for one more. -/
def roomy (cache : Cache τ κ ν) : Table κ (CacheEntry τ ν) :=
  if cache.capacity ≤ cache.entries.length then cache.entries.tail else cache.entries

theorem roomy_sublist (cache : Cache τ κ ν) : cache.roomy.Sublist cache.entries := by
  unfold roomy
  split_ifs
  · exact List.tail_sublist cache.entries
  · exact List.Sublist.refl cache.entries

theorem roomy_of_lt {cache : Cache τ κ ν} (h : (cache.size : Int) < cache.capacity) :
    cache.roomy = cache.entries := if_neg (Int.not_le.mpr h)

theorem length_roomy_lt {cache : Cache τ κ ν} (hplaces : 1 ≤ cache.capacity)
    (hsize : (cache.size : Int) ≤ cache.capacity) :
    (cache.roomy.length : Int) < cache.capacity := by
  unfold size at hsize
  unfold roomy
  split_ifs with hfull
  · rw [List.length_tail]
    omega
  · exact Int.not_le.mp hfull

theorem makeRoom_eq {cache : Cache τ κ ν} (hplaces : 1 ≤ cache.capacity) :
    cache.makeRoom = .ok { cache with entries := cache.roomy } := by
  unfold makeRoom roomy
  split_ifs with hfull
  · cases hentries : cache.entries with
    | nil =>
        rw [hentries, List.length_nil] at hfull
        omega
    | cons first rest => rfl
  · rfl

variable [Clock τ] [BEq κ] {lifetime : Number} {capacity : Int} {cache next : Cache τ κ ν}
  {operations : List (Operation τ κ ν)} {key other : κ} {value : ν} {now time : τ}
  {entry found : CacheEntry τ ν}

theorem set_eq (husable : Usable cache.lifetime cache.capacity)
    (hranged : cache.lifetime.toReal?.isSome = true) (now : τ) (key : κ) (value : ν) :
    cache.set now key value = .ok { cache with
      entries := Table.put key ⟨now + Clock.seconds cache.lifetime, value⟩ cache.roomy } :=
  set_eq_of_makeRoom husable.enabled (makeRoom_eq husable.places) hranged

theorem set_eq_error (husable : Usable cache.lifetime cache.capacity)
    (hranged : cache.lifetime.toReal?.isSome = false) (now : τ) (key : κ) (value : ν) :
    cache.set now key value = .error .integerTooLarge := by
  have hspan : (Clock.span cache.lifetime : Result τ) = .error .integerTooLarge :=
    if_neg (by rw [hranged]; exact Bool.false_ne_true)
  rw [Cache.set, isDisabled, husable.enabled, makeRoom_eq husable.places, hspan]
  rfl

section

variable [LawfulBEq κ]

theorem find?_of_find?_get (h : (cache.get now key).2.find? other = some entry) :
    cache.find? other = some entry := by
  rcases get_snd_cases now key cache with hsame | hremoved
  · rwa [hsame] at h
  · rw [hremoved] at h
    by_cases heq : other = key
    · subst heq
      cases (Table.get?_filter_self other cache.entries).symm.trans h
    · exact (Table.get?_filter_of_ne heq cache.entries).symm.trans h

omit [Clock τ] in
/-- What is left beside room for one more is what there was. -/
theorem find?_of_roomy (hnodup : (Table.keys cache.entries).Nodup)
    (h : Table.get? key cache.roomy = some entry) : cache.find? key = some entry := by
  unfold roomy at h
  split_ifs at h
  · unfold find?
    cases hentries : cache.entries with
    | nil =>
        rw [hentries] at h
        exact h
    | cons first rest =>
        rw [hentries] at h hnodup
        have hrest : key ∈ Table.keys rest := List.mem_map_of_mem (Table.mem_of_get? h)
        have hne : first.1 ≠ key := by
          rintro rfl
          exact (List.nodup_cons.mp hnodup).1 hrest
        rw [Table.get?, beq_false_of_ne hne]
        exact h
  · exact h

omit [Clock τ] in
theorem find?_of_put (hnodup : (Table.keys cache.entries).Nodup) (hne : other ≠ key)
    (h : Table.get? other (Table.put key entry cache.roomy) = some found) :
    cache.find? other = some found := by
  rw [Table.get?_put_of_ne hne] at h
  exact find?_of_roomy hnodup h

end

/-! ### Any sequence of operations -/

/-- A cache has no more entries than places, and no entry but those of the last time that their keys
were set. -/
structure Reflects (lifetime : Number) (capacity : Int) (operations : List (Operation τ κ ν))
    (cache : Cache τ κ ν) : Prop where
  lifetime_eq : cache.lifetime = lifetime
  capacity_eq : cache.capacity = capacity
  size_le : (cache.size : Int) ≤ capacity
  nodup : (Table.keys cache.entries).Nodup
  latest : ∀ key entry, cache.find? key = some entry → ∃ time value,
    latest? key operations = some (time, value) ∧ entry = ⟨time + Clock.seconds lifetime, value⟩

variable [LawfulBEq κ]

theorem Reflects.get (h : Reflects lifetime capacity operations cache) (now : τ) (key : κ) :
    Reflects lifetime capacity (.get now key :: operations) (cache.get now key).2 where
  lifetime_eq := lifetime_get.trans h.lifetime_eq
  capacity_eq := capacity_get.trans h.capacity_eq
  size_le := by
    have hlength := (keys_get_sublist now key cache).length_le
    simp only [Table.keys, List.length_map] at hlength
    exact (Int.ofNat_le.mpr hlength).trans h.size_le
  nodup := h.nodup.sublist (keys_get_sublist now key cache)
  latest other entry hentry := h.latest other entry (find?_of_find?_get hentry)

/-- A key that is set takes one place at most, and other keys get no entries that they did not have. -/
theorem Reflects.put (husable : Usable lifetime capacity)
    (h : Reflects lifetime capacity operations cache) (now : τ) (key : κ) (value : ν) :
    Reflects lifetime capacity (.set now key value :: operations) { cache with
      entries := Table.put key ⟨now + Clock.seconds cache.lifetime, value⟩ cache.roomy } where
  lifetime_eq := h.lifetime_eq
  capacity_eq := h.capacity_eq
  size_le := by
    have hroomy : (cache.roomy.length : Int) < cache.capacity :=
      length_roomy_lt (h.capacity_eq ▸ husable.places) (h.capacity_eq ▸ h.size_le)
    rw [h.capacity_eq] at hroomy
    exact (Int.ofNat_le.mpr (Table.length_adjust_le key _ cache.roomy)).trans
      (Int.add_one_le_iff.mpr hroomy)
  nodup := Table.nodup_keys_adjust (h.nodup.sublist (cache.roomy_sublist.map Prod.fst))
  latest other entry hentry := by
    -- The entry is new, or it was there before and its key is another one.
    by_cases heq : key = other
    · subst heq
      have hfound : some _ = some entry := (Table.get?_put_self key _ cache.roomy).symm.trans hentry
      refine ⟨now, value, if_pos (beq_self_eq_true key), ?_⟩
      rw [← h.lifetime_eq]
      exact (Option.some.inj hfound).symm
    · obtain ⟨time, held, hlatest, hentry⟩ :=
        h.latest other entry (find?_of_put h.nodup (Ne.symm heq) hentry)
      refine ⟨time, held, ?_, hentry⟩
      rw [latest?, if_neg (by simpa using heq)]
      exact hlatest

omit [LawfulBEq κ] in
theorem Reflects.clear (h : Reflects lifetime capacity operations cache) :
    Reflects lifetime capacity (.clear :: operations) cache.clear where
  lifetime_eq := h.lifetime_eq
  capacity_eq := h.capacity_eq
  size_le := (Int.natCast_nonneg cache.size).trans h.size_le
  nodup := List.nodup_nil
  latest _ _ hentry := nomatch hentry

omit [LawfulBEq κ] in
theorem Reflects.set_eq (husable : Usable lifetime capacity)
    (hranged : lifetime.toReal?.isSome = true) (h : Reflects lifetime capacity operations cache)
    (now : τ) (key : κ) (value : ν) : cache.set now key value = .ok { cache with
      entries := Table.put key ⟨now + Clock.seconds cache.lifetime, value⟩ cache.roomy } := by
  obtain ⟨rfl, rfl, -, -, -⟩ := h
  exact Cache.set_eq husable hranged now key value

omit [LawfulBEq κ] in
/-- A lifetime past the range of the clock lets no value in, and so nothing ever has to make room. -/
theorem after_of_unranged (husable : Usable lifetime capacity)
    (hranged : lifetime.toReal?.isSome = false) (operations : List (Operation τ κ ν)) :
    after lifetime capacity operations = { lifetime, capacity } := by
  induction operations with
  | nil => rfl
  | cons operation earlier ih =>
      rw [after, ih]
      cases operation with
      | get now key => exact congrArg Prod.snd (get_absent rfl)
      | set now key value =>
          rw [Operation.apply, set_eq_error husable hranged]
          rfl
      | clear => rfl

omit [LawfulBEq κ] in
theorem reflects_new (husable : Usable lifetime capacity) (operations : List (Operation τ κ ν)) :
    Reflects lifetime capacity operations { lifetime, capacity } where
  lifetime_eq := rfl
  capacity_eq := rfl
  size_le := Int.le_trans Int.one_nonneg husable.places
  nodup := List.nodup_nil
  latest _ _ hentry := nomatch hentry

/-- By induction over the operations. -/
theorem reflects_after (husable : Usable lifetime capacity) (operations : List (Operation τ κ ν)) :
    Reflects lifetime capacity operations (after lifetime capacity operations) := by
  cases hranged : lifetime.toReal?.isSome with
  | false =>
      rw [after_of_unranged husable hranged]
      exact reflects_new husable operations
  | true =>
      induction operations with
      | nil => exact reflects_new husable []
      | cons operation earlier ih =>
          cases operation with
          | get now key => exact ih.get now key
          | set now key value =>
              rw [after, Operation.apply, ih.set_eq husable hranged]
              exact ih.put husable now key value
          | clear => exact ih.clear

omit [LawfulBEq κ] in
/-- What is found was set last and has not expired. -/
theorem Reflects.hit (h : Reflects lifetime capacity operations cache)
    (hhit : (cache.get now key).1 = some value) :
    ∃ time, latest? key operations = some (time, value) ∧
      Clock.notAfter (time + Clock.seconds lifetime) now = false := by
  obtain ⟨-, -, entry, hentry, hvalue, hfresh⟩ := get_eq_some hhit
  obtain ⟨time, held, hlatest, rfl⟩ := h.latest key entry hentry
  obtain rfl : held = value := hvalue
  exact ⟨time, hlatest, hfresh⟩

omit [Clock τ] [LawfulBEq κ] in
theorem mem_readings_of_latest? (h : latest? key operations = some (time, value)) :
    time ∈ readings operations := by
  induction operations with
  | nil => cases h
  | cons operation earlier ih =>
      cases operation with
      | get now asked => exact List.mem_cons_of_mem now (ih h)
      | set now written held =>
          rw [latest?] at h
          split_ifs at h
          · cases h
            exact List.mem_cons_self
          · exact List.mem_cons_of_mem now (ih h)
      | clear => cases h

omit [BEq κ] [LawfulBEq κ] in
theorem InTime.notAfter_of_mem (h : InTime (.get now key :: operations))
    (hmem : time ∈ readings operations) : Clock.notAfter time now = true :=
  List.rel_of_pairwise_cons h hmem

/-- Whatever is done with a cache while the clock is not turned back, it never has more entries than
places, and what is found under a key is what was set there last since everything was cleared, less
than a lifetime ago. Looking for a key takes nothing from the others, and setting one gives the others
no entry that they did not have. -/
theorem hits_latest (husable : Usable lifetime capacity) (operations : List (Operation Float κ ν)) :
    let cache := after lifetime capacity operations
    (cache.size : Int) ≤ capacity ∧
      (∀ now key value, InTime (.get now key :: operations) →
        (cache.get now key).1 = some value → ∃ time, latest? key operations = some (time, value) ∧
          ¬time + lifetime.toReal ≤ now ∧
            (-Number.infinity < time ∨ Number.isFinite lifetime.toReal = true →
              now < time + lifetime.toReal)) ∧
      (∀ now key other, other ≠ key → (cache.get now key).2.find? other = cache.find? other) ∧
      ∀ now key value,
        (lifetime.toReal? = none ∧ cache.set now key value = .error .integerTooLarge) ∨
          ∃ next, cache.set now key value = .ok next ∧ ∀ other entry, other ≠ key →
            next.find? other = some entry → cache.find? other = some entry := by
  intro cache
  have hreflects : Reflects lifetime capacity operations cache := reflects_after husable operations
  refine ⟨hreflects.size_le, ?_, ?_, ?_⟩
  · intro now key value hintime hhit
    obtain ⟨time, hlatest, hfresh⟩ := hreflects.hit hhit
    have hfresh : ¬time + lifetime.toReal ≤ now := of_decide_eq_false hfresh
    refine ⟨time, hlatest, hfresh, fun hends => ?_⟩
    -- Both moments are numbers, so the sum is one unless infinities cancel, and the order is total.
    have hpast : time ≤ now :=
      of_decide_eq_true (hintime.notAfter_of_mem (mem_readings_of_latest? hlatest))
    obtain ⟨htime, hnow⟩ := Number.not_isUndefined_of_le hpast
    have hsum : Number.isUndefined (time + lifetime.toReal) = false := by
      refine Number.defined_add_of_positive husable.positive ?_ htime hends
      apply Bool.ne_false_iff.mp
      intro hranged
      have hnew : cache.find? key = none := by
        rw [show cache = _ from after_of_unranged husable hranged operations]
        rfl
      rw [get_absent hnew] at hhit
      cases hhit
    exact Number.float_lt_iff.mpr ⟨(Number.float_le_total hsum hnow).resolve_left hfresh, hfresh⟩
  · intro now key other hne
    exact find?_get_of_ne hne now cache
  · intro now key value
    cases hranged : lifetime.toReal?.isSome with
    | false =>
        refine .inl ⟨Option.not_isSome_iff_eq_none.mp (Bool.eq_false_iff.mp hranged), ?_⟩
        rw [show cache = _ from after_of_unranged husable hranged operations]
        exact set_eq_error husable hranged now key value
    | true =>
        refine .inr ⟨_, hreflects.set_eq husable hranged now key value, fun other entry hne h => ?_⟩
        exact find?_of_put hreflects.nodup hne h

/-- A value that replaced an earlier one, looked for less than ten seconds after that. -/
theorem hits_latest_replaced :
    let operations : List (Operation Float String Int) :=
      [.set 1.5 "k" 2, .get 0.5 "j", .set 0.25 "k" 1]
    Usable 10 2 ∧ InTime (.get 11.25 "k" :: operations) ∧
      ((after 10 2 operations).get 11.25 "k").1 = some 2 ∧
        ∃ time, latest? "k" operations = some (time, 2) ∧ (11.25 : Float) < time + 10 := by
  intro operations
  have husable : Usable 10 2 := ⟨by decide, by decide⟩
  have hintime : InTime (.get 11.25 "k" :: operations) := by
    unfold InTime
    decide +kernel
  have hhit : ((after 10 2 operations).get 11.25 "k").1 = some 2 := by decide +kernel
  obtain ⟨time, hlatest, -, hfresh⟩ := (hits_latest husable operations).2.1 11.25 "k" 2 hintime hhit
  have hfirst : latest? "k" operations = some (1.5, 2) := by decide +kernel
  obtain ⟨rfl, -⟩ := Prod.mk.inj (Option.some.inj (hlatest.symm.trans hfirst))
  refine ⟨husable, hintime, hhit, 1.5, hlatest, ?_⟩
  have hten : Number.toReal 10 = 10 := by decide +kernel
  rw [← hten]
  exact hfresh (.inr (by decide +kernel))

end ProgramAudit.Endpoint.Cache
