import ProgramAudit.Proofs.Endpoint.Faithful

/-!
What a cache finds under a key. Looking for one key touches no other, and what is found is what was
set last, as long as no entry has to make room.
-/

namespace ProgramAudit

namespace Endpoint.Cache

variable {τ κ ν : Type} [BEq κ] {cache : Cache τ κ ν} {key other : κ} {value : ν}
  {now : τ}

/-- The entry of a key, expired or not. -/
def find? (cache : Cache τ κ ν) (key : κ) : Option (CacheEntry τ ν) := Table.get? key cache.entries

variable [Clock τ]

theorem get_disabled (h : cache.isDisabled = true) : cache.get now key = (none, cache) := if_pos h

theorem get_absent (h : cache.find? key = none) : cache.get now key = (none, cache) := by
  unfold find? at h
  unfold Cache.get
  rw [h]
  split_ifs <;> rfl

section

variable {entry : CacheEntry τ ν} (hlasting : cache.isDisabled = false)
  (hentry : cache.find? key = some entry)

include hlasting hentry

theorem get_expired (h : Clock.notAfter entry.expires now = true) :
    cache.get now key = (none, cache.remove key) := by
  unfold find? at hentry
  unfold Cache.get
  rw [hlasting, hentry]
  simp [h]

theorem get_fresh (h : Clock.notAfter entry.expires now = false) :
    cache.get now key = (some entry.value, cache) := by
  unfold find? at hentry
  unfold Cache.get
  rw [hlasting, hentry]
  simp [h]

end

/-- What is found has not expired, and stays. -/
theorem get_eq_some (h : (cache.get now key).1 = some value) :
    cache.isDisabled = false ∧ (cache.get now key).2 = cache ∧
      ∃ entry, cache.find? key = some entry ∧ entry.value = value ∧
        Clock.notAfter entry.expires now = false := by
  cases hdisabled : cache.isDisabled with
  | true =>
      rw [get_disabled hdisabled] at h
      cases h
  | false =>
      cases hentry : cache.find? key with
      | none =>
          rw [get_absent hentry] at h
          cases h
      | some entry =>
          cases hexpired : Clock.notAfter entry.expires now with
          | true =>
              rw [get_expired hdisabled hentry hexpired] at h
              cases h
          | false =>
              have hfresh := get_fresh hdisabled hentry hexpired
              rw [hfresh] at h ⊢
              exact ⟨rfl, rfl, entry, rfl, Option.some.inj h, hexpired⟩

/-- Looking for a key drops its entry, or leaves everything as it is. -/
theorem get_snd_cases (now : τ) (key : κ) (cache : Cache τ κ ν) :
    (cache.get now key).2 = cache ∨ (cache.get now key).2 = cache.remove key := by
  cases hdisabled : cache.isDisabled with
  | true => exact .inl (congrArg Prod.snd (get_disabled hdisabled))
  | false =>
      cases hentry : cache.find? key with
      | none => exact .inl (congrArg Prod.snd (get_absent hentry))
      | some entry =>
          cases hexpired : Clock.notAfter entry.expires now with
          | true => exact .inr (congrArg Prod.snd (get_expired hdisabled hentry hexpired))
          | false => exact .inl (congrArg Prod.snd (get_fresh hdisabled hentry hexpired))

@[simp]
theorem lifetime_get : (cache.get now key).2.lifetime = cache.lifetime := by
  rcases get_snd_cases now key cache with h | h <;> rw [h]
  rfl

@[simp]
theorem capacity_get : (cache.get now key).2.capacity = cache.capacity := by
  rcases get_snd_cases now key cache with h | h <;> rw [h]
  rfl

variable [LawfulBEq κ]

theorem find?_get_of_ne (h : other ≠ key) (now : τ) (cache : Cache τ κ ν) :
    (cache.get now key).2.find? other = cache.find? other := by
  rcases get_snd_cases now key cache with hsame | hremoved
  · rw [hsame]
  · rw [hremoved]
    exact Table.get?_filter_of_ne h cache.entries

/-- What is not found leaves nothing under its key. -/
theorem find?_get_none (hlasting : cache.isDisabled = false) (h : (cache.get now key).1 = none) :
    (cache.get now key).2.find? key = none := by
  cases hentry : cache.find? key with
  | none =>
      rw [get_absent hentry]
      exact hentry
  | some entry =>
      cases hexpired : Clock.notAfter entry.expires now with
      | true =>
          rw [get_expired hlasting hentry hexpired]
          exact Table.get?_filter_self key cache.entries
      | false =>
          rw [get_fresh hlasting hentry hexpired] at h
          cases h

/-- What is not found is not found later either. -/
theorem get_get_none (h : (cache.get now key).1 = none) (later : τ) :
    ((cache.get now key).2.get later key).1 = none := by
  cases hdisabled : cache.isDisabled with
  | true =>
      have hstill : (cache.get now key).2.isDisabled = true := by
        rw [isDisabled, lifetime_get]
        exact hdisabled
      rw [get_disabled hstill]
  | false => rw [get_absent (find?_get_none hdisabled h)]

/-! ### Keys -/

omit [LawfulBEq κ] in
theorem keys_get_sublist (now : τ) (key : κ) (cache : Cache τ κ ν) :
    (Table.keys (cache.get now key).2.entries).Sublist (Table.keys cache.entries) := by
  rcases get_snd_cases now key cache with h | h <;> rw [h]
  exact List.filter_sublist.map Prod.fst

/-! ### Setting a value -/

omit [LawfulBEq κ] in
theorem set_eq_of_makeRoom {made : Cache τ κ ν} (hlasting : cache.isDisabled = false)
    (hmade : cache.makeRoom = .ok made) (hranged : cache.lifetime.toReal?.isSome = true) :
    cache.set now key value = .ok { made with
      entries := Table.put key ⟨now + Clock.seconds cache.lifetime, value⟩ made.entries } := by
  have hspan : (Clock.span cache.lifetime : Result τ) = .ok (Clock.seconds cache.lifetime) :=
    if_pos hranged
  rw [Cache.set, hlasting, hmade, hspan]
  rfl

omit [LawfulBEq κ] in
/-- With room for one more nothing has to go. -/
theorem set_eq_ok (hlasting : cache.isDisabled = false)
    (hroom : (cache.entries.length : Int) < cache.capacity)
    (hranged : cache.lifetime.toReal?.isSome = true) : cache.set now key value = .ok { cache with
      entries := Table.put key ⟨now + Clock.seconds cache.lifetime, value⟩ cache.entries } :=
  set_eq_of_makeRoom hlasting (if_neg (Int.not_le.mpr hroom)) hranged

end Endpoint.Cache

end ProgramAudit
