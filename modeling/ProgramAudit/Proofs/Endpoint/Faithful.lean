import ProgramAudit.Endpoint.Cache
import ProgramAudit.Proofs.Table

/-!
Caches that hold only values that go with their keys. Reading from such a cache gives one of these
values or none, whatever has expired, and keeping one more value that goes with its key never fails.
-/

namespace ProgramAudit.Endpoint.Cache

variable {τ κ ν : Type}

/-- Each value goes with its key, there is room for one more, and the lifetime is a length of
time. -/
structure Faithful (goes : κ → ν → Prop) (cache : Cache τ κ ν) : Prop where
  room : 0 < cache.capacity
  ranged : cache.lifetime.toReal?.isSome = true
  kept : ∀ entry ∈ cache.entries, goes entry.1 entry.2.value

variable [Clock τ] [BEq κ] {goes : κ → ν → Prop} {cache : Cache τ κ ν} {key : κ} {value : ν}
  {now : τ}

theorem Faithful.get (h : cache.Faithful goes) (now : τ) (key : κ) :
    (cache.get now key).2.Faithful goes := by
  unfold Cache.get
  split_ifs
  · exact h
  · split
    · exact h
    · split_ifs
      · exact { h with kept := fun entry hentry => h.kept entry (List.mem_filter.mp hentry).1 }
      · exact h

omit [Clock τ] [BEq κ] in
theorem makeRoom_eq_ok (hroom : 0 < cache.capacity) :
    ∃ entries, cache.makeRoom = .ok { cache with entries } ∧
      ∀ entry ∈ entries, entry ∈ cache.entries := by
  unfold makeRoom
  split_ifs with hfull
  · cases hentries : cache.entries with
    | nil =>
        rw [hentries] at hfull
        simp at hfull
        omega
    | cons first rest => exact ⟨rest, rfl, fun entry => List.mem_cons_of_mem first⟩
  · exact ⟨cache.entries, rfl, fun _ => id⟩

variable [LawfulBEq κ]

theorem Faithful.found (h : cache.Faithful goes) (hfound : (cache.get now key).1 = some value) :
    goes key value := by
  unfold Cache.get at hfound
  split_ifs at hfound
  cases hentry : Table.get? key cache.entries with
  | none => simp [hentry] at hfound
  | some entry =>
      rw [hentry] at hfound
      dsimp only at hfound
      split_ifs at hfound
      cases hfound
      exact h.kept _ (Table.mem_of_get? hentry)

/-- A value that goes with its key can be kept. -/
theorem Faithful.set (h : cache.Faithful goes) (hvalue : goes key value) (now : τ) :
    ∃ cache', cache.set now key value = .ok cache' ∧ cache'.Faithful goes := by
  unfold Cache.set
  split_ifs
  · exact ⟨cache, rfl, h⟩
  · obtain ⟨entries, hroomy, hentries⟩ := makeRoom_eq_ok h.room
    rw [hroomy, Clock.span, if_pos h.ranged]
    refine ⟨_, rfl, h.room, h.ranged, fun entry hentry => ?_⟩
    rcases Table.mem_of_mem_put hentry with rfl | hold
    · exact hvalue
    · exact h.kept entry (hentries entry hold)

end ProgramAudit.Endpoint.Cache
