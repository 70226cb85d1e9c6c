import Mathlib.Data.List.Perm.Subperm
import ProgramAudit.Proofs.Endpoint.Alone
import ProgramAudit.Proofs.Endpoint.Kept
import ProgramAudit.Proofs.Endpoint.Key
import ProgramAudit.Proofs.Routine.Clocks

/-!
What a cache recalls of the requests so far. Under each key there is the one success that still counts,
or there is none, as long as the keys do not outnumber the places.
-/

namespace ProgramAudit.Endpoint

open Routine

variable {τ : Type}

namespace Request.Alike

variable {left right request : Request}

theorem commitment_eq (h : left.Alike right) : left.commitment = right.commitment := by
  cases h <;> rfl

theorem key_eq (h : left.Alike right) : left.key = right.key :=
  (key_eq_iff h.commitment_eq).mpr h

/-- Two requests that ask for the same as a third one ask for the same. -/
theorem join (hleft : left.Alike request) (hright : right.Alike request) : left.Alike right :=
  (key_eq_iff (hleft.commitment_eq.trans hright.commitment_eq.symm)).mp
    (hleft.key_eq.trans hright.key_eq.symm)

end Request.Alike

/-! ### Calls -/

/-- One request as it shows from outside: when it is asked and when it ends, what it comes to, and the
events before it and behind it, the last one first. -/
structure Access.Call (τ : Type) where
  request : Request
  asked : τ
  ended : τ
  result : Option (Result Json)
  before : Access.Log
  after : Access.Log

namespace Access.Call

/-- The request is posted once, and brings something. -/
def Posts (call : Access.Call τ) (delivery : Delivery) : Prop :=
  call.after = .brought delivery :: .posted call.request :: call.before

/-- The request is posted, and succeeds with a value. -/
structure Succeeds (call : Access.Call τ) (value : Json) : Prop where
  posts : ∃ delivery, call.Posts delivery
  result_eq : call.result = some (.ok value)

variable {call : Access.Call τ}

theorem Posts.unique {delivery other : Delivery} (h : call.Posts delivery)
    (hother : call.Posts other) : other = delivery := by
  have hevents := List.cons.inj (hother.symm.trans h)
  exact Access.Event.brought.inj hevents.1

theorem not_posts_of_same (h : call.after = call.before) (delivery : Delivery) :
    ¬call.Posts delivery := by
  intro hposts
  have hlength := congrArg List.length (h.symm.trans hposts)
  simp only [List.length_cons] at hlength
  omega

theorem not_succeeds_of_same (h : call.after = call.before) (value : Json) :
    ¬call.Succeeds value := by
  rintro ⟨⟨delivery, hposts⟩, -⟩
  exact not_posts_of_same h delivery hposts

theorem not_succeeds_of_error {failure : Failure} (h : call.result = some (.error failure))
    (value : Json) : ¬call.Succeeds value := by
  rintro ⟨-, hresult⟩
  cases h.symm.trans hresult

variable [Clock τ]

/-- The moment from which the result of a call no longer counts. -/
def expires (lifetime : Number) (call : Access.Call τ) : τ := call.ended + Clock.seconds lifetime

end Access.Call

/-- A call has succeeded with the same request, less than a lifetime ago. -/
structure Access.Call.Lasts [Clock τ] (lifetime : Number) (call : Access.Call τ)
    (request : Request) (now : τ) (value : Json) : Prop where
  alike : call.request.Alike request
  succeeds : call.Succeeds value
  inTime : Clock.before now (call.expires lifetime) = true

/-- A call has succeeded with the same request, and the end of a lifetime since then is not past. -/
structure Access.Call.Remains [Clock τ] (lifetime : Number) (call : Access.Call τ)
    (request : Request) (now : τ) (value : Json) : Prop where
  alike : call.request.Alike request
  succeeds : call.Succeeds value
  counts : Clock.notAfter (call.expires lifetime) now = false

/-- On a clock that can be read, with a lifetime that is a number, an end that is not past is still to
come. -/
theorem Access.Call.remains_iff [Clock τ] [ReadableClock τ] {lifetime : Number}
    {call : Access.Call τ} {request : Request} {now : τ} {value : Json}
    (hended : ReadableClock.Reads call.ended) (hnow : ReadableClock.Reads now)
    (hpositive : Number.less 0 lifetime = true) (hranged : lifetime.toReal?.isSome = true) :
    call.Remains lifetime request now value ↔ call.Lasts lifetime request now value := by
  have hbefore := Clock.before_after hended hnow hpositive hranged
  exact ⟨fun h => ⟨h.alike, h.succeeds, hbefore.mpr h.counts⟩,
    fun h => ⟨h.alike, h.succeeds, hbefore.mp h.inTime⟩⟩

/-- The requests are at most so many different ones. -/
def Few (limit : Nat) (calls : List (Access.Call τ)) : Prop :=
  ∃ requests : List Request, requests.length ≤ limit ∧
    ∀ call ∈ calls, ∃ request ∈ requests, request.Alike call.request

theorem Few.of_cons {limit : Nat} {call : Access.Call τ} {calls : List (Access.Call τ)}
    (h : Few limit (call :: calls)) : Few limit calls := by
  obtain ⟨requests, hlength, hcover⟩ := h
  exact ⟨requests, hlength, fun other hother => hcover other (List.mem_cons_of_mem call hother)⟩

/-- Different keys of few requests are few. -/
theorem Few.length_le {limit : Nat} {calls : List (Access.Call τ)} {keys : List (String × String)}
    (h : Few limit calls) (hnodup : keys.Nodup)
    (hkeys : ∀ key ∈ keys, ∃ call ∈ calls, call.request.key = key) : keys.length ≤ limit := by
  obtain ⟨requests, hlength, hcover⟩ := h
  have hsubset : keys ⊆ requests.map Request.key := by
    intro key hkey
    obtain ⟨call, hcall, rfl⟩ := hkeys key hkey
    obtain ⟨request, hrequest, halike⟩ := hcover call hcall
    exact List.mem_map.mpr ⟨request, hrequest, halike.key_eq⟩
  calc keys.length
    _ ≤ (requests.map Request.key).length := (List.subperm_of_subset hnodup hsubset).length_le
    _ = requests.length := List.length_map _
    _ ≤ limit := hlength

/-! ### What is left of the successes -/

variable [Clock τ]

/-- Whatever has succeeded with a key no longer counts. -/
def Past (lifetime : Number) (key : String × String) (now : τ) (calls : List (Access.Call τ)) :
    Prop :=
  ∀ call ∈ calls, ∀ value, call.request.key = key → call.Succeeds value →
    Clock.notAfter (call.expires lifetime) now = true

/-- An entry is that of a success, and all others with its key no longer count. -/
def Sole (lifetime : Number) (key : String × String) (now : τ) (calls : List (Access.Call τ))
    (entry : CacheEntry τ Json) : Prop :=
  ∃ newer call older, calls = newer ++ call :: older ∧ call.request.key = key ∧
    call.Succeeds entry.value ∧ entry.expires = call.expires lifetime ∧
    Past lifetime key now (newer ++ older)

/-- What a cache has under a key accords with the successes so far. -/
def Accords (lifetime : Number) (key : String × String) (now : τ) (calls : List (Access.Call τ)) :
    Option (CacheEntry τ Json) → Prop
  | some entry => Sole lifetime key now calls entry
  | none => Past lifetime key now calls

variable {lifetime : Number} {key : String × String} {now later : τ} {calls : List (Access.Call τ)}
  {call : Access.Call τ} {entry : CacheEntry τ Json} {found : Option (CacheEntry τ Json)}

theorem Past.cons (h : Past lifetime key now calls)
    (hcall : ∀ value, call.request.key = key → ¬call.Succeeds value) :
    Past lifetime key now (call :: calls) := by
  intro other hother value hkey hsucceeds
  rcases List.mem_cons.mp hother with rfl | hold
  · exact absurd hsucceeds (hcall value hkey)
  · exact h other hold value hkey hsucceeds

/-- A call that has not succeeded with a key changes nothing in what accords with it. -/
theorem Accords.cons (h : Accords lifetime key now calls found)
    (hcall : ∀ value, call.request.key = key → ¬call.Succeeds value) :
    Accords lifetime key now (call :: calls) found := by
  cases found with
  | none => exact Past.cons h hcall
  | some entry =>
      obtain ⟨newer, sole, older, rfl, hkey, hsucceeds, hexpires, hpast⟩ := h
      exact ⟨call :: newer, sole, older, rfl, hkey, hsucceeds, hexpires, hpast.cons hcall⟩

/-- With the entry itself everything is past. -/
theorem Sole.past (h : Sole lifetime key now calls entry)
    (hexpired : Clock.notAfter entry.expires now = true) : Past lifetime key now calls := by
  obtain ⟨newer, sole, older, rfl, -, -, hexpires, hpast⟩ := h
  intro call hcall value hkey hsucceeds
  rcases List.mem_append.mp hcall with hnewer | hrest
  · exact hpast call (List.mem_append_left older hnewer) value hkey hsucceeds
  · rcases List.mem_cons.mp hrest with rfl | holder
    · rwa [← hexpires]
    · exact hpast call (List.mem_append_right newer holder) value hkey hsucceeds

/-- What still counts did so before, and for whoever asked for the same. -/
theorem Access.Call.Remains.earlier [OrderedClock τ] {request asked : Request} {value : Json}
    (h : call.Remains lifetime request later value) (hlater : Elapsed now later)
    (halike : asked.Alike request) : call.Remains lifetime asked now value where
  alike := h.alike.join halike
  succeeds := h.succeeds
  counts := by
    apply Bool.eq_false_iff.mpr
    intro hexpired
    cases (hlater.past hexpired).symm.trans h.counts

/-- The new success is the only one that counts. -/
theorem Past.sole {value : Json} (h : Past lifetime call.request.key now calls)
    (hsucceeds : call.Succeeds value) :
    Sole lifetime call.request.key now (call :: calls) ⟨call.expires lifetime, value⟩ :=
  ⟨[], call, calls, rfl, rfl, hsucceeds, rfl, h⟩

section

variable [OrderedClock τ]

theorem Past.mono (h : Past lifetime key now calls) (hlater : Elapsed now later) :
    Past lifetime key later calls :=
  fun call hcall value hkey hsucceeds => hlater.past (h call hcall value hkey hsucceeds)

theorem Accords.mono (h : Accords lifetime key now calls found) (hlater : Elapsed now later) :
    Accords lifetime key later calls found := by
  cases found with
  | none => exact Past.mono h hlater
  | some entry =>
      obtain ⟨newer, sole, older, hcalls, hkey, hsucceeds, hexpires, hpast⟩ := h
      exact ⟨newer, sole, older, hcalls, hkey, hsucceeds, hexpires, hpast.mono hlater⟩

end

/-! ### What a cache recalls -/

/-- A cache has entries for nothing but what has been asked, and if it keeps anything, then what it has
under each key accords with the successes so far. -/
structure Recalls (lifetime : Number) (calls : List (Access.Call τ)) (now : τ)
    (cache : Cache τ (String × String) Json) : Prop where
  lifetime_eq : cache.lifetime = lifetime
  capacity_eq : cache.capacity = 4096
  nodup : (Table.keys cache.entries).Nodup
  asked : ∀ key ∈ Table.keys cache.entries, ∃ call ∈ calls, call.request.key = key
  accords : lifetime.atMost 0 = false → ∀ key, Accords lifetime key now calls (cache.find? key)

variable {cache after : Cache τ (String × String) Json} {request : Request} {value : Json}

theorem recalls_new (options : Client.Options) (now : τ) :
    Recalls options.lifetime [] now (Client.new options : Client τ).cache where
  lifetime_eq := rfl
  capacity_eq := rfl
  nodup := List.nodup_nil
  asked _ hkey := absurd hkey List.not_mem_nil
  accords _ _ _ hcall := absurd hcall List.not_mem_nil

theorem Recalls.isDisabled_eq (h : Recalls lifetime calls now cache) :
    cache.isDisabled = lifetime.atMost 0 := by
  rw [Cache.isDisabled, h.lifetime_eq]

theorem Recalls.mono [OrderedClock τ] (h : Recalls lifetime calls now cache)
    (hlater : Elapsed now later) : Recalls lifetime calls later cache where
  lifetime_eq := h.lifetime_eq
  capacity_eq := h.capacity_eq
  nodup := h.nodup
  asked := h.asked
  accords henabled key := (h.accords henabled key).mono hlater

theorem Recalls.asked_cons (h : Recalls lifetime calls now cache) (call : Access.Call τ)
    (hkey : key ∈ Table.keys cache.entries) : ∃ other ∈ call :: calls, other.request.key = key := by
  obtain ⟨other, hother, heq⟩ := h.asked key hkey
  exact ⟨other, List.mem_cons_of_mem call hother, heq⟩

theorem Recalls.cons (h : Recalls lifetime calls now cache)
    (hcall : ∀ value, ¬call.Succeeds value) : Recalls lifetime (call :: calls) now cache where
  lifetime_eq := h.lifetime_eq
  capacity_eq := h.capacity_eq
  nodup := h.nodup
  asked _ hkey := h.asked_cons call hkey
  accords henabled key := (h.accords henabled key).cons fun value _ => hcall value

/-- What is not found has no success that still counts. -/
theorem Recalls.past (h : Recalls lifetime calls now cache) (henabled : lifetime.atMost 0 = false)
    (hnone : (cache.get now key).1 = none) : Past lifetime key now calls := by
  have hlasting : cache.isDisabled = false := h.isDisabled_eq.trans henabled
  have haccords := h.accords henabled key
  cases hfind : cache.find? key with
  | none => rwa [hfind] at haccords
  | some entry =>
      rw [hfind] at haccords
      cases hexpired : Clock.notAfter entry.expires now with
      | true => exact Sole.past haccords hexpired
      | false =>
          rw [Cache.get_fresh hlasting hfind hexpired] at hnone
          cases hnone

theorem Recalls.missed (h : Recalls lifetime calls now cache)
    (hnone : (cache.get now request.key).1 = none) : lifetime.atMost 0 = true ∨
      ∀ other ∈ calls, ∀ value, ¬other.Remains lifetime request now value := by
  cases hlifetime : lifetime.atMost 0 with
  | true => exact .inl rfl
  | false =>
      refine .inr fun other hother value hremains => ?_
      have hexpired := h.past hlifetime hnone other hother value hremains.alike.key_eq hremains.succeeds
      cases hexpired.symm.trans hremains.counts

/-- What is found is the value of the one success that still counts. -/
theorem Recalls.remaining (h : Recalls lifetime calls now cache)
    (hfound : (cache.get now request.key).1 = some value)
    (hcommitment : ∀ call ∈ calls, call.request.commitment = request.commitment) :
    lifetime.atMost 0 = false ∧ (∃ other ∈ calls, other.Remains lifetime request now value) ∧
      ∀ other ∈ calls, ∀ found, other.Remains lifetime request now found → found = value := by
  obtain ⟨hlasting, -, entry, hentry, rfl, hcounts⟩ := Cache.get_eq_some hfound
  have henabled : lifetime.atMost 0 = false := h.isDisabled_eq.symm.trans hlasting
  have haccords := h.accords henabled request.key
  rw [hentry] at haccords
  obtain ⟨newer, sole, older, rfl, hkey, hsucceeds, hexpires, hpast⟩ := haccords
  rw [hexpires] at hcounts
  have hsole : sole ∈ newer ++ sole :: older := List.mem_append_right newer List.mem_cons_self
  have halike := (Request.key_eq_iff (hcommitment sole hsole)).mp hkey
  refine ⟨henabled, ⟨sole, hsole, halike, hsucceeds, hcounts⟩, fun other hother found hremains => ?_⟩
  rcases List.mem_cons.mp (List.perm_middle.subset hother) with rfl | hrest
  · have hsame := hremains.succeeds.result_eq.symm.trans hsucceeds.result_eq
    exact Except.ok.inj (Option.some.inj hsame)
  · have hexpired := hpast other hrest found hremains.alike.key_eq hremains.succeeds
    cases hexpired.symm.trans hremains.counts

/-- Looking for what is not found drops nothing that still counts. -/
theorem Recalls.get (h : Recalls lifetime calls now cache) (hnone : (cache.get now key).1 = none) :
    Recalls lifetime calls now (cache.get now key).2 where
  lifetime_eq := Cache.lifetime_get.trans h.lifetime_eq
  capacity_eq := Cache.capacity_get.trans h.capacity_eq
  nodup := h.nodup.sublist (Cache.keys_get_sublist now key cache)
  asked other hother := h.asked other ((Cache.keys_get_sublist now key cache).subset hother)
  accords henabled other := by
    -- An entry is dropped under the key itself only, and there only when it has expired.
    by_cases hkey : other = key
    · subst hkey
      rw [Cache.find?_get_none (h.isDisabled_eq.trans henabled) hnone]
      exact h.past henabled hnone
    · rw [Cache.find?_get_of_ne hkey]
      exact h.accords henabled other

/-- There is room for one more as long as the requests are few. -/
theorem Recalls.length_lt (h : Recalls lifetime calls now cache) (hfew : Few 4096 (call :: calls))
    (hnew : cache.find? call.request.key = none) : cache.entries.length < 4096 := by
  have hnodup : (call.request.key :: Table.keys cache.entries).Nodup :=
    List.nodup_cons.mpr ⟨Table.not_mem_keys_of_get? hnew, h.nodup⟩
  have hlength := hfew.length_le hnodup fun key hkey => by
    rcases List.mem_cons.mp hkey with rfl | hold
    · exact ⟨call, List.mem_cons_self, rfl⟩
    · exact h.asked_cons call hold
  rw [List.length_cons, Table.keys, List.length_map] at hlength
  exact hlength

/-- A success under a key with nothing is what counts from then on. -/
theorem Recalls.put (h : Recalls lifetime calls call.ended cache)
    (hnew : cache.find? call.request.key = none) (hsucceeds : call.Succeeds value) :
    Recalls lifetime (call :: calls) call.ended { cache with
      entries := Table.put call.request.key ⟨call.expires lifetime, value⟩ cache.entries } where
  lifetime_eq := h.lifetime_eq
  capacity_eq := h.capacity_eq
  nodup := Table.nodup_keys_adjust h.nodup
  asked key hkey := by
    rcases Table.mem_keys_put hkey with rfl | hold
    · exact ⟨call, List.mem_cons_self, rfl⟩
    · exact h.asked_cons call hold
  accords henabled key := by
    by_cases hkey : key = call.request.key
    · subst hkey
      have hpast : Past lifetime call.request.key call.ended calls := by
        have haccords := h.accords henabled call.request.key
        rwa [hnew] at haccords
      rw [Cache.find?, Table.get?_put_self]
      exact hpast.sole hsucceeds
    · rw [Cache.find?, Table.get?_put_of_ne hkey]
      exact (h.accords henabled key).cons fun _ heq => absurd heq.symm hkey

/-- What a cache is left with by a success. -/
theorem Recalls.set (h : Recalls lifetime calls call.ended cache)
    (hranged : lifetime.toReal?.isSome = true) (hfew : Few 4096 (call :: calls))
    (hnew : lifetime.atMost 0 = false → cache.find? call.request.key = none)
    (hsucceeds : call.Succeeds value)
    (hset : cache.set call.ended call.request.key value = .ok after) :
    Recalls lifetime (call :: calls) call.ended after := by
  cases hlifetime : lifetime.atMost 0 with
  | true =>
      have hsame : cache.set call.ended call.request.key value = .ok cache :=
        if_pos (h.isDisabled_eq.trans hlifetime)
      cases hsame.symm.trans hset
      exact { h with
        asked := fun _ hkey => h.asked_cons call hkey
        accords := fun henabled => by cases hlifetime.symm.trans henabled }
  | false =>
      have hfind := hnew hlifetime
      -- A key that is new takes a place of its own, so no older entry has to go.
      have hroom : (cache.entries.length : Int) < cache.capacity := by
        rw [h.capacity_eq]
        exact Int.ofNat_lt.mpr (h.length_lt hfew hfind)
      obtain rfl := h.lifetime_eq
      cases (Cache.set_eq_ok hlifetime hroom hranged).symm.trans hset
      exact h.put hfind hsucceeds

/-- A cache that has received what a request was posted for recalls that too. -/
theorem Recalls.receives [OrderedClock τ] {delivery : Delivery} {result : Result Json}
    (h : Recalls lifetime calls now cache) (hranged : lifetime.toReal?.isSome = true)
    (hfew : Few 4096 (call :: calls))
    (hnone : (cache.get now call.request.key).1 = none) (hlater : Elapsed now call.ended)
    (hposts : call.Posts delivery) (hresult : call.result = some result)
    (hreceives : Cache.Receives call.ended call.request.key
      (cache.get now call.request.key).2 after result) :
    Recalls lifetime (call :: calls) call.ended after := by
  have hlooked := (h.get hnone).mono hlater
  cases result with
  | error failure =>
      cases hreceives
      exact hlooked.cons (Access.Call.not_succeeds_of_error hresult)
  | ok value =>
      have hnew (henabled : lifetime.atMost 0 = false) :
          (cache.get now call.request.key).2.find? call.request.key = none :=
        Cache.find?_get_none (h.isDisabled_eq.trans henabled) hnone
      exact hlooked.set hranged hfew hnew ⟨⟨delivery, hposts⟩, hresult⟩ hreceives

end ProgramAudit.Endpoint
