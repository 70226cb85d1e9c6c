import ProgramAudit.Failure
import ProgramAudit.Routine.Basic
import ProgramAudit.Table

/-! Results of requests, kept for a time and for so many keys. -/

namespace ProgramAudit.Endpoint

/-- A value and the moment from which it no longer counts. -/
structure CacheEntry (τ ν : Type) where
  expires : τ
  value : ν

/-- Values under keys for a time; a lifetime of nothing keeps none. The entries stand in the order
in which their keys first came. -/
structure Cache (τ κ ν : Type) where
  lifetime : Number
  capacity : Int := 4096
  entries : Table κ (CacheEntry τ ν) := []

namespace Cache

variable {τ κ ν : Type} [Clock τ] [BEq κ]

def isDisabled (cache : Cache τ κ ν) : Bool := cache.lifetime.atMost 0

def remove (key : κ) (cache : Cache τ κ ν) : Cache τ κ ν :=
  { cache with entries := cache.entries.filter fun entry => !(entry.1 == key) }

/-- The value of a key that has not expired. An expired entry is dropped. -/
def get (now : τ) (key : κ) (cache : Cache τ κ ν) : Option ν × Cache τ κ ν :=
  if cache.isDisabled then (none, cache)
  else
    match Table.get? key cache.entries with
    | none => (none, cache)
    | some entry =>
      if Clock.notAfter entry.expires now then (none, cache.remove key)
      else (some entry.value, cache)

def noRoom : Failure := .fault .exhausted ""

/-- A full cache drops its oldest entry; one without room for any entry has none to drop. -/
def makeRoom (cache : Cache τ κ ν) : Result (Cache τ κ ν) :=
  if cache.capacity ≤ cache.entries.length then
    match cache.entries with
    | [] => .error noRoom
    | _ :: rest => .ok { cache with entries := rest }
  else .ok cache

/-- Keeps a value from now on for its lifetime. -/
def set (now : τ) (key : κ) (value : ν) (cache : Cache τ κ ν) : Result (Cache τ κ ν) :=
  if cache.isDisabled then .ok cache
  else do
    let roomy ← cache.makeRoom
    let lifetime ← Clock.span cache.lifetime
    let entry : CacheEntry τ ν := ⟨now + lifetime, value⟩
    return { roomy with entries := Table.put key entry roomy.entries }

def clear (cache : Cache τ κ ν) : Cache τ κ ν := { cache with entries := [] }

def size (cache : Cache τ κ ν) : Nat := cache.entries.length

end Cache

end ProgramAudit.Endpoint
