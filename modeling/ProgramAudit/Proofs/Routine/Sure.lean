import ProgramAudit.Proofs.Routine.Live
import ProgramAudit.Proofs.Routine.Settles

/-!
Routines that are sure of their value. How long such a routine takes, what it writes and who runs
beside it are all left open, so a run of several of them at once has one value under every schedule.
-/

namespace ProgramAudit.Routine

variable {τ σ α β : Type}

/-- The routine settles under every schedule, and with nothing but this value. -/
structure Gives (value : α) (routine : Routine τ σ α) : Prop where
  settles : routine.Settles (· = .ok value)
  live : routine.Live

theorem gives_succeed (value : α) : Gives value (succeed value : Routine τ σ α) :=
  ⟨settles_succeed rfl, live_succeed value⟩

theorem gives_note (entry : Journal.Record) : Gives () (note entry : Routine τ σ Unit) :=
  ⟨settles_note rfl, live_note entry⟩

theorem Gives.map {value : α} {routine : Routine τ σ α} (h : Gives value routine) (f : α → β) :
    Gives (f value) (routine.map f) := by
  refine ⟨settles_mapResult.mpr (h.settles.mono fun result hresult => ?_), live_mapResult h.live⟩
  rw [hresult]
  rfl

variable [Clock τ]

section
unseal Settles Live

/-- Only the values that the routine can come to have to be followed by something that settles. -/
theorem live_bind_of_settles {P : Result α → Prop} {f : α → Routine τ σ β} {routine : Routine τ σ α}
    (h : routine.Live) (hsettles : routine.Settles P)
    (hvalue : ∀ value, P (.ok value) → (f value).Live) : (routine.bind f).Live := by
  induction routine with
  | halt => exact h
  | settle result rest ih =>
      cases result with
      | ok value => exact live_beside _ (hvalue value hsettles.1)
      | error failure => trivial
  | act update next ih => exact fun state => ih state (h state) (hsettles state)
  | record entry next ih => exact ih h hsettles
  | moment next ih => exact fun now turn => ih now turn (h now turn) (hsettles now turn)
  | wait due abandon next ih => exact ⟨h.1, ih h.2 hsettles⟩

theorem live_sleepFor (span : τ) : (sleepFor span : Routine τ σ Unit).Live :=
  fun _ _ => ⟨fun _ => rfl, live_yielding (live_succeed ())⟩

end

theorem gives_sleepFor (span : τ) : Gives () (sleepFor span : Routine τ σ Unit) :=
  ⟨settles_sleepFor rfl, live_sleepFor span⟩

theorem live_both {left : Routine τ σ α} {right : Routine τ σ β} (hleft : left.Live)
    (hright : right.Live) : (both left right).Live :=
  live_settleLater (live_join (live_spawned hleft) (live_spawned hright))

theorem live_joinAll {routines : List (Routine τ σ α)} (h : ∀ routine ∈ routines, routine.Live) :
    (joinAll routines).Live := by
  induction routines with
  | nil => exact live_succeed []
  | cons routine rest ih =>
      have hfirst : routine.Live := h routine List.mem_cons_self
      have hrest := ih fun other hother => h other (List.mem_cons_of_mem routine hother)
      cases rest with
      | nil => exact live_mapResult hfirst
      | cons second rest => exact live_mapResult (live_join hfirst hrest)

theorem live_all {κ : Type} {keys : List κ} {routine : κ → Routine τ σ α}
    (h : ∀ key ∈ keys, (routine key).Live) : (all (keys.map routine)).Live := by
  unfold all
  split
  · exact live_succeed []
  · refine live_settleLater (live_joinAll fun spawn hspawn => ?_)
    obtain ⟨first, hfirst, rfl⟩ := List.mem_map.mp hspawn
    obtain ⟨key, hkey, rfl⟩ := List.mem_map.mp hfirst
    exact live_spawned (h key hkey)

variable {value : α} {routine : Routine τ σ α}

theorem Gives.bind {value' : β} {f : α → Routine τ σ β} (h : Gives value routine)
    (hf : Gives value' (f value)) : Gives value' (routine >>= f) := by
  constructor
  · refine settles_bind h.settles (fun found hfound => ?_) nofun
    cases hfound
    exact hf.settles
  · refine live_bind_of_settles h.live h.settles fun found hfound => ?_
    cases hfound
    exact hf.live

theorem Gives.rescue {handle : Failure → Routine τ σ α} (h : Gives value routine) :
    Gives value (routine.rescue handle) := by
  have hattempt : Gives (.ok value) routine.attempt := by
    refine ⟨settles_mapResult.mpr (h.settles.mono fun result hresult => ?_), live_mapResult h.live⟩
    rw [hresult]
  exact hattempt.bind (gives_succeed value)

theorem Gives.both {left : Routine τ σ α} {right : Routine τ σ β} {value' : β}
    (hleft : Gives value left) (hright : Gives value' right) :
    Gives (value, value') (Routine.both left right) := by
  refine ⟨settles_settleLater ((settles_join (settles_spawned hleft.settles)
    (settles_spawned hright.settles)).mono fun result hresult => ?_), live_both hleft.live hright.live⟩
  cases result with
  | error failure => exact hresult.elim nofun nofun
  | ok pair =>
      obtain ⟨hfirst, hsecond⟩ := hresult
      cases hfirst
      cases hsecond
      rfl

/-- Routines that are sure of their values give them in the order of the list, whichever ends first. -/
theorem gives_all {κ : Type} {keys : List κ} {value : κ → α} {routine : κ → Routine τ σ α}
    (h : ∀ key ∈ keys, Gives (value key) (routine key)) :
    Gives (keys.map value) (all (keys.map routine)) := by
  refine ⟨(settles_all fun key hkey => (h key hkey).settles).mono fun result hresult => ?_,
    live_all fun key hkey => (h key hkey).live⟩
  cases result with
  | error failure =>
      obtain ⟨key, -, hfailed⟩ := hresult
      cases hfailed
  | ok values =>
      have hvalues : List.Forall₂ (· = ·) (keys.map value) values :=
        List.forall₂_map_left_iff.mpr (hresult.imp fun _ _ h => (Except.ok.inj h).symm)
      have hequal : keys.map value = values := List.forall₂_eq_eq_eq ▸ hvalues
      rw [hequal]

/-- A run of the routine ends with the value, wherever it starts. -/
theorem Gives.run (h : Gives value routine) (progress : Progress τ σ) :
    (routine.run progress).result = some (.ok value) := by
  obtain ⟨result, hrun⟩ := run_live progress h.live
  have hvalue : result = .ok value := run_settles progress h.settles hrun
  rw [hrun, hvalue]

end ProgramAudit.Routine
