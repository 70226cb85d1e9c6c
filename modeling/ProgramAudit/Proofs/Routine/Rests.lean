import ProgramAudit.Proofs.Routine.Logs

/-!
Results that rest on a log. What a result says is justified by events that were written, and further
events take nothing of that away, so the results of routines that run at once are justified by what
all of them have written, whichever wrote first.
-/

namespace ProgramAudit.Routine

variable {τ σ E κ α β : Type}

/-- A result that is seen rests on what was written. -/
def Rests (P : Multiset E → Result α → Prop) (own : Multiset E) (seen : Option (Result α)) : Prop :=
  ∀ result, seen = some result → P own result

/-- What rests on events rests on them among others. -/
def Grows (P : Multiset E → Result α → Prop) : Prop :=
  ∀ (own own' : Multiset E) (result : Result α), own ≤ own' → P own result → P own' result

variable {P : Multiset E → Result α → Prop} {Q : Multiset E → Result β → Prop}
  {routine left : Routine τ (σ × List E) α} {right : Routine τ (σ × List E) β}

theorem rests_none (own : Multiset E) : Rests P own none := nofun

theorem rests_some {own : Multiset E} {result : Result α} (h : P own result) :
    Rests P own (some result) := by
  rintro _ ⟨⟩
  exact h

theorem rests_ofResult {result : Result α} (h : P 0 result) :
    (ofResult result : Routine τ (σ × List E) α).Logs (Rests P) Once 0 none :=
  logs_ofResult (rests_none 0) (rests_some h)

/-- A routine that notes its result rests on that note. -/
theorem rests_observed {tell : Result α → List E} (routine : Routine τ σ α)
    (h : ∀ result, P (tell result) result) :
    (routine.observed [] tell).Logs (Rests P) Once 0 none := by
  refine logs_observed routine (rests_none _) (rests_none _) (fun _ => rests_none _)
    fun result => rests_some ?_
  rw [Multiset.coe_nil, add_zero]
  exact h result

theorem rests_mapResult {f : Result α → Result β} (h : routine.Logs (Rests P) Once 0 none)
    (hf : ∀ own result, P own result → Q own (f result)) :
    (routine.mapResult f).Logs (Rests Q) Once 0 none := by
  refine logs_mapResult h fun own seen hrests => ?_
  rintro _ hseen
  obtain ⟨result, rfl, rfl⟩ := Option.map_eq_some_iff.mp hseen
  exact hf own result (hrests result rfl)

variable [Clock τ]

/-- A failure is that of the first routine, and a result of the second one rests on both. -/
theorem rests_bind {Q' : α → Multiset E → Result β → Prop} {f : α → Routine τ (σ × List E) β}
    (h : routine.Logs (Rests P) Once 0 none)
    (hf : ∀ value, (f value).Logs (Rests (Q' value)) Once 0 none)
    (hfailed : ∀ own failure, P own (.error failure) → Q own (.error failure))
    (hvalue : ∀ own own' value result, P own (.ok value) → Q' value own' result →
      Q (own + own') result) : (routine.bind f).Logs (Rests Q) Once 0 none := by
  refine (logs_bind h fun value _ _ => hf value).mono fun own seen hthen => ?_
  cases hthen with
  | first hfirst => exact rests_none own
  | failed hfirst => exact rests_some (hfailed own _ (hfirst _ rfl))
  | second hfirst hrest =>
      intro result hseen
      exact hvalue _ _ _ result (hfirst _ rfl) (hrest result hseen)

theorem rests_join (hP : Grows P) (hQ : Grows Q) (hleft : left.Logs (Rests P) Once 0 none)
    (hright : right.Logs (Rests Q) Once 0 none) :
    (join left right).Logs (Rests fun own => Both (P own) (Q own)) Once 0 none := by
  have hmeet := logs_meet hleft hright
  rw [add_zero] at hmeet
  refine hmeet.mono fun own seen hmet result hseen => ?_
  obtain ⟨sides, ⟨ownLeft, ownRight, rfl, hfirst, hsecond⟩, hpair, hfailed⟩ := hmet
  have hrestLeft {result : Result α} (hside : sides.1 = some result) :
      P (ownLeft + ownRight) result :=
    hP _ _ result (Multiset.le_add_right _ _) (hfirst result hside)
  have hrestRight {result : Result β} (hside : sides.2 = some result) :
      Q (ownLeft + ownRight) result :=
    hQ _ _ result (Multiset.le_add_left _ _) (hsecond result hside)
  cases result with
  | ok pair =>
      obtain ⟨hleftSide, hrightSide⟩ := hpair pair hseen
      exact ⟨hrestLeft hleftSide, hrestRight hrightSide⟩
  | error failure => exact (hfailed failure hseen).imp hrestLeft hrestRight

theorem rests_both (hP : Grows P) (hQ : Grows Q) (hleft : left.Logs (Rests P) Once 0 none)
    (hright : right.Logs (Rests Q) Once 0 none) :
    (both left right).Logs (Rests fun own => Both (P own) (Q own)) Once 0 none :=
  logs_settleLater (rests_join hP hQ (logs_spawned hleft) (logs_spawned hright))

section Lists

variable {P : κ → Multiset E → Result α → Prop} {f : κ → Routine τ (σ × List E) α}

theorem grows_each (hP : ∀ key, Grows (P key)) (keys : List κ) :
    Grows fun own => Each (fun key => P key own) keys := by
  intro own own' result hle heach
  cases result with
  | ok values => exact heach.imp fun key _ => hP key own own' _ hle
  | error failure =>
      obtain ⟨key, hkey, hfailed⟩ := heach
      exact ⟨key, hkey, hP key own own' _ hle hfailed⟩

theorem rests_joinAll (hP : ∀ key, Grows (P key))
    (hf : ∀ key, (f key).Logs (Rests (P key)) Once 0 none) (keys : List κ) :
    (joinAll (keys.map f)).Logs (Rests fun own => Each (fun key => P key own) keys) Once 0 none := by
  induction keys with
  | nil => exact rests_ofResult (.nil)
  | cons key keys ih =>
      cases keys with
      | nil =>
          refine rests_mapResult (hf key) fun own result hrests => ?_
          cases result with
          | ok value => exact .cons hrests .nil
          | error failure => exact ⟨key, List.mem_cons_self, hrests⟩
      | cons second keys =>
          refine rests_mapResult (rests_join (hP key) (grows_each hP _) (hf key) ih)
            fun own result hrests => ?_
          cases result with
          | ok pair => exact .cons hrests.1 hrests.2
          | error failure =>
              rcases hrests with hfirst | ⟨other, hother, hlater⟩
              · exact ⟨key, List.mem_cons_self, hfirst⟩
              · exact ⟨other, List.mem_cons_of_mem key hother, hlater⟩

/-- The results of a list of routines keep the order of the list, each resting on what was written;
a failure is the failure of one of them. -/
theorem rests_all (hP : ∀ key, Grows (P key))
    (hf : ∀ key, (f key).Logs (Rests (P key)) Once 0 none) (keys : List κ) :
    (all (keys.map f)).Logs (Rests fun own => Each (fun key => P key own) keys) Once 0 none := by
  unfold all
  split
  · rename_i hempty
    have hnone : keys = [] := by simpa using hempty
    rw [hnone]
    exact rests_ofResult .nil
  · rw [List.map_map]
    exact logs_settleLater (rests_joinAll hP (fun key => logs_spawned (hf key)) keys)

end Lists

end ProgramAudit.Routine
