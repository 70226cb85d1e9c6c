import ProgramAudit.Proofs.Endpoint.Alone
import ProgramAudit.Proofs.Endpoint.Classes
import ProgramAudit.Proofs.Endpoint.Kept
import ProgramAudit.Proofs.Endpoint.Readings

/-!
Requests that are made again. A request for an account that nothing is kept for is posted at each
attempt, and a further attempt follows exactly on what may pass.
-/

namespace ProgramAudit.Endpoint

open Ledger Routine Result

variable {τ σ α : Type} [Clock τ] {access : Access τ σ} {request : Request} {address : String}
  {progress : Progress τ (σ × Access.Log)}

theorem Client.lacks_of_find? {client : Client τ} {now : τ}
    (h : client.cache.find? request.key = none) : client.Lacks now request := by
  unfold Client.Lacks Client.remember
  rw [Cache.get_absent h]

/-! ### One attempt -/

theorem not_isTransient_of_orFault {result : Result α} (h : result.OrFault) :
    ¬result.IsTransient := by
  cases h with
  | value => exact not_isTransient_ok
  | fault kind detail => exact mt isTransient_error.mp Bool.false_ne_true

theorem not_isTransient_accountOf (result : Json) : ¬(accountOf result).IsTransient := by
  unfold accountOf
  split
  · exact not_isTransient_ok
  · exact not_isTransient_of_orFault ((Account.ofPayload_orFault _).map some)

theorem isTransient_account_iff {delivery : Delivery} {method : String} :
    IsTransient (Exchange.read method delivery >>= accountOf) ↔ delivery.Passes := by
  rw [← @Exchange.isTransient_read_iff method delivery]
  constructor
  · intro h
    by_contra hlasts
    exact not_isTransient_bind hlasts not_isTransient_accountOf h
  · exact FailsBy.bind_left

/-- What is made of a result leaves the state alone. -/
theorem finishes_accountOf (result : Json) (progress : Progress τ (σ × Access.Log)) :
    ∃ final, Finishes progress (match result.get "value" with
      | .null => do
        Routine.note (.make .debug Access.origin "account_not_found" [("address", .str address)])
        return none
      | payload => (Routine.ofResult (Account.ofPayload payload)).map some) (accountOf result) final ∧
      final.state = progress.state := by
  unfold accountOf
  generalize result.get "value" = payload
  cases payload with
  | null => exact ⟨_, .note_bind .settle, rfl⟩
  | _ => exact ⟨progress, .settle, rfl⟩

theorem finishes_account (hlawful : access.client.Lawful)
    (hposting : access.Posting (.account address .base64 access.commitment))
    (hrest : (access.client.get progress.state.1).AtRest)
    (hlacks : (access.client.get progress.state.1).Lacks progress.now
      (.account address .base64 access.commitment)) : ∃ delivery final,
      Finishes progress (access.observed.account address)
          (Exchange.read "getAccountInfo" delivery >>= accountOf) final ∧
        final.state.2 = .brought delivery ::
          .posted (.account address .base64 access.commitment) :: progress.state.2 ∧
        (delivery.Passes → (access.client.get final.state.1).AtRest ∧
          ∀ later, (access.client.get final.state.1).Lacks later
            (.account address .base64 access.commitment)) := by
  obtain ⟨delivery, between, hcall, hbetween, hreceives, hlog⟩ :=
    finishes_call_posted hlawful hposting hrest hlacks
  refine ⟨delivery, ?_⟩
  cases hread : Exchange.read "getAccountInfo" delivery with
  | error failure =>
      have hfails : Exchange.read (Request.account address .base64 access.commitment).method
          delivery = .error failure := hread
      rw [hfails] at hcall hreceives
      refine ⟨between, hcall.bind_error, hlog, fun _ => ⟨hbetween, fun later => ?_⟩⟩
      have hcache : (access.client.get between.state.1).cache = _ := hreceives
      unfold Client.Lacks Client.remember
      rw [hcache]
      exact Cache.get_get_none hlacks later
  | ok value =>
      have hanswers : Exchange.read (Request.account address .base64 access.commitment).method
          delivery = .ok value := hread
      rw [hanswers] at hcall
      obtain ⟨final, hfinishes, hstate⟩ := finishes_accountOf value between
      refine ⟨final, hcall.bind hfinishes, by rw [hstate, hlog], fun hpasses => ?_⟩
      obtain ⟨failure, hfailure, -⟩ := Exchange.isTransient_read_iff.mpr hpasses
      cases hread.symm.trans hfailure

/-! ### Attempts -/

/-- Sleeps come to their ends, and leave the client alone. -/
structure Access.Sleeps (access : Access τ σ) (sleep : Number → Routine τ σ Unit) : Prop where
  spares : ∀ delay, Spares access.client.get (sleep delay)
  delivers : ∀ delay, Delivers (· = .ok ()) (sleep delay)

theorem sleeps_sleep (access : Access τ σ) : access.Sleeps Routine.sleep where
  spares delay := by
    unfold sleep
    split_ifs
    · exact fun _ _ => ⟨fun _ _ _ => rfl, trivial⟩
    · exact fun _ _ => ⟨fun _ _ _ => rfl, fun _ _ => ⟨fun _ _ _ => rfl, trivial⟩⟩
  delivers delay := by
    unfold sleep
    split_ifs
    · exact fun _ _ => ⟨fun _ => rfl, rfl, rfl⟩
    · exact fun _ _ => ⟨fun _ => rfl, fun _ _ => ⟨fun _ => rfl, rfl, rfl⟩⟩

variable {sleep : Number → Routine τ σ Unit} {operation : String} {attempts : Nat}
  {delays : List Number}

theorem finishes_slept (hsleep : access.Sleeps sleep) (delay : Number)
    (progress : Progress τ (σ × Access.Log)) : ∃ final,
    Finishes progress (slept Access.Event.slept sleep delay) (.ok ()) final ∧
      access.client.get final.state.1 = access.client.get progress.state.1 ∧
      final.state.2 = .slept delay :: progress.state.2 := by
  obtain ⟨_, final, rfl, hfinishes, hclient⟩ :=
    finishes_of_delivers (hsleep.delivers delay) (hsleep.spares delay) progress.alone
  have hslept := hfinishes.observed [Access.Event.slept delay] (fun _ => []) progress.state.2
  exact ⟨final.beside (.slept delay :: progress.state.2), hslept, hclient, rfl⟩

/-- A request that is posted once. -/
def Access.Event.round (request : Request) (delivery : Delivery) : List Access.Event :=
  [.posted request, .brought delivery]

section

variable {fetch : Routine τ σ α} {start between final : Progress τ σ} {result : Result α}
  {message : String} {status : Option Int}

theorem finishes_settled (h : Finishes start fetch result final) (hlasts : ¬result.IsTransient)
    (attempt : Nat) :
    Finishes start (attemptsFrom operation sleep fetch attempt attempts delays) result final := by
  cases result with
  | ok value => cases delays <;> exact h.rescue_ok
  | error failure =>
      have hother : failure.isTransient = false :=
        Bool.eq_false_iff.mpr (mt isTransient_error.mpr hlasts)
      cases failure with
      | transient message status => cases hother
      | _ => cases delays <;> exact h.rescue .settle

theorem finishes_spent (h : Finishes start fetch (.error (.transient message status)) between)
    (attempt : Nat) : ∃ final,
    Finishes start (attemptsFrom operation sleep fetch attempt attempts [])
        (.error (exhaustion operation attempts message status)) final ∧
      final.state = between.state :=
  ⟨_, h.rescue (.note_bind (.note_bind .settle)), rfl⟩

/-- A further attempt starts where the sleep has come to its end. -/
theorem finishes_again (h : Finishes start fetch (.error (.transient message status)) between)
    (attempt : Nat) (delay : Number)
    (hagain : Finishes
      { between with journal := retryRecord operation attempt attempts message status ::
        between.journal }
      ((sleep delay).bind fun _ =>
        attemptsFrom operation sleep fetch (attempt + 1) attempts delays) result final) :
    Finishes start (attemptsFrom operation sleep fetch attempt attempts (delay :: delays)) result
      final :=
  h.rescue (.note_bind hagain)

end

/-- Attempts on the way: whatever may pass has a delay and a further attempt behind it while a delay
is left. -/
structure Retried (delays : List Number) (before : List Delivery) (last : Delivery)
    (result : Result (Option Account)) : Prop where
  within : before.length ≤ delays.length
  passes : ∀ delivery ∈ before, delivery.Passes
  spent : last.Passes → before.length = delays.length
  isTransient_iff : result.IsTransient ↔ last.Passes
  settles : ¬last.Passes → result = Exchange.read "getAccountInfo" last >>= accountOf

theorem retried_settled {last : Delivery} (h : ¬last.Passes) :
    Retried delays [] last (Exchange.read "getAccountInfo" last >>= accountOf) where
  within := Nat.zero_le _
  passes _ hmem := absurd hmem List.not_mem_nil
  spent hpasses := absurd hpasses h
  isTransient_iff := isTransient_account_iff
  settles _ := rfl

theorem retried_spent {last : Delivery} {result : Result (Option Account)} (h : last.Passes)
    (hresult : result.IsTransient) : Retried [] [] last result where
  within := Nat.zero_le _
  passes _ hmem := absurd hmem List.not_mem_nil
  spent _ := rfl
  isTransient_iff := iff_of_true hresult h
  settles hlasts := absurd h hlasts

theorem Retried.again {before : List Delivery} {last delivery : Delivery}
    {result : Result (Option Account)} {delay : Number} (h : Retried delays before last result)
    (hpasses : delivery.Passes) : Retried (delay :: delays) (delivery :: before) last result where
  within := Nat.succ_le_succ h.within
  passes other hother := by
    rcases List.mem_cons.mp hother with rfl | hbefore
    · exact hpasses
    · exact h.passes other hbefore
  spent hlast := congrArg Nat.succ (h.spent hlast)
  isTransient_iff := h.isTransient_iff
  settles := h.settles

theorem finishes_attemptsFrom (hlawful : access.client.Lawful)
    (hposting : access.Posting (.account address .base64 access.commitment))
    (hsleep : access.Sleeps sleep) (hrest : (access.client.get progress.state.1).AtRest)
    (hlacks : (access.client.get progress.state.1).Lacks progress.now
      (.account address .base64 access.commitment)) (attempt : Nat) :
    ∃ before last result final,
      Finishes progress (attemptsFrom operation (slept Access.Event.slept sleep)
        (access.observed.account address) attempt attempts delays) result final ∧
      Retried delays before last result ∧
      final.state.2 = (course (Access.Event.round (.account address .base64 access.commitment)) .slept
        before delays last).reverse ++ progress.state.2 := by
  -- An attempt that may pass leaves the client at rest and with nothing kept, for the next one.
  induction delays generalizing progress attempt with
  | nil =>
      obtain ⟨delivery, between, hattempt, hlog, -⟩ :=
        finishes_account hlawful hposting hrest hlacks
      by_cases hpasses : delivery.Passes
      · obtain ⟨message, status, htransient⟩ := (isTransient_account_iff.mpr hpasses).exists_eq
        rw [htransient] at hattempt
        obtain ⟨final, hfinishes, hstate⟩ := finishes_spent hattempt attempt
        exact ⟨[], delivery, _, final, hfinishes, retried_spent hpasses ⟨_, rfl, rfl⟩,
          by rw [hstate]; exact hlog⟩
      · exact ⟨[], delivery, _, between,
          finishes_settled hattempt (mt isTransient_account_iff.mp hpasses) attempt,
          retried_settled hpasses, hlog⟩
  | cons delay delays ih =>
      obtain ⟨delivery, between, hattempt, hlog, hnext⟩ :=
        finishes_account hlawful hposting hrest hlacks
      by_cases hpasses : delivery.Passes
      · obtain ⟨message, status, htransient⟩ := (isTransient_account_iff.mpr hpasses).exists_eq
        rw [htransient] at hattempt
        obtain ⟨hbetween, hstill⟩ := hnext hpasses
        obtain ⟨woken, hsleeps, hclient, hslept⟩ := finishes_slept hsleep delay
          { between with journal := retryRecord operation attempt attempts message status ::
            between.journal }
        rw [← hclient] at hbetween hstill
        obtain ⟨before, last, result, final, hfinishes, hretried, hcourse⟩ :=
          ih hbetween (hstill _) (attempt + 1)
        refine ⟨delivery :: before, last, result, final,
          finishes_again hattempt attempt delay (hsleeps.bind hfinishes), hretried.again hpasses, ?_⟩
        rw [hcourse, hslept, hlog]
        simp [Access.Event.round]
      · exact ⟨[], delivery, _, between,
          finishes_settled hattempt (mt isTransient_account_iff.mp hpasses) attempt,
          retried_settled hpasses, hlog⟩

/-! ### Outcomes -/

/-- A request that nothing is kept for is posted once. It fails for a while just if what that brings
may pass, it is refused just if that is a refusal, and otherwise it comes to the result in the body.
So attempts at an account have a further one behind them just on what may pass, as long as a delay is
left. -/
theorem outcomes_classed (hlawful : access.client.Lawful) (hsleep : access.Sleeps sleep) :
    (∀ (request : Request) (progress : Progress τ (σ × Access.Log)),
      access.Posting request → (access.client.get progress.state.1).AtRest →
      (access.client.get progress.state.1).Lacks progress.now request →
      ∃ delivery result final,
        run progress (access.observed.call request) = ⟨some result, final⟩ ∧
        final.state.2 = .brought delivery :: .posted request :: progress.state.2 ∧
        (delivery.Classed → (result.IsTransient ↔ delivery.Passes) ∧
          ((∃ message code, result = .error (.refused message code)) ↔ delivery.Refuses) ∧
          (¬delivery.Passes → ¬delivery.Refuses →
            ∃ value, delivery.Answers value ∧ result = .ok value))) ∧
    ∀ (operation : String) (delays : List Number) (address : String)
        (progress : Progress τ (σ × Access.Log)),
      access.Posting (.account address .base64 access.commitment) →
      (access.client.get progress.state.1).AtRest →
      (access.client.get progress.state.1).Lacks progress.now
        (.account address .base64 access.commitment) →
      ∃ before last result final,
        run progress (retry operation delays (slept .slept sleep)
          (access.observed.account address)) = ⟨some result, final⟩ ∧
        Retried delays before last result ∧
        final.state.2 = (course (Access.Event.round (.account address .base64 access.commitment)) .slept
          before delays last).reverse ++ progress.state.2 := by
  constructor
  · intro request progress hposting hrest hlacks
    obtain ⟨delivery, final, hcall, -, -, hlog⟩ :=
      finishes_call_posted hlawful hposting hrest hlacks
    refine ⟨delivery, _, final, hcall.run, hlog, fun hclassed => ⟨?_, ?_, ?_⟩⟩
    · exact Exchange.isTransient_read_iff
    · exact Exchange.refused_read_iff hclassed
    · exact Exchange.read_otherwise hclassed
  · intro operation delays address progress hposting hrest hlacks
    obtain ⟨before, last, result, final, hfinishes, hretried, hlog⟩ :=
      finishes_attemptsFrom hlawful hposting hsleep hrest hlacks 1
    exact ⟨before, last, result, final, hfinishes.run, hretried, hlog⟩

/-- An endpoint that is down for once, and then does not know what is asked. -/
theorem outcomes_classed_overloaded :
    let start := scriptedStart {} [.answered ⟨503, "down"⟩, .answered ⟨404, ""⟩]
    let client := Access.scripted.client.get start.state.1
    let request : Request := .account "program" .base64 Access.scripted.commitment
    Access.scripted.client.Lawful ∧ Access.scripted.Sleeps Routine.sleep ∧
    Access.scripted.Posting request ∧ client.AtRest ∧ client.Lacks start.now request ∧
    (∃ delivery result final,
      run start (Access.scripted.observed.call request) = ⟨some result, final⟩ ∧
      final.state.2 = .brought delivery :: .posted request :: start.state.2 ∧
      (delivery.Classed → (result.IsTransient ↔ delivery.Passes) ∧
        ((∃ message code, result = .error (.refused message code)) ↔ delivery.Refuses) ∧
        (¬delivery.Passes → ¬delivery.Refuses →
          ∃ value, delivery.Answers value ∧ result = .ok value))) ∧
    ∃ before last result final,
      run start (retry "get_account" [1, 2] (slept .slept Routine.sleep)
        (Access.scripted.observed.account "program")) = ⟨some result, final⟩ ∧
      Retried [1, 2] before last result ∧
      final.state.2 = (course (Access.Event.round request) .slept before [1, 2] last).reverse ++
        start.state.2 := by
  intro start client request
  have hsleep := sleeps_sleep Access.scripted
  have hrest : client.AtRest := Client.atRest_new rfl rfl
  have hlacks : client.Lacks start.now request := Client.lacks_of_find? rfl
  have hclasses := outcomes_classed scripted_lawful hsleep
  exact ⟨scripted_lawful, hsleep, scripted_posting request, hrest, hlacks,
    hclasses.1 request start (scripted_posting request) hrest hlacks,
    hclasses.2 "get_account" [1, 2] "program" start (scripted_posting request) hrest hlacks⟩

end ProgramAudit.Endpoint
