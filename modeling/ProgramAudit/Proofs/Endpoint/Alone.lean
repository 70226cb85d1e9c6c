import ProgramAudit.Proofs.Endpoint.Keeping
import ProgramAudit.Proofs.Endpoint.Kept
import ProgramAudit.Proofs.Routine.Alone

/-!
Requests that are made one after the other. Nobody else is in the limiter, so a request that is not
answered from what is kept is posted once, and the client is at rest again when it is over.
-/

namespace ProgramAudit

open Routine

/-- A part of a state beside a log. -/
def Part.alone {σ β E : Type} (part : Part σ β) : Part (σ × List E) β where
  get state := part.get state.1
  set value := Prod.map (part.set value) id

theorem Part.Lawful.alone {σ β E : Type} {part : Part σ β} (h : part.Lawful) :
    (part.alone : Part (σ × List E) β).Lawful := ⟨fun value state => h.get_set value state.1⟩

namespace Endpoint

variable {τ σ γ α : Type} [Clock τ]

/-! ### The limiter -/

namespace Limiter

/-- Nobody stands in a line, and nobody is in the gate. -/
structure Clear (limiter : Limiter τ) : Prop where
  line : limiter.line = []
  gated : limiter.gated = false
  gateLine : limiter.gateLine = []
  ranged : limiter.spacing.toReal?.isSome = true

/-- Whoever comes next need not wait for anybody. -/
structure Idle (limiter : Limiter τ) : Prop extends limiter.Clear where
  free : 0 < limiter.free

theorem idle_new {permits : Int} {spacing : Number} (hranged : spacing.toReal?.isSome = true) :
    (Limiter.new permits spacing : Limiter τ).Idle where
  line := rfl
  gated := rfl
  gateLine := rfl
  ranged := hranged
  free := permits_positive permits

variable {limiter : Limiter τ}

omit [Clock τ] in
theorem Idle.enter (h : limiter.Idle) (ticket : Nat) : (limiter.enter ticket).Clear := by
  have hroom : limiter.hasRoom = true := by
    simp [hasRoom, h.free, h.line]
  rw [Limiter.enter, if_pos hroom]
  exact { h with }

omit [Clock τ] in
theorem Clear.leave (h : limiter.Clear) (turn : Turn τ) : (limiter.leave turn).Idle := by
  have hnobody : limiter.line.hasUncalled = false := by
    rw [h.line]
    rfl
  have hgrant : (limiter.leave turn) = { limiter with free := limiter.free + 1 } := by
    simp [Limiter.leave, grant, hnobody]
  rw [hgrant]
  exact { h with free := Nat.succ_pos limiter.free }

omit [Clock τ] in
theorem spacing_enterGate (ticket : Nat) (limiter : Limiter τ) :
    (limiter.enterGate ticket).spacing = limiter.spacing := by
  unfold enterGate
  split_ifs <;> rfl

omit [Clock τ] in
/-- Through the gate and out of it again, with a start in between. -/
theorem Clear.passed (h : limiter.Clear) (ticket : Nat) (now : τ) (turn : Turn τ) :
    (((limiter.enterGate ticket).start now).leaveGate turn).Clear := by
  have hopen : limiter.isOpen = true := by
    simp [isOpen, h.gated, h.gateLine]
  rw [enterGate, if_pos hopen]
  exact { h with gated := rfl, gateLine := congrArg (Line.callFirst turn) h.gateLine }

variable {part : Part σ (Limiter τ)} {view : σ → γ} {progress : Progress τ σ}

theorem finishes_awaitPermit (h : (part.get progress.state).Idle) :
    Finishes progress (awaitPermit part) (.ok ())
      { progress with
        turn := progress.turn + 1
        state := part.modify (enter progress.turn) progress.state } := by
  have hroom : (part.get progress.state).hasRoom = true := by
    simp [hasRoom, h.free, h.line]
  refine .moment (.act ?_)
  rw [if_pos hroom]
  exact .settle

theorem finishes_awaitGate (h : (part.get progress.state).Clear) :
    Finishes progress (awaitGate part) (.ok ())
      { progress with
        turn := progress.turn + 1
        state := part.modify (enterGate progress.turn) progress.state } := by
  have hopen : (part.get progress.state).isOpen = true := by
    simp [isOpen, h.gated, h.gateLine]
  refine .moment (.act ?_)
  rw [if_pos hopen]
  exact .settle

theorem finishes_sleepFor (span : τ) (progress : Progress τ σ) : ∃ final,
    Finishes progress (sleepFor span) (.ok ()) final ∧ final.state = progress.state :=
  ⟨_, .moment (.wait rfl (.moment (.wait rfl .settle))), rfl⟩

theorem finishes_awaitSpan (h : (part.get progress.state).spacing.toReal?.isSome = true) :
    ∃ final, Finishes progress (awaitSpan part) (.ok ()) final ∧
      final.state = progress.state := by
  have hdelay : ∃ rest, (part.get progress.state).delay progress.now = .ok rest := by
    rw [delay, Clock.span, if_pos h]
    exact ⟨_, rfl⟩
  obtain ⟨rest, hrest⟩ := hdelay
  have hwait : ∃ final, Finishes { progress with turn := progress.turn + 1 }
      (if !Clock.notAfter rest (Clock.seconds 0) then sleepFor rest else pure ()) (.ok ()) final ∧
        final.state = progress.state := by
    split_ifs
    · exact finishes_sleepFor rest _
    · exact ⟨_, .settle, rfl⟩
  obtain ⟨final, hfinishes, hstate⟩ := hwait
  have hasked : Finishes { progress with turn := progress.turn + 1 }
      (ofResult ((part.get progress.state).delay progress.now)) (.ok rest)
      { progress with turn := progress.turn + 1 } := by
    rw [hrest]
    exact .settle
  exact ⟨final, .now_bind (.read_bind (hasked.bind hfinishes)), hstate⟩

theorem finishes_awaitStart (h : (part.get progress.state).spacing.toReal?.isSome = true) :
    ∃ now final, Finishes progress (awaitStart part) (.ok ()) final ∧
      final.state = part.modify (start now) progress.state := by
  obtain ⟨between, hspan, hstate⟩ := finishes_awaitSpan h
  refine ⟨between.now, _, hspan.bind (.moment (.act .settle)), ?_⟩
  rw [← hstate]

section

variable (hlawful : part.Lawful)
  (hview : ∀ update state, view (part.modify update state) = view state)

include hlawful hview

theorem finishes_pass (h : (part.get progress.state).Clear) : ∃ final,
    Finishes progress (pass part) (.ok ()) final ∧ (part.get final.state).Clear ∧
      view final.state = view progress.state := by
  let entered : Progress τ σ := { progress with
    turn := progress.turn + 1
    state := part.modify (enterGate progress.turn) progress.state }
  have hranged : (part.get entered.state).spacing.toReal?.isSome = true := by
    rw [hlawful.get_modify, spacing_enterGate]
    exact h.ranged
  obtain ⟨now, between, hstart, hstate⟩ := finishes_awaitStart hranged
  refine ⟨_, (finishes_awaitGate h).bind (hstart.releasing _), ?_, ?_⟩
  · dsimp only
    rw [hstate, hlawful.get_modify, hlawful.get_modify, hlawful.get_modify]
    exact h.passed _ _ _
  · dsimp only
    rw [hview, hstate, hview, hview]

theorem finishes_admission (h : (part.get progress.state).Idle) : ∃ final,
    Finishes progress (admission part) (.ok ()) final ∧ (part.get final.state).Clear ∧
      view final.state = view progress.state := by
  let entered : Progress τ σ := { progress with
    turn := progress.turn + 1
    state := part.modify (enter progress.turn) progress.state }
  have hclear : (part.get entered.state).Clear := by
    rw [hlawful.get_modify]
    exact h.enter _
  have hgate : ∃ final, Finishes entered
      (if (part.get entered.state).isSpaced then pass part else pure ()) (.ok ()) final ∧
        (part.get final.state).Clear ∧ view final.state = view progress.state := by
    split_ifs
    · obtain ⟨final, hpass, hfinal, hsame⟩ := finishes_pass hlawful hview hclear
      exact ⟨final, hpass, hfinal, hsame.trans (hview _ _)⟩
    · exact ⟨entered, .settle, hclear, hview _ _⟩
  obtain ⟨final, hfinishes, hfinal, hsame⟩ := hgate
  exact ⟨final, (finishes_awaitPermit h).bind (.read_bind hfinishes), hfinal, hsame⟩

/-- The limiter lets a routine through, and is idle again when the routine is over. The routine starts
with a view as it was before, and what it makes of that is what remains. -/
theorem finishes_limited {routine : Routine τ σ α} (After : Result α → γ → Prop)
    (h : (part.get progress.state).Idle)
    (hroutine : ∀ between : Progress τ σ, view between.state = view progress.state →
      ∃ result final, Finishes between routine result final ∧
        part.get final.state = part.get between.state ∧ After result (view final.state)) :
    ∃ result final, Finishes progress (limited part routine) result final ∧
      (part.get final.state).Idle ∧ After result (view final.state) := by
  obtain ⟨between, hadmission, hclear, hsame⟩ := finishes_admission hlawful hview h
  obtain ⟨result, final, hfinishes, hpart, hafter⟩ := hroutine between hsame
  refine ⟨result, _, hadmission.bind (hfinishes.releasing _), ?_, ?_⟩
  · dsimp only
    rw [hlawful.get_modify, hpart]
    exact hclear.leave _
  · dsimp only
    rw [hview]
    exact hafter

end

end Limiter

/-! ### Requests that are observed -/

/-- What shows of requests: one is posted, it brings something, and somebody sleeps. -/
inductive Access.Event where
  | posted (request : Request)
  | brought (delivery : Delivery)
  | slept (delay : Number)
deriving DecidableEq

/-- What has shown so far, the last of it first. -/
abbrev Access.Log := List Access.Event

def Access.Event.told : Result Delivery → Access.Log
  | .ok delivery => [.brought delivery]
  | .error _ => []

/-- The same client, whose requests are noted when they are posted and with what they bring. -/
def Access.observed (access : Access τ σ) : Access τ (σ × Access.Log) where
  client := access.client.alone
  commitment := access.commitment
  post number request := (access.post number request).observed [.posted request] Access.Event.told

/-- Whatever a request brings, it leaves the client alone. -/
abbrev Access.Posting (access : Access τ σ) (request : Request) : Prop :=
  access.Posts request fun _ => True

/-- No request is under way, and whatever is kept can be kept for its time. -/
structure Client.AtRest (client : Client τ) : Prop where
  idle : client.limiter.Idle
  room : 0 < client.cache.capacity
  ranged : client.cache.lifetime.toReal?.isSome = true

variable {access : Access τ σ} {request : Request} {progress : Progress τ (σ × Access.Log)}

/-- The cache of a client, and the log: what a limiter leaves alone. -/
def Access.shows (access : Access τ σ) (state : σ × Access.Log) :
    Cache τ (String × String) Json × Access.Log :=
  ((access.client.get state.1).cache, state.2)

/-- A request that is posted brings something, and that is all that shows of it. -/
theorem finishes_post (hposting : access.Posting request)
    (number : Int) (progress : Progress τ (σ × Access.Log)) : ∃ delivery final,
    Finishes progress (access.observed.post number request) (.ok delivery) final ∧
      access.client.get final.state.1 = access.client.get progress.state.1 ∧
      final.state.2 = .brought delivery :: .posted request :: progress.state.2 := by
  obtain ⟨_, final, ⟨delivery, rfl, -⟩, hfinishes, hclient⟩ :=
    finishes_of_delivers (hposting.delivers number) (hposting.spares number) progress.alone
  have hobserved :=
    hfinishes.observed [Access.Event.posted request] Access.Event.told progress.state.2
  exact ⟨delivery, final.beside (.brought delivery :: .posted request :: progress.state.2),
    hobserved, hclient, rfl⟩

theorem finishes_exchange (hlawful : access.client.Lawful) (hposting : access.Posting request)
    (hidle : (access.client.get progress.state.1).limiter.Idle) : ∃ delivery final,
    Finishes progress (access.observed.exchange request) (Exchange.read request.method delivery)
        final ∧
      (access.client.get final.state.1).limiter.Idle ∧
      access.shows final.state = ((access.client.get progress.state.1).cache,
        .brought delivery :: .posted request :: progress.state.2) := by
  let client : Part (σ × Access.Log) (Client τ) := access.client.alone
  have hclient : client.Lawful := hlawful.alone
  let part : Part (σ × Access.Log) (Limiter τ) := client.inside Client.limiterPart
  have hpart : part.Lawful := hclient.inside ⟨fun _ _ => rfl⟩
  have hview (update : Limiter τ → Limiter τ) (state : σ × Access.Log) :
      access.shows (part.modify update state) = access.shows state := by
    have hmodified := hclient.get_modify (Client.limiterPart.modify update) state
    exact Prod.ext (congrArg Client.cache hmodified :) rfl
  let numbered : Progress τ (σ × Access.Log) := { progress with
    state := client.modify (fun client => client.takeNumber.2) progress.state }
  have hnumbered : client.get numbered.state = (client.get progress.state).takeNumber.2 :=
    hclient.get_modify _ progress.state
  have hshows : access.shows numbered.state = access.shows progress.state :=
    Prod.ext (congrArg Client.cache hnumbered :) rfl
  have hstart : (part.get numbered.state).Idle := by
    change (client.get numbered.state).limiter.Idle
    rw [hnumbered]
    exact hidle
  let number : Int := (access.client.get progress.state.1).nextNumber
  have hpost (between : Progress τ (σ × Access.Log))
      (hsame : access.shows between.state = access.shows numbered.state) : ∃ result final,
        Finishes between (access.observed.post number request) result final ∧
          part.get final.state = part.get between.state ∧ ∃ delivery, result = .ok delivery ∧
            access.shows final.state = ((access.client.get progress.state.1).cache,
              .brought delivery :: .posted request :: progress.state.2) := by
    obtain ⟨delivery, final, hfinishes, hspared, hlog⟩ := finishes_post hposting number between
    have hbetween := Prod.ext_iff.mp (hsame.trans hshows)
    refine ⟨.ok delivery, final, hfinishes, congrArg Client.limiter hspared, delivery, rfl, ?_⟩
    refine Prod.ext ((congrArg Client.cache hspared).trans hbetween.1) (hlog.trans ?_)
    exact congrArg (Access.Event.brought delivery :: Access.Event.posted request :: ·) hbetween.2
  obtain ⟨_, final, hlimited, hrest, delivery, rfl, hafter⟩ := Limiter.finishes_limited hpart hview
    (fun result shown => ∃ delivery, result = .ok delivery ∧
      shown = ((access.client.get progress.state.1).cache,
        .brought delivery :: .posted request :: progress.state.2)) hstart hpost
  exact ⟨delivery, final, .step_bind (hlimited.bind (finishes_ofResult _ final)), hrest, hafter⟩

/-! ### Calls -/

theorem Client.atRest_new {options : Client.Options}
    (hspacing : options.spacing.toReal?.isSome = true)
    (hlifetime : options.lifetime.toReal?.isSome = true) :
    (Client.new options : Client τ).AtRest where
  idle := Limiter.idle_new hspacing
  room := (by decide : (0 : Int) < 4096)
  ranged := hlifetime

/-- Nothing is kept for a request at a moment. -/
def Client.Lacks (client : Client τ) (now : τ) (request : Request) : Prop :=
  (client.remember now request).1 = none

/-- What a cache is left with by a result: a value is kept, and a failure is not. -/
def Cache.Receives {κ ν : Type} [BEq κ] (now : τ) (key : κ) (before after : Cache τ κ ν) :
    Result ν → Prop
  | .ok value => before.set now key value = .ok after
  | .error _ => after = before

theorem finishes_tryChange {β : Type} {update : β → Result β} {value : β} (part : Part σ β)
    (progress : Progress τ σ) (hlawful : part.Lawful)
    (h : update (part.get progress.state) = .ok value) : ∃ final,
    Finishes progress (part.tryChange update) (.ok ()) final ∧
      final.now = progress.now ∧ final.state =
        part.modify (fun held => (update held).toOption.getD held) progress.state ∧
      part.get final.state = value := by
  let changed : Progress τ σ := { progress with
    state := part.modify (fun held => (update held).toOption.getD held) progress.state }
  have hsettles : Finishes changed
      (ofResult ((update (part.get progress.state)).map fun _ => ())) (.ok ()) changed := by
    rw [h]
    exact .settle
  have hvalue : part.get changed.state = value := by
    refine (hlawful.get_modify _ progress.state).trans ?_
    rw [h]
    rfl
  exact ⟨changed, .act hsettles, rfl, rfl, hvalue⟩

/-- Where a call goes on once the client has looked for a result. -/
def Access.asked (access : Access τ σ) (request : Request)
    (progress : Progress τ (σ × Access.Log)) : Progress τ (σ × Access.Log) :=
  { progress with
    turn := progress.turn + 1
    state := access.observed.client.modify
      (fun client => (client.remember progress.now request).2) progress.state }

theorem client_asked (hlawful : access.client.Lawful) (request : Request)
    (progress : Progress τ (σ × Access.Log)) :
    access.client.get (access.asked request progress).state.1 =
      ((access.client.get progress.state.1).remember progress.now request).2 := by
  have hclient : (access.client.alone : Part (σ × Access.Log) (Client τ)).Lawful := hlawful.alone
  exact (hclient.get_modify _ progress.state :)

/-- A result that is kept is given again, and nothing is posted. -/
theorem finishes_call_kept {value : Json}
    (h : ((access.client.get progress.state.1).remember progress.now request).1 = some value) :
    Finishes progress (access.observed.call request) (.ok value) (access.asked request progress) := by
  have hfound : ((access.observed.client.get progress.state).remember progress.now request).1 =
      some value := h
  refine .now_bind (.step_bind ?_)
  rw [hfound]
  exact .settle

/-- A value is kept, and the client is at rest as before. -/
theorem finishes_keep (hlawful : access.client.Lawful)
    (hrest : (access.client.get progress.state.1).AtRest) (now : τ) (request : Request)
    (value : Json) : ∃ final,
      Finishes progress (access.observed.client.tryChange (Client.keep now request value)) (.ok ())
          final ∧
        (access.client.get final.state.1).AtRest ∧
        (access.client.get progress.state.1).cache.set now request.key value =
          .ok (access.client.get final.state.1).cache ∧
        final.now = progress.now ∧ final.state.2 = progress.state.2 := by
  -- Nothing is asked of the values: there is room, and the lifetime is one that can be added.
  have hfaithful : (access.client.get progress.state.1).cache.Faithful fun _ _ => True :=
    ⟨hrest.room, hrest.ranged, fun _ _ => trivial⟩
  have hkeeps : ∃ cache, (access.client.get progress.state.1).cache.set now request.key value =
      .ok cache ∧ cache.Faithful fun _ _ => True := hfaithful.set trivial now
  obtain ⟨cache, hset, hkept⟩ := hkeeps
  have hkeep : Client.keep now request value (access.client.get progress.state.1) =
      .ok { access.client.get progress.state.1 with cache } := by
    rw [Client.keep, hset]
    rfl
  obtain ⟨final, hfinal, hnow, hstate, hclient⟩ := finishes_tryChange
    access.observed.client progress hlawful.alone hkeep
  have hcalled : access.client.get final.state.1 =
      { access.client.get progress.state.1 with cache } := hclient
  refine ⟨final, hfinal, ?_, ?_, hnow, by rw [hstate]; rfl⟩
  · rw [hcalled]
    exact ⟨hrest.idle, hkept.room, hkept.ranged⟩
  · rw [hcalled]
    exact hset

/-- A result that is not kept is that of an exchange, and the cache receives it. -/
theorem finishes_call_posted (hlawful : access.client.Lawful) (hposting : access.Posting request)
    (hrest : (access.client.get progress.state.1).AtRest)
    (h : (access.client.get progress.state.1).Lacks progress.now request) : ∃ delivery final,
      Finishes progress (access.observed.call request) (Exchange.read request.method delivery)
          final ∧
        (access.client.get final.state.1).AtRest ∧
        Cache.Receives final.now request.key
          ((access.client.get progress.state.1).cache.get progress.now request.key).2
          (access.client.get final.state.1).cache (Exchange.read request.method delivery) ∧
        final.state.2 = .brought delivery :: .posted request :: progress.state.2 := by
  have hfound : ((access.observed.client.get progress.state).remember progress.now request).1 =
      none := h
  have hasked := client_asked hlawful request progress
  have hidle : (access.client.get (access.asked request progress).state.1).limiter.Idle := by
    rw [hasked]
    exact hrest.idle
  obtain ⟨delivery, between, hexchange, hbetween, hshows⟩ :=
    finishes_exchange hlawful hposting hidle
  obtain ⟨hcache, hlog⟩ := Prod.ext_iff.mp hshows
  dsimp only [Access.shows] at hcache hlog
  rw [hasked] at hcache
  change _ = ((access.client.get progress.state.1).cache.get progress.now request.key).2 at hcache
  have hresting : (access.client.get between.state.1).AtRest := by
    refine ⟨hbetween, ?_, ?_⟩
    · rw [hcache, Cache.capacity_get]
      exact hrest.room
    · rw [hcache, Cache.lifetime_get]
      exact hrest.ranged
  refine ⟨delivery, ?_⟩
  cases hread : Exchange.read request.method delivery with
  | error failure =>
      rw [hread] at hexchange
      refine ⟨between, .now_bind (.step_bind ?_), hresting, hcache, hlog⟩
      rw [hfound]
      exact hexchange.bind_error
  | ok value =>
      rw [hread] at hexchange
      let received : Progress τ (σ × Access.Log) := { between with turn := between.turn + 1 }
      have hreceived : (access.client.get received.state.1).AtRest := hresting
      obtain ⟨final, hkeep, hfinal, hset, hnow, hsame⟩ :=
        finishes_keep hlawful hreceived between.now request value
      refine ⟨final, .now_bind (.step_bind ?_), hfinal, ?_, hsame.trans hlog⟩
      · rw [hfound]
        exact hexchange.bind (.now_bind (hkeep.bind .settle))
      · rw [hnow]
        rw [show (access.client.get received.state.1).cache = _ from hcache] at hset
        exact hset

/-! ### A scripted endpoint -/

/-- A client and an endpoint whose deliveries are known beforehand, on a clock of some kind. -/
def Access.scriptedOn (τ : Type) [Clock τ] : Access τ (Client τ × List Delivery) where
  client := ⟨Prod.fst, fun client => Prod.map (fun _ => client) id⟩
  commitment := Client.defaultCommitment
  post _ _ := .act (Prod.map id List.tail) fun state =>
    succeed (state.2.headD (.answered ⟨503, ""⟩))

def Access.scripted : Access Int (Client Int × List Delivery) := .scriptedOn Int

theorem scripted_lawful : Access.scripted.client.Lawful := ⟨fun _ _ => rfl⟩

theorem scripted_posting (request : Request) : Access.scripted.Posting request where
  spares _ := ⟨fun _ => rfl, fun _ => trivial⟩
  delivers _ _ := ⟨⟨_, rfl, trivial⟩, rfl⟩

/-- The start of a new client. -/
def scriptedStart (options : Client.Options) (deliveries : List Delivery) :
    Progress Int ((Client Int × List Delivery) × Access.Log) where
  now := 0
  turn := 0
  state := ((.new options, deliveries), [])
  journal := []

end Endpoint

end ProgramAudit
