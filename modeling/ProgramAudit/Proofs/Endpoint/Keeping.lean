import ProgramAudit.Endpoint.Client
import ProgramAudit.Proofs.Endpoint.Admission
import ProgramAudit.Proofs.Endpoint.Faithful
import ProgramAudit.Proofs.Routine.Ventures

/-!
Requests through a client, one of many under way. Whatever its limiter and its cache do, a request
comes to what is read from one of its own outcomes, as long as what is kept goes with its key.
-/

namespace ProgramAudit.Endpoint

open Routine

variable {τ σ : Type} [Clock τ]

/-- Each posting of a request brings one of some outcomes after some time, and meanwhile the client
is left alone. -/
structure Access.Posts (access : Access τ σ) (request : Request) (outcome : Delivery → Prop) :
    Prop where
  spares : ∀ number, Spares access.client.get (access.post number request)
  delivers : ∀ number, Delivers (fun result => ∃ delivery, result = .ok delivery ∧
    outcome delivery) (access.post number request)

/-- The limiter of a client, while the client keeps only what goes with its keys. -/
def Access.keeping (access : Access τ σ) (lawful : access.client.Lawful)
    (goes : String × String → Json → Prop) (permits : Int) (spacing : Number) : Setting τ σ where
  pace := .blind τ
  part := access.client.inside Client.limiterPart
  lawful := lawful.inside ⟨fun _ _ => rfl⟩
  permits := (max 1 permits).toNat
  positive := permits_positive permits
  spacing := spacing
  aside state := (access.client.get state).cache.Faithful goes
  aside_modify update state hkept := by
    change (access.client.get (access.client.modify _ state)).cache.Faithful _
    rw [lawful.get_modify]
    exact hkept

variable {access : Access τ σ} {lawful : access.client.Lawful}
  {goes : String × String → Json → Prop} {permits : Int} {spacing : Number} {now : τ} {turn : Nat}
  {state : σ}

theorem keeping_holds_iff {total : Share τ} :
    (access.keeping lawful goes permits spacing).books.holds total now turn state ↔
      Accounts (.blind τ) (max 1 permits).toNat spacing total now turn
        (access.client.get state).limiter ∧ (access.client.get state).cache.Faithful goes :=
  Iff.rfl

/-- Everything that limits a new client is in order, and it keeps nothing yet. -/
theorem keeping_holds_new {options : Client.Options}
    (hlifetime : options.lifetime.toReal?.isSome = true)
    (hnew : access.client.get state = .new options) :
    (access.keeping lawful goes options.permits options.spacing).books.holds 0 now turn state := by
  have hroom : (0 : Int) < 4096 := by decide
  rw [keeping_holds_iff, hnew]
  exact ⟨.new _ _ _ _ _, hroom, hlifetime, fun _ hentry => absurd hentry List.not_mem_nil⟩

theorem keeping_holds_client {total : Share τ} {update : Client τ → Client τ}
    (hholds : (access.keeping lawful goes permits spacing).books.holds total now turn state)
    (hlimiter : (update (access.client.get state)).limiter = (access.client.get state).limiter)
    (hcache : (access.client.get state).cache.Faithful goes →
      (update (access.client.get state)).cache.Faithful goes) :
    (access.keeping lawful goes permits spacing).books.holds total now turn
      (access.client.modify update state) := by
  rw [keeping_holds_iff] at hholds ⊢
  rw [lawful.get_modify, hlimiter]
  exact hholds.imp_right hcache

/-- A step of the client that leaves the limiter alone. What comes of it may depend on what is
kept. -/
theorem keeping_step {α β : Type} {terms : Terms β (Share τ)} {own : Share τ}
    {update : Client τ → α × Client τ} {f : α → Routine τ σ β}
    (hlimiter : ∀ client, (update client).2.limiter = client.limiter)
    (hcache : ∀ client, client.cache.Faithful goes → (update client).2.cache.Faithful goes)
    (hnext : ∀ client, client.cache.Faithful goes →
      Stands (access.keeping lawful goes permits spacing).books terms own (f (update client).1)) :
    Stands (access.keeping lawful goes permits spacing).books terms own
      ((access.client.step update).bind f) := by
  intro others now turn state hholds
  exact hnext (access.client.get state) hholds.2 others now turn _
    (keeping_holds_client hholds (hlimiter _) (hcache _))

variable {request : Request}

/-- What goes with the key of a request can be kept. -/
theorem ventures_keep {result : Json} (hgoes : goes request.key result) (received : τ) :
    Ventures (access.keeping lawful goes permits spacing).books (· = .ok ())
      (access.client.tryChange (Client.keep received request result)) := by
  intro others now turn state hholds
  obtain ⟨cache, hset, hfaithful⟩ := hholds.2.set hgoes received
  have hkeep : Client.keep received request result (access.client.get state) =
      .ok { access.client.get state with cache } := by
    rw [Client.keep, hset]
    rfl
  change Keeps _ _ (ofResult ((Client.keep received request result
    (access.client.get state)).map fun _ => ())) now turn _ others
  rw [hkeep]
  refine comesTo_succeed () others now turn _ (keeping_holds_client hholds ?_ ?_) <;> rw [hkeep]
  · rfl
  · exact fun _ => hfaithful

/-- An exchange comes to what is read from one of the outcomes of its request. -/
theorem ventures_exchange {outcome : Delivery → Prop} (hrange : spacing.toReal?.isSome = true)
    (hposts : access.Posts request outcome) :
    Ventures (access.keeping lawful goes permits spacing).books
      (fun result => ∃ delivery, outcome delivery ∧ Exchange.read request.method delivery = result)
      (access.exchange request) := by
  refine keeping_step (fun _ => rfl) (fun _ => id) fun client _ => ?_
  have hview : ∀ total now turn state state', access.client.get state' = access.client.get state →
      (access.keeping lawful goes permits spacing).books.holds total now turn state →
      (access.keeping lawful goes permits spacing).books.holds total now turn state' := by
    intro total now turn state state' hsame hholds
    rw [keeping_holds_iff] at hholds ⊢
    rwa [hsame]
  refine stands_bind (stands_limited hrange (stands_spares hview (hposts.spares _)
    (hposts.delivers _) trivial rfl fun _ hresult => ⟨hresult, rfl⟩)) ?_ ?_
  · rintro delivery own ⟨⟨_, ⟨⟩, houtcome⟩, rfl⟩
    exact ventures_ofResult ⟨delivery, houtcome, rfl⟩
  · rintro failure own ⟨⟨_, ⟨⟩, -⟩, -⟩

/-- A request that is answered from what is kept comes to what an exchange could come to as well. -/
theorem ventures_call {P : Result Json → Prop}
    (hgoes : ∀ value, goes request.key value ↔ P (.ok value))
    (hexchange : Ventures (access.keeping lawful goes permits spacing).books P
      (access.exchange request)) :
    Ventures (access.keeping lawful goes permits spacing).books P (access.call request) := by
  refine ventures_now fun asked => ?_
  refine keeping_step (fun _ => rfl) (fun client hkept => hkept.get asked request.key) ?_
  intro client hkept
  cases hfound : (client.remember asked request).1 with
  | some result => exact ventures_ofResult ((hgoes result).mp (hkept.found hfound))
  | none =>
      refine hexchange.bind (fun result hresult => ?_) fun _ => id
      refine ventures_now fun received => ?_
      refine (ventures_keep ((hgoes result).mpr hresult) received).bind (fun _ _ => ?_) nofun
      exact ventures_ofResult hresult

end ProgramAudit.Endpoint
