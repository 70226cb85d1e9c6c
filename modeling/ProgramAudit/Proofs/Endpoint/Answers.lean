import ProgramAudit.Proofs.Endpoint.Keeping
import ProgramAudit.Proofs.Endpoint.Key
import ProgramAudit.Proofs.Endpoint.Readings
import ProgramAudit.Proofs.Failure
import ProgramAudit.Proofs.Json.RoundTrip

/-!
Requests through a client. Whatever the client keeps, for however long, and however many requests
are under way, a request that is answered comes to its own answer.
-/

namespace ProgramAudit.Endpoint

open Ledger Routine

variable {τ σ : Type} [Clock τ] {answer : Request → Json} {commitment : String}

/-- A request is answered after some time, and meanwhile the client is left alone. -/
structure Access.Meets (access : Access τ σ) (answer : Request → Json) (request : Request) :
    Prop where
  spares : ∀ number, Spares access.client.get (access.post number request)
  delivers : ∀ number, Delivers (fun result => ∃ delivery, result = .ok delivery ∧
    Exchange.read request.method delivery = .ok (answer request)) (access.post number request)

/-! ### An endpoint that serves answers -/

/-- A client of its own, and an endpoint that answers each request after a time of the request's. -/
def Access.serving (answer : Request → Json) (latency : Request → τ) : Access τ (Client τ) where
  client := .itself
  commitment := Client.defaultCommitment
  post _ request := do
    sleepFor (latency request)
    return .answered ⟨200, (Json.obj [("result", answer request)]).render⟩

/-- An object that is served is read back. -/
theorem Response.json_rendered (status : Int) {fields : List (String × Json)}
    (h : (Json.obj fields).isPlain = true) :
    Response.json ⟨status, (Json.obj fields).render⟩ = .ok (.obj fields) := by
  have hbody : Response.bodyText ⟨status, (Json.obj fields).render⟩ = (Json.obj fields).render := by
    have hopens : (Json.obj fields).render.toList = '\x7b' :: _ := Json.line_obj fields
    rw [Response.bodyText, hopens]
    rfl
  rw [Response.json, hbody, Json.read_render h]
  rfl

/-- A result that is served is what the exchange comes to. -/
theorem read_rendered (method : String) {result : Json} (h : result.isPlain = true) :
    Exchange.read method (.answered ⟨200, (Json.obj [("result", result)]).render⟩) =
      .ok result := by
  have hplain : (Json.obj [("result", result)]).isPlain = true := by
    simp [Json.isPlain, Json.hasPlain, Json.entryIsPlain, h]
  change (Response.json ⟨200, _⟩ >>= Exchange.resultOf) = _
  rw [Response.json_rendered 200 hplain]
  rfl

theorem serving_meets {latency : Request → τ} {request : Request}
    (h : (answer request).isPlain = true) :
    (Access.serving answer latency).Meets answer request where
  spares _ _ _ := ⟨fun _ _ _ => rfl, fun _ _ => ⟨fun _ _ _ => rfl, trivial⟩⟩
  delivers _ _ _ := ⟨fun _ => rfl, fun _ _ =>
    ⟨fun _ => rfl, ⟨_, rfl, read_rendered request.method h⟩, rfl⟩⟩

/-! ### The client -/

/-- The value is what the endpoint answers to whatever has the key. -/
def Answers (answer : Request → Json) (commitment : String) (key : String × String) (value : Json) :
    Prop :=
  ∀ request : Request, request.commitment = commitment → request.key = key → value = answer request

/-- The limiter of a client, while the client keeps only what the endpoint answers. -/
def Access.setting (access : Access τ σ) (lawful : access.client.Lawful) (answer : Request → Json)
    (permits : Int) (spacing : Number) : Setting τ σ :=
  access.keeping lawful (Answers answer access.commitment) permits spacing

variable {access : Access τ σ} {permits : Int} {spacing : Number} {now : τ} {turn : Nat} {state : σ}

section

variable {lawful : access.client.Lawful}

theorem holds_iff {total : Share τ} :
    (access.setting lawful answer permits spacing).books.holds total now turn state ↔
      Accounts (.blind τ) (max 1 permits).toNat spacing total now turn
        (access.client.get state).limiter ∧
      (access.client.get state).cache.Faithful (Answers answer access.commitment) :=
  Iff.rfl

/-- Everything that limits a new client is in order, and it keeps nothing yet. -/
theorem holds_new {options : Client.Options} (hlifetime : options.lifetime.toReal?.isSome = true)
    (hnew : access.client.get state = .new options) :
    (access.setting lawful answer options.permits options.spacing).books.holds 0 now turn
      state := by
  unfold Access.setting
  exact keeping_holds_new hlifetime hnew

variable {request : Request}

/-- An answer is kept under no key but that of requests for the same. -/
theorem answers_key_iff (halike : ∀ other, request.Alike other → answer request = answer other)
    (hcommitment : request.commitment = commitment) (value : Json) :
    Answers answer commitment request.key value ↔
      (.ok value : Result Json) = .ok (answer request) := by
  constructor
  · intro h
    rw [h request hcommitment rfl]
  · rintro ⟨⟩ other hother hkey
    exact halike other ((Request.key_eq_iff (hcommitment.trans hother.symm)).mp hkey.symm)

theorem comesTo_call (hrange : spacing.toReal?.isSome = true) (hmeets : access.Meets answer request)
    (halike : ∀ other, request.Alike other → answer request = answer other)
    (hcommitment : request.commitment = access.commitment) :
    ComesTo (access.setting lawful answer permits spacing).books (answer request)
      (access.call request) := by
  have hposts : access.Posts request fun delivery =>
      Exchange.read request.method delivery = .ok (answer request) :=
    ⟨hmeets.spares, hmeets.delivers⟩
  have hexchange : Ventures (access.keeping lawful (Answers answer access.commitment) permits
      spacing).books (· = .ok (answer request)) (access.exchange request) := by
    refine (ventures_exchange hrange hposts).mono ?_
    rintro result ⟨delivery, hread, rfl⟩
    exact hread
  exact ventures_call (answers_key_iff halike hcommitment) hexchange

end

/-! ### Accounts -/

/-- The account in an answer. -/
def accountBy (answer : Request → Json) (commitment address : String) : Result (Option Account) :=
  match (answer (.account address .base64 commitment)).get "value" with
  | .null => .ok none
  | payload => (Account.ofPayload payload).map some

theorem accountBy_eq_ok {address : String} {account : Account}
    (h : Account.ofPayload ((answer (.account address .base64 commitment)).get "value") =
      .ok account) : accountBy answer commitment address = .ok (some account) := by
  unfold accountBy
  generalize (answer (.account address .base64 commitment)).get "value" = payload at h ⊢
  cases payload with
  | null => cases h
  | _ =>
      change (Account.ofPayload _).map some = _
      rw [h]
      rfl

theorem comesTo_account {lawful : access.client.Lawful} (hrange : spacing.toReal?.isSome = true)
    {address : String} (hmeets : access.Meets answer (.account address .base64 access.commitment))
    {found : Option Account} (hfound : accountBy answer access.commitment address = .ok found) :
    ComesTo (access.setting lawful answer permits spacing).books found
      (access.account address) := by
  have halike (other : Request)
      (h : (Request.account address .base64 access.commitment).Alike other) :
      answer (.account address .base64 access.commitment) = answer other := by
    cases h
    rfl
  refine (ventures_account (comesTo_call hrange hmeets halike rfl)).mono ?_
  exact fun result hresult => hresult.of_eq_ok.symm.trans hfound

end ProgramAudit.Endpoint
