import ProgramAudit.Proofs.Endpoint.Answers
import ProgramAudit.Proofs.Endpoint.Recalled

/-!
Histories of requests. A client that is asked one request after the other posts one exactly if none
that asks for the same has succeeded within the time for which results are kept. Otherwise it gives
the result of the one that has.
-/

namespace ProgramAudit.Endpoint

open Routine

variable {τ σ : Type} [Clock τ]

/-- A request that starts somewhere and comes to an outcome. -/
def Access.Call.of (request : Request) (start : Progress τ (σ × Access.Log))
    (outcome : Outcome τ (σ × Access.Log) Json) : Access.Call τ where
  request := request
  asked := start.now
  ended := outcome.final.now
  result := outcome.result
  before := start.state.2
  after := outcome.final.state.2

/-- Requests of a client one after the other, the last one first, and where the last one has left
everything. The client is new at a moment that can be read. Between two requests time may go on, and what
happens leaves the client alone. -/
inductive History [ReadableClock τ] (access : Access τ σ) (options : Client.Options) :
    List (Access.Call τ) → Progress τ (σ × Access.Log) → Prop
  | new {progress : Progress τ (σ × Access.Log)}
    (h : access.client.get progress.state.1 = .new options)
    (hreads : ReadableClock.Reads progress.now) : History access options [] progress
  | idle {calls : List (Access.Call τ)} {progress next : Progress τ (σ × Access.Log)}
    (h : History access options calls progress) (hnow : Elapsed progress.now next.now)
    (hclient : access.client.get next.state.1 = access.client.get progress.state.1) :
    History access options calls next
  | call {calls : List (Access.Call τ)} {progress : Progress τ (σ × Access.Log)}
    {outcome : Outcome τ (σ × Access.Log) Json} (request : Request)
    (h : History access options calls progress) (hrequest : request.commitment = access.commitment)
    (hrun : run progress (access.observed.call request) = outcome) :
    History access options (.of request progress outcome :: calls) outcome.final

/-- What becomes of a call behind others: it is given a result that still counts, or it is posted. -/
inductive Access.Call.Answered (lifetime : Number) (earlier : List (Access.Call τ))
    (call : Access.Call τ) : Prop
  | kept {other : Access.Call τ} {value : Json} (henabled : lifetime.atMost 0 = false)
    (hother : other ∈ earlier) (hremains : other.Remains lifetime call.request call.asked value)
    (hsole : ∀ other ∈ earlier, ∀ found,
      other.Remains lifetime call.request call.asked found → found = value)
    (hresult : call.result = some (.ok value)) (hsame : call.after = call.before)
  | posted {delivery : Delivery}
    (hmissed : lifetime.atMost 0 = true ∨
      ∀ other ∈ earlier, ∀ value, ¬other.Remains lifetime call.request call.asked value)
    (hposts : call.Posts delivery)
    (hresult : call.result = some (Exchange.read call.request.method delivery))

/-- The client is at rest, and its cache recalls the calls so far. -/
structure Minds (access : Access τ σ) (options : Client.Options) (calls : List (Access.Call τ))
    (progress : Progress τ (σ × Access.Log)) : Prop where
  rest : (access.client.get progress.state.1).AtRest
  recalls : Recalls options.lifetime calls progress.now (access.client.get progress.state.1).cache
  commitments : ∀ call ∈ calls, call.request.commitment = access.commitment

variable {access : Access τ σ} {options : Client.Options} {calls : List (Access.Call τ)}
  {progress next : Progress τ (σ × Access.Log)} {request : Request}

/-! ### One call -/

theorem Minds.commitments_cons {call : Access.Call τ} (h : Minds access options calls progress)
    (hcall : call.request.commitment = access.commitment) :
    ∀ other ∈ call :: calls, other.request.commitment = access.commitment := by
  intro other hother
  rcases List.mem_cons.mp hother with rfl | hold
  · exact hcall
  · exact h.commitments other hold

/-- A call that finds a result leaves everything as it was. -/
theorem Minds.kept {value : Json} (hlawful : access.client.Lawful)
    (h : Minds access options calls progress) (hrequest : request.commitment = access.commitment)
    (hfound : ((access.client.get progress.state.1).remember progress.now request).1 = some value) :
    let call : Access.Call τ :=
      .of request progress ⟨some (.ok value), access.asked request progress⟩
    call.Answered options.lifetime calls ∧
      Minds access options (call :: calls) (access.asked request progress) := by
  intro call
  have hsame : access.client.get (access.asked request progress).state.1 =
      access.client.get progress.state.1 := by
    have hcache := (Cache.get_eq_some hfound).2.1
    rw [client_asked hlawful]
    simp only [Client.remember, hcache]
  have hcommitment : ∀ call ∈ calls, call.request.commitment = request.commitment :=
    fun call hcall => (h.commitments call hcall).trans hrequest.symm
  obtain ⟨henabled, ⟨other, hother, hremains⟩, hsole⟩ := h.recalls.remaining hfound hcommitment
  refine ⟨.kept henabled hother hremains hsole rfl rfl, ?_, ?_, h.commitments_cons hrequest⟩
  · rw [hsame]
    exact h.rest
  · rw [hsame]
    exact h.recalls.cons (Access.Call.not_succeeds_of_same rfl)

section

variable [ReadableClock τ]

theorem Minds.idle (h : Minds access options calls progress)
    (hnow : Elapsed progress.now next.now)
    (hclient : access.client.get next.state.1 = access.client.get progress.state.1) :
    Minds access options calls next where
  rest := hclient ▸ h.rest
  recalls := by
    rw [hclient]
    exact h.recalls.mono hnow
  commitments := h.commitments

/-- A call that finds nothing is posted, and its success is what counts from then on. -/
theorem Minds.posted (hlawful : access.client.Lawful) (hposting : access.Posting request)
    (hlifetime : options.lifetime.toReal?.isSome = true)
    (h : Minds access options calls progress) (hrequest : request.commitment = access.commitment)
    (hlacks : (access.client.get progress.state.1).Lacks progress.now request) :
    ∃ outcome, run progress (access.observed.call request) = outcome ∧
      let call : Access.Call τ := .of request progress outcome
      call.Answered options.lifetime calls ∧
        (Few 4096 (call :: calls) → Minds access options (call :: calls) outcome.final) := by
  obtain ⟨delivery, final, hfinishes, hrest, hreceives, hlog⟩ :=
    finishes_call_posted hlawful hposting h.rest hlacks
  have hlater := elapsed_run progress (access.observed.call request)
  rw [hfinishes.run] at hlater
  refine ⟨_, hfinishes.run, .posted (h.recalls.missed hlacks) hlog rfl, fun hfew => ?_⟩
  exact ⟨hrest, h.recalls.receives hlifetime hfew hlacks hlater hlog rfl hreceives,
    h.commitments_cons hrequest⟩

theorem Minds.call {outcome : Outcome τ (σ × Access.Log) Json} (hlawful : access.client.Lawful)
    (hposting : access.Posting request) (hlifetime : options.lifetime.toReal?.isSome = true)
    (h : Minds access options calls progress) (hrequest : request.commitment = access.commitment)
    (hrun : run progress (access.observed.call request) = outcome)
    (hfew : Few 4096 (.of request progress outcome :: calls)) :
    (Access.Call.of request progress outcome).Answered options.lifetime calls ∧
      Minds access options (.of request progress outcome :: calls) outcome.final := by
  cases hfound : ((access.client.get progress.state.1).remember progress.now request).1 with
  | some value =>
      cases (finishes_call_kept hfound).run.symm.trans hrun
      exact h.kept hlawful hrequest hfound
  | none =>
      obtain ⟨posted, hposted, hanswered, hminds⟩ :=
        h.posted hlawful hposting hlifetime hrequest hfound
      cases hposted.symm.trans hrun
      exact ⟨hanswered, hminds hfew⟩

/-! ### All calls -/

section

variable (hlawful : access.client.Lawful)
  (hposting : ∀ request : Request, request.commitment = access.commitment → access.Posting request)
  (hlifetime : options.lifetime.toReal?.isSome = true)
  (hspacing : options.spacing.toReal?.isSome = true)

include hlawful hposting hlifetime hspacing

/-- By induction over the history: what the cache recalls answers the next call, and recalls that call
too behind it. -/
theorem History.minds (h : History access options calls progress) (hfew : Few 4096 calls) :
    Minds access options calls progress ∧ ∀ newer call earlier, calls = newer ++ call :: earlier →
      call.Answered options.lifetime earlier := by
  induction h with
  | new hclient _ =>
      refine ⟨⟨?_, ?_, fun _ hcall => absurd hcall List.not_mem_nil⟩, ?_⟩
      · rw [hclient]
        exact Client.atRest_new hspacing hlifetime
      · rw [hclient]
        exact recalls_new options _
      · intro newer call earlier hcalls
        simp at hcalls
  | idle _ hnow hclient ih => exact ⟨(ih hfew).1.idle hnow hclient, (ih hfew).2⟩
  | call request _ hrequest hrun ih =>
      obtain ⟨hminds, hall⟩ := ih hfew.of_cons
      obtain ⟨hanswered, hnext⟩ :=
        hminds.call hlawful (hposting request hrequest) hlifetime hrequest hrun hfew
      refine ⟨hnext, fun newer call earlier hcalls => ?_⟩
      -- What was said of the calls so far does not depend on the ones that follow.
      cases newer with
      | nil =>
          obtain ⟨rfl, rfl⟩ := List.cons.inj hcalls
          exact hanswered
      | cons _ newer => exact hall newer call earlier (List.cons.inj hcalls).2

end

/-- The calls are asked one after the other. -/
theorem History.ordered (h : History access options calls progress) :
    (∀ call ∈ calls, Elapsed call.asked progress.now) ∧
      calls.Pairwise fun newer older => Elapsed older.asked newer.asked := by
  induction h with
  | new _ _ => exact ⟨fun _ hcall => absurd hcall List.not_mem_nil, .nil⟩
  | idle _ hnow _ ih => exact ⟨fun call hcall => (ih.1 call hcall).trans hnow, ih.2⟩
  | @call _ start _ request _ _ hrun ih =>
      have hrunning := elapsed_run start (access.observed.call request)
      rw [hrun] at hrunning
      refine ⟨fun call hcall => ?_, List.pairwise_cons.mpr ih⟩
      rcases List.mem_cons.mp hcall with rfl | hold
      · exact hrunning
      · exact (ih.1 call hold).trans hrunning

/-- Where the client is new the clock can be read, and so it can from then on. -/
theorem History.reads (h : History access options calls progress) :
    ReadableClock.Reads progress.now ∧
      ∀ call ∈ calls, ReadableClock.Reads call.asked ∧ ReadableClock.Reads call.ended := by
  induction h with
  | new _ hreads => exact ⟨hreads, fun _ hcall => absurd hcall List.not_mem_nil⟩
  | idle _ hnow _ ih => exact ⟨hnow.reads ih.1, ih.2⟩
  | @call _ start _ request _ _ hrun ih =>
      have hrunning := elapsed_run start (access.observed.call request)
      rw [hrun] at hrunning
      refine ⟨hrunning.reads ih.1, fun call hcall => ?_⟩
      rcases List.mem_cons.mp hcall with rfl | hold
      · exact ⟨ih.1, hrunning.reads ih.1⟩
      · exact ih.2 call hold

/-! ### Answers -/

namespace Access.Call.Answered

variable {lifetime : Number} {earlier : List (Access.Call τ)} {call : Access.Call τ}

omit [ReadableClock τ]

theorem posts_iff (h : call.Answered lifetime earlier) : (∃ delivery, call.Posts delivery) ↔
    lifetime.atMost 0 = true ∨
      ∀ other ∈ earlier, ∀ value, ¬other.Remains lifetime call.request call.asked value := by
  cases h with
  | kept henabled hother hremains _ _ hsame =>
      constructor
      · rintro ⟨delivery, hposts⟩
        exact absurd hposts (not_posts_of_same hsame delivery)
      · rintro (hdisabled | hnone)
        · cases hdisabled.symm.trans henabled
        · exact absurd hremains (hnone _ hother _)
  | posted hmissed hposts _ => exact iff_of_true ⟨_, hposts⟩ hmissed

theorem result_of_posts {delivery : Delivery} (h : call.Answered lifetime earlier)
    (hposts : call.Posts delivery) :
    call.result = some (Exchange.read call.request.method delivery) := by
  cases h with
  | kept _ _ _ _ _ hsame => exact absurd hposts (not_posts_of_same hsame delivery)
  | posted _ hother hresult =>
      rw [hother.unique hposts]
      exact hresult

theorem result_of_remains {other : Access.Call τ} {value : Json} (h : call.Answered lifetime earlier)
    (henabled : lifetime.atMost 0 = false) (hother : other ∈ earlier)
    (hremains : other.Remains lifetime call.request call.asked value) :
    call.after = call.before ∧ call.result = some (.ok value) := by
  cases h with
  | kept _ _ _ hsole hresult hsame =>
      rw [hsole other hother value hremains]
      exact ⟨hsame, hresult⟩
  | posted hmissed _ _ =>
      rcases hmissed with hdisabled | hnone
      · cases hdisabled.symm.trans henabled
      · exact absurd hremains (hnone other hother value)

end Access.Call.Answered

/-- Behind a failure the next call that asks for the same is posted: whatever still counts for it would
have kept the one before from failing. -/
theorem Access.Call.Answered.posts_again {lifetime : Number} {between older : List (Access.Call τ)}
    {call last : Access.Call τ} {failure : Failure}
    (h : call.Answered lifetime (between ++ last :: older)) (hlast : last.Answered lifetime older)
    (hordered : Elapsed last.asked call.asked) (halike : last.request.Alike call.request)
    (hfailed : last.result = some (.error failure))
    (hbetween : ∀ other ∈ between, ¬other.request.Alike call.request) :
    ∃ delivery, call.Posts delivery := by
  cases h with
  | posted _ hposts _ => exact ⟨_, hposts⟩
  | @kept other value henabled hother hremains _ _ _ =>
      -- The success is behind the failure, so it counted there as well.
      rcases List.mem_append.mp hother with hnewer | hrest
      · exact absurd hremains.alike (hbetween other hnewer)
      · rcases List.mem_cons.mp hrest with rfl | holder
        · exact absurd hremains.succeeds (Access.Call.not_succeeds_of_error hfailed value)
        · have hgiven := hlast.result_of_remains henabled holder (hremains.earlier hordered halike)
          cases hfailed.symm.trans hgiven.2

end

/-- A body whose result is null. -/
def nullDelivery : Delivery := .answered ⟨200, (Json.obj [("result", .null)]).render⟩

def undefinedLifetime : Number := .real (Float.ofBits 0x7ff8000000000000)

/-- The start of a new client whose lifetime is no number, on a clock of doubles. -/
def undefinedStart : Progress Float ((Client Float × List Delivery) × Access.Log) where
  now := 0
  turn := 0
  state := ((.new { lifetime := undefinedLifetime, spacing := 0 }, [nullDelivery, nullDelivery]), [])
  journal := []

def sameRequest : Request := .account "program" .base64 Client.defaultCommitment

def firstOutcome : Outcome Float ((Client Float × List Delivery) × Access.Log) Json :=
  run undefinedStart ((Access.scriptedOn Float).observed.call sameRequest)

def secondOutcome : Outcome Float ((Client Float × List Delivery) × Access.Log) Json :=
  run firstOutcome.final ((Access.scriptedOn Float).observed.call sameRequest)

def firstCall : Access.Call Float := .of sameRequest undefinedStart firstOutcome

def secondCall : Access.Call Float := .of sameRequest firstOutcome.final secondOutcome

/-- Nothing lasts for a lifetime that is no number: no moment is before the end of it. -/
theorem Access.Call.not_lasts_of_undefined {lifetime : Number} {call : Access.Call Float}
    {now : Float} {value : Json} (hlifetime : Number.isUndefined lifetime.toReal = true) :
    ¬call.Lasts lifetime request now value := by
  intro hlasts
  have hbefore : now < call.ended + lifetime.toReal := Clock.before_float.mp hlasts.inTime
  have hnumber := (Number.not_isUndefined_of_le (Number.float_lt_iff.mp hbefore).1).2
  cases hnumber.symm.trans (Number.isUndefined_add (.inr hlifetime))

end ProgramAudit.Endpoint
