import ProgramAudit.Endpoint.Session
import ProgramAudit.Proofs.Endpoint.Alone
import ProgramAudit.Proofs.Endpoint.Answers
import ProgramAudit.Proofs.Ledger.Defects
import ProgramAudit.Proofs.Number.DoubleRange
import ProgramAudit.Proofs.Number.DoubleSum

/-!
Prices over time. A feed asks for the price if it knows none, or if the one that it knows has outlived
its time. It knows the last price that it was given, and that price stands in wherever a delivery has
none, all but in one case: an integer past the range of doubles is a failure of the feed itself.
-/

namespace ProgramAudit.Endpoint.PriceFeed

open Result Routine

/-! ### Prices in deliveries -/

/-- A successful answer that has a value under the name of the price. -/
def Quotes (delivery : Delivery) (quote : Json) : Prop :=
  ∃ response fields prices, delivery = .answered response ∧
    (200 ≤ response.status ∧ response.status ≤ 299) ∧ response.json = .ok (.obj fields) ∧
    Json.field? "solana" fields = some (.obj prices) ∧ Json.field? "usd" prices = some quote

/-- The delivery has a price. -/
def Brings (delivery : Delivery) (value : Float) : Prop :=
  ∃ quote, Quotes delivery quote ∧ quote.toDouble = .ok value

/-- What stands for the price is an integer past the range of doubles. -/
def Overflows (delivery : Delivery) : Prop :=
  ∃ amount, Quotes delivery (.int amount) ∧ Number.doubleOfInt? amount = none

/-- A failure for which nothing stands in. -/
abbrev Escapes {α : Type} (result : Result α) : Prop :=
  FailsBy (fun failure => isTolerated failure = false) result

/-- The value under the name of the price, wherever one can be looked up. -/
def quoted : Delivery → Result Json
  | .interrupted interruption => .error interruption.failure
  | .answered response =>
    if response.isSuccess then response.json >>= lookUp "solana" >>= lookUp "usd"
    else .error (statusFailure response.status)

variable {delivery : Delivery} {quote value : Json} {name : String} {price : Float}

theorem lookUp_eq_ok : lookUp name value = .ok quote ↔
    ∃ fields, value = .obj fields ∧ Json.field? name fields = some quote := by
  cases value with
  | obj fields => cases hfield : Json.field? name fields <;> simp [lookUp, hfield]
  | _ => simp [lookUp]

theorem not_escapes_lookUp : ¬Escapes (lookUp name value) := by
  cases value with
  | obj fields =>
      unfold lookUp
      dsimp only
      cases Json.field? name fields with
      | none => exact fun h => nomatch failsBy_error.mp h
      | some found => exact not_failsBy_ok
  | _ => exact fun h => nomatch failsBy_error.mp h

theorem not_escapes_json (response : Response) : ¬Escapes response.json := by
  unfold Response.json
  cases Json.read response.bodyText with
  | ok body => exact not_failsBy_ok
  | error fault => cases fault <;> exact fun h => nomatch failsBy_error.mp h

theorem isSuccess_iff {response : Response} :
    response.isSuccess = true ↔ 200 ≤ response.status ∧ response.status ≤ 299 := by
  simp [Response.isSuccess]

theorem quoted_eq_ok : quoted delivery = .ok quote ↔ Quotes delivery quote := by
  cases delivery with
  | interrupted interruption => exact ⟨nofun, fun ⟨_, _, _, h, _⟩ => nomatch h⟩
  | answered response =>
      unfold quoted
      dsimp only
      split_ifs with hsuccess
      · simp only [bind_eq_ok, lookUp_eq_ok]
        constructor
        · rintro ⟨_, ⟨_, hjson, fields, rfl, hfield⟩, prices, rfl, hquote⟩
          exact ⟨response, fields, prices, rfl, isSuccess_iff.mp hsuccess, hjson, hfield, hquote⟩
        · rintro ⟨_, fields, prices, ⟨⟩, -, hjson, hfield, hquote⟩
          exact ⟨_, ⟨_, hjson, fields, rfl, hfield⟩, prices, rfl, hquote⟩
      · refine ⟨nofun, ?_⟩
        rintro ⟨_, _, _, ⟨⟩, hstatus, -⟩
        exact absurd (isSuccess_iff.mpr hstatus) hsuccess

theorem not_escapes_quoted : ¬Escapes (quoted delivery) := by
  cases delivery with
  | interrupted interruption => exact fun h => nomatch failsBy_error.mp h
  | answered response =>
      unfold quoted
      dsimp only
      split_ifs
      · intro h
        rcases failsBy_bind.mp h with hprices | ⟨_, -, hquote⟩
        · rcases failsBy_bind.mp hprices with hjson | ⟨_, -, hfield⟩
          · exact not_escapes_json response hjson
          · exact not_escapes_lookUp hfield
        · exact not_escapes_lookUp hquote
      · exact fun h => nomatch failsBy_error.mp h

theorem read_eq (delivery : Delivery) : read delivery = quoted delivery >>= Json.toDouble := by
  cases delivery with
  | interrupted interruption => rfl
  | answered response =>
      unfold read quoted
      dsimp only
      split_ifs
      · rw [bind_assoc, bind_assoc]
      · rfl

theorem read_eq_ok : read delivery = .ok price ↔ Brings delivery price := by
  simp only [read_eq, bind_eq_ok, quoted_eq_ok, Brings]

theorem read_of_overflows (h : Overflows delivery) : read delivery = .error .integerTooLarge := by
  obtain ⟨amount, hquotes, hlarge⟩ := h
  rw [read_eq, quoted_eq_ok.mpr hquotes]
  change Json.doubleOf amount = _
  rw [Json.doubleOf, hlarge]

/-- Of all failures one gets out: that of an integer past the range of doubles. -/
theorem escapes_read : Escapes (read delivery) ↔ Overflows delivery := by
  constructor
  · rw [read_eq]
    intro h
    rcases failsBy_bind.mp h with hquoted | ⟨quote, hquote, failure, hfailure, hescapes⟩
    · exact absurd hquoted not_escapes_quoted
    · have hunreadable : failure.isUnreadable = false := by
        unfold isTolerated at hescapes
        split at hescapes
        · cases hescapes
        · cases hescapes
        · exact hescapes
      obtain ⟨amount, rfl, hlarge⟩ := Json.breaks_toDouble.mp ⟨failure, hfailure, hunreadable⟩
      exact ⟨amount, quoted_eq_ok.mp hquote, hlarge⟩
  · intro h
    exact ⟨_, read_of_overflows h, rfl⟩

/-! ### Calls -/

variable {τ σ : Type}

/-- What shows of a call: the price is asked for, and something is brought. -/
inductive Event where
  | asked (request : PriceRequest)
  | brought (delivery : Delivery)
deriving DecidableEq

/-- What has shown so far, the last of it first. -/
abbrev Log := List Event

def Event.told : Result Delivery → Log
  | .ok delivery => [.brought delivery]
  | .error _ => []

/-- The same requests, which are noted with what they bring. -/
def observed (get : PriceRequest → Routine τ σ Delivery) (request : PriceRequest) :
    Routine τ (σ × Log) Delivery :=
  (get request).observed [.asked request] Event.told

/-- Each request brings something after some time, and meanwhile the feed is left alone. -/
structure Asks (part : Part σ (PriceFeed τ)) (get : PriceRequest → Routine τ σ Delivery) : Prop where
  spares : ∀ request, Spares part.get (get request)
  delivers : ∀ request, Delivers (fun result => ∃ delivery, result = .ok delivery) (get request)

/-- A call for the price, with what had shown and what the feed knew before and behind it. -/
structure Call (τ : Type) where
  asked : τ
  result : Option (Result Float)
  before : Log
  after : Log
  known : Option (KnownPrice τ)
  learned : Option (KnownPrice τ)

def Call.of (part : Part σ (PriceFeed τ)) (start : Progress τ (σ × Log))
    (outcome : Outcome τ (σ × Log) Float) : Call τ where
  asked := start.now
  result := outcome.result
  before := start.state.2
  after := outcome.final.state.2
  known := (part.get start.state.1).known
  learned := (part.get outcome.final.state.1).known

/-- The call makes one request, which brings the delivery. -/
def Call.Requests (request : PriceRequest) (call : Call τ) (delivery : Delivery) : Prop :=
  call.after = .brought delivery :: .asked request :: call.before

/-! ### What is learned -/

/-- The call has made a request that brought a price. -/
def Call.Learns (request : PriceRequest) (call : Call τ) (value : Float) : Prop :=
  ∃ delivery, call.Requests request delivery ∧ Brings delivery value

/-- What has been learned last in calls that are listed the newest first: a price, with the moment at
which its call was made. -/
inductive Learned (request : PriceRequest) (calls : List (Call τ)) : Option (KnownPrice τ) → Prop
  | nothing (h : ∀ call ∈ calls, ∀ value, ¬call.Learns request value) : Learned request calls none
  | price {newer older : List (Call τ)} {call : Call τ} {value : Float}
    (hcalls : calls = newer ++ call :: older) (hlearns : call.Learns request value)
    (hnewer : ∀ other ∈ newer, ∀ found, ¬other.Learns request found) :
    Learned request calls (some ⟨value, call.asked⟩)

variable {request : PriceRequest} {call : Call τ} {calls : List (Call τ)}
  {known : Option (KnownPrice τ)} {delivery' : Delivery}

theorem Call.Requests.unique (h : call.Requests request delivery)
    (h' : call.Requests request delivery') : delivery = delivery' := by
  have hevents := (List.cons.inj (h.symm.trans h')).1
  exact Event.brought.inj hevents

theorem Call.not_requests_of_same (h : call.after = call.before) (delivery : Delivery) :
    ¬call.Requests request delivery := by
  intro hrequests
  have hlength := congrArg List.length (h.symm.trans hrequests)
  simp only [List.length_cons] at hlength
  omega

theorem Learned.of_learns {value : Float} (h : call.Learns request value) :
    Learned request (call :: calls) (some ⟨value, call.asked⟩) :=
  .price (List.nil_append (call :: calls)).symm h fun _ hother => absurd hother List.not_mem_nil

theorem Learned.cons (h : Learned request calls known)
    (hcall : ∀ value, ¬call.Learns request value) : Learned request (call :: calls) known := by
  cases h with
  | nothing hnone =>
      refine .nothing fun other hother => ?_
      rcases List.mem_cons.mp hother with rfl | hold
      · exact hcall
      · exact hnone other hold
  | @price newer older last value hcalls hlearns hnewer =>
      have hcons : call :: calls = (call :: newer) ++ last :: older := congrArg (call :: ·) hcalls
      refine .price hcons hlearns fun other hother => ?_
      rcases List.mem_cons.mp hother with rfl | hold
      · exact hcall
      · exact hnewer other hold

/-! ### One call -/

/-- The feed knows no price, or one that has outlived its time. -/
def Outlived [Clock τ] (feed : PriceFeed τ) (now : τ) : Prop :=
  ∀ known, feed.known = some known → known.isFresh feed.lifetime now = false

/-- What becomes of a call to a feed. -/
inductive Call.Answered [Clock τ] (feed : PriceFeed τ) (call : Call τ) : Prop
  | kept {known : KnownPrice τ} (hknown : feed.known = some known)
    (hfresh : known.isFresh feed.lifetime call.asked = true) (hsame : call.after = call.before)
    (hresult : call.result = some (.ok known.value)) (hlearned : call.learned = feed.known)
  | brought {delivery : Delivery} {value : Float} (houtlived : feed.Outlived call.asked)
    (hrequests : call.Requests feed.request delivery) (hbrings : Brings delivery value)
    (hresult : call.result = some (.ok value)) (hlearned : call.learned = some ⟨value, call.asked⟩)
  | missed {delivery : Delivery} (houtlived : feed.Outlived call.asked)
    (hrequests : call.Requests feed.request delivery) (hmisses : ∀ value, ¬Brings delivery value)
    (hrange : ¬Overflows delivery) (hresult : call.result = some (.ok feed.fallback))
    (hlearned : call.learned = feed.known)
  | failed {delivery : Delivery} (houtlived : feed.Outlived call.asked)
    (hrequests : call.Requests feed.request delivery) (hrange : Overflows delivery)
    (hresult : call.result = some (.error .integerTooLarge)) (hlearned : call.learned = feed.known)

variable [Clock τ] {part : Part σ (PriceFeed τ)} {get : PriceRequest → Routine τ σ Delivery}
  {feed : PriceFeed τ} {now : τ} {progress next : Progress τ (σ × Log)}

theorem current?_eq_some : feed.current? now = some price ↔ ∃ known, feed.known = some known ∧
    known.isFresh feed.lifetime now = true ∧ known.value = price := by
  simp [current?, and_assoc]

theorem current?_eq_none : feed.current? now = none ↔ feed.Outlived now := by
  simp [current?, Outlived]

/-- What a reading makes of a feed: the result of the call, and what is left of the feed. -/
def settled (asked : τ) (feed : PriceFeed τ) : Result Float → Result Float × PriceFeed τ
  | .ok value => (.ok value, feed.learn asked value)
  | .error failure => (if isTolerated failure then .ok feed.fallback else .error failure, feed)

theorem finishes_settle (hlawful : part.Lawful) (hfeed : part.get progress.state.1 = feed)
    (asked : τ) (result : Result Float) : ∃ final,
    Finishes progress (settle part.alone asked result) (feed.settled asked result).1 final ∧
      part.get final.state.1 = (feed.settled asked result).2 ∧ final.state.2 = progress.state.2 := by
  subst hfeed
  cases result with
  | ok value => exact ⟨_, .act (.record .settle), hlawful.get_modify _ _, rfl⟩
  | error failure =>
      unfold settle settled
      dsimp only
      split_ifs
      · exact ⟨_, .read_bind (.note_bind .settle), rfl, rfl⟩
      · exact ⟨_, .settle, rfl, rfl⟩

theorem finishes_price_kept (hfeed : part.get progress.state.1 = feed)
    (h : feed.current? progress.now = some price) :
    Finishes progress (PriceFeed.price part.alone (observed get)) (.ok price)
      { progress with turn := progress.turn + 1 } := by
  subst hfeed
  refine .now_bind (.read_bind ?_)
  split
  · rename_i value hvalue
    cases h.symm.trans hvalue
    exact .settle
  · rename_i hnone
    cases h.symm.trans hnone

theorem finishes_price_asked (hlawful : part.Lawful) (hasks : Asks part get)
    (hfeed : part.get progress.state.1 = feed) (h : feed.current? progress.now = none) :
    ∃ delivery final,
      Finishes progress (PriceFeed.price part.alone (observed get))
        (feed.settled progress.now (read delivery)).1 final ∧
      part.get final.state.1 = (feed.settled progress.now (read delivery)).2 ∧
      final.state.2 = .brought delivery :: .asked feed.request :: progress.state.2 := by
  subst hfeed
  let feed := part.get progress.state.1
  let turned : Progress τ (σ × Log) := { progress with turn := progress.turn + 1 }
  obtain ⟨_, between, ⟨delivery, rfl⟩, hfinishes, hsame⟩ :=
    finishes_of_delivers (hasks.delivers feed.request) (hasks.spares feed.request) turned.alone
  have hobserved :=
    hfinishes.observed [Event.asked feed.request] Event.told progress.state.2
  let log : Log := .brought delivery :: .asked feed.request :: progress.state.2
  have hbetween : part.get (between.beside log).state.1 = feed := hsame
  obtain ⟨final, hsettle, hleft, hlog⟩ :=
    finishes_settle hlawful hbetween progress.now (read delivery)
  refine ⟨delivery, final, .now_bind (.read_bind ?_), hleft, hlog⟩
  split
  · rename_i value hvalue
    cases h.symm.trans hvalue
  · exact hobserved.bind hsettle

/-- A call is answered, and the feed is as it was but for what it has learned. -/
theorem answered_price (hlawful : part.Lawful) (hasks : Asks part get)
    (hfeed : part.get progress.state.1 = feed) :
    let outcome := run progress (PriceFeed.price part.alone (observed get))
    (Call.of part progress outcome).Answered feed ∧ part.get outcome.final.state.1 =
      { feed with known := (Call.of part progress outcome).learned } := by
  cases hcurrent : feed.current? progress.now with
  | some price =>
      obtain ⟨known, hknown, hfresh, rfl⟩ := current?_eq_some.mp hcurrent
      rw [(finishes_price_kept hfeed hcurrent).run]
      subst hfeed
      exact ⟨.kept hknown hfresh rfl rfl rfl, rfl⟩
  | none =>
      have houtlived := current?_eq_none.mp hcurrent
      obtain ⟨delivery, final, hfinishes, hleft, hlog⟩ :=
        finishes_price_asked hlawful hasks hfeed hcurrent
      rw [hfinishes.run]
      have hlearned : part.get final.state.1 =
          { feed with known := (part.get final.state.1).known } := by
        rw [hleft]
        cases read delivery <;> rfl
      refine ⟨?_, hlearned⟩
      cases hread : read delivery with
      | ok value =>
          refine .brought houtlived hlog (read_eq_ok.mp hread) rfl ?_
          rw [hread] at hleft
          exact congrArg PriceFeed.known hleft
      | error failure =>
          have hsame : (part.get final.state.1).known = feed.known := by
            rw [hleft, hread]
            rfl
          by_cases hrange : Overflows delivery
          · refine .failed houtlived hlog hrange ?_ hsame
            cases hread.symm.trans (read_of_overflows hrange)
            rfl
          · have htolerated : isTolerated failure = true := by
              by_contra hescapes
              exact hrange (escapes_read.mp ⟨failure, hread, Bool.eq_false_iff.mpr hescapes⟩)
            refine .missed houtlived hlog (fun value hbrings => ?_) hrange ?_ hsame
            · cases hread.symm.trans (read_eq_ok.mpr hbrings)
            · change some (if isTolerated failure then _ else _) = _
              rw [if_pos htolerated]

/-! ### Histories -/

/-- Calls to a feed one after the other, the last one first, and where the last one has left everything.
Between two of them time may go on, and what happens leaves the feed alone. -/
inductive Calls (part : Part σ (PriceFeed τ)) (get : PriceRequest → Routine τ σ Delivery)
    (feed : PriceFeed τ) : List (Call τ) → Progress τ (σ × Log) → Prop
  | new {progress : Progress τ (σ × Log)} (h : part.get progress.state.1 = feed) :
    Calls part get feed [] progress
  | idle {calls : List (Call τ)} {progress next : Progress τ (σ × Log)}
    (h : Calls part get feed calls progress)
    (hfeed : part.get next.state.1 = part.get progress.state.1) : Calls part get feed calls next
  | call {calls : List (Call τ)} {progress : Progress τ (σ × Log)} {outcome : Outcome τ (σ × Log) Float}
    (h : Calls part get feed calls progress)
    (hrun : run progress (PriceFeed.price part.alone (observed get)) = outcome) :
    Calls part get feed (.of part progress outcome :: calls) outcome.final

/-- What the feed knows behind a call is what has been learned last. -/
theorem Call.Answered.learned (h : call.Answered feed)
    (hlearned : Learned feed.request calls feed.known) :
    Learned feed.request (call :: calls) call.learned := by
  cases h with
  | kept _ _ hsame _ hkept =>
      rw [hkept]
      exact hlearned.cons fun _ ⟨_, hrequests, _⟩ => not_requests_of_same hsame _ hrequests
  | brought _ hrequests hbrings _ hnew =>
      rw [hnew]
      exact .of_learns ⟨_, hrequests, hbrings⟩
  | missed _ hrequests hmisses _ _ hkept =>
      rw [hkept]
      refine hlearned.cons fun value ⟨_, hother, hbrings⟩ => ?_
      exact hmisses value (hother.unique hrequests ▸ hbrings)
  | failed _ hrequests hrange _ hkept =>
      rw [hkept]
      refine hlearned.cons fun value ⟨_, hother, hbrings⟩ => ?_
      cases hother.unique hrequests
      cases (read_of_overflows hrange).symm.trans (read_eq_ok.mpr hbrings)

/-- By induction over the history: the feed knows what has been learned last, so the next call is answered
from that. -/
theorem Calls.answered (hlawful : part.Lawful) (hasks : Asks part get) (hnew : feed.known = none)
    (h : Calls part get feed calls progress) :
    (∃ known, part.get progress.state.1 = { feed with known } ∧ Learned feed.request calls known) ∧
      ∀ newer call earlier, calls = newer ++ call :: earlier →
        ∃ known, Learned feed.request earlier known ∧ call.known = known ∧
          call.Answered { feed with known } := by
  induction h with
  | new hfeed =>
      refine ⟨⟨none, ?_, .nothing fun _ hcall => absurd hcall List.not_mem_nil⟩, ?_⟩
      · rw [hfeed, ← hnew]
      · intro newer call earlier hcalls
        simp at hcalls
  | idle _ hfeed ih => exact ⟨hfeed ▸ ih.1, ih.2⟩
  | @call calls start _ _ hrun ih =>
      obtain ⟨⟨known, hfeed, hlearned⟩, hall⟩ := ih
      obtain ⟨hanswered, hleft⟩ := answered_price hlawful hasks hfeed
      rw [hrun] at hanswered hleft
      refine ⟨⟨_, hleft, hanswered.learned hlearned⟩, fun newer call earlier hcalls => ?_⟩
      -- What was said of the calls so far does not depend on the ones that follow.
      cases newer with
      | nil =>
          obtain ⟨rfl, rfl⟩ := List.cons.inj hcalls
          exact ⟨known, hlearned, congrArg PriceFeed.known hfeed, hanswered⟩
      | cons _ newer => exact hall newer call earlier (List.cons.inj hcalls).2

/-! ### A scripted endpoint -/

omit [Clock τ] in
theorem lawful_feedPart : (Session.feedPart : Part (Session τ) (PriceFeed τ)).Lawful :=
  ⟨fun _ _ => rfl⟩

theorem spares_deliver {γ : Type} (view : σ → γ) (number : Json) (planned : PlannedReply) :
    Spares view (Script.deliver number planned : Routine τ σ Delivery) := by
  unfold Script.deliver
  cases planned.latency with
  | none => exact trivial
  | some delay =>
      change Spares view ((sleep delay).bind fun _ => pure _)
      unfold sleep
      split_ifs
      · exact fun _ _ => ⟨fun _ _ _ => rfl, trivial⟩
      · exact fun _ _ => ⟨fun _ _ _ => rfl, fun _ _ => ⟨fun _ _ _ => rfl, trivial⟩⟩

theorem delivers_deliver (number : Json) (planned : PlannedReply) :
    Delivers (fun result => ∃ delivery, result = .ok delivery)
      (Script.deliver number planned : Routine τ σ Delivery) := by
  unfold Script.deliver
  cases planned.latency with
  | none => exact ⟨⟨_, rfl⟩, rfl⟩
  | some delay =>
      change Delivers _ ((sleep delay).bind fun _ => pure _)
      unfold sleep
      split_ifs
      · exact fun _ _ => ⟨fun _ => rfl, ⟨_, rfl⟩, rfl⟩
      · exact fun _ _ => ⟨fun _ => rfl, fun _ _ => ⟨fun _ => rfl, ⟨_, rfl⟩, rfl⟩⟩

/-- Whatever the script, a request for the price brings something. -/
theorem asks_script (script : Script) :
    Asks (Session.feedPart : Part (Session τ) (PriceFeed τ)) (script.get Session.tracePart) where
  spares _ _ _ := ⟨fun _ => rfl, fun _ => spares_deliver _ _ _⟩
  delivers _ _ _ _ := delivers_deliver _ _

/-- The body of an answer with an amount for the price. -/
def priceBody (amount : Int) : Json := .obj [("solana", .obj [("usd", .int amount)])]

theorem quotes_priceBody {amount : Int} (h : (priceBody amount).isPlain = true) :
    Quotes (.answered ⟨200, (priceBody amount).render⟩) (.int amount) := by
  have hstatus : (200 : Int) ≤ 200 ∧ (200 : Int) ≤ 299 := by decide
  exact ⟨_, _, _, rfl, hstatus, Response.json_rendered 200 h, rfl, rfl⟩

/-- The start of a session with a feed. -/
def sessionStart (feed : PriceFeed Int) : Progress Int (Session Int × Log) where
  now := 0
  turn := 0
  state := ({ client := .new {}, feed }, [])
  journal := []

/-! ### What a call gives -/

namespace Call.Answered

theorem requests_iff (h : call.Answered feed) :
    (∃ delivery, call.Requests feed.request delivery) ↔ feed.Outlived call.asked := by
  cases h with
  | kept hknown hfresh hsame _ _ =>
      refine iff_of_false (fun ⟨_, hrequests⟩ => not_requests_of_same hsame _ hrequests) fun h => ?_
      cases hfresh.symm.trans (h _ hknown)
  | brought houtlived hrequests _ _ _ => exact iff_of_true ⟨_, hrequests⟩ houtlived
  | missed houtlived hrequests _ _ _ _ => exact iff_of_true ⟨_, hrequests⟩ houtlived
  | failed houtlived hrequests _ _ _ => exact iff_of_true ⟨_, hrequests⟩ houtlived

theorem same_or_requests (h : call.Answered feed) :
    call.after = call.before ∨ ∃ delivery, call.Requests feed.request delivery := by
  cases h with
  | kept _ _ hsame _ _ => exact .inl hsame
  | brought _ hrequests _ _ _ => exact .inr ⟨_, hrequests⟩
  | missed _ hrequests _ _ _ _ => exact .inr ⟨_, hrequests⟩
  | failed _ hrequests _ _ _ => exact .inr ⟨_, hrequests⟩

theorem of_brings {value : Float} (h : call.Answered feed)
    (hrequests : call.Requests feed.request delivery) (hbrings : Brings delivery value) :
    call.result = some (.ok value) ∧ call.learned = some ⟨value, call.asked⟩ := by
  cases h with
  | kept _ _ hsame _ _ => exact absurd hrequests (not_requests_of_same hsame _)
  | brought _ hother hfound hresult hnew =>
      cases hother.unique hrequests
      cases (read_eq_ok.mpr hfound).symm.trans (read_eq_ok.mpr hbrings)
      exact ⟨hresult, hnew⟩
  | missed _ hother hmisses _ _ _ =>
      cases hother.unique hrequests
      exact absurd hbrings (hmisses value)
  | failed _ hother hrange _ _ =>
      cases hother.unique hrequests
      cases (read_of_overflows hrange).symm.trans (read_eq_ok.mpr hbrings)

theorem of_misses (h : call.Answered feed)
    (hmisses : ∀ delivery value, call.Requests feed.request delivery → ¬Brings delivery value) :
    call.learned = feed.known ∧
      ((∀ delivery, call.Requests feed.request delivery → ¬Overflows delivery) →
        call.result = some (.ok feed.fallback)) := by
  cases h with
  | kept hknown _ _ hresult hkept =>
      refine ⟨hkept, fun _ => hresult.trans ?_⟩
      rw [fallback, hknown]
      rfl
  | brought _ hrequests hbrings _ _ => exact absurd hbrings (hmisses _ _ hrequests)
  | missed _ _ _ _ hresult hkept => exact ⟨hkept, fun _ => hresult⟩
  | failed _ hrequests hrange _ hkept => exact ⟨hkept, fun hnone => absurd hrange (hnone _ hrequests)⟩

theorem of_overflows (h : call.Answered feed) (hrequests : call.Requests feed.request delivery)
    (hrange : Overflows delivery) : call.result = some (.error .integerTooLarge) := by
  cases h with
  | kept _ _ hsame _ _ => exact absurd hrequests (not_requests_of_same hsame _)
  | brought _ hother hbrings _ _ =>
      cases hother.unique hrequests
      cases (read_of_overflows hrange).symm.trans (read_eq_ok.mpr hbrings)
  | missed _ hother _ hnot _ _ =>
      cases hother.unique hrequests
      exact absurd hrange hnot
  | failed _ _ _ hresult _ => exact hresult

end Call.Answered

/-- **A feed gives the last price that it has learned.** In any history of calls, a call asks for the
price exactly if none has been learned, or if the last one that has was asked for no less than its
lifetime ago. A price that a request brings is the result, and is what is known from then on. Otherwise
nothing changes of what is known, and the result is the last known price, or the standing one if there
has been none, unless an integer past the range of doubles stands for the price: then the call fails. -/
theorem gives_last_learned (hlawful : part.Lawful) (hasks : Asks part get) (hnew : feed.known = none)
    {newer earlier : List (Call τ)} (h : Calls part get feed (newer ++ call :: earlier) progress) :
    ∃ known, Learned feed.request earlier known ∧ call.known = known ∧
      (call.after = call.before ∨ ∃ delivery, call.Requests feed.request delivery) ∧
      ((∃ delivery, call.Requests feed.request delivery) ↔
        ∀ price, known = some price → price.isFresh feed.lifetime call.asked = false) ∧
      (∀ delivery value, call.Requests feed.request delivery → Brings delivery value →
        call.result = some (.ok value) ∧ call.learned = some ⟨value, call.asked⟩) ∧
      ((∀ delivery value, call.Requests feed.request delivery → ¬Brings delivery value) →
        call.learned = known ∧
          ((∀ delivery, call.Requests feed.request delivery → ¬Overflows delivery) →
            call.result = some (.ok ((known.map KnownPrice.value).getD feed.standing)))) ∧
      ∀ delivery, call.Requests feed.request delivery → Overflows delivery →
        call.result = some (.error .integerTooLarge) := by
  obtain ⟨known, hlearned, hknown, hanswered⟩ :=
    (h.answered hlawful hasks hnew).2 newer call earlier rfl
  exact ⟨known, hlearned, hknown, hanswered.same_or_requests, hanswered.requests_iff,
    fun _ _ => hanswered.of_brings, hanswered.of_misses, fun _ => hanswered.of_overflows⟩

theorem gives_last_learned_interrupted :
    let feed : PriceFeed Int := { standing := 150.0, lifetime := 600 }
    let interruption : Interruption := ⟨⟨"ConnectError", by decide⟩, ""⟩
    let script : Script := { prices := [{ reply := .body (priceBody 187) },
      { reply := .interruption interruption }] }
    ∃ last call final,
      Calls Session.feedPart (script.get Session.tracePart) feed [call, last] final ∧
      last.asked = 0 ∧ call.asked = Clock.seconds 600 ∧
      call.Requests feed.request (.interrupted interruption) ∧
      call.result = some (.ok 187.0) := by
  intro feed interruption script
  let get : PriceRequest → Routine Int (Session Int) Delivery := script.get Session.tracePart
  let start := sessionStart feed
  let first := run start (PriceFeed.price Session.feedPart.alone (observed get))
  let pausing : Progress Int (Session Int × Log) := { first.final with now := Clock.seconds 600 }
  let second := run pausing (PriceFeed.price Session.feedPart.alone (observed get))
  have hcalls : Calls Session.feedPart get feed
      ([] ++ .of Session.feedPart pausing second :: [.of Session.feedPart start first])
      second.final := .call (.idle (.call (.new rfl) rfl) rfl) rfl
  refine ⟨.of Session.feedPart start first, .of Session.feedPart pausing second, second.final, hcalls,
    rfl, rfl, ?_⟩
  obtain ⟨known, -, hknown, -, -, -, hmisses, -⟩ :=
    gives_last_learned lawful_feedPart (asks_script script) rfl hcalls
  have hrequests : (Call.of Session.feedPart pausing second).Requests feed.request
      (.interrupted interruption) := by
    unfold Call.Requests
    decide +kernel
  have hunquoted (quote : Json) : ¬Quotes (.interrupted interruption) quote :=
    fun ⟨_, _, _, h, _⟩ => nomatch h
  have hnothing (delivery : Delivery) (value : Float)
      (hother : (Call.of Session.feedPart pausing second).Requests feed.request delivery) :
      ¬Brings delivery value := by
    rintro ⟨quote, hquotes, -⟩
    cases hother.unique hrequests
    exact hunquoted quote hquotes
  have hrange (delivery : Delivery)
      (hother : (Call.of Session.feedPart pausing second).Requests feed.request delivery) :
      ¬Overflows delivery := by
    rintro ⟨amount, hquotes, -⟩
    cases hother.unique hrequests
    exact hunquoted _ hquotes
  have hgiven := (hmisses hnothing).2 hrange
  have hvalue : (Call.of Session.feedPart pausing second).known.map KnownPrice.value = some 187.0 := by
    decide +kernel
  rw [← hknown, hvalue] at hgiven
  exact ⟨hrequests, hgiven⟩

/-- The first call to a feed comes to what is read of the first reply. -/
theorem run_first (standing : Float) (body : Json) :
    let feed : PriceFeed Int := { standing }
    let script : Script := { prices := [{ reply := .body body }] }
    ∃ final, run (sessionStart feed) (PriceFeed.price Session.feedPart.alone
      (observed (script.get Session.tracePart))) =
        ⟨some (feed.settled 0 (read (.answered ⟨200, body.render⟩))).1, final⟩ := by
  intro feed script
  let start : Progress Int (Session Int × Log) := sessionStart feed
  let trace : Traced Int := { lookUps := [(0, feed.request)] }
  let answered : Progress Int (Session Int × Log) := { start with
    turn := 2
    state := ({ client := .new {}, feed, trace },
      [.brought (.answered ⟨200, body.render⟩), .asked feed.request]) }
  have hfeed : Session.feedPart.get answered.state.1 = feed := rfl
  obtain ⟨final, hfinishes, -⟩ := finishes_settle lawful_feedPart hfeed 0
    (read (.answered ⟨200, body.render⟩))
  exact ⟨final, hfinishes.run⟩

theorem fails_of_large {amount : Int} (hplain : (priceBody amount).isPlain = true)
    (hlarge : Number.doubleOfInt? amount = none) (standing : Float) :
    let feed : PriceFeed Int := { standing }
    let script : Script := { prices := [{ reply := .body (priceBody amount) }] }
    ∃ call final, Calls Session.feedPart (script.get Session.tracePart) feed [call] final ∧
      call.result = some (.error .integerTooLarge) := by
  obtain ⟨final, hrun⟩ := run_first standing (priceBody amount)
  rw [read_of_overflows ⟨amount, quotes_priceBody hplain, hlarge⟩] at hrun
  exact ⟨_, final, .call (.new rfl) hrun, rfl⟩

/-- An amount past the range of doubles fails the call, though there is a standing price. -/
theorem fails_past_doubles :
    let feed : PriceFeed Int := { standing := 150.0 }
    let script : Script := { prices := [{ reply := .body (priceBody (Number.tenTo 400 : Nat)) }] }
    ∃ call final, Calls Session.feedPart (script.get Session.tracePart) feed [call] final ∧
      call.result = some (.error .integerTooLarge) := by
  have hplain : (priceBody (Number.tenTo 400 : Nat)).isPlain = true := by decide +kernel
  exact fails_of_large hplain (Number.doubleOfInt?_tenTo_eq_none.mpr (by decide)) 150.0

end ProgramAudit.Endpoint.PriceFeed
