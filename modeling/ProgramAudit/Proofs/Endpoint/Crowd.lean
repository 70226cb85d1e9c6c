import Mathlib.Data.List.Forall2
import Mathlib.Logic.Relation
import ProgramAudit.Proofs.Endpoint.Visit

/-!
A crowd at a limiter. Anybody may come at any time; whoever is there goes on when it is their turn,
fails, or gives up wherever they wait, and time passes in between. However they are interleaved, all
who are there have their share in the books of the limiter, and its starts are recorded.
-/

namespace ProgramAudit.Endpoint

open Routine

structure Crowd (τ σ α : Type) where
  scene : Scene τ σ
  stages : List (Stage τ σ α) := []

variable {τ σ α : Type} [Clock τ] (part : Part σ (Limiter τ))

/-- One step of a crowd: time passes, somebody comes whose body does not touch the limiter, or one
of those who are there does something. -/
inductive Crowd.Step : Crowd τ σ α → Crowd τ σ α → Prop where
  | pass {crowd : Crowd τ σ α} {time : τ}
    (htime : Clock.notAfter crowd.scene.progress.now time = true) :
    Step crowd { crowd with scene := { crowd.scene with
      progress := { crowd.scene.progress with now := time } } }
  | come {crowd : Crowd τ σ α} {body : Routine τ σ α} (hbody : Spares part.get body) :
    Step crowd { crowd with stages := .queued (Limiter.awaitPermit part) body :: crowd.stages }
  | visit {scene scene' : Scene τ σ} {before after : List (Stage τ σ α)} {stage : Stage τ σ α}
    {next : Option (Stage τ σ α)} (hvisit : Visit part scene stage scene' next) :
    Step ⟨scene, before ++ stage :: after⟩ ⟨scene', before ++ next.toList ++ after⟩

/-- What a crowd may come to, in any number of steps. -/
def Crowd.Run : Crowd τ σ α → Crowd τ σ α → Prop := Relation.ReflTransGen (Crowd.Step part)

section LastStart

variable {τ : Type} (limiter : Limiter τ) (call : Turn τ) (ticket : Nat)

theorem lastStart_enter : (limiter.enter ticket).lastStart = limiter.lastStart := by
  unfold Limiter.enter
  split <;> rfl

theorem lastStart_grant : (limiter.grant call).lastStart = limiter.lastStart := by
  unfold Limiter.grant
  split <;> rfl

theorem lastStart_proceed : (limiter.proceed call ticket).lastStart = limiter.lastStart := by
  unfold Limiter.proceed
  simp only
  split
  · exact lastStart_grant _ call
  · rfl

theorem lastStart_giveUp : (limiter.giveUp call ticket).lastStart = limiter.lastStart := by
  unfold Limiter.giveUp
  simp only
  split
  · exact lastStart_grant _ call
  · rfl

theorem lastStart_enterGate : (limiter.enterGate ticket).lastStart = limiter.lastStart := by
  unfold Limiter.enterGate
  split <;> rfl

theorem lastStart_giveUpGate : (limiter.giveUpGate call ticket).lastStart = limiter.lastStart := by
  unfold Limiter.giveUpGate
  simp only
  split <;> rfl

end LastStart

/-! ### What visitors hold -/

/-- How many permits are in the hands of somebody at a stage. -/
def Stage.held : Stage τ σ α → Nat
  | .queued (.settle _ _) _ => 1
  | .queued _ _ => 0
  | _ => 1

def Stage.isInside : Stage τ σ α → Bool
  | .inside _ => true
  | _ => false

/-- The permits of those who have gone with one. -/
def Share.astray (count : Nat) : Share τ := { permits := count }

omit [Clock τ] in
theorem Share.astray_succ (count : Nat) :
    (Share.astray (count + 1) : Share τ) = .permit + .astray count := by
  ext1
  · rfl
  · exact Nat.add_comm count 1
  · rfl
  · rfl

def lastStartOf (state : σ) : τ := (part.get state).lastStart

variable {part} (setting : Setting τ σ)

/-- With this share somebody at a stage goes on as the others expect. Only who records a start
changes the last one, and the body does not touch the limiter. -/
def Stage.Has (share : Share τ) (stage : Stage τ σ α) : Prop :=
  share.permits = stage.held ∧
    match stage with
    | .queued rest body =>
      Stands setting.books (permitTerms τ) share rest ∧ Spares (lastStartOf setting.part) rest ∧
        Spares setting.part.get body
    | .gating rest body =>
      Stands setting.books (gateTerms τ) share rest ∧ Spares (lastStartOf setting.part) rest ∧
        Spares setting.part.get body
    | .resting rest body =>
      Stands setting.books (spanTerms setting) share rest ∧
        Spares (lastStartOf setting.part) rest ∧ Spares setting.part.get body
    | .inside rest => share = .permit ∧ Spares setting.part.get rest

/-- Who has gone holds nothing. -/
def Stage.NextHas (share : Share τ) : Option (Stage τ σ α) → Prop
  | some stage => stage.Has setting share
  | none => share = 0

/-- The books of a scene, with the shares of all who are there. -/
def Scene.Balanced (scene : Scene τ σ) (total : Share τ) : Prop :=
  setting.books.holds (total + .astray scene.lost) scene.progress.now scene.progress.turn
    scene.progress.state

variable {setting}

theorem lastStartOf_modify {update : Limiter τ → Limiter τ}
    (hupdate : ∀ limiter, (update limiter).lastStart = limiter.lastStart) (state : σ) :
    lastStartOf setting.part (setting.part.modify update state) =
      lastStartOf setting.part state := by
  rw [lastStartOf, setting.lawful.get_modify]
  exact hupdate _

theorem spares_awaitPermit :
    Spares (lastStartOf setting.part) (Limiter.awaitPermit setting.part) := by
  intro _ ticket
  refine ⟨lastStartOf_modify fun limiter => lastStart_enter limiter ticket, fun state => ?_⟩
  change Spares _ (if _ then _ else _)
  split
  · trivial
  · refine ⟨fun now turn => lastStartOf_modify fun limiter =>
      lastStart_giveUp limiter (now, turn) ticket, fun now turn => ?_⟩
    exact ⟨lastStartOf_modify fun limiter => lastStart_proceed limiter (now, turn) ticket,
      fun _ => trivial⟩

theorem spares_awaitGate : Spares (lastStartOf setting.part) (Limiter.awaitGate setting.part) := by
  intro _ ticket
  refine ⟨lastStartOf_modify fun limiter => lastStart_enterGate limiter ticket, fun state => ?_⟩
  change Spares _ (if _ then _ else _)
  split
  · trivial
  · refine ⟨fun now turn => lastStartOf_modify fun limiter =>
      lastStart_giveUpGate limiter (now, turn) ticket, ?_⟩
    exact ⟨lastStartOf_modify fun limiter => rfl, fun _ => trivial⟩

theorem spares_awaitSpan : Spares (lastStartOf setting.part) (Limiter.awaitSpan setting.part) := by
  rw [awaitSpan_eq]
  intro now _
  refine ⟨fun _ => rfl, fun state => ?_⟩
  change Spares _ (Routine.bind sleepOff (ofResult ((setting.part.get state).delay now)))
  cases (setting.part.get state).delay now with
  | error failure => trivial
  | ok rest =>
      change Spares _ (sleepOff rest)
      unfold sleepOff
      split
      · exact fun _ _ => ⟨fun _ _ _ => rfl, fun _ _ => ⟨fun _ _ _ => rfl, trivial⟩⟩
      · trivial

/-! ### One visit -/

section Visits

variable {scene scene' : Scene τ σ} {stage : Stage τ σ α} {next : Option (Stage τ σ α)}
  {share others : Share τ}

/-- A leg of a routine leaves its holder with a share for which the routine stands. -/
theorem Scene.Balanced.leg {terms : Terms Unit (Share τ)} {rest rest' : Routine τ σ Unit}
    {progress : Progress τ σ} (h : scene.Balanced setting (share + others))
    (hstands : Stands setting.books terms share rest)
    (hleg : Reaches scene.progress rest progress rest') (hstanding : rest'.Standing) :
    ∃ share', Scene.Balanced setting { scene with progress } (share' + others) ∧
      Stands setting.books terms share' rest' ∧
      ((∃ result, rest' = .settle result .halt ∧ terms.settled result share') ∨
        (∃ due abandon next, rest' = .wait due abandon next) ∧ terms.during share') := by
  rw [Scene.Balanced, add_assoc] at h
  obtain ⟨share', hholds, hrest⟩ := (hleg.keeps (hstands _ _ _ _ h)).standing hstanding
  exact ⟨share', by rwa [Scene.Balanced, add_assoc], hrest⟩

/-- The share that a routine leaves behind when a wait is given up. -/
theorem Scene.Balanced.abandon {terms : Terms Unit (Share τ)} {due : σ → Option (Turn τ)}
    {abandon : τ → Nat → σ → σ} {rest : Routine τ σ Unit}
    (h : scene.Balanced setting (share + others))
    (hstands : Stands setting.books terms share (.wait due abandon rest)) :
    ∃ left, terms.left left ∧ (scene.taking abandon).Balanced setting (left + others) ∧
      setting.books.holds (left + (others + .astray scene.lost)) scene.progress.now
        scene.progress.turn (abandon scene.progress.now scene.progress.turn
          scene.progress.state) := by
  rw [Scene.Balanced, add_assoc] at h
  obtain ⟨own, -, hholds, hwait⟩ := hstands _ _ _ _ h
  obtain ⟨⟨left, hleft, hgone⟩, -⟩ := hwait _ _ _ _ hholds
  refine ⟨left, hleft, ?_, hgone⟩
  rw [Scene.Balanced, add_assoc]
  exact setting.books.holds_turn hgone

theorem Scene.Balanced.settled {terms : Terms Unit (Share τ)} {result : Result Unit}
    (h : scene.Balanced setting (share + others))
    (hstands : Stands setting.books terms share (.settle result .halt)) :
    ∃ own, terms.settled result own ∧ scene.Balanced setting (own + others) := by
  rw [Scene.Balanced, add_assoc] at h
  obtain ⟨-, own, hown, hholds⟩ := hstands _ _ _ _ h
  exact ⟨own, hown, by rwa [Scene.Balanced, add_assoc]⟩

/-- A step on the limiter that moves a share. -/
theorem Scene.Balanced.taking {own own' : Share τ} {update : τ → Nat → Limiter τ → Limiter τ}
    (h : scene.Balanced setting (own + others))
    (hupdate : ∀ others now turn limiter,
      Accounts setting.pace setting.permits setting.spacing (own + others) now turn limiter →
        Accounts setting.pace setting.permits setting.spacing (own' + others) now turn
          (update now turn limiter)) :
    (scene.taking fun now turn => setting.part.modify (update now turn)).Balanced setting
      (own' + others) := by
  rw [Scene.Balanced, add_assoc] at h ⊢
  exact setting.books.holds_turn (holds_modify h (hupdate _ _ _ _))

/-- Who goes with a permit in hand is counted as lost. -/
theorem Scene.Balanced.losing (h : scene.Balanced setting (.permit + others)) :
    scene.losing.Balanced setting (0 + others) := by
  change setting.books.holds (0 + others + .astray (scene.lost + 1)) _ _ _
  rw [Share.astray_succ, zero_add, add_left_comm, ← add_assoc]
  exact h

theorem Scene.Balanced.leaveGate {known : τ → τ → Prop}
    (h : scene.Balanced setting (.permit + .gate known + others)) :
    (scene.taking (releaseGate setting.part)).Balanced setting (.permit + others) := by
  refine h.taking fun others now turn limiter hbooks => ?_
  rw [add_assoc, add_left_comm] at hbooks
  exact hbooks.leaveGate

theorem Scene.Balanced.leave (h : scene.Balanced setting (.permit + others)) :
    (scene.taking (releasePermit setting.part)).Balanced setting (0 + others) := by
  refine h.taking fun others now turn limiter hbooks => ?_
  rw [zero_add]
  exact hbooks.leave

/-- The books do not depend on what else is in the state. -/
theorem holds_of_get (haside : ∀ state, setting.aside state) {now : τ} {turn : Nat}
    {state state' : σ} (hget : setting.part.get state' = setting.part.get state)
    (h : setting.books.holds share now turn state) : setting.books.holds share now turn state' :=
  ⟨hget ▸ h.1, haside state'⟩

/-- Whatever a visitor does keeps the books. -/
theorem Visit.balanced (haside : ∀ state, setting.aside state)
    (h : Visit setting.part scene stage scene' next)
    (hhas : stage.Has setting share) (hscene : scene.Balanced setting (share + others)) :
    ∃ share', Stage.NextHas setting share' next ∧ scene'.Balanced setting (share' + others) := by
  cases h with
  | queue hleg hstanding =>
      obtain ⟨hheld, hstands, hspares, hbody⟩ := hhas
      obtain ⟨own, hbalanced, hstands', hform⟩ := hscene.leg hstands hleg hstanding
      refine ⟨own, ⟨?_, hstands', (hleg.spares hspares).1, hbody⟩, hbalanced⟩
      rcases hform with ⟨result, rfl, -, rfl⟩ | ⟨⟨due, abandon, rest, rfl⟩, hnone⟩
      · rfl
      · exact hnone
  | gate hleg hstanding =>
      obtain ⟨hheld, hstands, hspares, hbody⟩ := hhas
      obtain ⟨own, hbalanced, hstands', hform⟩ := hscene.leg hstands hleg hstanding
      refine ⟨own, ⟨?_, hstands', (hleg.spares hspares).1, hbody⟩, hbalanced⟩
      rcases hform with ⟨result, rfl, -, rfl⟩ | ⟨-, hone⟩
      · rfl
      · exact hone
  | rest hleg hstanding =>
      obtain ⟨hheld, hstands, hspares, hbody⟩ := hhas
      obtain ⟨own, hbalanced, hstands', hform⟩ := hscene.leg hstands hleg hstanding
      refine ⟨own, ⟨?_, hstands', (hleg.spares hspares).1, hbody⟩, hbalanced⟩
      rcases hform with ⟨failure | ⟨⟩, rfl, hsettled⟩ | ⟨-, hone⟩
      · obtain ⟨-, known, rfl⟩ := hsettled
        rfl
      · rw [show own = .permit + .gate (IsOver setting) from hsettled]
        rfl
      · exact hone
  | go hleg =>
      obtain ⟨-, rfl, hspares⟩ := hhas
      refine ⟨.permit, ⟨rfl, rfl, (hleg.spares hspares).1⟩, ?_⟩
      exact hleg.holds (fun _ _ _ _ _ => holds_of_get haside) hspares hscene
  | toGate hspaced =>
      obtain ⟨-, hstands, -, hbody⟩ := hhas
      obtain ⟨own, ⟨-, rfl⟩, hbalanced⟩ := hscene.settled hstands
      exact ⟨.permit, ⟨rfl, stands_awaitGate, spares_awaitGate, hbody⟩, hbalanced⟩
  | straightIn hspaced =>
      obtain ⟨-, hstands, -, hbody⟩ := hhas
      obtain ⟨own, ⟨-, rfl⟩, hbalanced⟩ := hscene.settled hstands
      exact ⟨.permit, ⟨rfl, rfl, hbody⟩, hbalanced⟩
  | toSpan =>
      obtain ⟨-, hstands, -, hbody⟩ := hhas
      obtain ⟨own, ⟨-, rfl⟩, hbalanced⟩ := hscene.settled hstands
      exact ⟨_, ⟨rfl, stands_awaitSpan, spares_awaitSpan, hbody⟩, hbalanced⟩
  | start =>
      obtain ⟨-, hstands, -, hbody⟩ := hhas
      obtain ⟨own, rfl, hbalanced⟩ := hscene.settled hstands
      have hstart : (scene.starting.admitting.taking fun now _ =>
          setting.part.modify (Limiter.start now)).Balanced setting
            (.permit + .gate (fun _ _ => True) + others) := by
        have hbase : scene.starting.admitting.Balanced setting
            (.permit + .gate (IsOver setting) + others) := hbalanced
        refine hbase.taking fun others now turn limiter hbooks => ?_
        rw [add_assoc, add_left_comm] at hbooks ⊢
        exact hbooks.start fun _ _ => trivial
      exact ⟨.permit, ⟨rfl, rfl, hbody⟩, hstart.leaveGate⟩
  | breakOff =>
      obtain ⟨-, hstands, -, hbody⟩ := hhas
      obtain ⟨own, ⟨-, known, rfl⟩, hbalanced⟩ := hscene.settled hstands
      exact ⟨0, rfl, hbalanced.leaveGate.losing⟩
  | finish =>
      obtain ⟨-, rfl, -⟩ := hhas
      exact ⟨0, rfl, hscene.leave⟩
  | leaveQueue =>
      obtain ⟨-, hstands, -, -⟩ := hhas
      obtain ⟨left, rfl, hbalanced, -⟩ := hscene.abandon hstands
      exact ⟨0, rfl, hbalanced⟩
  | leaveGate =>
      obtain ⟨-, hstands, -, -⟩ := hhas
      obtain ⟨left, rfl, hbalanced, -⟩ := hscene.abandon hstands
      exact ⟨0, rfl, hbalanced.losing⟩
  | @leaveSpan _ abandon =>
      obtain ⟨-, hstands, -, -⟩ := hhas
      obtain ⟨left, ⟨known, rfl⟩, -, hgone⟩ := hscene.abandon hstands
      have hleft : Scene.Balanced setting (scene.taking fun now turn state =>
          releaseGate setting.part now turn (abandon now turn state)) (.permit + others) := by
        rw [Scene.Balanced, add_assoc]
        refine setting.books.holds_turn (holds_modify hgone fun hbooks => ?_)
        rw [add_assoc, add_left_comm] at hbooks
        exact hbooks.leaveGate
      exact ⟨0, rfl, hleft.losing⟩
  | leaveBody =>
      obtain ⟨-, rfl, hspares⟩ := hhas
      rw [Scene.Balanced, add_assoc] at hscene
      have hgone := holds_of_get haside
        (hspares.1 scene.progress.now scene.progress.turn scene.progress.state) hscene
      refine ⟨0, rfl, ?_⟩
      rw [zero_add]
      exact setting.books.holds_turn (holds_modify hgone fun hbooks => hbooks.leave)

/-! ### Starts -/

/-- The recorded starts keep their distance, the last one is the one that the limiter knows, and if
starts are spaced there is one for everyone who has come inside. -/
structure Scene.Recorded (setting : Setting τ σ) (scene : Scene τ σ) : Prop where
  chain : scene.starts.IsChain fun later earlier => IsOver setting earlier later
  last : ∀ start ∈ scene.starts.head?, lastStartOf setting.part scene.progress.state = start
  count : Number.less 0 setting.spacing = true → scene.starts.length = scene.admitted

theorem Scene.Recorded.of_lastStart (h : scene.Recorded setting)
    (hstarts : scene'.starts = scene.starts) (hadmitted : scene'.admitted = scene.admitted)
    (hlast : lastStartOf setting.part scene'.progress.state =
      lastStartOf setting.part scene.progress.state) : scene'.Recorded setting where
  chain := by rw [hstarts]; exact h.chain
  last := by rw [hstarts, hlast]; exact h.last
  count := by rw [hstarts, hadmitted]; exact h.count

theorem lastStartOf_releasePermit (now : τ) (turn : Nat) (state : σ) :
    lastStartOf setting.part (releasePermit setting.part now turn state) =
      lastStartOf setting.part state :=
  lastStartOf_modify (fun limiter => lastStart_grant { limiter with free := limiter.free + 1 }
    (now, turn)) state

theorem lastStartOf_releaseGate (now : τ) (turn : Nat) (state : σ) :
    lastStartOf setting.part (releaseGate setting.part now turn state) =
      lastStartOf setting.part state := by
  refine lastStartOf_modify (fun limiter => ?_) state
  rfl

/-- A start comes after the span since the one before is over. -/
theorem Scene.Recorded.start (h : scene.Recorded setting)
    (hover : IsOver setting (lastStartOf setting.part scene.progress.state) scene.progress.now) :
    (((scene.starting.admitting.taking fun now _ => setting.part.modify (Limiter.start now)).taking
      (releaseGate setting.part))).Recorded setting where
  chain := by
    have hchain := h.chain
    have hlast := h.last
    change List.IsChain _ (scene.progress.now :: scene.starts)
    cases hstarts : scene.starts with
    | nil => exact .singleton _
    | cons start earlier =>
        rw [hstarts] at hchain hlast
        rw [hlast start rfl] at hover
        exact List.isChain_cons_cons.mpr ⟨hover, hchain⟩
  last := by
    rintro start ⟨⟩
    refine (lastStartOf_releaseGate _ _ _).trans ?_
    change lastStartOf setting.part (setting.part.modify _ _) = _
    rw [lastStartOf, setting.lawful.get_modify]
    rfl
  count hspaced := congrArg (· + 1) (h.count hspaced)

/-- Only who is done with the gate records a start. -/
theorem Visit.recorded (h : Visit setting.part scene stage scene' next)
    (hhas : stage.Has setting share) (hscene : scene.Balanced setting (share + others))
    (hrecorded : scene.Recorded setting) : scene'.Recorded setting := by
  cases h with
  | queue hleg hstanding => exact hrecorded.of_lastStart rfl rfl (hleg.spares hhas.2.2.1).2
  | gate hleg hstanding => exact hrecorded.of_lastStart rfl rfl (hleg.spares hhas.2.2.1).2
  | rest hleg hstanding => exact hrecorded.of_lastStart rfl rfl (hleg.spares hhas.2.2.1).2
  | go hleg =>
      have hget := (hleg.spares hhas.2.2).2
      exact hrecorded.of_lastStart rfl rfl (congrArg Limiter.lastStart hget)
  | toGate hspaced => exact hrecorded
  | straightIn hspaced =>
      have hunspaced : Number.less 0 setting.spacing = false := by
        rw [← hscene.1.spaced]
        exact hspaced
      refine ⟨hrecorded.chain, hrecorded.last, fun h => ?_⟩
      rw [hunspaced] at h
      cases h
  | toSpan => exact hrecorded
  | start =>
      obtain ⟨own, rfl, hbalanced⟩ := hscene.settled hhas.2.1
      refine hrecorded.start ?_
      rw [Scene.Balanced, add_assoc] at hbalanced
      exact known_of_holds hbalanced
  | breakOff => exact hrecorded.of_lastStart rfl rfl (lastStartOf_releaseGate _ _ _)
  | finish => exact hrecorded.of_lastStart rfl rfl (lastStartOf_releasePermit _ _ _)
  | leaveQueue => exact hrecorded.of_lastStart rfl rfl (hhas.2.2.1.1 _ _ _)
  | leaveGate => exact hrecorded.of_lastStart rfl rfl (hhas.2.2.1.1 _ _ _)
  | leaveSpan =>
      exact hrecorded.of_lastStart rfl rfl
        ((lastStartOf_releaseGate _ _ _).trans (hhas.2.2.1.1 _ _ _))
  | leaveBody =>
      exact hrecorded.of_lastStart rfl rfl ((lastStartOf_releasePermit _ _ _).trans
        (congrArg Limiter.lastStart (hhas.2.2.1 _ _ _)))

end Visits

/-! ### Whole runs -/

/-- Somebody among those who are there has a share, and may go on with another one or go. -/
theorem exists_share {before after : List (Stage τ σ α)} {stage : Stage τ σ α}
    {shares : List (Share τ)}
    (h : List.Forall₂ (Stage.Has setting) shares (before ++ stage :: after)) :
    ∃ share others, stage.Has setting share ∧ shares.sum = share + others ∧
      ∀ share' next, Stage.NextHas setting share' next →
        ∃ shares' : List (Share τ),
          List.Forall₂ (Stage.Has setting) shares' (before ++ next.toList ++ after) ∧
            shares'.sum = share' + others := by
  induction before generalizing shares with
  | nil =>
      obtain ⟨share, rest, hshare, hrest, rfl⟩ := List.forall₂_cons_right_iff.mp h
      refine ⟨share, rest.sum, hshare, List.sum_cons, fun share' next hnext => ?_⟩
      cases next with
      | none => exact ⟨rest, hrest, by rw [show share' = 0 from hnext, zero_add]⟩
      | some stage' => exact ⟨share' :: rest, .cons hnext hrest, List.sum_cons⟩
  | cons first before ih =>
      obtain ⟨held, rest, hheld, hrest, rfl⟩ := List.forall₂_cons_right_iff.mp h
      obtain ⟨share, others, hshare, hsum, hgo⟩ := ih hrest
      refine ⟨share, held + others, hshare, ?_, fun share' next hnext => ?_⟩
      · rw [List.sum_cons, hsum, add_left_comm]
      · obtain ⟨shares', hshares', hsum'⟩ := hgo share' next hnext
        exact ⟨held :: shares', .cons hheld hshares', by rw [List.sum_cons, hsum', add_left_comm]⟩

/-- What is true of a crowd at every moment: all who are there have their share in the books, and
the starts are recorded. -/
structure Crowd.Sound (setting : Setting τ σ) (crowd : Crowd τ σ α) : Prop where
  balanced : ∃ shares : List (Share τ), List.Forall₂ (Stage.Has setting) shares crowd.stages ∧
    crowd.scene.Balanced setting shares.sum
  recorded : crowd.scene.Recorded setting

variable {crowd crowd' : Crowd τ σ α}

theorem Crowd.Step.sound (haside : ∀ state, setting.aside state)
    (hstep : Crowd.Step setting.part crowd crowd') (h : crowd.Sound setting) :
    crowd'.Sound setting := by
  obtain ⟨⟨shares, hshares, hbalanced⟩, hrecorded⟩ := h
  cases hstep with
  | pass htime =>
      have hlater := setting.books.holds_time (setting.pace.of_notAfter htime) hbalanced
      exact ⟨⟨shares, hshares, hlater⟩, hrecorded.of_lastStart rfl rfl rfl⟩
  | @come crowd body hbody =>
      have hqueued : Stage.Has setting 0 (.queued (Limiter.awaitPermit setting.part) body) :=
        ⟨rfl, stands_awaitPermit, spares_awaitPermit, hbody⟩
      refine ⟨⟨0 :: shares, .cons hqueued hshares, ?_⟩, hrecorded⟩
      rwa [List.sum_cons, zero_add]
  | @visit scene scene' before after stage next hvisit =>
      obtain ⟨share, others, hshare, hsum, hgo⟩ := exists_share hshares
      rw [hsum] at hbalanced
      obtain ⟨share', hnext, hbalanced'⟩ := hvisit.balanced haside hshare hbalanced
      obtain ⟨shares', hshares', hsum'⟩ := hgo share' next hnext
      rw [← hsum'] at hbalanced'
      exact ⟨⟨shares', hshares', hbalanced'⟩, hvisit.recorded hshare hbalanced hrecorded⟩

theorem Crowd.Run.sound (haside : ∀ state, setting.aside state)
    (hrun : Crowd.Run setting.part crowd crowd') (h : crowd.Sound setting) :
    crowd'.Sound setting := by
  induction hrun with
  | refl => exact h
  | tail _ hstep ih => exact hstep.sound haside ih

end ProgramAudit.Endpoint
