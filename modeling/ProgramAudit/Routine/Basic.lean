import ProgramAudit.Failure
import ProgramAudit.Journal.Record

/-!
Concurrent computations as data. A routine is a tree of steps, and running two at once merges their
steps by the turns at which they wait, so a schedule is a function of the routines alone.
-/

namespace ProgramAudit

/-- A scale of moments: delays can be added and moments compared. -/
class Clock (τ : Type) extends Add τ, Sub τ where
  notAfter : τ → τ → Bool
  seconds : Number → τ

instance : Clock Float where
  notAfter left right := left ≤ right
  seconds := Number.toReal

/-- The length of a span; an integer past the range of doubles has none. -/
def Clock.span [Clock τ] (span : Number) : Result τ :=
  if span.toReal?.isSome then .ok (Clock.seconds span) else .error .integerTooLarge

/-- A moment and the turn at that moment; turns are numbered in the order in which they are taken. -/
abbrev Turn (τ : Type) := τ × Nat

def Turn.before [Clock τ] (left right : Turn τ) : Bool :=
  if Clock.notAfter left.1 right.1 then
    if Clock.notAfter right.1 left.1 then left.2 < right.2 else true
  else false

/-- The earlier of two turns that may never come. -/
def Turn.earliest? [Clock τ] : Option (Turn τ) → Option (Turn τ) → Option (Turn τ)
  | none, right => right
  | left, none => left
  | some left, some right => some (if Turn.before right left then right else left)

/-- A concurrent computation over a shared state, seen from outside: it updates the state, writes
records, asks for the current turn, waits, and settles with a result. What goes on after it has
settled is work that nobody waits for. -/
inductive Routine (τ σ α : Type) where
  | halt
  | settle (result : Result α) (rest : Routine τ σ α)
  | act (update : σ → σ) (next : σ → Routine τ σ α)
  | record (entry : Journal.Record) (next : Routine τ σ α)
  | moment (next : τ → Nat → Routine τ σ α)
  | wait (due : σ → Option (Turn τ)) (abandon : τ → Nat → σ → σ) (next : Routine τ σ α)

namespace Routine

variable {τ σ α β : Type}

def succeed (value : α) : Routine τ σ α := .settle (.ok value) .halt

def fail (failure : Failure) : Routine τ σ α := .settle (.error failure) .halt

def ofResult (result : Result α) : Routine τ σ α := .settle result .halt

def mapResult (f : Result α → Result β) : Routine τ σ α → Routine τ σ β
  | .halt => .halt
  | .settle result rest => .settle (f result) (rest.mapResult f)
  | .act update next => .act update fun state => (next state).mapResult f
  | .record entry next => .record entry (next.mapResult f)
  | .moment next => .moment fun now turn => (next now turn).mapResult f
  | .wait due abandon next => .wait due abandon (next.mapResult f)

def map (f : α → β) : Routine τ σ α → Routine τ σ β := mapResult (Except.map f)

/-- The failure becomes part of the value. -/
def attempt : Routine τ σ α → Routine τ σ (Result α) := mapResult .ok

/-- The effects without the results. -/
def silence : Routine τ σ α → Routine τ σ β
  | .halt => .halt
  | .settle _ rest => rest.silence
  | .act update next => .act update fun state => (next state).silence
  | .record entry next => .record entry next.silence
  | .moment next => .moment fun now turn => (next now turn).silence
  | .wait due abandon next => .wait due abandon next.silence

/-- The left routine waits; the right one goes on until it waits too, and then the one that is due
first goes on. -/
def mergeWaiting [Clock τ] (due : σ → Option (Turn τ)) (abandon : τ → Nat → σ → σ)
    (left : Routine τ σ β → Routine τ σ (α ⊕ β)) : Routine τ σ β → Routine τ σ (α ⊕ β)
  | .halt => .wait due abandon (left .halt)
  | .settle result rest => .settle (result.map .inr) (mergeWaiting due abandon left rest)
  | .act update next => .act update fun state => mergeWaiting due abandon left (next state)
  | .record entry next => .record entry (mergeWaiting due abandon left next)
  | .moment next => .moment fun now turn => mergeWaiting due abandon left (next now turn)
  | .wait due' abandon' next =>
    .wait (fun state => Turn.earliest? (due state) (due' state))
      (fun now turn state => abandon' now turn (abandon now turn state))
      (.act id fun state =>
        match due state, due' state with
        | some turn, some turn' =>
          if Turn.before turn' turn then mergeWaiting due abandon left next
          else left (.wait due' abandon' next)
        | some _, none => left (.wait due' abandon' next)
        | none, _ => mergeWaiting due abandon left next)

/-- Two routines side by side; each keeps its own results. -/
def merge [Clock τ] : Routine τ σ α → Routine τ σ β → Routine τ σ (α ⊕ β)
  | .halt => fun right => right.map .inr
  | .settle result rest => fun right => .settle (result.map .inl) (merge rest right)
  | .act update next => fun right => .act update fun state => merge (next state) right
  | .record entry next => fun right => .record entry (merge next right)
  | .moment next => fun right => .moment fun now turn => merge (next now turn) right
  | .wait due abandon next => fun right => mergeWaiting due abandon (merge next) right

def onlyRight : Routine τ σ (α ⊕ β) → Routine τ σ β
  | .halt => .halt
  | .settle (.ok (.inr value)) rest => .settle (.ok value) rest.onlyRight
  | .settle (.ok (.inl _)) rest => rest.onlyRight
  | .settle (.error failure) rest => .settle (.error failure) rest.onlyRight
  | .act update next => .act update fun state => (next state).onlyRight
  | .record entry next => .record entry next.onlyRight
  | .moment next => .moment fun now turn => (next now turn).onlyRight
  | .wait due abandon next => .wait due abandon next.onlyRight

/-- A routine beside work in the background that nobody waits for. -/
def beside [Clock τ] (background : Routine τ σ Empty) (routine : Routine τ σ α) :
    Routine τ σ α :=
  match background with
  | .halt => routine
  | background => (merge background routine).onlyRight

def bind [Clock τ] (f : α → Routine τ σ β) : Routine τ σ α → Routine τ σ β
  | .halt => .halt
  | .settle (.ok value) rest => beside rest.silence (f value)
  | .settle (.error failure) rest => .settle (.error failure) rest.silence
  | .act update next => .act update fun state => (next state).bind f
  | .record entry next => .record entry (next.bind f)
  | .moment next => .moment fun now turn => (next now turn).bind f
  | .wait due abandon next => .wait due abandon (next.bind f)

instance [Clock τ] : Monad (Routine τ σ) where
  pure := succeed
  bind routine f := routine.bind f

/-- The first failure that is seen settles the routine by another one. -/
def rescue [Clock τ] (handle : Failure → Routine τ σ α) (routine : Routine τ σ α) :
    Routine τ σ α :=
  routine.attempt.bind fun result =>
    match result with
    | .ok value => succeed value
    | .error failure => handle failure

def note (entry : Journal.Record) : Routine τ σ Unit := .record entry (succeed ())

def notes (entries : List Journal.Record) : Routine τ σ Unit :=
  entries.foldr .record (succeed ())

def modify (update : σ → σ) : Routine τ σ Unit := .act update fun _ => succeed ()

/-- Reads and updates the shared state in one step. -/
def step (update : σ → α × σ) : Routine τ σ α :=
  .act (fun state => (update state).2) fun state => succeed (update state).1

def now : Routine τ σ τ := .moment fun now _ => succeed now

/-- Leaves the state as it is when the waiting ends early. -/
def leave : τ → Nat → σ → σ := fun _ _ state => state

/-- Lets every routine go on that has its turn before. -/
def yielding (routine : Routine τ σ α) : Routine τ σ α :=
  .moment fun now turn => .wait (fun _ => some (now, turn)) leave routine

def pause : Routine τ σ Unit := yielding (succeed ())

/-- Waits for a span of time; a span of nothing is one turn. -/
def sleepFor [Clock τ] (span : τ) : Routine τ σ Unit :=
  .moment fun now turn => .wait (fun _ => some (now + span, turn)) leave pause

def sleep [Clock τ] (delay : Number) : Routine τ σ Unit :=
  if delay.atMost 0 then pause else sleepFor (Clock.seconds delay)

/-- Records written by the routine carry the name of a stage. -/
def inStage (stage : String) : Routine τ σ α → Routine τ σ α
  | .halt => .halt
  | .settle result rest => .settle result (rest.inStage stage)
  | .act update next => .act update fun state => (next state).inStage stage
  | .record entry next => .record (entry.inStage stage) (next.inStage stage)
  | .moment next => .moment fun now turn => (next now turn).inStage stage
  | .wait due abandon next => .wait due abandon (next.inStage stage)

/-- The result is seen one turn after it is there. -/
def settleLater : Routine τ σ α → Routine τ σ α
  | .halt => .halt
  | .settle result rest => yielding (.settle result rest)
  | .act update next => .act update fun state => (next state).settleLater
  | .record entry next => .record entry next.settleLater
  | .moment next => .moment fun now turn => (next now turn).settleLater
  | .wait due abandon next => .wait due abandon next.settleLater

/-- A release that follows the routine however it ends: with a result, or by being abandoned. -/
def releasing (release : τ → Nat → σ → σ) : Routine τ σ α → Routine τ σ α
  | .halt => .halt
  | .settle result rest =>
    .moment fun now turn => .act (release now turn) fun _ => .settle result rest
  | .act update next => .act update fun state => (next state).releasing release
  | .record entry next => .record entry (next.releasing release)
  | .moment next => .moment fun now turn => (next now turn).releasing release
  | .wait due abandon next =>
    .wait due (fun now turn state => release now turn (abandon now turn state))
      (next.releasing release)

end Routine

end ProgramAudit
