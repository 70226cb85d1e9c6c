import ProgramAudit.Routine.Basic

/-! Waiting for several routines. Results keep the order of the routines, whichever ends first. -/

namespace ProgramAudit.Routine

variable {τ σ α β : Type} [Clock τ]

/-- Collects the results of both sides; the first failure settles the whole, and the other side goes
on in the background. -/
def collectBoth (left : Option α) (right : Option β) :
    Routine τ σ (α ⊕ β) → Routine τ σ (α × β)
  | .halt => .halt
  | .settle (.error failure) rest => .settle (.error failure) rest.silence
  | .settle (.ok (.inl value)) rest =>
    match right with
    | some other => .settle (.ok (value, other)) rest.silence
    | none => collectBoth (some value) right rest
  | .settle (.ok (.inr value)) rest =>
    match left with
    | some other => .settle (.ok (other, value)) rest.silence
    | none => collectBoth left (some value) rest
  | .act update next => .act update fun state => collectBoth left right (next state)
  | .record entry next => .record entry (collectBoth left right next)
  | .moment next => .moment fun now turn => collectBoth left right (next now turn)
  | .wait due abandon next => .wait due abandon (collectBoth left right next)

/-- Both results together, without taking turns. -/
def join (left : Routine τ σ α) (right : Routine τ σ β) : Routine τ σ (α × β) :=
  collectBoth none none (merge left right)

/-- A routine of its own starts at its next turn and is seen to be done one turn after its end. -/
def spawned (routine : Routine τ σ α) : Routine τ σ α :=
  (yielding routine).settleLater

def joinAll : List (Routine τ σ α) → Routine τ σ (List α)
  | [] => succeed []
  | [routine] => routine.map ([·])
  | routine :: rest => (join routine (joinAll rest)).map fun (value, values) => value :: values

/-- Runs two routines at once and waits for both; the first failure is the failure of the whole. -/
def both (left : Routine τ σ α) (right : Routine τ σ β) : Routine τ σ (α × β) :=
  (join (spawned left) (spawned right)).settleLater

/-- Runs routines at once and waits for all; the results keep the order of the list. -/
def all (routines : List (Routine τ σ α)) : Routine τ σ (List α) :=
  if routines.isEmpty then succeed [] else (joinAll (routines.map spawned)).settleLater

def timeout : Failure := .fault .timedOut ""

/-- A routine gives up what it waits for; that it timed out is seen three turns later. -/
def abandoned (abandon : τ → Nat → σ → σ) : Routine τ σ α :=
  .moment fun now turn =>
    .act (abandon now turn) fun _ => yielding (yielding (yielding (fail timeout)))

/-- A routine that ends where it waits when it is told to. -/
def obedient : Routine τ σ α → Option (Routine τ σ α) := fun _ => none

/-- Tells a routine to end. What is left of it may not end at once but go on with something else, and
then it is waited for as long as that takes. -/
def cancel (reaction : Routine τ σ α → Option (Routine τ σ α)) (left ended : Routine τ σ α) :
    Routine τ σ α :=
  match reaction left with
  | none => ended
  | some rest => yielding rest.settleLater.settleLater

/-- Ends a routine at a turn: it is told to end where it waits, and its result is a timeout if it
does. -/
def expire (reaction : Routine τ σ α → Option (Routine τ σ α)) (deadline : Turn τ) :
    Routine τ σ α → Routine τ σ α
  | .halt =>
    .wait (fun _ => some deadline) leave (cancel reaction .halt (yielding (fail timeout)))
  | .settle result rest => yielding (yielding (.settle result rest))
  | .act update next => .act update fun state => expire reaction deadline (next state)
  | .record entry next => .record entry (expire reaction deadline next)
  | .moment next => .moment fun now turn => expire reaction deadline (next now turn)
  | .wait due abandon next =>
    .wait (fun state => Turn.earliest? (some deadline) (due state)) abandon
      (.act id fun state =>
        match due state with
        | some turn =>
          if Turn.before turn deadline then expire reaction deadline next
          else cancel reaction (.wait due abandon next) (abandoned abandon)
        | none => cancel reaction (.wait due abandon next) (abandoned abandon))

/-- Bounds the time of a routine. Without a bound it runs in place, and with a bound of nothing it
does not start. -/
def bounded (limit : Option Number) (reaction : Routine τ σ α → Option (Routine τ σ α))
    (routine : Routine τ σ α) : Routine τ σ α :=
  match limit with
  | none => routine
  | some span =>
    if span.atMost 0 then yielding (yielding (fail timeout))
    else .moment fun now turn =>
      expire reaction (now + Clock.seconds span, turn) (yielding routine)

def within (limit : Option Number) (routine : Routine τ σ α) : Routine τ σ α :=
  bounded limit obedient routine

end ProgramAudit.Routine
