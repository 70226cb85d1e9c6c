import ProgramAudit.Routine.Part

/-!
A limit on requests: so many at once, and the starts of two at least a span apart. Whoever enters
takes a permit, waits in the gate until the span is over, and gives the permit back on leaving.
-/

namespace ProgramAudit.Endpoint

/-- Somebody in a line, and the turn at which they go on once they are called. -/
structure Waiter (τ : Type) where
  ticket : Nat
  called : Option (Turn τ) := none

/-- Those who wait, the first one first. -/
abbrev Line (τ : Type) := List (Waiter τ)

namespace Line

variable {τ : Type}

def join (ticket : Nat) (line : Line τ) : Line τ := line ++ [⟨ticket, none⟩]

def leave (ticket : Nat) (line : Line τ) : Line τ :=
  line.filter fun waiter => waiter.ticket != ticket

/-- The turn at which somebody was called to go on. -/
def turnOf (ticket : Nat) (line : Line τ) : Option (Turn τ) :=
  (line.find? fun waiter => waiter.ticket == ticket).bind Waiter.called

def isCalled (ticket : Nat) (line : Line τ) : Bool := (line.turnOf ticket).isSome

def hasUncalled (line : Line τ) : Bool := line.any fun waiter => waiter.called.isNone

def callNext (turn : Turn τ) : Line τ → Line τ
  | [] => []
  | waiter :: rest =>
    if waiter.called.isNone then { waiter with called := some turn } :: rest
    else waiter :: callNext turn rest

/-- Calls the first, unless that one has been called. -/
def callFirst (turn : Turn τ) : Line τ → Line τ
  | [] => []
  | waiter :: rest => { waiter with called := some (waiter.called.getD turn) } :: rest

end Line

/-- The free permits and those who wait for one, the gate and those who wait for it, and the last
start. -/
structure Limiter (τ : Type) where
  spacing : Number
  free : Nat
  line : Line τ := []
  gated : Bool := false
  gateLine : Line τ := []
  lastStart : τ

namespace Limiter

variable {τ σ α : Type} [Clock τ]

/-- A limiter with at least one permit. -/
def new (permits : Int) (spacing : Number) : Limiter τ :=
  { spacing, free := (max 1 permits).toNat, lastStart := Clock.seconds 0 }

def hasRoom (limiter : Limiter τ) : Bool := 0 < limiter.free && limiter.line.isEmpty

/-- Takes a permit, or stands in line for one. -/
def enter (ticket : Nat) (limiter : Limiter τ) : Limiter τ :=
  if limiter.hasRoom then { limiter with free := limiter.free - 1 }
  else { limiter with line := limiter.line.join ticket }

/-- Gives a permit to the next in line, if there is one who has not been called. -/
def grant (turn : Turn τ) (limiter : Limiter τ) : Limiter τ :=
  if limiter.line.hasUncalled then
    { limiter with free := limiter.free - 1, line := limiter.line.callNext turn }
  else limiter

/-- Somebody who was called leaves the line with the permit. A permit that is free still goes to
the next. -/
def proceed (turn : Turn τ) (ticket : Nat) (limiter : Limiter τ) : Limiter τ :=
  let remaining := { limiter with line := limiter.line.leave ticket }
  if 0 < remaining.free then remaining.grant turn else remaining

def leave (turn : Turn τ) (limiter : Limiter τ) : Limiter τ :=
  grant turn { limiter with free := limiter.free + 1 }

/-- Somebody gives up waiting; a permit that was meant for them goes back. -/
def giveUp (turn : Turn τ) (ticket : Nat) (limiter : Limiter τ) : Limiter τ :=
  let remaining := { limiter with line := limiter.line.leave ticket }
  if limiter.line.isCalled ticket then remaining.leave turn else remaining

def isOpen (limiter : Limiter τ) : Bool := !limiter.gated && limiter.gateLine.isEmpty

/-- Steps into the gate, or stands in line before it. -/
def enterGate (ticket : Nat) (limiter : Limiter τ) : Limiter τ :=
  if limiter.isOpen then { limiter with gated := true }
  else { limiter with gateLine := limiter.gateLine.join ticket }

def proceedGate (ticket : Nat) (limiter : Limiter τ) : Limiter τ :=
  { limiter with gateLine := limiter.gateLine.leave ticket, gated := true }

def leaveGate (turn : Turn τ) (limiter : Limiter τ) : Limiter τ :=
  { limiter with gated := false, gateLine := limiter.gateLine.callFirst turn }

def giveUpGate (turn : Turn τ) (ticket : Nat) (limiter : Limiter τ) : Limiter τ :=
  let remaining := { limiter with gateLine := limiter.gateLine.leave ticket }
  if limiter.gated then remaining
  else { remaining with gateLine := remaining.gateLine.callFirst turn }

/-- How long it is until the next start. -/
def delay (now : τ) (limiter : Limiter τ) : Result τ :=
  (Clock.span limiter.spacing).map fun span => limiter.lastStart + span - now

def start (now : τ) (limiter : Limiter τ) : Limiter τ := { limiter with lastStart := now }

/-- Stands in line until called. One who gives up there holds no permit. -/
def lineUp (part : Part σ (Limiter τ)) (ticket : Nat) : Routine τ σ Unit :=
  .wait (fun state => (part.get state).line.turnOf ticket)
    (fun now turn => part.modify (giveUp (now, turn) ticket))
    (.moment fun now turn => part.change (proceed (now, turn) ticket))

def awaitPermit (part : Part σ (Limiter τ)) : Routine τ σ Unit :=
  .moment fun _ ticket => .act (part.modify (enter ticket)) fun before =>
    if (part.get before).hasRoom then .succeed () else lineUp part ticket

def lineUpGate (part : Part σ (Limiter τ)) (ticket : Nat) : Routine τ σ Unit :=
  .wait (fun state => (part.get state).gateLine.turnOf ticket)
    (fun now turn => part.modify (giveUpGate (now, turn) ticket))
    (part.change (proceedGate ticket))

def awaitGate (part : Part σ (Limiter τ)) : Routine τ σ Unit :=
  .moment fun _ ticket => .act (part.modify (enterGate ticket)) fun before =>
    if (part.get before).isOpen then .succeed () else lineUpGate part ticket

/-- Waits until the span since the last start is over. -/
def awaitSpan (part : Part σ (Limiter τ)) : Routine τ σ Unit := do
  let now ← Routine.now
  let rest ← Routine.ofResult ((← part.read).delay now)
  if !Clock.notAfter rest (Clock.seconds 0) then Routine.sleepFor rest

def recordStart (part : Part σ (Limiter τ)) : Routine τ σ Unit := do
  part.change (start (← Routine.now))

/-- Waits in the gate until the span since the last start is over, and starts. -/
def awaitStart (part : Part σ (Limiter τ)) : Routine τ σ Unit := do
  awaitSpan part
  recordStart part

/-- One at a time passes the gate; whoever gives up in it leaves it open. -/
def pass (part : Part σ (Limiter τ)) : Routine τ σ Unit := do
  awaitGate part
  (awaitStart part).releasing fun now turn => part.modify (leaveGate (now, turn))

/-- Starts are kept apart by a span of more than nothing. -/
def isSpaced (limiter : Limiter τ) : Bool := Number.less 0 limiter.spacing

/-- With a permit, passes the gate if starts are spaced. -/
def passIfSpaced (part : Part σ (Limiter τ)) : Routine τ σ Unit := do
  let limiter ← part.read
  if limiter.isSpaced then pass part

/-- Enters: a permit first, and then the gate if starts are spaced. -/
def admission (part : Part σ (Limiter τ)) : Routine τ σ Unit := do
  awaitPermit part
  passIfSpaced part

def limited (part : Part σ (Limiter τ)) (routine : Routine τ σ α) : Routine τ σ α := do
  admission part
  routine.releasing fun now turn => part.modify (leave (now, turn))

end Limiter

end ProgramAudit.Endpoint
