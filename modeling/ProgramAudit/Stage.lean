import ProgramAudit.Routine.Concurrent

/-!
Stages of an audit. A stage that fails or takes longer than its limit has a fallback for its value,
and says why.
-/

namespace ProgramAudit

/-- Values that can say of themselves that they are only a neutral stand-in. -/
class Assessed (α : Type) where
  computed : α → Bool

/-- What came of one stage of an audit: a value, whether it is more than a stand-in, and why it is
not. -/
structure StageResult (α : Type) where
  stage : String
  value : α
  computed : Bool := true
  error : Option String := none

namespace StageResult

variable {α : Type}

def degraded (result : StageResult α) : Bool := !result.computed

def neutralText : String := "stage returned neutral fallback"

def ofValue [Assessed α] (stage : String) (value : α) : StageResult α where
  stage := stage
  value := value
  computed := Assessed.computed value
  error := if Assessed.computed value then none else some neutralText

/-- The text of a failure, or its name if the text is empty. -/
def reasonOf (failure : Failure) : String :=
  if failure.text = "" then failure.name else failure.text

def isTimeout : Failure → Bool
  | .fault .timedOut _ => true
  | _ => false

def limitText : Option Number → String
  | some limit => limit.text
  | none => "None"

def timeoutText (limit : Option Number) : String := s!"timed out after {limitText limit}s"

def failureText (limit : Option Number) (failure : Failure) : String :=
  if isTimeout failure then timeoutText limit else reasonOf failure

def ofFailure (stage : String) (limit : Option Number) (fallback : α) (failure : Failure) :
    StageResult α :=
  { stage, value := fallback, computed := false, error := some (failureText limit failure) }

/-- The reason that is told of a stand-in. -/
def reasonTold : Option String → String
  | none => "fallback value used"
  | some reason => if reason = "" then "fallback value used" else reason

/-- Why a stage has only a stand-in, with the name of the stage in front. -/
def degradation (result : StageResult α) : Option String :=
  if result.computed then none else some s!"{result.stage}: {reasonTold result.error}"

end StageResult

namespace Stage

variable {τ σ α : Type} [Clock τ] [Assessed α]

def origin : String := "solproof.core.stages"

def failureRecord (limit : Option Number) (failure : Failure) : Journal.Record :=
  if StageResult.isTimeout failure then
    .make .warning origin "stage_timeout" [("timeout_sec", Json.ofOption .ofNumber limit)]
  else .make .warning origin "stage_degraded"
    [("error", .str failure.text), ("error_type", .str failure.name)]

def conclude (stage : String) (limit : Option Number) (fallback : α) :
    Result α → Routine τ σ (StageResult α)
  | .ok value => .succeed (.ofValue stage value)
  | .error failure => do
    Routine.note (failureRecord limit failure)
    return .ofFailure stage limit fallback failure

/-- Runs the work of a stage in place. A failure is recorded, and the fallback stands in for the
value. -/
def run (stage : String) (limit : Option Number) (fallback : α) (work : Routine τ σ α) :
    Routine τ σ (StageResult α) :=
  (work.attempt.bind (conclude stage limit fallback)).inStage stage

def runTimed (stage : String) (limit : Option Number) (fallback : α) (work : Routine τ σ α) :
    Routine τ σ (StageResult α) :=
  run stage limit fallback (Routine.within limit work)

end Stage

end ProgramAudit
