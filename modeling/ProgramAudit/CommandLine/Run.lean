import ProgramAudit.CommandLine.Arguments
import ProgramAudit.Endpoint.Session
import ProgramAudit.QuickCheck
import ProgramAudit.Routine.Run
import ProgramAudit.Settings
import ProgramAudit.Traffic.Dot

namespace ProgramAudit.CommandLine

open Endpoint

/-- What a run of the command line ends with: its status, the answer and the graph if there are any,
and the lines about errors. -/
structure Outcome where
  status : Nat
  answer : Option Json := none
  dot : Option (String × String) := none
  complaints : List String := []

/-- An answer, and the graph of an audit with the path where it is to be written. -/
structure Product where
  answer : Json
  dot : Option (String × String) := none

def origin : String := "main"

def loadedRecord (settings : Settings) : Journal.Record :=
  .make .info origin "main_settings_loaded"
    [("rpc_url", .str settings.maskedEndpoint), ("network", .str settings.network)]

def dotRecord (path : String) : Journal.Record :=
  .make .info origin "main_dot_written" [("path", .str path)]

def planOf (arguments : Arguments) (settings : Settings) : Audit.Plan :=
  let plan := settings.plan
  { plan with fetch := { plan.fetch with
      limit := arguments.limit.getD plan.fetch.limit
      timeframe := arguments.timeframe.or plan.fetch.timeframe } }

def sessionOf {τ : Type} [Clock τ] (environment : Environment) (settings : Settings) :
    Session τ where
  client := .new { lifetime := .real settings.lifetime }
  feed := {
    standing := settings.price
    lifetime := .real settings.lifetime
    key := environment.stripped? "COINGECKO_API_KEY" }

variable {τ σ : Type} [Clock τ]

def surroundings (connection : Connection τ σ) (now : Number) : Audit.Surroundings τ σ where
  source := (connection.access Client.defaultCommitment).source
  price := connection.price.map .real
  sleep := Routine.sleep
  now := now

/-- The graph of an audit under its path; an empty path is none. -/
def dotOf (arguments : Arguments) (audit : Audit) : Result (Option (String × String)) :=
  match arguments.dot.filter fun path => path != "" with
  | none => .ok none
  | some path => do return some (path, ← Traffic.Dot.render audit.stages.analyzed.callGraph.value)

def quickCheck (connection : Connection τ σ) (now : Number) (arguments : Arguments) :
    Routine τ σ Product := do
  let check ← QuickCheck.run (surroundings connection now).source (.str arguments.address)
  return { answer := check.toJson }

def audit (connection : Connection τ σ) (now : Number) (arguments : Arguments)
    (settings : Settings) : Routine τ σ Product := do
  let audit ← Audit.run (planOf arguments settings) (surroundings connection now)
    (.str arguments.address)
  let dot ← Routine.ofResult (dotOf arguments audit)
  Routine.notes (dot.toList.map fun entry => dotRecord entry.1)
  return { answer := audit.document.toJson, dot }

def work (connection : Connection τ σ) (now : Number) (arguments : Arguments)
    (settings : Settings) : Routine τ σ Product := do
  Routine.note (loadedRecord settings)
  if arguments.quick then quickCheck connection now arguments
  else audit connection now arguments settings

def complaint (failure : Failure) : String := "ERROR: " ++ failure.text

def failedRecord (event : String) (failure : Failure) : Journal.Record :=
  .make .error origin event [("error", .str failure.text)]

/-- A configuration that cannot be used ends with status one, invalid input with status two. No
other failure is expected. -/
def conclude : Result Product → Result (Outcome × List Journal.Record)
  | .ok product => .ok ({ status := 0, answer := some product.answer, dot := product.dot }, [])
  | .error (.misconfigured message) =>
    let failure := Failure.misconfigured message
    .ok ({ status := 1, complaints := [complaint failure] },
      [failedRecord "main_config_error" failure])
  | .error (.invalidInput message) =>
    let failure := Failure.invalidInput message
    .ok ({ status := 2, complaints := [complaint failure] },
      [failedRecord "main_invalid_input" failure])
  | .error failure => .error failure

/-- How a run ended, how many requests the endpoint has seen, the records of the run, and the least
rank of those that are written. -/
structure Report where
  outcome : Result Outcome
  requests : Nat := 0
  journal : List Journal.Record := []
  least : Int := Journal.Level.info.rank

/-- The records that are written. -/
def Report.written (report : Report) : List Journal.Record :=
  report.journal.filter fun record => report.least ≤ record.level.rank

def reportOf (least : Int) (result : Result Product) (requests : Nat)
    (journal : List Journal.Record) : Report :=
  match conclude result with
  | .ok (outcome, records) =>
    { outcome := .ok outcome, requests, journal := journal ++ records, least }
  | .error failure => { outcome := .error failure, requests, journal, least }

/-- A routine that waits for nothing that could come. -/
def stuck : Failure := .fault .unexpected "nothing left to wait for"

/-- The least rank of a record that is written: everything of a verbose run, and otherwise what the
environment names. -/
def thresholdOf (environment : Environment) (arguments : Arguments) : Result Int :=
  if arguments.verbose then .ok Journal.Level.debug.rank
  else Journal.Level.thresholdOf environment

/-- Runs the command line in an environment over a connection, from a moment on and from the state
that goes with the settings. There is a record of the settings, or of what is wrong with them, before
anything is read, so without a threshold that records can be held against nothing comes of a run. -/
def runOver (connection : Connection τ σ) (start : Settings → σ) (moment : τ) (now : Number)
    (environment : Environment) (arguments : List String) : Report :=
  match Usage.ofTexts arguments with
  | .help => { outcome := .ok { status := 0 } }
  | .rejected => { outcome := .ok { status := 2 } }
  | .run arguments =>
    match thresholdOf environment arguments with
    | .error failure => { outcome := .error failure }
    | .ok least =>
      match Settings.ofEnvironment environment with
      | .error failure => reportOf least (.error failure) 0 []
      | .ok settings =>
        let ended := (work connection now arguments settings).run ⟨moment, 0, start settings, []⟩
        reportOf least (ended.result.getD (.error stuck)) (connection.count ended.final.state)
          ended.final.journal.reverse

/-- Runs the command line in an environment against the script of an endpoint. -/
def run (moment : τ) (script : Script) (now : Number) (environment : Environment)
    (arguments : List String) : Report :=
  runOver (Session.connection script) (sessionOf environment) moment now environment arguments

def answerText (outcome : Outcome) : String :=
  (outcome.answer.map Json.renderIndented).getD ""

end ProgramAudit.CommandLine
