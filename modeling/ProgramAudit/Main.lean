import ProgramAudit.CommandLine.Run

namespace ProgramAudit.CommandLine

/-- The variables that a run depends on. -/
def variableNames : List String :=
  ["SOLANA_NETWORK", "SOLANA_CLUSTER", "SOLANA_RPC_URL", "HELIUS_API_KEY",
    "SOLPROOF_SOL_PRICE_USD", "SOLPROOF_CACHE_TTL_SEC", "SOLPROOF_STAGE_TIMEOUT_SEC",
    "SOLPROOF_TX_LIMIT", "SOLPROOF_TIMEFRAME", "COINGECKO_API_KEY", "SOLPROOF_LOG_LEVEL",
    "LOG_LEVEL"]

def readEnvironment : IO Environment :=
  variableNames.filterMapM fun name => do
    return (← IO.getEnv name).map fun value => (name, value)

def readRecording : IO (Endpoint.Script × Number) := do
  let text ← (← IO.getStdin).readToEnd
  let recording := (Json.read text).toOption.getD (.obj [])
  let script := Endpoint.Script.ofJson (recording.get "rpc") (recording.get "priceResponses")
  return (script, recording.numberOr "clock" 0)

def writeJournal (journal : List Journal.Record) : IO Unit :=
  for record in journal do IO.eprintln record.toJson.render

def writeOutcome (outcome : Outcome) : IO UInt32 := do
  for line in outcome.complaints do IO.eprintln line
  for (path, text) in outcome.dot.toList do IO.FS.writeFile path text
  if outcome.answer.isSome then IO.println (answerText outcome)
  return outcome.status.toUInt32

end ProgramAudit.CommandLine

open ProgramAudit CommandLine in
/-- Runs the command line over the recording of an endpoint that stands on the standard input. -/
def main (arguments : List String) : IO UInt32 := do
  let environment ← readEnvironment
  let (script, now) ← readRecording
  let report := run (0.0 : Float) script now environment arguments
  writeJournal report.written
  match report.outcome with
  | .ok outcome => writeOutcome outcome
  | .error failure =>
    IO.eprintln (failure.name ++ ": " ++ failure.text)
    return 1
