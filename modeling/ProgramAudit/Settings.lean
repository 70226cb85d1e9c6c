import ProgramAudit.Audit.Run
import ProgramAudit.Infix
import ProgramAudit.Environment

namespace ProgramAudit

/-- Where to read from, what is kept for how long, and how audits are run. -/
structure Settings where
  endpoint : String
  network : String
  lifetime : Float
  price : Float
  plan : Audit.Plan

namespace Settings

/-- The main network, unless another one is named. -/
def networkOf (environment : Environment) : String :=
  match environment.first? ["SOLANA_NETWORK", "SOLANA_CLUSTER"] with
  | some name => if Text.lowerCase (Text.strip name) = "devnet" then "devnet" else "mainnet"
  | none => "mainnet"

/-- The endpoint of a network for a key. -/
def keyedEndpoint (network key : String) : String :=
  "https://" ++ network ++ ".helius-rpc.com/?api-key=" ++ key

def noEndpoint : Failure :=
  .misconfigured "HELIUS_API_KEY or SOLANA_RPC_URL must be set (env or .env)"

/-- The endpoint that is given, or else the one that a key opens. -/
def endpointOf (environment : Environment) : Result String :=
  match environment.stripped? "SOLANA_RPC_URL", environment.stripped? "HELIUS_API_KEY" with
  | some url, _ => .ok url
  | none, some key => .ok (keyedEndpoint (networkOf environment) key)
  | none, none => .error noEndpoint

def defaultTimeframe : String := "7d"

/-- The settings that the variables give, with defaults for the others. -/
def ofEnvironment (environment : Environment) : Result Settings := do
  let network := networkOf environment
  let stageTimeout ← environment.realOr "SOLPROOF_STAGE_TIMEOUT_SEC" 5.0
  let limit ← environment.integerOr "SOLPROOF_TX_LIMIT" 25
  let timeframe := (environment.stripped? "SOLPROOF_TIMEFRAME").getD defaultTimeframe
  let endpoint ← endpointOf environment
  let lifetime ← environment.realOr "SOLPROOF_CACHE_TTL_SEC" 600.0
  let price ← environment.realOr "SOLPROOF_SOL_PRICE_USD" 150.0
  return {
    endpoint, network, lifetime, price
    plan := {
      stageTimeout := some (.real stageTimeout)
      fetch := { limit, timeframe := some timeframe }
      network } }

def keyMark : String := "api-key="

/-- An address without the key that follows the mark. -/
def maskKey (url : String) : String :=
  match before? keyMark.toList url.toList with
  | some shown => String.ofList shown ++ keyMark ++ "***"
  | none => url

def maskedEndpoint (settings : Settings) : String := maskKey settings.endpoint

def planJson (plan : Audit.Plan) : Json :=
  .obj [
    ("stage_timeout_sec", Json.ofOption .ofNumber plan.stageTimeout),
    ("fetch_stage_timeout_sec", Json.ofOption .ofNumber plan.fetchTimeout),
    ("network", .str plan.network),
    ("fetch", .obj [
      ("limit", .int plan.fetch.limit),
      ("timeframe", Json.ofOption .str plan.fetch.timeframe),
      ("retry_delays_sec", .arr (plan.fetch.retryDelays.map .ofNumber))])]

def toJson (settings : Settings) : Json :=
  .obj [
    ("rpc_url", .str settings.endpoint),
    ("network", .str settings.network),
    ("cache_ttl_sec", .real settings.lifetime),
    ("default_sol_price_usd", .real settings.price),
    ("pipeline", planJson settings.plan)]

end Settings

end ProgramAudit
