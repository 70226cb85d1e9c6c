import ProgramAudit.Journal.Record
import ProgramAudit.Json.Convert

namespace ProgramAudit.Ledger

/-- What is known about a mint. The number of decimals is an integer unless the source of the
metadata gives something else. -/
structure Mint where
  mint : String
  name : String
  supply : String
  decimals : Json
  mintAuthority : Json
  freezeAuthority : Json

namespace Mint

def defaultDecimals : Int := 9

def unknownText : String := "Unknown"

def neutral (mint : Option String) : Mint :=
  let given := mint.filter (· != "")
  { mint := given.getD "None"
    name := if given.isSome then unknownText else "None"
    supply := unknownText
    decimals := .int defaultDecimals
    mintAuthority := .null
    freezeAuthority := .null }

/-- Divides an amount by the power of ten of a number of decimals. A negative number gives a
fraction as the power, which may vanish. -/
def unscale (amount : Int) (decimals : Int) : Result Float :=
  if 0 ≤ decimals then
    match Number.quotient? amount (Number.tenTo decimals.toNat) with
    | some value => .ok value
    | none => .error .quotientTooLarge
  else do
    let _ ← Json.doubleOf decimals
    let x ← Json.doubleOf amount
    let scale := Number.nearestDouble false 1 (Number.tenTo (min decimals.natAbs 400))
    if scale == 0.0 then .error .zeroDivision else return x / scale

def infoOfPayload? (payload : Json) : Option (List (String × Json)) :=
  match ((payload.get "data").get "parsed").get "info" with
  | .obj info => some info
  | _ => none

def decimalsOfInfo (info : List (String × Json)) : Result Int :=
  Result.orIfUnreadable defaultDecimals
    ((Json.field? "decimals" info).getD (.int defaultDecimals)).toInteger

/-- The text of a supply in whole tokens; none if it cannot be read. -/
def supplyText (decimals : Int) (supply : Json) : Result (Option String) :=
  Result.orIfUnreadable none do
    let amount ← supply.toInteger
    return some (Number.realText (← unscale amount decimals))

/-- Reads a mint account of an endpoint, with the records that this leaves. -/
def ofPayload (mint : String) (payload : Json) : Result (Mint × List Journal.Record) :=
  match infoOfPayload? payload with
  | none => .ok (neutral (some mint), [])
  | some info => do
    let field := fun name => (Json.field? name info).getD .null
    let decimals ← decimalsOfInfo info
    let read := fun text => (
      { mint
        name := unknownText
        supply := text
        decimals := .int decimals
        mintAuthority := field "mintAuthority"
        freezeAuthority := field "freezeAuthority" : Mint })
    if (field "supply").isNull then return (read unknownText, [])
    else
      match ← supplyText decimals (field "supply") with
      | some text => return (read text, [])
      | none => return (read unknownText,
          [.make .debug "solproof.chain.parser" "mint_supply_unparsed"
            [("mint", .str mint), ("supply", field "supply")]])

def toJson (mint : Mint) : Json :=
  .obj [
    ("mint", .str mint.mint),
    ("name", .str mint.name),
    ("supply", .str mint.supply),
    ("decimals", mint.decimals),
    ("mintAuthority", mint.mintAuthority),
    ("freezeAuthority", mint.freezeAuthority)]

end Mint

end ProgramAudit.Ledger
