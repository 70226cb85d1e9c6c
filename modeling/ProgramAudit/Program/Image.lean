import ProgramAudit.Address.Basic
import ProgramAudit.Ledger.Source

/-!
A program and its image. The upgradeable loader keeps them apart: the account of the program points to
the account of the image, and that one names the key that may replace it.
-/

namespace ProgramAudit.Program

open Ledger

/-- The loader that keeps a program and its executable image in two accounts. -/
def upgradeableLoader : String := "BPFLoaderUpgradeab1e11111111111111111111111"

/-- The first four bytes of the accounts of the loader, the lowest byte first. -/
def tag? (data : Bytes) : Option Nat :=
  if data.length < 4 then none else some (Bytes.littleEndian (data.take 4))

def programTag : Nat := 2

def imageTag : Nat := 3

/-- A program account is its tag and the key of the account that holds the image. -/
def pointerOf? (data : Bytes) : Option String :=
  if 36 ≤ data.length ∧ tag? data = some programTag then
    some (Address.ofKey ((data.drop 4).take 32))
  else none

/-- The length of the tag, the slot, the option byte and the authority. -/
def headerLength : Nat := 45

/-- What the account of an image holds: the key that may replace the image, and the image. -/
structure ImageAccount where
  authority : Option String
  image : Bytes

def notAnImage : Failure := .invalidValue "not a ProgramData account"

def readImageAccount (data : Bytes) : Result ImageAccount :=
  if headerLength ≤ data.length ∧ tag? data = some imageTag then
    let authority := Address.ofKey ((data.drop 13).take 32)
    .ok ⟨if data[12]? = some 1 then some authority else none, data.drop headerLength⟩
  else .error notAnImage

structure Image where
  address : String
  data : Bytes := []
  account : Option Account := none
  imageAddress : Option String := none
  upgradeAuthority : Option String := none
  computed : Bool := true

namespace Image

def missing (address : String) : Image := { address, computed := false }

def upgradeable (image : Image) : Bool := image.imageAddress.isSome

def candidateAuthorities (image : Image) : List String :=
  (image.upgradeAuthority.filter (· != "")).toList

def origin : String := "solproof.analysis.program_fetcher"

/-- A program whose account is its image, or points at none. -/
def ofAccount (address : String) (account : Account) : Image :=
  match readImageAccount account.data with
  | .ok found =>
    { address, data := found.image, account, upgradeAuthority := found.authority }
  | .error _ => { address, data := account.data, account }

def resolvedRecord (address imageAddress : String) (found : ImageAccount) : Journal.Record :=
  .make .debug origin "program_image_resolved" [
    ("program", .str address),
    ("programdata", .str imageAddress),
    ("image_bytes", .int found.image.length),
    ("has_authority", .bool found.authority.isSome)]

/-- The image behind the pointer of a program, with the record that reading it leaves. -/
def behindPointer (address imageAddress : String) (account : Account) :
    Option Account → Image × Journal.Record
  | none =>
    ({ address, account, imageAddress, computed := false },
      .make .warning origin "programdata_not_found"
        [("program", .str address), ("programdata", .str imageAddress)])
  | some holder =>
    match readImageAccount holder.data with
    | .ok found =>
      ({ address, data := found.image, account, imageAddress,
          upgradeAuthority := found.authority },
        resolvedRecord address imageAddress found)
    | .error failure =>
      ({ address, data := holder.data, account, imageAddress, computed := false },
        .make .warning origin "programdata_unparsed" [
          ("program", .str address),
          ("programdata", .str imageAddress),
          ("error", .str failure.text)])

variable {τ σ : Type} [Clock τ]

/-- Fetches the image of a program. For the upgradeable loader it lies behind the pointer of the
program account; for any other owner the data of the account is the image. -/
def fetch (source : Source τ σ) (address : String) : Routine τ σ Image := do
  match ← source.account address with
  | none =>
    Routine.note (.make .warning origin "program_account_not_found" [("program", .str address)])
    return missing address
  | some account =>
    if account.owner ≠ upgradeableLoader then
      return { address, data := account.data, account }
    else
      match pointerOf? account.data with
      | none => return ofAccount address account
      | some imageAddress =>
        let (image, record) := behindPointer address imageAddress account
          (← source.account imageAddress)
        Routine.note record
        return image

def toJson (image : Image) : Result Json := do
  let account ← image.account.mapM Account.toJson
  return .obj [
    ("address", .str image.address),
    ("data", .str (Bytes.hexText image.data)),
    ("account", account.getD .null),
    ("programdataAddress", Json.ofOption .str image.imageAddress),
    ("upgradeAuthority", Json.ofOption .str image.upgradeAuthority),
    ("computed", .bool image.computed),
    ("upgradeable", .bool image.upgradeable),
    ("candidateAuthorities", Json.strings image.candidateAuthorities)]

end Image

end ProgramAudit.Program
