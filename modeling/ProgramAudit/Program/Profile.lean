import ProgramAudit.Bytes.Basic
import ProgramAudit.Finding.Severity
import ProgramAudit.Journal.Record
import ProgramAudit.Json.Convert
import ProgramAudit.Number.Checked
import ProgramAudit.Table

/-!
What the bytes of an image show: marks of calls and formats, a size, and what follows from them.
-/

namespace ProgramAudit.Program

inductive Category where
  | governance
  | amm
  | nft
  | unknown
deriving DecidableEq

namespace Category

def word : Category → String
  | .governance => "governance"
  | .amm => "amm"
  | .nft => "nft"
  | .unknown => "unknown"

def all : List Category := [.governance, .amm, .nft, .unknown]

def ofWord? (word : String) : Option Category := all.find? fun category => category.word == word

end Category

structure ControlFlow where
  branches : Int := 0
  loops : Int := 0
deriving DecidableEq

def ControlFlow.total (flow : ControlFlow) : Int := flow.branches + flow.loops

/-- A heuristic profile of the bytes of a program. A profile from outside may lack its system calls,
its reentrancy risk or its candidate authorities. -/
structure Profile where
  address : String
  byteLength : Int := 0
  instructionCount : Int := 0
  syscalls : Option (List String) := some []
  category : Category := .unknown
  controlFlow : ControlFlow := {}
  reentrancyRisk : Option Severity := some .low
  usesBorsh : Bool := false
  hiddenMint : Bool := false
  candidateAuthorities : Option (List String) := some []
  computed : Bool := true

/-- The patterns and constants of the heuristics. -/
structure ProfilePolicy where
  bytesPerInstruction : Int := 8
  branchRatio : Number := 0.1
  loopRatio : Number := 0.05
  reentrancyThreshold : Int := 1000
  signatures : Table String Bytes := [
    ("sol_invoke", [1, 0, 0]),
    ("sol_verify_signature", [2, 0, 0]),
    ("sol_alloc_free", [3, 0, 0])]
  governancePrograms : List String := ["GovER5Lthms3bLBqWub97yVrMmEogzX7xNjdXpPPCVZw"]
  borshMarker : Bytes := Bytes.ofText "borsh"
  mintMarker : Bytes := Bytes.ofText "mint"
  ammMarker : Bytes := Bytes.ofText "swap"
  nftMarker : Bytes := Bytes.ofText "mintNFT"

namespace Profile

def sortNames (names : List String) : List String :=
  names.mergeSort fun left right => !decide (right < left)

/-- The system calls whose signatures stand anywhere in the bytes. -/
def syscallsOf (policy : ProfilePolicy) (data : Bytes) : List String :=
  sortNames ((policy.signatures.filter fun entry => Bytes.contains entry.2 data).map Prod.fst)

/-- A known governance program is one whatever its bytes; the exchange marker goes before the one
of tokens. -/
def categoryOf (policy : ProfilePolicy) (data : Bytes) (address : String) : Category :=
  if policy.governancePrograms.contains address then .governance
  else if Bytes.contains policy.ammMarker data then .amm
  else if Bytes.contains policy.nftMarker data then .nft
  else .unknown

/-- What is said of a program that cannot be profiled. -/
def neutral (address : String) (authorities : List String) : Profile :=
  { address, candidateAuthorities := some authorities, computed := false }

/-- The estimated number of instructions. -/
def estimate (policy : ProfilePolicy) (length : Int) : Result Int :=
  if policy.bytesPerInstruction = 0 then
    .error (.fault .zeroDivision "integer division or modulo by zero")
  else .ok (Int.fdiv length policy.bytesPerInstruction)

def share (count : Int) (ratio : Number) : Result Int := do
  match ← Number.times (.int count) ratio with
  | .int value => return value
  | .real value => Json.wholePart value

def compute (policy : ProfilePolicy) (data : Bytes) (address : String)
    (authorities : List String) : Result Profile := do
  let count ← estimate policy data.length
  let branches ← share count policy.branchRatio
  let loops ← share count policy.loopRatio
  return {
    address
    byteLength := data.length
    instructionCount := count
    syscalls := some (syscallsOf policy data)
    category := categoryOf policy data address
    controlFlow := { branches, loops }
    reentrancyRisk := some (if policy.reentrancyThreshold < count then .moderate else .low)
    usesBorsh := Bytes.contains policy.borshMarker data
    hiddenMint := Bytes.contains policy.mintMarker data
    candidateAuthorities := some authorities }

def candidates (authorities : List String) : List String :=
  distinct (authorities.filter (· != ""))

def compute? (policy : ProfilePolicy) (data : Option Bytes) (address : String)
    (authorities : List String) : Result Profile :=
  match data with
  | none => .error (.invalidValue "no program data")
  | some bytes => compute policy bytes address authorities

/-- The profile of a program, neutral where the heuristics fail. -/
def ofData (policy : ProfilePolicy) (data : Option Bytes) (address : String)
    (authorities : List String) : Profile :=
  match compute? policy data address (candidates authorities) with
  | .ok profile => profile
  | .error _ => neutral address (candidates authorities)

def origin : String := "solproof.analysis.binary_profiler"

def record (policy : ProfilePolicy) (data : Option Bytes) (address : String)
    (authorities : List String) : Journal.Record :=
  match compute? policy data address (candidates authorities) with
  | .ok profile => .make .debug origin "binary_profiled" [
      ("program", .str address),
      ("byte_length", .int profile.byteLength),
      ("instructions", .int profile.instructionCount),
      ("suspected_type", .str profile.category.word),
      ("syscalls", Json.strings (profile.syscalls.getD []))]
  | .error failure => .make .warning origin "binary_profile_failed"
      [("program", .str address), ("error", .str failure.text)]

def demandSyscalls (profile : Profile) : Result (List String) :=
  match profile.syscalls with
  | some names => .ok (sortNames names)
  | none => .error (.wrongType "'NoneType' object is not iterable")

def demandCandidates (profile : Profile) : Result (List String) :=
  match profile.candidateAuthorities with
  | some authorities => .ok authorities
  | none => .error (.wrongType "object of type 'NoneType' has no len()")

def hasSyscall (name : String) (profile : Profile) : Result Bool :=
  match profile.syscalls with
  | some names => .ok (names.contains name)
  | none => .error (.wrongType "argument of type 'NoneType' is not iterable")

def flowJson (flow : ControlFlow) : List (String × Json) :=
  [("branches", .int flow.branches), ("loops", .int flow.loops)]

def toJson (profile : Profile) : Result Json := do
  let syscalls ← profile.demandSyscalls
  let risk ← Option.demand "value" profile.reentrancyRisk
  let authorities ← profile.demandCandidates
  return .obj [
    ("address", .str profile.address),
    ("byteLength", .int profile.byteLength),
    ("instructionCountEstimate", .int profile.instructionCount),
    ("syscalls", Json.strings syscalls),
    ("suspectedType", .str profile.category.word),
    ("controlFlow", .obj (flowJson profile.controlFlow)),
    ("reentrancyRisk", .str risk.word),
    ("usesBorsh", .bool profile.usesBorsh),
    ("hiddenMintSignal", .bool profile.hiddenMint),
    ("candidateAuthorities", Json.strings authorities),
    ("computed", .bool profile.computed)]

end Profile

end ProgramAudit.Program
