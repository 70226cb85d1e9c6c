import ProgramAudit.Bytes.Hex
import ProgramAudit.Json.Field
import ProgramAudit.Program.Profile

/-! Profiles and their policies read back from their written form. -/

namespace ProgramAudit.Program

namespace ProfilePolicy

def markerOr (name : String) (fallback : Bytes) (value : Json) : Bytes :=
  match value.get? name with
  | some (.str text) => Bytes.ofText text
  | _ => fallback

def signaturesOr (fallback : Table String Bytes) (value : Json) : Table String Bytes :=
  match value.get? "syscall_signatures" with
  | some (.obj fields) => fields.map fun (name, pattern) =>
    (name, (pattern.string?.bind Bytes.ofHex?).getD [])
  | _ => fallback

def ofJson (value : Json) : ProfilePolicy :=
  let base : ProfilePolicy := {}
  { bytesPerInstruction := value.intOr "bytes_per_instruction" base.bytesPerInstruction
    branchRatio := value.numberOr "branch_ratio" base.branchRatio
    loopRatio := value.numberOr "loop_ratio" base.loopRatio
    reentrancyThreshold := value.intOr "reentrancy_instruction_threshold" base.reentrancyThreshold
    signatures := signaturesOr base.signatures value
    governancePrograms := value.textsOr "governance_program_ids" base.governancePrograms
    borshMarker := markerOr "borsh_marker" base.borshMarker value
    mintMarker := markerOr "mint_marker" base.mintMarker value
    ammMarker := markerOr "amm_marker" base.ammMarker value
    nftMarker := markerOr "nft_marker" base.nftMarker value }

end ProfilePolicy

def ControlFlow.ofJson (value : Json) : ControlFlow where
  branches := value.intOr "branches" 0
  loops := value.intOr "loops" 0

namespace Profile

/-- The reentrancy risk is low if none is given, and missing if it is no severity. -/
def riskOfJson (value : Json) : Option Severity :=
  match value.get? "reentrancyRisk" with
  | none => some .low
  | some risk => risk.string?.bind Severity.ofWord?

def ofJson (value : Json) : Profile where
  address := value.textOr "address" ""
  byteLength := value.intOr "byteLength" 0
  instructionCount := value.intOr "instructionCountEstimate" 0
  syscalls := (value.texts? "syscalls").map distinct
  category := (Category.ofWord? (value.textOr "suspectedType" "unknown")).getD .unknown
  controlFlow := .ofJson (value.get "controlFlow")
  reentrancyRisk := riskOfJson value
  usesBorsh := value.boolOr "usesBorsh" false
  hiddenMint := value.boolOr "hiddenMintSignal" false
  candidateAuthorities := value.texts? "candidateAuthorities"
  computed := value.boolOr "computed" true

end Profile

end ProgramAudit.Program
