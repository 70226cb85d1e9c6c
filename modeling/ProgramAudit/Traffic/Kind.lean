import ProgramAudit.Ledger.Transaction
import ProgramAudit.Table

/-! What a transaction does, by the first rule that its instructions meet. -/

namespace ProgramAudit.Traffic

open Ledger

inductive Kind where
  | swap
  | transfer
  | mint
  | burn
  | governance
  | nftMint
  | custom
  | unknown
deriving DecidableEq

namespace Kind

def word : Kind → String
  | .swap => "swap"
  | .transfer => "transfer"
  | .mint => "mint"
  | .burn => "burn"
  | .governance => "governance"
  | .nftMint => "nft_mint"
  | .custom => "custom"
  | .unknown => "unknown"

def all : List Kind :=
  [.swap, .transfer, .mint, .burn, .governance, .nftMint, .custom, .unknown]

def ofWord? (word : String) : Option Kind := all.find? fun kind => kind.word == word

end Kind

/-- The programs and instruction types by which transactions are told apart. -/
structure KindPolicy where
  governancePrograms : List String := [
    "GovER5Lthms3bLBqWub97yVrMmEogzX7xNjdXpPPCVZw",
    "SMPLecHpvtyTWca6gwQLoCFN33w41rmatZTxM4W3fS7"]
  governanceTypes : List String := ["createProposal", "vote"]
  tokenProgram : String := "TokenkegQfeZyiNwAJbNbGKPFXCWuBvf9Ss623VQ5DA"
  tokenTypes : Table String Kind := [
    ("transfer", .transfer),
    ("transferChecked", .transfer),
    ("mint", .mint),
    ("mintTo", .mint),
    ("mintToChecked", .mint),
    ("burn", .burn),
    ("burnChecked", .burn)]
  swapPrograms : List String := [
    "675kPX9MHTjS2zt1qfr1NYHuzeLXfQM9H24wFSUt1Mp8",
    "pAMMBay6oceH9fJKBRHGP5D4bD4sWpmSwMn52FMfXEA"]
  nftPrograms : List String := ["metaqbxxUerdq28cj1RbAWkYQm3ybzjb6a8bt518x1s"]
  nftTypes : List String := ["mintNFT"]
  programIsSwap : Bool := true

namespace KindPolicy

def hasType (types : List String) (instruction : Instruction) : Bool :=
  match instruction.parsedType with
  | some type => types.contains type
  | none => false

def isGovernance (policy : KindPolicy) (instruction : Instruction) : Bool :=
  policy.governancePrograms.contains instruction.programId
    || hasType policy.governanceTypes instruction

def isToken (policy : KindPolicy) (instruction : Instruction) : Bool :=
  instruction.programId == policy.tokenProgram

/-- The kind that the type of a token instruction stands for. -/
def tokenKind? (policy : KindPolicy) (instruction : Instruction) : Option Kind :=
  instruction.parsedType.bind fun type => Table.get? type policy.tokenTypes

def isSwap (policy : KindPolicy) (program : String) (instruction : Instruction) : Bool :=
  policy.swapPrograms.contains instruction.programId
    || policy.programIsSwap && instruction.programId == program

def isNftMint (policy : KindPolicy) (instruction : Instruction) : Bool :=
  policy.nftPrograms.contains instruction.programId || hasType policy.nftTypes instruction

end KindPolicy

/-- The kind of a transaction: governance goes first, then the type of its first token instruction,
an exchange, a new token, and any use of the program. -/
def kindOf (policy : KindPolicy) (program : String) (transaction : Transaction) : Kind :=
  let instructions := transaction.instructions
  if instructions.any policy.isGovernance then .governance
  else
    match (instructions.find? policy.isToken).bind policy.tokenKind? with
    | some kind => kind
    | none =>
      if instructions.any (policy.isSwap program) then .swap
      else if instructions.any policy.isNftMint then .nftMint
      else if instructions.any (·.programId == program) then .custom
      else .unknown

/-- No instruction of the transaction is one of the token program. -/
def isNonStandard (policy : KindPolicy) (transaction : Transaction) : Bool :=
  !transaction.instructions.any policy.isToken

structure Classified where
  transaction : Transaction
  kind : Kind
  nonStandard : Bool

namespace Classified

def ofTransaction (policy : KindPolicy) (program : String) (transaction : Transaction) :
    Classified :=
  { transaction
    kind := kindOf policy program transaction
    nonStandard := isNonStandard policy transaction }

def toJson (classified : Classified) : Json :=
  .obj (classified.transaction.fields ++
    [("type", .str classified.kind.word), ("isNonStandard", .bool classified.nonStandard)])

end Classified

def classify (policy : KindPolicy) (program : String) (transactions : List Transaction) :
    List Classified :=
  transactions.map (Classified.ofTransaction policy program)

end ProgramAudit.Traffic
