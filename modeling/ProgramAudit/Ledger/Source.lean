import ProgramAudit.Ledger.Mint
import ProgramAudit.Ledger.Transaction
import ProgramAudit.Routine.Concurrent

namespace ProgramAudit.Ledger

/-- Where an audit reads from. An account that does not exist is none, and so is a list of
transactions or the metadata of a mint that a source leaves out; the transactions of an address come
newest first. -/
structure Source (τ σ : Type) where
  account : String → Routine τ σ (Option Account)
  transactions : String → Int → Routine τ σ (Option (List Transaction))
  mint : String → Routine τ σ (Option Mint)

end ProgramAudit.Ledger
