import ProgramAudit.Audit.Stored
import ProgramAudit.CommandLine.Run
import ProgramAudit.Journal.Logger
import ProgramAudit.Ledger.Recorded
import ProgramAudit.Main
import ProgramAudit.Proofs.Audit.Conservation
import ProgramAudit.Proofs.Audit.Degradation
import ProgramAudit.Proofs.Audit.Isolation
import ProgramAudit.Proofs.Audit.Reading
import ProgramAudit.Proofs.Audit.Scaling
import ProgramAudit.Proofs.Boundary
import ProgramAudit.Proofs.CommandLine.Timeframes
import ProgramAudit.Proofs.Control.Authorities
import ProgramAudit.Proofs.Endpoint.Coverage
import ProgramAudit.Proofs.Endpoint.Eviction
import ProgramAudit.Proofs.Endpoint.Histories
import ProgramAudit.Proofs.Endpoint.Limits
import ProgramAudit.Proofs.Endpoint.Payloads
import ProgramAudit.Proofs.Endpoint.Prices
import ProgramAudit.Proofs.Endpoint.Retries
import ProgramAudit.Proofs.Endpoint.Transparency
import ProgramAudit.Proofs.Finding.Isolation
import ProgramAudit.Proofs.Finding.Scan
import ProgramAudit.Proofs.Ledger.Keys
import ProgramAudit.Proofs.Ledger.NormalForm
import ProgramAudit.Proofs.Program.FirstLook
import ProgramAudit.Proofs.Program.Loader
import ProgramAudit.Proofs.Program.Markers
import ProgramAudit.Proofs.Report.Composition
import ProgramAudit.Proofs.Report.Priorities
import ProgramAudit.Proofs.Score.Monotone
import ProgramAudit.Proofs.Score.Signals
import ProgramAudit.Proofs.Settings
import ProgramAudit.Proofs.Traffic.Aggregation
import ProgramAudit.Proofs.Traffic.Attempts
import ProgramAudit.Proofs.Traffic.Digraph
import ProgramAudit.Proofs.Traffic.Interactions
import ProgramAudit.Proofs.Traffic.Merging
import ProgramAudit.Proofs.Traffic.Precedence
import ProgramAudit.QuickCheck
import ProgramAudit.Report.Stored
