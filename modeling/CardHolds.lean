import CardHolds.Engine.Execution
import CardHolds.Engine.Fault
import CardHolds.Events.Delivery
import CardHolds.Json.Form
import CardHolds.Json.Printer
import CardHolds.Json.Reader
import CardHolds.Ledger.Scan
import CardHolds.Settings
import CardHolds.Statement.Server
import CardHolds.Proofs.Engine.AllOrReported
import CardHolds.Proofs.Engine.Drawn
import CardHolds.Proofs.Engine.NoLostUpdate
import CardHolds.Proofs.Lifecycle.Filing
import CardHolds.Proofs.Engine.Filing
import CardHolds.Proofs.Engine.Entries
import CardHolds.Proofs.Engine.Statements
import CardHolds.Proofs.Engine.AuditTrail
import CardHolds.Proofs.Engine.History
import CardHolds.Proofs.Engine.Races
import CardHolds.Proofs.Engine.Retry
import CardHolds.Proofs.Engine.SoftOutcomes
import CardHolds.Proofs.Engine.Readable
import CardHolds.Proofs.Ledger.Contents
import CardHolds.Proofs.Ledger.Scanning
import CardHolds.Proofs.Statement.Dialogue
import CardHolds.Proofs.Statement.Turns
import CardHolds.Proofs.Engine.Journal
import CardHolds.Proofs.Engine.Announcement
import CardHolds.Proofs.Engine.SecurityCode
import CardHolds.Proofs.Engine.Settlement
import CardHolds.Proofs.Json.RoundTrip
import CardHolds.Proofs.Lifecycle.Inverse
import CardHolds.Proofs.Lifecycle.Rules
import CardHolds.Proofs.Statement.Conversation
import CardHolds.Proofs.Lifecycle.Compensation
import CardHolds.Proofs.Engine.Restoration
import CardHolds.Proofs.Statement.Serving
import CardHolds.Proofs.Ledger.Deposits
import CardHolds.Proofs.Ledger.Frame
import CardHolds.Proofs.Events.Handling
import CardHolds.Proofs.Settings
