import TemplateSync.Main
import TemplateSync.Host.Fanout
import TemplateSync.Host.Ticker
import TemplateSync.Cli.Programs
import TemplateSync.Proofs.Message.RoundTrip
import TemplateSync.Proofs.Worker.Catalog
import TemplateSync.Proofs.Worker.History
import TemplateSync.Proofs.Host.Changes
import TemplateSync.Proofs.Host.BatchOrder
import TemplateSync.Proofs.Host.Convergence
import TemplateSync.Proofs.Host.Uninterrupted
import TemplateSync.Proofs.Host.Greetings
import TemplateSync.Proofs.Host.Hub.Operations
import TemplateSync.Proofs.Frame.Sequences
import TemplateSync.Proofs.Frame.Grammar
import TemplateSync.Proofs.Message.UnknownKinds
import TemplateSync.Proofs.Message.Acceptance
import TemplateSync.Proofs.Worker.References
import TemplateSync.Proofs.Worker.Monitor.Fifo
import TemplateSync.Proofs.Worker.Monitor.Waking
import TemplateSync.Proofs.Host.Exchange
import TemplateSync.Proofs.Host.Exchange.Accounts
import TemplateSync.Proofs.Host.Exchange.Isolation
import TemplateSync.Proofs.Host.Exchange.Operations
import TemplateSync.Proofs.Host.Exchange.Streams
import TemplateSync.Proofs.Host.Relay
import TemplateSync.Proofs.Host.Watching
import TemplateSync.Proofs.Host.Relay.Passes
import TemplateSync.Proofs.Host.Exchange.Stopping
import TemplateSync.Proofs.Host.Office
import TemplateSync.Proofs.Message.Edits
import TemplateSync.Proofs.Worker.Passes
import TemplateSync.Proofs.Worker.Dropping
import TemplateSync.Proofs.Worker.Requests
import TemplateSync.Proofs.Worker.RelativePaths
import TemplateSync.Proofs.Host.Reporting
import TemplateSync.Proofs.Host.Reloading
import TemplateSync.Proofs.Host.EventBatches
import TemplateSync.Proofs.Host.Emissions.Runs
import TemplateSync.Proofs.Host.Threads.Alone
import TemplateSync.Proofs.Host.Locking
