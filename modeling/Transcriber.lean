import Transcriber.Library.Table
import Transcriber.Library.Registry
import Transcriber.Library.Execution
import Transcriber.Library.Fencing
import Transcriber.Library.Rounding
import Transcriber.Store.Job
import Transcriber.Store.Statements
import Transcriber.Store.Scheduling
import Transcriber.Store.Database
import Transcriber.Store.RowSteps
import Transcriber.Store.Inversion
import Transcriber.Store.Outcomes
import Transcriber.Store.Invariants
import Transcriber.Store.RowInvariant
import Transcriber.Store.Dispatch
import Transcriber.Store.Terminal
import Transcriber.Store.AttemptFencing
import Transcriber.Store.LockMoves
import Transcriber.Store.Timed
import Transcriber.Store.Capacity
import Transcriber.Store.ConsumerAdmission
import Transcriber.Store.DeliveryCharge
import Transcriber.Store.Observations
import Transcriber.Store.Entries
import Transcriber.Store.Books
import Transcriber.Ingress.Submit
import Transcriber.Ingress.Refinement
import Transcriber.Ingress.Streams
import Transcriber.Ingress.Retention
import Transcriber.Ingress.Uploads
import Transcriber.Ingress.UploadSteps
import Transcriber.Ingress.Publication
import Transcriber.Ingress.Idempotence
import Transcriber.Ingress.Admission
import Transcriber.Ingress.StorageScan
import Transcriber.Ingress.StorageInvariant
import Transcriber.Ingress.StorageQuota
import Transcriber.Broker.Delivery
import Transcriber.Broker.Coverage
import Transcriber.Broker.Reconcile
import Transcriber.Worker.Credentials
import Transcriber.Worker.Api
import Transcriber.Worker.Leases
import Transcriber.Worker.Authorization
import Transcriber.Worker.Scoping
import Transcriber.Worker.Slots
import Transcriber.Worker.DrainMarker
import Transcriber.Worker.Withdrawal
import Transcriber.Updater.Docker
import Transcriber.Updater.Program
import Transcriber.Updater.Moves
import Transcriber.Updater.Requests
import Transcriber.Updater.Situations
import Transcriber.Updater.Soundness
import Transcriber.Updater.CrashSafety
import Transcriber.Updater.Progress
import Transcriber.Updater.Undrained
import Transcriber.Updater.Quarantine
import Transcriber.Store.AttemptProgress
import Transcriber.Store.PolicyScheduling
import Transcriber.Library.Histogram
import Transcriber.Store.Metrics
import Transcriber.Library.Overlay
import Transcriber.Updater.Merge
import Transcriber.Ingress.UploadSlots
import Transcriber.Ingress.SlotSafety
import Transcriber.Ingress.SlotRuns
import Transcriber.Library.Json
import Transcriber.Library.JsonDumps
import Transcriber.Library.Strings
import Transcriber.Library.UuidText
import Transcriber.Broker.Envelope
import Transcriber.Broker.ConnectionFile
import Transcriber.Broker.Provision
import Transcriber.Store.Lifecycle
import Transcriber.Ingress.ClientCalls
import Transcriber.Ingress.ClientAnswers
import Transcriber.Worker.Process
import Transcriber.Worker.Reports
import Transcriber.Worker.Fleet
import Transcriber.Worker.Origins
import Transcriber.Worker.Provenance
import Transcriber.Worker.EndToEnd
import Transcriber.Updater.Handover
import Transcriber.Library.JsonTree
import Transcriber.Library.Durable
import Transcriber.Updater.Saves
import Transcriber.Store.Migrations
import Transcriber.Library.Groups
import Transcriber.Store.Snapshot
import Transcriber.Store.Scrape
import Transcriber.Store.ScrapeBalance
