import AuditGateway.Lib.Sha256
import AuditGateway.Lib.Machine
import AuditGateway.Lib.KeyTable
import AuditGateway.Lib.HashChain
import AuditGateway.Audit.Tamper
import AuditGateway.Audit.Deletion
import AuditGateway.Audit.Truncation
import AuditGateway.Audit.Retention
import AuditGateway.Audit.Writer
import AuditGateway.Audit.WriterOrder
import AuditGateway.Audit.Accounting
import AuditGateway.Relay.Value
import AuditGateway.Relay.Ignore
import AuditGateway.Relay.AuditMap
import AuditGateway.Relay.Connection
import AuditGateway.Relay.RequestOrder
import AuditGateway.Relay.Intent
import AuditGateway.Relay.Tasks
import AuditGateway.Relay.WriteAhead
import AuditGateway.Relay.ChannelSecurity
import AuditGateway.Relay.ItemRecords
import AuditGateway.Relay.Summaries
import AuditGateway.Relay.ConnectionTask
import AuditGateway.Relay.Shutdown
import AuditGateway.Export.Exporter
import AuditGateway.Export.Positions
import AuditGateway.Export.Gaps
import AuditGateway.Audit.Alarms
import AuditGateway.Web.Acknowledge
import AuditGateway.Web.AuditSettings
import AuditGateway.Web.Settings
import AuditGateway.Config.Target
import AuditGateway.Targets.Manager
import AuditGateway.Targets.Updates
import AuditGateway.Targets.Lifecycle
import AuditGateway.Web.ExportSettings
import AuditGateway.Web.LiveSettings
import AuditGateway.Lib.UniqueTable
import AuditGateway.Users.Database
import AuditGateway.Users.Processes
import AuditGateway.Web.Sessions
import AuditGateway.Web.Login
import AuditGateway.Relay.Endpoints
import AuditGateway.Relay.Attribution
import AuditGateway.Config.Deadlines
import AuditGateway.Export.Delivery
import AuditGateway.Targets.Availability
import AuditGateway.Config.Migration
import AuditGateway.Audit.Body
import AuditGateway.Export.Line
import AuditGateway.Relay.Downstream
import AuditGateway.Lib.Disk
import AuditGateway.Pki.OwnCertificate
import AuditGateway.Lib.Toml
import AuditGateway.Config.Load
import AuditGateway.Config.Save
import AuditGateway.Config.SaveSettings
import AuditGateway.Audit.BodyText
import AuditGateway.Relay.Rendered
import AuditGateway.Audit.Search
import AuditGateway.Relay.Readable
import AuditGateway.Lib.Modified
import AuditGateway.Relay.PreRead
import AuditGateway.Config.Groups
import AuditGateway.Config.Upgrade
import AuditGateway.Targets.EndpointChanges
import AuditGateway.Targets.Trust
import AuditGateway.Web.ClientAddress
import AuditGateway.Web.RefusedExport
import AuditGateway.Web.AcknowledgeTool
import AuditGateway.Relay.JsonSize
import AuditGateway.Relay.RecordSize
import AuditGateway.Relay.Overflow
import AuditGateway.Lib.Url
import AuditGateway.Web.Redact
import AuditGateway.Web.CsvExport
import AuditGateway.Relay.Admission
import AuditGateway.Relay.ConnectionRate
import AuditGateway.Relay.Slots
import AuditGateway.Relay.Transport
import AuditGateway.Relay.Reassembly
import AuditGateway.Audit.Anchors
import AuditGateway.Export.Anchors
import AuditGateway.Audit.Lives
import AuditGateway.Relay.Handshake
import AuditGateway.Config.WriteAtomic
import AuditGateway.Lib.KeyedList
import AuditGateway.Relay.TrustChanges
import AuditGateway.Web.GroupEdits
