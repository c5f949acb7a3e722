import Pulse.Activity
import Pulse.Api.Document
import Pulse.Api.Error
import Pulse.Api.MediaType
import Pulse.Api.Request
import Pulse.Api.Response
import Pulse.Api.Route
import Pulse.Bus
import Pulse.Bus.Error
import Pulse.Bus.Message
import Pulse.Config
import Pulse.Config.Check
import Pulse.Config.Environment
import Pulse.Consumer
import Pulse.Decimal.Layout
import Pulse.Decimal.Rounding
import Pulse.Decimal.Shortest
import Pulse.Event
import Pulse.Handler
import Pulse.Json.Decode
import Pulse.Json.Node
import Pulse.Json.Number
import Pulse.Json.Value
import Pulse.Machine
import Pulse.Monitor
import Pulse.Ordered
import Pulse.Producer
import Pulse.Proofs.Activity
import Pulse.Proofs.Activity.Alone
import Pulse.Proofs.Activity.Endures
import Pulse.Proofs.Activity.Settles
import Pulse.Proofs.Bus.Custody
import Pulse.Proofs.Bus.Exchange
import Pulse.Proofs.Bus.Publishing
import Pulse.Proofs.Bus.Queues
import Pulse.Proofs.Decimal.Canonical
import Pulse.Proofs.Decimal.Nearest
import Pulse.Proofs.Decimal.Operations
import Pulse.Proofs.Decimal.Shortest
import Pulse.Proofs.Decimal.Sign
import Pulse.Proofs.Event
import Pulse.Proofs.Handler.Arrivals
import Pulse.Proofs.Handler.Confluence
import Pulse.Proofs.Handler.Delivery
import Pulse.Proofs.Handler.Desks
import Pulse.Proofs.Handler.Fates
import Pulse.Proofs.Handler.Redelivery
import Pulse.Proofs.Json.Accuracy
import Pulse.Proofs.Json.Layouts
import Pulse.Proofs.Json.Members
import Pulse.Proofs.Json.Numerals
import Pulse.Proofs.Json.Reread
import Pulse.Proofs.Json.Strings
import Pulse.Proofs.Monitor.Conformance
import Pulse.Proofs.Monitor.Guardroom
import Pulse.Proofs.Monitor.Inspection
import Pulse.Proofs.Monitor.Judgement
import Pulse.Proofs.Monitor.Loops
import Pulse.Proofs.Monitor.Orderly
import Pulse.Proofs.Monitor.Passes
import Pulse.Proofs.Monitor.Seats
import Pulse.Proofs.Monitor.Tickets
import Pulse.Proofs.Ordered
import Pulse.Proofs.Report
import Pulse.Proofs.Schedule.Forward
import Pulse.Proofs.Schedule.Periods
import Pulse.Proofs.Scheduler.Accounts
import Pulse.Proofs.Scheduler.Attendance
import Pulse.Proofs.Scheduler.Book
import Pulse.Proofs.Scheduler.Bystanders
import Pulse.Proofs.Scheduler.Crew
import Pulse.Proofs.Scheduler.Drives
import Pulse.Proofs.Scheduler.Fires
import Pulse.Proofs.Scheduler.Jobs
import Pulse.Proofs.Scheduler.Shifts
import Pulse.Proofs.Scheduler.Stopping
import Pulse.Proofs.Store.Backdating
import Pulse.Proofs.Store.Calls
import Pulse.Proofs.Store.Cleaning
import Pulse.Proofs.Store.History
import Pulse.Proofs.Store.Insertion
import Pulse.Proofs.Store.Legible
import Pulse.Proofs.Store.Mirror
import Pulse.Proofs.Store.Mirror.Log
import Pulse.Proofs.Store.Mirror.Metrics
import Pulse.Proofs.Store.Mirror.Relation
import Pulse.Proofs.Store.Mirror.Samples
import Pulse.Proofs.Store.Newest
import Pulse.Proofs.Store.Queries
import Pulse.Proofs.Store.Retention
import Pulse.Proofs.Store.Rows
import Pulse.Proofs.Store.Series
import Pulse.Proofs.Store.Timeline
import Pulse.Proofs.Store.Watch
import Pulse.Proofs.System.Accepted
import Pulse.Proofs.System.Duties
import Pulse.Proofs.System.Endurance
import Pulse.Proofs.System.Frames
import Pulse.Proofs.System.Ingestion
import Pulse.Proofs.System.Inspected
import Pulse.Proofs.System.Interleaving
import Pulse.Proofs.System.Laps
import Pulse.Proofs.System.Manned
import Pulse.Proofs.System.Patrols
import Pulse.Proofs.System.Plant
import Pulse.Proofs.System.Robust
import Pulse.Proofs.System.Silence
import Pulse.Proofs.System.Stretches
import Pulse.Proofs.Text.Digits
import Pulse.Proofs.Time.Calendar
import Pulse.Proofs.Time.Dial
import Pulse.Proofs.Time.Floor
import Pulse.Proofs.Time.Order
import Pulse.Proofs.Time.Reading
import Pulse.Proofs.Time.Shift
import Pulse.Proofs.Time.Written
import Pulse.Proofs.Uptime
import Pulse.Report
import Pulse.Schedule
import Pulse.Schedule.Cron
import Pulse.Schedule.CronParser
import Pulse.Schedule.Every
import Pulse.Scheduler
import Pulse.Scheduler.Task
import Pulse.Server
import Pulse.SocketAddress
import Pulse.Store
import Pulse.Store.Directory
import Pulse.Store.Disturbance
import Pulse.Store.Durable
import Pulse.Store.Error
import Pulse.Store.Memory
import Pulse.System
import Pulse.System.Consuming
import Pulse.System.Lifecycle
import Pulse.System.Passing
import Pulse.System.Program
import Pulse.System.Scheduling
import Pulse.System.Serving
import Pulse.Text.Blank
import Pulse.Text.DecimalDigit
import Pulse.Text.Percent
import Pulse.Text.Quoted
import Pulse.Text.Utf8
import Pulse.Time.Date
import Pulse.Time.Duration
import Pulse.Time.Instant
import Pulse.Time.Parser
import Pulse.Time.Text
import Pulse.Uptime
