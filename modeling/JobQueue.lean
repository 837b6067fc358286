import JobQueue.AdminChannel
import JobQueue.Config.Environment
import JobQueue.Config.Json
import JobQueue.Server.Connection
import JobQueue.Server.Recorded
import JobQueue.Task.Run
import JobQueue.Proofs.Binary64.Text
import JobQueue.Proofs.Json.Numeral
import JobQueue.Proofs.Json.StringReader
import JobQueue.Proofs.Json.Written
import JobQueue.Proofs.Json.Value
import JobQueue.Proofs.Json.Schema
import JobQueue.Proofs.DateFormat
import JobQueue.Proofs.Record
import JobQueue.Proofs.Task
import JobQueue.Proofs.Keyspace
import JobQueue.Proofs.Interleaving
import JobQueue.Proofs.Store.Held
import JobQueue.Proofs.Lock.Stage
import JobQueue.Proofs.Lock.Exclusion
import JobQueue.Proofs.Lock.Overtaking
import JobQueue.Proofs.Codec
import JobQueue.Proofs.Calendar
import JobQueue.Proofs.Text.Digits
import JobQueue.Proofs.Store.Lasting
import JobQueue.Proofs.Queue.Operation
import JobQueue.Proofs.Queue.Deque
import JobQueue.Proofs.Queue.History
import JobQueue.Proofs.Queue.Refinement
import JobQueue.Proofs.Binary64.Read
import JobQueue.Proofs.Queue.Frequencies
import JobQueue.Proofs.Queue.Coupling
import JobQueue.Proofs.Queue.Severance
import JobQueue.Proofs.Store.OneKey
import JobQueue.Proofs.Task.Exchange
import JobQueue.Proofs.Lock.Discipline
import JobQueue.Proofs.Lock.Sequential
import JobQueue.Proofs.Queue.Layout
import JobQueue.Proofs.Queue.Clients
import JobQueue.Proofs.Binary64.Order
import JobQueue.Proofs.Text.Bytes
import JobQueue.Proofs.Store.Schedule
import JobQueue.Proofs.Queue.Stores
import JobQueue.Proofs.Atomic
import JobQueue.Proofs.Queue.Timers
import JobQueue.Proofs.Store.Contents
import JobQueue.Proofs.Task.Arrivals
import JobQueue.Proofs.Queue.Commitment
import JobQueue.Proofs.Queue.Restoration
import JobQueue.Proofs.Queue.Timetable
import JobQueue.Proofs.Json.Spelling
import JobQueue.Proofs.Json.View
import JobQueue.Proofs.Json.Strict
import JobQueue.Proofs.Record.Strict
import JobQueue.Proofs.Store.Expiry
import JobQueue.Proofs.Store.Containers
import JobQueue.Proofs.Queue.Drained
import JobQueue.Proofs.AdminChannel
import JobQueue.Proofs.Json.Equality
import JobQueue.Proofs.Queue.Cancellation
import JobQueue.Proofs.Store.Transfer
import JobQueue.Proofs.Binary64.Whole
import JobQueue.Proofs.Queue.Draining
import JobQueue.Proofs.Store.Locality
import JobQueue.Proofs.Client
import JobQueue.Proofs.Queue.Independence
import JobQueue.Proofs.DateFormat.Exclusive
import JobQueue.Proofs.DateFormat.Spelling
import JobQueue.Proofs.Store.Undo
import JobQueue.Proofs.Queue.Undoing
import JobQueue.Proofs.Lock.Disturbance
import JobQueue.Proofs.Queue.Batch
import JobQueue.Proofs.CommandTable
import JobQueue.Proofs.Json.Confined
import JobQueue.Proofs.Record.Delimited
import JobQueue.Proofs.Queue.ReadyOrder
import JobQueue.Proofs.Config.ConnectionUrl
import JobQueue.Proofs.DateFormat.Zone
import JobQueue.Proofs.Json.Printed
import JobQueue.Proofs.Json.Collected
import JobQueue.Proofs.Json.Range
import JobQueue.Proofs.Record.Objects
import JobQueue.Proofs.Record.Integers
