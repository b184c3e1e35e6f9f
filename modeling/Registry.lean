import Registry.Checksum.Reading
import Registry.Import.Importer
import Registry.Import.Script
import Registry.Log.Sink
import Registry.Settings.Connection
import Registry.Proofs.History.Timeline
import Registry.Proofs.History.Engine
import Registry.Proofs.Import.Course
import Registry.Proofs.Inbox.Gate
import Registry.Proofs.Import.Delivery
import Registry.Proofs.Import.Atomicity
import Registry.Proofs.Import.Chronicle
import Registry.Proofs.Import.FailLock
import Registry.Proofs.Inbox.Glance
import Registry.Proofs.Inbox.Stability
import Registry.Proofs.History.RegisterRows
import Registry.Proofs.History.RoundTrip
import Registry.Proofs.History.Written
import Registry.Proofs.History.Replay
import Registry.Proofs.History.Redelivery
import Registry.Proofs.History.Independence
import Registry.Proofs.History.Interrupted
import Registry.Proofs.History.Permanence
import Registry.Proofs.History.Lookup
import Registry.Proofs.History.Overlap
import Registry.Proofs.History.Termination
import Registry.Proofs.History.Agreement
import Registry.Proofs.History.StampedRun
import Registry.Proofs.Import.Queue
import Registry.Proofs.History.Rewriting
import Registry.Proofs.Number.DecimalValue
import Registry.Proofs.Record.Rendering
import Registry.Proofs.Record.Filling
import Registry.Proofs.Time.CompactOrder
import Registry.Proofs.Status.Overdue
import Registry.Proofs.Checksum.Streaming
import Registry.Proofs.Time.MilliFloor
import Registry.Proofs.History.StoredAmount
