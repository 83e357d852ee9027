import DbosTransact.Debounce.Coalesce
import DbosTransact.Debounce.Targets
import DbosTransact.Debounce.Timeout
import DbosTransact.Dedup.Replays
import DbosTransact.Dispatch.Exclusive
import DbosTransact.Execution.Attempts
import DbosTransact.Execution.Delivery
import DbosTransact.Execution.Fence
import DbosTransact.Execution.Marker
import DbosTransact.Export.Snapshot
import DbosTransact.Family.Cycles
import DbosTransact.Fork.Past
import DbosTransact.Gates.Access
import DbosTransact.Gates.Close
import DbosTransact.Gates.Opening
import DbosTransact.Gates.Replay
import DbosTransact.Lib.JsonText
import DbosTransact.Messages.Delivery
import DbosTransact.Messages.Notifier
import DbosTransact.Messages.Order
import DbosTransact.Messages.Poller
import DbosTransact.Migrations.Concurrent
import DbosTransact.Names.Owner
import DbosTransact.Patch.Law
import DbosTransact.Queue.Deadline
import DbosTransact.Queue.GlobalLimit
import DbosTransact.Queue.Orphan
import DbosTransact.Queue.RateLimit
import DbosTransact.Queue.Visible
import DbosTransact.Queue.Worker
import DbosTransact.Replay.GetResult
import DbosTransact.Replay.SameChild
import DbosTransact.Schedule.Backfill
import DbosTransact.Schedule.Tick
import DbosTransact.Serialization.Causes
import DbosTransact.Serialization.Errors
import DbosTransact.Serialization.Listing
import DbosTransact.Steps.Agreement
import DbosTransact.Steps.Alone
import DbosTransact.Steps.Budget
import DbosTransact.Steps.Once
import DbosTransact.Steps.Race
import DbosTransact.Steps.Transaction
import DbosTransact.Streams.Append
import DbosTransact.Streams.Reader
import DbosTransact.Suspension.Ends
import DbosTransact.SysDb.RetriedCalls
import DbosTransact.SysDb.RowInvariant
import DbosTransact.Wake.Frame
import DbosTransact.Wake.MessageSafety
import DbosTransact.Wake.ResultSafety
import DbosTransact.Wake.Terminal
