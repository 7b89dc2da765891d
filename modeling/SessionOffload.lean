import SessionOffload.Lib.Transition
import SessionOffload.Lib.Paging
import SessionOffload.Lib.Registry
import SessionOffload.Lib.Intake
import SessionOffload.Lib.Loop
import SessionOffload.Lib.Patch
import SessionOffload.Lib.Watch
import SessionOffload.SessionClient
import SessionOffload.Lifecycle
import SessionOffload.Capacity
import SessionOffload.Cursor
import SessionOffload.ClosedBuffer
import SessionOffload.ClosedStream
import SessionOffload.Retry
import SessionOffload.KeyedMap
import SessionOffload.Interleaving
import SessionOffload.WireRequest
import SessionOffload.AddThenDrain
import SessionOffload.ClientIds
import SessionOffload.TunnelValidity
import SessionOffload.CrossPaging
import SessionOffload.Rekey
import SessionOffload.PageRetry
import SessionOffload.ClientBounds
import SessionOffload.StoredRecords
import SessionOffload.OffloadFailure
import SessionOffload.Accounts
import SessionOffload.Lib.Check
import SessionOffload.Lib.Chunks
import SessionOffload.TunnelChecks
import SessionOffload.StatsStream
import SessionOffload.SlotAllocation
import SessionOffload.AddErrors
import SessionOffload.Pages
import SessionOffload.IdRollOver
import SessionOffload.SummaryChains
import SessionOffload.Lib.Inet
import SessionOffload.MatchEncoding
import SessionOffload.HashRun
import SessionOffload.UtStoreRun
import SessionOffload.SuiteRun
import SessionOffload.TunnelClients
