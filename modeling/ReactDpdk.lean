import ReactDpdk.Core.AutobufDeallocation
import ReactDpdk.Core.CircularFifo
import ReactDpdk.Core.CircularOccupancy
import ReactDpdk.Core.CircularSingleProducer
import ReactDpdk.Core.FixedTableInsertion
import ReactDpdk.Core.Mailboxes
import ReactDpdk.Core.ReaderSize
import ReactDpdk.Tcp.ClientIsolation
import ReactDpdk.Tcp.CloseWaitExits
import ReactDpdk.Tcp.ConnectionTimers
import ReactDpdk.Tcp.EntryAssertions
import ReactDpdk.Tcp.FrameGuard
import ReactDpdk.Tcp.Handshake
import ReactDpdk.Tcp.HeaderFlags
import ReactDpdk.Tcp.OutOfSequence
import ReactDpdk.Tcp.Ownership
import ReactDpdk.Tcp.PayloadStart
import ReactDpdk.Tcp.PollAccounts
import ReactDpdk.Tcp.Process
import ReactDpdk.Tcp.SynFlood
import ReactDpdk.Tcp.Teardown
import ReactDpdk.Tcp.TimerQuiescence
import ReactDpdk.Tcp.TimerRouting
