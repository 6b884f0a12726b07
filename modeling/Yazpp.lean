import Yazpp.Lib.Machine
import Yazpp.Lib.Outbox
import Yazpp.Lib.History
import Yazpp.Lib.Ring
import Yazpp.Lib.Lookup
import Yazpp.Lib.Search
import Yazpp.Lib.Forest
import Yazpp.CInt
import Yazpp.Comstack
import Yazpp.PduAssoc.Model
import Yazpp.PduAssoc.System
import Yazpp.PduAssoc.Spec
import Yazpp.PduAssoc.Output
import Yazpp.PduAssoc.Order
import Yazpp.PduAssoc.Reconnect
import Yazpp.PduAssoc.Close
import Yazpp.PduAssoc.Connect
import Yazpp.PduAssoc.Receive
import Yazpp.PduAssoc.Shut
import Yazpp.PduAssoc.Destroy
import Yazpp.PduAssoc.Once
import Yazpp.PduAssoc.Kin
import Yazpp.Odr
import Yazpp.ZAssoc.Model
import Yazpp.ZAssoc.Encode
import Yazpp.ZAssoc.Life
import Yazpp.ZAssoc.LogBalance
import Yazpp.ZAssoc.ApduLog
import Yazpp.SocketManager.Model
import Yazpp.SocketManager.Spec
import Yazpp.SocketManager.Poll
import Yazpp.SocketManager.Notify
import Yazpp.SocketManager.Unhandled
import Yazpp.SocketManager.Retry
import Yazpp.SocketManager.Timeout
import Yazpp.SocketManager.Registered
import Yazpp.SocketManager.Queue
import Yazpp.SocketManager.QueueLinks
import Yazpp.SocketManager.Fifo
import Yazpp.Net.Model
import Yazpp.Net.Spec
import Yazpp.Net.Kin
import Yazpp.Net.Delivered
import Yazpp.Net.Destroy
import Yazpp.Net.Isolation
import Yazpp.Net.Teardown
import Yazpp.ZServer.Apdu
import Yazpp.ZServer.Retrieval
import Yazpp.ZServer.Pack
import Yazpp.ZServer.SizeRules
import Yazpp.ZServer.Progress
import Yazpp.ZServer.Model
import Yazpp.ZServer.Spec
import Yazpp.ZServer.Negotiate
import Yazpp.ZServer.Defined
import Yazpp.ZServer.Answer
import Yazpp.ZServer.Session
import Yazpp.ZServer.OneAnswer
import Yazpp.ZServer.Positions
import Yazpp.ZServer.Piggyback
import Yazpp.LimitConnect.Model
import Yazpp.LimitConnect.Window
import Yazpp.LimitConnect.Clearing
import Yazpp.LimitConnect.StepBack
import Yazpp.RecordCache.Model
import Yazpp.RecordCache.Spec
import Yazpp.RecordCache.Lookup
import Yazpp.RecordCache.Absent
import Yazpp.RecordCache.Agree
import Yazpp.ZQuery.Model
import Yazpp.ZQuery.Copy
import Yazpp.Zlint.SearchTest
import Yazpp.Zlint.Tables
import Yazpp.IrAssoc.Model
import Yazpp.IrAssoc.DatabaseNames
import Yazpp.Lib.Chain
import Yazpp.Lib.Arena
import Yazpp.Lib.ArenaStore
import Yazpp.Lib.Duplex
import Yazpp.SocketManager.Linked
import Yazpp.SocketManager.InMemory
import Yazpp.LimitConnect.InMemory
import Yazpp.Gdu.Queue
import Yazpp.Gdu.Memory
import Yazpp.Gdu.Values
import Yazpp.Zlint.Driver
import Yazpp.Zlint.Verdicts
import Yazpp.Zlint.Lost
import Yazpp.Zlint.Suite
import Yazpp.Zlint.SuiteRuns
import Yazpp.Zlint.Faults
import Yazpp.ZServer.MyServer
import Yazpp.Zlint.Bench
import Yazpp.Zlint.BenchAnswers
import Yazpp.Zlint.BenchRuns
import Yazpp.IrAssoc.Client
import Yazpp.IrAssoc.Pipeline
import Yazpp.PduAssoc.Link
import Yazpp.PduAssoc.Channels
import Yazpp.IrAssoc.EndToEnd
