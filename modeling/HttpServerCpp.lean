import HttpServerCpp.Core.Transition
import HttpServerCpp.Core.Timer
import HttpServerCpp.Core.Collect
import HttpServerCpp.Core.LongestPrefix
import HttpServerCpp.Core.SortedMap
import HttpServerCpp.Core.PercentEncoding
import HttpServerCpp.Core.RequestResponse
import HttpServerCpp.Core.BoundedReader
import HttpServerCpp.Core.Heap
import HttpServerCpp.Core.Stream
import HttpServerCpp.Core.Feed
import HttpServerCpp.Router.HttpRouter
import HttpServerCpp.Router.Registrations
import HttpServerCpp.Router.LongestMatch
import HttpServerCpp.Router.Reference
import HttpServerCpp.Router.PutGet
import HttpServerCpp.Message.Fields
import HttpServerCpp.Message.HttpTypes
import HttpServerCpp.Message.OriginForm
import HttpServerCpp.Message.WriteResponse
import HttpServerCpp.Message.Framing
import HttpServerCpp.Message.HeaderCalls
import HttpServerCpp.Message.Codings
import HttpServerCpp.Message.AcceptEncoding
import HttpServerCpp.Message.Wire
import HttpServerCpp.Router.Admission
import HttpServerCpp.Router.TrieInvariant
import HttpServerCpp.Router.NodeMemory
import HttpServerCpp.Router.NodeCount
import HttpServerCpp.Router.Order
import HttpServerCpp.Log.HttpLog
import HttpServerCpp.Gzip.GzipHeader
import HttpServerCpp.Gzip.AcceptedHeader
import HttpServerCpp.Gzip.RefusedHeader
import HttpServerCpp.Gzip.GzipFooter
import HttpServerCpp.Gzip.ZlibBase
import HttpServerCpp.Session.Machine
import HttpServerCpp.Session.Steps
import HttpServerCpp.Session.InFlight
import HttpServerCpp.Session.Dispatch
import HttpServerCpp.Session.Target
import HttpServerCpp.Session.ClientTarget
import HttpServerCpp.Session.ReceivedHeaders
import HttpServerCpp.Session.Deadlines
import HttpServerCpp.Session.Serving
import HttpServerCpp.Session.History
import HttpServerCpp.Session.Exchange
import HttpServerCpp.Session.Waiting
import HttpServerCpp.Session.Termination
import HttpServerCpp.Session.Ordering
import HttpServerCpp.Session.Connection
import HttpServerCpp.Session.Persistence
import HttpServerCpp.Session.Closing
import HttpServerCpp.Session.HeadRequest
import HttpServerCpp.Session.Counting
import HttpServerCpp.Server.Impl
import HttpServerCpp.Server.FailedRun
import HttpServerCpp.Server.RequestSize
import HttpServerCpp.Server.StopRace
import HttpServerCpp.Server.Process
import HttpServerCpp.Server.Lifetimes
import HttpServerCpp.Server.AcceptChain
import HttpServerCpp.Server.Lifecycle
import HttpServerCpp.Server.Identity
import HttpServerCpp.Server.Isolation
import HttpServerCpp.Server.Accounting
import HttpServerCpp.Server.Snapshot
