import Tudou.Tcp.OutputStream
import Tudou.Tcp.Silence
import Tudou.Reactor.EventLoop
import Tudou.Reactor.Dispatch
import Tudou.Rpc.BinaryRpcServer
import Tudou.Rpc.Responses
import Tudou.Rpc.ServerTables
import Tudou.Foundation.Correlation
import Tudou.Rpc.Completion
import Tudou.Tcp.CrossThreadSend
import Tudou.Foundation.TaggedStream
import Tudou.Rpc.RequestWriter
import Tudou.Rpc.RequestFrames
import Tudou.Rpc.FinishedCalls
import Tudou.Rpc.ReceivePaths
import Tudou.Rpc.CallProgress
import Tudou.Rpc.ServerHistory
import Tudou.Rpc.BinaryRpcLink
import Tudou.Rpc.LinkAtRest
import Tudou.Rpc.Cleanup
import Tudou.Timer.TimerIndex
import Tudou.Timer.Cancellation
import Tudou.Tcp.ServerStop
import Tudou.Rpc.UnifiedRpcServer
import Tudou.Timer.TimerProgress
import Tudou.Rpc.JsonRpcRouter
import Tudou.Rpc.LineFraming
import Tudou.Timer.Firing
import Tudou.Foundation.Resumable
import Tudou.Http.HttpContext
import Tudou.Http.HttpResponse
import Tudou.Http.RequestLoop
import Tudou.Http.PipelinedResponses
import Tudou.Http.TlsConnection
import Tudou.Http.TlsResponses
import Tudou.Http.HttpsServer
import Tudou.Http.TlsReception
import Tudou.Http.KernelTls
import Tudou.Reactor.Registration
import Tudou.Tcp.Ownership
import Tudou.Http.HttpRouter
import Tudou.Http.RequestAssembly
import Tudou.Rpc.FrameFormat
import Tudou.Http.ResponseLength
import Tudou.Http.CloseAfterResponse
import Tudou.Http.ServedConnection
import Tudou.Http.CutShort
import Tudou.Rpc.DispatchExceptions
import Tudou.Tcp.BufferStorage
import Tudou.Tcp.ActiveCount
import Tudou.Tcp.ConnectionHeartbeat
import Tudou.Tcp.HeartbeatTimers
import Tudou.Reactor.EventList
import Tudou.Rpc.Coroutine
import Tudou.Foundation.FdTable
import Tudou.Rpc.ReceiverThread
import Tudou.Rpc.JsonRpcClient
import Tudou.Tcp.Acceptor
import Tudou.Reactor.Quit
import Tudou.Reactor.EventLoopThread
import Tudou.Reactor.Handshake
import Tudou.Foundation.Linearization
import Tudou.Rpc.RemoteCall
import Tudou.Rpc.JsonRpcLink
import Tudou.Rpc.LinearizableCalls
import Tudou.Foundation.RoundRobin
import Tudou.Reactor.EventLoopThreadPool
import Tudou.Foundation.HeadFraming
import Tudou.Http.ResponseReader
import Tudou.Tcp.HeartbeatTiming
import Tudou.Foundation.Search
import Tudou.StarMind.JsonField
