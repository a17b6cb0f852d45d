import TszyUlt.Lib.Memory
import TszyUlt.Lib.Framing
import TszyUlt.Lib.Transition
import TszyUlt.Lib.Table
import TszyUlt.Lib.Chunks
import TszyUlt.Lib.Lease
import TszyUlt.Lib.FirstFailure
import TszyUlt.Lib.RoundRobin
import TszyUlt.Lib.OrderStatistics
import TszyUlt.Lib.DrainedCounter
import TszyUlt.Lib.Base64
import TszyUlt.Lib.DataRefinement
import TszyUlt.Lib.Linearizability
import TszyUlt.Lib.Simulation
import TszyUlt.Lib.Handles
import TszyUlt.Lib.HandleCache
import TszyUlt.Zbf.TcpMessage
import TszyUlt.Zbf.Memchunk
import TszyUlt.Zbf.SafeQueue
import TszyUlt.Zbf.TimerHelper
import TszyUlt.Zbf.RecvPath
import TszyUlt.Zbf.MsgRoundTrip
import TszyUlt.Zbf.MemAlloc
import TszyUlt.Zbf.RequestStat
import TszyUlt.Zbf.Histogram
import TszyUlt.Zbf.StatCounters
import TszyUlt.Zbf.ServerStart
import TszyUlt.Zbf.Swimlanes
import TszyUlt.Zbf.WritePath
import TszyUlt.Zbf.WriteInterest
import TszyUlt.Zbf.Transport
import TszyUlt.Zbf.TransportDrain
import TszyUlt.Zbf.KeepAlive
import TszyUlt.Zbf.SocketPoll
import TszyUlt.Zbf.AsyncClient
import TszyUlt.Zbf.QueueBound
import TszyUlt.Zbf.AsyncConnect
import TszyUlt.Zbf.ReconnectOutbound
import TszyUlt.Zbf.ReconnectInbound
import TszyUlt.Zbf.EpollServer
import TszyUlt.Zbf.EpollLifecycle
import TszyUlt.Zbf.EpollEvents
import TszyUlt.Zbf.EventLoop
import TszyUlt.Zbf.HaPool
import TszyUlt.Zbf.PoolOwnership
import TszyUlt.Zbf.HaClients
import TszyUlt.Zbf.CursorSelection
import TszyUlt.Zbf.SyncClient
import TszyUlt.Zbf.SyncAcks
import TszyUlt.Zbf.AsyncManager
import TszyUlt.Zbf.MonitorRegistry
import TszyUlt.Zbf.AsioUser
import TszyUlt.Zbf.AsioOutbound
import TszyUlt.Zbf.AsioCallbacks
import TszyUlt.Zbf.AsioInbound
import TszyUlt.Zbf.AsioServer
import TszyUlt.Zbf.MemchunkQueue
import TszyUlt.Zbf.TransferLoops
import TszyUlt.Zbf.QueueCalls
import TszyUlt.Zbf.ServerStop
import TszyUlt.Zbf.ServerStopProgress
import TszyUlt.Fszm.SerializeHelper
import TszyUlt.Fszm.SerializeValues
import TszyUlt.Fszm.OpensslUtils
import TszyUlt.Fszm.AesRoundTrip
import TszyUlt.Fszm.Base64
import TszyUlt.Lygc.ServerConfig
import TszyUlt.Lygc.LymsgProtocol
import TszyUlt.Lygc.StreamReassembly
import TszyUlt.Lygc.SizeLimits
import TszyUlt.Lygc.FramingViolation
import TszyUlt.Lygc.PendingStore
import TszyUlt.Lygc.PendingStoreContract
import TszyUlt.Lygc.ResponseDelivery
import TszyUlt.Lygc.NetClient
import TszyUlt.Lygc.Correlation
import TszyUlt.Lygc.Network
import TszyUlt.Lygc.WireExchange
import TszyUlt.Lygc.RequestHandlers
import TszyUlt.Lygc.DbProxy
import TszyUlt.Lygc.DbProxyDelivery
import TszyUlt.Lygc.DbProxyMatching
import TszyUlt.Lygc.DisconnectCleanup
import TszyUlt.Wjp.ClientMessages
import TszyUlt.Wjp.MongoClientReq
import TszyUlt.Wjp.DecodeWork
import TszyUlt.Wjp.ClientPool
import TszyUlt.Wjp.MongoTransaction
import TszyUlt.Wjp.MongoArguments
import TszyUlt.Wjp.MongoReply
import TszyUlt.Wjp.PooledClients
import TszyUlt.Wjp.RedisCommand
import TszyUlt.Wjp.RedisResults
import TszyUlt.Wjp.MysqlQuery
import TszyUlt.Wjp.MysqlStatement
import TszyUlt.Wjp.MysqlTransaction
import TszyUlt.Wjp.MysqlHandles
import TszyUlt.Wjp.RedisHandles
import TszyUlt.Wjp.MongoHandles
import TszyUlt.Lygc.DbProxyUsers
import TszyUlt.Lygc.DbRejections
import TszyUlt.Lygc.HandshakeHelper
import TszyUlt.Lygc.GateServer
import TszyUlt.Lygc.OriginRouting
import TszyUlt.Lygc.GateSession
import TszyUlt.Lygc.SessionEncryption
import TszyUlt.Lygc.GateResponses
import TszyUlt.Lygc.HandshakeClient
import TszyUlt.Lygc.KeyAgreement
import TszyUlt.Lygc.KeyLengths
import TszyUlt.Lygc.HandshakeBlocks
import TszyUlt.Lygc.HandshakeResponse
