import MyUvpp.Packet.Encoder
import MyUvpp.Packet.Reencoding
import MyUvpp.Packet.RoundTrip
import MyUvpp.Packet.RecvdataCalls
import MyUvpp.Buffers.BufferQueue
import MyUvpp.TcpClient.SendContiguity
import MyUvpp.TcpClient.RejectedWrites
import MyUvpp.TcpClient.SendProgress
import MyUvpp.TcpClient.HandleData
import MyUvpp.TcpClient.ReconnectAttempts
import MyUvpp.TcpClient.ReconnectProgress
import MyUvpp.ConnectionReuse
import MyUvpp.TcpServer.ClientClose
import MyUvpp.TcpServer.MutexBalance
import MyUvpp.TcpServer.ContextPool
import MyUvpp.FailedStart
import MyUvpp.ConnectAgain
import MyUvpp.RequestOwnership
import MyUvpp.TcpServer.AnswerStreams
import MyUvpp.Session.Settling
import MyUvpp.Packet.WireFormat
import MyUvpp.Uvpp.Callback
import MyUvpp.Uvpp.Stream
import MyUvpp.Uvpp.Handle
import MyUvpp.Uvpp.HandleLife
import MyUvpp.Uvpp.ClientRegistry
import MyUvpp.Uvpp.ReadEvents
import MyUvpp.Uti.RingBufferFifo
import MyUvpp.Uvpp.Loop
import MyUvpp.Uvpp.RunningCallbacks
import MyUvpp.Packet.Int64Codec
import MyUvpp.TcpServer.Broadcast
import MyUvpp.Uti.RingIterator
import MyUvpp.Uti.RingBufferCopy
import MyUvpp.Foundation.Numerals
import MyUvpp.Uv.HeapSpec
import MyUvpp.Uv.Inet
import MyUvpp.Uv.InetText
import MyUvpp.Uv.InetRoundTrip
import MyUvpp.Uvpp.Net
import MyUvpp.Foundation.Reaching
import MyUvpp.Uv.HeapTree
import MyUvpp.Uv.Timer
import MyUvpp.Uv.TimerRuns
import MyUvpp.Uv.HeapQueue
import MyUvpp.Uv.WriteStreamRuns
import MyUvpp.Uv.WriteStreamFinishes
import MyUvpp.Uv.AsyncRuns
import MyUvpp.Foundation.LinkedRing
import MyUvpp.Uv.Queue
import MyUvpp.Uv.QueueRuns
import MyUvpp.Uv.Walk
import MyUvpp.TcpServer.CloseWalk
import MyUvpp.TcpClient.SendWork
