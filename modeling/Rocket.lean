import Rocket.FrameStream
import Rocket.StreamSplit
import Rocket.ErrorReply
import Rocket.CallOnce
import Rocket.RequestReply
import Rocket.InputPath
import Rocket.OutputPath
import Rocket.SendQueue
import Rocket.ScopeMutex
import Rocket.EventLoop
import Rocket.ResponseRouting
import Rocket.BufferQueue
import Rocket.Lib.MultiMap
import Rocket.Timer
import Rocket.TimerOrder
import Rocket.TimerArming
import Rocket.TaskOrder
import Rocket.FrozenCall
import Rocket.Lib.Family
import Rocket.TcpServer
import Rocket.AcceptRace
import Rocket.ConnectionLifetime
import Rocket.Descriptors
import Rocket.EpollAgreement
import Rocket.CleanFdEvent
import Rocket.Lib.Ownership
import Rocket.RpcInterface
import Rocket.RunTime
import Rocket.Logger
import Rocket.LogOrder
import Rocket.LogShutdown
import Rocket.LoopReuse
import Rocket.ServerBookkeeping
import Rocket.FrameScan
import Rocket.DecodeTermination
import Rocket.Lib.AccessTrace
import Rocket.DecodeBounds
import Rocket.BufferContract
import Rocket.Resynchronise
import Rocket.AcceptedFrames
import Rocket.Lib.PrefixCode
import Rocket.UniqueDecoding
import Rocket.Lib.Numeral
import Rocket.MsgUtil
import Rocket.MethodRouting
import Rocket.CallbacksKept
import Rocket.LoopExits
import Rocket.TimerCancel
import Rocket.TcpClient
import Rocket.AcceptFailure
import Rocket.Lib.DecimalText
import Rocket.ListenHistory
import Rocket.FdEventGroup
import Rocket.ThreadSpread
import Rocket.LogRotation
import Rocket.NetAddr
import Rocket.AddrLookup
import Rocket.CamelNames
import Rocket.InterfaceNames
import Rocket.Lib.Refinement
import Rocket.Lib.Resend
import Rocket.ResentBytes
import Rocket.Receiving
import Rocket.Link
import Rocket.Conversation
import Rocket.CallCompletion
import Rocket.RemoteCall
import Rocket.Lib.Settling
import Rocket.IOThread
import Rocket.IOThreadGroup
import Rocket.Registration
import Rocket.Lib.TextSearch
import Rocket.HeaderScan
import Rocket.TimerAlarms
import Rocket.CallDeadline
