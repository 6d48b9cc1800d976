import Hlib.Transition
import Hlib.Loop
import Hlib.Monitor
import Hlib.Latch
import Hlib.FlagMask
import Hlib.Overwrite
import Hlib.Delimiter
import Hlib.DescriptorTable
import Hlib.Holdings
import Hlib.AtMostOne
import Hlib.Overload
import Hlib.UnorderedMap
import Hlib.ByteOrder
import Hlib.Mealy
import Hlib.Calendar
import Hlib.Memory
import Hlib.Buffer
import Hlib.BufferEdit
import Hlib.BufferContents
import Hlib.BufferLists
import Hlib.BufferCalls
import Hlib.BufferInvariant
import Hlib.BufferAtomic
import Hlib.BufferGrowth
import Hlib.Base64Codec
import Hlib.Base64Standard
import Hlib.Base64
import Hlib.Base64Encode
import Hlib.Base64Decode
import Hlib.Base64RoundTrip
import Hlib.Base64Unpadded
import Hlib.FileRead
import Hlib.FileReadAppend
import Hlib.FileReadAll
import Hlib.FileReadStream
import Hlib.FileCalls
import Hlib.FileWrite
import Hlib.StringNumber
import Hlib.StringValue
import Hlib.Usage
import Hlib.UsageAlike
import Hlib.UsageArguments
import Hlib.UsageReparse
import Hlib.UsagePermuted
import Hlib.UsageQueries
import Hlib.UsageOrder
import Hlib.UsageExplicit
import Hlib.UsageDeclared
import Hlib.Uri
import Hlib.UriParts
import Hlib.UriParsed
import Hlib.UriRead
import Hlib.UriRoundTrip
import Hlib.UriEncoding
import Hlib.SockAddr
import Hlib.SockAddrText
import Hlib.SockAddrReuse
import Hlib.BrokenTime
import Hlib.TimeText
import Hlib.Clock
import Hlib.ClockText
import Hlib.ClockRoundTrip
import Hlib.ClockOffset
import Hlib.Fsm
import Hlib.FsmRuns
import Hlib.Pool
import Hlib.PoolThreads
import Hlib.Handle
import Hlib.Source
import Hlib.SourceMoves
import Hlib.SinkMoves
import Hlib.Sink
import Hlib.Serial
import Hlib.SerialScalar
import Hlib.SerialRoundTrip
import Hlib.SerialAssertions
import Hlib.EventLoop
import Hlib.EventLoopTables
import Hlib.EventLoopDispatch
import Hlib.EventLoopWake
import Hlib.EventQueue
import Hlib.EventBus
import Hlib.EventBusLookup
import Hlib.EventBusVisits
import Hlib.EventBusMap
import Hlib.Endpoint
import Hlib.EndpointCalls
import Hlib.EndpointHalves
import Hlib.Handlers
import Hlib.FileDescriptorIo
import Hlib.FileDescriptorIoSteps
import Hlib.FileDescriptorIoInterest
import Hlib.FileDescriptorIoEvent
import Hlib.Subprocess
import Hlib.SubprocessPipes
import Hlib.SubprocessOutput
import Hlib.Socket
import Hlib.SocketCalls
import Hlib.SocketSteps
import Hlib.SocketWork
import Hlib.SocketQueue
import Hlib.ReadEvent
import Hlib.WriteDelivery
import Hlib.WriteOrder
import Hlib.EndpointFaults
import Hlib.EndpointTable
import Hlib.ReadCompletion
import Hlib.Reentrancy
import Hlib.FileDescriptorIoReentry
import Hlib.SocketReceive
import Hlib.SocketReentry
import Hlib.CallbackReentry
import Hlib.SocketLife
import Hlib.SocketRegistration
import Hlib.SocketFailures
import Hlib.SocketCloseOnce
import Hlib.UntilClose
import Hlib.HangUp
import Hlib.EndOfFile
import Hlib.SubprocessChild
import Hlib.SubprocessFork
import Hlib.SubprocessDescriptors
import Hlib.SubprocessIsolation
import Hlib.Duration
import Hlib.DispatchTimeout
import Hlib.DispatchDeadline
import Hlib.BufferZeroed
import Hlib.BufferAllocator
import Hlib.StringScan
import Hlib.StringDecimal
import Hlib.StringInteger
import Hlib.StringFloat
import Hlib.Occurrences
import Hlib.StringSplit
import Hlib.StringCount
import Hlib.SockAddrFailure
import Hlib.PercentCoding
import Hlib.UriEscape
import Hlib.UriTarget
import Hlib.DurationArithmetic
import Hlib.Truncation
import Hlib.RatioValue
import Hlib.RatioConversion
import Hlib.DurationTicks
import Hlib.DurationScale
import Hlib.ClockFraction
import Hlib.ClockLocal
import Hlib.ClockDate
import Hlib.Fraction
import Hlib.FractionLoop
import Hlib.Comparison
import Hlib.FractionOrder
import Hlib.Container
import Hlib.ContainerReplace
import Hlib.AccessLog
import Hlib.Base64Accesses
import Hlib.EnvironmentVariable
import Hlib.TestSuite
import Hlib.TimerDescriptors
import Hlib.EventDelivery
import Hlib.Framing
import Hlib.FileDescriptorIoLink
import Hlib.FileDescriptorIoFrames
import Hlib.SubprocessInput
import Hlib.CpuMonitor
import Hlib.CpuMonitorUpdate
import Hlib.CpuMonitorRuns
import Hlib.CpuMonitorText
import Hlib.CpuFiles
import Hlib.CpuMonitorSums
import Hlib.SignalHandlers
import Hlib.SignalRuns
import Hlib.SignalWait
import Hlib.SocketSide
import Hlib.SocketConversation
import Hlib.TimerRuns
import Hlib.MemoryCopy
import Hlib.UriRequest
import Hlib.UriComponents
import Hlib.Synopsis
import Hlib.UsageText
import Hlib.FileStore
