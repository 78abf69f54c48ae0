import KcpEv.RingbufQueue
import KcpEv.Header
import KcpEv.TcpRecv
import KcpEv.TcpRefine
import KcpEv.Reassembly
import KcpEv.TcpSafety
import KcpEv.Objects
import KcpEv.Send
import KcpEv.Handshake
import KcpEv.OnRecv
import KcpEv.OnRecvCases
import KcpEv.Callbacks
import KcpEv.Process
import KcpEv.Lib.Ownership
import KcpEv.Slots
import KcpEv.Resources
import KcpEv.Lib.Guarded
import KcpEv.Quiet
import KcpEv.Effects
import KcpEv.Watchers
import KcpEv.Lifecycle
import KcpEv.Typed
import KcpEv.Registry
import KcpEv.ServerHash
import KcpEv.Tidy
import KcpEv.Leaks
import KcpEv.Received
import KcpEv.ServerCallback
import KcpEv.KcpTimers
import KcpEv.Replay
import KcpEv.Wedge
import KcpEv.Encoder
import KcpEv.Lib.Attempts
import KcpEv.ShortWrites
import KcpEv.Ikcp
import KcpEv.IkcpFlush
import KcpEv.Demux
import KcpEv.KcpMessages
import KcpEv.Linked
import KcpEv.Rejected
import KcpEv.Lib.Relational
import KcpEv.Paired
import KcpEv.Isolated
import KcpEv.Sessions
import KcpEv.Steady
import KcpEv.ClientSteps
import KcpEv.Degrade
import KcpEv.Lib.BoundedQueue
import KcpEv.RingbufRun
import KcpEv.Padding
import KcpEv.Schedule
import KcpEv.Acts
import KcpEv.Clock
import KcpEv.Lib.Joint
import KcpEv.Heartbeat
import KcpEv.Timeouts
import KcpEv.Agreement
import KcpEv.Bounded
import KcpEv.KcpArq
import KcpEv.KcpDelivery
import KcpEv.KcpLive
import KcpEv.KcpProgress
import KcpEv.Intact
import KcpEv.Lib.Outcomes
import KcpEv.MemorySafety
import KcpEv.Confined
import KcpEv.Paths
import KcpEv.Hosts
import KcpEv.ClientKeys
import KcpEv.KeyAgreement
import KcpEv.Streams
import KcpEv.Wired
import KcpEv.SharedServer
