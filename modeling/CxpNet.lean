import CxpNet.Buffer.Basic
import CxpNet.Buffer.Failure
import CxpNet.Buffer.Fifo
import CxpNet.Buffer.Interface
import CxpNet.Buffer.Shrink
import CxpNet.Buffer.Spec
import CxpNet.Conn.Attempt
import CxpNet.Conn.Basic
import CxpNet.Conn.Channels
import CxpNet.Conn.Client
import CxpNet.Conn.Conduct
import CxpNet.Conn.Connect
import CxpNet.Conn.Echo
import CxpNet.Conn.Graceful
import CxpNet.Conn.Growth
import CxpNet.Conn.HalfClose
import CxpNet.Conn.Incoming
import CxpNet.Conn.Life
import CxpNet.Conn.Lifecycle
import CxpNet.Conn.Link
import CxpNet.Conn.Moves
import CxpNet.Conn.Outgoing
import CxpNet.Conn.Reason
import CxpNet.Conn.Registration
import CxpNet.Conn.Shared
import CxpNet.Conn.Spec
import CxpNet.Conn.Stack
import CxpNet.Conn.Step
import CxpNet.Conn.Stream
import CxpNet.Conn.Watermark
import CxpNet.Conn.Wire
import CxpNet.Conn.Zombie
import CxpNet.Machine.Basic
import CxpNet.Machine.Mutex
import CxpNet.Machine.Pair
import CxpNet.Memory.Basic
import CxpNet.Net.Platform
import CxpNet.Poll.Basic
import CxpNet.Poll.Confinement
import CxpNet.Poll.Dispatch
import CxpNet.Poll.Ends
import CxpNet.Poll.Queue
import CxpNet.Poll.Wakeup
import CxpNet.Poller.Basic
import CxpNet.Poller.Registry
import CxpNet.Poller.Report
import CxpNet.Server.Acceptor
import CxpNet.Server.Admission
import CxpNet.Server.Cap
import CxpNet.Server.Deadlock
import CxpNet.Server.Foreign
import CxpNet.Server.Locks
import CxpNet.Server.Loop
import CxpNet.Server.Outlive
import CxpNet.Server.Stop
import CxpNet.Server.Table
import CxpNet.Server.Timeout
import CxpNet.Timer.Basic
import CxpNet.Timer.Fate
import CxpNet.Timer.Order
import CxpNet.Timer.Wakeup
