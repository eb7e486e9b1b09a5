import CxpNet.Buffer.Basic
import CxpNet.Net.Platform

/-!
# A connection

`Conn` of `conn.cc`, with the channel of `channel.cc` it owns, as the poll's thread executes them.
The state is that of one connection and of everything it talks to: the poll's task queue and active
channels, the timer manager, and the kernel's side of the socket.

A function of the source that runs to its end without calling the kernel for data or the user is a
function `St → Except Crash St` here; a `Crash` is an uncaught exception or a null pointer that is
dereferenced.  A function that does call them is cut at those calls: what is still to do after the
call is a `Frame`, and the frames of the calls in progress form a stack (`St.ctl`, innermost
first).  The thread is outside the connection's code when the stack is empty.

What happened is recorded in `St.log`, oldest first.
-/

namespace CxpNet

namespace Conn

/-! ### Data -/

/-- Which callbacks a channel was given: `start_connect_in_poll_` sets only the write callback (to
`handle_connect_event_`), `start_` sets all three. -/
inductive Role where
  | connecting
  | established
  deriving DecidableEq, Repr

/-- `Channel`: its `events_` and `registered_`. -/
structure Channel where
  role : Role
  reading : Bool
  writing : Bool
  registered : Bool
  deriving DecidableEq, Repr

/-- The user callbacks. -/
inductive Callback where
  /-- `Server::on_conn_func_` -/
  | conn
  | message
  | watermark (n : ℕ)
  | close (err : ℕ)
  | connected
  | connectError (err : ℕ)
  deriving DecidableEq, Repr

/-- The closures of this connection that are queued on its poll. -/
inductive Task where
  /-- Of `on_new_connection_`; `onConn` if `on_conn_func_` was set. -/
  | start (onConn : Bool)
  | connect
  | send (m : Msg)
  | shutdown
  | cleanup (err : ℕ)
  /-- Keeps the channel of `do_cleanup_` until the handlers have returned. -/
  | release
  deriving DecidableEq

/-- What is still to do after a call returns. -/
inductive Frame where
  /-- A user callback is running. -/
  | user (cb : Callback)
  /-- `Channel::handle_event_`, before `on_close_func_(err)`. -/
  | closePart (err : ℕ)
  /-- `Channel::handle_event_`, before `on_write_func_()`. -/
  | writePart
  /-- The loop of `handle_read_event_`. -/
  | readLoop (hasNewData : Bool)
  /-- `handle_read_event_`, after the message callback. -/
  | afterMessage (shouldClose : Bool) (err : ℕ)
  /-- The loop of `handle_write_event_`. -/
  | writeLoop
  /-- `handle_write_event_`, after the watermark callback. -/
  | afterLow
  /-- The loop of `send_in_poll_thread_`. -/
  | sendLoop (m : Msg) (sentBytes : ℕ)
  /-- `send_in_poll_thread_`, after the watermark callback. -/
  | afterHigh
  /-- `do_cleanup_`, after the close callback. -/
  | afterClose
  deriving DecidableEq

/-- What happened. -/
inductive Ev where
  /-- `send_in_poll_thread_` began in state `kConnected`. -/
  | began (bs : List UInt8)
  /-- The kernel accepted bytes. -/
  | sent (bs : List UInt8)
  | sendError (e : ℕ)
  /-- The kernel delivered bytes. -/
  | received (bs : List UInt8)
  | recvEof
  | recvError (e : ℕ)
  /-- `Platform::shut_wr` -/
  | shutWr
  /-- `Platform::close_handle` -/
  | closeHandle (h : ℕ)
  /-- `channel_->clear_event(); channel_->remove();` on a channel of this role. -/
  | deregistered (role : Role)
  | moved (st : State)
  | internalClose
  | called (cb : Callback)
  /-- `connect` was refused with `EALREADY`. -/
  | refused
  deriving DecidableEq

/-- Why the code does not go on. -/
inductive Crash where
  | buffer (f : Fault)
  | nullBuffer
  | nullChannel
  deriving DecidableEq, Repr

/-- A connection and what it talks to. -/
structure St where
  /-- `handle_`; `none` is `invalid_socket`. -/
  handle : Option ℕ
  /-- `channel_` -/
  channel : Option Channel
  /-- `on_message_func_` is set, and so on. -/
  onMessage : Bool
  onClose : Bool
  internalClose : Bool
  onWatermark : Bool
  onConnected : Bool
  onConnectError : Bool
  highWatermark : ℕ
  lowWatermark : ℕ
  /-- `high_watermark_warning_` -/
  warning : Bool
  /-- `state_` -/
  state : State
  readBuffer : Option Buffer
  writeBuffer : Option Buffer
  closeTimeoutMs : ℕ
  closeTimerId : ℕ
  cleanupDone : Bool
  /-- The connection is one of a `Server`. -/
  server : Bool
  /-- History: the object was given a socket by the server, or a `connect` was accepted. -/
  used : Bool
  /-- The destructor has not run. -/
  alive : Bool
  /-- The poll's queue, as far as this connection is concerned. -/
  tasks : List Task
  /-- The channel's entry in `active_channels_`. -/
  delivered : Option (Role × Events)
  /-- The calls in progress. -/
  ctl : List Frame
  /-- `TimerManager`: `running_`, `next_id_`, the scheduled timers, and those whose callback was
  extracted and is yet to run. -/
  timersRunning : Bool
  nextTimerId : ℕ
  scheduled : List ℕ
  extracted : List ℕ
  /-- The socket has room for data. -/
  writable : Bool
  /-- A write-ready notification is pending in the poller. -/
  writeReady : Bool
  /-- `SO_ERROR` -/
  soError : ℕ
  errno : ℕ
  log : List Ev

namespace St

/-- Record an event. -/
def note (e : Ev) (s : St) : St := { s with log := s.log ++ [e] }

/-- `set_state_`; a store of the same value is not a move. -/
def setState (st : State) (s : St) : St :=
  if s.state = st then s else { s with state := st }.note (.moved st)

/-- Enter a call. -/
def push (f : Frame) (s : St) : St := { s with ctl := f :: s.ctl }

/-- Call a user callback; `f` is what comes after it. -/
def call (cb : Callback) (f : Option Frame) (s : St) : St :=
  { s with ctl := .user cb :: (f.toList ++ s.ctl) }.note (.called cb)

/-! ### The channel -/

/-- `Channel::update_` with `EpollPoller::update_channel`.  `EPOLL_CTL_ADD` and `EPOLL_CTL_MOD`
raise a notification for an event that is ready now; a notification for an event that is not asked
for any more is not reported. -/
def update (c : Channel) (s : St) : St :=
  if c.registered = false then
    if c.reading || c.writing then
      { s with
        channel := some { c with registered := true }, writeReady := c.writing && s.writable }
    else { s with channel := some c }
  else if c.reading || c.writing then
    { s with channel := some c, writeReady := c.writing && (s.writeReady || s.writable) }
  else { s with channel := some { c with registered := false }, writeReady := false }

/-- `channel_->add_write_event()` -/
def addWriteEvent (s : St) : Except Crash St :=
  match s.channel with
  | none => .error .nullChannel
  | some c => .ok (if c.writing then s else s.update { c with writing := true })

/-- `channel_->remove_write_event()` -/
def removeWriteEvent (s : St) : Except Crash St :=
  match s.channel with
  | none => .error .nullChannel
  | some c => .ok (if c.writing then s.update { c with writing := false } else s)

/-- `channel_->clear_event(); channel_->remove();`, if there is a channel.  After `clear_event` the
channel is not registered and `remove` returns at once. -/
def deregister (s : St) : St :=
  match s.channel with
  | none => s
  | some c => (s.update { c with reading := false, writing := false }).note (.deregistered c.role)

/-! ### The socket -/

/-- `Platform::close_handle(handle_)` unless the handle is invalid. -/
def closeSocket (s : St) : St :=
  match s.handle with
  | none => s
  | some h => { s with handle := none }.note (.closeHandle h)

/-- `getsockopt(SO_ERROR)` reads and clears the pending error; on an invalid handle it fails. -/
def takeSoError (s : St) : Option ℕ × St :=
  match s.handle with
  | none => (none, s)
  | some _ => (some s.soError, { s with soError := 0 })

/-! ### Closing -/

/-- `cancel_close_timeout_` with `TimerManager::cancel_timer` -/
def cancelCloseTimeout (s : St) : St :=
  if s.closeTimerId = 0 then s
  else { s with
    scheduled := if s.timersRunning then s.scheduled.erase s.closeTimerId else s.scheduled
    closeTimerId := 0 }

/-- `start_close_timeout_` with `TimerManager::add_timer` -/
def startCloseTimeout (s : St) : St :=
  if s.closeTimerId ≠ 0 then s
  else if s.timersRunning then
    { s with closeTimerId := s.nextTimerId, nextTimerId := s.nextTimerId + 1,
             scheduled := s.scheduled ++ [s.nextTimerId] }
  else s

/-- `Platform::shut_wr(handle_)` at the beginning of `cleanup_`. -/
def shutWrIfConnected (s : St) : St :=
  if s.state = .kConnected ∧ s.handle ≠ none then s.note .shutWr else s

/-- `do_cleanup_`: `internal_close_callback_` is moved out and called.  It only erases the server's
entry. -/
def runInternalClose (s : St) : St :=
  if s.internalClose then { s with internalClose := false }.note .internalClose else s

/-- The end of `do_cleanup_`: the channel is handed to a closure that runs later. -/
def releaseChannel (s : St) : St :=
  match s.channel with
  | none => s
  | some _ => { s with channel := none, tasks := s.tasks ++ [.release] }

/-- `do_cleanup_`: `on_close_func_` is moved out and called. -/
def runClose (err : ℕ) (s : St) : St :=
  if s.onClose then { s with onClose := false }.call (.close err) (some .afterClose)
  else s.releaseChannel

/-- `do_cleanup_` -/
def doCleanup (err : ℕ) (s : St) : St :=
  (s.deregister.closeSocket.setState .kDisconnected).runInternalClose.runClose err

/-- `cleanup_` -/
def cleanup (err : ℕ) (s : St) : St :=
  if s.cleanupDone then s
  else
    (({ s with cleanupDone := true }.cancelCloseTimeout.shutWrIfConnected).setState
      .kDisconnecting).doCleanup err

/-- `handle_close_event_` -/
def handleCloseEvent (err : ℕ) (s : St) : St :=
  if s.state = .kDisconnected then s else s.cleanup err

/-- `write_buffer_->readable_size() == 0`, or there is no buffer. -/
def nothingToWrite (s : St) : Bool :=
  match s.writeBuffer with
  | none => true
  | some b => b.readableSize = 0

/-- `shutdown_in_poll_`: with nothing left to write, the write side is closed at once. -/
def finishWrites (s : St) : Except Crash St :=
  if s.nothingToWrite then do
    let s ← if s.channel = none then .ok s else s.removeWriteEvent
    .ok (s.note .shutWr)
  else .ok s

/-- `shutdown_in_poll_` -/
def shutdownInPoll (s : St) : Except Crash St :=
  if s.state = .kDisconnected ∨ s.state = .kDisconnecting then .ok s
  else if s.handle = none then .ok s
  else do
    let s ← (s.setState .kDisconnecting).finishWrites
    .ok (if 0 < s.closeTimeoutMs then s.startCloseTimeout else s)

/-- `shutdown` on the poll's thread. -/
def shutdown (s : St) : Except Crash St :=
  if s.state = .kDisconnected ∨ s.state = .kDisconnecting ∨ s.handle = none then .ok s
  else s.shutdownInPoll

/-- `close` on the poll's thread. -/
def close (s : St) : St := if s.state = .kDisconnected then s else s.cleanup 0

/-! ### Sending -/

section

variable (A : Allocator)

/-- An operation on `write_buffer_`. -/
def onWriteBuffer (f : Buffer → Buffer.Res) (s : St) : Except Crash St :=
  match s.writeBuffer with
  | none => .error .nullBuffer
  | some b =>
    match f b with
    | .done b => .ok { s with writeBuffer := some b }
    | .throw f _ => .error (.buffer f)

/-- `write_buffer_->readable_size()` -/
def writeSize (s : St) : Except Crash ℕ :=
  match s.writeBuffer with
  | none => .error .nullBuffer
  | some b => .ok b.readableSize

/-- `kDirectWriteBudget` -/
def kDirectWriteBudget : ℕ := 64 * 1024

/-- The end of `send_in_poll_thread_`: the high watermark. -/
def checkHigh (s : St) : Except Crash St := do
  let size ← s.writeSize
  if s.warning = false ∧ s.highWatermark < size then
    if s.onWatermark then .ok (s.call (.watermark s.highWatermark) (some .afterHigh))
    else .ok { s with warning := true }
  else .ok s

/-- `write_buffer_->append(..); channel_->add_write_event();` and the end of
`send_in_poll_thread_`. -/
def enqueue (bs : List UInt8) (s : St) : Except Crash St := do
  let s ← s.onWriteBuffer (Buffer.append A bs)
  let s ← s.addWriteEvent
  s.checkHigh

/-- `send_in_poll_thread_`, after its loop. -/
def sendTail (m : Msg) (sentBytes : ℕ) (s : St) : Except Crash St :=
  if sentBytes < m.bytes.length then s.enqueue A (m.bytes.drop sentBytes) else s.checkHigh

/-- `send_in_poll_thread_`, up to its loop. -/
def sendInPollThread (m : Msg) (s : St) : Except Crash St :=
  if s.state ≠ .kConnected then .ok s
  else
    let s := s.note (.began m.bytes)
    match s.writeBuffer, s.channel with
    | some b, some _ =>
      if 0 < b.readableSize then s.enqueue A m.bytes else .ok (s.push (.sendLoop m 0))
    | _, _ => .ok s

/-- `send` on the poll's thread. -/
def send (m : Msg) (s : St) : Except Crash St :=
  if s.state ≠ .kConnected ∨ m.bytes = [] then .ok s else s.sendInPollThread A m

/-- `handle_write_event_`, after its loop. -/
def writeTail (s : St) : Except Crash St := do
  let size ← s.writeSize
  if size = 0 then
    let s ← s.onWriteBuffer fun b => .done b.clear
    let s ← s.removeWriteEvent
    .ok (if s.state = .kDisconnecting then s.note .shutWr else s)
  else .ok s

/-- `handle_write_event_`, after `send_n > 0`. -/
def wrote (n : ℕ) (s : St) : Except Crash St := do
  let s ← s.onWriteBuffer (Buffer.beenRead A n)
  let size ← s.writeSize
  if s.warning = true ∧ size ≤ s.lowWatermark then
    if s.onWatermark then .ok (s.call (.watermark s.lowWatermark) (some .afterLow))
    else .ok (s.push .afterLow)
  else .ok (s.push .writeLoop)

/-! ### Connecting -/

/-- A buffer of the default size, unless there is one. -/
def newBuffer (b : Option Buffer) : Except Crash Buffer :=
  match b with
  | some b => .ok b
  | none =>
    match Buffer.new A Buffer.kInitialCapacity with
    | some b => .ok b
    | none => .error (.buffer .badAlloc)

/-- `start_` -/
def start (s : St) : Except Crash St :=
  if s.handle = none then .ok s
  else if s.channel ≠ none ∧ s.readBuffer.isSome ∧ s.writeBuffer.isSome ∧
      s.state = .kConnected then .ok s
  else do
    let r ← newBuffer A s.readBuffer
    let w ← newBuffer A s.writeBuffer
    -- a new channel, with `add_read_event`
    .ok (({ s with cleanupDone := false, readBuffer := some r, writeBuffer := some w }.update
      ⟨.established, true, false, false⟩).setState .kConnected)

/-- Report a failed connect. -/
def connectFailed (err : ℕ) (s : St) : St :=
  if s.onConnectError then s.call (.connectError err) none else s

/-- `start_connect_in_poll_` -/
def startConnectInPoll (r : ConnectRet) (s : St) : St :=
  match r with
  | .badAddress => s.connectFailed EINVAL
  | .failed e => s.connectFailed e
  | .inProgress h =>
    ({ s with handle := some h }.setState .kConnecting).update ⟨.connecting, false, true, false⟩

/-- `channel_->clear_event(); channel_->remove(); channel_.reset();`, if there is a channel. -/
def dropChannel (s : St) : St := { s.deregister with channel := none }

/-- `handle_connect_event_`; a `getsockopt` that fails leaves its own error. -/
def handleConnectEvent (s : St) : Except Crash St :=
  if s.state ≠ .kConnecting then .ok s
  else
    let err := s.takeSoError.1.getD EBADF
    let s := s.takeSoError.2.dropChannel
    if err ≠ 0 then .ok ((s.closeSocket.setState .kDisconnected).connectFailed err)
    else do
      let s ← s.start A
      .ok (if s.onConnected then s.call .connected none else s)

/-! ### Events -/

/-- The read part of `Channel::handle_event_`. -/
def readPart (ev : Events) (s : St) : St := if ev.read then s.push (.readLoop false) else s

/-- `Channel::handle_event_` of a channel with this role.  For an established connection the
parts that call handlers become frames. -/
def handleEvent (role : Role) (ev : Events) (s : St) : Except Crash St :=
  if ev.error || ev.hup then
    let err := if ev.error then s.takeSoError.1.getD 0 else 0
    let s := if ev.error then s.takeSoError.2 else s
    match role with
    | .connecting => .ok s
    | .established => .ok ((s.push (.closePart err)).readPart ev)
  else
    match role with
    | .connecting => if ev.write then s.handleConnectEvent A else .ok s
    | .established => .ok ((if ev.write then s.push .writePart else s).readPart ev)

end

/-- `handle_read_event_`, after its loop. -/
def readTail (hasNewData shouldClose : Bool) (err : ℕ) (s : St) : St :=
  if hasNewData && s.onMessage then s.call .message (some (.afterMessage shouldClose err))
  else s.push (.afterMessage shouldClose err)

end St

end Conn

end CxpNet
