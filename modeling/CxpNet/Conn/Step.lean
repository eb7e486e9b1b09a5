import CxpNet.Conn.Basic
import CxpNet.Machine.Basic

/-!
# The steps of a connection

`Conn.machine A K` is the transition system of one connection: `A` is the allocator, `K` the
kernel.  Its actions are

* steps of the kernel and of the poller (`setWritable`, `sockError`, `deliver`, `dispatch`,
  `runTask`);
* steps of the connection's code on the poll's thread: `tau` goes on with the innermost frame,
  `sendRet` and `recvRet` do so with the result of a system call;
* calls by user code on the poll's thread, inside a callback or outside the connection's code;
* calls by other threads, the server and the timer thread, which only queue closures.

A state of the machine is a state of the connection, or the `Crash` that ended the program.
-/

namespace CxpNet

namespace Conn

/-- The atomic steps. -/
inductive Act where
  | setWritable (b : Bool)
  /-- An error becomes pending on the socket. -/
  | sockError (e : ℕ)
  /-- `epoll_wait` reports events of the channel. -/
  | deliver (ev : Events)
  /-- `poll_` calls `handle_event` of the channel. -/
  | dispatch
  /-- `poll_` executes the next closure; `r` is what becomes of a connect. -/
  | runTask (r : ConnectRet)
  | tau
  | sendRet (r : SendRet)
  | recvRet (r : RecvRet)
  /-- A user callback returns. -/
  | ret
  | send (m : Msg)
  | shutdown
  | close
  /-- The message callback calls `been_read(k)` on the buffer. -/
  | consume (k : ℕ)
  | connect (onConnected onConnectError : Bool) (r : ConnectRet)
  /-- `connect_sync`; `none` if it fails before there is a socket. -/
  | connectSync (h : Option ℕ)
  | setCallbacks (onMessage onClose : Bool)
  | setWatermark (high low : ℕ)
  | setWatermarkCallback
  | setCloseTimeout (ms : ℕ)
  | setBufferSize (read write : ℕ)
  | postSend (m : Msg)
  | postShutdown
  | postClose
  | postConnect (onConnected onConnectError : Bool)
  /-- The closures of `Server::shutdown_impl_` and `close_impl_`. -/
  | serverShutdown
  | serverCleanup
  | extractTimer (id : ℕ)
  | fireTimer (id : ℕ)
  | stopTimers
  /-- `~Conn` -/
  | destroy
  deriving DecidableEq

namespace St

/-- The poll's thread is in a user callback, or outside the connection's code. -/
def inUserCode (s : St) : Bool :=
  match s.ctl with
  | [] | .user _ :: _ => true
  | _ => false

/-- The channel is registered with write interest. -/
def armed (s : St) : Bool :=
  match s.channel with
  | none => false
  | some c => c.registered && c.writing

/-- Queue a closure. -/
def post (t : Task) (s : St) : St := { s with tasks := s.tasks ++ [t] }

/-- Go on with the buffer that an operation has left, unless it threw. -/
def withBuffer (x : Buffer.Res) (k : Buffer → Option (Except Crash St)) :
    Option (Except Crash St) :=
  match x with
  | .done b => k b
  | .throw f _ => some (.error (.buffer f))

variable (A : Allocator) (K : Kernel)

/-- `::send` of `bs`: its result as an `int`.  On an invalid handle it fails with `EBADF`, and it
fails with `EAGAIN` only when the socket has no room. -/
def sysSend (bs : List UInt8) (r : SendRet) (s : St) : Option (ℤ × St) :=
  match r with
  | .accepted n =>
    if s.handle ≠ none ∧ 0 < n ∧ n ≤ bs.length ∧ n ≤ K.maxRwCount then
      some (toInt n, s.note (.sent (bs.take n)))
    else none
  | .error e =>
    if (s.handle = none → e = EBADF) ∧ (e = EAGAIN → s.writable = false) then
      some (-1, { s with errno := e }.note (.sendError e))
    else none

/-- `handle_write_event_`, after `::send`. -/
def writeRet (sendN : ℤ) (s : St) : Except Crash St :=
  if 0 < sendN then s.wrote A sendN.toNat
  else
    match handleErrorAction s.errno with
    | .kBreak => s.writeTail
    | .kContinue => .ok (s.push .writeLoop)
    | .kClose => .ok (s.handleCloseEvent s.errno)

/-- `send_in_poll_thread_`, after `::send`. -/
def sendLoopRet (m : Msg) (sentBytes : ℕ) (sendN : ℤ) (s : St) : Except Crash St :=
  if 0 < sendN then .ok (s.push (.sendLoop m (sentBytes + sendN.toNat)))
  else if sendN = 0 then s.sendTail A m sentBytes
  else
    match handleErrorAction s.errno with
    | .kBreak => s.sendTail A m sentBytes
    | .kContinue => .ok (s.push (.sendLoop m sentBytes))
    | .kClose => .ok (s.handleCloseEvent s.errno)

/-- `direct_write_goal` -/
def directWriteGoal (m : Msg) : ℕ := min m.bytes.length kDirectWriteBudget

/-- The bytes of the next `::send` of the loop of `send_in_poll_thread_`. -/
def attempt (m : Msg) (sentBytes : ℕ) : List UInt8 :=
  (m.bytes.drop sentBytes).take (directWriteGoal m - sentBytes)

/-- A `::send` of the innermost frame returns. -/
def sendRet (r : SendRet) (s : St) : Option (Except Crash St) :=
  match s.ctl with
  | .writeLoop :: rest =>
    match s.writeBuffer with
    | none => none
    | some b =>
      if 0 < b.readableSize then
        (sysSend K b.readable r { s with ctl := rest }).map fun x => x.2.writeRet A x.1
      else none
  | .sendLoop m sentBytes :: rest =>
    if sentBytes < directWriteGoal m then
      (sysSend K (attempt m sentBytes) r { s with ctl := rest }).map fun x =>
        x.2.sendLoopRet A m sentBytes x.1
    else none
  | _ => none

/-- `handle_read_event_`, after `::recv` failed. -/
def recvFailed (hasNewData : Bool) (s : St) : St :=
  match handleErrorAction s.errno with
  | .kBreak => s.readTail hasNewData false 0
  | .kContinue => s.push (.readLoop hasNewData)
  | .kClose => s.readTail hasNewData true s.errno

/-- `::recv` into `b`, and what `handle_read_event_` does with its result. -/
def recvInto (hasNewData : Bool) (b : Buffer) (r : RecvRet) (s : St) :
    Option (Except Crash St) :=
  match r with
  | .data bs =>
    if s.handle ≠ none ∧ bs ≠ [] ∧ bs.length ≤ b.writableSize ∧ bs.length ≤ K.maxRwCount then
      let s := s.note (.received bs)
      if 0 < toInt bs.length then
        withBuffer (b.fill bs) fun b =>
          some (.ok ({ s with readBuffer := some b }.push (.readLoop true)))
      else some (.ok (s.recvFailed hasNewData))
    else none
  | .eof =>
    if s.handle ≠ none then
      some (.ok (({ s with readBuffer := some b }.note .recvEof).readTail hasNewData true 0))
    else none
  | .error e =>
    if s.handle = none → e = EBADF then
      some (.ok (({ s with readBuffer := some b, errno := e }.note (.recvError e)).recvFailed
        hasNewData))
    else none

/-- `handle_read_event_`: a full read buffer is made larger before `::recv`. -/
def makeRoom (b : Buffer) : Buffer.Res :=
  if b.writableSize = 0 then b.ensureWritableSize A (1024 * 2) else .done b

/-- One round of the loop of `handle_read_event_`. -/
def recvRound (hasNewData : Bool) (r : RecvRet) (s : St) : Option (Except Crash St) :=
  match s.readBuffer with
  | none => some (.error .nullBuffer)
  | some b => withBuffer (makeRoom A b) fun b => recvInto K hasNewData b r s

/-- A `::recv` of the innermost frame returns. -/
def recvRet (r : RecvRet) (s : St) : Option (Except Crash St) :=
  match s.ctl with
  | .readLoop hasNewData :: rest =>
    if s.state ≠ .kConnected then none else recvRound A K hasNewData r { s with ctl := rest }
  | _ => none

/-- The innermost frame goes on, if it does not wait for the kernel or the user. -/
def tau (s : St) : Option (Except Crash St) :=
  match s.ctl with
  | .closePart err :: rest => some (.ok ({ s with ctl := rest }.handleCloseEvent err))
  | .writePart :: rest => some (.ok { s with ctl := .writeLoop :: rest })
  | .readLoop _ :: rest =>
    if s.state ≠ .kConnected then some (.ok { s with ctl := rest }) else none
  | .afterMessage shouldClose err :: rest =>
    let s := { s with ctl := rest }
    some (.ok (if shouldClose then s.handleCloseEvent err else s))
  | .writeLoop :: rest =>
    match s.writeBuffer with
    | none => some (.error .nullBuffer)
    | some b => if b.readableSize = 0 then some ({ s with ctl := rest }.writeTail) else none
  | .afterLow :: rest => some (.ok { s with warning := false, ctl := .writeLoop :: rest })
  | .sendLoop m sentBytes :: rest =>
    if directWriteGoal m ≤ sentBytes then some ({ s with ctl := rest }.sendTail A m sentBytes)
    else none
  | .afterHigh :: rest => some (.ok { s with warning := true, ctl := rest })
  | .afterClose :: rest => some (.ok { s with ctl := rest }.releaseChannel)
  | .user _ :: _ | [] => none

/-- The next closure of the queue. -/
def runTask (r : ConnectRet) (s : St) : Option (Except Crash St) :=
  match s.tasks with
  | [] => none
  | t :: rest =>
    let s := { s with tasks := rest }
    match t with
    | .start onConn =>
      some ((s.start A).map fun s => if onConn then s.call .conn none else s)
    | .connect => some (.ok (s.startConnectInPoll r))
    | .send m => some (s.sendInPollThread A m)
    | .shutdown => some s.shutdownInPoll
    | .cleanup err => some (.ok (s.cleanup err))
    | .release => some (.ok s)

/-- `connect`, up to `start_connect_in_poll_`; `none` if it is refused. -/
def beginConnect (onConnected onConnectError : Bool) (s : St) : Option St :=
  if s.state = .kDisconnected then
    some { s with cleanupDone := false, onConnected, onConnectError, used := true }
  else none

/-- `set_read_write_buffer_size` -/
def setBufferSize (read write : ℕ) (s : St) : Except Crash St :=
  if read ≠ 0 ∧ write ≠ 0 then
    match Buffer.new A read, Buffer.new A write with
    | some r, some w => .ok { s with readBuffer := some r, writeBuffer := some w }
    | _, _ => .error (.buffer .badAlloc)
  else .ok s

/-- A call by user code on the poll's thread. -/
def userStep (s : St) : Act → Option (Except Crash St)
  | .ret =>
    match s.ctl with
    | .user _ :: rest => some (.ok { s with ctl := rest })
    | _ => none
  | .send m => some (s.send A m)
  | .shutdown => some s.shutdown
  | .close => some (.ok s.close)
  | .consume k =>
    match s.ctl, s.readBuffer with
    | .user .message :: _, some b =>
      withBuffer (b.beenRead A k) fun b => some (.ok { s with readBuffer := some b })
    | _, _ => none
  | .connect onConnected onConnectError r =>
    match s.beginConnect onConnected onConnectError with
    | some s => some (.ok (s.startConnectInPoll r))
    | none => some (.ok (s.note .refused))
  | .connectSync h =>
    if s.state ≠ .kDisconnected then some (.ok s)
    else
      let s := { s with cleanupDone := false, used := true }
      match h with
      | none => some (.ok s)
      | some h => some ({ s with handle := some h }.start A)
  | .setCallbacks onMessage onClose => some (.ok { s with onMessage, onClose })
  | .setWatermark high low =>
    if high = low ∨ high = 0 ∨ low = 0 then some (.ok s)
    else some (.ok { s with highWatermark := high, lowWatermark := low })
  | .setWatermarkCallback => some (.ok { s with onWatermark := true })
  | .setCloseTimeout ms => some (.ok { s with closeTimeoutMs := ms })
  | .setBufferSize r w => some (s.setBufferSize A r w)
  | _ => none

/-- A step of another thread, of the kernel, or of the poller outside the connection's code. -/
def otherStep (s : St) : Act → Option (Except Crash St)
  | .setWritable b =>
    some (.ok { s with
      writable := b, writeReady := s.writeReady || (b && !s.writable && s.armed) })
  | .sockError e => some (.ok { s with soError := e })
  | .deliver ev =>
    match s.ctl, s.delivered, s.channel with
    | [], none, some c =>
      if c.registered then
        some (.ok { s with
          delivered := some (c.role, ev)
          -- what is pending and not reported is not ready any more
          writeReady := !ev.write && s.writeReady && s.writable })
      else none
    | _, _, _ => none
  | .dispatch =>
    match s.ctl, s.delivered with
    | [], some (role, ev) => some ({ s with delivered := none }.handleEvent A role ev)
    | _, _ => none
  | .runTask r =>
    match s.ctl, s.delivered with
    | [], none => s.runTask A r
    | _, _ => none
  | .postSend m =>
    some (.ok (if s.state ≠ .kConnected ∨ m.bytes = [] then s else s.post (.send m)))
  | .postShutdown =>
    some (.ok (if s.state = .kDisconnected ∨ s.state = .kDisconnecting ∨ s.handle = none then s
      else s.post .shutdown))
  | .postClose => some (.ok (if s.state = .kDisconnected then s else s.post (.cleanup 0)))
  | .postConnect onConnected onConnectError =>
    match s.beginConnect onConnected onConnectError with
    | some s => some (.ok (s.post .connect))
    | none => some (.ok (s.note .refused))
  | .serverShutdown => if s.server then some (.ok (s.post .shutdown)) else none
  | .serverCleanup => if s.server then some (.ok (s.post (.cleanup 0))) else none
  | .extractTimer id =>
    if id ∈ s.scheduled ∧ s.timersRunning = true then
      some (.ok { s with scheduled := s.scheduled.erase id, extracted := s.extracted ++ [id] })
    else none
  | .fireTimer id =>
    if id ∈ s.extracted then
      some (.ok ({ s with extracted := s.extracted.erase id }.post (.cleanup ETIMEDOUT)))
    else none
  | .stopTimers => some (.ok { s with timersRunning := false })
  | .destroy =>
    -- the channel's callbacks, the queued closures and the frames keep the object alive
    if s.ctl = [] ∧ s.tasks = [] ∧ s.channel = none ∧ s.delivered = none then
      some (.ok { s.cancelCloseTimeout.closeSocket with alive := false })
    else none
  | _ => none

/-- One step of a live connection. -/
def step (s : St) (a : Act) : Option (Except Crash St) :=
  match a with
  | .tau => s.tau A
  | .sendRet r => s.sendRet A K r
  | .recvRet r => s.recvRet A K r
  | .ret | .send _ | .shutdown | .close | .consume _ | .connect _ _ _ | .connectSync _
  | .setCallbacks _ _ | .setWatermark _ _ | .setWatermarkCallback | .setCloseTimeout _
  | .setBufferSize _ _ => if s.inUserCode then s.userStep A a else none
  | _ => s.otherStep A a

end St

/-- The connection as a machine; a crash and the destructor end its life. -/
def machine (A : Allocator) (K : Kernel) : Machine (Except Crash St) Act where
  step c a :=
    match c with
    | .error _ => none
    | .ok s => if s.alive then s.step A K a else none

/-- `Conn(event_poll, handle)` with the default settings. -/
def new (handle : Option ℕ) : St where
  handle := handle
  channel := none
  onMessage := false
  onClose := false
  internalClose := false
  onWatermark := false
  onConnected := false
  onConnectError := false
  highWatermark := 1024 * 1024
  lowWatermark := 256 * 1024
  warning := false
  state := .kDisconnected
  readBuffer := none
  writeBuffer := none
  closeTimeoutMs := 30000
  closeTimerId := 0
  cleanupDone := false
  server := false
  used := false
  alive := true
  tasks := []
  delivered := none
  ctl := []
  timersRunning := true
  nextTimerId := 1
  scheduled := []
  extracted := []
  writable := false
  writeReady := false
  soError := 0
  errno := 0
  log := []

/-- A connection that `Server::on_new_connection_` has made for handle `h`, its `start_` queued. -/
def accepted (h : ℕ) (onConn : Bool) : St :=
  { new (some h) with
    internalClose := true, server := true, used := true, tasks := [.start onConn] }

/-- The states a connection begins in: made by a server, or by a client. -/
inductive Init : St → Prop
  | server (h : ℕ) (onConn : Bool) : Init (accepted h onConn)
  | client : Init (new none)

/-- A `Conn` is a one-shot object: `connect` is called with success at most once, and never on a
connection of a server. -/
def OneShot (c : Except Crash St) (a : Act) : Prop :=
  match c, a with
  | .ok s, .connect _ _ _ | .ok s, .postConnect _ _ | .ok s, .connectSync _ =>
    s.state = .kDisconnected → s.used = false
  | _, _ => True

instance : ∀ c a, Decidable (OneShot c a)
  | .ok s, .connect _ _ _ | .ok s, .postConnect _ _ | .ok s, .connectSync _ =>
    inferInstanceAs (Decidable (s.state = .kDisconnected → s.used = false))
  | .error _, _ | .ok _, .setWritable _ | .ok _, .sockError _ | .ok _, .deliver _
  | .ok _, .dispatch | .ok _, .runTask _ | .ok _, .tau | .ok _, .sendRet _ | .ok _, .recvRet _
  | .ok _, .ret | .ok _, .send _ | .ok _, .shutdown | .ok _, .close | .ok _, .consume _
  | .ok _, .setCallbacks _ _ | .ok _, .setWatermark _ _ | .ok _, .setWatermarkCallback
  | .ok _, .setCloseTimeout _ | .ok _, .setBufferSize _ _ | .ok _, .postSend _
  | .ok _, .postShutdown | .ok _, .postClose | .ok _, .serverShutdown | .ok _, .serverCleanup
  | .ok _, .extractTimer _ | .ok _, .fireTimer _ | .ok _, .stopTimers | .ok _, .destroy =>
    .isTrue trivial

/-- The run of `as` ends in a state that passes the test `p`. -/
def endsIn (A : Allocator) (K : Kernel) (s₀ : St) (as : List Act) (p : St → Bool) : Bool :=
  match (machine A K).exec (.ok s₀) as with
  | some (.ok s) => p s
  | _ => false

/-- What a step of the machine is, on a state that has not crashed. -/
theorem machine_step {A : Allocator} {K : Kernel} {s : St} {a : Act} {c : Except Crash St}
    (h : (machine A K).step (.ok s) a = some c) : s.step A K a = some c := by
  simp only [machine] at h
  split_ifs at h
  exact h

/-- **The invariant rule** for states that have not crashed, relative to an invariant `J` that is
already known. -/
theorem invariant_ok {A : Allocator} {K : Kernel} {G : Except Crash St → Act → Prop}
    {I J : St → Prop} {s₀ s : St} (h : (machine A K).ReachIf G (.ok s₀) (.ok s))
    (hJ : ∀ s, (machine A K).ReachIf G (.ok s₀) (.ok s) → J s) (h₀ : I s₀)
    (hstep : ∀ s a s', J s → I s → G (.ok s) a → s.step A K a = some (.ok s') → I s') : I s := by
  have key := h.invariant_of (I := fun c => ∀ s, c = .ok s → I s)
    (J := fun c => ∀ s, c = .ok s → J s) (fun c hc s hs => hJ s (hs ▸ hc))
    (fun s hs => by cases hs; exact h₀)
    (fun c a c' hj hi hG hst s' hs' => by
      subst hs'
      cases c with
      | error e => cases hst
      | ok s => exact hstep s a s' (hj s rfl) (hi s rfl) hG (machine_step hst))
  exact key s rfl

/-- A concrete run, checked by evaluation. -/
theorem reachIf_of_endsIn {A : Allocator} {K : Kernel} {G : Except Crash St → Act → Prop}
    {p : St → Bool} (s₀ : St) (as : List Act) (h : endsIn A K s₀ as p = true)
    (hG : (machine A K).Meets G (.ok s₀) as) :
    ∃ s, (machine A K).ReachIf G (.ok s₀) (.ok s) ∧ p s = true := by
  unfold endsIn at h
  split at h
  · rename_i s hs
    exact ⟨s, .of_exec as hs hG, h⟩
  · cases h

end Conn

end CxpNet
