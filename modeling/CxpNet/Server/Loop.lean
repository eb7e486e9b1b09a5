import CxpNet.Machine.Basic
import Mathlib.Data.List.Basic
import Mathlib.Tactic.SplitIfs

/-!
# A server around its main poll

A `Server` that was started successfully, seen from the thread of `main_poll_`: the gate of
`Server::poll`, the dispatch and the tasks of `main_poll_`, the accept batches, the connections,
the stop calls `close` and `shutdown` of that thread, made outside or inside a callback, and
`~Server`.  Callbacks nest: a callback may close a connection, whose close callback may stop the
server, whose forced cleanups run further close callbacks.  So the thread is described by where
its `poll()` stands (`Phase`) and by a stack of calls above that (`Frame`); only when the stack is
empty does `poll()` go on.

Two other threads act on the server.  `U` calls `Server::close()` (in mode `kOnePollPerThread` it
is the exit thread if `close()` was called on a managed thread, and it may execute
`Server::shutdown()` instead); it queues closures on `main_poll_` and waits for them.  `V` calls
`Server::shutdown()` in mode `kAllOneThread`, in a release build.

What does not matter here is left open: which channels report events, what a handler does before
it calls a callback or closes its connection, and what else the sub-polls do.  A call that would
lock `conns_mutex_` a second time never returns, so it has no step.
-/

namespace CxpNet

namespace Server

namespace Loop

/-- `RunningMode` -/
inductive RunningMode where
  | kAllOneThread
  | kOnePollPerThread
  deriving DecidableEq, Repr

/-- What the user has set before `start`. -/
structure Config where
  /-- `running_mode_` -/
  mode : RunningMode
  /-- `max_connections_` -/
  maxConnections : ℕ
  /-- `shutdown_timeout_ms_` -/
  shutdownTimeoutMs : ℕ
  /-- `on_conn_func_` is set. -/
  onConn : Bool
  /-- `on_error_func_` is set. -/
  onError : Bool
  deriving DecidableEq, Repr

/-- The values that `Server` has if the user sets only the callbacks. -/
def Config.default (mode : RunningMode) : Config := ⟨mode, 0, 30000, true, true⟩

/-! ### Connections -/

/-- A connection that `on_new_connection_` has admitted. -/
structure Peer where
  /-- The handle it was made for; its internal close callback has captured it. -/
  handle : ℕ
  /-- `handle_` is not `invalid_socket`. -/
  isOpen : Bool
  /-- `cleanup_done_` -/
  cleanupDone : Bool
  /-- `on_close_func_` is set. -/
  onClose : Bool
  /-- History: how often its socket was closed. -/
  closes : ℕ
  /-- History: a close callback was set when it was cleaned up. -/
  wanted : Bool
  /-- History: how often its close callback was invoked. -/
  calls : ℕ
  deriving DecidableEq, Repr

/-- `std::make_shared<Conn>(event_poll, handle)` -/
def Peer.new (h : ℕ) : Peer := ⟨h, true, false, false, 0, false, 0⟩

/-- `cleanup_` and `do_cleanup_`, up to and including the call of the close callback. -/
def Peer.cleanup (p : Peer) : Peer :=
  { p with
    isOpen := false
    cleanupDone := true
    onClose := false
    closes := p.closes + if p.isOpen then 1 else 0
    wanted := p.onClose
    calls := p.calls + if p.onClose then 1 else 0 }

/-- `conns_.erase(h)` -/
def eraseHandle (h : ℕ) (conns : List (ℕ × ℕ)) : List (ℕ × ℕ) := conns.filter fun e => e.1 ≠ h

/-! ### The poll thread -/

/-- Which of the two stops. -/
inductive Kind where
  | shutdown
  | close
  deriving DecidableEq, Repr

/-- A closure queued on `main_poll_`. -/
inductive Task where
  /-- The deferred release of a channel. -/
  | release
  /-- `send_in_poll_thread_` of connection `i`. -/
  | send (i : ℕ)
  /-- `cleanup_` of connection `i`, after a `Conn::close` on another thread or a close timeout. -/
  | cleanup (i : ℕ)
  /-- Queued by `U` in `Acceptor::shutdown`. -/
  | acceptorShutdown
  /-- `cleanup_` of connection `i`, queued by `U` in `run_in_poll_and_wait_`. -/
  | cleanupAndSet (i : ℕ)
  deriving DecidableEq, Repr

/-- Where the poll thread stands in `Server::poll`. -/
inductive Phase where
  | outside
  /-- In the loop of `poll_` over `active_channels_`. -/
  | dispatch
  /-- In the loop of `Acceptor::handle_read_`, with these handles still to pass on. -/
  | batch (rest : List ℕ)
  /-- In the loop of `poll_` over `tmp_tasks`. -/
  | tasks (rest : List Task)
  /-- Before `finish_shutdown_all_one_thread_`. -/
  | finish
  /-- Past it. -/
  | leave
  deriving DecidableEq, Repr

/-- Which function has the loop of forced cleanups. -/
inductive Tail where
  /-- `close_impl_` -/
  | close
  /-- `finish_shutdown_all_one_thread_` -/
  | finish
  deriving DecidableEq, Repr

/-- A call on the stack of the poll thread. -/
inductive Frame where
  /-- A user callback. -/
  | user
  /-- The section of `on_new_connection_` that refuses a handle. -/
  | locked
  /-- The event handlers of connection `i`, or its `send_in_poll_thread_`. -/
  | handler (i : ℕ)
  /-- `do_cleanup_` past the close callback. -/
  | closing
  /-- Before the section that copies `conns_` and clears it. -/
  | clear (k : Tail)
  /-- In the loop of forced cleanups. -/
  | force (k : Tail) (rest : List ℕ)
  /-- Before `shutdown_polls_`. -/
  | polls (k : Tail)
  /-- Before `shutting_down_.store(false)`. -/
  | store (k : Tail)
  /-- Before `started_.store(false)`. -/
  | storeStarted
  /-- In the closure of `run_in_poll_and_wait_`, before `done->set_value()`. -/
  | setValue
  /-- A `close()`, or a `~Server`, called outside any callback is about to return. -/
  | returning (dtor : Bool)
  deriving DecidableEq, Repr

/-! ### The other threads -/

/-- Where `U` stands in `close()` or `shutdown()`. -/
inductive UPc where
  | idle
  /-- Before `is_shutdown()` in `Acceptor::shutdown`. -/
  | acceptor (k : Kind)
  /-- Before `run_in_poll` in `Acceptor::shutdown`. -/
  | post (k : Kind)
  /-- In the `future.get()` of `Acceptor::shutdown`. -/
  | waitAcceptor (k : Kind)
  /-- In `shutdown_impl_`, before the wait for the connections is over. -/
  | graceful
  /-- Before the section that copies `conns_` and clears it. -/
  | clear (k : Kind)
  /-- At the snapshot of connections. -/
  | conns (rest : List ℕ)
  /-- In the `future.get()` of `run_in_poll_and_wait_`, for connection `i`. -/
  | waitConn (i : ℕ) (rest : List ℕ)
  | polls
  | store
  | returned
  deriving DecidableEq, Repr

/-- Past `Acceptor::shutdown`. -/
def UPc.pastAcceptor : Kind → UPc
  | .shutdown => .graceful
  | .close => .clear .close

/-- The promise of `Acceptor::shutdown` is set. -/
def UPc.acceptorSet : UPc → UPc
  | waitAcceptor k => pastAcceptor k
  | p => p

/-- The promise of `run_in_poll_and_wait_` is set. -/
def UPc.connSet : UPc → UPc
  | waitConn _ rest => conns rest
  | p => p

theorem UPc.eq_of_acceptorSet {p : UPc} (h : p.acceptorSet = .clear .close) :
    p = .clear .close ∨ p = .waitAcceptor .close := by
  cases p with
  | waitAcceptor k =>
    cases k
    · cases h
    · exact .inr rfl
  | _ => exact .inl h

theorem UPc.eq_of_connSet {p : UPc} {k : Kind} (h : p.connSet = .clear k) : p = .clear k := by
  cases p with
  | waitConn i rest => cases h
  | _ => exact h

/-- Where `V` stands in `shutdown()`. -/
inductive VPc where
  | idle
  /-- `started_` was seen true: before the exchange of `shutting_down_`. -/
  | loaded
  deriving DecidableEq, Repr

/-! ### States and actions -/

/-- The server, its connections and the three threads. -/
structure St where
  /-- `started_` -/
  started : Bool
  /-- `shutting_down_` -/
  shuttingDown : Bool
  /-- `shutdown_deadline_`; `none` is `time_point::max()`. -/
  deadline : Option ℕ
  /-- `steady_clock::now()` -/
  now : ℕ
  /-- `main_poll_->is_shutdown()` -/
  shut : Bool
  /-- `channel_` of the acceptor exists. -/
  listening : Bool
  /-- `accepted_handles_`, while `handle_read_` is not passing them on. -/
  accepted : List ℕ
  /-- `conns_`: handles, each with the index of its connection in `peers`. -/
  conns : List (ℕ × ℕ)
  /-- The connections admitted so far. -/
  peers : List Peer
  /-- `tasks_` of `main_poll_`. -/
  tasks : List Task
  phase : Phase
  ctl : List Frame
  u : UPc
  v : VPc
  /-- `~Server` has returned. -/
  gone : Bool
  /-- History: `Acceptor::shutdown` has taken effect as part of `close()`. -/
  cut : Bool
  /-- History: `close_impl_` has cleared `conns_`. -/
  cleared : Bool
  /-- History: how many connections were admitted after `cut`. -/
  late : ℕ
  /-- History: how many closures queued by `U` were executed. -/
  served : ℕ
  /-- History: how often the thread check of `shutdown()` threw. -/
  thrown : ℕ
  deriving DecidableEq, Repr

/-- The handles of the current accept batch that are still to be passed to
`on_new_connection_`. -/
def St.pending (s : St) : List ℕ :=
  match s.phase with
  | .batch rest => rest
  | .outside | .dispatch | .tasks _ | .finish | .leave => []

/-- `start(mode)` has just returned true. -/
def init (now : ℕ) : St where
  started := true
  shuttingDown := false
  deadline := some 0
  now := now
  shut := false
  listening := true
  accepted := []
  conns := []
  peers := []
  tasks := []
  phase := .outside
  ctl := []
  u := .idle
  v := .idle
  gone := false
  cut := false
  cleared := false
  late := 0
  served := 0
  thrown := 0

/-- The atomic steps. -/
inductive Act where
  /-- The poll thread calls `Server::poll`; in mode `kOnePollPerThread` the next round of
  `main_poll_->run()`. -/
  | poll
  /-- `handle_read_`: `Platform::accept` returns 0 and has accepted these handles. -/
  | accept (hs : List ℕ)
  /-- `handle_read_`: `Platform::accept` fails after it has accepted these handles; `report`
  unless the error is `ECANCELED` or `EBADF`. -/
  | acceptError (hs : List ℕ) (report : Bool)
  /-- The channel of connection `i` is dispatched. -/
  | event (i : ℕ)
  /-- The loop over `active_channels_` ends. -/
  | dispatchDone
  /-- `on_new_connection_` of the next handle; `addrOk` if its address can be read. -/
  | newConn (addrOk : Bool)
  /-- `poll_` reports an error of the poller. -/
  | pollError
  /-- A handler calls the message callback or the watermark callback. -/
  | callback
  /-- A handler closes its connection. -/
  | fail
  /-- A user callback returns. -/
  | endUser
  /-- The poll thread goes on. -/
  | next
  /-- User code on the poll thread: `Conn::send`, `Conn::close`, a change of the close callback of
  connection `i`, and the stops; `dt` passes between the two readings of the clock. -/
  | send (i : ℕ)
  | connClose (i : ℕ)
  | setOnClose (i : ℕ) (set : Bool)
  | close
  | shutdown (dt : ℕ)
  | destroy (dt : ℕ)
  /-- Other threads: `Conn::send` and `Conn::close`, a close timeout. -/
  | postSend (i : ℕ)
  | postCleanup (i : ℕ)
  /-- Time passes. -/
  | tick (dt : ℕ)
  | uClose
  | uShutdown
  | uNext
  | vShutdown
  | vExchange
  /-- A sub-poll cleans up connection `i`. -/
  | subCleanup (i : ℕ)
  /-- A sub-poll executes the closure that `U` waits for. -/
  | subServe
  deriving DecidableEq, Repr

/-! ### Steps -/

/-- Calls are made; the first frame is on top. -/
def push (fs : List Frame) (s : St) : St := { s with ctl := fs ++ s.ctl }

/-- The connection `i`, which is `p`, is cleaned up. -/
def tearDown (i : ℕ) (p : Peer) (s : St) : St :=
  { s with peers := s.peers.set i p.cleanup, conns := eraseHandle p.handle s.conns }

/-- `Conn::cleanup_` of connection `i` on the poll thread. -/
def cleanup (i : ℕ) (s : St) : Option St :=
  match s.peers[i]? with
  | none => none
  | some p =>
    if p.cleanupDone then some s
    else if .locked ∈ s.ctl then none
    else some (push (if p.onClose then [.user, .closing] else [.closing]) (tearDown i p s))

/-- `steady_clock::now() < shutdown_deadline_` -/
def St.early (s : St) : Bool :=
  match s.deadline with
  | none => true
  | some d => s.now < d

variable (cfg : Config)

/-- `finish_shutdown_all_one_thread_`, up to the section that clears `conns_`. -/
def finishShutdownAllOneThread (s : St) : St :=
  if cfg.mode ≠ .kAllOneThread then s
  else if s.shuttingDown = false then s
  else if s.conns ≠ [] ∧ s.early = true then s
  else push [.clear .finish] s

/-- `shutdown_all_one_thread_` from the exchange of `shutting_down_` up to its last line.  What it
tells the connections changes nothing here. -/
def beginShutdown (dt : ℕ) (s : St) : St :=
  { s with
    shuttingDown := true
    deadline := if 0 < cfg.shutdownTimeoutMs then some (s.now + cfg.shutdownTimeoutMs) else none
    now := s.now + dt
    listening := false }

/-- `Server::shutdown` on the poll thread in mode `kAllOneThread`. -/
def shutdownAllOneThread (dt : ℕ) (s : St) : Option St :=
  if s.started = false ∨ s.shuttingDown = true then some s
  else if .locked ∈ s.ctl then none
  else some (finishShutdownAllOneThread cfg (beginShutdown cfg dt s))

/-- `Server::close` on the poll thread, up to the section that clears `conns_`.  If `started_` was
true, `shutting_down_` is not exchanged. -/
def beginClose (s : St) : St :=
  push [.clear .close] { s with
    started := false
    shuttingDown := s.started && s.shuttingDown
    listening := false
    cut := true }

/-- `Server::close` on the poll thread in mode `kAllOneThread`. -/
def closeAllOneThread (s : St) : Option St :=
  if s.started = false ∧ s.shuttingDown = false then some s
  else if .locked ∈ s.ctl then none
  else some (beginClose s)

/-- A stop that is called outside any callback. -/
def St.returns (dtor : Bool) (s : St) : St := { s with ctl := s.ctl ++ [.returning dtor] }

/-- User code may run on the poll thread. -/
def St.inUser (s : St) : Bool :=
  !s.gone && match s.ctl with
    | [] => s.phase = .outside
    | f :: _ => f = .user

/-- The user code is not inside a callback. -/
def St.idle (s : St) : Bool := !s.gone && s.ctl = [] && s.phase = .outside

/-- What the kernel may return from `accept4`: numbers that are not in use. -/
def St.fresh (s : St) (hs : List ℕ) : Bool :=
  hs.Nodup ∧ ∀ h ∈ hs, h ∉ s.accepted ∧ ∀ p ∈ s.peers, p.isOpen = true → p.handle ≠ h

/-- `conns_.size() >= max_connections_`, if there is a maximum. -/
def St.full (s : St) : Bool := 0 < cfg.maxConnections ∧ cfg.maxConnections ≤ s.conns.length

/-- `on_new_connection_` of `h` when `rest` is still to come. -/
def onNewConnection (h : ℕ) (rest : List ℕ) (addrOk : Bool) (s : St) : St :=
  if s.full cfg then
    push (if cfg.onError then [.user, .locked] else []) { s with phase := .batch rest }
  else if addrOk then
    -- in mode `kAllOneThread` the closure with `start_` and the callback is executed at once
    push (if cfg.mode = .kAllOneThread ∧ cfg.onConn = true then [.user] else []) { s with
      phase := .batch rest
      conns := (h, s.peers.length) :: eraseHandle h s.conns
      peers := s.peers ++ [.new h]
      late := s.late + if s.cut then 1 else 0 }
  else { s with phase := .batch rest }

/-- The poll thread executes a closure. -/
def runTask (s : St) : Task → Option St
  | .release => some s
  | .send i => some (push [.handler i] s)
  | .cleanup i => cleanup i s
  | .acceptorShutdown => some { s with
      listening := false
      cut := s.cut || s.u = .waitAcceptor .close
      served := s.served + 1
      u := s.u.acceptorSet }
  | .cleanupAndSet i => cleanup i (push [.setValue] s)

/-- The poll thread goes on in `poll()`. -/
def nextPhase (s : St) : Option St :=
  match s.phase with
  | .batch [] => some { s with phase := .dispatch }
  | .tasks [] => some { s with phase := .finish }
  | .tasks (t :: rest) => runTask { s with phase := .tasks rest } t
  | .finish => some (finishShutdownAllOneThread cfg { s with phase := .leave })
  | .leave => some { s with phase := .outside }
  | .outside | .dispatch | .batch (_ :: _) => none

/-- The poll thread goes on in the call `f`, on top of `fs`. -/
def nextFrame (fs : List Frame) (s : St) : Frame → Option St
  | .user => none
  | .locked | .handler _ => some { s with ctl := fs }
  | .closing => some { s with ctl := fs, tasks := s.tasks ++ [.release] }
  | .clear k => some { s with
      ctl := .force k (s.conns.map (·.2)) :: fs
      conns := []
      cleared := s.cleared || k = .close }
  | .force k [] => some { s with ctl := .polls k :: fs }
  | .force k (i :: rest) => cleanup i { s with ctl := .force k rest :: fs }
  | .polls k => some { s with ctl := .store k :: fs, shut := true }
  | .store .close => some { s with ctl := fs, shuttingDown := false }
  | .store .finish => some { s with ctl := .storeStarted :: fs, shuttingDown := false }
  | .storeStarted => some { s with ctl := fs, started := false }
  | .setValue => some { s with ctl := fs, served := s.served + 1, u := s.u.connSet }
  | .returning dtor => some { s with ctl := fs, gone := dtor }

/-- `U` goes on. -/
def uStep (s : St) : Option St :=
  match s.u with
  | .acceptor k =>
    if s.shut then
      some { s with u := .pastAcceptor k, listening := false, cut := s.cut || k = .close }
    else some { s with u := .post k }
  | .post k => some { s with u := .waitAcceptor k, tasks := s.tasks ++ [.acceptorShutdown] }
  | .graceful => some { s with u := .clear .shutdown }
  | .clear k => some { s with
      u := .conns (s.conns.map (·.2))
      conns := []
      cleared := s.cleared || k = .close }
  | .conns [] => some { s with u := .polls }
  | .conns (i :: rest) =>
    -- the connections of mode `kOnePollPerThread` are on the sub-polls
    some { s with
      u := .waitConn i rest
      tasks := if cfg.mode = .kAllOneThread then s.tasks ++ [.cleanupAndSet i] else s.tasks }
  | .polls => some { s with u := .store, shut := true }
  | .store => some { s with u := .returned, shuttingDown := false }
  | .idle | .waitAcceptor _ | .waitConn _ _ | .returned => none

/-- One step of a server with this configuration. -/
def step (s : St) : Act → Option St
  | .poll =>
    if s.idle then
      match cfg.mode with
      | .kAllOneThread =>
        if s.started = false ∧ s.shuttingDown = false then some s
        else some { s with phase := if s.shut then .finish else .dispatch }
      | .kOnePollPerThread =>
        if s.shut then
          if s.tasks = [] then some s else some { s with phase := .tasks s.tasks, tasks := [] }
        else some { s with phase := .dispatch }
    else none
  | .accept hs =>
    if s.ctl = [] ∧ s.phase = .dispatch ∧ s.listening = true ∧ s.fresh hs = true then
      some { s with phase := .batch (s.accepted ++ hs), accepted := [] }
    else none
  | .acceptError hs report =>
    if s.ctl = [] ∧ s.phase = .dispatch ∧ s.listening = true ∧ s.fresh hs = true then
      some (push (if report && cfg.onError then [.user] else [])
        { s with accepted := s.accepted ++ hs })
    else none
  | .event i =>
    if s.ctl = [] ∧ s.phase = .dispatch ∧ cfg.mode = .kAllOneThread then
      some (push [.handler i] s)
    else none
  | .dispatchDone =>
    if s.ctl = [] ∧ s.phase = .dispatch then
      some { s with phase := .tasks s.tasks, tasks := [] }
    else none
  | .newConn addrOk =>
    match s.ctl, s.phase with
    | [], .batch (h :: rest) => some (onNewConnection cfg h rest addrOk s)
    | _, _ => none
  | .pollError =>
    if s.ctl = [] ∧ s.phase = .tasks [] ∧ cfg.onError = true then
      some (push [.user] { s with phase := .finish })
    else none
  | .callback =>
    match s.ctl with
    | .handler _ :: _ => some (push [.user] s)
    | _ => none
  | .fail =>
    match s.ctl with
    | .handler i :: _ => cleanup i s
    | _ => none
  | .endUser =>
    match s.ctl with
    | .user :: fs => some { s with ctl := fs }
    | _ => none
  | .next =>
    match s.ctl with
    | [] => nextPhase cfg s
    | f :: fs => nextFrame fs s f
  | .send i =>
    if cfg.mode = .kAllOneThread ∧ s.inUser = true then some (push [.handler i] s) else none
  | .connClose i =>
    if cfg.mode = .kAllOneThread ∧ s.inUser = true then cleanup i s else none
  | .setOnClose i set =>
    if s.inUser then
      (s.peers[i]?).map fun p => { s with peers := s.peers.set i { p with onClose := set } }
    else none
  | .close =>
    if cfg.mode = .kAllOneThread ∧ s.inUser = true then
      (closeAllOneThread s).map fun s' => if s.ctl = [] then s'.returns false else s'
    else none
  | .shutdown dt =>
    if cfg.mode = .kAllOneThread ∧ s.inUser = true then shutdownAllOneThread cfg dt s else none
  | .destroy dt =>
    if cfg.mode = .kAllOneThread ∧ s.idle = true then
      (shutdownAllOneThread cfg dt s).map (·.returns true)
    else none
  | .postSend i =>
    if cfg.mode = .kAllOneThread then some { s with tasks := s.tasks ++ [.send i] } else none
  | .postCleanup i =>
    if cfg.mode = .kAllOneThread then some { s with tasks := s.tasks ++ [.cleanup i] } else none
  | .tick dt => some { s with now := s.now + dt }
  | .uClose =>
    if s.u = .idle then
      if s.started then some { s with started := false, u := .acceptor .close }
      else if s.shuttingDown then some { s with shuttingDown := false, u := .acceptor .close }
      else some s
    else none
  | .uShutdown =>
    if s.u = .idle ∧ cfg.mode = .kOnePollPerThread then
      if s.started then some { s with started := false, u := .acceptor .shutdown } else some s
    else none
  | .uNext => uStep cfg s
  | .vShutdown =>
    if s.v = .idle ∧ cfg.mode = .kAllOneThread then
      if s.started then some { s with v := .loaded } else some s
    else none
  | .vExchange =>
    if s.v = .loaded then
      if s.shuttingDown then some { s with v := .idle }
      else some { s with v := .idle, shuttingDown := true, thrown := s.thrown + 1 }
    else none
  | .subCleanup i =>
    if cfg.mode = .kOnePollPerThread then
      (s.peers[i]?).map fun p => if p.cleanupDone then s else tearDown i p s
    else none
  | .subServe =>
    match cfg.mode, s.u with
    | .kOnePollPerThread, .waitConn i rest =>
      (s.peers[i]?).map fun p =>
        { (if p.cleanupDone then s else tearDown i p s) with
          u := .conns rest, served := s.served + 1 }
    | _, _ => none

/-- The server as a machine. -/
def machine : Machine St Act := ⟨step cfg⟩

/-! ### What the calls do -/

variable {cfg} {s s' : St}

theorem idle_iff : s.idle = true ↔ s.gone = false ∧ s.ctl = [] ∧ s.phase = .outside := by
  simp [St.idle, and_assoc]

theorem cleanup_cases {i : ℕ} (h : cleanup i s = some s') :
    (s' = s ∧ ∃ p, s.peers[i]? = some p ∧ p.cleanupDone = true) ∨
      ∃ p fs, s.peers[i]? = some p ∧ p.cleanupDone = false ∧
        (fs = [.user, .closing] ∨ fs = [.closing]) ∧
        s' = push fs (tearDown i p s) := by
  unfold cleanup at h
  split at h
  · cases h
  · rename_i p hp
    split_ifs at h with hd hl ho
    · cases h
      exact .inl ⟨rfl, p, hp, hd⟩
    · cases h
      exact .inr ⟨p, _, hp, by simpa using hd, .inl rfl, rfl⟩
    · cases h
      exact .inr ⟨p, _, hp, by simpa using hd, .inr rfl, rfl⟩

theorem finishShutdown_cases (cfg : Config) (s : St) :
    finishShutdownAllOneThread cfg s = s ∨ (cfg.mode = .kAllOneThread ∧ s.shuttingDown = true ∧
      (s.conns = [] ∨ s.early = false) ∧
      finishShutdownAllOneThread cfg s = push [.clear .finish] s) := by
  unfold finishShutdownAllOneThread
  split_ifs with hm hs hc
  · exact .inl rfl
  · exact .inl rfl
  · exact .inl rfl
  · exact .inr ⟨by simpa using hm, by simpa using hs, by simpa [or_iff_not_imp_left] using hc, rfl⟩

theorem shutdown_cases {dt : ℕ} (h : shutdownAllOneThread cfg dt s = some s') :
    ((s.started = false ∨ s.shuttingDown = true) ∧ s' = s) ∨
      (s.started = true ∧ s.shuttingDown = false ∧
        s' = finishShutdownAllOneThread cfg (beginShutdown cfg dt s)) := by
  unfold shutdownAllOneThread at h
  split_ifs at h with hs hl
  · cases h
    exact .inl ⟨hs, rfl⟩
  · cases h
    exact .inr ⟨by simpa using fun he => hs (.inl he), by simpa using fun he => hs (.inr he), rfl⟩

theorem close_cases (h : closeAllOneThread s = some s') :
    (s.started = false ∧ s.shuttingDown = false ∧ s' = s) ∨
      ((s.started || s.shuttingDown) = true ∧ s' = beginClose s) := by
  unfold closeAllOneThread at h
  split_ifs at h with hs hl
  · cases h
    exact .inl ⟨hs.1, hs.2, rfl⟩
  · cases h
    refine .inr ⟨?_, rfl⟩
    cases h1 : s.started <;> simp_all

theorem poll_cases (h : step cfg s .poll = some s') :
    s.idle = true ∧ (s' = s ∨ s' = { s with phase := .dispatch } ∨
      s' = { s with phase := .finish } ∨ s' = { s with phase := .tasks s.tasks, tasks := [] }) := by
  simp only [step] at h
  split at h
  · rename_i hi
    refine ⟨hi, ?_⟩
    split at h
    · split_ifs at h <;> cases h <;> simp
    · split_ifs at h <;> cases h <;> simp
  · cases h

/-- What `U` leaves alone. -/
theorem uStep_frame (h : uStep cfg s = some s') : s.u ≠ .idle ∧ s'.started = s.started ∧
    s'.deadline = s.deadline ∧ s'.phase = s.phase ∧ s'.ctl = s.ctl ∧ s'.served = s.served ∧
    ∃ ts, s'.tasks = s.tasks ++ ts := by
  cases hu : s.u with
  | idle | waitAcceptor k | waitConn i rest | returned => simp [uStep, hu] at h
  | graceful | clear k | polls | store =>
    simp only [uStep, hu, Option.some.injEq] at h
    subst h
    exact ⟨nofun, rfl, rfl, rfl, rfl, rfl, [], by simp⟩
  | acceptor k =>
    simp only [uStep, hu] at h
    split_ifs at h
    · cases h
      exact ⟨nofun, rfl, rfl, rfl, rfl, rfl, [], by simp⟩
    · cases h
      exact ⟨nofun, rfl, rfl, rfl, rfl, rfl, [], by simp⟩
  | post k =>
    simp only [uStep, hu, Option.some.injEq] at h
    subst h
    exact ⟨nofun, rfl, rfl, rfl, rfl, rfl, _, rfl⟩
  | conns rest =>
    cases rest with
    | nil =>
      simp only [uStep, hu, Option.some.injEq] at h
      subst h
      exact ⟨nofun, rfl, rfl, rfl, rfl, rfl, [], by simp⟩
    | cons i rest =>
      simp only [uStep, hu, Option.some.injEq] at h
      subst h
      refine ⟨nofun, rfl, rfl, rfl, rfl, rfl,
        if cfg.mode = .kAllOneThread then [.cleanupAndSet i] else [], ?_⟩
      dsimp only
      split <;> simp

/-! ### What a step does -/

/-- The steps, case by case, with what was checked before each of them. -/
inductive Moves (cfg : Config) (s : St) : Act → St → Prop
  | poll {s' : St} (hi : s.idle = true) (he : s' = s ∨ s' = { s with phase := .dispatch } ∨
      s' = { s with phase := .finish } ∨ s' = { s with phase := .tasks s.tasks, tasks := [] }) :
    Moves cfg s .poll s'
  | accept {hs : List ℕ} (hctl : s.ctl = []) (hph : s.phase = .dispatch)
      (hl : s.listening = true) (hf : s.fresh hs = true) :
    Moves cfg s (.accept hs) { s with phase := .batch (s.accepted ++ hs), accepted := [] }
  | acceptError {hs : List ℕ} {report : Bool} (hctl : s.ctl = []) (hph : s.phase = .dispatch)
      (hf : s.fresh hs = true) :
    Moves cfg s (.acceptError hs report) (push (if report && cfg.onError then [.user] else [])
      { s with accepted := s.accepted ++ hs })
  | event {i : ℕ} (hctl : s.ctl = []) : Moves cfg s (.event i) (push [.handler i] s)
  | dispatchDone (hph : s.phase = .dispatch) :
    Moves cfg s .dispatchDone { s with phase := .tasks s.tasks, tasks := [] }
  /-- `on_new_connection_`: the server is full, -/
  | refused {k : ℕ} {rest : List ℕ} {ok : Bool} (hctl : s.ctl = [])
      (hph : s.phase = .batch (k :: rest)) :
    Moves cfg s (.newConn ok) (push (if cfg.onError then [.user, .locked] else [])
      { s with phase := .batch rest })
  /-- the connection is admitted, -/
  | admitted {k : ℕ} {rest : List ℕ} {ok : Bool} (hctl : s.ctl = [])
      (hph : s.phase = .batch (k :: rest)) :
    Moves cfg s (.newConn ok)
      (push (if cfg.mode = .kAllOneThread ∧ cfg.onConn = true then [.user] else []) { s with
        phase := .batch rest
        conns := (k, s.peers.length) :: eraseHandle k s.conns
        peers := s.peers ++ [.new k]
        late := s.late + if s.cut then 1 else 0 })
  /-- or its address cannot be read. -/
  | dropped {k : ℕ} {rest : List ℕ} {ok : Bool} (hctl : s.ctl = [])
      (hph : s.phase = .batch (k :: rest)) :
    Moves cfg s (.newConn ok) { s with phase := .batch rest }
  | pollError (hctl : s.ctl = []) (hph : s.phase = .tasks []) :
    Moves cfg s .pollError (push [.user] { s with phase := .finish })
  | callback {i : ℕ} {fs : List Frame} (hctl : s.ctl = .handler i :: fs) :
    Moves cfg s .callback (push [.user] s)
  | fail {i : ℕ} {fs : List Frame} {s' : St} (hctl : s.ctl = .handler i :: fs)
      (hc : cleanup i s = some s') : Moves cfg s .fail s'
  | endUser {fs : List Frame} (hctl : s.ctl = .user :: fs) :
    Moves cfg s .endUser { s with ctl := fs }
  | phase {s' : St} (hctl : s.ctl = []) (hn : nextPhase cfg s = some s') : Moves cfg s .next s'
  | frame {f : Frame} {fs : List Frame} {s' : St} (hctl : s.ctl = f :: fs)
      (hn : nextFrame fs s f = some s') : Moves cfg s .next s'
  | send {i : ℕ} (hu : s.inUser = true) : Moves cfg s (.send i) (push [.handler i] s)
  | connClose {i : ℕ} {s' : St} (hu : s.inUser = true) (hc : cleanup i s = some s') :
    Moves cfg s (.connClose i) s'
  | setOnClose {i : ℕ} {b : Bool} {p : Peer} (hp : s.peers[i]? = some p) :
    Moves cfg s (.setOnClose i b) { s with peers := s.peers.set i { p with onClose := b } }
  | close {s₁ : St} (hm : cfg.mode = .kAllOneThread) (hu : s.inUser = true)
      (hc : closeAllOneThread s = some s₁) :
    Moves cfg s .close (if s.ctl = [] then s₁.returns false else s₁)
  | shutdown {dt : ℕ} {s' : St} (hu : s.inUser = true)
      (hs : shutdownAllOneThread cfg dt s = some s') : Moves cfg s (.shutdown dt) s'
  | destroy {dt : ℕ} {s₁ : St} (hi : s.idle = true)
      (hs : shutdownAllOneThread cfg dt s = some s₁) :
    Moves cfg s (.destroy dt) (s₁.returns true)
  | postSend {i : ℕ} : Moves cfg s (.postSend i) { s with tasks := s.tasks ++ [.send i] }
  | postCleanup {i : ℕ} : Moves cfg s (.postCleanup i) { s with tasks := s.tasks ++ [.cleanup i] }
  | tick {dt : ℕ} : Moves cfg s (.tick dt) { s with now := s.now + dt }
  /-- `close()` on `U`: the server runs, -/
  | uCloseStarted (hu : s.u = .idle) :
    Moves cfg s .uClose { s with started := false, u := .acceptor .close }
  /-- it is stopping, -/
  | uCloseStopping (hu : s.u = .idle) (hs : s.started = false) :
    Moves cfg s .uClose { s with shuttingDown := false, u := .acceptor .close }
  /-- or it is stopped. -/
  | uCloseStopped : Moves cfg s .uClose s
  | uShutdown (hm : cfg.mode = .kOnePollPerThread) (hu : s.u = .idle) :
    Moves cfg s .uShutdown { s with started := false, u := .acceptor .shutdown }
  | uShutdownStopped (hm : cfg.mode = .kOnePollPerThread) : Moves cfg s .uShutdown s
  | uNext {s' : St} (hn : uStep cfg s = some s') : Moves cfg s .uNext s'
  | vShutdown {v : VPc} : Moves cfg s .vShutdown { s with v := v }
  | vIgnored : Moves cfg s .vExchange { s with v := .idle }
  | vThrows (hs : s.shuttingDown = false) :
    Moves cfg s .vExchange { s with v := .idle, shuttingDown := true, thrown := s.thrown + 1 }
  | subCleanup {i : ℕ} {p : Peer} (hm : cfg.mode = .kOnePollPerThread) :
    Moves cfg s (.subCleanup i) (if p.cleanupDone then s else tearDown i p s)
  | subServe {i : ℕ} {rest : List ℕ} {p : Peer} (hm : cfg.mode = .kOnePollPerThread)
      (hu : s.u = .waitConn i rest) :
    Moves cfg s .subServe { (if p.cleanupDone then s else tearDown i p s) with
      u := .conns rest, served := s.served + 1 }

theorem newConn_cases {ok : Bool} (h : step cfg s (.newConn ok) = some s') :
    Moves cfg s (.newConn ok) s' := by
  simp only [step] at h
  split at h
  · rename_i k rest hctl hph
    cases h
    unfold onNewConnection
    split
    · exact .refused hctl hph
    · by_cases hok : ok = true
      · rw [if_pos hok]
        exact .admitted hctl hph
      · rw [if_neg hok]
        exact .dropped hctl hph
  · cases h

theorem uClose_cases (h : step cfg s .uClose = some s') : Moves cfg s .uClose s' := by
  simp only [step] at h
  split_ifs at h with hu hs
  · cases h
    exact .uCloseStarted hu
  · cases h
    exact .uCloseStopping hu (by simpa using hs)
  · cases h
    exact .uCloseStopped

/-- **What one step can do.** -/
theorem step_cases {a : Act} (h : step cfg s a = some s') : Moves cfg s a s' := by
  cases a with
  | poll =>
    obtain ⟨hi, he⟩ := poll_cases h
    exact .poll hi he
  | newConn ok => exact newConn_cases h
  | uClose => exact uClose_cases h
  | tick dt =>
    cases h
    exact .tick
  | uNext => exact .uNext h
  | callback =>
    simp only [step] at h
    split at h
    · rename_i hctl
      cases h
      exact .callback hctl
    · cases h
  | fail =>
    simp only [step] at h
    split at h
    · rename_i hctl
      exact .fail hctl h
    · cases h
  | endUser =>
    simp only [step] at h
    split at h
    · rename_i hctl
      cases h
      exact .endUser hctl
    · cases h
  | next =>
    simp only [step] at h
    split at h
    · rename_i hctl
      exact .phase hctl h
    · rename_i hctl
      exact .frame hctl h
  | subServe =>
    simp only [step] at h
    split at h
    · rename_i hm hu
      obtain ⟨p, -, rfl⟩ := Option.map_eq_some_iff.1 h
      exact .subServe hm hu
    · cases h
  | accept hs =>
    simp only [step] at h
    split at h
    · rename_i hc
      cases h
      exact .accept hc.1 hc.2.1 hc.2.2.1 hc.2.2.2
    · cases h
  | acceptError hs report =>
    simp only [step] at h
    split at h
    · rename_i hc
      cases h
      exact .acceptError hc.1 hc.2.1 hc.2.2.2
    · cases h
  | event i =>
    simp only [step] at h
    split_ifs at h with hc
    cases h
    exact .event hc.1
  | dispatchDone =>
    simp only [step] at h
    split_ifs at h with hc
    cases h
    exact .dispatchDone hc.2
  | pollError =>
    simp only [step] at h
    split_ifs at h with hc
    cases h
    exact .pollError hc.1 hc.2.1
  | send i =>
    simp only [step] at h
    split_ifs at h with hc
    cases h
    exact .send hc.2
  | connClose i =>
    simp only [step] at h
    split_ifs at h with hc
    exact .connClose hc.2 h
  | setOnClose i b =>
    simp only [step] at h
    split_ifs at h
    obtain ⟨p, hp, rfl⟩ := Option.map_eq_some_iff.1 h
    exact .setOnClose hp
  | close =>
    simp only [step] at h
    split at h
    · rename_i hc
      obtain ⟨s₁, hs, rfl⟩ := Option.map_eq_some_iff.1 h
      exact .close hc.1 hc.2 hs
    · cases h
  | shutdown dt =>
    simp only [step] at h
    split_ifs at h with hc
    exact .shutdown hc.2 h
  | destroy dt =>
    simp only [step] at h
    split_ifs at h with hc
    obtain ⟨s₁, hs, rfl⟩ := Option.map_eq_some_iff.1 h
    exact .destroy hc.2 hs
  | postSend i =>
    simp only [step] at h
    split_ifs at h
    cases h
    exact .postSend
  | postCleanup i =>
    simp only [step] at h
    split_ifs at h
    cases h
    exact .postCleanup
  | uShutdown =>
    simp only [step] at h
    split_ifs at h with hc
    · cases h
      exact .uShutdown hc.2 hc.1
    · cases h
      exact .uShutdownStopped hc.2
  | vShutdown =>
    simp only [step] at h
    split_ifs at h
    · cases h
      exact .vShutdown
    · cases h
      exact .vShutdown
  | vExchange =>
    simp only [step] at h
    split_ifs at h with hv hs
    · cases h
      exact .vIgnored
    · cases h
      exact .vThrows (by simpa using hs)
  | subCleanup i =>
    simp only [step] at h
    split_ifs at h with hm
    obtain ⟨p, -, rfl⟩ := Option.map_eq_some_iff.1 h
    exact .subCleanup hm

end Loop

end Server

end CxpNet
