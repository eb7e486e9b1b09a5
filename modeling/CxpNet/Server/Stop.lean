import CxpNet.Machine.Basic
import Mathlib.Logic.Function.Basic
import Mathlib.Tactic.SplitIfs

/-!
# Stopping a server

The threads of a server in mode `kOnePollPerThread` that was started successfully: the thread `M`
that constructed the server and may execute `Server::run`, the threads of the sub-polls, any
number of other threads, and the exit thread that `start_exit_thread_` makes.  `shutdown`, `close`
and `~Server` may be called on every thread but the exit thread, which executes no user code.

A stop waits for a closure queued on `main_poll_` (in `Acceptor::shutdown`) and for closures queued
on the sub-polls (in `run_in_poll_and_wait_`, the polls of connections in this mode).  Only `M`,
inside `main_poll_->run()`, executes the closures of `main_poll_`.

One action of `Stop.machine` is one atomic step of one thread.  What does not matter here is left
open: which connections a snapshot finds, how long the wait for them takes, and when the joins of
`PollThreadPool::shutdown` return.
-/

namespace CxpNet

namespace Server

namespace Stop

/-- Which of the two stops. -/
inductive Kind where
  | shutdown
  | close
  deriving DecidableEq, Repr

/-- Inside `Acceptor::shutdown`. -/
inductive AccPc where
  | enter
  /-- `is_shutdown()` was false: before `run_in_poll`. -/
  | queueing
  /-- In `future.get()`; `done` once the promise is set. -/
  | waiting (done : Bool)
  deriving DecidableEq, Repr

/-- Where `M` stands in `Server::run`. -/
inductive LoopPc where
  | notCalled
  /-- `started_` was seen true: before `main_poll_->run()`. -/
  | checked
  | inLoop
  | returned
  deriving DecidableEq, Repr

/-- `M` executes the closures of `main_poll_`, now or soon. -/
def LoopPc.drains : LoopPc → Bool
  | checked | inLoop => true
  | notCalled | returned => false

variable (T : Type)

/-- Inside `shutdown_impl_` or `close_impl_`. -/
inductive ImplPc where
  | acceptor (k : Kind) (p : AccPc)
  /-- Before a section that copies `conns_`; `force` if it also clears it. -/
  | snapshot (force : Bool)
  /-- At a snapshot of connections, each given by the thread of its sub-poll. -/
  | conns (force : Bool) (rest : List T)
  /-- In the `future.get()` of `run_in_poll_and_wait_`. -/
  | connWait (force : Bool) (p : T) (done : Bool) (rest : List T)
  /-- Before `shutdown_polls_`. -/
  | polls
  /-- `main_poll_` is shut; before `shutting_down_.store(false)`. -/
  | store
  | returned
  deriving DecidableEq, Repr

/-- What a thread does with the server; `dtor` if the call is made by `~Server`. -/
inductive Pc where
  | idle
  /-- In `shutdown`, past the first check. -/
  | loaded (dtor : Bool)
  /-- The exchange of `started_` has returned true. -/
  | won (k : Kind) (dtor : Bool)
  | impl (dtor : Bool) (p : ImplPc T)
  /-- In `~Server`, before `join_exit_thread_`. -/
  | join
  /-- In `exit_thread_.join()`, holding `exit_thread_mutex_`. -/
  | joining
  /-- In `~Server`, in the destructor of `acceptor_`. -/
  | members (p : AccPc)
  /-- `~Server` has returned. -/
  | gone
  deriving DecidableEq, Repr

/-- `exit_thread_` -/
inductive Exit where
  | none
  | running (p : ImplPc T)
  /-- Ended and not joined. -/
  | ended
  | joined
  deriving DecidableEq, Repr

/-- Who executes a stop. -/
inductive Agent where
  | thread (t : T)
  | exit
  deriving DecidableEq, Repr

/-- The server and the threads. -/
structure St where
  /-- `started_` -/
  started : Bool
  /-- `shutting_down_` -/
  shuttingDown : Bool
  /-- `main_poll_->is_shutdown()` -/
  mainShut : Bool
  /-- The closures queued on `main_poll_`, each by who waits for it. -/
  tasks : List (Agent T)
  loop : LoopPc
  pc : T → Pc T
  exit : Exit T
  /-- The holder of `exit_thread_mutex_` across a step. -/
  exitMutex : Option T
  /-- `~Server` has begun. -/
  destroying : Bool

/-- The atomic steps. -/
inductive Act where
  /-- `M` calls `Server::run`, up to its check of `started_`. -/
  | run
  /-- `Server::run` enters `main_poll_->run()`. -/
  | runEnter
  /-- The loop executes a closure. -/
  | runMainTask
  /-- `main_poll_->run()` returns. -/
  | leaveLoop
  /-- Thread `t` calls `shutdown`, up to its first check. -/
  | callShutdown (t : T)
  /-- Thread `t` calls `close`, up to its exchange of `started_`. -/
  | callClose (t : T)
  /-- Thread `t` enters `~Server`, up to the first check of `shutdown`. -/
  | destroy (t : T)
  /-- The exchange of `started_` in `shutdown`. -/
  | exchange (t : T)
  /-- The branch on `is_in_managed_poll_thread_`. -/
  | branch (t : T)
  /-- The next step of `shutdown_impl_` or `close_impl_`; a snapshot finds the connections `ps`. -/
  | impl (w : Agent T) (ps : List T)
  /-- `join_exit_thread_` up to `exit_thread_.join()`. -/
  | join (t : T)
  /-- `exit_thread_.join()` returns. -/
  | joined (t : T)
  /-- The next step of the destructor of `acceptor_`. -/
  | members (t : T)
  /-- The sub-poll thread `p` executes the closure that `w` waits for. -/
  | runSubTask (p : T) (w : Agent T)
  deriving DecidableEq, Repr

variable {T} [DecidableEq T]

/-- Thread `t` goes to `p`. -/
def setPc (t : T) (p : Pc T) (s : St T) : St T := { s with pc := Function.update s.pc t p }

/-- Where a call returns to. -/
def returnPc (dtor : Bool) : Pc T := if dtor then .join else .idle

variable (M : T) (managed : T → Bool)

/-- The agent is the thread of `main_poll_`. -/
def Agent.isMain : Agent T → Bool
  | thread t => t = M
  | exit => false

/-- The next step of `Acceptor::shutdown`, or `none` for its return. -/
def accStep (w : Agent T) (s : St T) : AccPc → Option (St T × Option AccPc)
  | .enter =>
    if w.isMain M ∨ s.mainShut = true then some (s, none) else some (s, some .queueing)
  | .queueing => some ({ s with tasks := s.tasks ++ [w] }, some (.waiting false))
  | .waiting true => some (s, none)
  | .waiting false => none

/-- The next step of `shutdown_impl_` or `close_impl_`. -/
def implStep (w : Agent T) (ps : List T) (s : St T) : ImplPc T → Option (St T × ImplPc T)
  | .acceptor k p => (accStep M w s p).map fun r => (r.1, match r.2 with
      | some q => .acceptor k q
      | none => .snapshot (k = .close))
  | .snapshot force => if ps.all managed then some (s, .conns force ps) else none
  | .conns force [] =>
    -- `shutdown_impl_` waits for the connections in between; `close_impl_` starts here
    some (s, if force then .polls else .snapshot true)
  | .conns force (p :: rest) =>
    some (s, if w = .thread p then .conns force rest else .connWait force p false rest)
  | .connWait force _ true rest => some (s, .conns force rest)
  | .connWait _ _ false _ => none
  | .polls => some ({ s with mainShut := true }, .store)
  | .store => some ({ s with shuttingDown := false }, .returned)
  | .returned => none

/-- The promise that `w` waits for in `Acceptor::shutdown` is set. -/
def signal (w : Agent T) (s : St T) : St T :=
  match w with
  | .thread t =>
    match s.pc t with
    | .impl d (.acceptor k (.waiting false)) =>
      setPc t (.impl d (.acceptor k (.waiting true))) s
    | .members (.waiting false) => setPc t (.members (.waiting true)) s
    | _ => s
  | .exit =>
    match s.exit with
    | .running (.acceptor k (.waiting false)) =>
      { s with exit := .running (.acceptor k (.waiting true)) }
    | _ => s

/-- The promise that `w` waits for in `run_in_poll_and_wait_` is set by thread `p`. -/
def signalSub (p : T) (w : Agent T) (s : St T) : Option (St T) :=
  match w with
  | .thread t =>
    match s.pc t with
    | .impl d (.connWait f q false rest) =>
      if q = p then some (setPc t (.impl d (.connWait f q true rest)) s) else none
    | _ => none
  | .exit =>
    match s.exit with
    | .running (.connWait f q false rest) =>
      if q = p then some { s with exit := .running (.connWait f q true rest) } else none
    | _ => none

/-- A public call may begin on thread `t`: it is in user code and the server is alive. -/
def canCall (t : T) (s : St T) : Bool :=
  s.pc t = .idle && !s.destroying && !(t = M && s.loop = .checked)

/-- The first check of `shutdown`. -/
def loadStarted (t : T) (dtor : Bool) (s : St T) : St T :=
  if s.started = false ∧ s.shuttingDown = false then setPc t (returnPc dtor) s
  else setPc t (.loaded dtor) s

/-- One step of a server constructed by `M` with these sub-poll threads. -/
def step (s : St T) : Act T → Option (St T)
  | .run =>
    if s.pc M = .idle ∧ s.destroying = false ∧ (s.loop = .notCalled ∨ s.loop = .returned) then
      some (if s.started then { s with loop := .checked } else s)
    else none
  | .runEnter => if s.loop = .checked then some { s with loop := .inLoop } else none
  | .runMainTask =>
    if s.loop = .inLoop ∧ s.pc M = .idle then
      match s.tasks with
      | w :: rest => some (signal w { s with tasks := rest })
      | [] => none
    else none
  | .leaveLoop =>
    if s.loop = .inLoop ∧ s.pc M = .idle ∧ s.mainShut = true ∧ s.tasks = [] then
      some { s with loop := .returned }
    else none
  | .callShutdown t => if canCall M t s then some (loadStarted t false s) else none
  | .callClose t =>
    if canCall M t s then
      if s.started then some (setPc t (.won .close false) { s with started := false })
      else if s.shuttingDown then
        some (setPc t (.won .close false) { s with shuttingDown := false })
      else some s
    else none
  | .destroy t =>
    if canCall M t s then some (loadStarted t true { s with destroying := true }) else none
  | .exchange t =>
    match s.pc t with
    | .loaded d =>
      if s.started then some (setPc t (.won .shutdown d) { s with started := false })
      else some (setPc t (returnPc d) s)
    | _ => none
  | .branch t =>
    match s.pc t with
    | .won k d =>
      if t = M ∨ managed t = true then
        -- `start_exit_thread_` takes the mutex and joins an exit thread that has ended
        match s.exit, s.exitMutex with
        | .running _, _ | _, some _ => none
        | _, none => some (setPc t (returnPc d) { s with exit := .running (.acceptor k .enter) })
      else some (setPc t (.impl d (.acceptor k .enter)) s)
    | _ => none
  | .impl (.thread t) ps =>
    match s.pc t with
    | .impl d p => (implStep M managed (.thread t) ps s p).map fun r =>
        setPc t (if r.2 = .returned then returnPc d else .impl d r.2) r.1
    | _ => none
  | .impl .exit ps =>
    match s.exit with
    | .running p => (implStep M managed .exit ps s p).map fun r =>
        { r.1 with exit := if r.2 = .returned then .ended else .running r.2 }
    | _ => none
  | .join t =>
    if s.pc t = .join ∧ s.exitMutex = none then
      match s.exit with
      | .none | .joined => some (setPc t (.members .enter) s)
      | .running _ | .ended => some (setPc t .joining { s with exitMutex := some t })
    else none
  | .joined t =>
    if s.pc t = .joining ∧ s.exit = .ended then
      some (setPc t (.members .enter) { s with exit := .joined, exitMutex := none })
    else none
  | .members t =>
    match s.pc t with
    | .members p => (accStep M (.thread t) s p).map fun r =>
        setPc t (match r.2 with
          | some q => .members q
          | none => .gone) r.1
    | _ => none
  | .runSubTask p w =>
    if managed p = true ∧ s.pc p = .idle then signalSub p w s else none

/-- The stopping server as a machine. -/
def machine : Machine (St T) (Act T) := ⟨step M managed⟩

/-- `start(kOnePollPerThread)` has just returned true on `M`. -/
def init : St T := ⟨true, false, false, [], .notCalled, fun _ => .idle, .none, none, false⟩

end Stop

end Server

end CxpNet
