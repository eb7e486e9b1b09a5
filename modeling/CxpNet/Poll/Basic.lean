import CxpNet.Machine.Basic
import Mathlib.Algebra.Group.Nat.Defs
import Mathlib.Data.List.Basic
import Mathlib.Tactic.SplitIfs

/-!
# The event loop and its task queue

`IOEventPoll` of `io_event_poll.cc`: one thread `R` executes `run()`, any thread queues closures
with `run_in_poll` and `run_later` and asks the loop to end with `shutdown()`.  The loop sleeps in
`epoll_wait`; a queued closure wakes it through an eventfd that is registered edge-triggered.

One action of `Poll.machine` is one atomic step of one thread:

* a `mutex_` section is entered by a step that needs the mutex free.  `push_back` and
  `notify_wakeup_` are two steps of one section, because the loop reads the eventfd and blocks in
  the poller without holding the mutex;
* `shutdown()` is three steps: the load of `shut_`, its store, and the wakeup (between the last
  two it stops the timer manager);
* `epoll_wait` may return at any time (other channels, a timeout, an error); it may report the
  wakeup fd only if the fd is on the ready list and readable, and reporting it takes it off the
  list.  A write puts it on the list again.

Closures are opaque (`τ`); what a running closure or handler does with this poll is what thread
`R` does while it is in user code.
-/

namespace CxpNet

namespace Poll

/-- Where the thread that executes `run()` stands. -/
inductive RunPc where
  /-- `run()` has not stored `thread_id_` yet. -/
  | notStarted
  /-- At the head of `while (true)`. -/
  | top
  /-- Inside `poller_->poll`. -/
  | polling
  /-- Running the handlers of the active channels; `wake` if `handle_wakeup_` is still to come. -/
  | dispatch (wake : Bool)
  /-- In `poll_`, before `tasks_.swap(tmp_tasks)`. -/
  | swap
  /-- Executing `tmp_tasks`. -/
  | exec
  /-- `shut_` was seen set: before the section that ends the loop or takes the rest. -/
  | drain
  /-- `run()` has returned. -/
  | returned
  deriving DecidableEq, Repr

/-- The thread is in a handler or a closure, where it may call the poll. -/
def RunPc.inUserCode : RunPc → Bool
  | dispatch _ | exec | notStarted | returned => true
  | _ => false

variable (T τ : Type)

/-- The object, the kernel's side of the wakeup fd, and the history of the run. -/
structure St where
  /-- `thread_id_` -/
  threadId : T
  /-- `tasks_` -/
  tasks : List τ
  /-- The thread inside a `mutex_` section that has pushed and not yet notified. -/
  mutex : Option T
  /-- The eventfd counter. -/
  counter : ℕ
  /-- The wakeup fd is on epoll's ready list. -/
  edge : Bool
  /-- `shut_` -/
  shut : Bool
  /-- Threads in `shutdown()` that have read `shut_` as false. -/
  stopping : List T
  /-- Threads in `shutdown()` that have stored `shut_` and not yet notified. -/
  notifying : List T
  pc : RunPc
  /-- The rest of `tmp_tasks`. -/
  batch : List τ
  /-- History: the closures that were queued, in order. -/
  enqueued : List τ
  /-- History: the queued closures whose execution has begun, in order. -/
  executed : List τ
  /-- History: what `enqueued` was at the check that ended `run()`. -/
  atReturn : List τ
  /-- History: some `shutdown()` has written its wakeup. -/
  shutWritten : Bool
  /-- History: the closures passed to `run_in_poll`. -/
  passed : List τ
  /-- History: every execution of a closure, with the executing thread. -/
  ran : List (τ × T)
  deriving DecidableEq, Repr

/-- The atomic steps of the thread that executes `run()`. -/
inductive LoopAct where
  /-- `run()` stores `thread_id_`. -/
  | runStart
  /-- `run()` loads `shut_`. -/
  | loadShut
  /-- `epoll_wait` returns; `wake` if it reports the wakeup fd. -/
  | pollReturn (wake : Bool)
  /-- `handle_wakeup_` -/
  | wakeupRead
  /-- The last handler returns. -/
  | dispatchDone
  /-- The section of `poll_`. -/
  | swapTasks
  /-- The section of `run()` under `shut_`. -/
  | drainTasks
  /-- The next closure of the batch is executed, or the batch is finished. -/
  | runTask
  deriving DecidableEq, Repr

/-- The atomic steps of the callers. -/
inductive CallAct where
  /-- `run_in_poll(f)` on thread `t`, up to its `push_back`. -/
  | runInPoll (t : T) (f : τ)
  /-- `run_later(f)` on thread `t`, up to its `push_back`. -/
  | runLater (t : T) (f : τ)
  /-- `notify_wakeup_` at the end of the section of thread `t`. -/
  | notify (t : T)
  /-- `shutdown()` on thread `t` loads `shut_`. -/
  | shutdownLoad (t : T)
  /-- It stores `shut_`. -/
  | shutdownStore (t : T)
  /-- It has stopped the timer manager and notifies. -/
  | shutdownNotify (t : T)
  deriving DecidableEq, Repr

/-- One atomic step of one thread. -/
inductive Act where
  | loop (a : LoopAct)
  | call (a : CallAct T τ)
  deriving DecidableEq, Repr

variable {T τ}

/-- The largest value an eventfd can hold. -/
def eventfdMax : ℕ := 2 ^ 64 - 2

/-- `Platform::wakeup_write`: a full counter is `EAGAIN`, which the code ignores. -/
def wakeupWrite (s : St T τ) : St T τ :=
  if s.counter = eventfdMax then s else { s with counter := s.counter + 1, edge := true }

/-- After a write the counter is positive, and the fd is on the ready list or the counter was
positive before. -/
theorem wakeupWrite_eq (s : St T τ) : ∃ c e, wakeupWrite s = { s with counter := c, edge := e } ∧
    0 < c ∧ (e = true ∨ 0 < s.counter ∧ s.edge = e) := by
  by_cases h : s.counter = eventfdMax
  · have hpos : 0 < s.counter := by rw [h, eventfdMax]; omega
    exact ⟨s.counter, s.edge, by rw [wakeupWrite, if_pos h], hpos, .inr ⟨hpos, rfl⟩⟩
  · exact ⟨s.counter + 1, true, by rw [wakeupWrite, if_neg h], Nat.succ_pos _, .inl rfl⟩

/-- `tasks_.push_back(f)` by thread `t`, which then still holds the mutex. -/
def pushBack (t : T) (f : τ) (s : St T τ) : St T τ :=
  { s with tasks := s.tasks ++ [f], mutex := some t, enqueued := s.enqueued ++ [f] }

section

variable [DecidableEq T] (R : T)

/-- Thread `t` can call the poll: it is not the loop's thread, or that thread is in user code;
and it is not inside a section already. -/
def canCall (t : T) (s : St T τ) : Bool :=
  (t != R || s.pc.inUserCode) && s.mutex != some t

/-- `is_in_poll_thread()` on thread `t`. -/
def isInPollThread (t : T) (s : St T τ) : Bool := s.threadId == t

/-- A step of the loop's thread. -/
def loopStep (s : St T τ) : LoopAct → Option (St T τ)
  | .runStart => if s.pc = .notStarted then some { s with threadId := R, pc := .top } else none
  | .loadShut =>
    if s.pc = .top then some { s with pc := if s.shut then .drain else .polling } else none
  | .pollReturn false => if s.pc = .polling then some { s with pc := .dispatch false } else none
  | .pollReturn true =>
    if s.pc = .polling ∧ s.edge ∧ 0 < s.counter then
      some { s with pc := .dispatch true, edge := false }
    else none
  | .wakeupRead =>
    if s.pc = .dispatch true then some { s with pc := .dispatch false, counter := 0 } else none
  | .dispatchDone => if s.pc = .dispatch false then some { s with pc := .swap } else none
  | .swapTasks =>
    if s.pc = .swap ∧ s.mutex = none then
      some { s with pc := .exec, batch := s.tasks, tasks := [] }
    else none
  | .drainTasks =>
    if s.pc = .drain ∧ s.mutex = none then
      if s.tasks = [] then some { s with pc := .returned, atReturn := s.enqueued }
      else some { s with pc := .exec, batch := s.tasks, tasks := [] }
    else none
  | .runTask =>
    if s.pc = .exec then
      match s.batch with
      | [] => some { s with pc := .top }
      | f :: rest => some { s with batch := rest, executed := s.executed ++ [f],
                                   ran := s.ran ++ [(f, R)] }
    else none

/-- A step of a caller. -/
def callStep (s : St T τ) : CallAct T τ → Option (St T τ)
  | .runInPoll t f =>
    if canCall R t s then
      if isInPollThread t s then
        some { s with passed := s.passed ++ [f], ran := s.ran ++ [(f, t)] }
      else if s.mutex = none then some (pushBack t f { s with passed := s.passed ++ [f] })
      else none
    else none
  | .runLater t f =>
    if canCall R t s ∧ s.mutex = none then some (pushBack t f s) else none
  | .notify t =>
    if s.mutex = some t then some (wakeupWrite { s with mutex := none }) else none
  | .shutdownLoad t =>
    if canCall R t s then
      some (if s.shut then s else { s with stopping := t :: s.stopping })
    else none
  | .shutdownStore t =>
    if t ∈ s.stopping then
      some { s with stopping := s.stopping.erase t, shut := true, notifying := t :: s.notifying }
    else none
  | .shutdownNotify t =>
    if t ∈ s.notifying then
      some (wakeupWrite { s with notifying := s.notifying.erase t, shutWritten := true })
    else none

/-- One step.  The loop's thread does not go on while it is inside a section of its own. -/
def step (s : St T τ) : Act T τ → Option (St T τ)
  | .loop a => if s.mutex = some R then none else loopStep R s a
  | .call a => callStep R s a

/-- The poll as a machine. -/
def machine : Machine (St T τ) (Act T τ) := ⟨step R⟩

end

/-- A poll constructed on thread `creator`. -/
def init (creator : T) : St T τ where
  threadId := creator
  tasks := []
  mutex := none
  counter := 0
  edge := false
  shut := false
  stopping := []
  notifying := []
  pc := .notStarted
  batch := []
  enqueued := []
  executed := []
  atReturn := []
  shutWritten := false
  passed := []
  ran := []

end Poll

end CxpNet
