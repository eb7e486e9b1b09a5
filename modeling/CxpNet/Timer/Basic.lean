import CxpNet.Machine.Basic
import Mathlib.Logic.Function.Basic
import Mathlib.Data.List.Basic
import Mathlib.Tactic.SplitIfs

/-!
# The timer manager

`TimerManager` of `timer.cc`: `add_timer` and `cancel_timer` change the schedule under `mutex_`
and notify `cv_`; one thread executes `timer_thread_func_`, which sleeps on `cv_` first until
there is something to do and then until the earliest deadline; `shutdown()` clears `running_` and
notifies, both without the mutex, and joins the thread.

One action of `TimerManager.machine` is one atomic step of one thread:

* a call of `add_timer` or `cancel_timer` is two steps, the lock with the load of `running_`, and
  the rest of the section up to the unlock (`running_` can be cleared in between);
* a wait on `cv_` is the evaluation of its predicate under the mutex, then the step that releases
  the mutex and blocks.  A notification moves a thread that is blocked to the waiters for the
  mutex and has no effect otherwise; a blocked thread may also wake up spuriously;
* `shutdown()` is the exchange of `running_`, `notify_all`, the join, and the final section.

Time is a natural number that never goes back (`tick`).  Callbacks are opaque (`κ`).
-/

namespace CxpNet

namespace TimerManager

/-- A value of `steady_clock`. -/
abbrev TimePoint := ℕ

/-- `Timer::TimerID` -/
abbrev TimerID := ℕ

/-- The object of `class Timer`. -/
structure Timer (κ : Type) where
  expireTime : TimePoint
  callback : κ
  cancelled : Bool
  deriving DecidableEq, Repr

/-- A callback moved out of an expired timer, with the schedule entry it came from. -/
structure Expired (κ : Type) where
  entry : TimePoint × TimerID
  callback : κ
  deriving DecidableEq, Repr

/-- Where the timer thread stands in `timer_thread_func_`. -/
inductive ThreadPc (κ : Type) where
  /-- `while (running_)` -/
  | loopHead
  /-- Waiting for the mutex at the start of a round. -/
  | lock
  /-- Holds the mutex, before the predicate of `cv_.wait`. -/
  | untimedCheck
  /-- Holds the mutex; the predicate was false, about to release and block. -/
  | untimedWindow
  /-- Blocked in `cv_.wait`. -/
  | untimedBlocked
  /-- Notified in `cv_.wait`, waiting for the mutex. -/
  | untimedWoken
  /-- Holds the mutex, before the first `if (!running_) break`. -/
  | afterUntimed
  /-- Holds the mutex, before the predicate of `cv_.wait_until(.., d, ..)`. -/
  | timedCheck (d : TimePoint)
  /-- Holds the mutex; the predicate was false, about to release and block. -/
  | timedWindow (d : TimePoint)
  /-- Blocked in `cv_.wait_until(.., d, ..)`. -/
  | timedBlocked (d : TimePoint)
  /-- Woken, waiting for the mutex; `timeout` if the deadline woke it. -/
  | timedWoken (d : TimePoint) (timeout : Bool)
  /-- Holds the mutex, before the second `if (!running_) break`. -/
  | afterTimed
  /-- Holds the mutex, before the extraction of the expired timers. -/
  | extract
  /-- Running the extracted callbacks, without the mutex. -/
  | callbacks (rest : List (Expired κ))
  /-- The function has returned. -/
  | exited
  deriving DecidableEq, Repr

/-- The thread holds `mutex_`. -/
def ThreadPc.holds {κ : Type} : ThreadPc κ → Bool
  | untimedCheck | untimedWindow | afterUntimed | timedCheck _ | timedWindow _ | afterTimed
  | extract => true
  | _ => false

/-- The call that is inside its `mutex_` section, past its load of `running_`. -/
inductive Call (κ : Type) where
  | addTimer (delayMs : ℕ) (cb : κ)
  | cancelTimer (id : TimerID)
  deriving DecidableEq, Repr

/-- Where `shutdown()` stands. -/
inductive StopPc where
  | none
  /-- `running_` was exchanged; `notify_all` comes next. -/
  | notifying
  /-- In `timer_thread_.join()`. -/
  | joining
  /-- Joined; before the final section. -/
  | clearing
  | done
  deriving DecidableEq, Repr

/-- The manager, its thread and its callers. -/
structure St (κ : Type) where
  /-- `timers_` -/
  timers : TimerID → Option (Timer κ)
  /-- `scheduled_timers_`; an iterator into `schedule_` is the entry it points at. -/
  scheduledTimers : TimerID → Option (TimePoint × TimerID)
  /-- `schedule_`, a multimap: sorted by deadline, equal deadlines in insertion order. -/
  schedule : List (TimePoint × TimerID)
  /-- `running_` -/
  running : Bool
  /-- `next_id_` -/
  nextId : TimerID
  now : TimePoint
  pc : ThreadPc κ
  /-- The caller that holds the mutex. -/
  call : Option (Call κ)
  stop : StopPc
  /-- History: the entries whose callback was started, in order. -/
  started : List (TimePoint × TimerID)
  /-- History: the timers that a `cancel_timer` found present. -/
  cancelled : List TimerID

/-- The atomic steps. -/
inductive Act (κ : Type) where
  /-- The next step of the timer thread. -/
  | thread
  /-- The deadline of the timed wait has passed. -/
  | timeout
  /-- A wakeup without a notification. -/
  | spurious
  /-- A caller locks the mutex and loads `running_`. -/
  | enter (c : Call κ)
  /-- The caller inside its section finishes it. -/
  | leave
  /-- `running_.exchange(false)` -/
  | exchange
  /-- `cv_.notify_all()` -/
  | notifyAll
  /-- `timer_thread_.join()` returns. -/
  | join
  /-- The final section of `shutdown()`. -/
  | clear
  /-- The clock advances. -/
  | tick (n : ℕ)
  deriving DecidableEq, Repr

variable {κ : Type}

/-- `mutex_` is free. -/
def mutexFree (s : St κ) : Bool := !s.pc.holds && s.call.isNone

/-- What a notification does to the thread: only a thread already blocked is woken. -/
def ThreadPc.woken : ThreadPc κ → ThreadPc κ
  | untimedBlocked => untimedWoken
  | timedBlocked d => timedWoken d false
  | pc => pc

/-- `cv_.notify_one()` and `cv_.notify_all()`; the timer thread is the only waiter. -/
def notify (s : St κ) : St κ := { s with pc := s.pc.woken }

/-- `schedule_.emplace(when, id)`: behind the entries with the same deadline. -/
def emplace (deadline : TimePoint) (id : TimerID) :
    List (TimePoint × TimerID) → List (TimePoint × TimerID)
  | [] => [(deadline, id)]
  | e :: es => if e.1 ≤ deadline then e :: emplace deadline id es else (deadline, id) :: e :: es

/-- The section of `add_timer` after its check. -/
def addTimer (delayMs : ℕ) (cb : κ) (s : St κ) : St κ :=
  let id := s.nextId
  let timer : Timer κ := ⟨s.now + delayMs, cb, false⟩
  let deadline := timer.expireTime
  notify { s with
    nextId := id + 1
    schedule := emplace deadline id s.schedule
    scheduledTimers := Function.update s.scheduledTimers id (some (deadline, id))
    timers := Function.update s.timers id (some timer) }

/-- The section of `cancel_timer` after its check.  The flag set by `cancel()` dies with the
timer, which the section erases. -/
def cancelTimer (id : TimerID) (s : St κ) : St κ :=
  match s.timers id with
  | none => s
  | some _ =>
    let s := { s with cancelled := s.cancelled ++ [id] }
    let s := match s.scheduledTimers id with
      | none => s
      | some it => { s with
          schedule := s.schedule.erase it
          scheduledTimers := Function.update s.scheduledTimers id none }
    notify { s with timers := Function.update s.timers id none }

/-- The loop that moves the expired timers' callbacks out, in schedule order. -/
def extractExpired (now : TimePoint) :
    List (TimePoint × TimerID) → St κ → List (Expired κ) → St κ × List (Expired κ)
  | [], s, cbs => ({ s with schedule := [] }, cbs)
  | (d, id) :: rest, s, cbs =>
    if now < d then ({ s with schedule := (d, id) :: rest }, cbs)
    else
      let s := { s with scheduledTimers := Function.update s.scheduledTimers id none }
      match s.timers id with
      | none => extractExpired now rest s cbs
      | some timer =>
        let s := { s with timers := Function.update s.timers id none }
        extractExpired now rest s
          (if timer.cancelled then cbs else cbs ++ [⟨(d, id), timer.callback⟩])

/-- The predicate of `cv_.wait`. -/
def untimedPred (s : St κ) : Bool := !s.running || !s.schedule.isEmpty

/-- The predicate of `cv_.wait_until`. -/
def timedPred (d : TimePoint) (s : St κ) : Bool :=
  if !s.running then true
  else match s.schedule with
    | [] => true
    | e :: _ => decide (e.1 < d)

/-- The next step of `timer_thread_func_`; `none` where it waits for someone else. -/
def threadStep (s : St κ) : Option (St κ) :=
  match s.pc with
  | .loopHead => some { s with pc := if s.running then .lock else .exited }
  | .lock | .untimedWoken => if mutexFree s then some { s with pc := .untimedCheck } else none
  | .untimedCheck => some { s with pc := if untimedPred s then .afterUntimed else .untimedWindow }
  | .untimedWindow => some { s with pc := .untimedBlocked }
  | .untimedBlocked => none
  | .afterUntimed =>
    if s.running then
      match s.schedule with
      | [] => none   -- `begin()` of an empty map
      | e :: _ => some { s with pc := .timedCheck e.1 }
    else some { s with pc := .exited }
  | .timedCheck d => some { s with pc := if timedPred d s then .afterTimed else .timedWindow d }
  | .timedWindow d => some { s with pc := .timedBlocked d }
  | .timedBlocked _ => none
  | .timedWoken d timeout =>
    -- after a timeout the predicate is only evaluated for the result, which is discarded
    if mutexFree s then some { s with pc := if timeout then .afterTimed else .timedCheck d }
    else none
  | .afterTimed => some { s with pc := if s.running then .extract else .exited }
  | .extract =>
    let (s', cbs) := extractExpired s.now s.schedule s []
    some { s' with pc := .callbacks cbs }
  | .callbacks [] => some { s with pc := .loopHead }
  | .callbacks (c :: rest) =>
    some (if s.running then { s with pc := .callbacks rest, started := s.started ++ [c.entry] }
      else { s with pc := .loopHead })
  | .exited => none

/-- One step. -/
def step (s : St κ) : Act κ → Option (St κ)
  | .thread => threadStep s
  | .timeout =>
    match s.pc with
    | .timedBlocked d => if d ≤ s.now then some { s with pc := .timedWoken d true } else none
    | _ => none
  | .spurious =>
    match s.pc with
    | .untimedBlocked => some { s with pc := .untimedWoken }
    | .timedBlocked d => some { s with pc := .timedWoken d false }
    | _ => none
  | .enter c =>
    if mutexFree s then some (if s.running then { s with call := some c } else s) else none
  | .leave =>
    match s.call with
    | none => none
    | some (.addTimer delayMs cb) => some { addTimer delayMs cb s with call := none }
    | some (.cancelTimer id) => some { cancelTimer id s with call := none }
  | .exchange => some (if s.running then { s with running := false, stop := .notifying } else s)
  | .notifyAll => if s.stop = .notifying then some { notify s with stop := .joining } else none
  | .join =>
    if s.stop = .joining ∧ s.pc matches .exited then some { s with stop := .clearing } else none
  | .clear =>
    if s.stop = .clearing ∧ mutexFree s then
      some { s with timers := fun _ => none, scheduledTimers := fun _ => none, schedule := [],
                    stop := .done }
    else none
  | .tick n => some { s with now := s.now + n }

/-- The timer manager as a machine. -/
def machine (κ : Type) : Machine (St κ) (Act κ) := ⟨step⟩

/-- A manager just constructed: its thread is at the head of its loop. -/
def init (κ : Type) : St κ where
  timers := fun _ => none
  scheduledTimers := fun _ => none
  schedule := []
  running := true
  nextId := 1
  now := 0
  pc := .loopHead
  call := none
  stop := .none
  started := []
  cancelled := []

end TimerManager

end CxpNet
