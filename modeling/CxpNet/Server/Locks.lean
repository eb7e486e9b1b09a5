import CxpNet.Machine.Mutex

/-!
# User callbacks and `conns_mutex_`

`conns_mutex_` is locked in nine places of `Server`.  It is not recursive, so a user callback that
is invoked while its thread holds it must not call `connection_count`, `shutdown` or `close`: such
a call would wait for its own thread.

Here every function of `Server`, `Conn`, `Acceptor` and `IOEventPoll` that locks `conns_mutex_` or
leads to a user callback is written as code over this mutex (`Locks.body`); the two running modes,
the flags and the state of a connection decide the branches, and every answer is possible.  A
closure that another thread executes is not part of the code of the function that queues it:
the thread that executes it does so in `pollOnce` or `run`.  The exit thread calls `shutdownImpl`
or `closeImpl`.

All functions keep to the discipline but one: `on_new_connection_` refuses a handle inside its
first section and reports `EMFILE` from there.

* `Locks.callbacks_unlocked` : the runs in which no refusal is reported;
* `Locks.refusal_reported_locked` : a run in which one is, and the callback never returns.
-/

namespace CxpNet

namespace Server

namespace Locks

open Mutex

/-- The user's callbacks. -/
inductive Callback where
  /-- `on_conn_func_` of the server -/
  | connection
  /-- `on_error_func_` of the server -/
  | error
  /-- `on_message_func_` of a connection -/
  | message
  /-- `watermark_func_` of a connection -/
  | watermark
  /-- `on_close_func_` of a connection -/
  | close
  deriving DecidableEq, Repr

/-- What the code branches on. -/
inductive Question where
  /-- `conns_.size()` has reached `max_connections_`, and `on_error_func_` is set. -/
  | refusalReported
  /-- Everything else. -/
  | other
  deriving DecidableEq, Repr

/-- The functions. -/
inductive Fn where
  /-- `Server` -/
  | shutdown | shutdownImpl | close | shutdownAllOneThread | finishShutdownAllOneThread
  | closeImpl | poll | run | onConnClose | onAcceptorError | onPollError | onNewConnection
  | connectionCount | destructor
  /-- The closure of `on_new_connection_`. -/
  | startConn
  /-- `Conn` -/
  | connClose | cleanup | send | sendInPollThread | handleReadEvent | handleWriteEvent
  | handleCloseEvent
  /-- `Channel::handle_event_` of a connection -/
  | handleEvent
  /-- `Acceptor` -/
  | handleRead
  /-- `IOEventPoll`: `poll_`, and the execution of one closure. -/
  | pollOnce | task
  deriving DecidableEq, Repr

/-- The code of the server. -/
abbrev ServerCode := Code Fn Callback Question

/-- One after another. -/
def block : List ServerCode → ServerCode
  | [] => .skip
  | [c] => c
  | c :: cs => .seq c (block cs)

/-- `if (…) { c } else { d }` -/
def either (c d : ServerCode) : ServerCode := .branch .other c d

/-- `if (…) { c }` -/
def maybe (c : ServerCode) : ServerCode := either c .skip

/-- `if (…) { return; }` in front of `cs` -/
def orReturn (cs : List ServerCode) : ServerCode := either .skip (block cs)

/-- A `lock_guard` in whose scope no callback is invoked. -/
def lockGuard : ServerCode := .seq .lock .unlock

/-- What each function does with `conns_mutex_`, and which callbacks it leads to. -/
def body : Fn → ServerCode
  | .shutdown =>
    orReturn [
      either (.call .shutdownAllOneThread) (orReturn [
        -- on a managed thread the exit thread does it
        maybe (.call .shutdownImpl)])]
  | .shutdownImpl =>
    block [
      -- `shutdown_in_poll_` of the snapshot invokes no callback
      lockGuard,
      maybe (.loop (.call .connectionCount)),
      lockGuard,
      -- on this thread, or as a closure on another one
      .loop (maybe (.call .cleanup))]
  | .close => orReturn [maybe (.call .closeImpl)]
  | .shutdownAllOneThread =>
    -- not started, already shutting down, and the thread check
    orReturn [orReturn [orReturn [lockGuard, .call .finishShutdownAllOneThread]]]
  | .finishShutdownAllOneThread =>
    orReturn [orReturn [
      .call .connectionCount,
      orReturn [lockGuard, .loop (.call .cleanup)]]]
  | .closeImpl => block [lockGuard, .loop (maybe (.call .cleanup))]
  | .destructor => .call .shutdown
  | .poll => orReturn [maybe (.call .pollOnce), .call .finishShutdownAllOneThread]
  | .run => orReturn [.loop (either (.loop (.call .task)) (.call .pollOnce))]
  | .onConnClose => lockGuard
  | .onAcceptorError => orReturn [maybe (.callback .error)]
  | .onPollError => maybe (.callback .error)
  | .onNewConnection =>
    orReturn [
      .lock,
      .branch .refusalReported
        -- `on_error_func_(EMFILE)` and the return, inside the scope of the `lock_guard`
        (block [.callback .error, .unlock])
        (either .unlock (block [
          .unlock,
          -- the address can be read
          orReturn [lockGuard, maybe (.call .startConn)]]))]
  | .connectionCount => lockGuard
  | .startConn => maybe (.callback .connection)
  | .connClose => orReturn [maybe (.call .cleanup)]
  | .cleanup => orReturn [maybe (.call .onConnClose), maybe (.callback .close)]
  | .send => orReturn [maybe (.call .sendInPollThread)]
  | .sendInPollThread =>
    orReturn [either (.call .handleCloseEvent) (maybe (.callback .watermark))]
  | .handleReadEvent => orReturn [maybe (.callback .message), maybe (.call .handleCloseEvent)]
  | .handleWriteEvent =>
    block [.loop (maybe (.callback .watermark)), maybe (.call .handleCloseEvent)]
  | .handleCloseEvent => orReturn [.call .cleanup]
  | .handleEvent =>
    either (block [maybe (.call .handleReadEvent), maybe (.call .handleCloseEvent)])
      (block [maybe (.call .handleReadEvent), maybe (.call .handleWriteEvent)])
  | .handleRead => either (maybe (.call .onAcceptorError)) (.loop (maybe (.call .onNewConnection)))
  | .pollOnce =>
    block [
      .loop (either (.call .handleEvent) (.call .handleRead)),
      .loop (.call .task),
      maybe (.call .onPollError)]
  | .task =>
    either (.call .startConn) (either (.call .cleanup) (maybe (.call .sendInPollThread)))

/-- No refusal is reported; every other answer is possible. -/
def noRefusalReported : Question → Bool → Bool
  | .refusalReported, yes => !yes
  | .other, _ => true

/-- Every function keeps to the discipline if no refusal is reported. -/
theorem body_disciplined (f : Fn) : effect noRefusalReported (body f) false = some false := by
  cases f <;> rfl

variable {T : Type} [DecidableEq T]

/-- **User callbacks run unlocked.**  In every state, with any number of threads, of every run in
which `on_new_connection_` reports no refusal: a thread that is about to invoke a user callback
does not hold `conns_mutex_`, and no thread that is about to lock `conns_mutex_` holds it. -/
theorem callbacks_unlocked {s : St T Fn Callback Question}
    (h : (machine body).ReachIf (AnswersIn noRefusalReported) init s) :
    (∀ t k cs, s.code t = .callback k :: cs → s.holder ≠ some t) ∧
      ∀ t cs, s.code t = .lock :: cs → s.holder ≠ some t := by
  have hd := disciplined_of_reach body_disciplined h
  exact ⟨fun _ _ _ ht => not_held_of_callback hd ht, fun _ _ ht => not_held_of_lock hd ht⟩

/-- `Server::poll` on the only thread, down to the section of `on_new_connection_` that checks the
cap. -/
def pollToCap : List (Act Unit Fn) :=
  [.enter () .poll, .choose () false, .next (), .choose () true, .next (), .next (),
    .choose () true, .choose () false, .next (), .choose () false, .choose () true,
    .choose () true, .next (), .choose () false, .next (), .next ()]

/-- There is room, and the new connection is started on this thread. -/
def admitted : List (Act Unit Fn) :=
  [.choose () false, .choose () false, .next (), .next (), .choose () false, .next (), .next (),
    .next (), .next (), .choose () true, .next (), .choose () true]

theorem callbacks_unlocked_admitted : ∃ s : St Unit Fn Callback Question,
    (machine body).ReachIf (AnswersIn noRefusalReported) init s ∧
    (s.code ()).head? = some (.callback .connection) ∧ s.holder ≠ some () := by
  obtain ⟨s, hr, hp⟩ := Machine.ReachIf.of_endsIn (M := machine body)
    (G := AnswersIn noRefusalReported) (s := (init : St Unit Fn Callback Question))
    (p := fun s => (s.code ()).head? = some (.callback .connection)) (pollToCap ++ admitted)
    (by decide +kernel) (by decide +kernel)
  have hp := of_decide_eq_true hp
  obtain ⟨cs, hcs⟩ := List.head?_eq_some_iff.1 hp
  exact ⟨s, hr, hp, (callbacks_unlocked hr).1 () _ cs hcs⟩

/-- A thread that is about to lock a mutex that it holds takes no step any more. -/
theorem stuck_of_relock {s : St T Fn Callback Question} {t : T} {cs : List ServerCode}
    (hc : s.code t = .lock :: cs) (hh : s.holder = some t) :
    step body s (.next t) = none ∧ (∀ yes, step body s (.choose t yes) = none) ∧
      (∀ f, step body s (.enter t f) = none) ∧ step body s (.leave t) = none := by
  simp [step, hc, hh]

/-- The cap is reached and `on_error_func_` is set: the callback is invoked with `conns_mutex_`
locked, and once it calls `connection_count()` its thread takes no step any more. -/
theorem refusal_reported_locked : ∃ s t : St Unit Fn Callback Question,
    (machine body).Reach init s ∧ (s.code ()).head? = some (.callback .error) ∧
    s.holder = some () ∧ (machine body).Reach s t ∧ (t.code ()).head? = some .lock ∧
    t.holder = some () ∧ ∀ a, step body t a = none := by
  obtain ⟨s, hr, hp⟩ := Machine.Reach.of_endsIn (M := machine body)
    (s := (init : St Unit Fn Callback Question))
    (p := fun s => (s.code ()).head? = some (.callback .error) && s.holder = some () &&
      ((machine body).exec s [Act.next (), .enter () .connectionCount, .next ()]).any fun t =>
        (t.code ()).head? = some .lock && t.holder = some ())
    (pollToCap ++ [Act.choose () true, .next ()]) (by decide +kernel)
  simp only [Bool.and_eq_true, decide_eq_true_eq, Option.any_eq_true] at hp
  obtain ⟨⟨hk, hh⟩, t, hexec, hl, hth⟩ := hp
  refine ⟨s, t, hr, hk, hh, .of_exec _ hexec, hl, hth, fun a => ?_⟩
  obtain ⟨cs, hcs⟩ := List.head?_eq_some_iff.1 hl
  obtain ⟨h1, h2, h3, h4⟩ := stuck_of_relock hcs hth
  cases a with
  | next u => exact h1
  | choose u yes => exact h2 yes
  | enter u f => exact h3 f
  | leave u => exact h4

end Locks

end Server

end CxpNet
