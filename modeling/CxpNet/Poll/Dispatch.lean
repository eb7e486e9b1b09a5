import CxpNet.Machine.Basic
import Mathlib.Data.List.Basic
import Mathlib.Tactic.SplitIfs

/-!
# Channels in a batch

`IOEventPoll::poll_` fills `active_channels_` with raw pointers and calls `handle_event` on one
after another.  The handlers run user callbacks, and these may tear down any other channel of the
poll.  A channel is destroyed

* by the closure that `Conn::do_cleanup_` has passed to `run_later`, after the batch;
* by `Acceptor::shutdown_in_poll_`, at once: as a closure, after the batch, if the server is
  stopped on another thread; but inside a handler if `Server::close` or `Server::shutdown` is
  called there in mode `kAllOneThread`;
* by `Conn::handle_connect_event_`, which destroys the channel that is being dispatched.

A connection is kept alive by the callbacks of its channel, so its destructor destroys none.

* `Dispatch.waiting_alive` : no waiting channel is destroyed, in every run in which a stop on the
  poll thread never finds the acceptor's channel waiting;
* `Dispatch.waiting_acceptor_destroyed` : a run in which one does.
-/

namespace CxpNet

namespace Dispatch

/-- Which poll of which server this is. -/
inductive Role where
  /-- `main_poll_` in mode `kAllOneThread`. -/
  | allInOne
  /-- `main_poll_` in mode `kOnePollPerThread`. -/
  | main
  /-- A sub-poll, or a poll without a server. -/
  | sub
  deriving DecidableEq, Repr

/-- Who owns a channel. -/
inductive Owner where
  /-- `wakeup_channel_` -/
  | wakeup
  | acceptor
  /-- `channel_` of connection `i` -/
  | conn (i : ℕ)
  /-- A closure passed to `run_later`. -/
  | closure
  | destroyed
  deriving DecidableEq, Repr

/-- A connection of this poll. -/
structure ConnSt where
  /-- `channel_` -/
  channel : Option ℕ
  /-- Its channel waits for the connect to finish. -/
  connecting : Bool
  /-- `cleanup_done_` -/
  cleanupDone : Bool
  deriving DecidableEq, Repr

/-- A closure in `tasks_`. -/
inductive Task where
  /-- Destroys channel `c`. -/
  | release (c : ℕ)
  /-- `cleanup_` of connection `i`. -/
  | cleanup (i : ℕ)
  /-- `start_` of a connection that another poll has accepted. -/
  | start
  /-- `Acceptor::shutdown_in_poll_` -/
  | acceptorShutdown
  /-- Destroys no channel itself. -/
  | other
  deriving DecidableEq, Repr

/-- Where the poll thread stands. -/
inductive Phase where
  | outside
  /-- In the loop over `active_channels_`: the channel that is being dispatched, and those that
  are waiting. -/
  | dispatch (current : Option ℕ) (rest : List ℕ)
  /-- In the loop over `tmp_tasks`. -/
  | tasks (rest : List Task)
  deriving DecidableEq, Repr

/-- The channels of a poll and their owners. -/
structure St where
  /-- A channel is named by its index. -/
  chans : List Owner
  /-- `channel_` of the acceptor -/
  acceptor : Option ℕ
  conns : List ConnSt
  /-- `tasks_` -/
  tasks : List Task
  phase : Phase
  /-- The connections in `do_cleanup_` whose close callback is running, the innermost first. -/
  closing : List ℕ
  deriving DecidableEq, Repr

/-- The channels that wait for their `handle_event`. -/
def St.waiting (s : St) : List ℕ :=
  match s.phase with
  | .dispatch _ rest => rest
  | .outside | .tasks _ => []

/-- The poll as it is when the server has started. -/
def init : Role → St
  | .allInOne | .main => ⟨[.wakeup, .acceptor], some 1, [], [], .outside, []⟩
  | .sub => ⟨[.wakeup], none, [], [], .outside, []⟩

/-- The atomic steps. -/
inductive Act where
  /-- The poller reports these channels. -/
  | poll (cs : List ℕ)
  /-- The next channel is dispatched. -/
  | handleEvent
  /-- Its handler returns. -/
  | handlerEnd
  /-- The loop over `active_channels_` ends; the closures are taken. -/
  | dispatchDone
  /-- The next closure is executed. -/
  | runTask
  /-- `poll_` returns. -/
  | tasksDone
  /-- A handler, or user code, on the poll thread: `cleanup_` of connection `i`, up to its close
  callback. -/
  | cleanup (i : ℕ)
  /-- The innermost close callback returns. -/
  | cleanupEnd
  /-- `on_new_connection_` in mode `kAllOneThread`. -/
  | onNewConn
  /-- The user makes a connection object. -/
  | newConn
  /-- `start_connect_in_poll_` of a connection that has no channel. -/
  | connect (i : ℕ)
  /-- `handle_connect_event_` of connection `i`, which is being dispatched. -/
  | connectEvent (i : ℕ) (ok : Bool)
  /-- User code on the poll thread calls `Server::close` or `Server::shutdown`, with effect. -/
  | stop
  /-- Another thread stops the server. -/
  | queueAcceptorShutdown
  /-- Another thread queues a closure for a connection. -/
  | post (t : Task)
  deriving DecidableEq, Repr

/-- A handler, a closure or user code is running. -/
def St.inCode (s : St) : Bool :=
  match s.phase with
  | .dispatch none _ => false
  | .outside | .dispatch (some _) _ | .tasks _ => true

/-- `channel_.reset()` of the acceptor -/
def destroyAcceptor (s : St) : St :=
  match s.acceptor with
  | some c => { s with acceptor := none, chans := s.chans.set c .destroyed }
  | none => s

/-- `cleanup_` of connection `i`. -/
def cleanup (i : ℕ) (s : St) : Option St :=
  (s.conns[i]?).map fun k =>
    if k.cleanupDone then s
    else { s with
      conns := s.conns.set i { k with cleanupDone := true }, closing := i :: s.closing }

/-- A connection that has just been started. -/
def startConn (s : St) : St :=
  { s with
    chans := s.chans ++ [.conn s.conns.length]
    conns := s.conns ++ [⟨some s.chans.length, false, false⟩] }

/-- What a closure does. -/
def exec (s : St) : Task → Option St
  | .release c => some { s with chans := s.chans.set c .destroyed }
  | .cleanup i => cleanup i s
  | .start => some (startConn s)
  | .acceptorShutdown => some (destroyAcceptor s)
  | .other => some s

/-- The poller may report the channel: it is registered. -/
def St.registered (s : St) (c : ℕ) : Bool :=
  match s.chans[c]? with
  | some .wakeup | some .acceptor | some (.conn _) => true
  | some .closure | some .destroyed | none => false

/-- A closure that other threads may queue. -/
def Task.posted : Task → Bool
  | cleanup _ | start | other => true
  | release _ | acceptorShutdown => false

variable (role : Role)

/-- One step of a poll in this role. -/
def step (s : St) : Act → Option St
  | .poll cs =>
    if s.phase = .outside ∧ s.closing = [] ∧ cs.Nodup ∧ cs.all s.registered = true then
      some { s with phase := .dispatch none cs }
    else none
  | .handleEvent =>
    match s.phase with
    | .dispatch none (c :: rest) =>
      -- a call on a destroyed object is undefined
      if s.chans[c]? = some .destroyed then none
      else some { s with phase := .dispatch (some c) rest }
    | _ => none
  | .handlerEnd =>
    match s.phase, s.closing with
    | .dispatch (some _) rest, [] => some { s with phase := .dispatch none rest }
    | _, _ => none
  | .dispatchDone =>
    if s.phase = .dispatch none [] then some { s with phase := .tasks s.tasks, tasks := [] }
    else none
  | .runTask =>
    match s.phase, s.closing with
    | .tasks (t :: rest), [] => exec { s with phase := .tasks rest } t
    | _, _ => none
  | .tasksDone =>
    if s.phase = .tasks [] ∧ s.closing = [] then some { s with phase := .outside } else none
  | .cleanup i => if s.inCode then cleanup i s else none
  | .cleanupEnd =>
    match s.closing with
    | i :: rest =>
      (s.conns[i]?).map fun k =>
        match k.channel with
        | some c => { s with
            closing := rest
            conns := s.conns.set i { k with channel := none }
            chans := s.chans.set c .closure
            tasks := s.tasks ++ [.release c] }
        | none => { s with closing := rest }
    | [] => none
  | .onNewConn => if role = .allInOne ∧ s.inCode = true then some (startConn s) else none
  | .newConn => some { s with conns := s.conns ++ [⟨none, false, false⟩] }
  | .connect i =>
    if s.inCode then
      match s.conns[i]? with
      | some ⟨none, _, _⟩ => some { s with
          chans := s.chans ++ [.conn i]
          conns := s.conns.set i ⟨some s.chans.length, true, false⟩ }
      | _ => none
    else none
  | .connectEvent i ok =>
    match s.phase, s.conns[i]? with
    | .dispatch (some c) _, some ⟨some d, true, done⟩ =>
      if c = d ∧ s.closing = [] then
        if ok then some { s with
          chans := s.chans.set c .destroyed ++ [.conn i]
          conns := s.conns.set i ⟨some s.chans.length, false, false⟩ }
        else some { s with
          chans := s.chans.set c .destroyed
          conns := s.conns.set i ⟨none, false, done⟩ }
      else none
    | _, _ => none
  | .stop =>
    if s.inCode then
      -- on a managed thread of mode `kOnePollPerThread` the exit thread does it
      some (if role = .allInOne then destroyAcceptor s else s)
    else none
  | .queueAcceptorShutdown =>
    if role = .sub then none else some { s with tasks := s.tasks ++ [.acceptorShutdown] }
  | .post t => if t.posted then some { s with tasks := s.tasks ++ [t] } else none

/-- The poll as a machine. -/
def machine : Machine St Act := ⟨step role⟩

/-! ### Who owns what -/

/-- The channel that is being dispatched, and those that are waiting. -/
def St.batch (s : St) : List ℕ :=
  match s.phase with
  | .dispatch current rest => current.toList ++ rest
  | .outside | .tasks _ => []

/-- The closures that are still to be executed. -/
def St.queued (s : St) : List Task :=
  match s.phase with
  | .tasks rest => rest ++ s.tasks
  | .outside | .dispatch _ _ => s.tasks

/-- A channel has one owner, and a waiting channel is not destroyed. -/
structure Inv (s : St) : Prop where
  waiting : ∀ c ∈ s.waiting, ∃ o, s.chans[c]? = some o ∧ o ≠ .destroyed
  nodup : s.batch.Nodup
  conns : ∀ (i : ℕ) (k : ConnSt) (c : ℕ), s.conns[i]? = some k → k.channel = some c →
    s.chans[c]? = some (.conn i)
  acceptor : ∀ c, s.acceptor = some c → s.chans[c]? = some .acceptor
  released : ∀ c, .release c ∈ s.queued →
    s.chans[c]? = some .closure ∨ s.chans[c]? = some .destroyed

/-- The acceptor's channel is waiting in the batch. -/
def St.acceptorWaiting (s : St) : Bool := s.acceptor.any (· ∈ s.waiting)

/-- A stop on the poll thread in mode `kAllOneThread` does not find the acceptor's channel
waiting. -/
def StopOk (s : St) (a : Act) : Prop :=
  a = .stop → role = .allInOne → s.acceptorWaiting = false

instance (s : St) (a : Act) : Decidable (StopOk role s a) :=
  inferInstanceAs (Decidable (a = .stop → role = .allInOne → s.acceptorWaiting = false))

variable {role} {s s' : St} {a : Act}

/-- The connections that have a channel in `s'` have had it in `s`. -/
def Keeps (s s' : St) : Prop :=
  ∀ (i : ℕ) (k : ConnSt) (c : ℕ), s'.conns[i]? = some k → k.channel = some c →
    ∃ k', s.conns[i]? = some k' ∧ k'.channel = some c

namespace Keeps

theorem of_eq (h : s'.conns = s.conns) : Keeps s s' := fun _ k _ hk hc => ⟨k, h ▸ hk, hc⟩

/-- Connection `i` changes, and keeps its channel or drops it. -/
theorem set {i : ℕ} {k k' : ConnSt} (hs : s'.conns = s.conns.set i k') (hk : s.conns[i]? = some k)
    (hc : ∀ c, k'.channel = some c → k.channel = some c) : Keeps s s' := by
  intro j q c hq hqc
  rw [hs, List.getElem?_set] at hq
  split_ifs at hq with hij hlt
  · subst hij
    cases hq
    exact ⟨k, hk, hc c hqc⟩
  · exact ⟨q, hq, hqc⟩

end Keeps

namespace Inv

/-- Steps that change no owner. -/
theorem congr (h : Inv s) (hch : s'.chans = s.chans) (hk : Keeps s s')
    (ha : s'.acceptor = s.acceptor) (hw : ∀ c ∈ s'.waiting, c ∈ s.waiting)
    (hb : s.batch.Nodup → s'.batch.Nodup)
    (hq : ∀ c, .release c ∈ s'.queued → .release c ∈ s.queued) : Inv s' where
  waiting c hc := by
    rw [hch]
    exact h.waiting c (hw c hc)
  nodup := hb h.nodup
  conns i k c hi hc := by
    obtain ⟨k', hk', hc'⟩ := hk i k c hi hc
    rw [hch]
    exact h.conns i k' c hk' hc'
  acceptor := by
    rw [hch, ha]
    exact h.acceptor
  released c hc := by
    rw [hch]
    exact h.released c (hq c hc)

/-- Connection `i` gets a new channel. -/
theorem newChannel {i : ℕ} (h : Inv s) (hch : s'.chans = s.chans ++ [Owner.conn i])
    (hi : ∀ k c, s'.conns[i]? = some k → k.channel = some c → c = s.chans.length)
    (hk : ∀ j, j ≠ i → ∀ k c, s'.conns[j]? = some k → k.channel = some c → s.conns[j]? = some k)
    (ha : s'.acceptor = s.acceptor) (hph : s'.phase = s.phase) (ht : s'.tasks = s.tasks) :
    Inv s' := by
  have hold : ∀ {c o}, s.chans[c]? = some o → s'.chans[c]? = some o := fun {c o} hc => by
    rw [hch, List.getElem?_append_left (List.getElem?_eq_some_iff.1 hc).1, hc]
  refine ⟨fun c hc => ?_, ?_, fun j k c hj hc => ?_, fun c hc => ?_, fun c hc => ?_⟩
  · rw [St.waiting, hph] at hc
    obtain ⟨o, ho, hne⟩ := h.waiting c hc
    exact ⟨o, hold ho, hne⟩
  · rw [St.batch, hph]
    exact h.nodup
  · by_cases hji : j = i
    · subst hji
      rw [hi k c hj hc, hch]
      simp
    · exact hold (h.conns j k c (hk j hji k c hj hc) hc)
  · exact hold (h.acceptor c (ha ▸ hc))
  · rw [St.queued, hph, ht] at hc
    exact (h.released c hc).imp hold hold

/-- Channel `c` leaves its owner. -/
theorem retire {c : ℕ} {o o' : Owner} (h : Inv s) (hc : s.chans[c]? = some o')
    (ho : o = .closure ∨ o = .destroyed ∧ c ∉ s'.waiting) (hch : s'.chans = s.chans.set c o)
    (hk : Keeps s s') (hne : ∀ (i : ℕ) (k : ConnSt), s'.conns[i]? = some k → k.channel ≠ some c)
    (ha : ∀ d, s'.acceptor = some d → s.acceptor = some d ∧ d ≠ c) (hph : s'.phase = s.phase)
    (hq : ∀ d, .release d ∈ s'.queued → d = c ∨ .release d ∈ s.queued) : Inv s' := by
  have hnew : s'.chans[c]? = some o := by
    rw [hch, List.getElem?_set_self (List.getElem?_eq_some_iff.1 hc).1]
  have hold : ∀ {d}, d ≠ c → s'.chans[d]? = s.chans[d]? := fun {d} hd => by
    rw [hch, List.getElem?_set_ne (Ne.symm hd)]
  refine ⟨fun d hd => ?_, ?_, fun i k d hi hd => ?_, fun d hd => ?_, fun d hd => ?_⟩
  · by_cases hdc : d = c
    · subst hdc
      rcases ho with rfl | ⟨-, hw⟩
      · exact ⟨_, hnew, nofun⟩
      · exact absurd hd hw
    · rw [St.waiting, hph] at hd
      rw [hold hdc]
      exact h.waiting d hd
  · rw [St.batch, hph]
    exact h.nodup
  · have hdc : d ≠ c := fun he => hne i k hi (he ▸ hd)
    obtain ⟨k', hk', hd'⟩ := hk i k d hi hd
    rw [hold hdc]
    exact h.conns i k' d hk' hd'
  · obtain ⟨hd', hdc⟩ := ha d hd
    rw [hold hdc]
    exact h.acceptor d hd'
  · by_cases hdc : d = c
    · subst hdc
      rw [hnew]
      exact ho.imp (congrArg some) fun ho => congrArg some ho.1
    · rw [hold hdc]
      exact h.released d ((hq d hd).resolve_left hdc)

/-- A closure is queued that destroys no channel of a connection. -/
theorem enqueue {t : Task} (h : Inv s) (ht : ∀ c, t ≠ .release c) :
    Inv { s with tasks := s.tasks ++ [t] } := by
  refine h.congr rfl (.of_eq rfl) rfl (fun _ => id) id fun c hc => ?_
  have hne : Task.release c ≠ t := fun he => ht c he.symm
  cases hph : s.phase <;> simpa [St.queued, hph, hne] using hc

theorem of_cleanup {i : ℕ} (h : Inv s) (hc : cleanup i s = some s') : Inv s' := by
  obtain ⟨k, hk, rfl⟩ := Option.map_eq_some_iff.1 hc
  split
  · exact h
  · exact h.congr rfl (.set rfl hk fun _ => id) rfl (fun _ => id) id fun _ => id

theorem of_destroyAcceptor (h : Inv s) (hw : s.acceptorWaiting = false) :
    Inv (destroyAcceptor s) := by
  unfold destroyAcceptor
  split
  · rename_i c hc
    have hown := h.acceptor c hc
    -- here the acceptor's channel would be destroyed while it waits
    have hnw : c ∉ s.waiting := by simpa [St.acceptorWaiting, hc] using hw
    refine h.retire hown (.inr ⟨rfl, hnw⟩) rfl (.of_eq rfl) (fun i k hk hkc => ?_) nofun rfl
      fun _ => .inr
    rw [h.conns i k c hk hkc] at hown
    cases hown
  · exact h

theorem of_startConn (h : Inv s) : Inv (startConn s) := by
  refine h.newChannel rfl (fun k c hk hc => ?_) (fun j hj k c hk _ => ?_) rfl rfl rfl
  · simp only [startConn, List.getElem?_concat_length, Option.some.injEq] at hk
    subst hk
    exact (Option.some.inj hc).symm
  · simp only [startConn, List.getElem?_append] at hk
    split_ifs at hk with hlt
    · exact hk
    · rw [List.getElem?_eq_none (by simp; omega)] at hk
      cases hk

/-- A closure is executed after the batch, when no channel is waiting. -/
theorem of_exec {t : Task} {rest : List Task} (h : Inv s) (hph : s.phase = .tasks (t :: rest))
    (he : exec { s with phase := .tasks rest } t = some s') : Inv s' := by
  have hw : { s with phase := .tasks rest }.waiting = [] := rfl
  have hq : s.queued = t :: { s with phase := .tasks rest }.queued := by
    simp [St.queued, hph]
  have h₁ : Inv { s with phase := .tasks rest } := by
    refine ⟨nofun, List.nodup_nil, h.conns, h.acceptor, fun c hc => h.released c ?_⟩
    rw [hq]
    exact List.mem_cons_of_mem _ hc
  cases t with
  | release c =>
    cases he
    have hc := h.released c (by rw [hq]; exact List.mem_cons_self)
    obtain ⟨o, ho, hown⟩ : ∃ o, s.chans[c]? = some o ∧ (o = .closure ∨ o = .destroyed) :=
      hc.elim (fun hc => ⟨_, hc, .inl rfl⟩) fun hc => ⟨_, hc, .inr rfl⟩
    refine h₁.retire ho (.inr ⟨rfl, nofun⟩) rfl (.of_eq rfl) (fun i k hk hkc => ?_)
      (fun d hd => ⟨hd, ?_⟩) rfl fun _ => .inr
    · -- a closure owns the channel, hence no connection does
      have hcon := h.conns i k c hk hkc
      rw [ho] at hcon
      rcases hown with rfl | rfl <;> cases hcon
    · rintro rfl
      have hacc := h.acceptor d hd
      rw [ho] at hacc
      rcases hown with rfl | rfl <;> cases hacc
  | cleanup i => exact h₁.of_cleanup he
  | start =>
    cases he
    exact h₁.of_startConn
  | acceptorShutdown =>
    cases he
    refine h₁.of_destroyAcceptor ?_
    simp [St.acceptorWaiting, hw]
  | other =>
    cases he
    exact h₁

/-- The channel of connection `i` leaves it. -/
theorem leave {i c : ℕ} {k k' : ConnSt} {o : Owner} (h : Inv s) (hk : s.conns[i]? = some k)
    (hc : k.channel = some c) (hk' : k'.channel = none) (hs : s'.conns = s.conns.set i k')
    (ho : o = .closure ∨ o = .destroyed ∧ c ∉ s'.waiting) (hch : s'.chans = s.chans.set c o)
    (ha : s'.acceptor = s.acceptor) (hph : s'.phase = s.phase)
    (hq : ∀ d, .release d ∈ s'.queued → d = c ∨ .release d ∈ s.queued) : Inv s' := by
  have hown := h.conns i k c hk hc
  have hkeeps : Keeps s s' := .set hs hk fun d hd => by rw [hk'] at hd; cases hd
  refine h.retire hown ho hch hkeeps (fun j q hj hjc => ?_) (fun d hd => ⟨ha ▸ hd, ?_⟩) hph hq
  · -- only `i` owned the channel, and `i` has none any more
    obtain ⟨q', hq', hqc⟩ := hkeeps j q c hj hjc
    have := h.conns j q' c hq' hqc
    rw [hown] at this
    cases this
    rw [hs, List.getElem?_set_self (List.getElem?_eq_some_iff.1 hk).1] at hj
    cases hj
    rw [hk'] at hjc
    cases hjc
  · rintro rfl
    have := h.acceptor d (ha ▸ hd)
    rw [hown] at this
    cases this

/-- The channel of a connection goes to a closure of `run_later`. -/
theorem of_cleanupEnd (h : Inv s) (hst : step role s .cleanupEnd = some s') : Inv s' := by
  simp only [step] at hst
  split at hst
  · rename_i i rest hcl
    obtain ⟨k, hk, rfl⟩ := Option.map_eq_some_iff.1 hst
    split
    · rename_i c hc
      refine h.leave hk hc rfl rfl (.inl rfl) rfl rfl rfl fun d hd => ?_
      cases hph : s.phase with
      | tasks rest =>
        simp only [St.queued, hph, List.mem_append, List.mem_singleton, Task.release.injEq] at hd ⊢
        tauto
      | outside | dispatch current rest =>
        simp only [St.queued, hph, List.mem_append, List.mem_singleton, Task.release.injEq] at hd ⊢
        tauto
    · exact h.congr rfl (.of_eq rfl) rfl (fun _ => id) id fun _ => id
  · cases hst

theorem current_not_waiting {c : ℕ} {rest : List ℕ} (h : Inv s)
    (hph : s.phase = .dispatch (some c) rest) : c ∉ rest := by
  have hb := h.nodup
  simp only [St.batch, hph, Option.toList_some, List.singleton_append] at hb
  exact (List.nodup_cons.1 hb).1

theorem of_connectEvent {i : ℕ} {ok : Bool} (h : Inv s)
    (hst : step role s (.connectEvent i ok) = some s') : Inv s' := by
  simp only [step] at hst
  split at hst
  · rename_i c rest d done hph hk
    have hw : c ∉ s.waiting := by simpa [St.waiting, hph] using h.current_not_waiting hph
    split_ifs at hst with hcd hok
    · -- the old channel is destroyed, then the connection gets a new one
      cases hst
      obtain ⟨rfl, -⟩ := hcd
      have h₁ : Inv { s with
          chans := s.chans.set c .destroyed, conns := s.conns.set i ⟨none, false, false⟩ } :=
        h.leave hk rfl rfl rfl (.inr ⟨rfl, hw⟩) rfl rfl rfl fun _ => .inr
      refine h₁.newChannel rfl (fun k c hk' hc => ?_) (fun j hj k c hk' _ => ?_) rfl rfl rfl
      · rw [List.getElem?_set_self (List.getElem?_eq_some_iff.1 hk).1] at hk'
        cases hk'
        simpa using hc.symm
      · rw [List.getElem?_set_ne (Ne.symm hj)] at hk' ⊢
        exact hk'
    · cases hst
      obtain ⟨rfl, -⟩ := hcd
      exact h.leave hk rfl rfl rfl (.inr ⟨rfl, hw⟩) rfl rfl rfl fun _ => .inr
  · cases hst

end Inv

theorem inv_step (h : Inv s) (hG : StopOk role s a) (hst : step role s a = some s') : Inv s' := by
  cases a with
  | poll cs =>
    simp only [step] at hst
    split_ifs at hst with hc
    cases hst
    obtain ⟨hph, -, hnd, hreg⟩ := hc
    refine ⟨fun c hc => ?_, by simpa [St.batch] using hnd, h.conns, h.acceptor, fun c hc => ?_⟩
    · -- the poller reports registered channels, and a destroyed one is not registered
      have hr := List.all_eq_true.1 hreg c hc
      cases ho : s.chans[c]? with
      | none => simp [St.registered, ho] at hr
      | some o => exact ⟨o, rfl, fun he => by simp [St.registered, ho, he] at hr⟩
    · exact h.released c (by simpa [St.queued, hph] using hc)
  | handleEvent =>
    simp only [step] at hst
    split at hst
    · rename_i c rest hph
      split_ifs at hst
      cases hst
      refine h.congr rfl (.of_eq rfl) rfl (fun d hd => ?_) (fun hb => ?_) fun d hd => ?_
      · simpa [St.waiting, hph] using .inr hd
      · simpa [St.batch, hph] using hb
      · simpa [St.queued, hph] using hd
    · cases hst
  | handlerEnd =>
    simp only [step] at hst
    split at hst
    · rename_i c rest hph hcl
      cases hst
      refine h.congr rfl (.of_eq rfl) rfl (fun d hd => ?_) (fun hb => ?_) fun d hd => ?_
      · simpa [St.waiting, hph] using hd
      · simp only [St.batch, hph, Option.toList_some] at hb
        exact hb.of_cons
      · simpa [St.queued, hph] using hd
    · cases hst
  | dispatchDone =>
    simp only [step] at hst
    split_ifs at hst with hph
    cases hst
    refine h.congr rfl (.of_eq rfl) rfl nofun (fun _ => List.nodup_nil) fun d hd => ?_
    simpa [St.queued, hph] using hd
  | runTask =>
    simp only [step] at hst
    split at hst
    · rename_i hph _
      exact h.of_exec hph hst
    · cases hst
  | tasksDone =>
    simp only [step] at hst
    split_ifs at hst with hph
    cases hst
    refine h.congr rfl (.of_eq rfl) rfl nofun (fun _ => List.nodup_nil) fun d hd => ?_
    simpa [St.queued, hph.1] using hd
  | cleanup i =>
    simp only [step] at hst
    split_ifs at hst
    exact h.of_cleanup hst
  | cleanupEnd => exact h.of_cleanupEnd hst
  | onNewConn =>
    simp only [step] at hst
    split_ifs at hst
    cases hst
    exact h.of_startConn
  | newConn =>
    cases hst
    refine h.congr rfl (fun i k c hk hc => ⟨k, ?_, hc⟩) rfl (fun _ => id) id fun _ => id
    rw [List.getElem?_append] at hk
    split_ifs at hk with hlt
    · exact hk
    · rw [List.getElem?_singleton] at hk
      split_ifs at hk
      cases hk
      cases hc
  | connect i =>
    simp only [step] at hst
    split_ifs at hst
    split at hst
    · rename_i hk
      cases hst
      refine h.newChannel rfl (fun k c hk' hc => ?_) (fun j hj k c hk' _ => ?_) rfl rfl rfl
      · rw [List.getElem?_set_self (List.getElem?_eq_some_iff.1 hk).1] at hk'
        cases hk'
        exact (Option.some.inj hc).symm
      · rwa [List.getElem?_set_ne (Ne.symm hj)] at hk'
    · cases hst
  | connectEvent i ok => exact h.of_connectEvent hst
  | stop =>
    simp only [step] at hst
    split at hst
    · cases hst
      split_ifs with hr
      · exact h.of_destroyAcceptor (hG rfl hr)
      · exact h
    · cases hst
  | queueAcceptorShutdown =>
    simp only [step] at hst
    split_ifs at hst
    cases hst
    exact h.enqueue nofun
  | post t =>
    simp only [step] at hst
    split_ifs at hst with ht
    cases hst
    refine h.enqueue fun c hc => ?_
    simp [hc, Task.posted] at ht

/-! ### Results -/

theorem inv_init : Inv (init role) := by
  cases role <;> constructor <;> simp [init, St.waiting, St.batch, St.queued]

/-- **Dispatched channels are alive.**  In every state of every run in which a stop on the poll
thread never finds the acceptor's channel waiting: no channel that waits for its `handle_event` in
the batch has been destroyed. -/
theorem waiting_alive (h : (machine role).ReachIf (StopOk role) (init role) s) :
    ∀ c ∈ s.waiting, s.chans[c]? ≠ some .destroyed := by
  have hi : Inv s := h.invariant inv_init fun _ _ _ hi hG hst => inv_step hi hG hst
  intro c hc he
  obtain ⟨o, ho, hne⟩ := hi.waiting c hc
  rw [he] at ho
  cases ho
  exact hne rfl

/-- Two connections are admitted.  In the next batch the handler of the first one closes both and
stops the server; the acceptor's channel is not in this batch. -/
def closeOther : List Act :=
  [.poll [1], .handleEvent, .onNewConn, .onNewConn, .handlerEnd, .dispatchDone, .tasksDone,
    .poll [2, 3], .handleEvent, .cleanup 1, .cleanupEnd, .cleanup 0, .cleanupEnd, .stop]

theorem waiting_alive_closeOther : ∃ s,
    (machine .allInOne).ReachIf (StopOk .allInOne) (init .allInOne) s ∧ s.waiting = [3] ∧
    s.conns[1]? = some ⟨none, false, true⟩ ∧ ∀ c ∈ s.waiting, s.chans[c]? ≠ some .destroyed := by
  obtain ⟨s, hr, hp⟩ := Machine.ReachIf.of_endsIn (M := machine .allInOne) (G := StopOk .allInOne)
    (s := init .allInOne) (p := fun s => s.waiting = [3] &&
      s.conns[1]? = some ⟨none, false, true⟩) closeOther (by decide +kernel) (by decide +kernel)
  simp only [Bool.and_eq_true, decide_eq_true_eq] at hp
  exact ⟨s, hr, hp.1, hp.2, waiting_alive hr⟩

/-- A connection is admitted.  In the next batch its channel comes first and the acceptor's second,
and its handler stops the server. -/
def stopInBatch : List Act :=
  [.poll [1], .handleEvent, .onNewConn, .handlerEnd, .dispatchDone, .tasksDone, .poll [2, 1],
    .handleEvent, .stop, .handlerEnd]

/-- The acceptor's channel has been destroyed, and it is the next to be dispatched. -/
theorem waiting_acceptor_destroyed : ∃ s, (machine .allInOne).Reach (init .allInOne) s ∧
    s.phase = .dispatch none [1] ∧ s.chans[1]? = some .destroyed := by
  obtain ⟨s, hr, hp⟩ := Machine.Reach.of_endsIn (M := machine .allInOne) (s := init .allInOne)
    (p := fun s => s.phase = .dispatch none [1] && s.chans[1]? = some Owner.destroyed) stopInBatch
    (by decide +kernel)
  simp only [Bool.and_eq_true, decide_eq_true_eq] at hp
  exact ⟨s, hr, hp.1, hp.2⟩

end Dispatch

end CxpNet
