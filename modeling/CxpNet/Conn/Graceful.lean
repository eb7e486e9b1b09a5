import CxpNet.Conn.Stream
import Mathlib.Data.List.Forall2

/-!
# Graceful shutdown

Any thread may call `send` and `shutdown`: on the poll's thread the call is carried out at once, on
another thread it is queued, and what was checked when it was called is checked again when it is
carried out.  `Traced` is a connection with the history of these calls.

* `Conn.books_of_reach` : the calls of one thread are carried out in the order they were made in;
* `Conn.graceful_shutdown` : the write side is shut only when every byte of every message that was
  begun has been accepted, among them those that a thread has sent before its `shutdown`, and no
  byte is handed to the kernel afterwards.
-/

namespace CxpNet

namespace Conn

/-! ### Calls -/

/-- The closures of `send` and `shutdown`. -/
def Task.isCall : Task → Bool
  | .send _ | .shutdown => true
  | _ => false

/-- A call of `send` or `shutdown`. -/
structure Call where
  /-- The calling thread; `none` is the poll's. -/
  thread : Option ℕ
  task : Task
  deriving DecidableEq

/-- A connection and the history of the calls. -/
structure Traced where
  conn : Except Crash St
  /-- The calls that have passed the check that is made when they are called, oldest first. -/
  calls : List Call
  /-- Those that are queued on the poll. -/
  queue : List ℕ
  /-- Those that were carried out, with the state they have found. -/
  ran : List (ℕ × State)

/-- The call that thread `t` makes by the step `a`, if it passes its check. -/
def St.callBy (s : St) (t : ℕ) : Act → Option Call
  | .send m => if s.state ≠ .kConnected ∨ m.bytes = [] then none else some ⟨none, .send m⟩
  | .shutdown =>
    if s.state = .kDisconnected ∨ s.state = .kDisconnecting ∨ s.handle = none then none
    else some ⟨none, .shutdown⟩
  | .postSend m => if s.state ≠ .kConnected ∨ m.bytes = [] then none else some ⟨some t, .send m⟩
  | .postShutdown =>
    if s.state = .kDisconnected ∨ s.state = .kDisconnecting ∨ s.handle = none then none
    else some ⟨some t, .shutdown⟩
  | .serverShutdown => some ⟨some t, .shutdown⟩
  | _ => none

namespace Traced

/-- The history after the step `a` of thread `t`. -/
def record (x : Traced) (s : St) (t : ℕ) (a : Act) (c : Except Crash St) : Traced :=
  match s.callBy t a with
  | some k =>
    if k.thread = none then
      { x with conn := c, calls := x.calls ++ [k], ran := x.ran ++ [(x.calls.length, s.state)] }
    else { x with conn := c, calls := x.calls ++ [k], queue := x.queue ++ [x.calls.length] }
  | none =>
    match a, s.tasks with
    | .runTask _, k :: _ =>
      if k.isCall then
        { x with
          conn := c, queue := x.queue.tail
          ran := x.ran ++ x.queue.head?.toList.map fun i => (i, s.state) }
      else { x with conn := c }
    | _, _ => { x with conn := c }

/-- The bytes that the `i`th call wants to send. -/
def bytes (x : Traced) (i : ℕ) : List UInt8 :=
  match x.calls[i]? with
  | some ⟨_, .send m⟩ => m.bytes
  | _ => []

/-- The bytes of the messages that have found the connection established, in the order in which
they were begun. -/
def messages (x : Traced) : List UInt8 :=
  x.ran.flatMap fun p => if p.2 = .kConnected then x.bytes p.1 else []

end Traced

/-- The connection as a machine that records the calls. -/
def traced (A : Allocator) (K : Kernel) : Machine Traced (ℕ × Act) where
  step x p :=
    match x.conn with
    | .error _ => none
    | .ok s => ((machine A K).step (.ok s) p.2).map (x.record s p.1 p.2)

/-! ### Steps that neither begin a message nor queue a call -/

def Ev.isBegan : Ev → Bool
  | .began _ => true
  | _ => false

theorem begunBytes_of_noBegan {l : List Ev} (h : ∀ e ∈ l, e.isBegan = false) :
    begunBytes l = [] := by
  rw [begunBytes, List.flatMap_eq_nil_iff]
  intro e he
  have := h e he
  cases e <;> simp_all [Ev.isBegan]

/-- No message is begun and no call is queued. -/
structure Silent (s s' : St) : Prop where
  log : ∃ l, s'.log = s.log ++ l ∧ ∀ e ∈ l, e.isBegan = false
  tasks : ∃ ts, s'.tasks = s.tasks ++ ts ∧ ∀ k ∈ ts, k.isCall = false

namespace Silent

variable {A : Allocator} {K : Kernel} {s s' t : St}

theorem of_log {l : List Ev} (hl : s'.log = s.log ++ l) (hb : ∀ e ∈ l, e.isBegan = false)
    (ht : s'.tasks = s.tasks) : Silent s s' :=
  ⟨⟨l, hl, hb⟩, [], by simp [ht], by simp⟩

theorem of_eq (hl : s'.log = s.log) (ht : s'.tasks = s.tasks) : Silent s s' :=
  of_log (l := []) (by simp [hl]) (by simp) ht

theorem refl (s : St) : Silent s s := of_eq rfl rfl

theorem trans {s₁ s₂ s₃ : St} (h : Silent s₁ s₂) (h' : Silent s₂ s₃) : Silent s₁ s₃ := by
  obtain ⟨⟨l, hl, hb⟩, ts, ht, hk⟩ := h
  obtain ⟨⟨l', hl', hb'⟩, ts', ht', hk'⟩ := h'
  exact ⟨⟨l ++ l', by simp [hl', hl], by simpa [or_imp, forall_and] using ⟨hb, hb'⟩⟩,
    ts ++ ts', by simp [ht', ht], by simpa [or_imp, forall_and] using ⟨hk, hk'⟩⟩

theorem post {k : Task} (hk : k.isCall = false) : Silent s (s.post k) :=
  ⟨⟨[], by simp [St.post], by simp⟩, [k], rfl, by simpa using hk⟩

theorem addWriteEvent (h : s.addWriteEvent = .ok s') : Silent s s' := by
  obtain ⟨c, c', w, -, rfl, -⟩ := St.addWriteEvent_ok h
  exact of_eq rfl rfl

theorem checkHigh (h : s.checkHigh = .ok s') : Silent s s' := by
  rcases St.checkHigh_ok h with rfl | rfl | rfl
  · exact refl _
  · exact of_eq rfl rfl
  · exact of_log rfl (by simp [Ev.isBegan]) rfl

theorem enqueue {bs : List UInt8} (h : s.enqueue A bs = .ok s') : Silent s s' := by
  obtain ⟨b, b', t, -, -, ht, h⟩ := St.enqueue_ok h
  have h0 : Silent s { s with writeBuffer := some b' } := of_eq rfl rfl
  exact h0.trans ((addWriteEvent ht).trans (checkHigh h))

theorem sendTail {m : Msg} {n : ℕ} (h : s.sendTail A m n = .ok s') : Silent s s' := by
  unfold St.sendTail at h
  split_ifs at h
  · exact enqueue h
  · exact checkHigh h

/-- **`send_in_poll_thread_`** begins the message iff it finds the connection established. -/
theorem sendInPollThread {m : Msg} (h : s.sendInPollThread A m = .ok s') :
    (s.state ≠ .kConnected ∧ s' = s) ∨
      (s.state = .kConnected ∧ Silent (s.note (.began m.bytes)) s') := by
  unfold St.sendInPollThread at h
  split_ifs at h with hs
  · cases h
    exact .inl ⟨hs, rfl⟩
  right
  refine ⟨by simpa using hs, ?_⟩
  dsimp only at h
  split at h
  · split_ifs at h
    · exact enqueue h
    · cases h
      exact of_eq rfl rfl
  · cases h
    exact refl _

theorem writeTail (h : s.writeTail = .ok s') : Silent s s' := by
  obtain ⟨b, -, ⟨-, rfl⟩ | ⟨-, c, c', w, -, -, -, -, -, rfl⟩⟩ := St.writeTail_ok h
  · exact refl _
  · refine of_log rfl ?_ rfl
    split_ifs <;> simp [Ev.isBegan]

theorem wrote {n : ℕ} (h : s.wrote A n = .ok s') : Silent s s' := by
  obtain ⟨b, b', -, -, fs, l, rfl, hf⟩ := St.wrote_ok h
  refine of_log rfl ?_ rfl
  rcases hf with ⟨-, rfl⟩ | ⟨-, rfl⟩ | ⟨-, rfl⟩ <;> simp [Ev.isBegan]

theorem sysSend {bs : List UInt8} {r : SendRet} {x : ℤ × St}
    (h : St.sysSend K bs r s = some x) : Silent s x.2 := by
  cases r <;> simp only [St.sysSend] at h <;> split_ifs at h <;> cases h <;>
    exact of_log rfl (by simp [Ev.isBegan]) rfl

theorem releaseChannel (s : St) : Silent s s.releaseChannel := by
  obtain ⟨rel, he, hrel⟩ := s.releaseChannel_eq
  rw [he]
  refine ⟨⟨[], by simp, by simp⟩, rel, rfl, ?_⟩
  rcases hrel with rfl | rfl <;> simp [Task.isCall]

theorem cleanup (err : ℕ) (s : St) : Silent s (s.cleanup err) := by
  cases hd : s.cleanupDone with
  | true => rw [St.cleanup_of_done err hd]; exact refl _
  | false =>
    obtain ⟨sch, ch, w, rel, he, hrel, -⟩ := St.cleanup_eq err hd
    rw [he]
    refine ⟨⟨_, rfl, fun e hm => ?_⟩, rel, rfl, ?_⟩
    · cases St.tidies_of_mem hm <;> rfl
    · rcases hrel with rfl | rfl <;> simp [Task.isCall]

theorem handleCloseEvent (err : ℕ) (s : St) : Silent s (s.handleCloseEvent err) := by
  unfold St.handleCloseEvent
  split_ifs
  · exact refl _
  · exact cleanup err s

theorem close (s : St) : Silent s s.close := by
  unfold St.close
  split_ifs
  · exact refl _
  · exact cleanup 0 s

theorem shutdownInPoll (h : s.shutdownInPoll = .ok s') : Silent s s' := by
  rcases St.shutdownInPoll_ok h with rfl | ⟨-, -, -, ch, w, l, tid, nid, sch, hf, rfl⟩
  · exact refl _
  · refine of_log (List.append_assoc ..) ?_ rfl
    cases hf <;> simp [Ev.isBegan]

theorem start (h : s.start A = .ok s') : Silent s s' := by
  rcases St.start_ok h with ⟨rfl, -⟩ | ⟨-, r, w, wr, -, -, rfl⟩
  · exact refl _
  · refine of_log rfl ?_ rfl
    unfold St.moveLog
    split_ifs <;> simp [Ev.isBegan]

theorem callIf (b : Bool) (cb : Callback) (s : St) :
    Silent s { s with
      ctl := St.callFrames b cb ++ s.ctl, log := s.log ++ St.callLog b cb } := by
  refine of_log rfl ?_ rfl
  unfold St.callLog
  split_ifs <;> simp [Ev.isBegan]

theorem startConnectInPoll (r : ConnectRet) (s : St) : Silent s (s.startConnectInPoll r) := by
  rcases s.startConnectInPoll_eq r with ⟨err, he⟩ | ⟨h, w, he⟩
  · rw [he, St.connectFailed_eq]
    exact callIf _ _ s
  · rw [he]
    refine of_log rfl ?_ rfl
    unfold St.moveLog
    split_ifs <;> simp [Ev.isBegan]

theorem handleConnectEvent (h : s.handleConnectEvent A = .ok s') : Silent s s' := by
  have hdereg : ∀ e ∈ s.deregisterLog, e.isBegan = false := by
    unfold St.deregisterLog
    split <;> simp [Ev.isBegan]
  rcases St.handleConnectEvent_ok h with ⟨-, rfl⟩ | ⟨-, -, w, e, rfl⟩ | ⟨-, -, w, e, t, ht, rfl⟩
  · exact refl _
  · refine of_log (by simp only [List.append_assoc]; rfl) ?_ rfl
    have hclose : ∀ e ∈ s.closeLog, e.isBegan = false := by
      unfold St.closeLog
      split <;> simp [Ev.isBegan]
    simp only [List.mem_append]
    rintro e (he | he | he | he)
    · exact hdereg e he
    · exact hclose e he
    · cases List.mem_singleton.1 he
      rfl
    · unfold St.callLog at he
      split_ifs at he
      · cases List.mem_singleton.1 he
        rfl
      · simp at he
  · have h0 : Silent s { s with
        soError := e, channel := none, writeReady := w, log := s.log ++ s.deregisterLog } :=
      of_log rfl hdereg rfl
    exact h0.trans ((start ht).trans (callIf _ _ t))

theorem handleEvent {role : Role} {ev : Events} (h : s.handleEvent A role ev = .ok s') :
    Silent s s' := by
  rcases St.handleEvent_ok h with ⟨-, -, e, rfl⟩ | ⟨-, h⟩ | ⟨-, e, fs, -, rfl⟩
  · exact of_eq rfl rfl
  · exact handleConnectEvent h
  · exact of_eq rfl rfl

theorem readTail (a b : Bool) (err : ℕ) (s : St) : Silent s (s.readTail a b err) := by
  unfold St.readTail
  split_ifs
  · exact of_log rfl (by simp [Ev.isBegan]) rfl
  · exact of_eq rfl rfl

theorem recvFailed (a : Bool) (s : St) : Silent s (s.recvFailed a) := by
  unfold St.recvFailed
  split
  · exact readTail ..
  · exact of_eq rfl rfl
  · exact readTail ..

theorem recvInto {a : Bool} {b : Buffer} {r : RecvRet}
    (h : s.recvInto K a b r = some (.ok s')) : Silent s s' := by
  cases r with
  | data bs =>
    simp only [St.recvInto] at h
    have h0 : Silent s (s.note (.received bs)) := of_log rfl (by simp [Ev.isBegan]) rfl
    split_ifs at h
    · obtain ⟨b', -, h⟩ := St.withBuffer_ok h
      cases h
      exact of_log rfl (by simp [Ev.isBegan]) rfl
    · cases h
      exact h0.trans (recvFailed ..)
  | eof =>
    simp only [St.recvInto] at h
    split_ifs at h
    cases h
    have h0 : Silent s ({ s with readBuffer := some b }.note .recvEof) :=
      of_log rfl (by simp [Ev.isBegan]) rfl
    exact h0.trans (readTail ..)
  | error e =>
    simp only [St.recvInto] at h
    split_ifs at h
    cases h
    have h0 : Silent s ({ s with readBuffer := some b, errno := e }.note (.recvError e)) :=
      of_log rfl (by simp [Ev.isBegan]) rfl
    exact h0.trans (recvFailed ..)

theorem pop (ctl : List Frame) (s : St) : Silent s { s with ctl := ctl } := of_eq rfl rfl

theorem tau (h : s.tau A = some (.ok s')) : Silent s s' := by
  unfold St.tau at h
  split at h
  · rename_i err rest _
    cases h
    exact (pop rest s).trans (handleCloseEvent ..)
  · cases h
    exact of_eq rfl rfl
  · split_ifs at h
    cases h
    exact of_eq rfl rfl
  · rename_i shouldClose err rest _
    cases h
    split_ifs
    · exact (pop rest s).trans (handleCloseEvent ..)
    · exact pop rest s
  · rename_i rest _
    split at h
    · cases h
    · split_ifs at h
      exact (pop rest s).trans (writeTail (Option.some.inj h))
  · cases h
    exact of_eq rfl rfl
  · rename_i m n rest _
    split_ifs at h
    exact (pop rest s).trans (sendTail (Option.some.inj h))
  · cases h
    exact of_eq rfl rfl
  · rename_i rest _
    cases h
    exact (pop rest s).trans (releaseChannel _)
  · cases h
  · cases h

theorem writeRet {n : ℤ} (h : s.writeRet A n = .ok s') : Silent s s' := by
  unfold St.writeRet at h
  split_ifs at h
  · exact wrote h
  · split at h
    · exact writeTail h
    · cases h
      exact of_eq rfl rfl
    · cases h
      exact handleCloseEvent ..

theorem sendLoopRet {m : Msg} {k : ℕ} {n : ℤ} (h : s.sendLoopRet A m k n = .ok s') :
    Silent s s' := by
  unfold St.sendLoopRet at h
  split_ifs at h
  · cases h
    exact of_eq rfl rfl
  · exact sendTail h
  · split at h
    · exact sendTail h
    · cases h
      exact of_eq rfl rfl
    · cases h
      exact handleCloseEvent ..

theorem sendRet {r : SendRet} (h : s.sendRet A K r = some (.ok s')) : Silent s s' := by
  unfold St.sendRet at h
  split at h
  · rename_i rest _
    split at h
    · cases h
    · split_ifs at h
      obtain ⟨x, hx, h⟩ := Option.map_eq_some_iff.1 h
      exact (pop rest s).trans ((sysSend hx).trans (writeRet h))
  · rename_i m n rest _
    split_ifs at h
    obtain ⟨x, hx, h⟩ := Option.map_eq_some_iff.1 h
    exact (pop rest s).trans ((sysSend hx).trans (sendLoopRet h))
  · cases h

theorem recvRet {r : RecvRet} (h : s.recvRet A K r = some (.ok s')) : Silent s s' := by
  obtain ⟨a, rest, b, -, -, h⟩ := St.recvRet_ok h
  exact (pop rest s).trans (recvInto h)

theorem beginConnect {a b : Bool} (h : s.beginConnect a b = some t) : Silent s t := by
  unfold St.beginConnect at h
  split_ifs at h
  cases h
  exact of_eq rfl rfl

theorem refused (s : St) : Silent s (s.note .refused) := of_log rfl (by simp [Ev.isBegan]) rfl

end Silent

/-- A call of `send` or `shutdown`, or the next closure, which may be that of a call. -/
def Act.isCall : Act → Bool
  | .send _ | .shutdown | .postSend _ | .postShutdown | .serverShutdown | .runTask _ => true
  | _ => false

namespace Silent

variable {A : Allocator} {K : Kernel} {s s' : St} {a : Act}

theorem userStep (ha : a.isCall = false) (h : s.userStep A a = some (.ok s')) : Silent s s' := by
  cases a with
  | ret =>
    simp only [St.userStep] at h
    split at h
    · cases h
      exact of_eq rfl rfl
    · cases h
  | send | shutdown => cases ha
  | close =>
    cases h
    exact close s
  | consume k =>
    simp only [St.userStep] at h
    split at h
    · obtain ⟨b, -, h⟩ := St.withBuffer_ok h
      cases h
      exact of_eq rfl rfl
    · cases h
  | connect a b r =>
    simp only [St.userStep] at h
    split at h
    · rename_i t ht
      cases h
      exact (beginConnect ht).trans (startConnectInPoll r t)
    · cases h
      exact refused s
  | connectSync k =>
    simp only [St.userStep] at h
    split_ifs at h
    · cases h
      exact refl s
    · cases k with
      | none =>
        cases h
        exact of_eq rfl rfl
      | some k =>
        have h0 : Silent s { s with cleanupDone := false, used := true, handle := some k } :=
          of_eq rfl rfl
        exact h0.trans (start (Option.some.inj h))
  | setCallbacks | setWatermarkCallback | setCloseTimeout =>
    cases h
    exact of_eq rfl rfl
  | setWatermark high low =>
    simp only [St.userStep] at h
    split_ifs at h <;> cases h <;> exact of_eq rfl rfl
  | setBufferSize r w =>
    simp only [St.userStep, Option.some.injEq] at h
    unfold St.setBufferSize at h
    split_ifs at h
    · split at h
      · cases h
        exact of_eq rfl rfl
      · cases h
    · cases h
      exact refl s
  | _ => cases h

theorem otherStep (ha : a.isCall = false) (h : s.otherStep A a = some (.ok s')) :
    Silent s s' := by
  cases a with
  | setWritable | sockError | stopTimers =>
    cases h
    exact of_eq rfl rfl
  | deliver ev =>
    simp only [St.otherStep] at h
    split at h
    · split_ifs at h
      cases h
      exact of_eq rfl rfl
    · cases h
  | dispatch =>
    simp only [St.otherStep] at h
    split at h
    · have h0 : Silent s { s with delivered := none } := of_eq rfl rfl
      exact h0.trans (handleEvent (Option.some.inj h))
    · cases h
  | runTask | postSend | postShutdown | serverShutdown => cases ha
  | postClose =>
    cases h
    split_ifs
    · exact refl s
    · exact post rfl
  | postConnect a b =>
    simp only [St.otherStep] at h
    split at h
    · rename_i t ht
      cases h
      exact (beginConnect ht).trans (post rfl)
    · cases h
      exact refused s
  | serverCleanup =>
    simp only [St.otherStep] at h
    split_ifs at h
    cases h
    exact post rfl
  | extractTimer id =>
    simp only [St.otherStep] at h
    split_ifs at h
    cases h
    exact of_eq rfl rfl
  | fireTimer id =>
    simp only [St.otherStep] at h
    split_ifs at h
    cases h
    have h0 : Silent s { s with extracted := s.extracted.erase id } := of_eq rfl rfl
    exact h0.trans (post rfl)
  | destroy =>
    simp only [St.otherStep] at h
    split_ifs at h
    cases h
    obtain ⟨sch, he⟩ := s.cancelCloseTimeout_eq
    rw [he, St.closeSocket_eq]
    refine of_log rfl ?_ rfl
    unfold St.closeLog
    split <;> simp [Ev.isBegan]
  | _ => cases h

/-- **Every other step** neither begins a message nor queues a call. -/
theorem step (ha : a.isCall = false) (h : s.step A K a = some (.ok s')) : Silent s s' := by
  unfold St.step at h
  split at h
  · exact tau h
  · exact sendRet h
  · exact recvRet h
  all_goals first
    | exact otherStep ha h
    | (split_ifs at h; exact userStep ha h)

end Silent

/-! ### The order of the calls -/

/-- The history is true to the connection, and the calls of a thread are carried out in order. -/
structure Books (x : Traced) (s : St) : Prop where
  queued : List.Forall₂ (fun i k => ∃ t, x.calls[i]? = some ⟨some t, k⟩) x.queue
    (s.tasks.filter Task.isCall)
  sorted : x.queue.Pairwise (· < ·)
  called : ∀ i c m, x.calls[i]? = some ⟨c, .send m⟩ → .kConnected ∈ moves s.log ∧
    (i ∈ x.queue ∨ (i, .kConnected) ∈ x.ran ∨ .kDisconnecting ∈ moves s.log)
  ran : ∀ p ∈ x.ran, p.1 < x.calls.length
  bytes : begunBytes s.log = x.messages
  shut : ∀ i j c m, i < j → x.calls[i]? = some ⟨c, .send m⟩ → x.calls[j]? = some ⟨c, .shutdown⟩ →
    (j, .kConnected) ∈ x.ran → (i, .kConnected) ∈ x.ran
  late : s.log.Pairwise fun a b => a = .moved .kDisconnecting → b.isBegan = false

namespace Books

variable {A : Allocator} {K : Kernel} {x : Traced} {s s' : St}

theorem moves_mono {st : State} {l : List Ev} (h : st ∈ moves s.log) (hl : s'.log = s.log ++ l) :
    st ∈ moves s'.log := by
  rw [hl, moves_append]
  exact List.mem_append_left _ h

theorem silent {c : Except Crash St} (h : Books x s) (hs : Silent s s') :
    Books { x with conn := c } s' := by
  obtain ⟨⟨l, hl, hb⟩, ts, ht, hk⟩ := hs
  have hts : ts.filter Task.isCall = [] := by
    rw [List.filter_eq_nil_iff]
    exact fun k hm => by simp [hk k hm]
  refine ⟨?_, h.sorted, fun i c m hi => ?_, h.ran, ?_, h.shut, ?_⟩
  · rw [ht, List.filter_append, hts, List.append_nil]
    exact h.queued
  · obtain ⟨h1, h2⟩ := h.called i c m hi
    exact ⟨moves_mono h1 hl, h2.imp_right (.imp_right fun hm => moves_mono hm hl)⟩
  · rw [hl, begunBytes_append, begunBytes_of_noBegan hb, List.append_nil]
    exact h.bytes
  · rw [hl, List.pairwise_append]
    refine ⟨h.late, ?_, fun a _ b hm _ => hb b hm⟩
    exact List.pairwise_of_forall_mem_list fun a _ b hm _ => hb b hm

/-- A message is begun while the connection is established. -/
theorem late_began (h : Books x s) (hI : Inv s) (hs : s.state = .kConnected) (bs : List UInt8) :
    (s.log ++ [Ev.began bs]).Pairwise fun (a b : Ev) =>
      a = .moved .kDisconnecting → b.isBegan = false := by
  rw [List.pairwise_append]
  refine ⟨h.late, List.pairwise_singleton .., fun a ha b _ he => ?_⟩
  subst he
  exact absurd (mem_moves.2 ha) (hI.life.not_disconnecting hs)

/-- While the connection is established, what is not queued has been begun. -/
theorem found {i : ℕ} {c : Option ℕ} {m : Msg} (h : Books x s) (hI : Inv s)
    (hs : s.state = .kConnected) (hi : x.calls[i]? = some ⟨c, .send m⟩) (hq : i ∉ x.queue) :
    (i, .kConnected) ∈ x.ran := by
  rcases (h.called i c m hi).2 with h1 | h1 | h1
  · exact absurd h1 hq
  · exact h1
  · exact absurd h1 (hI.life.not_disconnecting hs)

/-- The calls in the queue are those of other threads. -/
theorem thread_of_queued {i : ℕ} (h : Books x s) (hi : i ∈ x.queue) :
    ∃ t k, x.calls[i]? = some ⟨some t, k⟩ := by
  obtain ⟨⟨n, hn⟩, rfl⟩ := List.mem_iff_get.1 hi
  obtain ⟨hlen, hget⟩ := List.forall₂_iff_get.1 h.queued
  obtain ⟨t, ht⟩ := hget n hn (hlen ▸ hn)
  exact ⟨t, _, ht⟩

theorem lt_of_queued {i : ℕ} (h : Books x s) (hi : i ∈ x.queue) : i < x.calls.length := by
  obtain ⟨t, k, ht⟩ := h.thread_of_queued hi
  exact (List.getElem?_eq_some_iff.1 ht).1

/-- The messages of the calls made so far do not depend on the calls to come. -/
theorem messages_append (h : Books x s) (k : Call) (p : List (ℕ × State)) :
    Traced.messages { x with calls := x.calls ++ [k], ran := x.ran ++ p } =
      x.messages ++ p.flatMap fun p =>
        if p.2 = .kConnected then { x with calls := x.calls ++ [k] }.bytes p.1 else [] := by
  simp only [Traced.messages, List.flatMap_append]
  congr 1
  refine List.flatMap_congr fun p hp => ?_
  simp only [Traced.bytes, List.getElem?_append_left (h.ran p hp)]

/-- The calls that were made before are those in the list now, but for the last. -/
theorem getElem?_of_append {k k' : Call} {i : ℕ} (hi : (x.calls ++ [k])[i]? = some k') :
    x.calls[i]? = some k' ∨ i = x.calls.length ∧ k = k' := by
  rcases lt_trichotomy i x.calls.length with h | rfl | h
  · rw [List.getElem?_append_left h] at hi
    exact .inl hi
  · simp at hi
    exact .inr ⟨rfl, hi⟩
  · have hlen : (x.calls ++ [k]).length ≤ i := by
      simp only [List.length_append, List.length_singleton]
      omega
    simp [List.getElem?_eq_none hlen] at hi

theorem calls_mono {k k' : Call} {i : ℕ} (hi : x.calls[i]? = some k') :
    (x.calls ++ [k])[i]? = some k' := by
  rw [List.getElem?_append_left (List.getElem?_eq_some_iff.1 hi).1, hi]

/-- A call is made, and carried out at once or queued. -/
theorem called_append {k : Call} {q : List ℕ} {r : List (ℕ × State)} (h : Books x s)
    (hk : ∀ m, k.task = .send m → .kConnected ∈ moves s.log ∧
      (x.calls.length ∈ x.queue ++ q ∨ (x.calls.length, .kConnected) ∈ x.ran ++ r)) :
    ∀ i c m, (x.calls ++ [k])[i]? = some ⟨c, .send m⟩ → .kConnected ∈ moves s.log ∧
      (i ∈ x.queue ++ q ∨ (i, .kConnected) ∈ x.ran ++ r ∨ .kDisconnecting ∈ moves s.log) := by
  intro i c m hi
  rcases getElem?_of_append hi with hi | ⟨rfl, rfl⟩
  · obtain ⟨h1, h2⟩ := h.called i c m hi
    exact ⟨h1, h2.imp (List.mem_append_left _) (.imp_left (List.mem_append_left _))⟩
  · exact ⟨(hk m rfl).1, (hk m rfl).2.imp_right .inl⟩

/-- A thread other than the poll's makes a call: it is queued. -/
theorem post {t : ℕ} {k : Task} {c : Except Crash St} (h : Books x s) (hk : k.isCall = true)
    (hstart : ∀ m, k = .send m → .kConnected ∈ moves s.log) :
    Books
      { x with conn := c, calls := x.calls ++ [⟨some t, k⟩], queue := x.queue ++ [x.calls.length] }
      (s.post k) := by
  refine ⟨?_, ?_, ?_, fun p hp => ?_, ?_, ?_, h.late⟩
  · have hts : (s.post k).tasks.filter Task.isCall = s.tasks.filter Task.isCall ++ [k] := by
      simp [St.post, hk]
    rw [hts]
    refine List.rel_append (h.queued.imp fun i k hk => hk.imp fun t => calls_mono) ?_
    exact .cons ⟨t, by simp⟩ .nil
  · rw [List.pairwise_append]
    refine ⟨h.sorted, List.pairwise_singleton .., fun i hi j hj => ?_⟩
    rw [List.mem_singleton.1 hj]
    exact h.lt_of_queued hi
  · have := h.called_append (k := ⟨some t, k⟩) (q := [x.calls.length]) (r := [])
      fun m hm => ⟨hstart m hm, .inl (by simp)⟩
    rwa [List.append_nil] at this
  · have := h.ran p hp
    simp only [List.length_append, List.length_singleton]
    omega
  · have := h.messages_append ⟨some t, k⟩ []
    rw [List.append_nil, List.flatMap_nil, List.append_nil] at this
    exact h.bytes.trans this.symm
  · intro i j c m hij hi hj hr
    have hlt : j < x.calls.length := h.ran _ hr
    rw [List.getElem?_append_left (hij.trans hlt)] at hi
    rw [List.getElem?_append_left hlt] at hj
    exact h.shut i j c m hij hi hj hr

/-- The poll's thread makes a call: it is carried out at once. -/
theorem inline {k : Task} {c : Except Crash St} {l : List Ev} (h : Books x s) (hI : Inv s)
    (hsend : ∀ m, k = .send m → s.state = .kConnected)
    (hlog : s'.log = s.log ++ l) (htasks : s'.tasks = s.tasks)
    (hl : (∃ m, k = .send m ∧ l = [.began m.bytes]) ∨ (k = .shutdown ∧ l = [])) :
    Books
      { x with
        conn := c, calls := x.calls ++ [⟨none, k⟩], ran := x.ran ++ [(x.calls.length, s.state)] }
      s' := by
  have hstart : ∀ m, k = .send m → .kConnected ∈ moves s.log := fun m hm => by
    obtain ⟨pre, -, he⟩ := hI.life.isUp (hsend m hm)
    simp [he]
  refine ⟨?_, h.sorted, fun i c m hi => ?_, fun p hp => ?_, ?_, ?_, ?_⟩
  · rw [htasks]
    exact h.queued.imp fun i k ⟨t, ht⟩ => ⟨t, calls_mono ht⟩
  · obtain ⟨h1, h2⟩ := h.called_append (k := ⟨none, k⟩) (q := [])
      (r := [(x.calls.length, s.state)])
      (fun m hm => ⟨hstart m hm, .inr (by simp [hsend m hm])⟩) i c m hi
    rw [List.append_nil] at h2
    exact ⟨moves_mono h1 hlog, h2.imp_right (.imp_right fun hm => moves_mono hm hlog)⟩
  · simp only [List.length_append, List.length_singleton]
    rcases List.mem_append.1 hp with hp | hp
    · exact (h.ran p hp).trans (Nat.lt_succ_self _)
    · rw [List.mem_singleton.1 hp]
      exact Nat.lt_succ_self _
  · have := h.messages_append ⟨none, k⟩ [(x.calls.length, s.state)]
    refine Eq.trans ?_ this.symm
    rw [hlog, begunBytes_append, h.bytes]
    congr 1
    rcases hl with ⟨m, rfl, rfl⟩ | ⟨rfl, rfl⟩
    · simp [begunBytes, Traced.bytes, hsend m rfl]
    · simp [begunBytes, Traced.bytes]
  · intro i j c m hij hi hj hr
    rcases List.mem_append.1 hr with hr | hr
    · have hlt : j < x.calls.length := h.ran _ hr
      rw [List.getElem?_append_left (hij.trans hlt)] at hi
      rw [List.getElem?_append_left hlt] at hj
      exact List.mem_append_left _ (h.shut i j c m hij hi hj hr)
    · obtain ⟨rfl, hs⟩ := Prod.mk.inj (List.mem_singleton.1 hr)
      rw [List.getElem?_append_left hij] at hi
      simp only [List.getElem?_concat_length, Option.some.injEq, Call.mk.injEq] at hj
      obtain ⟨rfl, -⟩ := hj
      refine List.mem_append_left _ (h.found hI hs.symm hi fun hq => ?_)
      obtain ⟨t, k', ht⟩ := h.thread_of_queued hq
      rw [hi] at ht
      cases ht
  · rcases hl with ⟨m, rfl, rfl⟩ | ⟨rfl, rfl⟩
    · rw [hlog]
      exact h.late_began hI (hsend m rfl) m.bytes
    · rw [hlog, List.append_nil]
      exact h.late

/-- A queued call is carried out. -/
theorem run {k : Task} {rest : List Task} {c : Except Crash St} {l : List Ev} (h : Books x s)
    (hI : Inv s) (htasks : s.tasks = k :: rest) (hk : k.isCall = true)
    (hlog : s'.log = s.log ++ l) (htasks' : s'.tasks = rest)
    (hl : (∃ m, k = .send m ∧ (s.state = .kConnected ∧ l = [.began m.bytes] ∨
      s.state ≠ .kConnected ∧ l = [])) ∨ (k = .shutdown ∧ l = [])) :
    Books
      { x with
        conn := c, queue := x.queue.tail
        ran := x.ran ++ x.queue.head?.toList.map fun i => (i, s.state) }
      s' := by
  -- the closure at the front is that of the earliest call that has not run
  obtain ⟨hq, hsorted⟩ := (⟨h.queued, h.sorted⟩ : _ ∧ _)
  rw [htasks, List.filter_cons_of_pos hk, List.forall₂_cons_right_iff] at hq
  obtain ⟨i, q, ⟨t, hi⟩, hq, he⟩ := hq
  rw [he, List.pairwise_cons] at hsorted
  simp only [he, List.tail_cons, List.head?_cons, Option.toList_some, List.map_cons, List.map_nil]
  have hmem : i ∈ x.queue := by simp [he]
  refine ⟨by rw [htasks']; exact hq, hsorted.2, fun i' c m hi' => ?_, fun p hp => ?_, ?_, ?_, ?_⟩
  · obtain ⟨h1, h2⟩ := h.called i' c m hi'
    refine ⟨moves_mono h1 hlog, ?_⟩
    rcases h2 with h2 | h2 | h2
    · rw [he] at h2
      rcases List.mem_cons.1 h2 with rfl | h2
      · -- the call itself: it is begun, or the connection was established and is not any more
        right
        by_cases hs : s.state = .kConnected
        · exact .inl (by simp [hs])
        · exact .inr (moves_mono (hI.life.disconnecting_of_started h1 hs) hlog)
      · exact .inl h2
    · exact .inr (.inl (List.mem_append_left _ h2))
    · exact .inr (.inr (moves_mono h2 hlog))
  · rcases List.mem_append.1 hp with hp | hp
    · exact h.ran p hp
    · rw [List.mem_singleton.1 hp]
      exact h.lt_of_queued hmem
  · rw [hlog, begunBytes_append, h.bytes]
    simp only [Traced.messages, List.flatMap_append]
    congr 1
    rcases hl with ⟨m, rfl, ⟨hs, rfl⟩ | ⟨hs, rfl⟩⟩ | ⟨rfl, rfl⟩
    · simp [begunBytes, Traced.bytes, hi, hs]
    · simp [begunBytes, hs]
    · simp [begunBytes, Traced.bytes, hi]
  · intro i' j c m hij hi' hj hr
    rcases List.mem_append.1 hr with hr | hr
    · exact List.mem_append_left _ (h.shut i' j c m hij hi' hj hr)
    · obtain ⟨rfl, hs⟩ := Prod.mk.inj (List.mem_singleton.1 hr)
      -- the queue is in the order of the calls, so a `send` before this `shutdown` has been run
      refine List.mem_append_left _ (h.found hI hs.symm hi' fun hq => ?_)
      rw [he] at hq
      rcases List.mem_cons.1 hq with rfl | hq
      · exact absurd hij (lt_irrefl _)
      · exact absurd (hsorted.1 i' hq) (by omega)
  · rcases hl with ⟨m, rfl, ⟨hs, rfl⟩ | ⟨hs, rfl⟩⟩ | ⟨rfl, rfl⟩
    · rw [hlog]
      exact h.late_began hI hs m.bytes
    · rw [hlog, List.append_nil]
      exact h.late
    · rw [hlog, List.append_nil]
      exact h.late

/-- A closure that is not that of a call leaves the queue. -/
theorem pop {k : Task} {rest : List Task} (h : Books x s) (htasks : s.tasks = k :: rest)
    (hk : k.isCall = false) : Books x { s with tasks := rest } := by
  refine ⟨?_, h.sorted, h.called, h.ran, h.bytes, h.shut, h.late⟩
  have := h.queued
  rwa [htasks, List.filter_cons_of_neg (by simp [hk])] at this

/-- The next closure of the queue runs. -/
theorem runTask {r : ConnectRet} {n : ℕ} {c : Except Crash St} (h : Books x s) (hI : Inv s)
    (hst : s.runTask A r = some (.ok s')) : Books (x.record s n (.runTask r) c) s' := by
  unfold St.runTask at hst
  split at hst
  · cases hst
  · rename_i k rest htasks
    have hrec : x.record s n (.runTask r) c = if k.isCall then
        { x with
          conn := c, queue := x.queue.tail
          ran := x.ran ++ x.queue.head?.toList.map fun i => (i, s.state) }
        else { x with conn := c } := by
      simp [Traced.record, St.callBy, htasks]
    rw [hrec]
    cases k with
    | start b =>
      obtain ⟨t, ht, rfl⟩ := map_ok (Option.some.inj hst)
      rw [St.callIf_eq]
      exact (h.pop htasks rfl).silent ((Silent.start ht).trans (.callIf b .conn t))
    | connect =>
      cases hst
      exact (h.pop htasks rfl).silent (.startConnectInPoll r _)
    | send m =>
      rcases Silent.sendInPollThread (Option.some.inj hst) with ⟨hs, rfl⟩ | ⟨hs, hsil⟩
      · exact h.run hI htasks rfl (by simp) rfl (.inl ⟨m, rfl, .inr ⟨hs, rfl⟩⟩)
      · exact (h.run (c := c) hI htasks rfl rfl rfl (.inl ⟨m, rfl, .inl ⟨hs, rfl⟩⟩)).silent hsil
    | shutdown =>
      have hrun : Books _ { s with tasks := rest } := h.run (c := c) hI htasks rfl
        (List.append_nil _).symm rfl (.inr ⟨rfl, rfl⟩)
      exact hrun.silent (.shutdownInPoll (Option.some.inj hst))
    | cleanup err =>
      cases hst
      exact (h.pop htasks rfl).silent (.cleanup err _)
    | release =>
      cases hst
      exact (h.pop htasks rfl).silent (.refl _)

/-- **One step** keeps the history. -/
theorem step {a : Act} {n : ℕ} {c : Except Crash St} (h : Books x s) (hI : Inv s)
    (hst : s.step A K a = some (.ok s')) : Books (x.record s n a c) s' := by
  have hstarted : s.state = .kConnected → .kConnected ∈ moves s.log := fun hs => by
    obtain ⟨pre, -, he⟩ := hI.life.isUp hs
    simp [he]
  cases ha : a.isCall with
  | false =>
    have hrec : x.record s n a c = { x with conn := c } := by
      cases a <;> first | rfl | cases ha
    rw [hrec]
    exact h.silent (.step ha hst)
  | true =>
    cases a with
    | send m =>
      simp only [St.step, St.userStep] at hst
      split_ifs at hst with hu
      simp only [Option.some.injEq, St.send] at hst
      split_ifs at hst with hs
      · cases hst
        simp only [Traced.record, St.callBy, if_pos hs]
        exact h.silent (.refl _)
      · simp only [Traced.record, St.callBy, if_neg hs, if_true]
        have hs' : s.state = .kConnected := by simp_all
        rcases Silent.sendInPollThread hst with ⟨hne, -⟩ | ⟨-, hsil⟩
        · exact absurd hs' hne
        · have hcall : Books _ (s.note (.began m.bytes)) :=
            h.inline (c := c) hI (fun _ _ => hs') rfl rfl (.inl ⟨m, rfl, rfl⟩)
          exact hcall.silent hsil
    | shutdown =>
      simp only [St.step, St.userStep] at hst
      split_ifs at hst with hu
      simp only [Option.some.injEq, St.shutdown] at hst
      split_ifs at hst with hs
      · cases hst
        simp only [Traced.record, St.callBy, if_pos hs]
        exact h.silent (.refl _)
      · simp only [Traced.record, St.callBy, if_neg hs, if_true]
        have hcall : Books _ s := h.inline (c := c) (k := .shutdown) hI (by simp)
          (List.append_nil _).symm rfl (.inr ⟨rfl, rfl⟩)
        exact hcall.silent (.shutdownInPoll hst)
    | postSend m =>
      cases hst
      split_ifs with hs
      · simp only [Traced.record, St.callBy, if_pos hs]
        exact h.silent (.refl _)
      · simp only [Traced.record, St.callBy, if_neg hs, reduceCtorEq, if_false]
        exact h.post rfl fun _ _ => hstarted (by simp_all)
    | postShutdown =>
      cases hst
      split_ifs with hs
      · simp only [Traced.record, St.callBy, if_pos hs]
        exact h.silent (.refl _)
      · simp only [Traced.record, St.callBy, if_neg hs, reduceCtorEq, if_false]
        exact h.post rfl (by simp)
    | serverShutdown =>
      simp only [St.step, St.otherStep] at hst
      split_ifs at hst
      cases hst
      simp only [Traced.record, St.callBy, reduceCtorEq, if_false]
      exact h.post rfl (by simp)
    | runTask r =>
      simp only [St.step, St.otherStep] at hst
      split at hst
      · exact h.runTask hI hst
      · cases hst
    | _ => cases ha

end Books

/-! ### Whole runs -/

variable {A : Allocator} {K : Kernel} {s₀ s : St} {x : Traced}

/-- A connection before any call. -/
def Traced.init (s₀ : St) : Traced where
  conn := .ok s₀
  calls := []
  queue := []
  ran := []

/-- The guard `NoResize` on the connection. -/
def Traced.NoResize (x : Traced) (p : ℕ × Act) : Prop := Conn.NoResize x.conn p.2

instance (x : Traced) (p : ℕ × Act) : Decidable (x.NoResize p) :=
  inferInstanceAs (Decidable (Conn.NoResize x.conn p.2))

theorem traced_step {p : ℕ × Act} {y : Traced} (h : (traced A K).step x p = some y) :
    ∃ s c, x.conn = .ok s ∧ (machine A K).step (.ok s) p.2 = some c ∧ y = x.record s p.1 p.2 c := by
  simp only [traced] at h
  split at h
  · cases h
  · rename_i s hs
    obtain ⟨c, hc, rfl⟩ := Option.map_eq_some_iff.1 h
    exact ⟨s, c, hs, hc, rfl⟩

@[simp] theorem record_conn (n : ℕ) (a : Act) (c : Except Crash St) :
    (x.record s n a c).conn = c := by
  unfold Traced.record
  split
  · split_ifs <;> rfl
  · split
    · split_ifs <;> rfl
    · rfl

/-- A run with its history is a run. -/
theorem reach_of_traced {x₀ : Traced} (h : (traced A K).ReachIf Traced.NoResize x₀ x) :
    (machine A K).ReachIf NoResize x₀.conn x.conn := by
  induction h with
  | refl => exact .refl
  | tail _ hG hst ih =>
    obtain ⟨s, c, hs, hc, rfl⟩ := traced_step hst
    rw [record_conn]
    rw [hs] at ih
    exact .tail ih (hs ▸ hG) hc

theorem books_of_init (h₀ : Init s₀) : Books (.init s₀) s₀ := by
  have hl : s₀.log = [] := by cases h₀ <;> rfl
  have ht : s₀.tasks.filter Task.isCall = [] := by cases h₀ <;> rfl
  refine ⟨?_, .nil, ?_, ?_, ?_, ?_, ?_⟩
  · rw [ht]
    exact .nil
  · simp [Traced.init]
  · simp [Traced.init]
  · rw [hl]
    rfl
  · simp [Traced.init]
  · rw [hl]
    exact .nil

theorem inv_of_traced (h₀ : Init s₀) (h : (traced A K).ReachIf Traced.NoResize (.init s₀) x)
    (hs : x.conn = .ok s) : Inv s := by
  have hrun := reach_of_traced h
  rw [hs] at hrun
  exact inv_of_reach h₀ (hrun.mono fun _ _ hG => hG.1)

/-- **The calls of a thread are carried out in the order they were made in.** -/
theorem books_of_reach (h₀ : Init s₀)
    (h : (traced A K).ReachIf Traced.NoResize (.init s₀) x) (hs : x.conn = .ok s) : Books x s := by
  have key := h.invariant_of (J := fun x => ∀ s, x.conn = .ok s → Inv s)
    (I := fun x => ∀ s, x.conn = .ok s → Books x s)
    (fun x hr s hs => inv_of_traced h₀ hr hs)
    (fun s hs => by cases hs; exact books_of_init h₀)
    (fun x p y hI ih hG hst s' hs' => by
      obtain ⟨s, c, hs, hc, rfl⟩ := traced_step hst
      rw [record_conn] at hs'
      subst hs'
      exact (ih s hs).step (hI s hs) (machine_step hc))
  exact key s hs

/-- No message is begun after the write side was shut gracefully. -/
theorem Books.begun_post {pre post : List Ev} (h : Books x s)
    (hlog : s.log = pre ++ .shutWr :: post) (hm : .moved .kDisconnecting ∈ pre) :
    begunBytes post = [] := by
  have hp := h.late
  rw [hlog, List.pairwise_append] at hp
  exact begunBytes_of_noBegan fun e he => hp.2.2 _ hm e (List.mem_cons_of_mem _ he) rfl

/-- Once the write side was shut gracefully, no `::send` is made on the socket. -/
theorem sendRet_of_halfClosed (h : Flow s) (hI : Inv s) (hhalf : HalfClosed s.log)
    (hh : s.handle ≠ none) (r : SendRet) : s.sendRet A K r = none := by
  have hp : s.pending = [] := (h.halfClosed hhalf).resolve_right hh
  unfold St.sendRet
  split
  · split
    · rfl
    · rename_i b hb
      have h0 : b.readableSize = 0 := by
        rw [← (h.wf b hb).readable_eq_nil_iff]
        simpa [St.pending, hb] using hp
      simp [h0]
  · rename_i m n rest hctl
    obtain ⟨pre, post, hl, hm⟩ := hhalf
    have hd : .kDisconnecting ∈ moves s.log := mem_moves.2 (by simp [hl, hm])
    exact absurd hd (hI.life.not_disconnecting (h.loop m n rest hctl).1)
  · rfl

/-- **Graceful shutdown.**  In every run, with any threads calling `send` and `shutdown`:

* when `shutdown_in_poll_` or `handle_write_event_` shuts the write side, the kernel has accepted
  exactly the messages of all the calls that have found the connection established, and it accepts
  nothing afterwards;
* from then on, while the socket is open, no `::send` is made on it;
* if the `shutdown` of a thread has found the connection established (no other `shutdown` or `close`
  was carried out first, and the connection had not failed), so has every message that the thread
  had sent before. -/
theorem graceful_shutdown (h₀ : Init s₀)
    (h : (traced A K).ReachIf Traced.NoResize (.init s₀) x) (hs : x.conn = .ok s) :
    (∀ pre post, s.log = pre ++ .shutWr :: post → .moved .kDisconnecting ∈ pre →
      sentBytes pre = x.messages ∧ sentBytes post = []) ∧
    (HalfClosed s.log → s.handle ≠ none → ∀ r, s.sendRet A K r = none) ∧
    (∀ i j c m, i < j → x.calls[i]? = some ⟨c, .send m⟩ → x.calls[j]? = some ⟨c, .shutdown⟩ →
      (j, .kConnected) ∈ x.ran → (i, .kConnected) ∈ x.ran) := by
  have hbooks := books_of_reach h₀ h hs
  have hrun : (machine A K).ReachIf NoResize (.ok s₀) (.ok s) := hs ▸ reach_of_traced h
  have hflow := flow_of_reach h₀ hrun
  have hI := inv_of_traced h₀ h hs
  refine ⟨fun pre post hl hm => ?_, fun hhalf hh r => sendRet_of_halfClosed hflow hI hhalf hh r,
    hbooks.shut⟩
  obtain ⟨h1, h2⟩ := hflow.graceful pre post hl hm
  refine ⟨?_, h2⟩
  have hpost : begunBytes (.shutWr :: post) = begunBytes post := rfl
  rw [h1, ← hbooks.bytes, hl, begunBytes_append, hpost, hbooks.begun_post hl hm, List.append_nil]

/-- Thread 1 sends three bytes and shuts the connection down, thread 2 sends one byte.  The kernel
accepts two bytes and is full when the shutdown is carried out; the write side is shut after the
third, and the byte of thread 2 is dropped. -/
def twoThreads : List (ℕ × Act) :=
  [(0, .runTask .badAddress), (1, .postSend ⟨[1, 2, 3], by simp⟩), (1, .postShutdown),
    (2, .postSend ⟨[9], by simp⟩), (0, .runTask .badAddress), (0, .sendRet (.accepted 2)),
    (0, .sendRet (.error EAGAIN)), (0, .runTask .badAddress), (0, .runTask .badAddress),
    (0, .setWritable true), (0, .deliver ⟨false, true, false, false⟩), (0, .dispatch), (0, .tau),
    (0, .sendRet (.accepted 1)), (0, .tau)]

theorem graceful_shutdown_twoThreads : ∃ (x : Traced) (s : St) (pre post : List Ev),
    x.conn = .ok s ∧ s.log = pre ++ .shutWr :: post ∧ sentBytes pre = x.messages ∧
    x.messages = [1, 2, 3] ∧
    (0, .kConnected) ∈ x.ran := by
  obtain ⟨x, hx, hp⟩ := Machine.ReachIf.of_endsIn (M := traced .zeroed .linux)
    (G := Traced.NoResize) (s := .init (accepted 5 false))
    (p := fun x => x.conn.toOption.any fun s =>
      s.log = s.log.take 6 ++ .shutWr :: s.log.drop 7 ∧ .moved .kDisconnecting ∈ s.log.take 6 ∧
        x.messages = [1, 2, 3] ∧ x.calls.take 2 = [⟨some 1, .send ⟨[1, 2, 3], by simp⟩⟩,
          ⟨some 1, .shutdown⟩] ∧ (1, .kConnected) ∈ x.ran)
    twoThreads (by decide +kernel) (by decide +kernel)
  obtain ⟨s, hs, hp⟩ := (Option.any_eq_true ..).1 hp
  have hconn : x.conn = .ok s := by
    cases hc : x.conn with
    | error e => simp [hc, Except.toOption] at hs
    | ok s' =>
      rw [hc] at hs
      cases hs
      rfl
  obtain ⟨h1, h2, h3, h4, h5⟩ := of_decide_eq_true hp
  obtain ⟨hshut, -, horder⟩ := graceful_shutdown (.server 5 false) hx hconn
  refine ⟨x, s, _, _, hconn, h1, (hshut _ _ h1 h2).1, h3, ?_⟩
  have hget : ∀ i < 2, x.calls[i]? = (x.calls.take 2)[i]? := fun i hi => by
    rw [List.getElem?_take, if_pos hi]
  refine horder 0 1 (some 1) ⟨[1, 2, 3], by simp⟩ one_pos ?_ ?_ h5
  · rw [hget 0 (by decide), h4]
    rfl
  · rw [hget 1 (by decide), h4]
    rfl

end Conn

end CxpNet
