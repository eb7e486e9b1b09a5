import CxpNet.Conn.Graceful
import CxpNet.Conn.Stack

/-!
# The peer half-closes

When the peer has shut its side, `handle_read_event_` sees the end of the stream, or the poller
reports a hang-up; in both cases `handle_close_event_` closes the connection at once, whatever is
still in the write buffer or on its way through the poll's queue.

* `Conn.half_close_delivers` : in a run without errors, without a local `close`, without forced
  cleanups and without timeouts, every message that `send` has accepted is handed to the kernel
  before the socket is closed, provided that at the end of the stream the write buffer is empty, and
  that neither then nor when a `shutdown` is carried out an accepted message is still queued.

`Whole` is the invariant of the connection, `Kept` that of the calls.
-/

namespace CxpNet

namespace Conn

/-! ### The steps of a run -/

def Task.isSend : Task → Bool
  | .send _ => true
  | _ => false

/-- A socket error is reported, or the connection is closed locally, by the server or by its
timer. -/
def Act.forces : Act → Bool
  | .close | .postClose | .serverCleanup | .fireTimer _ => true
  | .sendRet (.error e) | .recvRet (.error e) => handleErrorAction e = .kClose
  | .deliver ev => ev.error
  | _ => false

namespace St

/-- No accepted message waits in the poll's queue. -/
def noneQueued (s : St) : Bool := s.tasks.all fun k => !k.isSend

/-- The peer's half-close is acted on while bytes are not yet written or messages are queued, or a
`shutdown` is carried out while messages are queued. -/
def truncates (s : St) (a : Act) : Bool :=
  match a, s.ctl with
  | .tau, .closePart _ :: _ | .tau, .afterMessage true _ :: _ =>
    s.state ≠ .kDisconnected ∧ (s.pending ≠ [] ∨ s.noneQueued = false)
  | .shutdown, _ => s.state = .kConnected ∧ s.noneQueued = false
  | .runTask _, _ =>
    s.tasks.head? = some .shutdown ∧ s.state = .kConnected ∧ s.noneQueued = false
  | _, _ => false

end St

/-- A step of a run without errors and without forced closes. -/
def Peaceful (x : Traced) (p : ℕ × Act) : Prop := x.NoResize p ∧ p.2.forces = false

instance (x : Traced) (p : ℕ × Act) : Decidable (Peaceful x p) :=
  inferInstanceAs (Decidable (x.NoResize p ∧ p.2.forces = false))

/-- Such a step that does not truncate. -/
def Patient (x : Traced) (p : ℕ × Act) : Prop :=
  Peaceful x p ∧ match x.conn with
    | .ok s => s.truncates p.2 = false
    | .error _ => True

instance (x : Traced) (p : ℕ × Act) : Decidable (Patient x p) :=
  have : Decidable (match x.conn with
      | .ok s => s.truncates p.2 = false
      | .error _ => True) :=
    match x.conn with
    | .ok s => inferInstanceAs (Decidable (s.truncates p.2 = false))
    | .error _ => .isTrue trivial
  inferInstanceAs (Decidable (Peaceful x p ∧ _))

/-! ### The connection -/

/-- An event that matters here: a message is begun, a fatal error is reported, the socket is
closed. -/
def Ev.isNotable : Ev → Bool
  | .began _ | .closeHandle _ => true
  | .sendError e => handleErrorAction e = .kClose
  | _ => false

/-- A closure that neither sends nor cleans up. -/
def Task.isHarmless : Task → Bool
  | .send _ | .cleanup _ => false
  | _ => true

/-- Nothing that was begun is lost. -/
structure Whole (s : St) : Prop where
  noCleanup : ∀ err, .cleanup err ∉ s.tasks
  queued : s.noneQueued = false → s.state = .kConnected
  unfailed : ¬ Failed s.log
  waiting : .kConnected ∉ moves s.log → begunBytes s.log = []
  closed : ∀ pre h post, s.log = pre ++ .closeHandle h :: post → sentBytes pre = begunBytes s.log

section

variable {A : Allocator} {K : Kernel} {s₀ s s' t : St} {a : Act} {x : Traced}

theorem begunBytes_of_dullNote {l : List Ev} (h : ∀ e ∈ l, e.isNotable = false) :
    begunBytes l = [] := by
  rw [begunBytes, List.flatMap_eq_nil_iff]
  intro e he
  have := h e he
  cases e with
  | began => cases this
  | _ => rfl

theorem noneQueued_iff : s.noneQueued = true ↔ ∀ m, .send m ∉ s.tasks := by
  simp only [St.noneQueued, List.all_eq_true, Bool.not_eq_true']
  constructor
  · intro h m hm
    have := h _ hm
    cases this
  · intro h k hk
    cases k with
    | send m => exact absurd hk (h m)
    | _ => rfl

/-- A close that is recorded is the old one or a new one. -/
theorem split_append {α : Type} {l l' pre post : List α} {a : α}
    (h : l ++ l' = pre ++ a :: post) :
    (∃ post', l = pre ++ a :: post') ∨ ∃ pre', l' = pre' ++ a :: post ∧ pre = l ++ pre' := by
  rcases List.append_eq_append_iff.1 h with ⟨m, hpre, hl'⟩ | ⟨m, hl, hm⟩
  · exact .inr ⟨m, hl', hpre⟩
  · cases m with
    | nil => exact .inr ⟨[], by simpa using hm.symm, by simpa using hl.symm⟩
    | cons b m =>
      rw [List.cons_append, List.cons.injEq] at hm
      exact .inl ⟨m, by rw [hl, hm.1]⟩

namespace Whole

/-- Nothing notable happens. -/
theorem keep {l : List Ev} (h : Whole s)
    (htasks : ∀ k ∈ s'.tasks, k ∈ s.tasks ∨ k.isHarmless = true)
    (hstate : s.noneQueued = true ∨ s'.state = s.state) (hlog : s'.log = s.log ++ l)
    (hl : ∀ e ∈ l, e.isNotable = false) : Whole s' := by
  have hsend : ∀ m, .send m ∈ s'.tasks → .send m ∈ s.tasks := fun m hm => by
    rcases htasks _ hm with hm | hm
    · exact hm
    · cases hm
  have hbegun : begunBytes s'.log = begunBytes s.log := by
    rw [hlog, begunBytes_append, begunBytes_of_dullNote hl, List.append_nil]
  refine ⟨fun err hm => ?_, fun hq => ?_, ?_, fun hm => ?_, fun pre k post he => ?_⟩
  · rcases htasks _ hm with hm | hm
    · exact h.noCleanup err hm
    · cases hm
  · have hq' : s.noneQueued = false := by
      by_contra hne
      rw [Bool.not_eq_false, noneQueued_iff] at hne
      have : s'.noneQueued = true := noneQueued_iff.2 fun m hm => hne m (hsend m hm)
      simp [this] at hq
    rcases hstate with hn | hs
    · simp [hn] at hq'
    · rw [hs]
      exact h.queued hq'
  · rw [hlog, failed_append, not_or]
    refine ⟨h.unfailed, ?_⟩
    rintro ⟨e, he, hf⟩
    have := hl e he
    cases e with
    | sendError err => simp_all [Ev.isFatal, Ev.isNotable]
    | _ => cases hf
  · rw [hbegun]
    exact h.waiting fun hm' => hm (by simp [hlog, hm'])
  · rw [hbegun]
    rw [hlog] at he
    rcases split_append he with ⟨post', he⟩ | ⟨pre', he, -⟩
    · exact h.closed pre k post' he
    · have := hl (.closeHandle k) (by simp [he])
      cases this

/-- A message is begun. -/
theorem began (h : Whole s) (hI : Inv s) (hs : s.state = .kConnected) (bs : List UInt8)
    (htasks : ∀ k ∈ t.tasks, k ∈ s.tasks) (hstate : t.state = s.state)
    (hlog : t.log = s.log) : Whole (t.note (.began bs)) := by
  obtain ⟨pre, ho, hmoves⟩ := hI.life.isUp hs
  have hlog' : (t.note (.began bs)).log = s.log ++ [Ev.began bs] := congrArg (· ++ _) hlog
  refine ⟨fun err hm => h.noCleanup err (htasks _ hm), fun _ => hstate.trans hs, ?_, fun hm => ?_,
    fun pre k post he => ?_⟩
  · rw [hlog', failed_append, not_or]
    exact ⟨h.unfailed, by simp [Failed, Ev.isFatal]⟩
  · rw [hlog'] at hm
    simp [hmoves] at hm
  · -- the socket of an established connection has not been closed
    exfalso
    have hmem : .closeHandle k ∈ s.log := by
      have : Ev.closeHandle k ∈ s.log ++ [Ev.began bs] := by rw [← hlog', he]; simp
      simpa using this
    have : .closeHandle k ∈ closings s.log := List.mem_filter.2 ⟨hmem, rfl⟩
    simp [ho.closings] at this

/-- The socket is closed when everything has been sent. -/
theorem close {l : List Ev} (h : Whole s)
    (htasks : ∀ k ∈ s'.tasks, k ∈ s.tasks ∨ k.isHarmless = true) (hnone : s.noneQueued = true)
    (hsent : sentBytes s.log = begunBytes s.log) (hlog : s'.log = s.log ++ l)
    (hl : ∀ e ∈ l, e = .shutWr ∨ e.isMute = true ∧ e.isFatal = false ∧ ∀ bs, e ≠ .began bs) :
    Whole s' := by
  have hnew : begunBytes l = [] := begunBytes_of_noBegan fun e he => by
    rcases hl e he with rfl | ⟨-, -, hb⟩
    · rfl
    · cases e with
      | began bs => exact absurd rfl (hb bs)
      | _ => rfl
  have hbegun : begunBytes s'.log = begunBytes s.log := by
    rw [hlog, begunBytes_append, hnew, List.append_nil]
  have hmute : ∀ e ∈ l, sentBytes [e] = [] := fun e he => by
    rcases hl e he with rfl | ⟨hm, -⟩
    · rfl
    · exact sentBytes_of_mute (by simpa using hm)
  refine ⟨fun err hm => ?_, fun hq => ?_, ?_, fun hm => ?_, fun pre k post he => ?_⟩
  · rcases htasks _ hm with hm | hm
    · exact h.noCleanup err hm
    · cases hm
  · exfalso
    rw [noneQueued_iff] at hnone
    have : s'.noneQueued = true := noneQueued_iff.2 fun m hm => by
      rcases htasks _ hm with hm | hm
      · exact hnone m hm
      · cases hm
    simp [this] at hq
  · rw [hlog, failed_append, not_or]
    refine ⟨h.unfailed, ?_⟩
    rintro ⟨e, he, hf⟩
    rcases hl e he with rfl | ⟨-, hnf, -⟩
    · cases hf
    · simp [hnf] at hf
  · rw [hbegun]
    exact h.waiting fun hm' => hm (by simp [hlog, hm'])
  · rw [hbegun]
    rw [hlog] at he
    rcases split_append he with ⟨post', he⟩ | ⟨pre', hnew, rfl⟩
    · exact h.closed pre k post' he
    · -- the half-close is in this step, and nothing was sent in it before
      have : sentBytes pre' = [] := by
        rw [sentBytes, List.flatMap_eq_nil_iff]
        intro e hm
        have := hmute e (hnew ▸ List.mem_append_left _ hm)
        simp only [sentBytes, List.flatMap_cons, List.flatMap_nil, List.append_nil] at this
        exact this
      rw [sentBytes_append, this, List.append_nil, hsent]

/-- Before the connection is established nothing is owed. -/
theorem sent_of_waiting (h : Whole s) (hF : Flow s) (hm : .kConnected ∉ moves s.log) :
    sentBytes s.log = begunBytes s.log := by
  have hb := h.waiting hm
  have hp := hF.pre
  rw [hb] at hp ⊢
  exact List.prefix_nil.1 hp

end Whole

/-- The end of `send_in_poll_thread_` -/
theorem Whole.checkHigh (h : Whole t) (hok : t.checkHigh = .ok s') : Whole s' := by
  rcases St.checkHigh_ok hok with rfl | rfl | rfl
  · exact h
  · exact h.keep (l := []) (fun k hk => .inl hk) (.inr rfl) (by simp) (by simp)
  · exact h.keep (fun k hk => .inl hk) (.inr rfl) rfl (by simp [Ev.isNotable])

theorem Whole.enqueue {bs : List UInt8} (h : Whole t) (hok : t.enqueue A bs = .ok s') :
    Whole s' := by
  obtain ⟨b, b', u, -, -, hu, hok⟩ := St.enqueue_ok hok
  obtain ⟨c, c', w, -, rfl, -⟩ := St.addWriteEvent_ok hu
  refine Whole.checkHigh ?_ hok
  exact h.keep (l := []) (fun k hk => .inl hk) (.inr rfl) (by simp) (by simp)

/-- What neither sends nor begins nor fails. -/
def Still (l : List Ev) : Prop :=
  ∀ e ∈ l, e = .shutWr ∨ e.isMute = true ∧ e.isFatal = false ∧ ∀ bs, e ≠ .began bs

theorem still_closeLog : Still s.closeLog := by
  unfold St.closeLog
  split <;> simp [Still, Ev.isMute, Ev.isFatal]

theorem still_deregisterLog : Still s.deregisterLog := by
  unfold St.deregisterLog
  split <;> simp [Still, Ev.isMute, Ev.isFatal]

theorem still_callLog (set : Bool) (cb : Callback) : Still (St.callLog set cb) := by
  unfold St.callLog
  split_ifs <;> simp [Still, Ev.isMute, Ev.isFatal]

theorem notable_callLog (set : Bool) (cb : Callback) :
    ∀ e ∈ St.callLog set cb, e.isNotable = false := by
  unfold St.callLog
  split_ifs <;> simp [Ev.isNotable]

theorem notable_moveLog (st : State) : ∀ e ∈ t.moveLog st, e.isNotable = false := by
  unfold St.moveLog
  split_ifs <;> simp [Ev.isNotable]

theorem notable_deregisterLog : ∀ e ∈ t.deregisterLog, e.isNotable = false := by
  unfold St.deregisterLog
  split <;> simp [Ev.isNotable]

/-- Only an established connection has messages queued. -/
theorem Whole.noneQueued (h : Whole s) (hs : s.state ≠ .kConnected) : s.noneQueued = true := by
  by_contra hq
  exact hs (h.queued (by simpa using hq))

/-- `~Conn` -/
theorem Whole.destroy {sch : List ℕ} (h : Whole s) (hI : Inv s) (hF : Flow s)
    (htasks : s.tasks = []) (hch : s.channel = none) : Whole
      { s with
        closeTimerId := 0, scheduled := sch, handle := none, alive := false
        log := s.log ++ s.closeLog } := by
  by_cases hh : s.handle = none
  · exact h.keep (fun k hk => .inl hk) (.inr rfl) rfl (by simp [St.closeLog, hh])
  · have hm : .kConnected ∉ moves s.log := fun hm => by
      obtain ⟨pre, ho⟩ := hI.life.isOpen hm hh
      obtain ⟨c, hc, -⟩ := ho.channel
      simp [hch] at hc
    exact h.close (by simp [htasks]) (by simp [St.noneQueued, htasks]) (h.sent_of_waiting hF hm) rfl
      still_closeLog

/-- A connect that fails. -/
theorem Whole.connectFails {w : Bool} {e err : ℕ} (h : Whole s) (hI : Inv s) (hF : Flow s)
    (hs : s.state = .kConnecting) : Whole
      { s with
        delivered := none, soError := e, channel := none, writeReady := w, handle := none
        state := .kDisconnected, ctl := St.callFrames s.onConnectError (.connectError err)
        log := s.log ++ s.deregisterLog ++ s.closeLog ++ [Ev.moved .kDisconnected] ++
          St.callLog s.onConnectError (.connectError err) } := by
  have hstill : Still (s.deregisterLog ++ s.closeLog ++ [Ev.moved .kDisconnected] ++
      St.callLog s.onConnectError (.connectError err)) := by
    simp only [Still, List.forall_mem_append]
    exact ⟨⟨⟨still_deregisterLog, still_closeLog⟩, by simp [Ev.isMute, Ev.isFatal]⟩,
      still_callLog _ _⟩
  have hm := hI.life.not_started_of_connecting hs
  exact h.close (fun k hk => .inl hk) (h.noneQueued (by simp [hs])) (h.sent_of_waiting hF hm)
    (by simp only [List.append_assoc]) hstill

/-- `start_connect_in_poll_` -/
theorem Whole.connects {r : ConnectRet} (h : Whole s) (hI : Inv s) (hc : Connecting s a r t)
    (hG : OneShot (.ok s) a) : Whole (t.startConnectInPoll r) := by
  have hnone := h.noneQueued (by simp [(hc.pristine hI hG).state])
  obtain ⟨htasks, hlog⟩ : (∀ k ∈ t.tasks, k ∈ s.tasks) ∧ t.log = s.log := by
    cases hc with
    | user => exact ⟨fun k hk => hk, rfl⟩
    | task r _ _ ht => exact ⟨fun k hk => ht ▸ List.mem_cons_of_mem _ hk, rfl⟩
  rcases t.startConnectInPoll_eq r with ⟨err, he⟩ | ⟨k, w, he⟩
  · rw [he, St.connectFailed_eq]
    exact h.keep (fun k hk => .inl (htasks k hk)) (.inl hnone) (congrArg (· ++ _) hlog)
      (notable_callLog _ _)
  · rw [he]
    exact h.keep (fun k hk => .inl (htasks k hk)) (.inl hnone) (congrArg (· ++ _) hlog)
      (notable_moveLog _)

/-- `start_` and the callback after it -/
theorem Whole.starts {set : Bool} {cb : Callback} {u : St} (h : Whole s) (hI : Inv s)
    (hs : Starting s a set cb t) (hu : t.start A = .ok u) : Whole
      { u with ctl := St.callFrames set cb ++ u.ctl, log := u.log ++ St.callLog set cb } := by
  have hnone := h.noneQueued (hs.not_connected hI)
  obtain ⟨htasks, l, hlog, hl⟩ : (∀ k ∈ t.tasks, k ∈ s.tasks) ∧
      ∃ l, t.log = s.log ++ l ∧ ∀ e ∈ l, e.isNotable = false := by
    cases hs with
    | task r _ _ ht => exact ⟨fun k hk => ht ▸ List.mem_cons_of_mem _ hk, [], by simp, by simp⟩
    | sync => exact ⟨fun k hk => hk, [], by simp, by simp⟩
    | event => exact ⟨fun k hk => hk, _, rfl, notable_deregisterLog⟩
  obtain ⟨htasks', l', hlog', hl'⟩ : u.tasks = t.tasks ∧
      ∃ l, u.log = t.log ++ l ∧ ∀ e ∈ l, e.isNotable = false := by
    rcases St.start_ok hu with ⟨rfl, -⟩ | ⟨-, r, w, wr, -, -, rfl⟩
    · exact ⟨rfl, [], by simp, by simp⟩
    · exact ⟨rfl, _, rfl, notable_moveLog _⟩
  refine h.keep (l := l ++ l' ++ St.callLog set cb) (fun k hk => .inl (htasks k (htasks' ▸ hk)))
    (.inl hnone) ?_ ?_
  · simp only [hlog', hlog, List.append_assoc]
  · simp only [List.forall_mem_append]
    exact ⟨⟨hl, hl'⟩, notable_callLog _ _⟩

/-- `handle_close_event_`, when everything has been written. -/
theorem Whole.closes {err : ℕ} (h : Whole s) (hF : Flow s) (hforce : a.forces = false)
    (htrunc : s.truncates a = false) (hc : Closing s a err t) (hd : t.cleanupDone = false)
    (hopen : t.state = .kDisconnected → ∃ r, a = .runTask r) : Whole (t.cleanup err) := by
  obtain ⟨sch, ch, w, rel, he, hrel, -⟩ := St.cleanup_eq err hd
  cases hc with
  | handler hctl hor =>
    have hne : s.state ≠ .kDisconnected := fun hs => by
      obtain ⟨r, hr⟩ := hopen hs
      cases hr
    have hdone : s.pending = [] ∧ s.noneQueued = true := by
      rcases hor with rfl | rfl <;>
        simpa [St.truncates, hctl, hne, not_or] using htrunc
    have hin : s.inFlight = [] := by
      rcases hor with rfl | rfl <;> simp [St.inFlight, hctl]
    have hsent : sentBytes s.log = begunBytes s.log := by
      simpa [hdone.1, hin] using hF.eq h.unfailed
    rw [he]
    refine h.close (fun k hk => ?_) hdone.2 hsent rfl (Flow.still_cleanupLog err)
    rcases List.mem_append.1 hk with hk | hk
    · exact .inl hk
    · rcases hrel with rfl | rfl
      · cases hk
      · rw [List.mem_singleton.1 hk]
        exact .inr rfl
  | failed hctl hor hact => simp [Act.forces, hact] at hforce
  | user => cases hforce
  | task r _ _ htasks => exact absurd (by simp [htasks]) (h.noCleanup err)

/-- `shutdown_in_poll_`, when no message is queued. -/
theorem Whole.shuts (h : Whole s) (htrunc : s.truncates a = false) (hs : Shutting s a t)
    (hok : t.shutdownInPoll = .ok s') : Whole s' := by
  have hnone : s.noneQueued = true := by
    by_cases hc : s.state = .kConnected
    · cases hs with
      | user => simpa [St.truncates, hc] using htrunc
      | task r _ _ htasks => simpa [St.truncates, htasks, hc] using htrunc
    · exact h.noneQueued hc
  have htasks : (∀ k ∈ t.tasks, k ∈ s.tasks) ∧ t.log = s.log := by
    cases hs with
    | user => exact ⟨fun k hk => hk, rfl⟩
    | task r _ _ ht => exact ⟨fun k hk => ht ▸ List.mem_cons_of_mem _ hk, rfl⟩
  rcases St.shutdownInPoll_ok hok with rfl | ⟨-, -, -, ch, w, l, tid, nid, sch, hf, rfl⟩
  · exact h.keep (l := []) (fun k hk => .inl (htasks.1 k hk)) (.inl hnone) (by simp [htasks.2])
      (by simp)
  · refine h.keep (l := [Ev.moved .kDisconnecting] ++ l) (fun k hk => .inl (htasks.1 k hk))
      (.inl hnone) (by simp [htasks.2]) ?_
    cases hf <;> simp [Ev.isNotable]

theorem Whole.began_of_sending {m : Msg} (h : Whole s) (hI : Inv s) (hs : Sending s a m t)
    (hst : t.state = .kConnected) : Whole (t.note (.began m.bytes)) := by
  cases hs with
  | user => exact h.began hI hst _ (fun k hk => hk) rfl rfl
  | task r _ _ htasks =>
    exact h.began hI hst _ (fun k hk => htasks ▸ List.mem_cons_of_mem _ hk) rfl rfl

theorem Whole.loopEnd {m : Msg} {n : ℕ} (h : Whole s) (hend : LoopEnd s m n a t) : Whole t := by
  cases hend with
  | goal => exact h.keep (l := []) (fun k hk => .inl hk) (.inr rfl) (by simp) (by simp)
  | blocked _ _ hact =>
    exact h.keep (fun k hk => .inl hk) (.inr rfl) rfl (by simp [Ev.isNotable, hact])

/-- **One step** of a run without forced closes loses nothing. -/
theorem Whole.step (h : Whole s) (hI : Inv s) (hF : Flow s) (hG : OneShot (.ok s) a)
    (hforce : a.forces = false) (htrunc : s.truncates a = false) (hst : Moves A s a s') :
    Whole s' := by
  -- what nothing notable comes of
  have plain : ∀ {s'}, s'.tasks = s.tasks → s'.state = s.state → s'.log = s.log → Whole s' :=
    fun h1 h2 h3 => h.keep (l := []) (fun k hk => .inl (h1 ▸ hk)) (.inr h2) (by simp [h3]) (by simp)
  cases hst with
  | stay => exact h
  | refused => exact h.keep (fun k hk => .inl hk) (.inr rfl) rfl (by simp [Ev.isNotable])
  | setWritable | sockError | setCallbacks | setWatermark | setWatermarkCallback | setCloseTimeout
  | setBufferSize | stopTimers | extractTimer | deliver | ignore | dispatch | syncFails | leave
  | beginWrite | endLow | endHigh | consume => exact plain rfl rfl rfl
  | post hp =>
    cases hp with
    | send hs =>
      refine ⟨fun err hm => ?_, fun _ => hs, h.unfailed, h.waiting, h.closed⟩
      rcases List.mem_append.1 hm with hm | hm
      · exact h.noCleanup err hm
      · simp at hm
    | shutdown | serverShutdown =>
      refine h.keep (l := []) (fun k hk => ?_) (.inr rfl) (List.append_nil _).symm (by simp)
      exact (List.mem_append.1 hk).imp_right fun hk => by rw [List.mem_singleton.1 hk]; rfl
    | close | serverCleanup => cases hforce
  | fireTimer => cases hforce
  | destroy sch hctl htasks hch => exact h.destroy hI hF htasks hch
  | connectFails w e err hctl hdel hs => exact h.connectFails hI hF hs
  | postConnect =>
    refine h.keep (l := []) (fun k hk => ?_) (.inr rfl) (List.append_nil _).symm (by simp)
    exact (List.mem_append.1 hk).imp_right fun hk => by rw [List.mem_singleton.1 hk]; rfl
  | connects hc => exact h.connects hI hc hG
  | starts hs hu => exact h.starts hI hs hu
  | closes hc hd hopen => exact h.closes hF hforce htrunc hc hd hopen
  | passes hc =>
    cases hc with
    | handler => exact plain rfl rfl rfl
    | failed hctl hor hact => simp [Act.forces, hact] at hforce
    | user => cases hforce
    | task r _ _ htasks => exact absurd (htasks ▸ List.mem_cons_self) (h.noCleanup _)
  | shuts hs _ _ _ hok => exact h.shuts htrunc hs hok
  | dropTask r hctl hdel htasks =>
    refine h.keep (l := []) (fun k hk => .inl ?_) (.inr rfl) (by simp) (by simp)
    rw [htasks]
    exact List.mem_cons_of_mem _ hk
  | @endClose rest hctl =>
    obtain ⟨rel, he, hrel⟩ := St.releaseChannel_eq { s with ctl := rest }
    rw [he]
    refine h.keep (l := []) (fun k hk => ?_) (.inr rfl) (by simp) (by simp)
    refine (List.mem_append.1 hk).imp_right fun hk => ?_
    rcases hrel with rfl | rfl
    · cases hk
    · rw [List.mem_singleton.1 hk]
      rfl
  | drained hctl _ _ hok =>
    obtain ⟨b, -, ⟨-, rfl⟩ | ⟨-, c, c', w, -, -, -, -, -, rfl⟩⟩ := St.writeTail_ok hok
    · exact plain rfl rfl rfl
    · refine h.keep (fun k hk => .inl hk) (.inr rfl) rfl ?_
      split_ifs <;> simp [Ev.isNotable]
  | @wrote rest b n _ hctl _ _ _ _ hok =>
    obtain ⟨b₁, b', -, -, fs, l, rfl, hf⟩ := St.wrote_ok hok
    refine h.keep (l := [Ev.sent (b.readable.take n)] ++ l) (fun k hk => .inl hk) (.inr rfl)
      (List.append_assoc ..) ?_
    rcases hf with ⟨-, rfl⟩ | ⟨-, rfl⟩ | ⟨-, rfl⟩ <;> simp [Ev.isNotable]
  | writeBlocked hctl hb hpos hact =>
    exact h.keep (fun k hk => .inl hk) (.inr rfl) rfl (by simp [Ev.isNotable, hact])
  | interrupted e hctl hf hact =>
    exact h.keep (fun k hk => .inl hk) (.inr rfl) rfl (by simp [Ev.isNotable, hact])
  | sentSome => exact h.keep (fun k hk => .inl hk) (.inr rfl) rfl (by simp [Ev.isNotable])
  | beginSend hs hst =>
    have hbegan := h.began_of_sending hI hs hst
    exact hbegan.keep (l := []) (fun k hk => .inl hk) (.inr rfl) (by simp [St.push]) (by simp)
  | dropSend hs hst => exact h.began_of_sending hI hs hst
  | queues hq hok =>
    refine Whole.enqueue ?_ hok
    cases hq with
    | behind hs hst => exact h.began_of_sending hI hs hst
    | rest hend => exact h.loopEnd hend
  | sentAll hend _ hok => exact Whole.checkHigh (h.loopEnd hend) hok
  | received | recvAgain =>
    exact h.keep (fun k hk => .inl hk) (.inr rfl) rfl (by simp [Ev.isNotable])
  | @recvEnd hasNewData shouldClose rest _ _ _ ev err e hctl _ _ _ hend =>
    refine h.keep (l := [ev] ++ St.callLog (hasNewData && s.onMessage) .message)
      (fun k hk => .inl hk) (.inr rfl) (List.append_assoc ..) ?_
    refine List.forall_mem_append.2 ⟨?_, notable_callLog _ _⟩
    cases hend <;> simp [Ev.isNotable]

/-! ### The calls -/

/-- Every message that `send` has accepted is queued or has been begun. -/
def Kept (x : Traced) : Prop :=
  ∀ i c m, x.calls[i]? = some ⟨c, .send m⟩ → i ∈ x.queue ∨ (i, .kConnected) ∈ x.ran

theorem callBy_send {n : ℕ} {c : Option ℕ} {m : Msg} (h : s.callBy n a = some ⟨c, .send m⟩) :
    s.state = .kConnected := by
  cases a with
  | send | postSend =>
    simp only [St.callBy] at h
    split_ifs at h with hs
    rw [not_or, not_not] at hs
    exact hs.1
  | shutdown | postShutdown =>
    simp only [St.callBy] at h
    split_ifs at h
    simp at h
  | serverShutdown => simp [St.callBy] at h
  | _ => cases h

theorem Kept.step {n : ℕ} {c : Except Crash St} (h : Kept x) (hB : Books x s) (hW : Whole s) :
    Kept (x.record s n a c) := by
  intro i c m hi
  unfold Traced.record at hi ⊢
  cases hk : s.callBy n a with
  | some k =>
    simp only [hk] at hi ⊢
    by_cases ht : k.thread = none
    · simp only [if_pos ht] at hi ⊢
      rcases Books.getElem?_of_append hi with hi | ⟨rfl, rfl⟩
      · exact (h i c m hi).imp_right (List.mem_append_left _)
      · rw [callBy_send hk]
        exact .inr (by simp)
    · simp only [if_neg ht] at hi ⊢
      rcases Books.getElem?_of_append hi with hi | ⟨rfl, -⟩
      · exact (h i c m hi).imp_left (List.mem_append_left _)
      · exact .inl (by simp)
  | none =>
    simp only [hk] at hi ⊢
    split at hi
    · rename_i k rest htasks
      split_ifs at hi ⊢ with hcall
      · rcases h i c m hi with hq | hr
        · -- the call at the head of the queue is that of the closure that is executed
          have hqueued := hB.queued
          rw [htasks, List.filter_cons_of_pos hcall, List.forall₂_cons_right_iff] at hqueued
          obtain ⟨j, q, ⟨t, hj⟩, -, he⟩ := hqueued
          rw [he] at hq ⊢
          rcases List.mem_cons.1 hq with rfl | hq
          · rw [hi, Option.some.injEq, Call.mk.injEq] at hj
            have hs : s.state = .kConnected := by
              refine hW.queued ?_
              simp [St.noneQueued, htasks, ← hj.2, Task.isSend]
            exact .inr (by simp [hs])
          · exact .inl hq
        · exact .inr (List.mem_append_left _ hr)
      · exact h i c m hi
    · exact h i c m hi

/-! ### Whole runs -/

theorem whole_of_init (h₀ : Init s₀) : Whole s₀ := by
  have hl : s₀.log = [] := by cases h₀ <;> rfl
  have hq : s₀.noneQueued = true := by cases h₀ <;> rfl
  refine ⟨?_, by simp [hq], by simp [hl, Failed], fun _ => by rw [hl]; rfl, fun pre k post he => ?_⟩
  · cases h₀ <;> simp [accepted, new]
  · simp [hl] at he

theorem whole_of_reach (h₀ : Init s₀) (h : (traced A K).ReachIf Patient (.init s₀) x)
    (hs : x.conn = .ok s) : Whole s ∧ Kept x := by
  have hno : ∀ x, (traced A K).ReachIf Patient (.init s₀) x →
      (traced A K).ReachIf Traced.NoResize (.init s₀) x := fun x hr => hr.mono fun _ _ hG => hG.1.1
  have key := h.invariant_of
    (J := fun x => ∀ s, x.conn = .ok s → Inv s ∧ Flow s ∧ Books x s)
    (I := fun x => ∀ s, x.conn = .ok s → Whole s ∧ Kept x)
    (fun x hr s hs => ⟨inv_of_traced h₀ (hno x hr) hs,
      flow_of_reach h₀ (hs ▸ reach_of_traced (hno x hr)), books_of_reach h₀ (hno x hr) hs⟩)
    (fun s hs => by
      cases hs
      exact ⟨whole_of_init h₀, by simp [Kept, Traced.init]⟩)
    (fun x p y hJ ih hG hst s' hs' => by
      obtain ⟨s, c, hs, hc, rfl⟩ := traced_step hst
      rw [record_conn] at hs'
      subst hs'
      obtain ⟨hI, hF, hB⟩ := hJ s hs
      obtain ⟨hW, hK⟩ := ih s hs
      obtain ⟨⟨hres, hforce⟩, htrunc⟩ := hG
      simp only [hs] at htrunc
      have hshot : OneShot (.ok s) p.2 := (hs ▸ hres : Conn.NoResize (.ok s) p.2).1
      exact ⟨hW.step hI hF hshot hforce htrunc (step_cases (machine_step hc)), hK.step hB hW⟩)
  exact key s hs

/-- A socket that has been closed is not that of an established connection. -/
theorem not_connected_of_closed {k : ℕ} (hI : Inv s) (h : .closeHandle k ∈ s.log) :
    s.state ≠ .kConnected := fun hs => by
  obtain ⟨pre, ho, -⟩ := hI.life.isUp hs
  have : .closeHandle k ∈ closings s.log := List.mem_filter.2 ⟨h, rfl⟩
  simp [ho.closings] at this

/-- Thread 1 sends three bytes to an accepted connection, and the kernel accepts all of them before
the end of the stream is seen. -/
def sendThenEof : List (ℕ × Act) :=
  [(0, .runTask .badAddress), (1, .postSend ⟨[1, 2, 3], by decide⟩), (0, .runTask .badAddress),
    (0, .sendRet (.accepted 3)), (0, .tau), (0, .deliver ⟨true, false, false, false⟩),
    (0, .dispatch), (0, .recvRet .eof), (0, .tau)]

/-- Such a run ends with the socket closed as the eighth event. -/
def closesEighth (x : Traced) (p : St → Bool) : Bool :=
  x.conn.toOption.any fun s => s.log = s.log.take 7 ++ .closeHandle 5 :: s.log.drop 8 ∧ p s

theorem of_closesEighth {p : St → Bool} (h : closesEighth x p = true) : ∃ s, x.conn = .ok s ∧
    s.log = s.log.take 7 ++ .closeHandle 5 :: s.log.drop 8 ∧ p s = true := by
  obtain ⟨s, hs, h⟩ := (Option.any_eq_true ..).1 h
  refine ⟨s, ?_, of_decide_eq_true h⟩
  cases hc : x.conn with
  | error e => simp [hc, Except.toOption] at hs
  | ok s' =>
    rw [hc] at hs
    cases hs
    rfl

end

end Conn

end CxpNet
