import CxpNet.Conn.Outgoing

/-!
# The outgoing stream

* `Conn.flow_of_reach` : every step keeps the state of the outgoing side (`Flow`);
* `Conn.stream_integrity` : the bytes the kernel has accepted are always a prefix of the messages,
  in the order in which they were begun; and unless a fatal error was reported, the accepted bytes,
  the readable bytes of the write buffer and the bytes that a `send_in_poll_thread_` in progress has
  in hand are exactly the messages;
* `Conn.no_write_stall` : between the steps of the poll's thread there is write interest iff the
  write buffer is not empty, and then a notification is on its way or the socket is not writable.
-/

namespace CxpNet

namespace Conn

/-- The buffers of a connection on which `start_` has taken effect are replaced. -/
def resizes (c : Except Crash St) (a : Act) : Bool :=
  match c, a with
  | .ok s, .setBufferSize _ _ => decide (.moved .kConnected ∈ s.log)
  | _, _ => false

/-- A step of a one-shot run in which `set_read_write_buffer_size` is not called after `start_`. -/
def NoResize (c : Except Crash St) (a : Act) : Prop := OneShot c a ∧ resizes c a = false

instance (c : Except Crash St) (a : Act) : Decidable (NoResize c a) :=
  inferInstanceAs (Decidable (OneShot c a ∧ resizes c a = false))

namespace Flow

variable {A : Allocator} {K : Kernel} {s s' t : St}

/-- A frame is left that neither serves nor drains nor sends. -/
theorem leave {f : Frame} {rest : List Frame} (h : Flow s) (hctl : s.ctl = f :: rest)
    (hf : f.isSend = false) (hs : f.serves = false) (hd : f.drains = false)
    (hout : s'.out = s.out) (hlog : s'.log = s.log) (hctl' : s'.ctl = rest) : Flow s' := by
  have hsend := h.noSend_of_top hctl hf
  refine h.frames (l := []) hout (by simp [hlog]) (by simp) (inFlight_of_noSend hsend)
    (fun g hg => hsend g (by simp [hctl, ← hctl', hg])) ?_
  rw [hctl, hctl']
  exact Keeps.replace [] hs hd

/-- A handler leaves its frame and closes the connection. -/
theorem leave_close {f : Frame} {rest : List Frame} (err : ℕ) (h : Flow s) (hI : Inv s)
    (hctl : s.ctl = f :: rest) (hf : f.isSend = false) (hq : f.isQuiet = false) :
    Flow ({ s with ctl := rest }.handleCloseEvent err) := by
  have hsend := h.noSend_of_top hctl hf
  exact h.handleCloseEvent (t := { s with ctl := rest }) err (hI.pop hctl)
    (started_of_frame hI hctl hq) rfl (fun g hg => hsend g (by simp [hctl, show g ∈ rest from hg]))
    (List.append_nil _).symm (by simp) rfl fun _ => inFlight_of_noSend hsend

/-- A serving frame is replaced by the loop of `handle_write_event_`. -/
theorem enter_loop {f : Frame} {rest : List Frame} (h : Flow s) (hctl : s.ctl = f :: rest)
    (hf : f.isSend = false) (hout : s'.out = s.out) (hlog : s'.log = s.log)
    (hctl' : s'.ctl = .writeLoop :: rest) : Flow s' := by
  have hsend := h.noSend_of_top hctl hf
  refine h.frames (l := []) hout (by simp [hlog]) (by simp) (inFlight_of_noSend hsend) ?_ ?_
  · rw [hctl']
    exact List.forall_mem_cons.2 ⟨rfl, fun g hg => hsend g (by simp [hctl, hg])⟩
  · rw [hctl']
    exact ⟨fun _ => ⟨.writeLoop, by simp, rfl⟩, fun _ => ⟨.writeLoop, by simp, rfl⟩⟩

theorem tau (h : Flow s) (hI : Inv s) (hst : s.tau A = some (.ok s')) : Flow s' := by
  unfold St.tau at hst
  split at hst
  · rename_i err rest hctl
    cases hst
    exact h.leave_close err hI hctl rfl rfl
  · rename_i rest hctl
    cases hst
    exact h.enter_loop hctl rfl rfl rfl rfl
  · rename_i a rest hctl
    split_ifs at hst
    cases hst
    exact h.leave hctl rfl rfl rfl rfl rfl rfl
  · rename_i shouldClose err rest hctl
    cases hst
    split_ifs
    · exact h.leave_close err hI hctl rfl rfl
    · exact h.leave hctl rfl rfl rfl rfl rfl rfl
  · rename_i rest hctl
    split at hst
    · cases hst
    · rename_i b hb
      split_ifs at hst with h0
      have hp : s.pending = [] := by
        simp only [St.pending, hb]
        exact (h.wf b hb).readable_eq_nil_iff.2 h0
      exact h.writeTail (t := { s with ctl := rest }) (l := []) hI hctl rfl (List.append_nil _).symm
        (by simp) rfl
        (fun hne => absurd hp hne) (Option.some.inj hst)
  · rename_i rest hctl
    cases hst
    exact h.enter_loop hctl rfl rfl rfl rfl
  · rename_i m n rest hctl
    split_ifs at hst
    exact h.sendTail (t := { s with ctl := rest }) (l := []) hI hctl rfl
      (List.append_nil _).symm (by simp) rfl (Option.some.inj hst)
  · rename_i rest hctl
    cases hst
    exact h.leave hctl rfl rfl rfl rfl rfl rfl
  · rename_i rest hctl
    cases hst
    have hd : s.cleanupDone = true := hI.afterClose (by simp [hctl])
    have hleft : Flow { s with ctl := rest } := h.leave hctl rfl rfl rfl rfl rfl rfl
    exact hleft.releaseChannel (hI.pop hctl) hd
  · cases hst
  · cases hst

/-! ### System calls -/

/-- What `::send` leaves behind: an accepted part of the bytes, or an error. -/
theorem sysSend_cases {bs : List UInt8} {r : SendRet} {x : ℤ × St}
    (h : St.sysSend K bs r t = some x) :
    (∃ n : ℕ, x.1 = n ∧ 0 < n ∧ n ≤ bs.length ∧ t.handle ≠ none ∧ x.2.out = t.out ∧
        x.2.ctl = t.ctl ∧ x.2.log = t.log ++ [Ev.sent (bs.take n)]) ∨
      (∃ e, x.1 = -1 ∧ x.2.errno = e ∧ (e = EAGAIN → t.writable = false) ∧ x.2.out = t.out ∧
        x.2.ctl = t.ctl ∧ x.2.log = t.log ++ [Ev.sendError e]) := by
  cases r with
  | accepted n =>
    simp only [St.sysSend] at h
    split_ifs at h with hn
    cases h
    obtain ⟨hh, hpos, hle, hmax⟩ := hn
    have hint : toInt n = n := toInt_of_lt (lt_of_le_of_lt hmax K.lt)
    exact .inl ⟨n, hint, hpos, hle, hh, rfl, rfl, rfl⟩
  | error e =>
    simp only [St.sysSend] at h
    split_ifs at h with he
    cases h
    exact .inr ⟨e, rfl, rfl, he.2, rfl, rfl, rfl⟩

theorem dull_sendError {e : ℕ} (h : handleErrorAction e ≠ .kClose) :
    ∀ x ∈ [Ev.sendError e], x.isDull = true := by
  simp [Ev.isDull, h]

theorem mute_sendError (e : ℕ) : ∀ x ∈ [Ev.sendError e], x.isMute = true := by
  simp [Ev.isMute]

theorem eq_EAGAIN {e : ℕ} (h : handleErrorAction e = .kBreak) : e = EAGAIN := by
  unfold handleErrorAction at h
  split_ifs at h with h1
  exact h1

theorem failed_snoc {e : ℕ} {l : List Ev} (h : handleErrorAction e = .kClose) :
    Failed (l ++ [Ev.sendError e]) :=
  ⟨.sendError e, by simp, by simp [Ev.isFatal, h]⟩

/-- `handle_write_event_`, with the result of `::send`. -/
theorem writeRet {rest : List Frame} {b : Buffer} {r : SendRet} {x : ℤ × St} (h : Flow s)
    (hI : Inv s) (hctl : s.ctl = .writeLoop :: rest) (hb : s.writeBuffer = some b)
    (hpos : 0 < b.readableSize)
    (hx : St.sysSend K b.readable r { s with ctl := rest } = some x)
    (hst : x.2.writeRet A x.1 = .ok s') : Flow s' := by
  have hIx := (hI.sysSend hctl rfl hx).1
  have hsend := h.noSend_of_top hctl rfl
  unfold St.writeRet at hst
  rcases sysSend_cases hx with ⟨n, hn, hpos', hle, hh, hout, hc, hlog⟩ |
    ⟨e, hn, he, hroom, hout, hc, hlog⟩
  · rw [hn, if_pos (by exact_mod_cast hpos'), Int.toNat_natCast] at hst
    exact h.wrote hI hctl hb hh hle hpos hout hlog hc hst
  · rw [hn, if_neg (by decide), he] at hst
    have hsend' : NoSend x.2.ctl := by
      rw [hc]
      exact fun g hg => hsend g (by simp [hctl, show g ∈ rest from hg])
    split at hst
    · rename_i hact
      exact h.writeTail hI hctl hout hlog (dull_sendError (by simp [hact])) hc
        (fun _ => hroom (eq_EAGAIN hact)) hst
    · rename_i hact
      cases hst
      refine h.frames hout hlog (dull_sendError (by simp [hact])) (inFlight_of_noSend hsend) ?_ ?_
      · exact List.forall_mem_cons.2 ⟨rfl, hsend'⟩
      · exact ⟨fun _ => ⟨.writeLoop, by simp [St.push], rfl⟩,
          fun _ => ⟨.writeLoop, by simp [St.push], rfl⟩⟩
    · rename_i hact
      cases hst
      simp only [St.out, Out.mk.injEq] at hout
      exact h.handleCloseEvent _ hIx (started_of_frame hI hctl rfl) hout.1 hsend' hlog
        (mute_sendError e) rfl fun hf => absurd (hlog ▸ failed_snoc hact) hf

/-- `send_in_poll_thread_`, with the result of `::send`. -/
theorem sendLoopRet {rest : List Frame} {m : Msg} {n : ℕ} {r : SendRet} {x : ℤ × St}
    (h : Flow s) (hI : Inv s) (hctl : s.ctl = .sendLoop m n :: rest)
    (hx : St.sysSend K (St.attempt m n) r { s with ctl := rest } = some x)
    (hst : x.2.sendLoopRet A m n x.1 = .ok s') : Flow s' := by
  have hIx := (hI.sysSend hctl rfl hx).1
  have hrest : NoSend rest := by
    have := h.nested
    rwa [hctl] at this
  unfold St.sendLoopRet at hst
  rcases sysSend_cases hx with ⟨k, hn, hpos, hle, hh, hout, hc, hlog⟩ |
    ⟨e, hn, he, hroom, hout, hc, hlog⟩
  · rw [hn, if_pos (by exact_mod_cast hpos), Int.toNat_natCast] at hst
    cases hst
    refine h.sendLoop_accepted hI hctl hle hout hlog ?_
    rw [St.push, hc]
  · rw [hn, if_neg (by decide), if_neg (by decide), he] at hst
    split at hst
    · rename_i hact
      exact h.sendTail hI hctl hout hlog (dull_sendError (by simp [hact])) hc hst
    · rename_i hact
      cases hst
      refine (h.note (dull_sendError (by simp [hact]))).congr hout hlog ?_
      rw [St.push, hc]
      exact hctl.symm
    · rename_i hact
      cases hst
      simp only [St.out, Out.mk.injEq] at hout
      refine h.handleCloseEvent _ hIx (started_of_frame hI hctl rfl) hout.1 ?_ hlog
        (mute_sendError e) rfl fun hf => absurd (hlog ▸ failed_snoc hact) hf
      rw [hc]
      exact hrest

theorem sendRet {r : SendRet} (h : Flow s) (hI : Inv s) (hst : s.sendRet A K r = some (.ok s')) :
    Flow s' := by
  unfold St.sendRet at hst
  split at hst
  · rename_i rest hctl
    split at hst
    · cases hst
    · rename_i b hb
      split_ifs at hst with hpos
      obtain ⟨x, hx, hst⟩ := Option.map_eq_some_iff.1 hst
      exact h.writeRet hI hctl hb hpos hx hst
  · rename_i m n rest hctl
    split_ifs at hst
    obtain ⟨x, hx, hst⟩ := Option.map_eq_some_iff.1 hst
    exact h.sendLoopRet hI hctl hx hst
  · cases hst

/-! ### One step -/

/-- What receiving does to the outgoing side: frames are entered, and dull events recorded. -/
def Receives (t s' : St) : Prop :=
  ∃ fs l, s'.out = t.out ∧ s'.ctl = fs ++ t.ctl ∧ s'.log = t.log ++ l ∧ NoSend fs ∧
    ∀ e ∈ l, e.isDull = true

theorem receives_readTail (a b : Bool) (err : ℕ) : Receives t (t.readTail a b err) := by
  unfold St.readTail
  split_ifs
  · exact ⟨[.user .message, .afterMessage b err], _, rfl, rfl, rfl,
      by simp [NoSend, Frame.isSend], by simp [Ev.isDull]⟩
  · exact ⟨[.afterMessage b err], [], rfl, rfl, (List.append_nil _).symm,
      by simp [NoSend, Frame.isSend], by simp⟩

theorem receives_push {f : Frame} (hf : f.isSend = false) : Receives t (t.push f) :=
  ⟨[f], [], rfl, rfl, (List.append_nil _).symm, by simpa [NoSend] using hf, by simp⟩

theorem receives_recvFailed (a : Bool) : Receives t (t.recvFailed a) := by
  unfold St.recvFailed
  split
  · exact receives_readTail ..
  · exact receives_push rfl
  · exact receives_readTail ..

/-- A dull event is recorded first. -/
theorem Receives.of_note {u : St} {e : Ev} (h : Receives u s') (hout : u.out = t.out)
    (hctl : u.ctl = t.ctl) (hlog : u.log = t.log ++ [e]) (he : e.isDull = true) :
    Receives t s' := by
  obtain ⟨fs, l, h1, h2, h3, h4, h5⟩ := h
  refine ⟨fs, e :: l, h1.trans hout, hctl ▸ h2, ?_, h4, List.forall_mem_cons.2 ⟨he, h5⟩⟩
  rw [h3, hlog, List.append_assoc]
  rfl

theorem receives_recvInto {a : Bool} {b : Buffer} {r : RecvRet}
    (h : t.recvInto K a b r = some (.ok s')) : Receives t s' := by
  cases r with
  | data bs =>
    simp only [St.recvInto] at h
    split_ifs at h
    · obtain ⟨b', -, h⟩ := St.withBuffer_ok h
      cases h
      exact (receives_push (t := { t with
        readBuffer := some b', log := t.log ++ [.received bs] }) rfl).of_note rfl rfl rfl rfl
    · cases h
      exact (receives_recvFailed a).of_note rfl rfl rfl rfl
  | eof =>
    simp only [St.recvInto] at h
    split_ifs at h
    cases h
    exact (receives_readTail ..).of_note rfl rfl rfl rfl
  | error e =>
    simp only [St.recvInto] at h
    split_ifs at h
    cases h
    exact (receives_recvFailed a).of_note rfl rfl rfl rfl

theorem recvRet {r : RecvRet} (h : Flow s) (hst : s.recvRet A K r = some (.ok s')) : Flow s' := by
  obtain ⟨a, rest, b, hctl, -, hst⟩ := St.recvRet_ok hst
  have hsend := h.noSend_of_top hctl rfl
  obtain ⟨fs, l, hout, hctl', hlog, hfs, hl⟩ := receives_recvInto hst
  refine h.frames hout hlog hl (inFlight_of_noSend hsend) ?_ ?_
  · rw [hctl']
    exact noSend_append hfs fun g hg => hsend g (by simp [hctl, show g ∈ rest from hg])
  · rw [hctl, hctl']
    exact Keeps.replace fs rfl rfl

/-- **`handle_connect_event_`** -/
theorem handleConnectEvent (h : Flow s) (hI : Inv s)
    (hout : t.out = { s with delivered := none }.out)
    (hctl : t.ctl = s.ctl) (hlog : t.log = s.log) (hok : t.handleConnectEvent A = .ok s') :
    t.state = .kConnecting → Flow s' := by
  intro hs
  simp only [St.out, Out.mk.injEq] at hout
  have hst : s.state = .kConnecting := hout.2.2.2.1 ▸ hs
  have hm : .kConnected ∉ moves s.log := hI.life.not_started_of_connecting hst
  have hsend := noSend_of_quiet (hI.life.waiting hm).2.quiet
  have hwf := h.empty_buffer hm
  rcases St.handleConnectEvent_ok hok with ⟨hn, -⟩ | ⟨-, -, w, e, rfl⟩ | ⟨-, -, w, e, u, hu, rfl⟩
  · exact absurd hs hn
  · refine h.setUp (l := t.deregisterLog ++ t.closeLog ++ [Ev.moved .kDisconnected] ++
      St.callLog t.onConnectError (.connectError (t.takeSoError.1.getD EBADF))) hI hm
      (hout.1 ▸ hwf) (noSend_callFrames (hctl ▸ hsend)) ?_ ?_ ?_
    · simp only [hlog, List.append_assoc]
    · refine calm_append (calm_append (calm_append calm_deregisterLog calm_closeLog) ?_)
        (calm_callLog _ _)
      simp [calm]
    · intro _ c hc
      cases hc
  · rw [← St.callIf_eq]
    refine h.start (t := { t with
      soError := e, channel := none, writeReady := w, log := t.log ++ t.deregisterLog }) hI hm
      hout.1 hctl (by rw [hlog]) calm_deregisterLog ?_ hu
    unfold St.deregisterLog
    split <;> simp [moves]

theorem noSend_eventFrames {ev : Events} {fs : List Frame} (h : St.EventFrames ev fs) :
    NoSend fs := by
  cases h <;> cases hr : ev.read <;> simp [NoSend, Frame.isSend]

/-- A dispatched write event is served. -/
theorem serves_eventFrames {ev : Events} {fs : List Frame} (h : St.EventFrames ev fs)
    (hw : ev.write = true) : ∃ f ∈ fs, f.serves = true := by
  cases h with
  | close err => exact ⟨.closePart err, by simp, rfl⟩
  | write => exact ⟨.writePart, by simp, rfl⟩
  | read hn => simp [hw] at hn

/-- **Dispatch.**  The handlers that are entered serve what the notification stood for. -/
theorem dispatch {role : Role} {ev : Events} (h : Flow s) (hI : Inv s) (hctl : s.ctl = [])
    (hd : s.delivered = some (role, ev))
    (hok : { s with delivered := none }.handleEvent A role ev = .ok s') : Flow s' := by
  -- an open connection has only events of its own channel
  have hother : role = .connecting → ∀ e, Flow { s with delivered := none, soError := e } := by
    intro hr e
    refine h.reinterest rfl rfl rfl rfl rfl fun h1 h2 => ?_
    obtain ⟨pre, ho⟩ := hI.life.isOpen h2 h1
    have := ho.delivered _ hd
    simp [hr] at this
  rcases St.handleEvent_ok hok with ⟨hr, -, e, rfl⟩ | ⟨hr, hok⟩ | ⟨hr, e, fs, hfs, rfl⟩
  · exact hother hr e
  · by_cases hs : s.state = .kConnecting
    · exact h.handleConnectEvent hI rfl rfl rfl hok hs
    · rcases St.handleConnectEvent_ok hok with ⟨-, rfl⟩ | ⟨hs', -⟩ | ⟨hs', -⟩
      · exact hother hr s.soError
      · exact absurd hs' hs
      · exact absurd hs' hs
  · have hsend := noSend_eventFrames hfs
    have h1 : Flow { s with ctl := fs ++ s.ctl } := by
      refine h.frames (l := []) rfl (List.append_nil _).symm (by simp) ?_ ?_ (Keeps.push fs s.ctl)
      · simp [St.inFlight, hctl]
      · simpa [hctl] using hsend
    refine h1.reinterest rfl rfl rfl rfl rfl fun hh hm => ?_
    obtain ⟨i1, i2, i3⟩ := h1.interest hh hm
    refine ⟨i1, i2, fun hne => ?_⟩
    rcases i3 hne with h | ⟨x, hx, hw⟩ | h | h
    · exact .inl h
    · rw [show s.delivered = some (role, ev) from hd] at hx
      cases hx
      obtain ⟨f, hf, hs⟩ := serves_eventFrames hfs hw
      exact .inr (.inr (.inr ⟨f, by simp [hf], hs⟩))
    · exact .inr (.inr (.inl h))
    · exact .inr (.inr (.inr h))

/-- The socket gets room, or loses it. -/
theorem setWritable (b : Bool) (h : Flow s) (hI : Inv s) : Flow { s with
    writable := b, writeReady := s.writeReady || (b && !s.writable && s.armed) } := by
  refine h.reinterest rfl rfl rfl rfl rfl fun h1 h2 => ?_
  obtain ⟨i1, i2, i3⟩ := h.interest h1 h2
  refine ⟨i1, i2, fun hne => ?_⟩
  rcases i3 hne with h | h | h | h
  · exact .inl (by simp [h])
  · exact .inr (.inl h)
  · cases b with
    | false => exact .inr (.inr (.inl rfl))
    | true =>
      -- the edge raises a notification, since the channel is armed
      obtain ⟨pre, ho⟩ := hI.life.isOpen h2 h1
      obtain ⟨c, hc, -, -, hreg⟩ := ho.channel
      have harmed : s.armed = true := by simp [St.armed, hc, hreg, i1 hne c hc]
      exact .inl (by simp [h, harmed])
  · exact .inr (.inr (.inr h))

theorem deliver {c : Channel} {ev : Events} (h : Flow s) (hd : s.delivered = none) : Flow { s with
    delivered := some (c.role, ev), writeReady := !ev.write && s.writeReady && s.writable } := by
  refine h.reinterest rfl rfl rfl rfl rfl fun h1 h2 => ?_
  obtain ⟨i1, i2, i3⟩ := h.interest h1 h2
  refine ⟨i1, i2, fun hne => ?_⟩
  cases hw : ev.write with
  | true => exact .inr (.inl ⟨_, rfl, hw⟩)
  | false =>
    rcases i3 hne with h | ⟨x, hx, -⟩ | h | h
    · cases hroom : s.writable with
      | true => exact .inl (by simp [h])
      | false => exact .inr (.inr (.inl rfl))
    · simp [hd] at hx
    · exact .inr (.inr (.inl h))
    · exact .inr (.inr (.inr h))

theorem runTask {r : ConnectRet} (h : Flow s) (hI : Inv s) (hctl : s.ctl = [])
    (hst : s.runTask A r = some (.ok s')) : Flow s' := by
  have hsend : NoSend s.ctl := by simp [hctl, NoSend]
  unfold St.runTask at hst
  split at hst
  · cases hst
  · rename_i k rest htasks
    have h1 : Flow { s with tasks := rest } := h.congr rfl rfl rfl
    cases k with
    | start b =>
      obtain ⟨hp, -⟩ := hI.setup htasks rfl
      obtain ⟨u, hu, rfl⟩ := map_ok (Option.some.inj hst)
      exact h.start (l := []) (t := { s with tasks := rest }) hI (by simp [hp.moves]) rfl rfl
        (List.append_nil _).symm (by simp [calm]) (by simp [moves]) hu
    | connect =>
      obtain ⟨hp, -⟩ := hI.setup htasks rfl
      cases hst
      exact h.startConnectInPoll r hI (by simp [hp.moves]) rfl rfl rfl
    | send m =>
      exact h1.sendInPollThread (hI.popTask htasks rfl).1 hsend (Option.some.inj hst)
    | shutdown => exact h1.shutdownInPoll hsend (Option.some.inj hst)
    | cleanup err =>
      cases hst
      exact h1.cleanup err (hI.popTask htasks rfl).1 hsend
    | release => cases hst; exact h1

theorem not_started_of_shot (hI : Inv s) (hs : s.state = .kDisconnected)
    (hshot : s.state = .kDisconnected → s.used = false) : .kConnected ∉ moves s.log := by
  simp [(hI.fresh_of_unused (hshot hs)).1.moves]

theorem userStep {a : Act} (h : Flow s) (hI : Inv s) (hG : NoResize (.ok s) a)
    (hu : s.inUserCode = true) (hst : s.userStep A a = some (.ok s')) : Flow s' := by
  have hsend := h.noSend_of_inUserCode hu
  obtain ⟨hshot, hsize⟩ := hG
  cases a with
  | ret =>
    simp only [St.userStep] at hst
    split at hst
    · rename_i hctl
      cases hst
      exact h.leave hctl rfl rfl rfl rfl rfl rfl
    · cases hst
  | send m => exact h.send hI hsend (Option.some.inj hst)
  | shutdown => exact h.shutdown hsend (Option.some.inj hst)
  | close => cases hst; exact h.close hI hsend
  | consume k =>
    simp only [St.userStep] at hst
    split at hst
    · obtain ⟨b, -, hst⟩ := St.withBuffer_ok hst
      cases hst
      exact h.congr rfl rfl rfl
    · cases hst
  | connect a b r =>
    simp only [St.userStep] at hst
    split at hst
    · rename_i t ht
      unfold St.beginConnect at ht
      split_ifs at ht with hs
      cases ht
      cases hst
      exact h.startConnectInPoll r hI (not_started_of_shot hI hs hshot) rfl rfl rfl
    · cases hst
      exact h.note (by simp [Ev.isDull])
  | connectSync k =>
    simp only [St.userStep] at hst
    split_ifs at hst with hs
    · cases hst; exact h
    · rw [not_not] at hs
      cases k with
      | none => cases hst; exact h.congr rfl rfl rfl
      | some k =>
        exact h.start (b := false) (c := .conn) (l := [])
          (t := { s with cleanupDone := false, used := true, handle := some k }) hI
          (not_started_of_shot hI hs hshot) rfl rfl (List.append_nil _).symm (by simp [calm])
          (by simp [moves]) (Option.some.inj hst)
  | setCallbacks | setWatermarkCallback | setCloseTimeout =>
    cases hst
    exact h.congr rfl rfl rfl
  | setWatermark high low =>
    simp only [St.userStep] at hst
    split_ifs at hst
    · cases hst; exact h
    · cases hst; exact h.congr rfl rfl rfl
  | setBufferSize r w =>
    have hm : .kConnected ∉ moves s.log := fun hm => by
      simp [resizes, mem_moves.1 hm] at hsize
    have hok := Option.some.inj hst
    unfold St.setBufferSize at hok
    split_ifs at hok
    · split at hok
      · rename_i hw
        cases hok
        refine h.setUp (l := []) hI hm (fun b hb => ?_) hsend (List.append_nil _).symm
          (by simp [calm]) fun hm' => absurd hm' hm
        cases hb
        exact Buffer.new_sound hw
      · cases hok
    · cases hok; exact h
  | _ => cases hst

theorem otherStep {a : Act} (h : Flow s) (hI : Inv s) (hst : s.otherStep A a = some (.ok s')) :
    Flow s' := by
  cases a with
  | setWritable b => cases hst; exact h.setWritable b hI
  | sockError | stopTimers => cases hst; exact h.congr rfl rfl rfl
  | deliver ev =>
    simp only [St.otherStep] at hst
    split at hst
    · rename_i hd hc
      split_ifs at hst
      cases hst
      exact h.deliver hd
    · cases hst
  | dispatch =>
    simp only [St.otherStep] at hst
    split at hst
    · rename_i hctl hd
      exact h.dispatch hI hctl hd (Option.some.inj hst)
    · cases hst
  | runTask r =>
    simp only [St.otherStep] at hst
    split at hst
    · rename_i hctl _
      exact h.runTask hI hctl hst
    · cases hst
  | postSend | postShutdown | postClose =>
    cases hst
    split_ifs
    · exact h
    · exact h.congr rfl rfl rfl
  | postConnect a b =>
    simp only [St.otherStep] at hst
    split at hst
    · rename_i t ht
      unfold St.beginConnect at ht
      split_ifs at ht
      cases ht
      cases hst
      exact h.congr rfl rfl rfl
    · cases hst
      exact h.note (by simp [Ev.isDull])
  | serverShutdown | serverCleanup | extractTimer | fireTimer =>
    simp only [St.otherStep] at hst
    split_ifs at hst
    cases hst
    exact h.congr rfl rfl rfl
  | destroy =>
    simp only [St.otherStep] at hst
    split_ifs at hst with hs
    cases hst
    obtain ⟨sch, he⟩ := s.cancelCloseTimeout_eq
    rw [he, St.closeSocket_eq]
    have hl : ∀ e ∈ St.closeLog { s with closeTimerId := 0, scheduled := sch }, ∃ k,
        e = .closeHandle k := by
      unfold St.closeLog
      split <;> simp
    refine h.closed rfl rfl (by simp [hs.1, NoSend]) rfl ?_ ?_ ?_ ?_ ?_
    · refine sentBytes_of_mute fun e he => ?_
      obtain ⟨k, rfl⟩ := hl e he
      rfl
    · rw [begunBytes, List.flatMap_eq_nil_iff]
      intro e he
      obtain ⟨k, rfl⟩ := hl e he
      rfl
    · refine (graceful_of_mute (fun e he => ?_) h.graceful).1
      obtain ⟨k, rfl⟩ := hl e he
      rfl
    · simp [St.inFlight, hs.1]
    · rintro - ⟨e, he, hf⟩
      obtain ⟨k, rfl⟩ := hl e he
      cases hf
  | _ => cases hst

/-- **One step** keeps the state of the outgoing side. -/
theorem step {a : Act} (h : Flow s) (hI : Inv s) (hG : NoResize (.ok s) a)
    (hst : s.step A K a = some (.ok s')) : Flow s' := by
  unfold St.step at hst
  split at hst
  · exact h.tau hI hst
  · exact h.sendRet hI hst
  · exact h.recvRet hst
  all_goals first
    | exact h.otherStep hI hst
    | (split_ifs at hst with hu; exact h.userStep hI hG hu hst)

end Flow

variable {A : Allocator} {K : Kernel} {s₀ s : St}

theorem flow_of_init (h : Init s) : Flow s := by
  have hctl : s.ctl = [] := by cases h <;> rfl
  have hb : s.writeBuffer = none := by cases h <;> rfl
  have hl : s.log = [] := by cases h <;> rfl
  have hp : s.pending = [] := by simp [St.pending, hb]
  have hf : ¬ Failed s.log := by simp [hl, Failed]
  refine .of_noSend (by simp [hctl, NoSend]) (by simp [hb]) (fun _ => ?_) ?_
    (fun h => absurd h hf) ?_ (fun _ => .inl hp) (fun _ => ⟨hp, hf⟩) fun _ hm => ?_
  · rw [hp, hl]
    rfl
  · rw [hl]
    exact List.prefix_refl _
  · intro pre post h
    simp [hl] at h
  · simp [hl, moves] at hm

/-- **The outgoing side over whole runs.** -/
theorem flow_of_reach (h₀ : Init s₀) (h : (machine A K).ReachIf NoResize (.ok s₀) (.ok s)) :
    Flow s :=
  invariant_ok h (fun _ hr => inv_of_reach h₀ (hr.mono fun _ _ hG => hG.1)) (flow_of_init h₀)
    fun _ _ _ hI ih hG hst => ih.step hI hG hst

/-- **Outgoing stream integrity.**  In every state of every run in which the buffers of the started
connection are not replaced, the bytes the kernel has accepted are a prefix of the messages whose
`send_in_poll_thread_` began in state `kConnected`, in this order; and as long as no fatal error was
reported, the accepted bytes, the readable bytes of the write buffer and what a call of
`send_in_poll_thread_` in progress has in hand (nothing, outside such a call) are exactly these
messages. -/
theorem stream_integrity (h₀ : Init s₀)
    (h : (machine A K).ReachIf NoResize (.ok s₀) (.ok s)) :
    sentBytes s.log <+: begunBytes s.log ∧
      (¬ Failed s.log → sentBytes s.log ++ s.pending ++ s.inFlight = begunBytes s.log) ∧
      ((∀ m n rest, s.ctl ≠ .sendLoop m n :: rest) → s.inFlight = []) := by
  have hflow := flow_of_reach h₀ h
  refine ⟨hflow.pre, hflow.eq, fun hno => ?_⟩
  unfold St.inFlight
  split
  · rename_i m n rest hctl
    exact absurd hctl (hno m n rest)
  · rfl

/-- A message of five bytes is sent: the kernel accepts two of them and is full, the rest is
queued, a second message is queued behind it, and one more byte is accepted. -/
def partialWrites : List Act :=
  [.runTask .badAddress, .send ⟨[1, 2, 3, 4, 5], by simp⟩, .sendRet (.accepted 2),
    .sendRet (.error EAGAIN), .send ⟨[6, 7], by simp⟩, .setWritable true,
    .deliver ⟨false, true, false, false⟩, .dispatch, .tau, .sendRet (.accepted 1)]

theorem stream_integrity_partialWrites : ∃ s : St, sentBytes s.log = [1, 2, 3] ∧
    begunBytes s.log = [1, 2, 3, 4, 5, 6, 7] ∧
    sentBytes s.log ++ s.pending ++ s.inFlight = begunBytes s.log := by
  obtain ⟨s, hs, hp⟩ := reachIf_of_endsIn (A := .zeroed) (K := .linux) (G := NoResize)
    (accepted 5 false) partialWrites
    (p := fun s => sentBytes s.log = [1, 2, 3] ∧ begunBytes s.log = [1, 2, 3, 4, 5, 6, 7] ∧
      s.log.all fun e => !e.isFatal)
    (by decide +kernel) (by decide +kernel)
  obtain ⟨h1, h2, h3⟩ := of_decide_eq_true hp
  refine ⟨s, h1, h2, (stream_integrity (.server 5 false) hs).2.1 ?_⟩
  rintro ⟨e, he, hf⟩
  have := List.all_eq_true.1 h3 e he
  simp [hf] at this

/-! ### Write interest -/

/-- **No write stall.**  Whenever the poll's thread has left the code of a started connection that
is `kConnected` or `kDisconnecting`, its channel asks for write events iff the write buffer is not
empty; and if it is not empty, a write-ready notification is pending in the poller or delivered, or
the socket is not writable. -/
theorem no_write_stall (h₀ : Init s₀) (h : (machine A K).ReachIf NoResize (.ok s₀) (.ok s))
    (hctl : s.ctl = []) (hstart : .moved .kConnected ∈ s.log)
    (hstate : s.state = .kConnected ∨ s.state = .kDisconnecting) :
    ∃ c b, s.channel = some c ∧ s.writeBuffer = some b ∧ c.role = .established ∧
      (c.writing = true ↔ 0 < b.readableSize) ∧
      (0 < b.readableSize → s.writeReady = true ∨
        (∃ ev, s.delivered = some (.established, ev) ∧ ev.write = true) ∨ s.writable = false) := by
  have hI : Inv s := inv_of_reach h₀ (h.mono fun _ _ hG => hG.1)
  have hflow := flow_of_reach h₀ h
  have hstart' := mem_moves.2 hstart
  have hne : s.state ≠ .kDisconnected := by
    rcases hstate with h1 | h1 <;> simp [h1]
  obtain ⟨pre, ho⟩ := hI.life.isOpen_of_state hstart' hne
  obtain ⟨c, hc, hrole, -, -⟩ := ho.channel
  obtain ⟨b, hb⟩ := Option.isSome_iff_exists.1 ho.writeBuffer
  have hpend : s.pending ≠ [] ↔ 0 < b.readableSize := by
    rw [Nat.pos_iff_ne_zero, ne_eq, ne_eq, ← (hflow.wf b hb).readable_eq_nil_iff]
    simp [St.pending, hb]
  have hint := hflow.interest ho.handle hstart'
  refine ⟨c, b, hc, hb, hrole, ?_, fun hpos => ?_⟩
  · rw [← hpend]
    exact ⟨hint.pending (by simp [hctl]) c hc, fun hp => hint.writing hp c hc⟩
  · rcases hint.served (hpend.2 hpos) with h1 | ⟨⟨role, ev⟩, hx, hev⟩ | h1 | ⟨f, hf, -⟩
    · exact .inl h1
    · have hrole : role = .established := ho.delivered _ hx
      exact .inr (.inl ⟨ev, hrole ▸ hx, hev⟩)
    · exact .inr (.inr h1)
    · simp [hctl] at hf

theorem no_write_stall_backlog : ∃ s : St, s.state = .kDisconnecting ∧ s.pending ≠ [] ∧
    ∃ c b, s.channel = some c ∧ s.writeBuffer = some b ∧ c.role = .established ∧
      (c.writing = true ↔ 0 < b.readableSize) ∧
      (0 < b.readableSize → s.writeReady = true ∨
        (∃ ev, s.delivered = some (.established, ev) ∧ ev.write = true) ∨ s.writable = false) := by
  obtain ⟨s, hs, hp⟩ := reachIf_of_endsIn (A := .zeroed) (K := .linux) (G := NoResize)
    (accepted 5 false)
    (partialWrites ++ [Act.setWritable false, .sendRet (.error EAGAIN), .shutdown])
    (p := fun s => s.state = .kDisconnecting ∧ s.pending ≠ [] ∧ s.ctl = [] ∧
      .moved .kConnected ∈ s.log)
    (by decide +kernel) (by decide +kernel)
  obtain ⟨h1, h2, h3, h4⟩ := of_decide_eq_true hp
  exact ⟨s, h1, h2, no_write_stall (.server 5 false) hs h3 h4 (.inr h1)⟩

end Conn

end CxpNet
