import CxpNet.Conn.Stack
import CxpNet.Conn.Stream

/-!
# The channel that the handlers use

`cleanup_` takes the channel away, also when it is called from inside a callback that a handler of
this channel has called.  `handle_write_event_` goes on after its watermark callback and uses the
channel at its end, without a look whether it is still there.

* `Conn.nullChannel_cases` : the only places where an absent channel can be used;
* `Conn.channel_present` : no run uses an absent channel, unless the connection is closed from
  inside a low notification that was called with nothing left to write.

The invariant is `Backed`: a write event that is reported, a write handler that is about to run, and
one that runs on a closed connection all have bytes to write.
-/

namespace CxpNet

namespace Conn

/-! ### Where an absent channel is used -/

theorem bind_error {α β : Type} {x : Except Crash α} {f : α → Except Crash β} {e : Crash}
    (h : (x >>= f) = .error e) : x = .error e ∨ ∃ a, x = .ok a ∧ f a = .error e := by
  cases x with
  | error e' =>
    cases h
    exact .inl rfl
  | ok a => exact .inr ⟨a, rfl, h⟩

namespace St

variable {A : Allocator} {K : Kernel} {s : St}

theorem addWriteEvent_null (h : s.addWriteEvent = .error .nullChannel) : s.channel = none := by
  unfold addWriteEvent at h
  split at h
  · assumption
  · cases h

theorem removeWriteEvent_null (h : s.removeWriteEvent = .error .nullChannel) :
    s.channel = none := by
  unfold removeWriteEvent at h
  split at h
  · assumption
  · cases h

theorem onWriteBuffer_ne (f : Buffer → Buffer.Res) : s.onWriteBuffer f ≠ .error .nullChannel := by
  intro h
  unfold onWriteBuffer at h
  split at h
  · cases h
  · split at h <;> cases h

theorem writeSize_ne : s.writeSize ≠ .error .nullChannel := by
  intro h
  unfold writeSize at h
  split at h <;> cases h

theorem checkHigh_ne : s.checkHigh ≠ .error .nullChannel := by
  intro h
  rcases bind_error h with h | ⟨n, -, h⟩
  · exact writeSize_ne h
  · split_ifs at h

theorem enqueue_null {bs : List UInt8} (h : s.enqueue A bs = .error .nullChannel) :
    s.channel = none := by
  rcases bind_error h with h | ⟨t, ht, h⟩
  · exact absurd h (onWriteBuffer_ne _)
  obtain ⟨b, b', -, -, rfl⟩ := onWriteBuffer_ok ht
  rcases bind_error h with h | ⟨u, -, h⟩
  · exact addWriteEvent_null (s := { s with writeBuffer := some b' }) h
  · exact absurd h checkHigh_ne

theorem sendTail_null {m : Msg} {n : ℕ} (h : s.sendTail A m n = .error .nullChannel) :
    s.channel = none := by
  unfold sendTail at h
  split_ifs at h
  · exact enqueue_null h
  · exact absurd h checkHigh_ne

theorem sendInPollThread_ne (m : Msg) : s.sendInPollThread A m ≠ .error .nullChannel := by
  intro h
  unfold sendInPollThread at h
  split_ifs at h
  dsimp only at h
  split at h
  · rename_i b c hb hc
    split_ifs at h
    simp [enqueue_null h] at hc
  · cases h

theorem writeTail_null (h : s.writeTail = .error .nullChannel) :
    s.channel = none ∧ ∃ b, s.writeBuffer = some b ∧ b.readableSize = 0 := by
  rcases bind_error h with h | ⟨n, hn, h⟩
  · exact absurd h writeSize_ne
  obtain ⟨b, hb, rfl⟩ := writeSize_ok hn
  split_ifs at h with h0
  refine ⟨?_, b, hb, h0⟩
  rcases bind_error h with h | ⟨t, ht, h⟩
  · exact absurd h (onWriteBuffer_ne _)
  obtain ⟨b₁, b', -, -, rfl⟩ := onWriteBuffer_ok ht
  rcases bind_error h with h | ⟨u, -, h⟩
  · exact removeWriteEvent_null (s := { s with writeBuffer := some b' }) h
  · cases h

theorem wrote_ne (n : ℕ) : s.wrote A n ≠ .error .nullChannel := by
  intro h
  rcases bind_error h with h | ⟨t, -, h⟩
  · exact onWriteBuffer_ne _ h
  rcases bind_error h with h | ⟨k, -, h⟩
  · exact writeSize_ne h
  · split_ifs at h

/-- `shutdown_in_poll_` looks whether there is a channel. -/
theorem shutdownInPoll_ne : s.shutdownInPoll ≠ .error .nullChannel := by
  intro h
  unfold shutdownInPoll at h
  split_ifs at h
  rcases bind_error h with h | ⟨t, -, h⟩
  · unfold finishWrites at h
    split_ifs at h with _ hc
    · cases h
    · rcases bind_error h with h | ⟨t, -, h⟩
      · exact hc (removeWriteEvent_null h)
      · cases h
  · cases h

theorem newBuffer_ne (b : Option Buffer) : newBuffer A b ≠ .error .nullChannel := by
  intro h
  unfold newBuffer at h
  split at h
  · cases h
  · split at h <;> cases h

theorem start_ne : s.start A ≠ .error .nullChannel := by
  intro h
  unfold start at h
  split_ifs at h
  rcases bind_error h with h | ⟨r, -, h⟩
  · exact newBuffer_ne _ h
  rcases bind_error h with h | ⟨w, -, h⟩
  · exact newBuffer_ne _ h
  · cases h

theorem handleEvent_ne (role : Role) (ev : Events) :
    s.handleEvent A role ev ≠ .error .nullChannel := by
  intro h
  unfold handleEvent at h
  by_cases hev : (ev.error || ev.hup) = true
  · rw [if_pos hev] at h
    cases role <;> cases h
  rw [if_neg hev] at h
  cases role with
  | established => cases h
  | connecting =>
    simp only at h
    split_ifs at h
    unfold handleConnectEvent at h
    split_ifs at h
    dsimp only at h
    split_ifs at h
    rcases bind_error h with h | ⟨t, -, h⟩
    · exact start_ne h
    · cases h

theorem withBuffer_ne {x : Buffer.Res} {k : Buffer → Option (Except Crash St)}
    (hk : ∀ b, k b ≠ some (.error .nullChannel)) :
    withBuffer x k ≠ some (.error .nullChannel) := by
  cases x with
  | done b => exact hk b
  | throw f b => simp [withBuffer]

theorem recvRet_ne (r : RecvRet) : s.recvRet A K r ≠ some (.error .nullChannel) := by
  unfold recvRet
  split
  swap
  · simp
  split_ifs
  · simp
  unfold recvRound
  split
  · simp
  refine withBuffer_ne fun b => ?_
  unfold recvInto
  split
  · split_ifs
    · exact withBuffer_ne fun b => by simp
    · simp
    · simp
  · split_ifs <;> simp
  · split_ifs <;> simp

end St

section

variable {A : Allocator} {K : Kernel} {s₀ s s' t : St} {a : Act}

/-- The innermost call is at a place where the channel is used. -/
inductive UsesChannel (s : St) : Prop
  /-- `handle_write_event_`, when everything has been written. -/
  | write {rest : List Frame} {b : Buffer} : s.ctl = .writeLoop :: rest →
      s.writeBuffer = some b → b.readableSize = 0 → UsesChannel s
  /-- `send_in_poll_thread_`, when something is left. -/
  | send {m : Msg} {n : ℕ} {rest : List Frame} : s.ctl = .sendLoop m n :: rest → UsesChannel s

theorem nullChannel_tau (h : s.tau A = some (.error .nullChannel)) :
    s.channel = none ∧ UsesChannel s := by
  unfold St.tau at h
  split at h
  case h_3 => split_ifs at h; cases h
  case h_5 rest hctl =>
    split at h
    · cases h
    · split_ifs at h
      obtain ⟨hc, b, hb, h0⟩ := St.writeTail_null (Option.some.inj h)
      exact ⟨hc, .write hctl hb h0⟩
  case h_7 m n rest hctl =>
    split_ifs at h
    exact ⟨St.sendTail_null (s := { s with ctl := rest }) (Option.some.inj h), .send hctl⟩
  all_goals cases h

theorem nullChannel_sendRet {r : SendRet} (h : s.sendRet A K r = some (.error .nullChannel)) :
    s.channel = none ∧ UsesChannel s := by
  unfold St.sendRet at h
  split at h
  · rename_i rest hctl
    split at h
    · cases h
    rename_i b hb
    split_ifs at h with hpos
    obtain ⟨x, hx, h⟩ := Option.map_eq_some_iff.1 h
    -- with bytes left the channel is not used
    have hbuf : x.2.writeBuffer = some b := by
      cases r with
      | accepted n => rw [(sysSend_accepted hx).1]; exact hb
      | error e => rw [sysSend_error hx]; exact hb
    exfalso
    unfold St.writeRet at h
    split_ifs at h
    · exact St.wrote_ne _ h
    · split at h
      · obtain ⟨-, b', hb', h0⟩ := St.writeTail_null h
        rw [hbuf, Option.some.injEq] at hb'
        subst hb'
        omega
      · cases h
      · cases h
  · rename_i m n rest hctl
    split_ifs at h
    obtain ⟨x, hx, h⟩ := Option.map_eq_some_iff.1 h
    have hch : x.2.channel = s.channel := by
      cases r with
      | accepted n => rw [(sysSend_accepted hx).1]; rfl
      | error e => rw [sysSend_error hx]
    refine ⟨hch ▸ ?_, .send hctl⟩
    unfold St.sendLoopRet at h
    split_ifs at h
    · exact St.sendTail_null h
    · split at h
      · exact St.sendTail_null h
      · cases h
      · cases h
  · cases h

theorem nullChannel_userStep : s.userStep A a ≠ some (.error .nullChannel) := by
  intro h
  cases a with
  | ret =>
    simp only [St.userStep] at h
    split at h <;> cases h
  | send m =>
    have h : s.send A m = .error .nullChannel := Option.some.inj h
    unfold St.send at h
    split_ifs at h
    exact St.sendInPollThread_ne m h
  | shutdown =>
    have h : s.shutdown = .error .nullChannel := Option.some.inj h
    unfold St.shutdown at h
    split_ifs at h
    exact St.shutdownInPoll_ne h
  | consume k =>
    simp only [St.userStep] at h
    split at h
    · exact St.withBuffer_ne (fun b => by simp) h
    · cases h
  | connect onConnected onConnectError r =>
    simp only [St.userStep] at h
    split at h <;> cases h
  | connectSync k =>
    simp only [St.userStep] at h
    split_ifs at h
    · cases h
    · cases k with
      | none => cases h
      | some k => exact St.start_ne (Option.some.inj h)
  | setBufferSize r w =>
    have h : s.setBufferSize A r w = .error .nullChannel := Option.some.inj h
    unfold St.setBufferSize at h
    split_ifs at h
    split at h <;> cases h
  | setWatermark high low =>
    simp only [St.userStep] at h
    split_ifs at h <;> cases h
  | _ => cases h

theorem nullChannel_runTask (r : ConnectRet) : s.runTask A r ≠ some (.error .nullChannel) := by
  intro h
  unfold St.runTask at h
  split at h
  · cases h
  rename_i k rest _
  cases k with
  | start onConn =>
    have h := Option.some.inj h
    cases hs : ({ s with tasks := rest }).start A with
    | error e =>
      simp only [hs, Except.map, Except.error.injEq] at h
      subst h
      exact St.start_ne hs
    | ok t => simp [hs, Except.map] at h
  | connect | cleanup | release => cases h
  | send m => exact St.sendInPollThread_ne m (Option.some.inj h)
  | shutdown => exact St.shutdownInPoll_ne (Option.some.inj h)

theorem nullChannel_otherStep : s.otherStep A a ≠ some (.error .nullChannel) := by
  intro h
  cases a with
  | dispatch =>
    simp only [St.otherStep] at h
    split at h
    · exact St.handleEvent_ne _ _ (Option.some.inj h)
    · cases h
  | runTask r =>
    simp only [St.otherStep] at h
    split at h
    · exact nullChannel_runTask r h
    · cases h
  | deliver ev =>
    simp only [St.otherStep] at h
    split at h
    · split_ifs at h
      cases h
    · cases h
  | postConnect onConnected onConnectError =>
    simp only [St.otherStep] at h
    split at h <;> cases h
  | serverShutdown | serverCleanup | extractTimer | fireTimer | destroy =>
    simp only [St.otherStep] at h
    split_ifs at h
    cases h
  | _ => cases h

/-- **Where an absent channel can be used.** -/
theorem nullChannel_cases (h : s.step A K a = some (.error .nullChannel)) :
    s.channel = none ∧ UsesChannel s := by
  unfold St.step at h
  split at h
  · exact nullChannel_tau h
  · exact nullChannel_sendRet h
  · exact absurd h (St.recvRet_ne _)
  all_goals first
    | exact absurd h nullChannel_otherStep
    | (split_ifs at h; exact absurd h nullChannel_userStep)

/-! ### The steps of a run -/

namespace St

/-- `EPOLLOUT` is reported for a channel without write interest. -/
def spurious (s : St) : Act → Bool
  | .deliver ev => ev.write && !s.armed
  | _ => false

/-- The connection is closed, by `close` or by a fatal error of a direct write, from inside a low
notification, and nothing is left to write. -/
def closesDrained (s : St) : Act → Bool
  | .close => .afterLow ∈ s.ctl ∧ s.pending = [] ∧ s.state ≠ .kDisconnected
  | .sendRet (.error e) =>
    .afterLow ∈ s.ctl ∧ s.pending = [] ∧ handleErrorAction e = .kClose
  | _ => false

end St

/-- A step of a run in which the buffers of a started connection are not replaced and the poller
reports only what it was asked for. -/
def Reported (c : Except Crash St) (a : Act) : Prop :=
  NoResize c a ∧ match c with
    | .ok s => s.spurious a = false
    | .error _ => True

instance : ∀ c a, Decidable (Reported c a)
  | .ok s, a => inferInstanceAs (Decidable (NoResize (.ok s) a ∧ s.spurious a = false))
  | .error e, a => inferInstanceAs (Decidable (NoResize (.error e) a ∧ True))

/-- Such a step that does not close a drained connection from inside a low notification. -/
def Careful (c : Except Crash St) (a : Act) : Prop :=
  Reported c a ∧ match c with
    | .ok s => s.closesDrained a = false
    | .error _ => True

instance : ∀ c a, Decidable (Careful c a)
  | .ok s, a => inferInstanceAs (Decidable (Reported (.ok s) a ∧ s.closesDrained a = false))
  | .error e, a => inferInstanceAs (Decidable (Reported (.error e) a ∧ True))

/-! ### The invariant -/

/-- What the write handler relies on. -/
structure Backed (s : St) : Prop where
  /-- The poller does not know the channel of a closed connection. -/
  idle : s.handle = none → ∀ c ∈ s.channel, St.isIdle c = true
  /-- Events are reported only between two dispatches. -/
  apart : (∃ f ∈ s.ctl, f.serves = true) → s.delivered = none
  reported : ∀ ev, s.delivered = some (.established, ev) → ev.write = true → s.pending ≠ []
  waits : .writePart ∈ s.ctl → s.pending ≠ []
  drains : (∃ f ∈ s.ctl, f.drains = true) → s.handle = none → s.pending ≠ []

namespace Backed

/-- No handler is in progress, and no event of an established channel is reported. -/
theorem quiet (hidle : s.handle = none → ∀ c ∈ s.channel, St.isIdle c = true)
    (hdel : Delivers .connecting s.delivered) (hctl : ∀ f ∈ s.ctl, f.serves = false) :
    Backed s where
  idle := hidle
  apart := by
    rintro ⟨f, hf, hs⟩
    simp [hctl f hf] at hs
  reported ev hev := by
    have := hdel _ hev
    cases this
  waits hf := by
    have := hctl _ hf
    cases this
  drains := by
    rintro ⟨f, hf, hd⟩
    have := hctl f hf
    rw [Frame.serves_of_drains hd] at this
    cases this

/-- Nothing is taken from the buffer, and no handler is entered. -/
theorem keep (h : Backed s) (hidle : s'.handle = none → ∀ c ∈ s'.channel, St.isIdle c = true)
    (hh : s'.handle = none → s.handle = none) (hdel : s'.delivered = s.delivered)
    (hp : s.pending ≠ [] → s'.pending ≠ [])
    (hctl : ∀ f ∈ s'.ctl, f.serves = true → f ∈ s.ctl) : Backed s' where
  idle := hidle
  apart := by
    rintro ⟨f, hf, hs⟩
    rw [hdel]
    exact h.apart ⟨f, hctl f hf hs, hs⟩
  reported ev hev hw := hp (h.reported ev (hdel ▸ hev) hw)
  waits hf := hp (h.waits (hctl _ hf rfl))
  drains := by
    rintro ⟨f, hf, hd⟩ hnone
    exact hp (h.drains ⟨f, hctl f hf (Frame.serves_of_drains hd), hd⟩ (hh hnone))

/-- Only frames that are no handlers are entered. -/
theorem frames (h : Backed s) (h1 : s'.handle = s.handle) (h2 : s'.channel = s.channel)
    (h3 : s'.delivered = s.delivered) (h4 : s'.writeBuffer = s.writeBuffer)
    (hctl : ∀ f ∈ s'.ctl, f.serves = true → f ∈ s.ctl) : Backed s' := by
  refine h.keep ?_ (fun hn => h1 ▸ hn) h3 (fun hp => ?_) hctl
  · rw [h1, h2]
    exact h.idle
  · simpa only [St.pending, h4] using hp

end Backed

theorem serves_of_light {fs : List Frame} (h : Light fs) : ∀ f ∈ fs, f.serves = false := by
  intro f hf
  have := h f hf
  cases f with
  | user | afterHigh | afterClose => rfl
  | _ => cases this

theorem serves_of_quiet {ctl : List Frame} (h : Quiet ctl) : ∀ f ∈ ctl, f.serves = false := by
  intro f hf
  have := h f hf
  cases f with
  | user | afterClose => rfl
  | _ => cases this

/-- What is entered on top is no handler. -/
theorem serves_append (fs : List Frame) {rest ctl : List Frame} (hfs : ∀ f ∈ fs, f.serves = false)
    (hrest : ∀ f ∈ rest, f ∈ ctl) : ∀ f ∈ fs ++ rest, f.serves = true → f ∈ ctl := by
  intro f hf hs
  rcases List.mem_append.1 hf with hf | hf
  · simp [hfs f hf] at hs
  · exact hrest f hf

/-- When `cleanup_` is called, a write handler in progress has bytes left. -/
theorem Closing.drains {err : ℕ} {f : Frame} (h : Closing s a err t) (hst : WellStacked s.ctl)
    (hG : s.closesDrained a = false) (hopen : t.state = .kDisconnected → ∃ r, a = .runTask r)
    (hf : f ∈ t.ctl) (hd : f.drains = true) : s.pending ≠ [] := by
  -- below the innermost call only `afterLow` drains
  have hlow : NoLoop t.ctl → .afterLow ∈ t.ctl := fun hn => by
    have := hn f hf
    cases f with
    | afterLow => exact hf
    | writeLoop => cases this
    | _ => cases hd
  cases h with
  | @handler g rest err hctl hor =>
    exfalso
    have hs := hst.stacked
    rw [hctl] at hs
    rcases hor with rfl | rfl
    · obtain rfl : rest = [] := hs
      cases hf
    · obtain rfl | ⟨e, rfl⟩ | rfl := hs
      · cases hf
      · obtain rfl := List.mem_singleton.1 hf
        cases hd
      · obtain rfl := List.mem_singleton.1 hf
        cases hd
  | @failed g rest e hctl hor hact =>
    have hn := hst.noLoop
    rw [hctl] at hn
    have hmem : .afterLow ∈ s.ctl := by
      rw [hctl]
      exact List.mem_cons_of_mem g (hlow hn)
    simp only [St.closesDrained, decide_eq_false_iff_not, not_and] at hG
    exact fun hp => hG hmem hp hact
  | user hu =>
    have hmem := hlow (noLoop_whole hst.noLoop (notLooping_of_inUserCode hu))
    simp only [St.closesDrained, decide_eq_false_iff_not, not_and, not_not] at hG
    intro hp
    obtain ⟨r, hr⟩ := hopen (hG hmem hp)
    cases hr
  | task r hctl =>
    have hf : f ∈ s.ctl := hf
    simp [hctl] at hf

theorem enqueue_pending {bs : List UInt8} (hwf : ∀ b ∈ t.writeBuffer, b.WF)
    (hlt : bs.length < 2 ^ 63) (h : t.enqueue A bs = .ok s') : s'.pending ≠ [] := by
  obtain ⟨b, b', u, hb, happ, hu, h⟩ := St.enqueue_ok h
  obtain ⟨-, hr, hne⟩ := Buffer.append_done (hwf b hb) hlt happ
  obtain ⟨c, c', w, -, rfl, -⟩ := St.addWriteEvent_ok hu
  have hbuf : s'.writeBuffer = some b' := by
    rcases St.checkHigh_ok h with rfl | rfl | rfl <;> rfl
  simp [St.pending, hbuf, hr, hne]

/-- The end of `send_in_poll_thread_` enters no handler. -/
theorem Backed.checkHigh (h : Backed t) (hok : t.checkHigh = .ok s') : Backed s' := by
  rcases St.checkHigh_ok hok with rfl | rfl | rfl
  · exact h
  · exact h.frames rfl rfl rfl rfl fun f hf _ => hf
  · refine h.frames rfl rfl rfl rfl ?_
    exact serves_append [.user _, .afterHigh] (by simp [Frame.serves]) fun f hf => hf

/-- Leaving a frame, with frames entered that are no handlers. -/
theorem Backed.leave (fs : List Frame) {rest : List Frame} {f : Frame} (h : Backed s)
    (hctl : s.ctl = f :: rest) (hfs : ∀ f ∈ fs, f.serves = false) (h1 : s'.handle = s.handle)
    (h2 : s'.channel = s.channel) (h3 : s'.delivered = s.delivered)
    (h4 : s'.writeBuffer = s.writeBuffer) (hctl' : s'.ctl = fs ++ rest) : Backed s' := by
  refine h.frames h1 h2 h3 h4 ?_
  rw [hctl', hctl]
  exact serves_append fs hfs fun g hg => List.mem_cons_of_mem f hg

/-- `cleanup_` -/
theorem Backed.closes {err : ℕ} (h : Backed s) (hstack : WellStacked s.ctl)
    (hG : s.closesDrained a = false) (hc : Closing s a err t) (hd : t.cleanupDone = false)
    (hopen : t.state = .kDisconnected → ∃ r, a = .runTask r) : Backed (t.cleanup err) := by
  have hidle := St.cleanup_idle err hd
  obtain ⟨sch, ch, w, rel, he, -, -⟩ := St.cleanup_eq err hd
  have hlight := serves_of_light (light_closeFrames err t)
  have hsub : ∀ f ∈ t.ctl, f ∈ s.ctl := by
    cases hc with
    | handler hctl | failed hctl => exact fun f hf => hctl ▸ List.mem_cons_of_mem _ hf
    | user | task => exact fun f hf => hf
  have hkeep : t.delivered = s.delivered ∧ t.writeBuffer = s.writeBuffer := by
    cases hc <;> exact ⟨rfl, rfl⟩
  have hpend : (t.cleanup err).pending = s.pending := by simp only [St.pending, he, hkeep.2]
  have hdel : (t.cleanup err).delivered = s.delivered := by rw [he]; exact hkeep.1
  have hctl : (t.cleanup err).ctl = t.closeFrames err ++ t.ctl := ctl_cleanup err hd
  have hserves := hctl ▸ serves_append _ hlight hsub
  refine ⟨fun _ => hidle, ?_, ?_, ?_, ?_⟩
  · rintro ⟨f, hf, hs⟩
    rw [hdel]
    exact h.apart ⟨f, hserves f hf hs, hs⟩
  · intro ev hev hw
    rw [hpend]
    exact h.reported ev (hdel ▸ hev) hw
  · intro hf
    rw [hpend]
    exact h.waits (hserves _ hf rfl)
  · rintro ⟨f, hf, hdrains⟩ -
    rw [hpend]
    rw [hctl] at hf
    rcases List.mem_append.1 hf with hf | hf
    · have := hlight f hf
      simp [Frame.serves_of_drains hdrains] at this
    · exact hc.drains hstack hG hopen hf hdrains

/-- `start_connect_in_poll_` -/
theorem Backed.connects {r : ConnectRet} (hI : Inv s) (hG : OneShot (.ok s) a)
    (hc : Connecting s a r t) : Backed (t.startConnectInPoll r) := by
  have hp := hc.pristine hI hG
  obtain ⟨hch, hdel, hctl⟩ : t.channel = none ∧ t.delivered = none ∧ t.ctl = s.ctl := by
    cases hc <;> exact ⟨hp.channel, hp.delivered, rfl⟩
  have hq : ∀ f ∈ (t.startConnectInPoll r).ctl, f.serves = false := by
    obtain ⟨fs, he, hl⟩ := ctl_startConnectInPoll r t
    rw [he, hctl]
    exact List.forall_mem_append.2 ⟨serves_of_light hl, serves_of_quiet hp.quiet⟩
  rcases t.startConnectInPoll_eq r with ⟨err, he⟩ | ⟨k, w, he⟩
  · rw [he, St.connectFailed_eq] at hq ⊢
    exact .quiet (by simp [hch]) (by simp [hdel, Delivers]) hq
  · rw [he] at hq ⊢
    exact .quiet (by simp) (by simp [hdel, Delivers]) hq

/-- Queueing bytes. -/
theorem Backed.queues {bs : List UInt8} (h : Backed s) (hI : Inv s) (hF : Flow s)
    (hq : Queueing s a bs t) (hok : t.enqueue A bs = .ok s') : Backed s' := by
  obtain ⟨hh, hdel, hbuf, hlt, hsub⟩ : t.handle = s.handle ∧ t.delivered = s.delivered ∧
      t.writeBuffer = s.writeBuffer ∧ bs.length < 2 ^ 63 ∧ ∀ f ∈ t.ctl, f ∈ s.ctl := by
    cases hq with
    | behind hs => cases hs <;> exact ⟨rfl, rfl, rfl, Msg.lt _, fun f hf => hf⟩
    | rest hend =>
      have hlt : ∀ (m : Msg) (n : ℕ), (m.bytes.drop n).length < 2 ^ 63 := fun m n => by
        have := m.lt
        rw [List.length_drop]
        omega
      cases hend with
      | goal hctl | blocked hctl =>
        exact ⟨rfl, rfl, rfl, hlt _ _, fun f hf => hctl ▸ List.mem_cons_of_mem _ hf⟩
  have hstate : s.state = .kConnected := by
    cases hq with
    | behind hs hst => cases hs <;> exact hst
    | rest hend => exact (hF.loop _ _ _ hend.ctl_eq).1
  have hsame : s'.handle = t.handle ∧ s'.delivered = t.delivered := by
    obtain ⟨b, b', u, -, -, hu, hok⟩ := St.enqueue_ok hok
    obtain ⟨c, c', w, -, rfl, -⟩ := St.addWriteEvent_ok hu
    rcases St.checkHigh_ok hok with rfl | rfl | rfl <;> exact ⟨rfl, rfl⟩
  have hopen : s'.handle ≠ none := by
    obtain ⟨pre, ho, -⟩ := hI.life.isUp hstate
    rw [hsame.1, hh]
    exact ho.handle
  have hne := enqueue_pending (hbuf ▸ hF.wf) hlt hok
  obtain ⟨fs, hctl, hl⟩ := ctl_enqueue hok
  refine h.keep (fun hn => absurd hn hopen) (fun hn => absurd hn hopen) (hsame.2.trans hdel)
    (fun _ => hne) ?_
  rw [hctl]
  exact serves_append fs (serves_of_light hl) hsub

/-- **One step** keeps what the write handler relies on. -/
theorem Backed.step (h : Backed s) (hI : Inv s) (hF : Flow s) (hstack : WellStacked s.ctl)
    (hG : Careful (.ok s) a) (hst : Moves A s a s') : Backed s' := by
  obtain ⟨⟨hres, hspur⟩, hclose⟩ := hG
  cases hst with
  | stay => exact h
  | refused | setWritable | sockError | setCallbacks | setWatermark | setWatermarkCallback
  | setCloseTimeout | post | stopTimers | extractTimer | fireTimer | postConnect | syncFails
  | dropTask | interrupted | recvAgain | consume =>
    exact h.frames rfl rfl rfl rfl fun f hf _ => hf
  | setBufferSize =>
    have hm : .kConnected ∉ moves s.log := fun hm => by
      have := hres.2
      simp [resizes, mem_moves.1 hm] at this
    have hw := (hI.life.waiting hm).2
    exact .quiet h.idle hw.delivered (serves_of_quiet hw.quiet)
  | destroy sch hctl _ hch hdel =>
    exact .quiet (by simp [hch]) (by simp [hdel, Delivers]) (by simp [hctl])
  | @deliver c ev hctl hdel hc hreg =>
    have hh : s.handle ≠ none := fun hn => by
      have := h.idle hn c hc
      simp [St.isIdle, hreg] at this
    refine ⟨h.idle, by simp [hctl], fun ev' hev hw => ?_, by simp [hctl], by simp [hctl]⟩
    simp only [Option.some.injEq, Prod.mk.injEq] at hev
    obtain ⟨hrole, rfl⟩ := hev
    have hm : .kConnected ∈ moves s.log := by
      by_contra hm
      have := (hI.life.waiting hm).2.channel c hc
      simp [hrole] at this
    -- a write event is reported only with write interest
    have hwr : c.writing = true := by
      simp only [St.spurious, hw, St.armed, hc, hreg, Bool.true_and, Bool.not_eq_false'] at hspur
      exact hspur
    exact (hF.interest hh hm).pending (by simp [hctl]) c hc hwr
  | ignore e hctl hdel => exact .quiet h.idle (by simp [Delivers]) (by simp [hctl])
  | @dispatch ev fs e hctl hdel hfs =>
    have hwrite : .writePart ∈ fs → s.pending ≠ [] := fun hf => by
      cases hfs with
      | write hw => exact h.reported ev hdel hw
      | close err | read => split_ifs at hf <;> simp at hf
    have hdrain : ∀ f ∈ fs, f.drains = false := by
      cases hfs with
      | close | write | read => split_ifs <;> simp [Frame.drains]
    refine ⟨h.idle, fun _ => rfl, by simp, hwrite, ?_⟩
    rintro ⟨f, hf, hd⟩
    simp [hdrain f hf] at hd
  | connectFails w e err hctl =>
    exact .quiet (by simp) (by simp [Delivers]) (serves_of_light (light_callFrames _ _))
  | connects hc => exact connects hI hres.1 hc
  | starts hs hu =>
    obtain ⟨hch, hdel, hq⟩ := hs.waiting hI hres.1
    have hctl := ctl_start hu
    refine .quiet ?_ ?_ ?_
    · rcases St.start_ok hu with ⟨rfl, -⟩ | ⟨hh, r, w, wr, -, -, rfl⟩
      · simp [hch]
      · exact fun hn => absurd hn hh
    · rcases St.start_ok hu with ⟨rfl, -⟩ | ⟨hh, r, w, wr, -, -, rfl⟩ <;> simp [hdel, Delivers]
    · rw [hctl]
      exact List.forall_mem_append.2
        ⟨serves_of_light (light_callFrames _ _), serves_of_quiet hq⟩
  | closes hc hd hopen => exact h.closes hstack hclose hc hd hopen
  | passes hc =>
    cases hc with
    | handler hctl | failed hctl =>
      exact h.leave [] hctl (by simp) rfl rfl rfl rfl rfl
    | user | task => exact h.frames rfl rfl rfl rfl fun f hf _ => hf
  | @shuts _ t _ hs _ _ hh hok =>
    have hbase : Backed t := by
      cases hs <;> exact h.frames rfl rfl rfl rfl fun f hf _ => hf
    rcases St.shutdownInPoll_ok hok with rfl | ⟨-, -, -, ch, w, l, tid, nid, sch, -, rfl⟩
    · exact hbase
    · exact hbase.keep (fun hn => absurd hn hh) (fun hn => hn) rfl (fun hp => hp) fun f hf _ => hf
  | leave hctl => exact h.leave [] hctl (by simp) rfl rfl rfl rfl rfl
  | beginWrite hctl =>
    have hdel := h.apart ⟨.writePart, by simp [hctl], rfl⟩
    have hp := h.waits (by simp [hctl])
    exact ⟨h.idle, fun _ => hdel, fun ev hev => by simp [hdel] at hev, fun _ => hp, fun _ _ => hp⟩
  | endLow hctl =>
    have hmem : .afterLow ∈ s.ctl := by simp [hctl]
    have hdel := h.apart ⟨_, hmem, rfl⟩
    refine ⟨h.idle, fun _ => hdel, fun ev hev => by simp [hdel] at hev, fun hf => ?_,
      fun _ => h.drains ⟨_, hmem, rfl⟩⟩
    exact h.waits (by simpa [hctl] using hf)
  | endHigh hctl => exact h.leave [] hctl (by simp) rfl rfl rfl rfl rfl
  | @endClose rest hctl =>
    obtain ⟨rel, he, -⟩ := St.releaseChannel_eq { s with ctl := rest }
    rw [he]
    refine h.keep (by simp) (fun hn => hn) rfl (fun hp => hp) fun f hf _ => ?_
    exact hctl ▸ List.mem_cons_of_mem _ hf
  | @drained rest b _ hctl hb h0 hok =>
    obtain rfl : rest = [] := by
      have := hstack.stacked
      rwa [hctl] at this
    have hmem : .writeLoop ∈ s.ctl := by simp [hctl]
    have hdel := h.apart ⟨_, hmem, rfl⟩
    have hp : s.pending = [] := by
      simpa [St.pending, hb] using (hF.wf b hb).readable_eq_nil_iff.2 h0
    have hh : s.handle ≠ none := fun hn => h.drains ⟨_, hmem, rfl⟩ hn hp
    obtain ⟨b', -, ⟨-, rfl⟩ | ⟨-, c, c', w, -, -, -, -, -, rfl⟩⟩ := St.writeTail_ok hok
    · exact .quiet h.idle (by simp [hdel, Delivers]) (by simp)
    · exact .quiet (fun hn => absurd hn hh) (by simp [hdel, Delivers]) (by simp)
  | @wrote rest b n _ hctl hb hpos hle hh hok =>
    obtain rfl : rest = [] := by
      have := hstack.stacked
      rwa [hctl] at this
    have hdel := h.apart ⟨.writeLoop, by simp [hctl], rfl⟩
    obtain ⟨b, b', -, -, fs, l, rfl, hfs⟩ := St.wrote_ok hok
    refine ⟨fun hn => absurd hn hh, fun _ => hdel, fun ev hev => ?_, fun hf => ?_,
      fun _ hn => absurd hn hh⟩
    · have hev : s.delivered = some (.established, ev) := hev
      simp [hdel] at hev
    · rcases hfs with ⟨rfl, -⟩ | ⟨rfl, -⟩ | ⟨rfl, -⟩ <;> simp [St.note] at hf
  | writeBlocked hctl => exact h.leave [] hctl (by simp) rfl rfl rfl rfl rfl
  | sentSome hctl =>
    exact h.leave [.sendLoop _ _] hctl (by simp [Frame.serves]) rfl rfl rfl rfl rfl
  | beginSend hs =>
    have hctl : ∀ m, ∀ f ∈ Frame.sendLoop m 0 :: s.ctl, f.serves = true → f ∈ s.ctl := fun m =>
      serves_append [.sendLoop m 0] (by simp [Frame.serves]) fun f hf => hf
    cases hs <;> exact h.frames rfl rfl rfl rfl (hctl _)
  | dropSend hs => cases hs <;> exact h.frames rfl rfl rfl rfl fun f hf _ => hf
  | queues hq hok => exact h.queues hI hF hq hok
  | sentAll hend _ hok =>
    refine Backed.checkHigh ?_ hok
    cases hend with
    | goal hctl | blocked hctl => exact h.leave [] hctl (by simp) rfl rfl rfl rfl rfl
  | received hctl =>
    exact h.leave [.readLoop true] hctl (by simp [Frame.serves]) rfl rfl rfl rfl rfl
  | @recvEnd hasNewData shouldClose rest _ _ _ _ err e hctl =>
    have hfs : ∀ f ∈ St.callFrames (hasNewData && s.onMessage) .message ++
        [Frame.afterMessage shouldClose err], f.serves = false :=
      List.forall_mem_append.2 ⟨serves_of_light (light_callFrames _ _), by simp [Frame.serves]⟩
    exact h.leave _ hctl hfs rfl rfl rfl rfl (by simp)

/-! ### Whole runs -/

theorem backed_of_init (h₀ : Init s₀) : Backed s₀ := by
  cases h₀ with
  | server h onConn =>
    exact Backed.quiet (s := accepted h onConn) (by simp [accepted, new])
      (by simp [accepted, new, Delivers]) (by simp [accepted, new])
  | client =>
    exact Backed.quiet (s := new none) (by simp [new]) (by simp [new, Delivers]) (by simp [new])

/-- What is known in every state of such a run. -/
theorem backed_of_reach (h₀ : Init s₀) (h : (machine A K).ReachIf Careful (.ok s₀) (.ok s)) :
    Inv s ∧ Flow s ∧ Backed s := by
  have hflow : ∀ s, (machine A K).ReachIf Careful (.ok s₀) (.ok s) →
      Inv s ∧ Flow s ∧ WellStacked s.ctl := fun s hr =>
    have hno := hr.mono fun _ _ hG => hG.1.1
    ⟨inv_of_reach h₀ (hno.mono fun _ _ hG => hG.1), flow_of_reach h₀ hno,
      stacked_of_reach h₀ hr.reach⟩
  refine ⟨(hflow s h).1, (hflow s h).2.1, ?_⟩
  exact invariant_ok h hflow (backed_of_init h₀) fun _ _ _ hJ ih hG hst =>
    ih.step hJ.1 hJ.2.1 hJ.2.2 hG (step_cases hst)

/-- Where the channel is used, it is there. -/
theorem UsesChannel.ne_none (h : UsesChannel s) (hI : Inv s) (hF : Flow s) (hB : Backed s) :
    s.channel ≠ none := by
  have hopen : ∀ {pre}, Open s pre → s.channel ≠ none := fun ho => by
    obtain ⟨c, hc, -⟩ := ho.channel
    simp [hc]
  cases h with
  | @write rest b hctl hb h0 =>
    have hp : s.pending = [] := by
      simpa [St.pending, hb] using (hF.wf b hb).readable_eq_nil_iff.2 h0
    have hh : s.handle ≠ none := fun hn => hB.drains ⟨.writeLoop, by simp [hctl], rfl⟩ hn hp
    obtain ⟨pre, ho⟩ := hI.life.isOpen (Flow.started_of_frame hI hctl rfl) hh
    exact hopen ho
  | send hctl =>
    obtain ⟨pre, ho, -⟩ := hI.life.isUp (hF.loop _ _ _ hctl).1
    exact hopen ho

/-- **The handlers never use an absent channel.**  In every run in which the poller reports write
events only to a channel with write interest, whatever the callbacks do and whatever `::send` and
`::recv` return: no handler uses a channel that is not there, provided that a connection is not
closed from inside a low notification that was called with nothing left to write. -/
theorem channel_present {c : Except Crash St} (h₀ : Init s₀)
    (h : (machine A K).ReachIf Careful (.ok s₀) c) : c ≠ .error .nullChannel := by
  rintro rfl
  cases h with
  | @tail c _ a hr hG hst =>
    cases c with
    | error e => cases hst
    | ok s =>
      obtain ⟨hI, hF, hB⟩ := backed_of_reach h₀ hr
      obtain ⟨hnone, huse⟩ := nullChannel_cases (machine_step hst)
      exact huse.ne_none hI hF hB hnone

/-- An accepted connection with the watermarks 4 and 2; five bytes are sent and not accepted, the
high notification returns, the socket has room again, and all of them are accepted: the low
notification is called with an empty buffer. -/
def drainAll : List Act :=
  [.runTask .badAddress, .setWatermark 4 2, .setWatermarkCallback,
    .send ⟨[1, 2, 3, 4, 5], by decide⟩, .sendRet (.error EAGAIN), .ret, .tau, .setWritable true,
    .deliver ⟨false, true, false, false⟩, .dispatch, .tau, .sendRet (.accepted 5)]

/-- The low notification sends a byte, and closes the connection before it is accepted. -/
def refillAndClose : List Act :=
  drainAll ++ [.send ⟨[6], by decide⟩, .setWritable false, .sendRet (.error EAGAIN), .close]

theorem channel_present_refill : ∃ s : St, s.channel = none ∧ .afterLow ∈ s.ctl ∧
    ∀ c, (machine .zeroed .linux).ReachIf Careful (.ok s) c → c ≠ .error .nullChannel := by
  obtain ⟨s, hs, hp⟩ := reachIf_of_endsIn (A := .zeroed) (K := .linux) (G := Careful)
    (accepted 5 false) refillAndClose
    (p := fun s => s.channel = none ∧ .afterLow ∈ s.ctl) (by decide +kernel) (by decide +kernel)
  obtain ⟨h1, h2⟩ := of_decide_eq_true hp
  exact ⟨s, h1, h2, fun c hc => channel_present (.server 5 false) (hs.trans hc)⟩

/-- A run has ended in the use of a channel that is not there. -/
def endsNull : Except Crash St → Bool
  | .error e => e = .nullChannel
  | .ok _ => false

/-- The low notification closes the connection: `handle_write_event_` goes on with an empty buffer
and uses the channel that `cleanup_` has taken away. -/
theorem channel_absent_after_drain :
    (machine .zeroed .linux).ReachIf Reported (.ok (accepted 5 false)) (.error .nullChannel) := by
  obtain ⟨c, hc, hp⟩ := Machine.ReachIf.of_endsIn (M := machine .zeroed .linux) (G := Reported)
    (s := .ok (accepted 5 false)) (drainAll ++ [Act.close, .ret, .tau, .tau])
    (p := endsNull) (by decide +kernel) (by decide +kernel)
  cases c with
  | ok s => cases hp
  | error e =>
    obtain rfl := of_decide_eq_true hp
    exact hc

end

end Conn

end CxpNet
