import CxpNet.Conn.Life

/-!
# The lifecycle of an established connection

* `Conn.inv_of_reach` : a one-shot connection always stands at some point of its `Life`;
* `Conn.lifecycle` : over the whole life of a connection on which `start_` has taken effect, the
  socket is closed at most once, the close callbacks run at most once, in order and after the
  socket is closed, and nothing happens after the first `kDisconnected`.
-/

namespace CxpNet

namespace Conn

/-! ### Steps that leave the connection where it is -/

namespace Idles

variable {A : Allocator} {K : Kernel} {s s' t : St}

theorem refl (s : St) : Idles s s :=
  ⟨rfl, .refl _, id, id, ⟨[], by simp, by simp⟩, id⟩

theorem trans {s₁ s₂ s₃ : St} (h : Idles s₁ s₂) (h' : Idles s₂ s₃) : Idles s₁ s₃ := by
  obtain ⟨l, hl, hp⟩ := h.log
  obtain ⟨l', hl', hp'⟩ := h'.log
  have hst : s₂.state = s₁.state := congrArg Core.state h.core
  have hh : s₂.handle = s₁.handle := congrArg Core.handle h.core
  refine ⟨h'.core.trans h.core, ?_, h'.readBuffer ∘ h.readBuffer, h'.writeBuffer ∘ h.writeBuffer,
    ⟨l ++ l', by rw [hl', hl, List.append_assoc], fun e he => ?_⟩, h.ctl ∘ h'.ctl⟩
  · have h1 := h.channel
    have h2 := h'.channel
    cases c₁ : s₁.channel <;> cases c₂ : s₂.channel <;> cases c₃ : s₃.channel <;>
      simp_all [SameChannel]
  · rcases List.mem_append.1 he with he | he
    · exact hp e he
    · exact ⟨(hp' e he).1, fun h1 h2 => (hp' e he).2 (hst.trans h1) (hh.trans h2)⟩

/-- Frames are entered or left, and plain events recorded. -/
theorem of_ctl {ctl : List Frame} {l : List Ev} (hctl : .afterClose ∈ ctl → .afterClose ∈ s.ctl)
    (hl : ∀ e ∈ l, e.isPlain = true ∧
      (s.state = .kDisconnected → s.handle = none → e.isActive = false)) :
    Idles s { s with ctl := ctl, log := s.log ++ l } :=
  ⟨rfl, .refl _, id, id, ⟨l, rfl, hl⟩, hctl⟩

/-- Nothing that matters changes. -/
theorem of_eq (h1 : s'.core = s.core) (h2 : s'.channel = s.channel)
    (h3 : s'.readBuffer = s.readBuffer) (h4 : s'.writeBuffer = s.writeBuffer)
    (h5 : s'.log = s.log) (h6 : s'.ctl = s.ctl) : Idles s s' :=
  ⟨h1, h2 ▸ .refl _, fun h => h3 ▸ h, fun h => h4 ▸ h, ⟨[], by simp [h5], by simp⟩,
    fun h => h6 ▸ h⟩

theorem push {f : Frame} (hf : f ≠ .afterClose) : Idles s (s.push f) :=
  ⟨rfl, .refl _, id, id, ⟨[], by simp [St.push], by simp⟩, fun h => by
    rcases List.mem_cons.1 h with h | h
    · exact absurd h.symm hf
    · exact h⟩

theorem pop {f : Frame} {rest : List Frame} (h : s.ctl = f :: rest) :
    Idles s { s with ctl := rest } :=
  ⟨rfl, .refl _, id, id, ⟨[], by simp, by simp⟩, fun hm => h ▸ List.mem_cons_of_mem f hm⟩

theorem addWriteEvent (h : s.addWriteEvent = .ok s') : Idles s s' := by
  obtain ⟨c, c', w, hc, rfl, h1, h2, -, h4, -, -⟩ := St.addWriteEvent_ok h
  refine ⟨rfl, ?_, id, id, ⟨[], by simp, by simp⟩, id⟩
  rw [hc]
  exact ⟨h1, h2, fun _ => h4⟩

theorem checkHigh (h : s.checkHigh = .ok s') : Idles s s' := by
  rcases St.checkHigh_ok h with rfl | rfl | rfl
  · exact .refl _
  · exact ⟨rfl, .refl _, id, id, ⟨[], by simp, by simp⟩, id⟩
  · exact .of_ctl (by simp) (by simp [Ev.isPlain, Ev.isClosing, Ev.isOutcome, Ev.isActive])

theorem enqueue {bs : List UInt8} (h : s.enqueue A bs = .ok s') : Idles s s' := by
  obtain ⟨b, b', t, -, -, ht, h⟩ := St.enqueue_ok h
  have h0 : Idles s { s with writeBuffer := some b' } :=
    ⟨rfl, .refl _, id, fun _ => rfl, ⟨[], by simp, by simp⟩, id⟩
  exact h0.trans ((addWriteEvent ht).trans (checkHigh h))

theorem sendTail {m : Msg} {n : ℕ} (h : s.sendTail A m n = .ok s') : Idles s s' := by
  unfold St.sendTail at h
  split_ifs at h
  · exact enqueue h
  · exact checkHigh h

theorem sendInPollThread {m : Msg} (h : s.sendInPollThread A m = .ok s') : Idles s s' := by
  unfold St.sendInPollThread at h
  split_ifs at h
  · cases h; exact .refl _
  have h0 : Idles s (s.note (.began m.bytes)) :=
    of_ctl id (by simp [Ev.isPlain, Ev.isClosing, Ev.isOutcome, Ev.isActive])
  dsimp only at h
  split at h
  · split_ifs at h
    · exact h0.trans (enqueue h)
    · cases h
      exact h0.trans (push (by simp))
  · cases h; exact h0

theorem send {m : Msg} (h : s.send A m = .ok s') : Idles s s' := by
  unfold St.send at h
  split_ifs at h
  · cases h; exact .refl _
  · exact sendInPollThread h

theorem writeTail (h : s.writeTail = .ok s') : Idles s s' := by
  obtain ⟨b, -, ⟨-, rfl⟩ | ⟨-, c, c', w, hc, h1, h2, -, h4, rfl⟩⟩ := St.writeTail_ok h
  · exact .refl _
  · refine ⟨rfl, ?_, id, fun _ => rfl, ⟨_, rfl, ?_⟩, id⟩
    · rw [hc]
      exact ⟨h1, h2, h4⟩
    · split_ifs <;> simp [Ev.isPlain, Ev.isClosing, Ev.isOutcome, Ev.isActive]

theorem wrote {n : ℕ} (h : s.wrote A n = .ok s') : Idles s s' := by
  obtain ⟨b, b', -, -, fs, l, rfl, hf⟩ := St.wrote_ok h
  refine ⟨rfl, .refl _, id, fun _ => rfl, ⟨l, rfl, ?_⟩, ?_⟩
  · rcases hf with ⟨-, rfl⟩ | ⟨-, rfl⟩ | ⟨-, rfl⟩ <;>
      simp [Ev.isPlain, Ev.isClosing, Ev.isOutcome, Ev.isActive]
  · rcases hf with ⟨rfl, -⟩ | ⟨rfl, -⟩ | ⟨rfl, -⟩ <;> simp

/-- `::send` transfers bytes only over a valid handle. -/
theorem sysSend {bs : List UInt8} {r : SendRet} {x : ℤ × St}
    (h : St.sysSend K bs r s = some x) : Idles s x.2 := by
  cases r with
  | accepted n =>
    simp only [St.sysSend] at h
    split_ifs at h with hn
    cases h
    exact of_ctl id (by simp [Ev.isPlain, Ev.isClosing, Ev.isOutcome, hn.1])
  | error e =>
    simp only [St.sysSend] at h
    split_ifs at h
    cases h
    exact ⟨rfl, .refl _, id, id,
      ⟨_, rfl, by simp [Ev.isPlain, Ev.isClosing, Ev.isOutcome, Ev.isActive]⟩, id⟩

theorem readTail {a b : Bool} {err : ℕ} (hs : s.state ≠ .kDisconnected) :
    Idles s (s.readTail a b err) := by
  unfold St.readTail
  split_ifs
  · exact of_ctl (by simp) (by simp [Ev.isPlain, Ev.isClosing, Ev.isOutcome, hs])
  · exact push (by simp)

theorem recvFailed {a : Bool} (hs : s.state ≠ .kDisconnected) : Idles s (s.recvFailed a) := by
  unfold St.recvFailed
  split
  · exact readTail hs
  · exact push (by simp)
  · exact readTail hs

/-- `handle_read_event_` transfers bytes only while the connection is not closed. -/
theorem recvInto {a : Bool} {b : Buffer} {r : RecvRet} (hs : s.state ≠ .kDisconnected)
    (h : s.recvInto K a b r = some (.ok s')) : Idles s s' := by
  cases r with
  | data bs =>
    simp only [St.recvInto] at h
    split_ifs at h with hc hpos
    · obtain ⟨b', -, h⟩ := St.withBuffer_ok h
      cases h
      exact ⟨rfl, .refl _, fun _ => rfl, id,
        ⟨_, rfl, by simp [Ev.isPlain, Ev.isClosing, Ev.isOutcome, hs]⟩, by simp [St.push, St.note]⟩
    · cases h
      have h0 : Idles s (s.note (.received bs)) :=
        of_ctl id (by simp [Ev.isPlain, Ev.isClosing, Ev.isOutcome, hs])
      exact h0.trans (recvFailed hs)
  | eof =>
    simp only [St.recvInto] at h
    split_ifs at h
    cases h
    have h0 : Idles s ({ s with readBuffer := some b }.note .recvEof) :=
      ⟨rfl, .refl _, fun _ => rfl, id,
        ⟨_, rfl, by simp [Ev.isPlain, Ev.isClosing, Ev.isOutcome, Ev.isActive]⟩, id⟩
    exact h0.trans (readTail hs)
  | error e =>
    simp only [St.recvInto] at h
    split_ifs at h
    cases h
    have h0 : Idles s ({ s with readBuffer := some b, errno := e }.note (.recvError e)) :=
      ⟨rfl, .refl _, fun _ => rfl, id,
        ⟨_, rfl, by simp [Ev.isPlain, Ev.isClosing, Ev.isOutcome, Ev.isActive]⟩, id⟩
    exact h0.trans (recvFailed hs)

theorem recvRet {r : RecvRet} (h : s.recvRet A K r = some (.ok s')) : Idles s s' := by
  obtain ⟨a, rest, b, hctl, hs, h⟩ := St.recvRet_ok h
  exact (pop hctl).trans (recvInto (by simp [hs]) h)

end Idles

/-! ### The invariant -/

/-- The queue does not matter to a connection on which nothing has happened. -/
theorem Pristine.withTasks {s : St} {ts : List Task} (h : Pristine s) :
    Pristine { s with tasks := ts } :=
  ⟨h.state, h.channel, h.cleanupDone, h.timer, h.scheduled, h.extracted, h.delivered, h.quiet,
    h.moves, h.closings, h.outcomes⟩

/-- A connection stands at some point of its life, and only one that was cleaned up is in, or
before the end of, its close callback. -/
structure Inv (s : St) : Prop where
  life : Life s
  afterClose : .afterClose ∈ s.ctl → s.cleanupDone = true

namespace Inv

variable {A : Allocator} {K : Kernel} {s s' t : St}

theorem idle (h : Inv s) (hi : Idles s s')
    (hq : .kConnected ∉ moves s.log → Quiet s.ctl → Quiet s'.ctl) : Inv s' := by
  refine ⟨h.life.idle hi hq, fun hm => ?_⟩
  have hd : s'.cleanupDone = s.cleanupDone := congrArg Core.cleanupDone hi.core
  exact hd.trans (h.afterClose (hi.ctl hm))

/-- A step that does not enter a frame. -/
theorem still (h : Inv s) (hi : Idles s s') (hctl : s'.ctl = s.ctl) : Inv s' :=
  h.idle hi fun _ hq => hctl ▸ hq

theorem pop {f : Frame} {rest : List Frame} (h : Inv s) (hctl : s.ctl = f :: rest) :
    Inv { s with ctl := rest } :=
  h.idle (.pop hctl) fun _ hq g hg => hq g (hctl ▸ List.mem_cons_of_mem f hg)

/-- A step of a handler of the established connection. -/
theorem go_on {f : Frame} {rest : List Frame} (h : Inv s) (hctl : s.ctl = f :: rest)
    (hf : f.isQuiet = false) (hi : Idles s s') : Inv s' :=
  h.idle hi fun _ hq => by simp [hq f (by simp [hctl])] at hf

theorem cleanup (err : ℕ) (h : Inv s)
    (hrun : s.state = .kDisconnected → s.used = true ∧ setups s.tasks = []) :
    Inv (s.cleanup err) := by
  refine ⟨h.life.cleanup err hrun, fun hm => ?_⟩
  cases hd : s.cleanupDone with
  | true => rw [St.cleanup_of_done err hd]; exact hd
  | false =>
    obtain ⟨sch, ch, w, rel, he, -⟩ := St.cleanup_eq err hd
    rw [he]

theorem handleCloseEvent (err : ℕ) (h : Inv s) : Inv (s.handleCloseEvent err) := by
  unfold St.handleCloseEvent
  split_ifs with hs
  · exact h
  · exact h.cleanup err fun he => absurd he hs

theorem close (h : Inv s) : Inv s.close := by
  unfold St.close
  split_ifs with hs
  · exact h
  · exact h.cleanup 0 fun he => absurd he hs

theorem shutdownInPoll (h : Inv s) (hok : s.shutdownInPoll = .ok s') : Inv s' := by
  refine ⟨h.life.shutdownInPoll hok, fun hm => ?_⟩
  rcases St.shutdownInPoll_ok hok with rfl | ⟨-, -, -, ch, w, l, tid, nid, sch, -, rfl⟩
  · exact h.afterClose hm
  · exact h.afterClose hm

theorem shutdown (h : Inv s) (hok : s.shutdown = .ok s') : Inv s' := by
  unfold St.shutdown at hok
  split_ifs at hok
  · cases hok; exact h
  · exact h.shutdownInPoll hok

/-- After the end of a cleanup the channel does not matter any more. -/
theorem releaseChannel (h : Inv s) (hd : s.cleanupDone = true) : Inv s.releaseChannel := by
  obtain ⟨rel, he, hrel⟩ := s.releaseChannel_eq
  rw [he]
  refine ⟨?_, h.afterClose⟩
  have hset : setups s.tasks = [] → setups (s.tasks ++ rel) = [] := fun hs => by
    rw [setups_append, hs, Life.setups_release hrel, List.append_nil]
  cases h.life with
  | fresh hp | queued _ _ hp => simp [hp.cleanupDone] at hd
  | connecting _ _ _ _ _ _ _ h6 => simp [h6] at hd
  | dead hwt h1 h2 h3 h4 h5 h6 =>
    exact .dead ⟨by simp, hwt.delivered, hwt.quiet⟩ h1 h2 h3 (hset h4) h5 h6
  | up _ ho | closing _ ho => simp [ho.cleanupDone] at hd
  | down pre h1 h2 h3 h4 h5 h6 h7 h8 h9 h10 h11 =>
    exact .down pre h1 h2 h3 h4 h5 (hset h6) h7 h8 h9 h10 h11

/-- A closure is queued by a thread that has seen the connection in use. -/
theorem post {k : Task} (h : Inv s) (hk : k.isSetup = false)
    (hok : s.state ≠ .kDisconnected ∨ s.server = true ∨ s.extracted ≠ []) : Inv (s.post k) := by
  refine ⟨?_, h.afterClose⟩
  have hk' : setups [k] = [] := by simp [setups, hk]
  have hts : setups (s.tasks ++ [k]) = setups s.tasks := by
    rw [setups_append, hk', List.append_nil]
  rcases h.life.setUp_or with hset | ⟨hp, ⟨-, -, h3, -⟩ | ⟨c, rest, h1, h2, h3, h4⟩⟩
  · exact h.life.outside hset hts fun x hx => .inl hx
  · rcases hok with hok | hok | hok
    · exact absurd hp.state hok
    · simp [h3] at hok
    · exact absurd hp.extracted hok
  · refine .queued c (rest ++ [k]) hp.withTasks h1 ?_ ?_ h4
    · simp [St.post, h2]
    · rw [setups_append, h3, hk']
      rfl

/-- A closure of a connection that is set up leaves the queue. -/
theorem popTask {k : Task} {rest : List Task} (h : Inv s) (htasks : s.tasks = k :: rest)
    (hk : k.isSetup = false) : Inv { s with tasks := rest } ∧ s.used = true ∧ setups rest = [] := by
  have hts : setups rest = setups s.tasks := by simp [htasks, setups, hk]
  rcases h.life.setUp_or with hset | ⟨-, ⟨-, -, -, h4⟩ | ⟨c, r, -, h2, -, h4⟩⟩
  · exact ⟨⟨h.life.outside hset hts fun x hx => .inl hx, h.afterClose⟩, hset.1,
      hts.trans hset.2⟩
  · simp [htasks] at h4
  · rw [htasks] at h2
    cases h2
    rcases h4 with ⟨⟨b, rfl⟩, -⟩ | rfl <;> simp [Task.isSetup] at hk

/-- The timer thread moves the connection's timers. -/
theorem timers {sch ext : List ℕ} (h : Inv s) (hne : s.scheduled ≠ [] ∨ s.extracted ≠ []) :
    Inv { s with scheduled := sch, extracted := ext } := by
  refine ⟨h.life.outside (h.life.setUp_of_not_pristine fun hp => ?_) rfl fun x hx => .inl hx,
    h.afterClose⟩
  rcases hne with hne | hne
  · exact hne hp.scheduled
  · exact hne hp.extracted

/-- The poller reports events of the channel. -/
theorem deliver {c : Channel} {ev : Events} {w : Bool} (h : Inv s) (hc : s.channel = some c) :
    Inv { s with delivered := some (c.role, ev), writeReady := w } := by
  refine ⟨h.life.outside (h.life.setUp_of_not_pristine fun hp => ?_) rfl fun x hx => ?_,
    h.afterClose⟩
  · simp [hp.channel] at hc
  · cases hx
    exact .inr ⟨c, hc, rfl⟩

/-- The events are dispatched. -/
theorem undeliver {x : Role × Events} (h : Inv s) (hd : s.delivered = some x) :
    Inv { s with delivered := none } := by
  refine ⟨h.life.outside (h.life.setUp_of_not_pristine fun hp => ?_) rfl nofun, h.afterClose⟩
  simp [hp.delivered] at hd

/-- `~Conn` closes a socket only if the connection was never started. -/
theorem destroy (h : Inv s) (htasks : s.tasks = []) (hch : s.channel = none) :
    Inv { s.cancelCloseTimeout.closeSocket with alive := false } := by
  have hidle : s.closeTimerId = 0 → s.handle = none →
      Inv { s.cancelCloseTimeout.closeSocket with alive := false } := fun ht hh => by
    have he : s.cancelCloseTimeout.closeSocket = s := by
      rw [St.cancelCloseTimeout, if_pos ht]
      simp [St.closeSocket, hh]
    rw [he]
    exact h.still (.of_eq rfl rfl rfl rfl rfl rfl) rfl
  cases h.life with
  | fresh hp _ hh => exact hidle hp.timer hh
  | queued _ _ _ _ h2 => simp [htasks] at h2
  | connecting _ _ _ _ _ h4 => simp [hch] at h4
  | up _ ho | closing _ ho =>
    obtain ⟨c, hc, -⟩ := ho.channel
    simp [hch] at hc
  | down _ _ _ hh ht => exact hidle ht hh
  | dead hwt h1 h2 h3 h4 h5 h6 =>
    obtain ⟨sch, he⟩ := s.cancelCloseTimeout_eq
    rw [he, St.closeSocket_eq]
    refine ⟨.dead ⟨hwt.channel, hwt.delivered, hwt.quiet⟩ h1 h2 h3 h4 ?_ ?_, h.afterClose⟩
    · rw [moves_append, St.closeLog]
      split <;> simpa [moves] using h5
    · rw [outcomes_append, St.closeLog]
      split <;> simpa [outcomes, Ev.isOutcome] using h6

/-- A connection that has not been used is `fresh`. -/
theorem fresh_of_unused (h : Inv s) (hu : s.used = false) : Pristine s ∧ s.handle = none ∧
    s.server = false ∧ s.tasks = [] ∧ .afterClose ∉ s.ctl := by
  have hout : Pristine s → .afterClose ∉ s.ctl := fun hp hm => by
    simpa [hp.cleanupDone] using h.afterClose hm
  rcases h.life.setUp_or with ⟨h1, -⟩ | ⟨hp, ⟨-, h2, h3, h4⟩ | ⟨c, rest, h1, -⟩⟩
  · simp [hu] at h1
  · exact ⟨hp, h2, h3, h4, hout hp⟩
  · simp [hu] at h1

/-- Nothing is sent before `start_` has taken effect. -/
theorem sendInPollThread {m : Msg} (h : Inv s) (hok : s.sendInPollThread A m = .ok s') :
    Inv s' := by
  refine h.idle (.sendInPollThread hok) fun hm hq => ?_
  rw [St.sendInPollThread, if_pos (h.life.waiting hm).1] at hok
  cases hok
  exact hq

theorem send {m : Msg} (h : Inv s) (hok : s.send A m = .ok s') : Inv s' := by
  unfold St.send at hok
  split_ifs at hok
  · cases hok; exact h
  · exact h.sendInPollThread hok

/-! ### One step -/

theorem tau (h : Inv s) (hst : s.tau A = some (.ok s')) : Inv s' := by
  unfold St.tau at hst
  split at hst
  · rename_i err rest hctl
    cases hst
    exact (h.pop hctl).handleCloseEvent err
  · rename_i rest hctl
    cases hst
    exact h.go_on hctl rfl ((Idles.pop hctl).trans (.push nofun))
  · rename_i a rest hctl
    split_ifs at hst
    cases hst
    exact h.pop hctl
  · rename_i shouldClose err rest hctl
    cases hst
    split_ifs
    · exact (h.pop hctl).handleCloseEvent err
    · exact h.pop hctl
  · rename_i rest hctl
    split at hst
    · cases hst
    · split_ifs at hst
      exact h.go_on hctl rfl
        ((Idles.pop hctl).trans (.writeTail (Option.some.inj hst)))
  · rename_i rest hctl
    cases hst
    have h1 : Idles { s with ctl := rest } { s with warning := false, ctl := rest } :=
      .of_eq rfl rfl rfl rfl rfl rfl
    exact h.go_on hctl rfl
      ((Idles.pop hctl).trans (h1.trans (.push (f := .writeLoop) nofun)))
  · rename_i m n rest hctl
    split_ifs at hst
    exact h.go_on hctl rfl ((Idles.pop hctl).trans (.sendTail (Option.some.inj hst)))
  · rename_i rest hctl
    cases hst
    exact (h.pop hctl).still (.of_eq rfl rfl rfl rfl rfl rfl) rfl
  · rename_i rest hctl
    cases hst
    have hd : s.cleanupDone = true := h.afterClose (by simp [hctl])
    exact (h.pop hctl).releaseChannel hd
  · cases hst
  · cases hst

section

variable {f : Frame} {rest : List Frame}

theorem writeRet {n : ℤ} (h : Inv s) (hctl : s.ctl = f :: rest) (hq : f.isQuiet = false)
    (hi : Inv t ∧ Idles s t) (hst : t.writeRet A n = .ok s') : Inv s' := by
  unfold St.writeRet at hst
  split_ifs at hst
  · exact h.go_on hctl hq (hi.2.trans (.wrote hst))
  · split at hst
    · exact h.go_on hctl hq (hi.2.trans (.writeTail hst))
    · cases hst; exact h.go_on hctl hq (hi.2.trans (.push nofun))
    · cases hst; exact hi.1.handleCloseEvent _

theorem sendLoopRet {m : Msg} {k : ℕ} {n : ℤ} (h : Inv s) (hctl : s.ctl = f :: rest)
    (hq : f.isQuiet = false) (hi : Inv t ∧ Idles s t) (hst : t.sendLoopRet A m k n = .ok s') :
    Inv s' := by
  unfold St.sendLoopRet at hst
  split_ifs at hst
  · cases hst; exact h.go_on hctl hq (hi.2.trans (.push nofun))
  · exact h.go_on hctl hq (hi.2.trans (.sendTail hst))
  · split at hst
    · exact h.go_on hctl hq (hi.2.trans (.sendTail hst))
    · cases hst; exact h.go_on hctl hq (hi.2.trans (.push nofun))
    · cases hst; exact hi.1.handleCloseEvent _

/-- A handler gives bytes to the kernel. -/
theorem sysSend {bs : List UInt8} {r : SendRet} {x : ℤ × St} (h : Inv s)
    (hctl : s.ctl = f :: rest) (hq : f.isQuiet = false)
    (hx : St.sysSend K bs r { s with ctl := rest } = some x) : Inv x.2 ∧ Idles s x.2 :=
  have hi : Idles s x.2 := (Idles.pop hctl).trans (.sysSend hx)
  ⟨h.go_on hctl hq hi, hi⟩

end

theorem sendRet {r : SendRet} (h : Inv s) (hst : s.sendRet A K r = some (.ok s')) : Inv s' := by
  unfold St.sendRet at hst
  split at hst
  · rename_i rest hctl
    split at hst
    · cases hst
    · split_ifs at hst
      obtain ⟨x, hx, hst⟩ := Option.map_eq_some_iff.1 hst
      exact h.writeRet hctl rfl (h.sysSend hctl rfl hx) hst
  · rename_i m n rest hctl
    split_ifs at hst
    obtain ⟨x, hx, hst⟩ := Option.map_eq_some_iff.1 hst
    exact h.sendLoopRet hctl rfl (h.sysSend hctl rfl hx) hst
  · cases hst

theorem recvRet {r : RecvRet} (h : Inv s) (hst : s.recvRet A K r = some (.ok s')) : Inv s' := by
  obtain ⟨a, rest, b, hctl, -⟩ := St.recvRet_ok hst
  exact h.go_on hctl rfl (.recvRet hst)

/-- While `cleanup_` has not run, no close callback is in progress. -/
theorem not_afterClose (h : Inv s) (hd : s.cleanupDone = false) : .afterClose ∉ s.ctl :=
  fun hm => by simpa [hd] using h.afterClose hm

theorem mem_callFrames {b : Bool} {cb : Callback} {ctl : List Frame}
    (h : .afterClose ∈ St.callFrames b cb ++ ctl) : .afterClose ∈ ctl := by
  cases b <;> simpa [St.callFrames] using h

/-- `start_`, and the callback called after it. -/
theorem start {b : Bool} {cb : Callback} {l : List Ev} (hs : s.start A = .ok t)
    (hout : .afterClose ∉ s.ctl)
    (hlife : Life { t with ctl := St.callFrames b cb ++ t.ctl, log := t.log ++ l }) :
    Inv { t with ctl := St.callFrames b cb ++ t.ctl, log := t.log ++ l } := by
  refine ⟨hlife, fun hm => absurd (mem_callFrames hm) ?_⟩
  rcases St.start_ok hs with ⟨rfl, -⟩ | ⟨-, r, w, wr, -, -, rfl⟩
  · exact hout
  · exact hout

/-- `start_` of a connection on which nothing has happened. -/
theorem start_of_pristine {b : Bool} {cb : Callback} (hp : Pristine s) (hused : s.used = true)
    (hh : s.handle ≠ none) (hset : setups s.tasks = []) (hout : .afterClose ∉ s.ctl)
    (hcb : cb = .conn) (hs : s.start A = .ok t) : Inv (if b then t.call cb none else t) := by
  rw [St.callIf_eq]
  refine start hs hout (Life.start hused hh (by simp [hp.state]) hp.timer hp.delivered hset
    (.inl rfl) hp.moves hp.closings hp.outcomes hs _ _ (Life.moves_callLog ..) ?_
    (Life.length_outcomes_callLog ..))
  subst hcb
  cases b <;> rfl

theorem handleConnectEvent (h : Inv s) (hdel : s.delivered = none)
    (hok : s.handleConnectEvent A = .ok s') : Inv s' := by
  have hlife := h.life.handleConnectEvent hdel hok
  rcases St.handleConnectEvent_ok hok with ⟨-, rfl⟩ | ⟨-, -, w, e, rfl⟩ | ⟨hs, -, w, e, t, ht, rfl⟩
  · exact h
  · exact ⟨hlife, fun hm => h.afterClose (mem_callFrames hm)⟩
  · have hd : s.cleanupDone = false := by
      cases h.life with
      | fresh hp | queued _ _ hp => exact hp.cleanupDone
      | connecting _ _ _ _ _ _ _ h6 => exact h6
      | dead _ _ _ h3 => exact absurd hs h3
      | up _ ho | closing _ ho => exact ho.cleanupDone
      | down _ _ h2 => simp [h2] at hs
    exact start (s := { s with
      soError := e, channel := none, writeReady := w, log := s.log ++ s.deregisterLog }) ht
      (h.not_afterClose hd) hlife

theorem handleEvent {role : Role} {ev : Events} (h : Inv s) (hdel : s.delivered = none)
    (hrole : role = .established → .kConnected ∈ moves s.log)
    (hok : s.handleEvent A role ev = .ok s') : Inv s' := by
  rcases St.handleEvent_ok hok with ⟨-, -, e, rfl⟩ | ⟨-, hok⟩ | ⟨hr, e, fs, hfs, rfl⟩
  · exact h.still (.of_eq rfl rfl rfl rfl rfl rfl) rfl
  · exact h.handleConnectEvent hdel hok
  · refine h.idle ⟨rfl, .refl _, id, id, ⟨[], by simp, by simp⟩, fun hm => ?_⟩
      fun hm => absurd (hrole hr) hm
    rcases List.mem_append.1 hm with hm | hm
    · cases hfs <;> cases hr : ev.read <;> simp [hr] at hm
    · exact hm

/-- **`dispatch`**: events of an established channel reach a connection that was started. -/
theorem dispatch {role : Role} {ev : Events} (h : Inv s) (hd : s.delivered = some (role, ev))
    (hok : { s with delivered := none }.handleEvent A role ev = .ok s') : Inv s' := by
  refine (h.undeliver hd).handleEvent rfl (fun hr => ?_) hok
  by_contra hm
  have := (h.life.waiting hm).2.delivered _ hd
  simp [hr] at this

theorem startConnectInPoll (r : ConnectRet) (hused : s.used = true) (hp : Pristine s)
    (hset : setups s.tasks = []) (hout : .afterClose ∉ s.ctl) : Inv (s.startConnectInPoll r) := by
  refine ⟨Life.startConnectInPoll r hused hp hset, fun hm => absurd ?_ hout⟩
  rcases s.startConnectInPoll_eq r with ⟨err, he⟩ | ⟨k, w, he⟩ <;> rw [he] at hm
  · rw [St.connectFailed_eq] at hm
    exact mem_callFrames hm
  · exact hm

/-- The closure that sets the connection up, at the head of the queue. -/
theorem setup {k : Task} {rest : List Task} (h : Inv s) (htasks : s.tasks = k :: rest)
    (hk : k.isSetup = true) : Pristine s ∧ s.used = true ∧ setups rest = [] ∧
      ((∃ b, k = .start b) ∧ s.handle ≠ none ∨ k = .connect) := by
  rcases h.life.setUp_or with ⟨-, hset⟩ | ⟨hp, ⟨-, -, -, h4⟩ | ⟨c, r, h1, h2, h3, h4⟩⟩
  · simp [htasks, setups, hk] at hset
  · simp [htasks] at h4
  · rw [htasks] at h2
    cases h2
    exact ⟨hp, h1, h3, h4⟩

theorem runTask {r : ConnectRet} (h : Inv s) (hst : s.runTask A r = some (.ok s')) : Inv s' := by
  unfold St.runTask at hst
  split at hst
  · cases hst
  · rename_i k rest htasks
    cases k with
    | start b =>
      obtain ⟨hp, hused, hset, ⟨-, hh⟩ | hc⟩ := h.setup htasks rfl
      · have hout := h.not_afterClose hp.cleanupDone
        obtain ⟨t, ht, rfl⟩ := map_ok (Option.some.inj hst)
        exact start_of_pristine (s := { s with tasks := rest }) hp.withTasks hused hh hset hout rfl
          ht
      · cases hc
    | connect =>
      obtain ⟨hp, hused, hset, -⟩ := h.setup htasks rfl
      have hout := h.not_afterClose hp.cleanupDone
      cases hst
      exact startConnectInPoll r hused hp.withTasks hset hout
    | send m =>
      obtain ⟨h, -⟩ := h.popTask htasks rfl
      exact h.sendInPollThread (Option.some.inj hst)
    | shutdown =>
      obtain ⟨h, -⟩ := h.popTask htasks rfl
      exact h.shutdownInPoll (Option.some.inj hst)
    | cleanup err =>
      obtain ⟨h, hused, hset⟩ := h.popTask htasks rfl
      cases hst
      exact h.cleanup err fun _ => ⟨hused, hset⟩
    | release =>
      obtain ⟨h, -⟩ := h.popTask htasks rfl
      cases hst
      exact h

/-- `connect` is accepted once, when nothing has happened yet. -/
theorem beginConnect {a b : Bool} (h : Inv s) (hshot : s.state = .kDisconnected → s.used = false)
    (hb : s.beginConnect a b = some t) : Pristine t ∧ t.used = true ∧ t.tasks = [] ∧
      .afterClose ∉ t.ctl := by
  unfold St.beginConnect at hb
  split_ifs at hb with hs
  obtain ⟨⟨p1, p2, -, p4, p5, p6, p7, p8, p9, p10, p11⟩, -, -, htasks, hout⟩ :=
    h.fresh_of_unused (hshot hs)
  cases hb
  exact ⟨⟨p1, p2, rfl, p4, p5, p6, p7, p8, p9, p10, p11⟩, rfl, htasks, hout⟩

theorem refused (h : Inv s) : Inv (s.note .refused) :=
  h.still (.of_ctl id (by simp [Ev.isPlain, Ev.isClosing, Ev.isOutcome, Ev.isActive])) rfl

theorem connectSync {k : Option ℕ} (h : Inv s) (hs : s.state = .kDisconnected)
    (hshot : s.used = false) (hok : (match k with
      | none => some (Except.ok { s with cleanupDone := false, used := true })
      | some k => some (St.start A
          { s with cleanupDone := false, used := true, handle := some k })) = some (.ok s')) :
    Inv s' := by
  obtain ⟨hp, -, -, htasks, hout⟩ := h.fresh_of_unused hshot
  have hset : setups s.tasks = [] := by rw [htasks]; rfl
  cases k with
  | none =>
    cases hok
    refine ⟨.dead ⟨by simp [hp.channel], by simp [hp.delivered, Delivers], hp.quiet⟩ rfl
      (by simp [hs]) (by simp [hs]) hset ?_ ?_, fun hm => absurd hm hout⟩
    · simp [hp.moves]
    · simp [hp.outcomes]
  | some k =>
    obtain ⟨p1, p2, -, p4, p5, p6, p7, p8, p9, p10, p11⟩ := hp
    exact start_of_pristine (b := false)
      (s := { s with cleanupDone := false, used := true, handle := some k })
      ⟨p1, p2, rfl, p4, p5, p6, p7, p8, p9, p10, p11⟩ rfl (by simp) hset hout rfl
      (Option.some.inj hok)

/-- `set_read_write_buffer_size` -/
theorem setBufferSize {r w : ℕ} (h : Inv s) (hok : s.setBufferSize A r w = .ok s') : Inv s' := by
  unfold St.setBufferSize at hok
  split_ifs at hok
  · split at hok
    · cases hok
      exact h.still ⟨rfl, .refl _, fun _ => rfl, fun _ => rfl, ⟨[], by simp, by simp⟩, id⟩ rfl
    · cases hok
  · cases hok; exact h

theorem userStep {a : Act} (h : Inv s) (hshot : OneShot (.ok s) a)
    (hst : s.userStep A a = some (.ok s')) : Inv s' := by
  cases a with
  | ret =>
    simp only [St.userStep] at hst
    split at hst
    · rename_i hctl
      cases hst
      exact h.pop hctl
    · cases hst
  | send m => exact h.send (Option.some.inj hst)
  | shutdown => exact h.shutdown (Option.some.inj hst)
  | close => cases hst; exact h.close
  | consume k =>
    simp only [St.userStep] at hst
    split at hst
    · obtain ⟨b, -, hst⟩ := St.withBuffer_ok hst
      cases hst
      exact h.still ⟨rfl, .refl _, fun _ => rfl, id, ⟨[], by simp, by simp⟩, id⟩ rfl
    · cases hst
  | connect a b r =>
    simp only [St.userStep] at hst
    split at hst
    · rename_i t ht
      obtain ⟨hp, hused, htasks, hout⟩ := h.beginConnect hshot ht
      cases hst
      exact startConnectInPoll r hused hp (by rw [htasks]; rfl) hout
    · cases hst; exact h.refused
  | connectSync k =>
    simp only [St.userStep] at hst
    split_ifs at hst with hs
    · cases hst; exact h
    · rw [not_not] at hs
      exact h.connectSync hs (hshot hs) hst
  | setCallbacks | setWatermarkCallback | setCloseTimeout =>
    cases hst
    exact h.still (.of_eq rfl rfl rfl rfl rfl rfl) rfl
  | setWatermark high low =>
    simp only [St.userStep] at hst
    split_ifs at hst
    · cases hst; exact h
    · cases hst; exact h.still (.of_eq rfl rfl rfl rfl rfl rfl) rfl
  | setBufferSize r w => exact h.setBufferSize (Option.some.inj hst)
  | _ => cases hst

theorem otherStep {a : Act} (h : Inv s) (hshot : OneShot (.ok s) a)
    (hst : s.otherStep A a = some (.ok s')) : Inv s' := by
  cases a with
  | setWritable | sockError | stopTimers =>
    cases hst
    exact h.still (.of_eq rfl rfl rfl rfl rfl rfl) rfl
  | deliver ev =>
    simp only [St.otherStep] at hst
    split at hst
    · rename_i hc
      split_ifs at hst
      cases hst
      exact h.deliver hc
    · cases hst
  | dispatch =>
    simp only [St.otherStep] at hst
    split at hst
    · rename_i hd
      exact h.dispatch hd (Option.some.inj hst)
    · cases hst
  | runTask r =>
    simp only [St.otherStep] at hst
    split at hst
    · exact h.runTask hst
    · cases hst
  | postSend m =>
    cases hst
    split_ifs with hs
    · exact h
    · exact h.post rfl (.inl (by simp_all))
  | postShutdown =>
    cases hst
    split_ifs with hs
    · exact h
    · exact h.post rfl (.inl (by simp_all))
  | postClose =>
    cases hst
    split_ifs with hs
    · exact h
    · exact h.post rfl (.inl hs)
  | postConnect a b =>
    simp only [St.otherStep] at hst
    split at hst
    · rename_i t ht
      obtain ⟨hp, hused, htasks, hout⟩ := h.beginConnect hshot ht
      cases hst
      refine ⟨.queued .connect [] hp.withTasks hused ?_ rfl (.inr rfl), fun hm => absurd hm hout⟩
      simp [St.post, htasks]
    · cases hst; exact h.refused
  | serverShutdown =>
    simp only [St.otherStep] at hst
    split_ifs at hst with hs
    cases hst
    exact h.post rfl (.inr (.inl hs))
  | serverCleanup =>
    simp only [St.otherStep] at hst
    split_ifs at hst with hs
    cases hst
    exact h.post rfl (.inr (.inl hs))
  | extractTimer id =>
    simp only [St.otherStep] at hst
    split_ifs at hst with hs
    cases hst
    exact h.timers (.inl (List.ne_nil_of_mem hs.1))
  | fireTimer id =>
    simp only [St.otherStep] at hst
    split_ifs at hst with hs
    cases hst
    -- the closure is queued before the timer leaves the list, for the sake of `post`
    have hne := List.ne_nil_of_mem hs
    exact (h.post (k := .cleanup ETIMEDOUT) rfl (.inr (.inr hne))).timers (.inr hne)
  | destroy =>
    simp only [St.otherStep] at hst
    split_ifs at hst with hs
    cases hst
    exact h.destroy hs.2.1 hs.2.2.1
  | _ => cases hst

/-- **One step** of a one-shot connection. -/
theorem step {a : Act} (h : Inv s) (hshot : OneShot (.ok s) a)
    (hst : s.step A K a = some (.ok s')) : Inv s' := by
  unfold St.step at hst
  split at hst
  · exact h.tau hst
  · exact h.sendRet hst
  · exact h.recvRet hst
  all_goals first
    | exact h.otherStep hshot hst
    | (split_ifs at hst; exact h.userStep hshot hst)

end Inv

/-! ### Whole runs -/

theorem inv_of_init {s : St} (h : Init s) : Inv s := by
  cases h with
  | server k b =>
    exact ⟨.queued (.start b) [] ⟨rfl, rfl, rfl, rfl, rfl, rfl, rfl, nofun, rfl, rfl, rfl⟩ rfl rfl
      rfl (.inl ⟨⟨b, rfl⟩, by simp [accepted, new]⟩), by simp [accepted, new]⟩
  | client =>
    exact ⟨.fresh ⟨rfl, rfl, rfl, rfl, rfl, rfl, rfl, nofun, rfl, rfl, rfl⟩ rfl rfl rfl rfl,
      by simp [new]⟩

/-- **A one-shot connection always stands at some point of its life.** -/
theorem inv_of_reach {A : Allocator} {K : Kernel} {s₀ s : St} (h₀ : Init s₀)
    (h : (machine A K).ReachIf OneShot (.ok s₀) (.ok s)) : Inv s :=
  invariant_ok (J := fun _ => True) h (fun _ _ => trivial) (inv_of_init h₀)
    fun _ _ _ _ ih hshot hst => ih.step hshot hst

def Ev.isCloseHandle : Ev → Bool
  | .closeHandle _ => true
  | _ => false

/-- What is true of a connection on which `start_` has taken effect. -/
structure Lived (s : St) : Prop where
  /-- The socket is passed to `close_handle` at most once. -/
  closeHandle_le : s.log.countP Ev.isCloseHandle ≤ 1
  /-- It is passed to it exactly once when `cleanup_` has run. -/
  closeHandle_eq : s.cleanupDone = true → s.log.countP Ev.isCloseHandle = 1
  /-- The close callbacks are called at most once each, after the channel is deregistered and the
  socket closed, the internal one before the user's. -/
  callbacks : closings s.log = [] ∨ IsCleanup (closings s.log)
  /-- The state moves only from `kConnected` to `kDisconnecting` to `kDisconnected`. -/
  moves : ∃ pre past, (pre = [] ∨ pre = [.kConnecting]) ∧
    past <+: [.kConnected, .kDisconnecting, .kDisconnected] ∧ moves s.log = pre ++ past ∧
    past.getLast? = some s.state
  /-- After the first `kDisconnected` the handle is invalid, there is no close timer, and the state
  is `kDisconnected`. -/
  final : .moved .kDisconnected ∈ s.log →
    s.handle = none ∧ s.closeTimerId = 0 ∧ s.state = .kDisconnected
  /-- After it no byte is transferred, the message callback is not called, and the state does not
  move. -/
  quiet : QuietAfter s.log

theorem countP_closeHandle (l : List Ev) :
    l.countP Ev.isCloseHandle = (closings l).countP Ev.isCloseHandle := by
  rw [closings, List.countP_filter]
  refine List.countP_congr fun e _ => ?_
  cases e <;> simp [Ev.isCloseHandle, Ev.isClosing]

theorem IsCleanup.countP_closeHandle {l : List Ev} (h : IsCleanup l) :
    l.countP Ev.isCloseHandle = 1 := by
  obtain ⟨k, i, c, rfl, hi, hc⟩ := h
  rcases hi with rfl | rfl <;> rcases hc with rfl | ⟨err, rfl⟩ <;> rfl

/-- An established connection that `cleanup_` has not touched. -/
theorem Lived.of_open {s : St} {pre past : List State} (ho : Open s pre)
    (hpast : past <+: [.kConnected, .kDisconnecting]) (hm : Conn.moves s.log = pre ++ past)
    (hlast : past.getLast? = some s.state) : Lived s := by
  have hcount : s.log.countP Ev.isCloseHandle = 0 := by
    rw [countP_closeHandle, ho.closings]
    rfl
  have hnot : .kDisconnected ∉ Conn.moves s.log := by
    rw [hm, List.mem_append, not_or]
    constructor
    · rcases ho.pre with rfl | rfl <;> decide
    · exact fun h => absurd (hpast.subset h) (by decide)
  exact {
    closeHandle_le := by omega
    closeHandle_eq := fun hd => by simp [ho.cleanupDone] at hd
    callbacks := .inl ho.closings
    moves := ⟨pre, past, ho.pre, hpast.trans ⟨[.kDisconnected], rfl⟩, hm, hlast⟩
    final := fun h => absurd (mem_moves.2 h) hnot
    quiet := quietAfter_of_open hnot }

/-- **The lifecycle of an established connection.**  In every state of every one-shot run in which
`start_` has taken effect, the socket has been closed at most once and exactly once after
`cleanup_`, the close callbacks have been called at most once, in order and after the socket was
closed, and after the first `kDisconnected` nothing has happened any more. -/
theorem lifecycle {A : Allocator} {K : Kernel} {s₀ s : St} (h₀ : Init s₀)
    (h : (machine A K).ReachIf OneShot (.ok s₀) (.ok s)) (hstart : .moved .kConnected ∈ s.log) :
    Lived s := by
  have hstart' : .kConnected ∈ moves s.log := mem_moves.2 hstart
  cases (inv_of_reach h₀ h).life with
  | fresh hp | queued _ _ hp => simp [hp.moves] at hstart'
  | connecting _ _ _ _ _ _ _ _ _ _ h9 => rw [h9] at hstart'; exact absurd hstart' (by decide)
  | dead _ _ _ _ _ h5 => exact absurd hstart' h5
  | up pre ho h1 _ h3 => exact .of_open ho ⟨[.kDisconnecting], rfl⟩ h3 (by rw [h1]; rfl)
  | closing pre ho h1 h2 => exact .of_open ho (List.prefix_refl _) h2 (by rw [h1]; rfl)
  | down pre _ h2 h3 h4 _ _ h7 h8 h9 h10 =>
    have hcount : s.log.countP Ev.isCloseHandle = 1 := by
      rw [countP_closeHandle, h9.countP_closeHandle]
    exact {
      closeHandle_le := hcount.le
      closeHandle_eq := fun _ => hcount
      callbacks := .inr h9
      moves := ⟨pre, _, h7, List.prefix_refl _, h8, by rw [h2]; rfl⟩
      final := fun _ => ⟨h3, h4, h2⟩
      quiet := h10 }

/-- An accepted connection: its user sets the callbacks, reads, answers, and closes it from the
message callback, while a closure of the server and one of another thread are queued. -/
def closeInCallback : List Act :=
  [.runTask .badAddress, .setCallbacks true true, .ret, .deliver ⟨true, false, false, false⟩,
    .dispatch, .recvRet (.data [1, 2]), .serverCleanup, .recvRet (.error EAGAIN), .close, .close,
    .ret, .tau, .ret, .tau, .postClose, .runTask .badAddress, .runTask .badAddress, .destroy]

theorem lifecycle_closeInCallback : ∃ s, Lived s ∧ s.cleanupDone = true ∧
    closings s.log = [.deregistered .established, .closeHandle 5, .internalClose,
      .called (.close 0)] := by
  obtain ⟨s, hs, hp⟩ := reachIf_of_endsIn (A := .zeroed) (K := .linux) (G := OneShot)
    (accepted 5 true) closeInCallback
    (p := fun s => s.alive = false ∧ .moved .kConnected ∈ s.log ∧ s.cleanupDone = true ∧
      closings s.log = [.deregistered .established, .closeHandle 5, .internalClose,
        .called (.close 0)])
    (by decide +kernel) (by decide +kernel)
  obtain ⟨-, hstart, hd, hc⟩ := of_decide_eq_true hp
  exact ⟨s, lifecycle (.server 5 true) hs hstart, hd, hc⟩

end Conn

end CxpNet
