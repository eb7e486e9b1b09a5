import CxpNet.Conn.Spec

/-!
# What a step of a connection can do

`Moves A s a s'` lists every way in which a step `a` leads from `s` to `s'`, each with what has
been checked on the way and the state that results (`step_cases`).  An invariant of the connection
is a case analysis over it: the proofs do not look into the step functions again.

A function of the source that is called from several places has a relation of its own for these
places: `Closing` for `cleanup_` and `handle_close_event_`, `Sending` and `LoopEnd` for the two
halves of `send_in_poll_thread_`, `Shutting`, `Connecting` and `Starting` for `shutdown_in_poll_`,
`start_connect_in_poll_` and `start_`.
-/

namespace CxpNet

namespace Conn

/-! ### Where the functions are called -/

/-- By the step `a` of `s`, `cleanup_(err)` or `handle_close_event_(err)` is called in `t`. -/
inductive Closing (s : St) : Act → ℕ → St → Prop
  | handler {f : Frame} {rest : List Frame} {err : ℕ} : s.ctl = f :: rest →
      (f = .closePart err ∨ f = .afterMessage true err) → Closing s .tau err { s with ctl := rest }
  | failed {f : Frame} {rest : List Frame} {e : ℕ} : s.ctl = f :: rest →
      (f = .writeLoop ∨ ∃ m n, f = .sendLoop m n) → handleErrorAction e = .kClose →
      Closing s (.sendRet (.error e)) e
        { s with ctl := rest, errno := e, log := s.log ++ [.sendError e] }
  | user : s.inUserCode = true → Closing s .close 0 s
  | task {rest : List Task} {err : ℕ} (r : ConnectRet) : s.ctl = [] → s.delivered = none →
      s.tasks = .cleanup err :: rest → Closing s (.runTask r) err { s with tasks := rest }

/-- By the step `a` of `s`, `send_in_poll_thread_` is called with `m` in `t`. -/
inductive Sending (s : St) : Act → Msg → St → Prop
  | user {m : Msg} : s.inUserCode = true → m.bytes ≠ [] → Sending s (.send m) m s
  | task {m : Msg} {rest : List Task} (r : ConnectRet) : s.ctl = [] → s.delivered = none →
      s.tasks = .send m :: rest → Sending s (.runTask r) m { s with tasks := rest }

/-- By the step `a` of `s`, the loop of `send_in_poll_thread_` ends in `t` with `n` bytes sent. -/
inductive LoopEnd (s : St) (m : Msg) (n : ℕ) : Act → St → Prop
  | goal {rest : List Frame} : s.ctl = .sendLoop m n :: rest → St.directWriteGoal m ≤ n →
      LoopEnd s m n .tau { s with ctl := rest }
  | blocked {rest : List Frame} {e : ℕ} : s.ctl = .sendLoop m n :: rest →
      n < St.directWriteGoal m → handleErrorAction e = .kBreak →
      LoopEnd s m n (.sendRet (.error e))
        { s with ctl := rest, errno := e, log := s.log ++ [.sendError e] }

/-- By the step `a` of `s`, the bytes `bs` are queued in `t`. -/
inductive Queueing (s : St) : Act → List UInt8 → St → Prop
  | behind {a : Act} {m : Msg} {t : St} {b : Buffer} : Sending s a m t → t.state = .kConnected →
      t.writeBuffer = some b → 0 < b.readableSize → Queueing s a m.bytes (t.note (.began m.bytes))
  | rest {a : Act} {m : Msg} {n : ℕ} {t : St} : LoopEnd s m n a t → n < m.bytes.length →
      Queueing s a (m.bytes.drop n) t

/-- By the step `a` of `s`, `shutdown_in_poll_` is called in `t`. -/
inductive Shutting (s : St) : Act → St → Prop
  | user : s.inUserCode = true → Shutting s .shutdown s
  | task {rest : List Task} (r : ConnectRet) : s.ctl = [] → s.delivered = none →
      s.tasks = .shutdown :: rest → Shutting s (.runTask r) { s with tasks := rest }

/-- By the step `a` of `s`, `start_connect_in_poll_` is called in `t`. -/
inductive Connecting (s : St) : Act → ConnectRet → St → Prop
  | user (onConnected onConnectError : Bool) (r : ConnectRet) : s.inUserCode = true →
      s.state = .kDisconnected → Connecting s (.connect onConnected onConnectError r) r
        { s with cleanupDone := false, onConnected, onConnectError, used := true }
  | task {rest : List Task} (r : ConnectRet) : s.ctl = [] → s.delivered = none →
      s.tasks = .connect :: rest → Connecting s (.runTask r) r { s with tasks := rest }

/-- By the step `a` of `s`, `start_` is called in `t`, and then the callback if it is set. -/
inductive Starting (s : St) : Act → Bool → Callback → St → Prop
  | task {rest : List Task} {onConn : Bool} (r : ConnectRet) : s.ctl = [] → s.delivered = none →
      s.tasks = .start onConn :: rest →
      Starting s (.runTask r) onConn .conn { s with tasks := rest }
  | sync (h : ℕ) : s.inUserCode = true → s.state = .kDisconnected →
      Starting s (.connectSync (some h)) false .conn
        { s with cleanupDone := false, used := true, handle := some h }
  | event {ev : Events} (w : Bool) (e : ℕ) : s.ctl = [] → s.delivered = some (.connecting, ev) →
      s.state = .kConnecting → s.takeSoError.1.getD EBADF = 0 →
      Starting s .dispatch s.onConnected .connected
        { s with
          delivered := none, soError := e, channel := none, writeReady := w
          log := s.log ++ s.deregisterLog }

/-- A call that may come back without having done anything. -/
def Act.isRequest : Act → Bool
  | .send _ | .shutdown | .connectSync _ | .setWatermark _ _ | .setBufferSize _ _ | .postSend _
  | .postShutdown | .postClose => true
  | _ => false

def Act.isConnect : Act → Bool
  | .connect _ _ _ | .postConnect _ _ => true
  | _ => false

/-- The closure that the step `a` queues, and what has been checked before. -/
inductive Posts (s : St) : Act → Task → Prop
  | send {m : Msg} : s.state = .kConnected → m.bytes ≠ [] → Posts s (.postSend m) (.send m)
  | shutdown : s.state ≠ .kDisconnected → s.state ≠ .kDisconnecting → s.handle ≠ none →
      Posts s .postShutdown .shutdown
  | close : s.state ≠ .kDisconnected → Posts s .postClose (.cleanup 0)
  | serverShutdown : s.server = true → Posts s .serverShutdown .shutdown
  | serverCleanup : s.server = true → Posts s .serverCleanup (.cleanup 0)

/-- A closure that does nothing when it is executed. -/
inductive Drops (s : St) : Task → Prop
  | send (m : Msg) : s.state ≠ .kConnected → Drops s (.send m)
  | shutdown : s.state = .kDisconnected ∨ s.state = .kDisconnecting ∨ s.handle = none →
      Drops s .shutdown
  | release : Drops s .release

/-- A frame that is left without more ado. -/
inductive Leaves (s : St) : Act → Frame → Prop
  | ret (cb : Callback) : Leaves s .ret (.user cb)
  | read (hasNewData : Bool) : s.state ≠ .kConnected → Leaves s .tau (.readLoop hasNewData)
  | message (err : ℕ) : Leaves s .tau (.afterMessage false err)

/-- The result of `::recv` ends the loop of `handle_read_event_`: the record of it, and what becomes
of `should_close` and `close_reason_err`. -/
inductive RecvEnd : RecvRet → Ev → Bool → ℕ → Prop
  | eof : RecvEnd .eof .recvEof true 0
  | again (e : ℕ) : handleErrorAction e = .kBreak → RecvEnd (.error e) (.recvError e) false 0
  | failed (e : ℕ) : handleErrorAction e = .kClose → RecvEnd (.error e) (.recvError e) true e

/-! ### The steps -/

section

variable (A : Allocator)

/-- What a step can do. -/
inductive Moves (s : St) : Act → St → Prop
  /-- A call that is not carried out. -/
  | stay {a : Act} : a.isRequest = true → Moves s a s
  | refused {a : Act} : a.isConnect = true → s.state ≠ .kDisconnected →
      Moves s a (s.note .refused)
  | setWritable (b : Bool) : Moves s (.setWritable b)
      { s with writable := b, writeReady := s.writeReady || (b && !s.writable && s.armed) }
  | sockError (e : ℕ) : Moves s (.sockError e) { s with soError := e }
  | setCallbacks (onMessage onClose : Bool) : s.inUserCode = true →
      Moves s (.setCallbacks onMessage onClose) { s with onMessage, onClose }
  | setWatermark (high low : ℕ) : high ≠ low → high ≠ 0 → low ≠ 0 →
      Moves s (.setWatermark high low) { s with highWatermark := high, lowWatermark := low }
  | setWatermarkCallback : Moves s .setWatermarkCallback { s with onWatermark := true }
  | setCloseTimeout (ms : ℕ) : Moves s (.setCloseTimeout ms) { s with closeTimeoutMs := ms }
  | setBufferSize {r w : ℕ} {br bw : Buffer} : Buffer.new A r = some br →
      Buffer.new A w = some bw →
      Moves s (.setBufferSize r w) { s with readBuffer := some br, writeBuffer := some bw }
  | post {a : Act} {k : Task} : Posts s a k → Moves s a (s.post k)
  | stopTimers : Moves s .stopTimers { s with timersRunning := false }
  | extractTimer {id : ℕ} : id ∈ s.scheduled → s.timersRunning = true →
      Moves s (.extractTimer id)
        { s with scheduled := s.scheduled.erase id, extracted := s.extracted ++ [id] }
  | fireTimer {id : ℕ} : id ∈ s.extracted → Moves s (.fireTimer id)
      ({ s with extracted := s.extracted.erase id }.post (.cleanup ETIMEDOUT))
  | destroy (sch : List ℕ) : s.ctl = [] → s.tasks = [] → s.channel = none → s.delivered = none →
      Moves s .destroy
        { s with
          closeTimerId := 0, scheduled := sch, handle := none, alive := false
          log := s.log ++ s.closeLog }
  -- events
  | deliver {c : Channel} (ev : Events) : s.ctl = [] → s.delivered = none → s.channel = some c →
      c.registered = true → Moves s (.deliver ev)
        { s with
          delivered := some (c.role, ev), writeReady := !ev.write && s.writeReady && s.writable }
  | ignore {ev : Events} (e : ℕ) : s.ctl = [] → s.delivered = some (.connecting, ev) →
      Moves s .dispatch { s with delivered := none, soError := e }
  | dispatch {ev : Events} {fs : List Frame} (e : ℕ) : s.ctl = [] →
      s.delivered = some (.established, ev) → St.EventFrames ev fs →
      Moves s .dispatch { s with delivered := none, soError := e, ctl := fs }
  | connectFails {ev : Events} (w : Bool) (e err : ℕ) : s.ctl = [] →
      s.delivered = some (.connecting, ev) → s.state = .kConnecting →
      Moves s .dispatch
        { s with
          delivered := none, soError := e, channel := none, writeReady := w, handle := none
          state := .kDisconnected, ctl := St.callFrames s.onConnectError (.connectError err)
          log := s.log ++ s.deregisterLog ++ s.closeLog ++ [.moved .kDisconnected] ++
            St.callLog s.onConnectError (.connectError err) }
  -- connecting and starting
  | postConnect (onConnected onConnectError : Bool) : s.state = .kDisconnected →
      Moves s (.postConnect onConnected onConnectError)
        ({ s with cleanupDone := false, onConnected, onConnectError, used := true }.post .connect)
  | connects {a : Act} {r : ConnectRet} {t : St} : Connecting s a r t →
      Moves s a (t.startConnectInPoll r)
  | syncFails : s.inUserCode = true → s.state = .kDisconnected →
      Moves s (.connectSync none) { s with cleanupDone := false, used := true }
  | starts {a : Act} {set : Bool} {cb : Callback} {t u : St} : Starting s a set cb t →
      t.start A = .ok u → Moves s a
        { u with ctl := St.callFrames set cb ++ u.ctl, log := u.log ++ St.callLog set cb }
  -- closing
  | closes {a : Act} {err : ℕ} {t : St} : Closing s a err t → t.cleanupDone = false →
      (t.state = .kDisconnected → ∃ r, a = .runTask r) → Moves s a (t.cleanup err)
  | passes {a : Act} {err : ℕ} {t : St} : Closing s a err t →
      t.state = .kDisconnected ∨ t.cleanupDone = true → Moves s a t
  | shuts {a : Act} {t s' : St} : Shutting s a t → t.state ≠ .kDisconnected →
      t.state ≠ .kDisconnecting → t.handle ≠ none → t.shutdownInPoll = .ok s' → Moves s a s'
  | dropTask {k : Task} {rest : List Task} (r : ConnectRet) : s.ctl = [] → s.delivered = none →
      s.tasks = k :: rest → Drops s k → Moves s (.runTask r) { s with tasks := rest }
  -- frames
  | leave {a : Act} {f : Frame} {rest : List Frame} : s.ctl = f :: rest → Leaves s a f →
      Moves s a { s with ctl := rest }
  | beginWrite {rest : List Frame} : s.ctl = .writePart :: rest →
      Moves s .tau { s with ctl := .writeLoop :: rest }
  | endLow {rest : List Frame} : s.ctl = .afterLow :: rest →
      Moves s .tau { s with warning := false, ctl := .writeLoop :: rest }
  | endHigh {rest : List Frame} : s.ctl = .afterHigh :: rest →
      Moves s .tau { s with warning := true, ctl := rest }
  | endClose {rest : List Frame} : s.ctl = .afterClose :: rest →
      Moves s .tau ({ s with ctl := rest }.releaseChannel)
  -- writing
  | drained {rest : List Frame} {b : Buffer} {s' : St} : s.ctl = .writeLoop :: rest →
      s.writeBuffer = some b → b.readableSize = 0 → { s with ctl := rest }.writeTail = .ok s' →
      Moves s .tau s'
  | wrote {rest : List Frame} {b : Buffer} {n : ℕ} {s' : St} : s.ctl = .writeLoop :: rest →
      s.writeBuffer = some b → 0 < n → n ≤ b.readable.length → s.handle ≠ none →
      ({ s with ctl := rest }.note (.sent (b.readable.take n))).wrote A n = .ok s' →
      Moves s (.sendRet (.accepted n)) s'
  | writeBlocked {rest : List Frame} {b : Buffer} {e : ℕ} : s.ctl = .writeLoop :: rest →
      s.writeBuffer = some b → 0 < b.readableSize → handleErrorAction e = .kBreak →
      Moves s (.sendRet (.error e))
        { s with ctl := rest, errno := e, log := s.log ++ [.sendError e] }
  | interrupted {f : Frame} {rest : List Frame} (e : ℕ) : s.ctl = f :: rest →
      (f = .writeLoop ∨ ∃ m n, f = .sendLoop m n) → handleErrorAction e = .kContinue →
      Moves s (.sendRet (.error e)) { s with errno := e, log := s.log ++ [.sendError e] }
  -- sending
  | sentSome {m : Msg} {n k : ℕ} {rest : List Frame} : s.ctl = .sendLoop m n :: rest →
      s.handle ≠ none → Moves s (.sendRet (.accepted k))
        { s with
          ctl := .sendLoop m (n + k) :: rest
          log := s.log ++ [.sent ((St.attempt m n).take k)] }
  | beginSend {a : Act} {m : Msg} {t : St} {b : Buffer} {c : Channel} : Sending s a m t →
      t.state = .kConnected → t.writeBuffer = some b → b.readableSize = 0 → t.channel = some c →
      Moves s a ((t.note (.began m.bytes)).push (.sendLoop m 0))
  | dropSend {a : Act} {m : Msg} {t : St} : Sending s a m t → t.state = .kConnected →
      t.writeBuffer = none ∨ t.channel = none → Moves s a (t.note (.began m.bytes))
  | queues {a : Act} {bs : List UInt8} {t s' : St} : Queueing s a bs t →
      t.enqueue A bs = .ok s' → Moves s a s'
  | sentAll {a : Act} {m : Msg} {n : ℕ} {t s' : St} : LoopEnd s m n a t → m.bytes.length ≤ n →
      t.checkHigh = .ok s' → Moves s a s'
  -- receiving
  | received {hasNewData : Bool} {rest : List Frame} {b₀ b b' : Buffer} {bs : List UInt8} :
      s.ctl = .readLoop hasNewData :: rest → s.state = .kConnected → s.readBuffer = some b₀ →
      St.makeRoom A b₀ = .done b → bs ≠ [] → bs.length ≤ b.writableSize → b.fill bs = .done b' →
      Moves s (.recvRet (.data bs))
        { s with
          readBuffer := some b', ctl := .readLoop true :: rest, log := s.log ++ [.received bs] }
  | recvAgain {hasNewData : Bool} {rest : List Frame} {b₀ b : Buffer} (e : ℕ) :
      s.ctl = .readLoop hasNewData :: rest → s.state = .kConnected → s.readBuffer = some b₀ →
      St.makeRoom A b₀ = .done b → handleErrorAction e = .kContinue →
      Moves s (.recvRet (.error e))
        { s with readBuffer := some b, errno := e, log := s.log ++ [.recvError e] }
  | recvEnd {hasNewData shouldClose : Bool} {rest : List Frame} {b₀ b : Buffer} {r : RecvRet}
      {ev : Ev} {err : ℕ} (e : ℕ) : s.ctl = .readLoop hasNewData :: rest →
      s.state = .kConnected → s.readBuffer = some b₀ → St.makeRoom A b₀ = .done b →
      RecvEnd r ev shouldClose err → Moves s (.recvRet r)
        { s with
          readBuffer := some b, errno := e
          ctl := St.callFrames (hasNewData && s.onMessage) .message ++
            .afterMessage shouldClose err :: rest
          log := s.log ++ [ev] ++ St.callLog (hasNewData && s.onMessage) .message }
  | consume {rest : List Frame} {b b' : Buffer} {k : ℕ} : s.ctl = .user .message :: rest →
      s.readBuffer = some b → b.beenRead A k = .done b' →
      Moves s (.consume k) { s with readBuffer := some b' }

end

/-! ### Every step is one of these -/

section

variable {A : Allocator} {K : Kernel} {s s' t : St} {a : Act}

theorem moves_handleCloseEvent {err : ℕ} (h : Closing s a err t) :
    Moves A s a (t.handleCloseEvent err) := by
  unfold St.handleCloseEvent
  split_ifs with hs
  · exact .passes h (.inl hs)
  · cases hd : t.cleanupDone with
    | true =>
      rw [St.cleanup_of_done err hd]
      exact .passes h (.inr hd)
    | false => exact .closes h hd fun he => absurd he hs

theorem moves_checkHigh {m : Msg} {n : ℕ} (h : LoopEnd s m n a t)
    (hok : t.sendTail A m n = .ok s') : Moves A s a s' := by
  unfold St.sendTail at hok
  split_ifs at hok with hn
  · exact .queues (.rest h hn) hok
  · exact .sentAll h (by omega) hok

theorem moves_sendInPollThread {m : Msg} (h : Sending s a m t) (hs : t.state = .kConnected)
    (hok : t.sendInPollThread A m = .ok s') : Moves A s a s' := by
  unfold St.sendInPollThread at hok
  rw [if_neg (by simpa using hs)] at hok
  dsimp only at hok
  split at hok
  · rename_i b c hb hc
    split_ifs at hok with h0
    · exact .queues (.behind h hs hb h0) hok
    · cases hok
      exact .beginSend h hs hb (by omega) hc
  · rename_i hno
    cases hok
    refine .dropSend h hs ?_
    by_contra hne
    rw [not_or] at hne
    obtain ⟨b, hb⟩ := Option.ne_none_iff_exists'.1 hne.1
    obtain ⟨c, hc⟩ := Option.ne_none_iff_exists'.1 hne.2
    exact hno b c hb hc

theorem moves_tau (h : s.tau A = some (.ok s')) : Moves A s .tau s' := by
  unfold St.tau at h
  split at h
  · rename_i err rest hctl
    cases h
    exact moves_handleCloseEvent (.handler hctl (.inl rfl))
  · rename_i rest hctl
    cases h
    exact .beginWrite hctl
  · rename_i b rest hctl
    split_ifs at h with hs
    cases h
    exact .leave hctl (.read b hs)
  · rename_i shouldClose err rest hctl
    cases shouldClose with
    | true =>
      cases h
      exact moves_handleCloseEvent (.handler hctl (.inr rfl))
    | false =>
      cases h
      exact .leave hctl (.message err)
  · rename_i rest hctl
    split at h
    · cases h
    · rename_i b hb
      split_ifs at h with h0
      exact .drained hctl hb h0 (Option.some.inj h)
  · rename_i rest hctl
    cases h
    exact .endLow hctl
  · rename_i m n rest hctl
    split_ifs at h with hn
    exact moves_checkHigh (.goal hctl hn) (Option.some.inj h)
  · rename_i rest hctl
    cases h
    exact .endHigh hctl
  · rename_i rest hctl
    cases h
    exact .endClose hctl
  · cases h
  · cases h

/-! ### System calls -/

theorem sysSend_accepted {bs : List UInt8} {n : ℕ} {x : ℤ × St}
    (h : St.sysSend K bs (.accepted n) t = some x) :
    x = ((n : ℤ), t.note (.sent (bs.take n))) ∧ 0 < n ∧ n ≤ bs.length ∧ t.handle ≠ none := by
  simp only [St.sysSend] at h
  split_ifs at h with hn
  cases h
  obtain ⟨hh, hpos, hle, hmax⟩ := hn
  have hint : toInt n = n := toInt_of_lt (lt_of_le_of_lt hmax K.lt)
  exact ⟨by rw [hint], hpos, hle, hh⟩

theorem sysSend_error {bs : List UInt8} {e : ℕ} {x : ℤ × St}
    (h : St.sysSend K bs (.error e) t = some x) :
    x = (-1, { t with errno := e, log := t.log ++ [.sendError e] }) := by
  simp only [St.sysSend] at h
  split_ifs at h
  cases h
  rfl

theorem moves_sendRet {r : SendRet} (h : s.sendRet A K r = some (.ok s')) :
    Moves A s (.sendRet r) s' := by
  unfold St.sendRet at h
  split at h
  · rename_i rest hctl
    split at h
    · cases h
    · rename_i b hb
      split_ifs at h with h0
      obtain ⟨x, hx, hok⟩ := Option.map_eq_some_iff.1 h
      cases r with
      | accepted n =>
        obtain ⟨rfl, hpos, hle, hh⟩ := sysSend_accepted hx
        simp only [St.writeRet] at hok
        rw [if_pos (by omega)] at hok
        exact .wrote hctl hb hpos hle hh hok
      | error e =>
        obtain rfl := sysSend_error hx
        simp only [St.writeRet] at hok
        rw [if_neg (by decide)] at hok
        split at hok
        · rename_i hact
          obtain ⟨b', hb', ⟨-, rfl⟩ | ⟨hz, -⟩⟩ := St.writeTail_ok hok
          · exact .writeBlocked hctl hb h0 hact
          · simp only [hb, Option.some.injEq] at hb'
            subst hb'
            omega
        · rename_i hact
          cases hok
          have hs : s.ctl = .writeLoop :: rest := hctl
          simp only [St.push, ← hs]
          exact .interrupted e hctl (.inl rfl) hact
        · rename_i hact
          cases hok
          exact moves_handleCloseEvent (.failed hctl (.inl rfl) hact)
  · rename_i m n rest hctl
    split_ifs at h with hn
    obtain ⟨x, hx, hok⟩ := Option.map_eq_some_iff.1 h
    cases r with
    | accepted k =>
      obtain ⟨rfl, hpos, -, hh⟩ := sysSend_accepted hx
      simp only [St.sendLoopRet] at hok
      rw [if_pos (by omega)] at hok
      cases hok
      exact .sentSome hctl hh
    | error e =>
      obtain rfl := sysSend_error hx
      simp only [St.sendLoopRet] at hok
      rw [if_neg (by decide), if_neg (by decide)] at hok
      split at hok
      · rename_i hact
        exact moves_checkHigh (.blocked hctl hn hact) hok
      · rename_i hact
        cases hok
        simp only [St.push, ← hctl]
        exact .interrupted e hctl (.inr ⟨m, n, rfl⟩) hact
      · rename_i hact
        cases hok
        exact moves_handleCloseEvent (.failed hctl (.inr ⟨m, n, rfl⟩) hact)
  · cases h

theorem readTail_eq (hasNewData shouldClose : Bool) (err : ℕ) (t : St) :
    t.readTail hasNewData shouldClose err =
      { t with
        ctl := St.callFrames (hasNewData && t.onMessage) .message ++
          .afterMessage shouldClose err :: t.ctl
        log := t.log ++ St.callLog (hasNewData && t.onMessage) .message } := by
  unfold St.readTail
  split_ifs with h
  · simp [St.callFrames, St.callLog, h, St.call, St.note]
  · simp [St.callFrames, St.callLog, h, St.push]

theorem moves_recvRet {r : RecvRet} (h : s.recvRet A K r = some (.ok s')) :
    Moves A s (.recvRet r) s' := by
  unfold St.recvRet at h
  split at h
  swap
  · cases h
  rename_i hasNewData rest hctl
  split_ifs at h with hs
  rw [not_not] at hs
  unfold St.recvRound at h
  split at h
  · cases h
  rename_i b₀ hb₀
  obtain ⟨b, hroom, h⟩ := St.withBuffer_ok h
  cases r with
  | data bs =>
    simp only [St.recvInto] at h
    split_ifs at h with hc hpos
    · obtain ⟨b', hfill, h⟩ := St.withBuffer_ok h
      cases h
      exact .received hctl hs hb₀ hroom hc.2.1 hc.2.2.1 hfill
    · -- a transfer fits an `int`
      have hlen : 0 < bs.length := List.length_pos_of_ne_nil hc.2.1
      rw [toInt_of_lt (lt_of_le_of_lt hc.2.2.2 K.lt)] at hpos
      omega
  | eof =>
    simp only [St.recvInto] at h
    split_ifs at h
    cases h
    rw [readTail_eq]
    exact .recvEnd s.errno hctl hs hb₀ hroom .eof
  | error e =>
    simp only [St.recvInto] at h
    split_ifs at h
    cases h
    unfold St.recvFailed
    split
    · rename_i hact
      rw [readTail_eq]
      exact .recvEnd e hctl hs hb₀ hroom (.again e hact)
    · rename_i hact
      simp only [St.push, St.note, ← hctl]
      exact .recvAgain e hctl hs hb₀ hroom hact
    · rename_i hact
      rw [readTail_eq]
      exact .recvEnd e hctl hs hb₀ hroom (.failed e hact)

/-! ### Closures, calls, events -/

theorem moves_runTask {r : ConnectRet} (hctl : s.ctl = []) (hdel : s.delivered = none)
    (h : s.runTask A r = some (.ok s')) : Moves A s (.runTask r) s' := by
  unfold St.runTask at h
  split at h
  · cases h
  rename_i k rest htasks
  cases k with
  | start onConn =>
    obtain ⟨u, hu, rfl⟩ := map_ok (Option.some.inj h)
    rw [St.callIf_eq]
    exact .starts (.task r hctl hdel htasks) hu
  | connect =>
    cases h
    exact .connects (.task r hctl hdel htasks)
  | send m =>
    have hok := Option.some.inj h
    by_cases hs : s.state = .kConnected
    · exact moves_sendInPollThread (.task r hctl hdel htasks) hs hok
    · rw [St.sendInPollThread, if_pos hs] at hok
      cases hok
      exact .dropTask r hctl hdel htasks (.send m hs)
  | shutdown =>
    have hok := Option.some.inj h
    by_cases hs : s.state = .kDisconnected ∨ s.state = .kDisconnecting
    · rw [St.shutdownInPoll, if_pos hs] at hok
      cases hok
      exact .dropTask r hctl hdel htasks (.shutdown (hs.imp_right .inl))
    · by_cases hh : s.handle = none
      · rw [St.shutdownInPoll, if_neg hs, if_pos hh] at hok
        cases hok
        exact .dropTask r hctl hdel htasks (.shutdown (.inr (.inr hh)))
      · rw [not_or] at hs
        exact .shuts (.task r hctl hdel htasks) hs.1 hs.2 hh hok
  | cleanup err =>
    cases h
    have hclosing : Closing s (.runTask r) err { s with tasks := rest } := .task r hctl hdel htasks
    by_cases hd : s.cleanupDone = true
    · rw [St.cleanup_of_done (s := { s with tasks := rest }) err hd]
      exact .passes hclosing (.inr hd)
    · exact .closes hclosing (by simpa using hd) fun _ => ⟨r, rfl⟩
  | release =>
    cases h
    exact .dropTask r hctl hdel htasks .release

theorem moves_userStep (hu : s.inUserCode = true) (h : s.userStep A a = some (.ok s')) :
    Moves A s a s' := by
  cases a with
  | ret =>
    simp only [St.userStep] at h
    split at h
    · rename_i cb rest hctl
      cases h
      exact .leave hctl (.ret cb)
    · cases h
  | send m =>
    have hok : s.send A m = .ok s' := Option.some.inj h
    unfold St.send at hok
    split_ifs at hok with hs
    · cases hok
      exact .stay rfl
    · rw [not_or, not_not] at hs
      exact moves_sendInPollThread (.user hu hs.2) hs.1 hok
  | shutdown =>
    have hok : s.shutdown = .ok s' := Option.some.inj h
    unfold St.shutdown at hok
    split_ifs at hok with hs
    · cases hok
      exact .stay rfl
    · simp only [not_or] at hs
      exact .shuts (.user hu) hs.1 hs.2.1 hs.2.2 hok
  | close =>
    cases h
    exact moves_handleCloseEvent (.user hu)
  | consume k =>
    simp only [St.userStep] at h
    split at h
    · rename_i rest b hctl hb
      obtain ⟨b', hr, h⟩ := St.withBuffer_ok h
      cases h
      exact .consume hctl hb hr
    · cases h
  | connect onConnected onConnectError r =>
    simp only [St.userStep, St.beginConnect] at h
    by_cases hs : s.state = .kDisconnected
    · simp only [hs, if_true] at h
      cases h
      exact .connects (hs ▸ .user onConnected onConnectError r hu hs)
    · simp only [hs, if_false] at h
      cases h
      exact .refused rfl hs
  | connectSync k =>
    simp only [St.userStep] at h
    split_ifs at h with hs
    · cases h
      exact .stay rfl
    · rw [not_not] at hs
      cases k with
      | none =>
        cases h
        exact .syncFails hu hs
      | some k =>
        have hok := Option.some.inj h
        have := Moves.starts (A := A) (.sync k hu hs) hok
        simpa [St.callFrames, St.callLog] using this
  | setCallbacks onMessage onClose =>
    cases h
    exact .setCallbacks onMessage onClose hu
  | setWatermark high low =>
    simp only [St.userStep] at h
    split_ifs at h with hw
    · cases h
      exact .stay rfl
    · simp only [not_or] at hw
      cases h
      exact .setWatermark high low hw.1 hw.2.1 hw.2.2
  | setWatermarkCallback =>
    cases h
    exact .setWatermarkCallback
  | setCloseTimeout ms =>
    cases h
    exact .setCloseTimeout ms
  | setBufferSize r w =>
    have hok : s.setBufferSize A r w = .ok s' := Option.some.inj h
    unfold St.setBufferSize at hok
    split_ifs at hok
    · split at hok
      · rename_i br bw hr hw
        cases hok
        exact .setBufferSize hr hw
      · cases hok
    · cases hok
      exact .stay rfl
  | _ => cases h

theorem takeSoError_fst (d : Option (Role × Events)) (s : St) :
    (St.takeSoError { s with delivered := d }).1 = s.takeSoError.1 := by
  rcases s with ⟨_ | h, _⟩ <;> rfl

theorem moves_dispatch {role : Role} {ev : Events} (hctl : s.ctl = [])
    (hdel : s.delivered = some (role, ev))
    (h : { s with delivered := none }.handleEvent A role ev = .ok s') : Moves A s .dispatch s' := by
  rcases St.handleEvent_ok h with ⟨rfl, -, e, rfl⟩ | ⟨rfl, hok⟩ | ⟨rfl, e, fs, hfs, rfl⟩
  · exact .ignore e hctl hdel
  · rcases St.handleConnectEvent_ok hok with ⟨-, rfl⟩ | ⟨hs, -, w, e, rfl⟩ |
      ⟨hs, he, w, e, u, hu, rfl⟩
    · exact .ignore s.soError hctl hdel
    · simp only [hctl, List.append_nil]
      exact .connectFails w e _ hctl hdel hs
    · have hset : u.onConnected = s.onConnected := by
        rcases St.start_ok hu with ⟨rfl, -⟩ | ⟨-, r, bw, wr, -, -, rfl⟩ <;> rfl
      rw [takeSoError_fst] at he
      have hmove := Moves.starts (.event w e hctl hdel hs he) hu
      rw [← hset] at hmove
      exact hmove
  · simp only [hctl, List.append_nil]
    exact .dispatch e hctl hdel hfs

theorem moves_otherStep (h : s.otherStep A a = some (.ok s')) : Moves A s a s' := by
  cases a with
  | setWritable b =>
    cases h
    exact .setWritable b
  | sockError e =>
    cases h
    exact .sockError e
  | deliver ev =>
    simp only [St.otherStep] at h
    split at h
    · rename_i c hctl hd hc
      split_ifs at h with hr
      cases h
      exact .deliver ev hctl hd hc hr
    · cases h
  | dispatch =>
    simp only [St.otherStep] at h
    split at h
    · rename_i role ev hctl hd
      exact moves_dispatch hctl hd (Option.some.inj h)
    · cases h
  | runTask r =>
    simp only [St.otherStep] at h
    split at h
    · rename_i hctl hd
      exact moves_runTask hctl hd h
    · cases h
  | postSend m =>
    cases h
    split_ifs with hs
    · exact .stay rfl
    · rw [not_or, not_not] at hs
      exact .post (.send hs.1 hs.2)
  | postShutdown =>
    cases h
    split_ifs with hs
    · exact .stay rfl
    · simp only [not_or] at hs
      exact .post (.shutdown hs.1 hs.2.1 hs.2.2)
  | postClose =>
    cases h
    split_ifs with hs
    · exact .stay rfl
    · exact .post (.close hs)
  | postConnect onConnected onConnectError =>
    simp only [St.otherStep, St.beginConnect] at h
    by_cases hs : s.state = .kDisconnected
    · simp only [hs, if_true] at h
      cases h
      exact hs ▸ .postConnect onConnected onConnectError hs
    · simp only [hs, if_false] at h
      cases h
      exact .refused rfl hs
  | serverShutdown =>
    simp only [St.otherStep] at h
    split_ifs at h with hs
    cases h
    exact .post (.serverShutdown hs)
  | serverCleanup =>
    simp only [St.otherStep] at h
    split_ifs at h with hs
    cases h
    exact .post (.serverCleanup hs)
  | extractTimer id =>
    simp only [St.otherStep] at h
    split_ifs at h with hs
    cases h
    exact .extractTimer hs.1 hs.2
  | fireTimer id =>
    simp only [St.otherStep] at h
    split_ifs at h with hs
    cases h
    exact .fireTimer hs
  | stopTimers =>
    cases h
    exact .stopTimers
  | destroy =>
    simp only [St.otherStep] at h
    split_ifs at h with hs
    cases h
    obtain ⟨sch, he⟩ := s.cancelCloseTimeout_eq
    rw [he, St.closeSocket_eq]
    exact .destroy sch hs.1 hs.2.1 hs.2.2.1 hs.2.2.2
  | _ => cases h

/-- **What a step of a connection can do.** -/
theorem step_cases (h : s.step A K a = some (.ok s')) : Moves A s a s' := by
  unfold St.step at h
  split at h
  · exact moves_tau h
  · exact moves_sendRet h
  · exact moves_recvRet h
  all_goals first
    | exact moves_otherStep h
    | (split_ifs at h with hu; exact moves_userStep hu h)

end

end Conn

end CxpNet
