import CxpNet.Conn.Step
import CxpNet.Buffer.Spec

/-!
# What the connection's functions do

One lemma for each function of `Conn.Basic`: the state it returns, as an update of the state it was
given.  The proofs about whole runs use these and do not unfold the functions.
-/

namespace CxpNet

namespace Conn

/-- A computation that goes on after another one has succeeded. -/
theorem bind_ok {α β : Type} {x : Except Crash α} {f : α → Except Crash β} {b : β}
    (h : (x >>= f) = .ok b) : ∃ a, x = .ok a ∧ f a = .ok b := by
  cases x with
  | error e => cases h
  | ok a => exact ⟨a, rfl, h⟩

theorem map_ok {α β : Type} {x : Except Crash α} {f : α → β} {b : β}
    (h : x.map f = .ok b) : ∃ a, x = .ok a ∧ b = f a := by
  cases x with
  | error e => cases h
  | ok a => cases h; exact ⟨a, rfl, rfl⟩

namespace St

variable {A : Allocator} {s s' : St}

@[simp] theorem note_log (e : Ev) (s : St) : (s.note e).log = s.log ++ [e] := rfl

/-- The move that `set_state_` records. -/
def moveLog (st : State) (s : St) : List Ev := if s.state = st then [] else [.moved st]

theorem mem_moveLog {st : State} {e : Ev} (h : e ∈ s.moveLog st) : e = .moved st := by
  unfold moveLog at h
  split_ifs at h
  · cases h
  · exact List.mem_singleton.1 h

theorem setState_eq (st : State) (s : St) :
    s.setState st = { s with state := st, log := s.log ++ s.moveLog st } := by
  unfold setState moveLog
  split_ifs with h
  · subst h; simp
  · rfl

/-! ### The channel -/

/-- The interest set of a channel and its registration after `update_`. -/
theorem update_eq (c : Channel) (s : St) : ∃ w, s.update c =
    { s with
      channel := some { c with registered := c.reading || c.writing }, writeReady := w } ∧
    (c.writing = true → w = true ∨ s.writable = false) ∧
    (s.writeReady = true → c.registered = true → c.writing = true → w = true) := by
  obtain ⟨role, reading, writing, registered⟩ := c
  unfold update
  cases registered <;> cases reading <;> cases writing <;>
    simp only [Bool.or_false, Bool.or_true, Bool.false_and,
      Bool.true_and, Bool.false_eq_true, reduceIte, Bool.true_eq_false]
  all_goals refine ⟨_, rfl, ?_, ?_⟩ <;> simp
  all_goals cases s.writeReady <;> cases s.writable <;> simp

/-- `add_write_event`: there is write interest afterwards, and it was there before or a
notification is pending unless the socket has no room. -/
theorem addWriteEvent_ok (h : s.addWriteEvent = .ok s') :
    ∃ c c' w, s.channel = some c ∧ s' = { s with channel := some c', writeReady := w } ∧
      c'.role = c.role ∧ c'.reading = c.reading ∧ c'.writing = true ∧
      (c.registered = true → c'.registered = true) ∧
      (c.writing = true → c' = c ∧ w = s.writeReady) ∧
      (c.writing = false → w = true ∨ s.writable = false) := by
  unfold addWriteEvent at h
  cases hc : s.channel with
  | none => simp [hc] at h
  | some c =>
    simp only [hc, Except.ok.injEq] at h
    split_ifs at h with hw
    · subst h
      exact ⟨c, c, s.writeReady, rfl, by rw [← hc], rfl, rfl, hw, id, fun _ => ⟨rfl, rfl⟩,
        by simp [hw]⟩
    · obtain ⟨w, he, hready, -⟩ := s.update_eq { c with writing := true }
      rw [he] at h
      subst h
      exact ⟨c, _, w, rfl, rfl, rfl, rfl, rfl, by simp, by simp [hw], fun _ => hready rfl⟩

/-- `remove_write_event` -/
theorem removeWriteEvent_ok (h : s.removeWriteEvent = .ok s') :
    ∃ c c' w, s.channel = some c ∧ s' = { s with channel := some c', writeReady := w } ∧
      c'.role = c.role ∧ c'.reading = c.reading ∧ c'.writing = false ∧
      (c.reading = true → c.registered = true → c'.registered = true) := by
  unfold removeWriteEvent at h
  cases hc : s.channel with
  | none => simp [hc] at h
  | some c =>
    simp only [hc, Except.ok.injEq] at h
    split_ifs at h with hw
    · obtain ⟨w, he, -⟩ := s.update_eq { c with writing := false }
      rw [he] at h
      subst h
      exact ⟨c, _, w, rfl, rfl, rfl, rfl, rfl, fun hr _ => by simp [hr]⟩
    · subst h
      exact ⟨c, c, s.writeReady, rfl, by rw [← hc], rfl, rfl, by simpa using hw, fun _ => id⟩

/-- The deregistration that `deregister` records. -/
def deregisterLog (s : St) : List Ev :=
  match s.channel with
  | none => []
  | some c => [.deregistered c.role]

theorem mem_deregisterLog {e : Ev} (h : e ∈ s.deregisterLog) : ∃ role, e = .deregistered role := by
  unfold deregisterLog at h
  split at h
  · cases h
  · exact ⟨_, List.mem_singleton.1 h⟩

theorem deregister_eq (s : St) : ∃ ch w, s.deregister =
    { s with channel := ch, writeReady := w, log := s.log ++ s.deregisterLog } ∧
    ch.map Channel.role = s.channel.map Channel.role := by
  unfold deregister deregisterLog
  cases hc : s.channel with
  | none => exact ⟨none, s.writeReady, by simp [← hc], rfl⟩
  | some c =>
    obtain ⟨w, he, -⟩ := s.update_eq { c with reading := false, writing := false }
    simp only [he]
    exact ⟨_, w, rfl, rfl⟩

/-- Nothing is asked for, and the poller does not know the channel. -/
def isIdle (c : Channel) : Bool := !c.reading && !c.writing && !c.registered

theorem deregister_idle (s : St) : ∀ c ∈ s.deregister.channel, isIdle c = true := by
  intro c hc
  unfold deregister at hc
  cases hch : s.channel with
  | none => simp [hch] at hc
  | some c₀ =>
    obtain ⟨w, he, -⟩ := s.update_eq { c₀ with reading := false, writing := false }
    simp only [hch, he, note, Option.mem_some_iff] at hc
    subst hc
    rfl

/-! ### Closing -/

/-- The close that `closeSocket` records. -/
def closeLog (s : St) : List Ev :=
  match s.handle with
  | none => []
  | some h => [.closeHandle h]

theorem mem_closeLog {e : Ev} (h : e ∈ s.closeLog) : ∃ k, e = .closeHandle k := by
  unfold closeLog at h
  split at h
  · cases h
  · exact ⟨_, List.mem_singleton.1 h⟩

theorem closeSocket_eq (s : St) :
    s.closeSocket = { s with handle := none, log := s.log ++ s.closeLog } := by
  unfold closeSocket closeLog
  cases hh : s.handle with
  | none => simp [← hh]
  | some h => rfl

theorem cancelCloseTimeout_eq (s : St) : ∃ sch, s.cancelCloseTimeout =
    { s with closeTimerId := 0, scheduled := sch } := by
  unfold cancelCloseTimeout
  by_cases h : s.closeTimerId = 0
  · exact ⟨s.scheduled, by rw [if_pos h, ← h]⟩
  · rw [if_neg h]
    exact ⟨_, rfl⟩

theorem releaseChannel_eq (s : St) : ∃ rel, s.releaseChannel =
    { s with channel := none, tasks := s.tasks ++ rel } ∧ (rel = [] ∨ rel = [.release]) := by
  unfold releaseChannel
  cases hc : s.channel with
  | none => exact ⟨[], by simp [← hc], .inl rfl⟩
  | some c => exact ⟨_, rfl, .inr rfl⟩

/-- What `shutWrIfConnected` records. -/
def shutWrLog (s : St) : List Ev :=
  if s.state = .kConnected ∧ s.handle ≠ none then [.shutWr] else []

theorem shutWrIfConnected_eq (s : St) :
    s.shutWrIfConnected = { s with log := s.log ++ s.shutWrLog } := by
  unfold shutWrIfConnected shutWrLog
  split_ifs
  · rfl
  · simp

/-- What `runInternalClose` records. -/
def internalCloseLog (s : St) : List Ev := if s.internalClose then [.internalClose] else []

theorem runInternalClose_eq (s : St) : s.runInternalClose =
    { s with internalClose := false, log := s.log ++ s.internalCloseLog } := by
  unfold runInternalClose internalCloseLog
  cases h : s.internalClose with
  | true => rfl
  | false => rw [if_neg (by simp), if_neg (by simp), List.append_nil, ← h]

/-- What `runClose` records. -/
def closeCallLog (err : ℕ) (s : St) : List Ev := if s.onClose then [.called (.close err)] else []

/-- The frames of the close callback. -/
def closeFrames (err : ℕ) (s : St) : List Frame :=
  if s.onClose then [.user (.close err), .afterClose] else []

theorem runClose_eq (err : ℕ) (s : St) : ∃ ch rel, s.runClose err =
    { s with
      onClose := false, channel := ch, tasks := s.tasks ++ rel
      ctl := s.closeFrames err ++ s.ctl, log := s.log ++ s.closeCallLog err } ∧
    (rel = [] ∨ rel = [.release]) ∧ (ch = none ∨ ch = s.channel) := by
  unfold runClose closeCallLog closeFrames
  cases h : s.onClose with
  | true => exact ⟨s.channel, [], by simp [call, note], .inl rfl, .inr rfl⟩
  | false =>
    obtain ⟨rel, hrel, hr⟩ := s.releaseChannel_eq
    refine ⟨none, rel, ?_, hr, .inl rfl⟩
    rw [if_neg (by simp), if_neg (by simp), if_neg (by simp), hrel, List.append_nil,
      List.nil_append, ← h]

/-- What `cleanup_` records. -/
def cleanupLog (err : ℕ) (s : St) : List Ev :=
  s.shutWrLog ++ s.moveLog .kDisconnecting ++ s.deregisterLog ++ s.closeLog ++
    [.moved .kDisconnected] ++ s.internalCloseLog ++ s.closeCallLog err

/-- The events that `cleanup_(err)` may record. -/
inductive Tidies (err : ℕ) : Ev → Prop
  | shutWr : Tidies err .shutWr
  | moved (st : State) : Tidies err (.moved st)
  | deregistered (role : Role) : Tidies err (.deregistered role)
  | closeHandle (k : ℕ) : Tidies err (.closeHandle k)
  | internalClose : Tidies err .internalClose
  | called : Tidies err (.called (.close err))

theorem tidies_of_mem {err : ℕ} {e : Ev} (h : e ∈ s.cleanupLog err) : Tidies err e := by
  simp only [cleanupLog, List.mem_append, List.mem_singleton] at h
  rcases h with (((((h | h) | h) | h) | rfl) | h) | h
  · unfold shutWrLog at h
    split_ifs at h
    · rw [List.mem_singleton.1 h]
      exact .shutWr
    · cases h
  · rw [mem_moveLog h]
    exact .moved _
  · obtain ⟨role, rfl⟩ := mem_deregisterLog h
    exact .deregistered role
  · obtain ⟨k, rfl⟩ := mem_closeLog h
    exact .closeHandle k
  · exact .moved _
  · unfold internalCloseLog at h
    split_ifs at h
    · rw [List.mem_singleton.1 h]
      exact .internalClose
    · cases h
  · unfold closeCallLog at h
    split_ifs at h
    · rw [List.mem_singleton.1 h]
      exact .called
    · cases h

/-- **`cleanup_`**, the first time it is called: the connection is closed, and the user's close
callback is entered if there is one. -/
theorem cleanup_eq (err : ℕ) (h : s.cleanupDone = false) : ∃ sch ch w rel, s.cleanup err =
    { s with
      cleanupDone := true, closeTimerId := 0, scheduled := sch, channel := ch, writeReady := w
      handle := none, state := .kDisconnected, internalClose := false, onClose := false
      ctl := s.closeFrames err ++ s.ctl, tasks := s.tasks ++ rel
      log := s.log ++ s.cleanupLog err } ∧
    (rel = [] ∨ rel = [.release]) ∧
    (ch = none ∨ ch.map Channel.role = s.channel.map Channel.role) := by
  obtain ⟨sch, h1⟩ := cancelCloseTimeout_eq { s with cleanupDone := true }
  obtain ⟨ch, w, h2, hrole⟩ := deregister_eq
    { s with
      cleanupDone := true, closeTimerId := 0, scheduled := sch, state := .kDisconnecting
      log := s.log ++ s.shutWrLog ++ s.moveLog .kDisconnecting }
  obtain ⟨ch', rel, h3, hrel, hch⟩ := runClose_eq err
    { s with
      cleanupDone := true, closeTimerId := 0, scheduled := sch, channel := ch, writeReady := w
      handle := none, state := .kDisconnected, internalClose := false
      log := s.log ++ s.shutWrLog ++ s.moveLog .kDisconnecting ++ s.deregisterLog ++ s.closeLog ++
        [.moved .kDisconnected] ++ s.internalCloseLog }
  refine ⟨sch, ch', w, rel, ?_, hrel, hch.imp_right fun h => by rw [h]; exact hrole⟩
  have e1 : { s with cleanupDone := true }.cancelCloseTimeout.shutWrIfConnected.setState
      .kDisconnecting =
      { s with
        cleanupDone := true, closeTimerId := 0, scheduled := sch, state := .kDisconnecting
        log := s.log ++ s.shutWrLog ++ s.moveLog .kDisconnecting } := by
    rw [h1, shutWrIfConnected_eq, setState_eq]
    rfl
  unfold cleanup
  rw [if_neg (by simp [h]), e1, doCleanup, h2, closeSocket_eq, setState_eq, runInternalClose_eq]
  refine Eq.trans ?_ (h3.trans ?_)
  · rfl
  · simp only [cleanupLog, List.append_assoc]
    rfl

/-- `cleanup_` leaves no channel that the poller knows. -/
theorem cleanup_idle (err : ℕ) (h : s.cleanupDone = false) :
    ∀ c ∈ (s.cleanup err).channel, isIdle c = true := by
  intro c hc
  unfold cleanup at hc
  rw [if_neg (by simp [h]), doCleanup] at hc
  obtain ⟨ch, rel, he, -, hch⟩ := runClose_eq err
    ((({ s with cleanupDone := true }.cancelCloseTimeout.shutWrIfConnected.setState
      .kDisconnecting).deregister.closeSocket.setState .kDisconnected).runInternalClose)
  rw [he] at hc
  rcases hch with rfl | rfl
  · cases hc
  · rw [runInternalClose_eq, setState_eq, closeSocket_eq] at hc
    exact deregister_idle _ c hc

theorem cleanup_of_done (err : ℕ) (h : s.cleanupDone = true) : s.cleanup err = s := by
  simp [cleanup, h]

theorem startCloseTimeout_eq (s : St) : ∃ tid nid sch, s.startCloseTimeout =
    { s with closeTimerId := tid, nextTimerId := nid, scheduled := sch } := by
  unfold startCloseTimeout
  by_cases h : s.closeTimerId ≠ 0
  · rw [if_pos h]
    exact ⟨_, _, _, rfl⟩
  · rw [if_neg h]
    split_ifs <;> exact ⟨_, _, _, rfl⟩

/-- How `shutdown_in_poll_` leaves the channel: as it is while there is something to write,
without write interest otherwise. -/
inductive Finished (s : St) : Option Channel → Bool → List Ev → Prop
  | waits : s.nothingToWrite = false → Finished s s.channel s.writeReady []
  | noChannel (w : Bool) : s.nothingToWrite = true → s.channel = none → Finished s none w [.shutWr]
  | done {c c' : Channel} (w : Bool) : s.nothingToWrite = true → s.channel = some c →
      c'.role = c.role → c'.reading = c.reading → c'.writing = false →
      (c.reading = true → c.registered = true → c'.registered = true) →
      Finished s (some c') w [.shutWr]

theorem finishWrites_ok (h : s.finishWrites = .ok s') : ∃ ch w l,
    s' = { s with channel := ch, writeReady := w, log := s.log ++ l } ∧ Finished s ch w l := by
  unfold finishWrites at h
  split_ifs at h with hn hc
  · cases h
    exact ⟨none, s.writeReady, _, by rw [← hc]; rfl, .noChannel _ hn hc⟩
  · obtain ⟨t, ht, h⟩ := bind_ok h
    cases h
    obtain ⟨c, c', w, hc, rfl, h1, h2, h3, h4⟩ := removeWriteEvent_ok ht
    exact ⟨_, w, _, rfl, .done w hn hc h1 h2 h3 h4⟩
  · cases h
    exact ⟨_, _, [], by simp, .waits (by simpa using hn)⟩

/-- **`shutdown_in_poll_`**, when it is carried out. -/
theorem shutdownInPoll_carried (h1 : s.state ≠ .kDisconnected) (h2 : s.state ≠ .kDisconnecting)
    (h3 : s.handle ≠ none) (h : s.shutdownInPoll = .ok s') :
    ∃ ch w l tid nid sch, Finished s ch w l ∧ s' =
      { s with
        state := .kDisconnecting, channel := ch, writeReady := w, closeTimerId := tid
        nextTimerId := nid, scheduled := sch
        log := s.log ++ [.moved .kDisconnecting] ++ l } := by
  unfold shutdownInPoll at h
  rw [if_neg (by simp [h1, h2]), if_neg h3] at h
  obtain ⟨t, ht, h⟩ := bind_ok h
  obtain ⟨ch, w, l, rfl, hf⟩ := finishWrites_ok ht
  rw [setState_eq] at hf
  have hlog : s.moveLog .kDisconnecting = [.moved .kDisconnecting] := by simp [moveLog, h2]
  have hf' : Finished s ch w l := by
    cases hf with
    | waits hn => exact .waits hn
    | noChannel w hn hc => exact .noChannel w hn hc
    | done w hn hc h1 h2 h3 h4 => exact .done w hn hc h1 h2 h3 h4
  cases h
  rw [setState_eq, hlog]
  split_ifs
  · obtain ⟨tid, nid, sch, he⟩ := startCloseTimeout_eq
      { s with
        state := .kDisconnecting, channel := ch, writeReady := w
        log := s.log ++ [.moved .kDisconnecting] ++ l }
    exact ⟨ch, w, l, tid, nid, sch, hf', he⟩
  · exact ⟨ch, w, l, _, _, _, hf', rfl⟩

/-- **`shutdown_in_poll_`** -/
theorem shutdownInPoll_ok (h : s.shutdownInPoll = .ok s') : s' = s ∨
    (s.state ≠ .kDisconnected ∧ s.state ≠ .kDisconnecting ∧ s.handle ≠ none ∧
      ∃ ch w l tid nid sch, Finished s ch w l ∧ s' =
        { s with
          state := .kDisconnecting, channel := ch, writeReady := w, closeTimerId := tid
          nextTimerId := nid, scheduled := sch
          log := s.log ++ [.moved .kDisconnecting] ++ l }) := by
  by_cases h1 : s.state = .kDisconnected ∨ s.state = .kDisconnecting
  · unfold shutdownInPoll at h
    rw [if_pos h1] at h
    cases h
    exact .inl rfl
  · by_cases h2 : s.handle = none
    · unfold shutdownInPoll at h
      rw [if_neg h1, if_pos h2] at h
      cases h
      exact .inl rfl
    · rw [not_or] at h1
      exact .inr ⟨h1.1, h1.2, h2, shutdownInPoll_carried h1.1 h1.2 h2 h⟩

/-! ### Sending -/

theorem onWriteBuffer_ok {f : Buffer → Buffer.Res} (h : s.onWriteBuffer f = .ok s') :
    ∃ b b', s.writeBuffer = some b ∧ f b = .done b' ∧ s' = { s with writeBuffer := some b' } := by
  unfold onWriteBuffer at h
  cases hb : s.writeBuffer with
  | none => simp [hb] at h
  | some b =>
    simp only [hb] at h
    split at h
    · rename_i b' hf
      cases h
      exact ⟨b, b', rfl, hf, rfl⟩
    · cases h

theorem writeSize_ok {n : ℕ} (h : s.writeSize = .ok n) :
    ∃ b, s.writeBuffer = some b ∧ n = b.readableSize := by
  unfold writeSize at h
  cases hb : s.writeBuffer with
  | none => simp [hb] at h
  | some b =>
    simp only [hb, Except.ok.injEq] at h
    exact ⟨b, rfl, h.symm⟩

/-- The end of `send_in_poll_thread_` leaves everything but the watermark flag, and may enter the
watermark callback. -/
theorem checkHigh_ok (h : s.checkHigh = .ok s') :
    s' = s ∨ s' = { s with warning := true } ∨
      s' = s.call (.watermark s.highWatermark) (some .afterHigh) := by
  obtain ⟨n, -, h⟩ := bind_ok h
  split_ifs at h
  · cases h; exact .inr (.inr rfl)
  · cases h; exact .inr (.inl rfl)
  · cases h; exact .inl rfl

/-- Queued bytes go to the back of the write buffer, and there is write interest. -/
theorem enqueue_ok {bs : List UInt8} (h : s.enqueue A bs = .ok s') :
    ∃ b b' t, s.writeBuffer = some b ∧ b.append A bs = .done b' ∧
      { s with writeBuffer := some b' }.addWriteEvent = .ok t ∧ t.checkHigh = .ok s' := by
  obtain ⟨t, ht, h⟩ := bind_ok h
  obtain ⟨b, b', hb, happ, rfl⟩ := onWriteBuffer_ok ht
  obtain ⟨t, ht, h⟩ := bind_ok h
  exact ⟨b, b', t, hb, happ, ht, h⟩

/-- What `handle_write_event_` does after its loop: nothing while bytes are left; otherwise the
buffer is cleared, the write interest removed, and a pending half-close carried out. -/
theorem writeTail_ok (h : s.writeTail = .ok s') : ∃ b, s.writeBuffer = some b ∧
    ((b.readableSize ≠ 0 ∧ s' = s) ∨
      (b.readableSize = 0 ∧ ∃ c c' w, s.channel = some c ∧
        c'.role = c.role ∧ c'.reading = c.reading ∧ c'.writing = false ∧
        (c.reading = true → c.registered = true → c'.registered = true) ∧ s' =
          { s with
            writeBuffer := some b.clear, channel := some c', writeReady := w
            log := s.log ++ if s.state = .kDisconnecting then [.shutWr] else [] })) := by
  obtain ⟨n, hn, h⟩ := bind_ok h
  obtain ⟨b, hb, rfl⟩ := writeSize_ok hn
  refine ⟨b, hb, ?_⟩
  split_ifs at h with h0
  · right
    obtain ⟨t, ht, h⟩ := bind_ok h
    obtain ⟨b₁, b', hb', hclear, rfl⟩ := onWriteBuffer_ok ht
    rw [hb] at hb'
    cases hb'
    cases hclear
    obtain ⟨t, ht, h⟩ := bind_ok h
    obtain ⟨c, c', w, hc, rfl, h1, h2, h3, h4⟩ := removeWriteEvent_ok ht
    refine ⟨h0, c, c', w, hc, h1, h2, h3, h4, ?_⟩
    simp only at h
    split_ifs at h with hd
    · cases h
      rw [if_pos hd]
      rfl
    · cases h
      rw [if_neg hd, List.append_nil]
  · cases h
    exact .inl ⟨h0, rfl⟩

/-- What `handle_write_event_` does with `n` bytes that the kernel accepted. -/
theorem wrote_ok {n : ℕ} (h : s.wrote A n = .ok s') : ∃ b b', s.writeBuffer = some b ∧
    b.beenRead A n = .done b' ∧ ∃ fs l, s' =
      { s with writeBuffer := some b', ctl := fs ++ s.ctl, log := s.log ++ l } ∧
    (fs = [.writeLoop] ∧ l = [] ∨ fs = [.afterLow] ∧ l = [] ∨
      fs = [.user (.watermark s.lowWatermark), .afterLow] ∧
        l = [.called (.watermark s.lowWatermark)]) := by
  obtain ⟨t, ht, h⟩ := bind_ok h
  obtain ⟨b, b', hb, hr, rfl⟩ := onWriteBuffer_ok ht
  obtain ⟨k, -, h⟩ := bind_ok h
  refine ⟨b, b', hb, hr, ?_⟩
  split_ifs at h
  · cases h
    exact ⟨_, _, rfl, .inr (.inr ⟨rfl, rfl⟩)⟩
  · cases h
    exact ⟨[.afterLow], [], by simp [push], .inr (.inl ⟨rfl, rfl⟩)⟩
  · cases h
    exact ⟨[.writeLoop], [], by simp [push], .inl ⟨rfl, rfl⟩⟩

/-! ### Receiving -/

theorem withBuffer_ok {x : Buffer.Res} {k : Buffer → Option (Except Crash St)}
    (h : withBuffer x k = some (.ok s')) : ∃ b, x = .done b ∧ k b = some (.ok s') := by
  cases x with
  | done b => exact ⟨b, rfl, h⟩
  | throw f b => cases h

theorem recvRound_ok {K : Kernel} {a : Bool} {r : RecvRet}
    (h : s.recvRound A K a r = some (.ok s')) : ∃ b, s.recvInto K a b r = some (.ok s') := by
  unfold recvRound at h
  split at h
  · cases h
  · obtain ⟨b, -, h⟩ := withBuffer_ok h
    exact ⟨b, h⟩

/-- `::recv` is called only while the connection is `kConnected`. -/
theorem recvRet_ok {K : Kernel} {r : RecvRet} (h : s.recvRet A K r = some (.ok s')) :
    ∃ a rest b, s.ctl = .readLoop a :: rest ∧ s.state = .kConnected ∧
      recvInto K a b r { s with ctl := rest } = some (.ok s') := by
  unfold recvRet at h
  split at h
  · rename_i a rest hctl
    split_ifs at h with hs
    obtain ⟨b, hb⟩ := recvRound_ok h
    exact ⟨a, rest, b, hctl, by simpa using hs, hb⟩
  · cases h

/-! ### Connecting -/

theorem newBuffer_ok {o : Option Buffer} {b : Buffer} (h : newBuffer A o = .ok b) :
    o = some b ∨ (o = none ∧ Buffer.new A Buffer.kInitialCapacity = some b) := by
  unfold newBuffer at h
  cases o with
  | some b₀ => cases h; exact .inl rfl
  | none =>
    simp only at h
    split at h
    · rename_i b' hb
      cases h
      exact .inr ⟨rfl, hb⟩
    · cases h

/-- **`start_`** -/
theorem start_ok (h : s.start A = .ok s') :
    (s' = s ∧ (s.handle = none ∨ s.state = .kConnected)) ∨
      (s.handle ≠ none ∧ ∃ r w wr, newBuffer A s.readBuffer = .ok r ∧
        newBuffer A s.writeBuffer = .ok w ∧ s' =
          { s with
            cleanupDone := false, readBuffer := some r, writeBuffer := some w
            channel := some ⟨.established, true, false, true⟩, writeReady := wr
            state := .kConnected, log := s.log ++ s.moveLog .kConnected }) := by
  unfold start at h
  split_ifs at h with h1 h2
  · cases h; exact .inl ⟨rfl, .inl h1⟩
  · cases h; exact .inl ⟨rfl, .inr h2.2.2.2⟩
  · right
    obtain ⟨r, hr, h⟩ := bind_ok h
    obtain ⟨w, hw, h⟩ := bind_ok h
    refine ⟨h1, r, w, ?_⟩
    obtain ⟨wr, he, -⟩ := update_eq ⟨.established, true, false, false⟩
      { s with cleanupDone := false, readBuffer := some r, writeBuffer := some w }
    rw [he, setState_eq] at h
    cases h
    exact ⟨wr, hr, hw, rfl⟩

/-- The frame and the record of a callback that is called if it is set. -/
def callFrames (set : Bool) (cb : Callback) : List Frame := if set then [.user cb] else []

def callLog (set : Bool) (cb : Callback) : List Ev := if set then [.called cb] else []

theorem mem_callLog {set : Bool} {cb : Callback} {e : Ev} (h : e ∈ callLog set cb) :
    e = .called cb := by
  unfold callLog at h
  split_ifs at h
  · exact List.mem_singleton.1 h
  · cases h

theorem callIf_eq (b : Bool) (cb : Callback) (s : St) : (if b then s.call cb none else s) =
    { s with ctl := callFrames b cb ++ s.ctl, log := s.log ++ callLog b cb } := by
  cases b with
  | true => rfl
  | false => simp [callFrames, callLog]

theorem connectFailed_eq (err : ℕ) (s : St) : s.connectFailed err =
    { s with
      ctl := callFrames s.onConnectError (.connectError err) ++ s.ctl
      log := s.log ++ callLog s.onConnectError (.connectError err) } :=
  callIf_eq _ _ _

/-- **`start_connect_in_poll_`**: the attempt fails at once, or a socket is connecting. -/
theorem startConnectInPoll_eq (r : ConnectRet) (s : St) :
    (∃ err, s.startConnectInPoll r = s.connectFailed err) ∨
      ∃ h w, s.startConnectInPoll r =
        { s with
          handle := some h, state := .kConnecting, writeReady := w
          channel := some ⟨.connecting, false, true, true⟩
          log := s.log ++ s.moveLog .kConnecting } := by
  cases r with
  | badAddress => exact .inl ⟨_, rfl⟩
  | failed e => exact .inl ⟨_, rfl⟩
  | inProgress h =>
    right
    unfold startConnectInPoll
    simp only [setState_eq]
    obtain ⟨w, he, -⟩ := update_eq ⟨.connecting, false, true, false⟩
      { s with
        handle := some h, state := .kConnecting
        log := s.log ++ moveLog .kConnecting { s with handle := some h } }
    exact ⟨h, w, he⟩

theorem dropChannel_eq (s : St) : ∃ w, s.dropChannel =
    { s with channel := none, writeReady := w, log := s.log ++ s.deregisterLog } := by
  obtain ⟨ch, w, he, -⟩ := s.deregister_eq
  exact ⟨w, by rw [dropChannel, he]⟩

theorem takeSoError_snd (s : St) : ∃ e, s.takeSoError.2 = { s with soError := e } := by
  unfold takeSoError
  split
  · exact ⟨_, rfl⟩
  · exact ⟨_, rfl⟩

/-- **`handle_connect_event_`**: the pending error decides what becomes of the attempt. -/
theorem handleConnectEvent_ok (h : s.handleConnectEvent A = .ok s') :
    (s.state ≠ .kConnecting ∧ s' = s) ∨
      (s.state = .kConnecting ∧ s.takeSoError.1.getD EBADF ≠ 0 ∧ ∃ w e, s' =
        { s with
          soError := e, channel := none, writeReady := w, handle := none, state := .kDisconnected
          ctl := callFrames s.onConnectError (.connectError (s.takeSoError.1.getD EBADF)) ++ s.ctl
          log := s.log ++ s.deregisterLog ++ s.closeLog ++ [.moved .kDisconnected] ++
            callLog s.onConnectError (.connectError (s.takeSoError.1.getD EBADF)) }) ∨
      (s.state = .kConnecting ∧ s.takeSoError.1.getD EBADF = 0 ∧ ∃ w e t,
        { s with
          soError := e, channel := none, writeReady := w
          log := s.log ++ s.deregisterLog }.start A = .ok t ∧
        s' = { t with
          ctl := callFrames t.onConnected .connected ++ t.ctl
          log := t.log ++ callLog t.onConnected .connected }) := by
  unfold handleConnectEvent at h
  by_cases hs : s.state = .kConnecting
  swap
  · rw [if_pos hs] at h
    cases h
    exact .inl ⟨hs, rfl⟩
  right
  rw [if_neg (by simpa using hs)] at h
  obtain ⟨e, he⟩ := s.takeSoError_snd
  obtain ⟨w, hd⟩ := { s with soError := e }.dropChannel_eq
  simp only [he, hd] at h
  split_ifs at h with herr
  · left
    refine ⟨hs, herr, w, e, ?_⟩
    rw [closeSocket_eq, setState_eq, connectFailed_eq] at h
    cases h
    simp only [closeLog, moveLog, hs]
    rfl
  · right
    obtain ⟨t, ht, h⟩ := bind_ok h
    refine ⟨hs, by simpa using herr, w, e, t, ht, ?_⟩
    rw [callIf_eq] at h
    cases h
    rfl

/-! ### Events -/

/-- The frames of the handlers that `handle_event_` will call. -/
inductive EventFrames (ev : Events) : List Frame → Prop
  | close (err : ℕ) : ev.error = true ∨ ev.hup = true →
      EventFrames ev ((if ev.read then [.readLoop false] else []) ++ [.closePart err])
  | write : ev.write = true →
      EventFrames ev ((if ev.read then [.readLoop false] else []) ++ [.writePart])
  | read : ev.write = false → EventFrames ev (if ev.read then [.readLoop false] else [])

theorem readPart_eq (ev : Events) (s : St) : s.readPart ev =
    { s with ctl := (if ev.read then [.readLoop false] else []) ++ s.ctl } := by
  unfold readPart
  split_ifs <;> rfl

/-- **`Channel::handle_event_`**: a connecting channel only reacts to a write event that comes
without an error and without a hang-up. -/
theorem handleEvent_ok {role : Role} {ev : Events} (h : s.handleEvent A role ev = .ok s') :
    (role = .connecting ∧ (ev.error = true ∨ ev.hup = true ∨ ev.write = false) ∧
        ∃ e, s' = { s with soError := e }) ∨
      (role = .connecting ∧ s.handleConnectEvent A = .ok s') ∨
      (role = .established ∧ ∃ e fs, EventFrames ev fs ∧
        s' = { s with soError := e, ctl := fs ++ s.ctl }) := by
  unfold handleEvent at h
  obtain ⟨e, he⟩ : ∃ e, (if ev.error then s.takeSoError.2 else s) = { s with soError := e } := by
    cases ev.error with
    | true => exact s.takeSoError_snd
    | false => exact ⟨_, rfl⟩
  by_cases hev : (ev.error || ev.hup) = true
  · rw [if_pos hev] at h
    rw [Bool.or_eq_true] at hev
    simp only [he] at h
    cases role with
    | connecting =>
      cases h
      exact .inl ⟨rfl, hev.imp_right .inl, e, rfl⟩
    | established =>
      cases h
      refine .inr (.inr ⟨rfl, e, _,
        .close (if ev.error then s.takeSoError.1.getD 0 else 0) hev, ?_⟩)
      rw [readPart_eq]
      simp [push]
  · rw [if_neg hev] at h
    cases role with
    | connecting =>
      cases hw : ev.write with
      | true => simp only [hw, if_true] at h; exact .inr (.inl ⟨rfl, h⟩)
      | false =>
        simp only [hw] at h
        cases h
        exact .inl ⟨rfl, .inr (.inr rfl), _, rfl⟩
    | established =>
      cases h
      refine .inr (.inr ⟨rfl, s.soError, ?_⟩)
      rw [readPart_eq]
      cases hw : ev.write with
      | true => exact ⟨_, .write hw, by simp [push]⟩
      | false => exact ⟨_, .read hw, rfl⟩

end St

end Conn

end CxpNet
