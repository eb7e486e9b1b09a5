import CxpNet.Conn.Graceful
import CxpNet.Conn.Stack

/-!
# The watermarks

`send_in_poll_thread_` calls the watermark callback when the backlog has risen above
`high_watermark_`, `handle_write_event_` when it has fallen to `low_watermark_`; in both places
`high_watermark_warning_` is updated only after the callback has returned.

* `Conn.notices_alternate` : the notifications alternate, beginning with a high one, and a backlog
  above the high watermark has been notified, unless the callback sends a message from inside a high
  notification, or one from inside a low notification that lifts the backlog above the high
  watermark;
* `Conn.latch_reflects_backlog` : with a callback that does not send, the flag reflects the backlog
  if the low watermark is below the high one, which `set_watermark` does not check.

A callback in progress is marked by the frame that updates the flag (`marks`); `Latch` is the
invariant, with one case for each such mark.
-/

namespace CxpNet

namespace Conn

/-! ### Vocabulary -/

/-- `write_buffer_->readable_size()` -/
def St.backlog (s : St) : ℕ :=
  match s.writeBuffer with
  | none => 0
  | some b => b.readableSize

/-- The notifications that were delivered. -/
def notices (l : List Ev) : List ℕ :=
  l.filterMap fun e => match e with
    | .called (.watermark n) => some n
    | _ => none

/-- The list alternates between `high` and `low` and begins with `high`; the flag says whether it
ends with `high`. -/
inductive Alternates (high low : ℕ) : Bool → List ℕ → Prop
  | nil : Alternates high low false []
  | rise {l : List ℕ} : Alternates high low false l → Alternates high low true (l ++ [high])
  | fall {l : List ℕ} : Alternates high low true l → Alternates high low false (l ++ [low])

/-- The flag is to be updated after the callback. -/
def Frame.isMark : Frame → Bool
  | .afterHigh | .afterLow => true
  | _ => false

/-- The watermark callbacks in progress. -/
def marks (ctl : List Frame) : List Frame := ctl.filter Frame.isMark

/-- The settings that are to be made before the first message. -/
def Act.isSetting : Act → Bool
  | .setWatermark _ _ | .setWatermarkCallback | .setBufferSize _ _ => true
  | _ => false

/-- No message has been begun. -/
def noneBegan (l : List Ev) : Bool := l.all fun e => !e.isBegan

namespace St

/-- How many bytes the step appends to the write buffer. -/
def toQueue (s : St) (a : Act) : ℕ :=
  match a, s.ctl with
  | .send m, _ => if s.state = .kConnected ∧ 0 < s.backlog then m.bytes.length else 0
  | .tau, .sendLoop m n :: _ => m.bytes.length - n
  | .sendRet (.error e), .sendLoop m n :: _ =>
    if handleErrorAction e = .kBreak then m.bytes.length - n else 0
  | _, _ => 0

/-- A setting is made after the first message. -/
def setsLate (s : St) (a : Act) : Bool := a.isSetting && !noneBegan s.log

/-- A message is sent from inside a high notification. -/
def sendsInHigh (s : St) : Act → Bool
  | .send m => .afterHigh ∈ s.ctl ∧ s.state = .kConnected ∧ m.bytes ≠ []
  | _ => false

/-- Bytes that lift the backlog above the high watermark are queued from inside a low
notification. -/
def overfillsInLow (s : St) (a : Act) : Bool :=
  .afterLow ∈ s.ctl ∧ 0 < s.toQueue a ∧ s.highWatermark < s.backlog + s.toQueue a

/-- A message is sent from inside a notification. -/
def reenters (s : St) : Act → Bool
  | .send _ => .afterHigh ∈ s.ctl ∨ .afterLow ∈ s.ctl
  | _ => false

end St

/-- A step of a run in which the settings are made before the first message, and the callback sends
neither from inside a high notification, nor too much from inside a low one. -/
def Measured (c : Except Crash St) (a : Act) : Prop :=
  match c with
  | .ok s => s.setsLate a = false ∧ s.sendsInHigh a = false ∧ s.overfillsInLow a = false
  | .error _ => True

instance : ∀ c a, Decidable (Measured c a)
  | .ok s, a => inferInstanceAs (Decidable
      (s.setsLate a = false ∧ s.sendsInHigh a = false ∧ s.overfillsInLow a = false))
  | .error _, _ => .isTrue trivial

/-- A step of a run in which the settings are made before the first message, and the callback does
not send. -/
def NoReentry (c : Except Crash St) (a : Act) : Prop :=
  match c with
  | .ok s => s.setsLate a = false ∧ s.reenters a = false
  | .error _ => True

instance : ∀ c a, Decidable (NoReentry c a)
  | .ok s, a => inferInstanceAs (Decidable (s.setsLate a = false ∧ s.reenters a = false))
  | .error _, _ => .isTrue trivial

/-! ### Small facts -/

@[simp] theorem notices_append (l l' : List Ev) : notices (l ++ l') = notices l ++ notices l' :=
  List.filterMap_append

@[simp] theorem marks_append (l l' : List Frame) : marks (l ++ l') = marks l ++ marks l' :=
  List.filter_append ..

theorem marks_cons (f : Frame) (l : List Frame) :
    marks (f :: l) = (if f.isMark then [f] else []) ++ marks l := by
  rw [marks, List.filter_cons]
  split_ifs <;> rfl

theorem mem_of_marks {f : Frame} {l : List Frame} (h : f ∈ marks l) : f ∈ l :=
  (List.mem_filter.1 h).1

theorem mem_marks {f : Frame} {l : List Frame} (h : f ∈ l) (hf : f.isMark = true) : f ∈ marks l :=
  List.mem_filter.2 ⟨h, hf⟩

theorem noneBegan_append {l l' : List Ev} (h : noneBegan (l ++ l') = true) :
    noneBegan l = true := by
  rw [noneBegan, List.all_append, Bool.and_eq_true] at h
  exact h.1

section

variable {A : Allocator} {K : Kernel} {s₀ s s' t : St} {a : Act}

theorem notices_callLog (set : Bool) {cb : Callback} (h : ∀ n, cb ≠ .watermark n) :
    notices (St.callLog set cb) = [] := by
  unfold St.callLog
  split_ifs
  · cases cb <;> simp_all [notices]
  · rfl

theorem notices_moveLog (st : State) : notices (t.moveLog st) = [] := by
  unfold St.moveLog
  split_ifs <;> rfl

theorem notices_deregisterLog : notices t.deregisterLog = [] := by
  unfold St.deregisterLog
  split <;> rfl

theorem notices_closeLog : notices t.closeLog = [] := by
  unfold St.closeLog
  split <;> rfl

theorem notices_cleanupLog (err : ℕ) : notices (t.cleanupLog err) = [] := by
  rw [notices, List.filterMap_eq_nil_iff]
  intro e he
  cases St.tidies_of_mem he <;> rfl

theorem marks_closeFrames (err : ℕ) : marks (t.closeFrames err) = [] := by
  unfold St.closeFrames
  split_ifs <;> rfl

theorem marks_callFrames (set : Bool) (cb : Callback) : marks (St.callFrames set cb) = [] := by
  unfold St.callFrames
  split_ifs <;> rfl

theorem marks_eventFrames {ev : Events} {fs : List Frame} (h : St.EventFrames ev fs) :
    marks fs = [] := by
  cases h <;> split_ifs <;> rfl

/-! ### The two places -/

/-- **The end of `send_in_poll_thread_`** -/
theorem checkHigh_cases (h : t.checkHigh = .ok s') :
    (s' = t ∧ (t.warning = false → t.backlog ≤ t.highWatermark)) ∨
      (t.warning = false ∧ t.highWatermark < t.backlog ∧
        ((t.onWatermark = true ∧ s' = t.call (.watermark t.highWatermark) (some .afterHigh)) ∨
          (t.onWatermark = false ∧ s' = { t with warning := true }))) := by
  obtain ⟨n, hn, h⟩ := bind_ok h
  obtain ⟨b, hb, rfl⟩ := St.writeSize_ok hn
  have hback : t.backlog = b.readableSize := by simp [St.backlog, hb]
  rw [hback]
  split_ifs at h with hc ho
  · cases h
    exact .inr ⟨hc.1, hc.2, .inl ⟨ho, rfl⟩⟩
  · cases h
    exact .inr ⟨hc.1, hc.2, .inr ⟨by simpa using ho, rfl⟩⟩
  · cases h
    refine .inl ⟨rfl, fun hw => ?_⟩
    by_contra hlt
    exact hc ⟨hw, by omega⟩

/-- **`handle_write_event_`** after bytes were accepted. -/
theorem wrote_cases {n : ℕ} (h : t.wrote A n = .ok s') : ∃ b b', t.writeBuffer = some b ∧
    b.beenRead A n = .done b' ∧
      ((¬ (t.warning = true ∧ b'.readableSize ≤ t.lowWatermark) ∧
          s' = { t with writeBuffer := some b', ctl := .writeLoop :: t.ctl }) ∨
        (t.warning = true ∧ b'.readableSize ≤ t.lowWatermark ∧
          ((t.onWatermark = true ∧ s' =
              { t with
                writeBuffer := some b'
                ctl := .user (.watermark t.lowWatermark) :: .afterLow :: t.ctl
                log := t.log ++ [.called (.watermark t.lowWatermark)] }) ∨
            (t.onWatermark = false ∧
              s' = { t with writeBuffer := some b', ctl := .afterLow :: t.ctl })))) := by
  obtain ⟨u, hu, h⟩ := bind_ok h
  obtain ⟨b, b', hb, hr, rfl⟩ := St.onWriteBuffer_ok hu
  obtain ⟨k, hk, h⟩ := bind_ok h
  obtain ⟨b₁, hb₁, rfl⟩ := St.writeSize_ok hk
  cases hb₁
  refine ⟨b, b', hb, hr, ?_⟩
  split_ifs at h with hc ho
  · cases h
    exact .inr ⟨hc.1, hc.2, .inl ⟨ho, rfl⟩⟩
  · cases h
    exact .inr ⟨hc.1, hc.2, .inr ⟨by simpa using ho, rfl⟩⟩
  · cases h
    exact .inl ⟨hc, rfl⟩

/-! ### The invariant -/

/-- Where the flag, the backlog and the notifications stand: no notification is in progress, or a
high one, or a low one. -/
inductive Latch (s : St) : Prop
  | idle : marks s.ctl = [] → (s.warning = false → s.backlog ≤ s.highWatermark) →
      (s.warning = true → s.lowWatermark < s.backlog) →
      (s.onWatermark = true →
        Alternates s.highWatermark s.lowWatermark s.warning (notices s.log)) → Latch s
  | high : marks s.ctl = [.afterHigh] → NoSend s.ctl → s.warning = false →
      s.highWatermark < s.backlog →
      (s.onWatermark = true → Alternates s.highWatermark s.lowWatermark true (notices s.log)) →
      Latch s
  | low : marks s.ctl = [.afterLow] → s.warning = true → s.backlog ≤ s.highWatermark →
      (s.onWatermark = true → Alternates s.highWatermark s.lowWatermark false (notices s.log)) →
      Latch s

/-- Nothing has been sent. -/
structure Fresh (s : St) : Prop where
  warning : s.warning = false
  backlog : s.backlog = 0
  marks : marks s.ctl = []
  noSend : NoSend s.ctl
  notices : notices s.log = []

/-- The state of the watermarks. -/
structure Watch (s : St) : Prop where
  wf : ∀ b ∈ s.writeBuffer, b.WF
  fresh : noneBegan s.log = true → Fresh s
  latch : s.lowWatermark < s.highWatermark → Latch s

/-- Nothing has been sent, so the thresholds do not matter yet. -/
theorem Fresh.latch (h : Fresh s) : Latch s := by
  refine .idle h.marks (fun _ => by rw [h.backlog]; exact Nat.zero_le _) (fun hw => ?_) fun _ => ?_
  · simp [h.warning] at hw
  · rw [h.warning, h.notices]
    exact .nil

/-- What the watermarks look at, but for the write buffer. -/
structure Dial where
  warning : Bool
  highWatermark : ℕ
  lowWatermark : ℕ
  onWatermark : Bool

def St.dial (s : St) : Dial := ⟨s.warning, s.highWatermark, s.lowWatermark, s.onWatermark⟩

namespace Watch

theorem backlog_eq {b : Buffer} (hb : s.writeBuffer = some b) : s.backlog = b.readableSize := by
  simp [St.backlog, hb]

/-- A step that keeps the backlog, the flag and the settings, and neither begins nor ends a
notification. -/
theorem frame {l : List Ev} (h : Watch s) (hwf : ∀ b ∈ s'.writeBuffer, b.WF)
    (hb : s'.backlog = s.backlog) (hd : s'.dial = s.dial) (hm : marks s'.ctl = marks s.ctl)
    (hs : noneBegan s'.log = true ∨ .afterHigh ∈ s.ctl → NoSend s.ctl → NoSend s'.ctl)
    (hlog : s'.log = s.log ++ l) (hn : notices l = []) : Watch s' := by
  simp only [St.dial, Dial.mk.injEq] at hd
  obtain ⟨hw, hh, hl, ho⟩ := hd
  have hnot : notices s'.log = notices s.log := by
    rw [hlog, notices_append, hn, List.append_nil]
  refine ⟨hwf, fun hnone => ?_, fun hlt => ?_⟩
  · obtain ⟨f1, f2, f3, f4, f5⟩ := h.fresh (noneBegan_append (hlog ▸ hnone))
    exact ⟨hw.trans f1, hb.trans f2, hm.trans f3, hs (.inl hnone) f4, hnot.trans f5⟩
  · rw [hh, hl] at hlt
    cases h.latch hlt with
    | idle h1 h2 h3 h4 =>
      refine .idle (hm.trans h1) ?_ ?_ ?_
      · rw [hw, hb, hh]
        exact h2
      · rw [hw, hb, hl]
        exact h3
      · rw [ho, hh, hl, hw, hnot]
        exact h4
    | high h1 h2 h3 h4 h5 =>
      refine .high (hm.trans h1) (hs (.inr (mem_of_marks (by simp [h1]))) h2) (hw.trans h3) ?_ ?_
      · rw [hh, hb]
        exact h4
      · rw [ho, hh, hl, hnot]
        exact h5
    | low h1 h2 h3 h4 =>
      refine .low (hm.trans h1) (hw.trans h2) ?_ ?_
      · rw [hh, hb]
        exact h3
      · rw [ho, hh, hl, hnot]
        exact h4

/-- Such a step that does not touch the write buffer. -/
theorem keep {l : List Ev} (h : Watch s) (hb : s'.writeBuffer = s.writeBuffer)
    (hd : s'.dial = s.dial) (hm : marks s'.ctl = marks s.ctl) (hs : NoSend s.ctl → NoSend s'.ctl)
    (hlog : s'.log = s.log ++ l) (hn : notices l = []) : Watch s' :=
  h.frame (fun b hb' => h.wf b (hb ▸ hb')) (by simp only [St.backlog, hb]) hd hm (fun _ => hs)
    hlog hn

/-- A step that does not touch the stack either. -/
theorem still {l : List Ev} (h : Watch s) (hb : s'.writeBuffer = s.writeBuffer)
    (hd : s'.dial = s.dial) (hctl : s'.ctl = s.ctl) (hlog : s'.log = s.log ++ l)
    (hn : notices l = []) : Watch s' :=
  h.keep hb hd (by rw [hctl]) (fun hs => hctl ▸ hs) hlog hn

/-- A frame that is no mark is left. -/
theorem pop {l : List Ev} {f : Frame} {rest : List Frame} (h : Watch s) (hctl : s.ctl = f :: rest)
    (hf : f.isMark = false) (hb : s'.writeBuffer = s.writeBuffer) (hd : s'.dial = s.dial)
    (hctl' : s'.ctl = rest) (hlog : s'.log = s.log ++ l) (hn : notices l = []) : Watch s' := by
  refine h.keep hb hd ?_ (fun hs g hg => hs g ?_) hlog hn
  · rw [hctl', hctl, marks_cons, hf]
    rfl
  · rw [hctl]
    exact List.mem_cons_of_mem f (hctl' ▸ hg)

/-- The state in which `cleanup_` is called. -/
theorem closing {err : ℕ} (h : Watch s) (hc : Closing s a err t) : Watch t := by
  cases hc with
  | handler hctl hf =>
    have hmark : ∀ {f : Frame}, f = .closePart err ∨ f = .afterMessage true err →
        f.isMark = false := by
      rintro f (rfl | rfl) <;> rfl
    exact h.pop (l := []) hctl (hmark hf) rfl rfl rfl (by simp) rfl
  | failed hctl hf =>
    have hmark : ∀ {f : Frame}, (f = .writeLoop ∨ ∃ m n, f = .sendLoop m n) →
        f.isMark = false := by
      rintro f (rfl | ⟨m, n, rfl⟩) <;> rfl
    exact h.pop hctl (hmark hf) rfl rfl rfl rfl rfl
  | user => exact h
  | task => exact h.still (l := []) rfl rfl rfl (by simp) rfl

theorem cleanup (err : ℕ) (h : Watch t) (hd : t.cleanupDone = false) : Watch (t.cleanup err) := by
  obtain ⟨sch, ch, w, rel, he, -⟩ := St.cleanup_eq err hd
  rw [he]
  refine h.keep rfl rfl ?_ (fun hs => ?_) rfl (notices_cleanupLog err)
  · rw [marks_append, marks_closeFrames, List.nil_append]
  · exact List.forall_mem_append.2 ⟨(noLoop_of_light (light_closeFrames err t)).noSend, hs⟩

theorem shutdownInPoll (h : Watch t) (hok : t.shutdownInPoll = .ok s') : Watch s' := by
  rcases St.shutdownInPoll_ok hok with rfl | ⟨-, -, -, ch, w, l, tid, nid, sch, hf, rfl⟩
  · exact h
  · refine h.still rfl rfl rfl (List.append_assoc ..) ?_
    cases hf <;> rfl

/-- A user callback other than the watermark callback is called, if it is set. -/
theorem calls {set : Bool} {cb : Callback} (h : Watch t) (hcb : ∀ n, cb ≠ .watermark n) :
    Watch { t with ctl := St.callFrames set cb ++ t.ctl, log := t.log ++ St.callLog set cb } := by
  refine h.keep rfl rfl ?_ (fun hs => ?_) rfl (notices_callLog set hcb)
  · rw [marks_append, marks_callFrames, List.nil_append]
  · exact List.forall_mem_append.2 ⟨(noLoop_of_light (light_callFrames set cb)).noSend, hs⟩

theorem startConnectInPoll (r : ConnectRet) (h : Watch t) : Watch (t.startConnectInPoll r) := by
  rcases t.startConnectInPoll_eq r with ⟨err, he⟩ | ⟨k, w, he⟩ <;> rw [he]
  · rw [St.connectFailed_eq]
    exact h.calls (by simp)
  · exact h.still rfl rfl rfl rfl (notices_moveLog _)

/-- **`start_`** keeps the backlog: a new buffer is empty. -/
theorem start {u : St} (h : Watch t) (hok : t.start A = .ok u) : Watch u := by
  rcases St.start_ok hok with ⟨rfl, -⟩ | ⟨-, r, w, wr, -, hw, rfl⟩
  · exact h
  · have hbuf : w.WF ∧ w.readableSize = t.backlog := by
      rcases St.newBuffer_ok hw with hb | ⟨hb, hnew⟩
      · exact ⟨h.wf w hb, (backlog_eq hb).symm⟩
      · obtain ⟨hwf, he⟩ := Buffer.new_sound hnew
        refine ⟨hwf, ?_⟩
        rw [hwf.readable_eq_nil_iff.1 he]
        simp [St.backlog, hb]
    refine h.frame (fun b hb => ?_) hbuf.2 rfl rfl (fun _ => id) rfl (notices_moveLog _)
    cases hb
    exact hbuf.1

/-- A setting that is made before the first message. -/
theorem setting (h : Watch s) (hnone : noneBegan s.log = true)
    (hwf : ∀ b ∈ s'.writeBuffer, b.WF) (hb : s'.backlog = 0) (hw : s'.warning = s.warning)
    (hctl : s'.ctl = s.ctl) (hlog : s'.log = s.log) : Watch s' := by
  obtain ⟨f1, -, f3, f4, f5⟩ := h.fresh hnone
  have hf : Fresh s' := ⟨hw.trans f1, hb, by rw [hctl]; exact f3, hctl ▸ f4, by rw [hlog]; exact f5⟩
  exact ⟨hwf, fun _ => hf, fun _ => hf.latch⟩

/-- A notification is in progress only after a message was begun. -/
theorem not_fresh_of_mark {f : Frame} (h : Watch s) (hf : f ∈ s.ctl) (hm : f.isMark = true) :
    noneBegan s.log = true → False := fun hnone => by
  have hmem := mem_marks hf hm
  rw [(h.fresh hnone).marks] at hmem
  cases hmem

/-- **A low notification ends.** -/
theorem endLow {rest : List Frame} (h : Watch s) (hctl : s.ctl = .afterLow :: rest) :
    Watch { s with warning := false, ctl := .writeLoop :: rest } := by
  have hmem : .afterLow ∈ s.ctl := by simp [hctl]
  refine ⟨h.wf, fun hnone => (h.not_fresh_of_mark hmem rfl hnone).elim, fun hlt => ?_⟩
  have hm : marks s.ctl = .afterLow :: marks rest := by rw [hctl, marks_cons]; rfl
  cases h.latch hlt with
  | idle h1 | high h1 => simp [hm] at h1
  | low h1 h2 h3 h4 =>
    rw [hm, List.cons.injEq] at h1
    refine .idle ?_ (fun _ => h3) (fun hw => by cases hw) h4
    rw [marks_cons, h1.2]
    rfl

/-- **A high notification ends.** -/
theorem endHigh {rest : List Frame} (h : Watch s) (hctl : s.ctl = .afterHigh :: rest) :
    Watch { s with warning := true, ctl := rest } := by
  have hmem : .afterHigh ∈ s.ctl := by simp [hctl]
  refine ⟨h.wf, fun hnone => (h.not_fresh_of_mark hmem rfl hnone).elim, fun hlt => ?_⟩
  have hm : marks s.ctl = .afterHigh :: marks rest := by rw [hctl, marks_cons]; rfl
  cases h.latch hlt with
  | idle h1 | low h1 => simp [hm] at h1
  | high h1 h2 h3 h4 h5 =>
    rw [hm, List.cons.injEq] at h1
    exact .idle h1.2 (fun hw => by cases hw) (fun _ => lt_trans hlt h4) h5

/-- **`handle_write_event_`** after bytes were accepted: the backlog falls, and a low notification
may begin. -/
theorem wrote {b : Buffer} {n : ℕ} {bs : List UInt8} (h : Watch s) (hctl : s.ctl = [.writeLoop])
    (hb : s.writeBuffer = some b) (hn : n ≤ b.readable.length)
    (hok : ({ s with ctl := [] }.note (.sent bs)).wrote A n = .ok s') : Watch s' := by
  obtain ⟨b₁, b', hb₁, hr, hcases⟩ := wrote_cases hok
  obtain rfl : b = b₁ := Option.some.inj (hb.symm.trans hb₁)
  have hwf := h.wf b hb
  have hle : n ≤ b.readableSize := by rw [← hwf.length_readable]; exact hn
  obtain ⟨hwf', hread⟩ := Buffer.beenRead_done hwf hle hr
  -- a write lowers the backlog
  have hfall : b'.readableSize ≤ s.backlog := by
    rw [backlog_eq hb, ← hwf'.length_readable, ← hwf.length_readable, hread, List.length_drop]
    omega
  have hm : marks s.ctl = [] := by rw [hctl]; rfl
  have hnot : notices (s.log ++ [Ev.sent bs]) = notices s.log := by
    rw [notices_append]
    exact List.append_nil _
  have hwf'' : ∀ b ∈ some b', b.WF := fun b hb => by
    cases hb
    exact hwf'
  rcases hcases with ⟨hc, rfl⟩ | ⟨hw, hlow, hcase⟩
  · -- the flag is not touched
    refine ⟨hwf'', fun hnone => ?_, fun hlt => ?_⟩
    · obtain ⟨f1, f2, f3, f4, f5⟩ := h.fresh (noneBegan_append hnone)
      have hsend : NoSend [.writeLoop] := by simp [NoSend, Frame.isSend]
      exact ⟨f1, Nat.le_zero.1 (hfall.trans f2.le), rfl, hsend, hnot.trans f5⟩
    · cases h.latch hlt with
      | idle h1 h2 h3 h4 =>
        refine .idle rfl (fun hw => hfall.trans (h2 hw)) (fun hw => ?_) (fun ho => ?_)
        · by_contra hle
          exact hc ⟨hw, not_lt.1 hle⟩
        · have := h4 ho
          rw [← hnot] at this
          exact this
      | high h1 | low h1 => simp [hm] at h1
  · -- a low notification begins
    have hbegan : noneBegan s.log = true → False := fun hnone => by
      have hfalse : s.warning = false := (h.fresh hnone).warning
      exact absurd (hfalse.symm.trans hw) (by decide)
    rcases hcase with ⟨ho, rfl⟩ | ⟨ho, rfl⟩
    · refine ⟨hwf'', fun hnone => ?_, fun hlt => ?_⟩
      · exact (hbegan (noneBegan_append (noneBegan_append hnone))).elim
      · cases h.latch hlt with
        | idle h1 h2 h3 h4 =>
          refine .low rfl hw (hlow.trans hlt.le) fun _ => ?_
          have halt := h4 ho
          rw [show s.warning = true from hw, ← hnot] at halt
          have hlast : notices (s.log ++ [Ev.sent bs] ++ [Ev.called (.watermark s.lowWatermark)]) =
              notices (s.log ++ [Ev.sent bs]) ++ [s.lowWatermark] := by
            rw [notices_append]
            rfl
          exact hlast ▸ .fall halt
        | high h1 | low h1 => simp [hm] at h1
    · refine ⟨hwf'', fun hnone => (hbegan (noneBegan_append hnone)).elim, fun hlt => ?_⟩
      exact .low rfl hw (hlow.trans hlt.le) fun ho' => absurd (ho'.symm.trans ho) (by decide)

/-! ### Sending -/

/-- What is known of the state in which bytes are queued. -/
structure Queues (s t : St) (a : Act) (bs : List UInt8) : Prop where
  writeBuffer : t.writeBuffer = s.writeBuffer
  dial : t.dial = s.dial
  marks : Conn.marks t.ctl = Conn.marks s.ctl
  noSend : NoSend t.ctl
  log : ∃ l, t.log = s.log ++ l ∧ Conn.notices l = []
  /-- A message has been begun. -/
  began : noneBegan t.log = false ∨ ¬ NoSend s.ctl
  lt : bs.length < 2 ^ 63
  /-- It is not done from inside a high notification, and not too much from inside a low one. -/
  high : Frame.afterHigh ∈ s.ctl → ¬ NoSend s.ctl
  low : Frame.afterLow ∈ s.ctl → bs ≠ [] → s.backlog + bs.length ≤ s.highWatermark

theorem queues_of {bs : List UInt8} (hq : Queueing s a bs t) (hsend : NoLoop s.ctl.tail)
    (hG : Measured (.ok s) a) : Queues s t a bs := by
  obtain ⟨-, hhigh, hlow⟩ := hG
  have hroom : ∀ k, s.toQueue a = k → .afterLow ∈ s.ctl → 0 < k →
      s.backlog + k ≤ s.highWatermark := by
    rintro k rfl h1 h2
    simp only [St.overfillsInLow, decide_eq_false_iff_not, not_and, not_lt] at hlow
    exact hlow h1 h2
  cases hq with
  | @behind m u b hs hst hb h0 =>
    have hwhole := (noLoop_whole hsend hs.notLooping.2).noSend
    have hbegan : noneBegan (u.log ++ [Ev.began m.bytes]) = false := by
      simp [noneBegan, Ev.isBegan]
    cases hs with
    | user hu hne =>
      refine ⟨rfl, rfl, rfl, hwhole, ⟨_, rfl, rfl⟩, .inl hbegan, m.lt, fun hh => ?_, fun hl _ => ?_⟩
      · simp [St.sendsInHigh, hh, hst, hne] at hhigh
      · refine hroom _ ?_ hl (List.length_pos_of_ne_nil hne)
        simp [St.toQueue, hst, backlog_eq hb, h0]
    | task r hnil =>
      refine ⟨rfl, rfl, rfl, hwhole, ⟨_, rfl, rfl⟩, .inl hbegan, m.lt, fun hh => ?_, fun hl => ?_⟩
      · simp [hnil] at hh
      · simp [hnil] at hl
  | @rest m n _ hend hn =>
    have hlen : (m.bytes.drop n).length < 2 ^ 63 := by
      rw [List.length_drop]
      have := m.lt
      omega
    have hloop : ¬ NoSend s.ctl := fun hs => by
      have := hs (.sendLoop m n) (by rw [hend.ctl_eq]; simp)
      cases this
    have htail : NoSend t.ctl := by
      rw [hend.ctl_eq] at hsend
      exact hsend.noSend
    have hmarks : Conn.marks t.ctl = Conn.marks s.ctl := by
      rw [hend.ctl_eq, marks_cons]
      rfl
    have hlow' : s.toQueue a = m.bytes.length - n → .afterLow ∈ s.ctl → m.bytes.drop n ≠ [] →
        s.backlog + (m.bytes.drop n).length ≤ s.highWatermark := fun hk hl _ => by
      rw [List.length_drop]
      exact hroom _ hk hl (by omega)
    cases hend with
    | goal hctl hg =>
      refine ⟨rfl, rfl, hmarks, htail, ⟨[], by simp, rfl⟩, .inr hloop, hlen, fun _ => hloop,
        hlow' ?_⟩
      simp [St.toQueue, hctl]
    | blocked hctl hg he =>
      refine ⟨rfl, rfl, hmarks, htail, ⟨_, rfl, rfl⟩, .inr hloop, hlen, fun _ => hloop, hlow' ?_⟩
      simp [St.toQueue, hctl, he]

/-- **Bytes are queued**: the backlog rises, and a high notification may begin. -/
theorem enqueue {bs : List UInt8} (h : Watch s) (hq : Queues s t a bs)
    (hok : t.enqueue A bs = .ok s') : Watch s' := by
  obtain ⟨b, b', u, hb, happ, hu, hok⟩ := St.enqueue_ok hok
  have hbs : s.writeBuffer = some b := hq.writeBuffer ▸ hb
  obtain ⟨hwf', hread, hne⟩ := Buffer.append_done (h.wf b hbs) hq.lt happ
  obtain ⟨c, c', w, -, rfl, -⟩ := St.addWriteEvent_ok hu
  have hrise : b'.readableSize = s.backlog + bs.length := by
    rw [backlog_eq hbs, ← hwf'.length_readable, ← (h.wf b hbs).length_readable, hread,
      List.length_append]
  have hwf'' : ∀ b ∈ some b', b.WF := fun b hb => by
    cases hb
    exact hwf'
  obtain ⟨l, hlog, hnl⟩ := hq.log
  have hnot : notices t.log = notices s.log := by rw [hlog, notices_append, hnl, List.append_nil]
  obtain ⟨hw, hh, hl, ho⟩ : t.warning = s.warning ∧ t.highWatermark = s.highWatermark ∧
      t.lowWatermark = s.lowWatermark ∧ t.onWatermark = s.onWatermark := by
    simpa [St.dial] using hq.dial
  -- a message was begun
  have hbegan : noneBegan t.log = true → False := fun hnone => by
    rcases hq.began with he | he
    · simp [he] at hnone
    · rw [hlog] at hnone
      exact he (h.fresh (noneBegan_append hnone)).noSend
  rcases checkHigh_cases hok with ⟨rfl, hle⟩ | ⟨hwf, hgt, ⟨ho', rfl⟩ | ⟨ho', rfl⟩⟩
  · refine ⟨hwf'', fun hnone => (hbegan hnone).elim, fun hlt => ?_⟩
    have hlt' : s.lowWatermark < s.highWatermark := hh ▸ hl ▸ hlt
    cases h.latch hlt' with
    | idle h1 h2 h3 h4 =>
      refine .idle (hq.marks.trans h1) hle (fun hw' => ?_) ?_
      · have := h3 (hw.symm.trans hw')
        have hback : s.lowWatermark < b'.readableSize := by omega
        exact hl ▸ hback
      · simpa only [ho, hh, hl, hw, hnot] using h4
    | high h1 h2 => exact absurd h2 (hq.high (mem_of_marks (by rw [h1]; simp)))
    | low h1 h2 h3 h4 =>
      have hroom := hq.low (mem_of_marks (by rw [h1]; simp)) hne
      refine .low (hq.marks.trans h1) (hw.trans h2) ?_ ?_
      · have hback : b'.readableSize ≤ s.highWatermark := by omega
        exact hh ▸ hback
      · simpa only [ho, hh, hl, hnot] using h4
  · -- a high notification begins
    refine ⟨hwf'', fun hnone => (hbegan (noneBegan_append hnone)).elim, fun hlt => ?_⟩
    have hlt' : s.lowWatermark < s.highWatermark := hh ▸ hl ▸ hlt
    cases h.latch hlt' with
    | idle h1 h2 h3 h4 =>
      have hctl : marks (.user (.watermark t.highWatermark) :: .afterHigh :: t.ctl) =
          [.afterHigh] := by
        rw [marks_cons, marks_cons, hq.marks, h1]
        rfl
      have hns : NoSend (.user (.watermark t.highWatermark) :: .afterHigh :: t.ctl) :=
        List.forall_mem_cons.2 ⟨rfl, List.forall_mem_cons.2 ⟨rfl, hq.noSend⟩⟩
      refine .high hctl hns hwf hgt fun _ => ?_
      have halt := h4 (ho.symm.trans ho')
      rw [← hw, show t.warning = false from hwf, ← hh, ← hl, ← hnot] at halt
      have hlast : notices (t.log ++ [Ev.called (.watermark t.highWatermark)]) =
          notices t.log ++ [t.highWatermark] := by
        rw [notices_append]
        rfl
      exact hlast ▸ .rise halt
    | high h1 h2 => exact absurd h2 (hq.high (mem_of_marks (by rw [h1]; simp)))
    | low h1 h2 =>
      have hfalse : t.warning = false := hwf
      simp [hw, h2] at hfalse
  · -- the flag is set without a notification
    refine ⟨hwf'', fun hnone => (hbegan hnone).elim, fun hlt => ?_⟩
    have hlt' : s.lowWatermark < s.highWatermark := hh ▸ hl ▸ hlt
    cases h.latch hlt' with
    | idle h1 h2 h3 h4 =>
      refine .idle (hq.marks.trans h1) (fun hw' => by cases hw') (fun _ => lt_trans hlt hgt) ?_
      exact fun ho'' => absurd (ho''.symm.trans ho') (by decide)
    | high h1 h2 => exact absurd h2 (hq.high (mem_of_marks (by rw [h1]; simp)))
    | low h1 h2 =>
      have hfalse : t.warning = false := hwf
      simp [hw, h2] at hfalse

/-- **`send_in_poll_thread_`** enters its loop, which it does not do inside a high notification. -/
theorem beginSend {m : Msg} (h : Watch s) (hs : Sending s a m t) (hst : t.state = .kConnected)
    (hG : Measured (.ok s) a) : Watch ((t.note (.began m.bytes)).push (.sendLoop m 0)) := by
  have hbegan : ∀ l, noneBegan (l ++ [Ev.began m.bytes]) = false := fun l => by
    simp [noneBegan, Ev.isBegan]
  cases hs with
  | user hu hne =>
    refine h.frame h.wf rfl rfl (marks_cons ..) (fun hor => ?_) rfl rfl
    rcases hor with hnone | hmem
    · exact absurd (hnone.symm.trans (hbegan _)) (by decide)
    · have hfalse := hG.2.1
      simp [St.sendsInHigh, hmem, hst, hne] at hfalse
  | task r hnil =>
    refine h.frame h.wf rfl rfl (marks_cons ..) (fun hor => ?_) rfl rfl
    rcases hor with hnone | hmem
    · exact absurd (hnone.symm.trans (hbegan _)) (by decide)
    · simp [hnil] at hmem

/-- The loop of `send_in_poll_thread_` has sent everything: the backlog has not risen. -/
theorem sentAll {m : Msg} {n : ℕ} (h : Watch s) (hend : LoopEnd s m n a t)
    (hok : t.checkHigh = .ok s') : Watch s' := by
  have hloop : ¬ NoSend s.ctl := fun hs => by
    have := hs (.sendLoop m n) (by rw [hend.ctl_eq]; simp)
    cases this
  have ht : Watch t ∧ t.dial = s.dial ∧ t.backlog = s.backlog ∧ ∃ l, t.log = s.log ++ l := by
    cases hend with
    | goal hctl =>
      exact ⟨h.pop (l := []) hctl rfl rfl rfl rfl (by simp) rfl, rfl, rfl, [], by simp⟩
    | blocked hctl => exact ⟨h.pop hctl rfl rfl rfl rfl rfl rfl, rfl, rfl, _, rfl⟩
  obtain ⟨ht, hd, hb, l, hlog⟩ := ht
  rcases checkHigh_cases hok with ⟨rfl, -⟩ | ⟨hw, hgt, hcase⟩
  · exact ht
  -- this is possible only with thresholds that are the wrong way round
  have hlt : ¬ t.lowWatermark < t.highWatermark := fun hlt => by
    simp only [St.dial, Dial.mk.injEq] at hd
    rw [hd.2.1, hd.2.2.1] at hlt
    cases h.latch hlt with
    | idle h1 h2 =>
      have := h2 (hd.1.symm.trans hw)
      omega
    | high h1 h2 => exact hloop h2
    | low h1 h2 => simp [hd.1, h2] at hw
  have hbegan : noneBegan t.log = true → False := fun hnone => by
    rw [hlog] at hnone
    exact hloop (h.fresh (noneBegan_append hnone)).noSend
  rcases hcase with ⟨-, rfl⟩ | ⟨-, rfl⟩
  · exact ⟨ht.wf, fun hnone => (hbegan (noneBegan_append hnone)).elim, fun hlt' => absurd hlt' hlt⟩
  · exact ⟨ht.wf, fun hnone => (hbegan hnone).elim, fun hlt' => absurd hlt' hlt⟩

/-! ### Every step -/

/-- **One step** keeps the state of the watermarks. -/
theorem step (h : Watch s) (hstack : WellStacked s.ctl)
    (hG : Measured (.ok s) a) (hst : Moves A s a s') : Watch s' := by
  -- a setting is made before the first message
  have hset : a.isSetting = true → noneBegan s.log = true := fun ha => by
    simpa [St.setsLate, ha] using hG.1
  cases hst with
  | stay => exact h
  | refused => exact h.still rfl rfl rfl rfl rfl
  | setWritable | sockError | setCallbacks | setCloseTimeout | post | stopTimers | extractTimer
  | fireTimer | deliver | ignore | postConnect | syncFails | dropTask | consume =>
    exact h.still (l := []) rfl rfl rfl (List.append_nil _).symm rfl
  | setWatermark =>
    have hnone := hset rfl
    exact h.setting hnone h.wf (h.fresh hnone).backlog rfl rfl rfl
  | setWatermarkCallback =>
    have hnone := hset rfl
    exact h.setting hnone h.wf (h.fresh hnone).backlog rfl rfl rfl
  | setBufferSize hr hw =>
    obtain ⟨hwf, he⟩ := Buffer.new_sound hw
    refine h.setting (hset rfl) (fun b hb => ?_) (hwf.readable_eq_nil_iff.1 he) rfl rfl rfl
    cases hb
    exact hwf
  | destroy => exact h.still rfl rfl rfl rfl notices_closeLog
  | dispatch e hctl hdel hfs =>
    refine h.keep (l := []) rfl rfl ?_ (fun _ => ?_) (List.append_nil _).symm rfl
    · rw [hctl]
      exact marks_eventFrames hfs
    · exact noSend_of_eventFrames hfs
  | connectFails w e err hctl =>
    refine h.keep (l := s.deregisterLog ++ s.closeLog ++ [Ev.moved .kDisconnected] ++
      St.callLog s.onConnectError (.connectError err)) rfl rfl ?_ (fun _ => ?_) (by simp) ?_
    · rw [hctl]
      exact marks_callFrames ..
    · exact (noLoop_of_light (light_callFrames _ _)).noSend
    · rw [notices_append, notices_append, notices_append, notices_deregisterLog, notices_closeLog,
        notices_callLog _ (by simp)]
      rfl
  | connects hc =>
    refine startConnectInPoll _ ?_
    cases hc with
    | user | task => exact h.still (l := []) rfl rfl rfl (List.append_nil _).symm rfl
  | starts hs hu =>
    refine calls (start ?_ hu) (by cases hs <;> simp)
    cases hs with
    | task | sync => exact h.still (l := []) rfl rfl rfl (List.append_nil _).symm rfl
    | event => exact h.still rfl rfl rfl rfl notices_deregisterLog
  | closes hc hd => exact (h.closing hc).cleanup _ hd
  | passes hc => exact h.closing hc
  | shuts hs _ _ _ hok =>
    refine shutdownInPoll ?_ hok
    cases hs with
    | user => exact h
    | task => exact h.still (l := []) rfl rfl rfl (List.append_nil _).symm rfl
  | leave hctl hl =>
    refine h.pop (l := []) hctl ?_ rfl rfl rfl (List.append_nil _).symm rfl
    cases hl with
    | ret | read | message => rfl
  | beginWrite hctl =>
    refine h.keep (l := []) rfl rfl ?_ (fun hs => ?_) (List.append_nil _).symm rfl
    · rw [hctl, marks_cons, marks_cons]
      rfl
    · rw [hctl] at hs
      exact List.forall_mem_cons.2 ⟨rfl, (List.forall_mem_cons.1 hs).2⟩
  | endLow hctl => exact h.endLow hctl
  | endHigh hctl => exact h.endHigh hctl
  | @endClose rest hctl =>
    obtain ⟨rel, he, -⟩ := St.releaseChannel_eq { s with ctl := rest }
    rw [he]
    exact h.pop (l := []) hctl rfl rfl rfl rfl (List.append_nil _).symm rfl
  | @drained rest b _ hctl hb h0 hok =>
    have ht : Watch { s with ctl := rest } :=
      h.pop (l := []) hctl rfl rfl rfl rfl (List.append_nil _).symm rfl
    obtain ⟨b', hb', ⟨-, rfl⟩ | ⟨-, c, c', w, -, -, -, -, -, rfl⟩⟩ := St.writeTail_ok hok
    · exact ht
    · obtain rfl := Option.some.inj (hb.symm.trans hb')
      have hwf := (h.wf _ hb).clear
      refine ht.frame (fun b hb => ?_) ?_ rfl rfl (fun _ => id) rfl (by split_ifs <;> rfl)
      · cases hb
        exact hwf
      · exact (hwf.readable_eq_nil_iff.1 Buffer.readable_clear).trans (h0.symm.trans
          (backlog_eq hb').symm)
  | wrote hctl hb _ hn _ hok =>
    have hrest := hstack.stacked
    rw [hctl] at hrest
    obtain rfl : _ = [] := hrest
    exact h.wrote hctl hb hn hok
  | writeBlocked hctl => exact h.pop hctl rfl rfl rfl rfl rfl rfl
  | interrupted => exact h.still rfl rfl rfl rfl rfl
  | sentSome hctl =>
    refine h.keep rfl rfl ?_ (fun hs => ?_) rfl rfl
    · rw [hctl, marks_cons, marks_cons]
      rfl
    · have := hs _ (by rw [hctl]; exact List.mem_cons_self ..)
      cases this
  | beginSend hs hst => exact h.beginSend hs hst hG
  | dropSend hs =>
    cases hs with
    | user | task => exact h.still rfl rfl rfl rfl rfl
  | queues hq hok => exact h.enqueue (queues_of hq hstack.noLoop hG) hok
  | sentAll hend _ hok => exact h.sentAll hend hok
  | received hctl =>
    refine h.keep rfl rfl ?_ (fun hs => ?_) rfl rfl
    · rw [hctl, marks_cons, marks_cons]
      rfl
    · rw [hctl] at hs
      exact List.forall_mem_cons.2 ⟨rfl, (List.forall_mem_cons.1 hs).2⟩
  | recvAgain => exact h.still rfl rfl rfl rfl rfl
  | @recvEnd hasNewData shouldClose rest b₀ b r ev err e hctl hs hb hroom hend =>
    refine h.keep (l := [ev] ++ St.callLog (hasNewData && s.onMessage) .message) rfl rfl ?_
      (fun hs => ?_) (List.append_assoc ..) ?_
    · rw [hctl, marks_append, marks_callFrames, marks_cons, marks_cons]
      rfl
    · rw [hctl] at hs
      exact List.forall_mem_append.2 ⟨(noLoop_of_light (light_callFrames _ _)).noSend,
        List.forall_mem_cons.2 ⟨rfl, (List.forall_mem_cons.1 hs).2⟩⟩
    · rw [notices_append, notices_callLog _ (by simp), List.append_nil]
      cases hend <;> rfl

end Watch

/-! ### Whole runs -/

theorem watch_of_init (h : Init s) : Watch s := by
  have hf : Fresh s := by
    cases h with
    | server | client => exact ⟨rfl, rfl, rfl, by simp [NoSend, accepted, new], rfl⟩
  refine ⟨fun b hb => ?_, fun _ => hf, fun _ => hf.latch⟩
  cases h with
  | server | client => cases hb

theorem watch_of_reach (h₀ : Init s₀) (h : (machine A K).ReachIf Measured (.ok s₀) (.ok s)) :
    Watch s :=
  invariant_ok h (fun _ hr => stacked_of_reach h₀ hr.reach) (watch_of_init h₀)
    fun _ _ _ hstack ih hG hst => ih.step hstack hG (step_cases hst)

/-- What it means to alternate: at the even places there is `high`, at the odd ones `low`. -/
theorem Alternates.getElem {high low : ℕ} {b : Bool} {l : List ℕ} (h : Alternates high low b l) :
    (b = true ↔ l.length % 2 = 1) ∧
      ∀ i (hi : i < l.length), l[i] = if i % 2 = 0 then high else low := by
  have snoc : ∀ {l : List ℕ} {x : ℕ}, x = (if l.length % 2 = 0 then high else low) →
      (∀ i (hi : i < l.length), l[i] = if i % 2 = 0 then high else low) →
      ∀ i (hi : i < (l ++ [x]).length), (l ++ [x])[i] = if i % 2 = 0 then high else low := by
    intro l x hx ih i hi
    rw [List.length_append, List.length_singleton] at hi
    by_cases hil : i < l.length
    · rw [List.getElem_append_left hil]
      exact ih i hil
    · obtain rfl : i = l.length := by omega
      rw [List.getElem_concat_length rfl, hx]
  induction h with
  | nil => simp
  | @rise l hl ih =>
    have heven : l.length % 2 = 0 := by
      have := ih.1.not.1 (by decide)
      omega
    refine ⟨by simp; omega, snoc (by rw [if_pos heven]) ih.2⟩
  | @fall l hl ih =>
    have hodd : l.length % 2 = 1 := ih.1.1 rfl
    refine ⟨by simp; omega, snoc (by rw [if_neg (by omega)]) ih.2⟩

/-- **Watermark notifications alternate.**  In every run in which the settings are made before the
first message, and the callback sends neither from inside a high notification nor, from inside a low
one, more than lifts the backlog to the high watermark: the notifications of a connection with
`low_watermark_ < high_watermark_` and a watermark callback are high, low, high, low and so on; and
a backlog above the high watermark has had its notification. -/
theorem notices_alternate (h₀ : Init s₀) (h : (machine A K).ReachIf Measured (.ok s₀) (.ok s))
    (hlt : s.lowWatermark < s.highWatermark) (hset : s.onWatermark = true) :
    ∃ b, Alternates s.highWatermark s.lowWatermark b (notices s.log) ∧
      (marks s.ctl = [] → s.highWatermark < s.backlog → b = true) := by
  cases (watch_of_reach h₀ h).latch hlt with
  | idle h1 h2 h3 h4 =>
    refine ⟨s.warning, h4 hset, fun _ hgt => ?_⟩
    by_contra hw
    have := h2 (by simpa using hw)
    omega
  | high h1 h2 h3 h4 h5 => exact ⟨true, h5 hset, fun _ _ => rfl⟩
  | low h1 h2 h3 h4 => exact ⟨false, h4 hset, fun hm => by simp [hm] at h1⟩

theorem length_fiveBytes_lt : ([1, 2, 3, 4, 5] : List UInt8).length < 2 ^ 63 := by decide

/-- An accepted connection with the watermarks 4 and 2; five bytes are sent and not accepted, the
high notification returns, and three of them are accepted. -/
def riseAndFall : List Act :=
  [.runTask .badAddress, .setWatermark 4 2, .setWatermarkCallback,
    .send ⟨[1, 2, 3, 4, 5], length_fiveBytes_lt⟩, .sendRet (.error EAGAIN), .ret, .tau,
    .setWritable true, .deliver ⟨false, true, false, false⟩, .dispatch, .tau,
    .sendRet (.accepted 3), .ret, .tau]

theorem notices_alternate_riseAndFall : ∃ s : St, notices s.log = [4, 2] ∧
    ∃ b, Alternates 4 2 b (notices s.log) := by
  obtain ⟨s, hs, hp⟩ := reachIf_of_endsIn (A := .zeroed) (K := .linux) (G := Measured)
    (accepted 5 false) riseAndFall
    (p := fun s => s.highWatermark = 4 ∧ s.lowWatermark = 2 ∧ s.onWatermark = true ∧
      notices s.log = [4, 2])
    (by decide +kernel) (by decide +kernel)
  obtain ⟨h1, h2, h3, h4⟩ := of_decide_eq_true hp
  obtain ⟨b, hb, -⟩ := notices_alternate (.server 5 false) hs (by omega) h3
  exact ⟨s, h4, b, h1 ▸ h2 ▸ hb⟩

/-- The callback answers the high notification with a message: it is notified a second time. -/
theorem notices_twice_high : ∃ s : St,
    (machine .zeroed .linux).Reach (.ok (accepted 5 false)) (.ok s) ∧ s.onWatermark = true ∧
      0 < s.lowWatermark ∧ s.lowWatermark < s.highWatermark ∧
      ¬ ∃ b, Alternates s.highWatermark s.lowWatermark b (notices s.log) := by
  obtain ⟨s, hs, hp⟩ := reachIf_of_endsIn (A := .zeroed) (K := .linux) (G := fun _ _ => True)
    (accepted 5 false)
    [.runTask .badAddress, .setWatermark 4 2, .setWatermarkCallback,
      .send ⟨[1, 2, 3, 4, 5], by decide⟩, .sendRet (.error EAGAIN), .send ⟨[6], by decide⟩]
    (p := fun s => s.highWatermark = 4 ∧ s.lowWatermark = 2 ∧ s.onWatermark = true ∧
      notices s.log = [4, 4])
    (by decide +kernel) (by decide +kernel)
  obtain ⟨h1, h2, h3, h4⟩ := of_decide_eq_true hp
  refine ⟨s, hs, h3, by omega, by omega, fun ⟨b, hb⟩ => ?_⟩
  rw [h1, h2, h4] at hb
  have := hb.getElem.2 1 (by simp)
  simp at this

/-! ### The flag -/

/-- The loop of `send_in_poll_thread_` is not entered from inside a notification. -/
def Apart (ctl : List Frame) : Prop := marks ctl ≠ [] → NoSend ctl

theorem Apart.step (h : Apart s.ctl) (hsend : NoLoop s.ctl.tail) (hG : NoReentry (.ok s) a)
    (hst : Moves A s a s') : Apart s'.ctl := by
  have hstack := stack_step hst
  -- outside a notification there is nothing to show
  have hout : ∀ m, a = .send m ∨ s.ctl = [] → marks s.ctl = [] := by
    rintro m (rfl | hnil)
    · have hno := hG.2
      simp only [St.reenters, decide_eq_false_iff_not, not_or] at hno
      rw [marks, List.filter_eq_nil_iff]
      intro f hf hmark
      cases f with
      | afterHigh => exact hno.1 hf
      | afterLow => exact hno.2 hf
      | _ => cases hmark
    · rw [hnil]
      rfl
  generalize s.ctl = ctl at *
  generalize s'.ctl = ctl' at *
  cases hstack with
  | keep => exact h
  | push hl hn =>
    exact fun _ => List.forall_mem_append.2
      ⟨(noLoop_of_light hl).noSend, (noLoop_whole hsend hn).noSend⟩
  | enter m _ hor =>
    intro hm
    rw [marks_cons, hout m hor] at hm
    exact absurd rfl hm
  | pop f rest hl =>
    exact fun _ => List.forall_mem_append.2 ⟨(noLoop_of_light hl).noSend, hsend.noSend⟩
  | turn rest ht =>
    cases ht with
    | write | written | low | endLow | read | message =>
      exact fun _ => List.forall_mem_cons.2 ⟨rfl, hsend.noSend⟩
    | send m n k =>
      intro hm
      rw [marks_cons] at hm
      have := h (by rw [marks_cons]; exact hm) (.sendLoop m n) (by simp)
      cases this
  | calls rest hl ht hf =>
    refine fun _ => List.forall_mem_append.2 ⟨(noLoop_of_light hl).noSend, NoLoop.noSend ?_⟩
    exact List.forall_mem_cons.2 ⟨hf, hsend⟩
  | dispatch hfs => exact fun _ => noSend_of_eventFrames hfs

/-- A callback that does not send keeps to what `Measured` asks. -/
theorem Apart.measured (h : Apart s.ctl) (hG : NoReentry (.ok s) a) : Measured (.ok s) a := by
  obtain ⟨hset, hno⟩ := hG
  refine ⟨hset, ?_, ?_⟩
  · cases a with
    | send m =>
      simp only [St.reenters, decide_eq_false_iff_not, not_or] at hno
      simp [St.sendsInHigh, hno.1]
    | _ => rfl
  · by_contra hover
    simp only [St.overfillsInLow, Bool.not_eq_false, decide_eq_true_eq] at hover
    obtain ⟨hlow, hpos, -⟩ := hover
    have hsend := h (List.ne_nil_of_mem (mem_marks hlow rfl))
    unfold St.toQueue at hpos
    split at hpos
    · simp only [St.reenters, decide_eq_false_iff_not, not_or] at hno
      exact hno.2 hlow
    · rename_i m n rest hctl
      have := hsend (.sendLoop m n) (by simp [hctl])
      cases this
    · rename_i e m n rest hctl
      have := hsend (.sendLoop m n) (by simp [hctl])
      cases this
    · omega

theorem watch_of_noReentry (h₀ : Init s₀) (h : (machine A K).ReachIf NoReentry (.ok s₀) (.ok s)) :
    Watch s ∧ Apart s.ctl := by
  refine invariant_ok (I := fun s => Watch s ∧ Apart s.ctl) h
    (fun _ hr => stacked_of_reach h₀ hr.reach) ⟨watch_of_init h₀, ?_⟩
    fun _ _ _ hstack ih hG hst => ⟨ih.1.step hstack (ih.2.measured hG) (step_cases hst),
      ih.2.step hstack.noLoop hG (step_cases hst)⟩
  cases h₀ with
  | server | client => exact fun hm => absurd rfl hm

/-- **The flag reflects the backlog.**  In every run in which the settings are made before the first
message and the watermark callback does not send: whenever no notification is in progress,
`high_watermark_warning_` is false only if the backlog is at most the high watermark, and true only
if it is above the low one, provided that the low watermark is below the high one. -/
theorem latch_reflects_backlog (h₀ : Init s₀)
    (h : (machine A K).ReachIf NoReentry (.ok s₀) (.ok s))
    (hlt : s.lowWatermark < s.highWatermark) (hctl : marks s.ctl = []) :
    (s.warning = false → s.backlog ≤ s.highWatermark) ∧
      (s.warning = true → s.lowWatermark < s.backlog) := by
  cases (watch_of_noReentry h₀ h).1.latch hlt with
  | idle h1 h2 h3 => exact ⟨h2, h3⟩
  | high h1 | low h1 => simp [hctl] at h1

theorem latch_reflects_backlog_rise : ∃ s : St, s.warning = true ∧ s.backlog = 5 ∧
    s.lowWatermark = 2 ∧ (s.warning = true → s.lowWatermark < s.backlog) := by
  obtain ⟨s, hs, hp⟩ := reachIf_of_endsIn (A := .zeroed) (K := .linux) (G := NoReentry)
    (accepted 5 false) (riseAndFall.take 7)
    (p := fun s => s.highWatermark = 4 ∧ s.lowWatermark = 2 ∧ s.warning = true ∧ s.backlog = 5 ∧
      s.ctl = [])
    (by decide +kernel) (by decide +kernel)
  obtain ⟨h1, h2, h3, h4, h5⟩ := of_decide_eq_true hp
  refine ⟨s, h3, h4, h2, (latch_reflects_backlog (.server 5 false) hs (by omega) ?_).2⟩
  rw [h5]
  rfl

/-- `set_watermark` accepts a high watermark of 2 and a low one of 4: with a backlog of 3 the flag
is set. -/
theorem latch_wrong_way_round : ∃ s : St,
    (machine .zeroed .linux).ReachIf NoReentry (.ok (accepted 5 false)) (.ok s) ∧ s.ctl = [] ∧
      s.state = .kConnected ∧ s.warning = true ∧ ¬ s.lowWatermark < s.backlog := by
  obtain ⟨s, hs, hp⟩ := reachIf_of_endsIn (A := .zeroed) (K := .linux) (G := NoReentry)
    (accepted 5 false)
    [.runTask .badAddress, .setWatermark 2 4, .send ⟨[1, 2, 3], by simp⟩,
      .sendRet (.error EAGAIN)]
    (p := fun s => s.ctl = [] ∧ s.state = .kConnected ∧ s.warning = true ∧
      ¬ s.lowWatermark < s.backlog)
    (by decide +kernel) (by decide +kernel)
  exact ⟨s, hs, of_decide_eq_true hp⟩

end

end Conn

end CxpNet
