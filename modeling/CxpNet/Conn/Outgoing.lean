import CxpNet.Buffer.Fifo
import CxpNet.Conn.Lifecycle
import Mathlib.Data.List.Induction

/-!
# The outgoing side of a connection

What a connection owes to its peer, at every point of a run:

* `Flow.eq` : the bytes the kernel has accepted, the bytes in the write buffer and the bytes that
  `send_in_poll_thread_` has in hand are the bytes of the messages, in order;
* `Flow.graceful` : the write side is shut only when nothing is owed, and then no byte follows;
* `Flow.interest` : there is write interest iff there is something to write, and then a
  notification is on its way.

`Flow` is kept by every step of a one-shot run in which the buffers of a started connection are not
replaced (`flow_of_reach`).
-/

namespace CxpNet

namespace Buffer

variable {A : Allocator} {b b' : Buffer}

theorem append_done (h : b.WF) {data : List UInt8} (hlt : data.length < 2 ^ 63)
    (he : b.append A data = .done b') :
    b'.WF ∧ b'.readable = b.readable ++ data ∧ data ≠ [] := by
  have h0 : data ≠ [] := by
    rintro rfl
    simp [append] at he
  rcases append_outcome (A := A) h h0 hlt with ⟨b₁, h1, hwf, hr⟩ | ⟨h1 | h1, -⟩
  · rw [h1] at he
    cases he
    exact ⟨hwf, hr, h0⟩
  · rw [h1] at he
    cases he
  · rw [h1] at he
    cases he

theorem beenRead_done (h : b.WF) {n : ℕ} (hle : n ≤ b.readableSize)
    (he : b.beenRead A n = .done b') : b'.WF ∧ b'.readable = b.readable.drop n := by
  rcases beenRead_outcome (A := A) h hle with ⟨b₁, h1, hwf, hr⟩ | ⟨⟨b₁, h1⟩, -⟩
  · rw [h1] at he
    cases he
    exact ⟨hwf, hr⟩
  · rw [h1] at he
    cases he

end Buffer

namespace Conn

/-! ### What the log says about the stream -/

/-- The bytes the kernel has accepted. -/
def sentBytes (l : List Ev) : List UInt8 :=
  l.flatMap fun e => match e with
    | .sent bs => bs
    | _ => []

/-- The bytes of the messages whose `send_in_poll_thread_` began in state `kConnected`. -/
def begunBytes (l : List Ev) : List UInt8 :=
  l.flatMap fun e => match e with
    | .began bs => bs
    | _ => []

/-- The report of a fatal error. -/
def Ev.isFatal : Ev → Bool
  | .sendError e => handleErrorAction e = .kClose
  | _ => false

/-- A fatal error was reported. -/
def Failed (l : List Ev) : Prop := ∃ e ∈ l, e.isFatal = true

/-- The write side was shut by `shutdown_in_poll_` or `handle_write_event_`: unlike `cleanup_`, they
do it in state `kDisconnecting`. -/
def HalfClosed (l : List Ev) : Prop :=
  ∃ pre post, l = pre ++ .shutWr :: post ∧ .moved .kDisconnecting ∈ pre

/-- When the write side is shut in this way, every byte of every message that was begun has been
accepted, and no byte follows. -/
def Graceful (l : List Ev) : Prop :=
  ∀ pre post, l = pre ++ .shutWr :: post → .moved .kDisconnecting ∈ pre →
    sentBytes pre = begunBytes pre ∧ sentBytes post = []

/-- An event that says nothing about the stream. -/
def Ev.isDull : Ev → Bool
  | .sent _ | .began _ | .shutWr | .moved _ => false
  | .sendError e => handleErrorAction e ≠ .kClose
  | _ => true

@[simp] theorem sentBytes_append (l₁ l₂ : List Ev) :
    sentBytes (l₁ ++ l₂) = sentBytes l₁ ++ sentBytes l₂ :=
  List.flatMap_append

@[simp] theorem begunBytes_append (l₁ l₂ : List Ev) :
    begunBytes (l₁ ++ l₂) = begunBytes l₁ ++ begunBytes l₂ :=
  List.flatMap_append

theorem failed_append {l₁ l₂ : List Ev} : Failed (l₁ ++ l₂) ↔ Failed l₁ ∨ Failed l₂ := by
  simp only [Failed, List.mem_append, or_and_right, exists_or]

/-- One more event. -/
theorem graceful_snoc {l : List Ev} {e : Ev} : Graceful (l ++ [e]) ↔ Graceful l ∧
    (HalfClosed l → sentBytes [e] = []) ∧
    (e = .shutWr → .moved .kDisconnecting ∈ l → sentBytes l = begunBytes l) := by
  constructor
  · intro h
    refine ⟨fun pre post hl hm => ?_, ?_, ?_⟩
    · obtain ⟨h1, h2⟩ := h pre (post ++ [e]) (by simp [hl]) hm
      rw [sentBytes_append, List.append_eq_nil_iff] at h2
      exact ⟨h1, h2.1⟩
    · rintro ⟨pre, post, hl, hm⟩
      have h2 := (h pre (post ++ [e]) (by simp [hl]) hm).2
      rw [sentBytes_append, List.append_eq_nil_iff] at h2
      exact h2.2
    · rintro rfl hm
      exact (h l [] rfl hm).1
  · rintro ⟨h, hsent, hshut⟩ pre post hl hm
    rcases List.eq_nil_or_concat post with rfl | ⟨post, e', rfl⟩
    · obtain ⟨rfl, he⟩ := List.append_inj' hl rfl
      cases he
      exact ⟨hshut rfl hm, rfl⟩
    · have hl' : l ++ [e] = (pre ++ .shutWr :: post) ++ [e'] := by simpa using hl
      obtain ⟨rfl, he⟩ := List.append_inj' hl' rfl
      cases he
      obtain ⟨h1, h2⟩ := h pre post rfl hm
      refine ⟨h1, ?_⟩
      rw [List.concat_eq_append, sentBytes_append, h2, hsent ⟨pre, post, rfl, hm⟩]
      rfl

theorem halfClosed_snoc {l : List Ev} {e : Ev} : HalfClosed (l ++ [e]) ↔
    HalfClosed l ∨ (e = .shutWr ∧ .moved .kDisconnecting ∈ l) := by
  constructor
  · rintro ⟨pre, post, hl, hm⟩
    rcases List.eq_nil_or_concat post with rfl | ⟨post, e', rfl⟩
    · obtain ⟨rfl, he⟩ := List.append_inj' hl rfl
      cases he
      exact .inr ⟨rfl, hm⟩
    · have hl' : l ++ [e] = (pre ++ .shutWr :: post) ++ [e'] := by simpa using hl
      obtain ⟨rfl, -⟩ := List.append_inj' hl' rfl
      exact .inl ⟨pre, post, rfl, hm⟩
  · rintro (⟨pre, post, rfl, hm⟩ | ⟨rfl, hm⟩)
    · exact ⟨pre, post ++ [e], by simp, hm⟩
    · exact ⟨l, [], rfl, hm⟩

/-- Nothing is sent or shut. -/
def Ev.isMute : Ev → Bool
  | .sent _ | .shutWr => false
  | _ => true

theorem sentBytes_of_mute {l : List Ev} (h : ∀ e ∈ l, e.isMute = true) : sentBytes l = [] := by
  rw [sentBytes, List.flatMap_eq_nil_iff]
  intro e he
  have := h e he
  cases e <;> simp_all [Ev.isMute]

theorem graceful_of_mute {l l' : List Ev} (hl : ∀ e ∈ l', e.isMute = true) (h : Graceful l) :
    Graceful (l ++ l') ∧ (HalfClosed (l ++ l') → HalfClosed l) := by
  induction l' using List.reverseRecOn with
  | nil => simpa using h
  | append_singleton l' e ih =>
    have he : e.isMute = true := hl e (by simp)
    have hs : e ≠ .shutWr := by
      rintro rfl
      cases he
    obtain ⟨h1, h2⟩ := ih fun e he => hl e (by simp [he])
    rw [← List.append_assoc, graceful_snoc, halfClosed_snoc]
    refine ⟨⟨h1, fun _ => sentBytes_of_mute (by simpa using he), fun h => absurd h hs⟩, ?_⟩
    rintro (h | ⟨h, -⟩)
    · exact h2 h
    · exact absurd h hs

section

variable {l : List Ev}

theorem mute_of_dull (h : ∀ e ∈ l, e.isDull = true) : ∀ e ∈ l, e.isMute = true := by
  intro e he
  have := h e he
  cases e <;> simp_all [Ev.isDull, Ev.isMute]

theorem begunBytes_of_dull (h : ∀ e ∈ l, e.isDull = true) : begunBytes l = [] := by
  rw [begunBytes, List.flatMap_eq_nil_iff]
  intro e he
  have := h e he
  cases e <;> simp_all [Ev.isDull]

theorem not_failed_of_dull (h : ∀ e ∈ l, e.isDull = true) : ¬ Failed l := by
  rintro ⟨e, he, hf⟩
  have := h e he
  cases e <;> simp_all [Ev.isDull, Ev.isFatal]

theorem moves_of_dull (h : ∀ e ∈ l, e.isDull = true) : moves l = [] := by
  rw [moves, List.filterMap_eq_nil_iff]
  intro e he
  have := h e he
  cases e <;> simp_all [Ev.isDull]

end

theorem started_append {l l' : List Ev} (h : .kConnected ∈ moves l) :
    .kConnected ∈ moves (l ++ l') := by
  rw [moves_append]
  exact List.mem_append_left _ h

/-! ### The invariant -/

/-- `handle_write_event_` is draining the buffer. -/
def Frame.drains : Frame → Bool
  | .writeLoop | .afterLow => true
  | _ => false

/-- The handler is going to drain the buffer, or to close the connection. -/
def Frame.serves : Frame → Bool
  | .closePart _ | .writePart | .writeLoop | .afterLow => true
  | _ => false

theorem Frame.serves_of_drains {f : Frame} (h : f.drains = true) : f.serves = true := by
  cases f with
  | writeLoop | afterLow => rfl
  | _ => cases h

def Frame.isSend : Frame → Bool
  | .sendLoop _ _ => true
  | _ => false

/-- No `send_in_poll_thread_` is in its loop. -/
def NoSend (ctl : List Frame) : Prop := ∀ f ∈ ctl, f.isSend = false

namespace St

/-- The readable bytes of `write_buffer_`. -/
def pending (s : St) : List UInt8 :=
  match s.writeBuffer with
  | none => []
  | some b => b.readable

/-- The bytes that `send_in_poll_thread_` has in hand. -/
def inFlight (s : St) : List UInt8 :=
  match s.ctl with
  | .sendLoop m sentBytes :: _ => m.bytes.drop sentBytes
  | _ => []

/-- A write-ready notification is pending or delivered, or the socket has no room, or a handler is
going to write. -/
def Served (s : St) : Prop :=
  s.writeReady = true ∨ (∃ x ∈ s.delivered, x.2.write = true) ∨ s.writable = false ∨
    ∃ f ∈ s.ctl, f.serves = true

end St

/-- The write interest of an established connection. -/
structure Interest (s : St) : Prop where
  writing : s.pending ≠ [] → ∀ c ∈ s.channel, c.writing = true
  pending : (∀ f ∈ s.ctl, f.drains = false) → ∀ c ∈ s.channel, c.writing = true → s.pending ≠ []
  served : s.pending ≠ [] → s.Served

/-- The state of the outgoing side. -/
structure Flow (s : St) : Prop where
  wf : ∀ b ∈ s.writeBuffer, b.WF
  /-- Only the innermost call can be in the loop of `send_in_poll_thread_`, since that loop calls
  nobody. -/
  nested : NoSend s.ctl.tail
  loop : ∀ m n rest, s.ctl = .sendLoop m n :: rest →
    s.state = .kConnected ∧ s.pending = [] ∧ n ≤ St.directWriteGoal m
  eq : ¬ Failed s.log → sentBytes s.log ++ s.pending ++ s.inFlight = begunBytes s.log
  pre : sentBytes s.log <+: begunBytes s.log
  failed : Failed s.log → s.handle = none
  graceful : Graceful s.log
  halfClosed : HalfClosed s.log → s.pending = [] ∨ s.handle = none
  waiting : .kConnected ∉ moves s.log → s.pending = [] ∧ ¬ Failed s.log
  interest : s.handle ≠ none → .kConnected ∈ moves s.log → Interest s

theorem inFlight_of_noSend {s : St} (h : NoSend s.ctl) : s.inFlight = [] := by
  unfold St.inFlight
  split
  · rename_i m n rest hctl
    simpa [Frame.isSend] using h (.sendLoop m n) (by simp [hctl])
  · rfl

/-- The fields of the outgoing side, but for the frames and the log. -/
structure Out where
  writeBuffer : Option Buffer
  channel : Option Channel
  handle : Option ℕ
  state : State
  delivered : Option (Role × Events)
  writable : Bool
  writeReady : Bool

def St.out (s : St) : Out :=
  ⟨s.writeBuffer, s.channel, s.handle, s.state, s.delivered, s.writable, s.writeReady⟩

/-- The frames of `ctl'` still serve and drain what those of `ctl` did. -/
structure Keeps (ctl ctl' : List Frame) : Prop where
  serves : (∃ f ∈ ctl, f.serves = true) → ∃ f ∈ ctl', f.serves = true
  drains : (∃ f ∈ ctl, f.drains = true) → ∃ f ∈ ctl', f.drains = true

theorem Keeps.refl (ctl : List Frame) : Keeps ctl ctl := ⟨id, id⟩

/-- A frame that neither serves nor drains is left, and others are entered. -/
theorem Keeps.replace {f : Frame} {rest : List Frame} (fs : List Frame) (h : f.serves = false)
    (h' : f.drains = false) : Keeps (f :: rest) (fs ++ rest) := by
  constructor <;> rintro ⟨g, hg, hs⟩ <;> rcases List.mem_cons.1 hg with rfl | hg
  · simp [h] at hs
  · exact ⟨g, by simp [hg], hs⟩
  · simp [h'] at hs
  · exact ⟨g, by simp [hg], hs⟩

theorem Keeps.push (fs ctl : List Frame) : Keeps ctl (fs ++ ctl) := by
  constructor <;> rintro ⟨g, hg, hs⟩ <;> exact ⟨g, by simp [hg], hs⟩

theorem Keeps.noDrain {ctl ctl' : List Frame} (h : Keeps ctl ctl')
    (hd : ∀ f ∈ ctl', f.drains = false) : ∀ f ∈ ctl, f.drains = false := by
  intro f hf
  by_contra hne
  obtain ⟨g, hg, hs⟩ := h.drains ⟨f, hf, by simpa using hne⟩
  simp [hd g hg] at hs

namespace Flow

variable {A : Allocator} {K : Kernel} {s s' t : St}

theorem noSend_of_top {f : Frame} {rest : List Frame} (h : Flow s) (hctl : s.ctl = f :: rest)
    (hf : f.isSend = false) : NoSend s.ctl := by
  have := h.nested
  rw [hctl] at this ⊢
  exact List.forall_mem_cons.2 ⟨hf, this⟩

theorem noSend_of_inUserCode (h : Flow s) (hu : s.inUserCode = true) : NoSend s.ctl := by
  unfold St.inUserCode at hu
  split at hu
  · rename_i hctl
    simp [hctl, NoSend]
  · rename_i cb rest hctl
    exact h.noSend_of_top hctl rfl
  · cases hu

/-- Outside the loop of `send_in_poll_thread_` nothing is in flight. -/
theorem of_noSend (hsend : NoSend s.ctl) (wf : ∀ b ∈ s.writeBuffer, b.WF)
    (eq : ¬ Failed s.log → sentBytes s.log ++ s.pending = begunBytes s.log)
    (pre : sentBytes s.log <+: begunBytes s.log) (failed : Failed s.log → s.handle = none)
    (graceful : Graceful s.log) (halfClosed : HalfClosed s.log → s.pending = [] ∨ s.handle = none)
    (waiting : .kConnected ∉ moves s.log → s.pending = [] ∧ ¬ Failed s.log)
    (interest : s.handle ≠ none → .kConnected ∈ moves s.log → Interest s) : Flow s where
  wf := wf
  nested f hf := hsend f (List.mem_of_mem_tail hf)
  loop m n rest hctl := by simpa [Frame.isSend] using hsend (.sendLoop m n) (by simp [hctl])
  eq hf := by rw [inFlight_of_noSend hsend, List.append_nil]; exact eq hf
  pre := pre
  failed := failed
  graceful := graceful
  halfClosed := halfClosed
  waiting := waiting
  interest := interest

/-- **Frames.**  A step that changes only the frames, and records nothing about the stream. -/
theorem frames {l : List Ev} (h : Flow s) (hout : s'.out = s.out) (hlog : s'.log = s.log ++ l)
    (hl : ∀ e ∈ l, e.isDull = true) (hin : s.inFlight = []) (hsend' : NoSend s'.ctl)
    (hk : Keeps s.ctl s'.ctl) : Flow s' := by
  simp only [St.out, Out.mk.injEq] at hout
  obtain ⟨hb, hc, hh, hst, hd, hw, hr⟩ := hout
  have hp : s'.pending = s.pending := by simp only [St.pending, hb]
  have hsent : sentBytes s'.log = sentBytes s.log := by
    rw [hlog, sentBytes_append, sentBytes_of_mute (mute_of_dull hl), List.append_nil]
  have hbeg : begunBytes s'.log = begunBytes s.log := by
    rw [hlog, begunBytes_append, begunBytes_of_dull hl, List.append_nil]
  have hfail : Failed s'.log ↔ Failed s.log := by
    rw [hlog, failed_append, or_iff_left (not_failed_of_dull hl)]
  have hmoves : moves s'.log = moves s.log := by
    rw [hlog, moves_append, moves_of_dull hl, List.append_nil]
  obtain ⟨hg, hhalf⟩ := graceful_of_mute (mute_of_dull hl) h.graceful
  refine .of_noSend hsend' (hb ▸ h.wf) (fun hf => ?_) ?_ (fun hf => ?_) (hlog ▸ hg) (fun hf => ?_)
    (fun hm => ?_) fun h1 h2 => ?_
  · have := h.eq (hfail.not.1 hf)
    rwa [hin, List.append_nil, ← hsent, ← hp, ← hbeg] at this
  · rw [hsent, hbeg]
    exact h.pre
  · exact hh.trans (h.failed (hfail.1 hf))
  · rw [hp, hh]
    exact h.halfClosed (hhalf (hlog ▸ hf))
  · rw [hp, hfail]
    exact h.waiting (hmoves ▸ hm)
  · obtain ⟨i1, i2, i3⟩ := h.interest (hh ▸ h1) (hmoves ▸ h2)
    refine ⟨by rwa [hp, hc], fun hdr => ?_, fun hne => ?_⟩
    · rw [hp, hc]
      exact i2 (hk.noDrain hdr)
    · unfold St.Served
      rw [hr, hd, hw]
      rcases i3 (hp ▸ hne) with h | h | h | h
      · exact .inl h
      · exact .inr (.inl h)
      · exact .inr (.inr (.inl h))
      · exact .inr (.inr (.inr (hk.serves h)))

/-- Only the interest changes. -/
theorem reinterest (h : Flow s) (hb : s'.writeBuffer = s.writeBuffer)
    (hh : s'.handle = s.handle) (hst : s'.state = s.state) (hctl : s'.ctl = s.ctl)
    (hlog : s'.log = s.log) (hi : s.handle ≠ none → .kConnected ∈ moves s.log → Interest s') :
    Flow s' := by
  have hp : s'.pending = s.pending := by simp only [St.pending, hb]
  have hin : s'.inFlight = s.inFlight := by simp only [St.inFlight, hctl]
  exact {
    wf := hb ▸ h.wf
    nested := hctl ▸ h.nested
    loop := by rw [hctl, hst, hp]; exact h.loop
    eq := by rw [hlog, hp, hin]; exact h.eq
    pre := hlog ▸ h.pre
    failed := by rw [hlog, hh]; exact h.failed
    graceful := hlog ▸ h.graceful
    halfClosed := by rw [hlog, hp, hh]; exact h.halfClosed
    waiting := by rw [hlog, hp]; exact h.waiting
    interest := by rw [hlog, hh]; exact hi }

/-- Nothing of the outgoing side changes. -/
theorem congr (h : Flow s) (hout : s'.out = s.out) (hlog : s'.log = s.log)
    (hctl : s'.ctl = s.ctl) : Flow s' := by
  simp only [St.out, Out.mk.injEq] at hout
  obtain ⟨hb, hc, hh, hst, hd, hw, hr⟩ := hout
  have hp : s'.pending = s.pending := by simp only [St.pending, hb]
  have hsv : s'.Served ↔ s.Served := by simp only [St.Served, hr, hd, hw, hctl]
  refine h.reinterest hb hh hst hctl hlog fun h1 h2 => ?_
  obtain ⟨i1, i2, i3⟩ := h.interest h1 h2
  exact ⟨by rwa [hp, hc], by rwa [hctl, hc, hp], by rwa [hp, hsv]⟩

/-- Something is recorded that says nothing about the stream. -/
theorem note {l : List Ev} (h : Flow s) (hl : ∀ e ∈ l, e.isDull = true) :
    Flow { s with log := s.log ++ l } := by
  have hsent : sentBytes (s.log ++ l) = sentBytes s.log := by
    rw [sentBytes_append, sentBytes_of_mute (mute_of_dull hl), List.append_nil]
  have hbeg : begunBytes (s.log ++ l) = begunBytes s.log := by
    rw [begunBytes_append, begunBytes_of_dull hl, List.append_nil]
  have hfail : Failed (s.log ++ l) ↔ Failed s.log := by
    rw [failed_append, or_iff_left (not_failed_of_dull hl)]
  have hmoves : moves (s.log ++ l) = moves s.log := by
    rw [moves_append, moves_of_dull hl, List.append_nil]
  obtain ⟨hg, hhalf⟩ := graceful_of_mute (mute_of_dull hl) h.graceful
  exact {
    wf := h.wf
    nested := h.nested
    loop := h.loop
    eq := fun hf => by
      rw [hsent, hbeg]
      exact h.eq (hfail.not.1 hf)
    pre := by
      rw [hsent, hbeg]
      exact h.pre
    failed := fun hf => h.failed (hfail.1 hf)
    graceful := hg
    halfClosed := fun hf => h.halfClosed (hhalf hf)
    waiting := fun hm => by
      rw [hfail]
      exact h.waiting (hmoves ▸ hm)
    interest := fun h1 h2 => by
      obtain ⟨i1, i2, i3⟩ := h.interest h1 (hmoves ▸ h2)
      exact ⟨i1, i2, i3⟩ }

/-- **Closing.**  The handle is gone: what is left of the stream stays as it is. -/
theorem closed {l : List Ev} (h : Flow s) (hb : s'.writeBuffer = s.writeBuffer)
    (hh : s'.handle = none) (hsend : NoSend s'.ctl) (hlog : s'.log = s.log ++ l)
    (hs : sentBytes l = []) (hbeg : begunBytes l = []) (hg : Graceful (s.log ++ l))
    (hin : ¬ Failed (s.log ++ l) → s.inFlight = [])
    (hf : .kConnected ∉ moves s.log → ¬ Failed l) : Flow s' := by
  have hp : s'.pending = s.pending := by simp only [St.pending, hb]
  have hsent : sentBytes s'.log = sentBytes s.log := by
    rw [hlog, sentBytes_append, hs, List.append_nil]
  have hbegun : begunBytes s'.log = begunBytes s.log := by
    rw [hlog, begunBytes_append, hbeg, List.append_nil]
  refine .of_noSend hsend (hb ▸ h.wf) (fun hf => ?_) ?_ (fun _ => hh) (hlog ▸ hg)
    (fun _ => .inr hh) (fun hm => ?_) fun h1 => absurd hh h1
  · rw [hlog] at hf
    have := h.eq fun h' => hf (failed_append.2 (.inl h'))
    rwa [hin hf, List.append_nil, ← hsent, ← hp, ← hbegun] at this
  · rw [hsent, hbegun]
    exact h.pre
  · have hm' : .kConnected ∉ moves s.log := fun hm' => hm (by simp [hlog, hm'])
    rw [hp, hlog, failed_append, not_or]
    exact ⟨(h.waiting hm').1, (h.waiting hm').2, hf hm'⟩

/-! ### Cleanup -/

theorem noSend_closeFrames {err : ℕ} (h : NoSend t.ctl) : NoSend (t.closeFrames err ++ t.ctl) := by
  intro f hf
  rcases List.mem_append.1 hf with hf | hf
  · unfold St.closeFrames at hf
    split_ifs at hf
    · simp only [List.mem_cons, List.not_mem_nil, or_false] at hf
      rcases hf with rfl | rfl <;> rfl
    · simp at hf
  · exact h f hf

/-- What `cleanup_` records after `shut_wr`. -/
theorem cleanupLog_eq (err : ℕ) : ∃ l, t.cleanupLog err = t.shutWrLog ++ l ∧
    ∀ e ∈ l, e.isMute = true := by
  refine ⟨_, by simp only [St.cleanupLog, List.append_assoc]; rfl, fun e he => ?_⟩
  simp only [List.mem_append, List.mem_singleton] at he
  rcases he with he | he | he | rfl | he | he
  · rw [St.mem_moveLog he]
    rfl
  · obtain ⟨role, rfl⟩ := St.mem_deregisterLog he
    rfl
  · obtain ⟨k, rfl⟩ := St.mem_closeLog he
    rfl
  · rfl
  · unfold St.internalCloseLog at he
    split_ifs at he <;> simp_all [Ev.isMute]
  · unfold St.closeCallLog at he
    split_ifs at he <;> simp_all [Ev.isMute]

/-- `cleanup_` neither sends nor begins anything. -/
theorem still_cleanupLog (err : ℕ) : ∀ e ∈ t.cleanupLog err, e = .shutWr ∨ e.isMute = true ∧
    e.isFatal = false ∧ ∀ bs, e ≠ .began bs := by
  intro e he
  cases St.tidies_of_mem he with
  | shutWr => exact .inl rfl
  | moved | deregistered | closeHandle | internalClose | called =>
    exact .inr ⟨rfl, rfl, by simp⟩

theorem begunBytes_cleanupLog (err : ℕ) : begunBytes (t.cleanupLog err) = [] := by
  rw [begunBytes, List.flatMap_eq_nil_iff]
  intro e he
  rcases still_cleanupLog err e he with rfl | ⟨-, -, h⟩
  · rfl
  · cases e <;> simp_all

theorem not_failed_cleanupLog (err : ℕ) : ¬ Failed (t.cleanupLog err) := by
  rintro ⟨e, he, hf⟩
  rcases still_cleanupLog err e he with rfl | ⟨-, h, -⟩
  · cases hf
  · simp [h] at hf

theorem sentBytes_cleanupLog (err : ℕ) : sentBytes (t.cleanupLog err) = [] := by
  obtain ⟨l, he, hl⟩ := cleanupLog_eq (t := t) err
  rw [he, sentBytes_append, sentBytes_of_mute hl]
  unfold St.shutWrLog
  split_ifs <;> rfl

/-- `cleanup_` shuts the write side only in state `kConnected`. -/
theorem graceful_cleanupLog (err : ℕ) (hI : Inv t) (hg : Graceful t.log) :
    Graceful (t.log ++ t.cleanupLog err) := by
  obtain ⟨l, he, hl⟩ := cleanupLog_eq (t := t) err
  rw [he, ← List.append_assoc]
  refine (graceful_of_mute hl ?_).1
  unfold St.shutWrLog
  split_ifs with hs
  · refine graceful_snoc.2 ⟨hg, fun _ => rfl, fun _ hm => ?_⟩
    exact absurd (mem_moves.2 hm) (hI.life.not_disconnecting hs.1)
  · simpa using hg

/-- **`cleanup_`**, after which nothing is sent any more; `l` was recorded before it. -/
theorem cleanup_eq {l : List Ev} (err : ℕ) (h : Flow s) (hI : Inv t) (hd : t.cleanupDone = false)
    (hb : t.writeBuffer = s.writeBuffer) (hsend : NoSend t.ctl) (hlog : t.log = s.log ++ l)
    (hl : ∀ e ∈ l, e.isMute = true) (hbeg : begunBytes l = [])
    (hin : ¬ Failed t.log → s.inFlight = []) (hf : .kConnected ∉ moves s.log → ¬ Failed l) :
    Flow (t.cleanup err) := by
  obtain ⟨sch, ch, w, rel, he, -⟩ := St.cleanup_eq err hd
  rw [he]
  have hg : Graceful t.log := hlog ▸ (graceful_of_mute hl h.graceful).1
  refine h.closed (l := l ++ t.cleanupLog err) hb rfl (noSend_closeFrames hsend) ?_ ?_ ?_ ?_ ?_ ?_
  · rw [← List.append_assoc, ← hlog]
  · rw [sentBytes_append, sentBytes_of_mute hl, sentBytes_cleanupLog, List.append_nil]
  · rw [begunBytes_append, hbeg, begunBytes_cleanupLog, List.append_nil]
  · rw [← List.append_assoc, ← hlog]
    exact graceful_cleanupLog err hI hg
  · intro hf
    rw [← List.append_assoc, ← hlog] at hf
    exact hin fun h' => hf (failed_append.2 (.inl h'))
  · intro hm
    rw [failed_append, not_or]
    exact ⟨hf hm, not_failed_cleanupLog err⟩

theorem cleanup (err : ℕ) (h : Flow s) (hI : Inv s) (hsend : NoSend s.ctl) :
    Flow (s.cleanup err) := by
  cases hd : s.cleanupDone with
  | true => rw [St.cleanup_of_done err hd]; exact h
  | false =>
    exact h.cleanup_eq err hI hd rfl hsend (List.append_nil _).symm (by simp) rfl
      (fun _ => inFlight_of_noSend hsend) fun _ => by simp [Failed]

/-- A handler of the established connection closes it. -/
theorem handleCloseEvent {l : List Ev} (err : ℕ) (h : Flow s) (hI : Inv t)
    (hm : .kConnected ∈ moves s.log) (hb : t.writeBuffer = s.writeBuffer) (hsend : NoSend t.ctl)
    (hlog : t.log = s.log ++ l) (hl : ∀ e ∈ l, e.isMute = true) (hbeg : begunBytes l = [])
    (hin : ¬ Failed t.log → s.inFlight = []) : Flow (t.handleCloseEvent err) := by
  have hopen := hI.life.started (by simp [hlog, hm])
  unfold St.handleCloseEvent
  split_ifs with hs
  · have hg := (graceful_of_mute hl h.graceful).1
    exact h.closed hb (hopen.1 hs) hsend hlog (sentBytes_of_mute hl) hbeg hg (hlog ▸ hin)
      fun hm' => absurd hm hm'
  · exact h.cleanup_eq err hI (hopen.2 hs) hb hsend hlog hl hbeg hin fun hm' => absurd hm hm'

/-! ### Sending -/

theorem not_halfClosed (hI : Inv s) (hs : s.state = .kConnected) : ¬ HalfClosed s.log := by
  rintro ⟨pre, post, hl, hm⟩
  exact hI.life.not_disconnecting hs (mem_moves.2 (by simp [hl, hm]))

theorem not_failed (h : Flow s) (hh : s.handle ≠ none) : ¬ Failed s.log :=
  fun hf => hh (h.failed hf)

/-- The frames of the watermark callback. -/
theorem checkHigh_eq (hok : t.checkHigh = .ok s') : ∃ fs l, s'.out = t.out ∧
    s'.ctl = fs ++ t.ctl ∧ s'.log = t.log ++ l ∧ NoSend fs ∧ ∀ e ∈ l, e.isDull = true := by
  rcases St.checkHigh_ok hok with rfl | rfl | rfl
  · exact ⟨[], [], rfl, rfl, by simp, by simp [NoSend], by simp⟩
  · exact ⟨[], [], rfl, rfl, by simp, by simp [NoSend], by simp⟩
  · refine ⟨[.user (.watermark t.highWatermark), .afterHigh], _, rfl, rfl, rfl, ?_, ?_⟩
    · simp [NoSend, Frame.isSend]
    · simp [Ev.isDull]

theorem noSend_append {fs ctl : List Frame} (h : NoSend fs) (h' : NoSend ctl) :
    NoSend (fs ++ ctl) := fun f hf => (List.mem_append.1 hf).elim (h f) (h' f)

theorem checkHigh {l : List Ev} (h : Flow s) (hout : t.out = s.out) (hlog : t.log = s.log ++ l)
    (hl : ∀ e ∈ l, e.isDull = true) (hin : s.inFlight = []) (hsend : NoSend t.ctl)
    (hk : Keeps s.ctl t.ctl) (hok : t.checkHigh = .ok s') : Flow s' := by
  obtain ⟨fs, l', hout', hctl, hlog', hfs, hl'⟩ := checkHigh_eq hok
  refine h.frames (l := l ++ l') (hout'.trans hout) (by rw [hlog', hlog, List.append_assoc])
    (fun e he => (List.mem_append.1 he).elim (hl e) (hl' e)) hin ?_ ?_
  · rw [hctl]
    exact noSend_append hfs hsend
  · have hp := Keeps.push fs t.ctl
    rw [hctl]
    exact ⟨hp.serves ∘ hk.serves, hp.drains ∘ hk.drains⟩

/-- **Bytes go to the back of the write buffer**, and there is write interest. -/
theorem enqueue {l : List Ev} {bs : List UInt8} (h : Flow s) (hI : Inv s)
    (hs : s.state = .kConnected) (hout : t.out = s.out) (hlog : t.log = s.log ++ l)
    (hl : ∀ e ∈ l, e.isMute = true) (hf : ¬ Failed l) (hlt : bs.length < 2 ^ 63)
    (heq : sentBytes s.log ++ s.pending ++ bs = begunBytes (s.log ++ l)) (hsend : NoSend t.ctl)
    (hk : Keeps s.ctl t.ctl) (hok : t.enqueue A bs = .ok s') : Flow s' := by
  simp only [St.out, Out.mk.injEq] at hout
  obtain ⟨hb, hc, hh, hst, hd, hw, hr⟩ := hout
  obtain ⟨pre, ho, hm⟩ := hI.life.isUp hs
  obtain ⟨b, b', u, hb', happ, hu, hcheck⟩ := St.enqueue_ok hok
  obtain ⟨c, c', w, hc', rfl, -, -, hwriting, -, hsame, hnew⟩ := St.addWriteEvent_ok hu
  obtain ⟨fs, l', hout', hctl, hlog', hfs, hl'⟩ := checkHigh_eq hcheck
  simp only [St.out, Out.mk.injEq] at hout'
  obtain ⟨ob, oc, oh, os, od, ow, or⟩ := hout'
  have hchan : s.channel = some c := hc ▸ hc'
  have hbuf : s.writeBuffer = some b := hb ▸ hb'
  have hwf := h.wf b hbuf
  obtain ⟨hwf', hread, hne⟩ := Buffer.append_done hwf hlt happ
  have hpend : s.pending = b.readable := by simp [St.pending, hbuf]
  have hpend' : s'.pending = s.pending ++ bs := by simp [St.pending, ob, hread, hbuf]
  have hsend' : NoSend s'.ctl := hctl ▸ noSend_append hfs hsend
  have hlog'' : s'.log = s.log ++ (l ++ l') := by
    rw [hlog']
    simp [hlog]
  have hml : ∀ e ∈ l ++ l', e.isMute = true :=
    fun e he => (List.mem_append.1 he).elim (hl e) (mute_of_dull hl' e)
  have hsent : sentBytes s'.log = sentBytes s.log := by
    rw [hlog'', sentBytes_append, sentBytes_of_mute hml, List.append_nil]
  have hbeg : begunBytes s'.log = sentBytes s.log ++ s.pending ++ bs := by
    rw [hlog'', ← List.append_assoc, begunBytes_append, begunBytes_of_dull hl', List.append_nil,
      heq]
  obtain ⟨hg, hhalf⟩ := graceful_of_mute hml h.graceful
  have hnf : ¬ Failed s'.log := by
    rw [hlog'', failed_append, failed_append, not_or, not_or]
    exact ⟨h.not_failed ho.handle, hf, not_failed_of_dull hl'⟩
  have hserve : (∃ f ∈ s.ctl, f.serves = true) → ∃ f ∈ s'.ctl, f.serves = true := by
    rw [hctl]
    exact (Keeps.push fs t.ctl).serves ∘ hk.serves
  obtain ⟨i1, i2, i3⟩ := h.interest ho.handle (by simp [hm])
  refine .of_noSend hsend' (fun x hx => ?_) (fun _ => ?_) ?_ (fun hf => absurd hf hnf)
    (hlog'' ▸ hg) (fun hf => absurd (hhalf (hlog'' ▸ hf)) (not_halfClosed hI hs))
    (fun hm' => absurd (by simp [hlog'', hm]) hm')
    fun _ _ => ⟨fun _ x hx => ?_, fun _ _ _ _ hnil => ?_, fun _ => ?_⟩
  · rw [ob] at hx
    cases hx
    exact hwf'
  · rw [hsent, hpend', hbeg, List.append_assoc]
  · rw [hsent, hbeg, List.append_assoc]
    exact List.prefix_append _ _
  · rw [oc] at hx
    cases hx
    exact hwriting
  · simp [hpend', hne] at hnil
  · unfold St.Served
    rw [or, od, ow]
    cases hcw : c.writing with
    | false =>
      -- the interest is new, and a socket with room raises a notification
      rcases hnew hcw with h | h
      · exact .inl h
      · exact .inr (.inr (.inl h))
    | true =>
      obtain ⟨-, hw'⟩ := hsame hcw
      by_cases hp : s.pending = []
      · -- there is interest although nothing is pending: a handler is draining
        have hdr : ∃ f ∈ s.ctl, f.drains = true := by
          by_contra hno
          push Not at hno
          exact i2 (fun f hf => by simpa using hno f hf) c hchan hcw hp
        obtain ⟨f, hf, hd⟩ := hdr
        exact .inr (.inr (.inr (hserve ⟨f, hf, Frame.serves_of_drains hd⟩)))
      · rcases i3 hp with h | h | h | h
        · exact .inl (hw'.trans (hr.trans h))
        · exact .inr (.inl (hd ▸ h))
        · exact .inr (.inr (.inl (hw.trans h)))
        · exact .inr (.inr (.inr (hserve h)))

/-- `send_in_poll_thread_`, after its loop: what was not accepted is queued. -/
theorem sendTail {l : List Ev} {m : Msg} {n : ℕ} {rest : List Frame} (h : Flow s) (hI : Inv s)
    (hctl : s.ctl = .sendLoop m n :: rest) (hout : t.out = s.out) (hlog : t.log = s.log ++ l)
    (hl : ∀ e ∈ l, e.isDull = true) (hrest : t.ctl = rest) (hok : t.sendTail A m n = .ok s') :
    Flow s' := by
  obtain ⟨hs, hpend, -⟩ := h.loop m n rest hctl
  have hin : s.inFlight = m.bytes.drop n := by simp [St.inFlight, hctl]
  have hsend : NoSend t.ctl := by
    have := h.nested
    rwa [hctl, List.tail_cons, ← hrest] at this
  have hk : Keeps s.ctl t.ctl := by
    rw [hctl, hrest]
    exact Keeps.replace [] rfl rfl
  unfold St.sendTail at hok
  split_ifs at hok with hn
  · refine h.enqueue hI hs hout hlog (mute_of_dull hl) (not_failed_of_dull hl) ?_ ?_ hsend hk hok
    · have := m.lt
      simp only [List.length_drop]
      omega
    · obtain ⟨pre, ho, -⟩ := hI.life.isUp hs
      rw [begunBytes_append, begunBytes_of_dull hl, List.append_nil, ← hin]
      exact h.eq (h.not_failed ho.handle)
  · refine h.checkHigh hout hlog hl ?_ hsend hk hok
    rw [hin, List.drop_eq_nil_of_le (by omega)]

/-- **`send_in_poll_thread_`** begins. -/
theorem sendInPollThread {m : Msg} (h : Flow s) (hI : Inv s) (hsend : NoSend s.ctl)
    (hok : s.sendInPollThread A m = .ok s') : Flow s' := by
  unfold St.sendInPollThread at hok
  split_ifs at hok with hs
  · cases hok; exact h
  rw [not_not] at hs
  obtain ⟨pre, ho, hm⟩ := hI.life.isUp hs
  obtain ⟨b, hb⟩ := Option.isSome_iff_exists.1 ho.writeBuffer
  obtain ⟨c, hc, -⟩ := ho.channel
  have hb' : (s.note (.began m.bytes)).writeBuffer = some b := hb
  have hc' : (s.note (.began m.bytes)).channel = some c := hc
  simp only [hb', hc'] at hok
  have hnf := h.not_failed ho.handle
  have heq := h.eq hnf
  rw [inFlight_of_noSend hsend, List.append_nil] at heq
  have hml : ∀ e ∈ [Ev.began m.bytes], e.isMute = true := by simp [Ev.isMute]
  split_ifs at hok with hr
  · refine h.enqueue (t := s.note (.began m.bytes)) hI hs rfl rfl hml
      (by simp [Failed, Ev.isFatal]) m.lt ?_ hsend (.refl _) hok
    rw [begunBytes_append, heq]
    simp [begunBytes]
  · cases hok
    have hwf := h.wf b hb
    have hpend : s.pending = [] := by
      simp only [St.pending, hb]
      exact hwf.readable_eq_nil_iff.2 (by omega)
    obtain ⟨hg, hhalf⟩ := graceful_of_mute hml h.graceful
    obtain ⟨i1, i2, i3⟩ := h.interest ho.handle (by simp [hm])
    have hsent : sentBytes (s.log ++ [Ev.began m.bytes]) = sentBytes s.log := by
      simp [sentBytes]
    have hbeg : begunBytes (s.log ++ [Ev.began m.bytes]) = sentBytes s.log ++ m.bytes := by
      rw [begunBytes_append, ← heq, hpend]
      simp [begunBytes]
    exact {
      wf := h.wf
      nested := hsend
      loop := fun m' n' rest' hctl => by
        cases hctl
        exact ⟨hs, hpend, Nat.zero_le _⟩
      eq := fun _ => by
        show sentBytes (s.log ++ [Ev.began m.bytes]) ++ s.pending ++ m.bytes.drop 0 =
          begunBytes (s.log ++ [Ev.began m.bytes])
        rw [hsent, hpend, hbeg]
        simp
      pre := by
        show sentBytes (s.log ++ [Ev.began m.bytes]) <+: begunBytes (s.log ++ [Ev.began m.bytes])
        rw [hsent, hbeg]
        exact List.prefix_append _ _
      failed := fun hf => by
        rcases failed_append.1 hf with hf | hf
        · exact h.failed hf
        · simp [Failed, Ev.isFatal] at hf
      graceful := hg
      halfClosed := fun hf => absurd (hhalf hf) (not_halfClosed hI hs)
      waiting := fun hm' => absurd (started_append (by simp [hm])) hm'
      interest := fun _ _ => by
        refine ⟨fun hne => absurd hpend hne, fun hdr => ?_, fun hne => absurd hpend hne⟩
        exact i2 fun f hf => hdr f (List.mem_cons_of_mem _ hf) }

theorem send {m : Msg} (h : Flow s) (hI : Inv s) (hsend : NoSend s.ctl)
    (hok : s.send A m = .ok s') : Flow s' := by
  unfold St.send at hok
  split_ifs at hok
  · cases hok; exact h
  · exact h.sendInPollThread hI hsend hok

/-- The kernel accepts bytes from the loop of `send_in_poll_thread_`. -/
theorem sendLoop_accepted {m : Msg} {n k : ℕ} {rest : List Frame} (h : Flow s) (hI : Inv s)
    (hctl : s.ctl = .sendLoop m n :: rest) (hk : k ≤ (St.attempt m n).length)
    (hout : s'.out = s.out) (hlog : s'.log = s.log ++ [Ev.sent ((St.attempt m n).take k)])
    (hctl' : s'.ctl = .sendLoop m (n + k) :: rest) : Flow s' := by
  simp only [St.out, Out.mk.injEq] at hout
  obtain ⟨hb, hc, hh, hst, hd, hw, hr⟩ := hout
  obtain ⟨hs, hpend, hn⟩ := h.loop m n rest hctl
  obtain ⟨pre, ho, hm⟩ := hI.life.isUp hs
  have hgoal : St.directWriteGoal m ≤ m.bytes.length := min_le_left _ _
  have hlen : k ≤ St.directWriteGoal m - n := by
    simp only [St.attempt, List.length_take, List.length_drop] at hk
    omega
  have hp : s'.pending = s.pending := by simp only [St.pending, hb]
  -- what the kernel takes is the front of what is left of the message
  have htake : (St.attempt m n).take k = (m.bytes.drop n).take k := by
    rw [St.attempt, List.take_take, min_eq_left hlen]
  have hsent : sentBytes s'.log = sentBytes s.log ++ (m.bytes.drop n).take k := by
    rw [hlog, sentBytes_append, htake]
    simp [sentBytes]
  have hbeg : begunBytes s'.log = begunBytes s.log := by
    rw [hlog, begunBytes_append]
    simp [begunBytes]
  have heq := h.eq (h.not_failed ho.handle)
  rw [hpend, List.append_nil] at heq
  have hin : s.inFlight = m.bytes.drop n := by simp [St.inFlight, hctl]
  have hin' : s'.inFlight = (m.bytes.drop n).drop k := by simp [St.inFlight, hctl', List.drop_drop]
  have heq' : sentBytes s'.log ++ s'.inFlight = begunBytes s'.log := by
    rw [hsent, hin', hbeg, List.append_assoc, List.take_append_drop, ← hin, heq]
  have hmoves : moves s'.log = moves s.log := by
    rw [hlog, moves_append]
    exact List.append_nil _
  exact {
    wf := hb ▸ h.wf
    nested := by
      have := h.nested
      rw [hctl] at this
      rwa [hctl']
    loop := fun m' n' rest' he => by
      rw [hctl'] at he
      cases he
      exact ⟨hst.trans hs, hp.trans hpend, by omega⟩
    eq := fun _ => by
      rw [hp, hpend, List.append_nil]
      exact heq'
    pre := by
      rw [← heq']
      exact List.prefix_append _ _
    failed := fun hf => by
      rw [hlog, failed_append] at hf
      rcases hf with hf | hf
      · exact hh.trans (h.failed hf)
      · simp [Failed, Ev.isFatal] at hf
    graceful := by
      rw [hlog, graceful_snoc]
      exact ⟨h.graceful, fun hf => absurd hf (not_halfClosed hI hs), nofun⟩
    halfClosed := fun hf => by
      rw [hlog, halfClosed_snoc] at hf
      rcases hf with hf | ⟨hf, -⟩
      · exact absurd hf (not_halfClosed hI hs)
      · cases hf
    waiting := fun hm' => absurd (by simp [hmoves, hm]) hm'
    interest := fun h1 h2 => by
      obtain ⟨i1, i2, i3⟩ := h.interest (hh ▸ h1) (hmoves ▸ h2)
      refine ⟨fun hne => absurd (hp.trans hpend) hne, fun hdr => ?_,
        fun hne => absurd (hp.trans hpend) hne⟩
      rw [hp, hc]
      refine i2 fun f hf => ?_
      rw [hctl] at hf
      rcases List.mem_cons.1 hf with rfl | hf
      · rfl
      · exact hdr f (by simp [hctl', hf]) }

/-- A handler of the established connection is in progress. -/
theorem started_of_frame {f : Frame} {rest : List Frame} (hI : Inv s) (hctl : s.ctl = f :: rest)
    (hf : f.isQuiet = false) : .kConnected ∈ moves s.log := by
  by_contra hm
  have := (hI.life.waiting hm).2.quiet f (by simp [hctl])
  simp [hf] at this

/-- The kernel accepts bytes from the loop of `handle_write_event_`. -/
theorem wrote {n : ℕ} {rest : List Frame} {b : Buffer} (h : Flow s) (hI : Inv s)
    (hctl : s.ctl = .writeLoop :: rest) (hb : s.writeBuffer = some b) (hh : s.handle ≠ none)
    (hn : n ≤ b.readable.length) (hpos : 0 < b.readableSize) (hout : t.out = s.out)
    (hlog : t.log = s.log ++ [Ev.sent (b.readable.take n)]) (hrest : t.ctl = rest)
    (hok : t.wrote A n = .ok s') : Flow s' := by
  simp only [St.out, Out.mk.injEq] at hout
  obtain ⟨ob, oc, oh, -, od, ow, or⟩ := hout
  obtain ⟨b₁, b', hb₁, hr, fs, l, hs', hfs⟩ := St.wrote_ok hok
  obtain rfl : b = b₁ := Option.some.inj (hb.symm.trans (ob ▸ hb₁))
  have hm := started_of_frame hI hctl rfl
  have hwf := h.wf b hb
  obtain ⟨hwf', hread⟩ := Buffer.beenRead_done hwf (hwf.length_readable ▸ hn) hr
  have hsend : NoSend s.ctl := h.noSend_of_top hctl rfl
  have hfs' : NoSend fs ∧ (∃ f ∈ fs, f.drains = true) ∧ (∃ f ∈ fs, f.serves = true) ∧
      ∀ e ∈ l, e.isDull = true := by
    rcases hfs with ⟨rfl, rfl⟩ | ⟨rfl, rfl⟩ | ⟨rfl, rfl⟩ <;>
      simp [NoSend, Frame.isSend, Frame.drains, Frame.serves, Ev.isDull]
  obtain ⟨hfs1, ⟨f, hf, hfd⟩, ⟨g, hg, hgs⟩, hl⟩ := hfs'
  have hml := mute_of_dull hl
  have hctl' : s'.ctl = fs ++ rest := by rw [hs', hrest]
  have hlog' : s'.log = s.log ++ [Ev.sent (b.readable.take n)] ++ l := by rw [hs', hlog]
  have hsend' : NoSend s'.ctl := by
    rw [hctl']
    exact noSend_append hfs1 fun f hf => hsend f (by simp [hctl, hf])
  have hpend : s.pending = b.readable := by simp [St.pending, hb]
  have hpend' : s'.pending = b'.readable := by simp [St.pending, hs']
  have hne : s.pending ≠ [] := by
    rw [hpend, Ne, hwf.readable_eq_nil_iff]
    omega
  have hnf := h.not_failed hh
  have heq := h.eq hnf
  rw [inFlight_of_noSend hsend, List.append_nil, hpend] at heq
  have hnh : ¬ HalfClosed s.log := fun hf => (h.halfClosed hf).elim hne hh
  obtain ⟨hgr, hhalf⟩ := graceful_of_mute (l := s.log ++ [Ev.sent (b.readable.take n)]) hml
    (graceful_snoc.2 ⟨h.graceful, fun hf => absurd hf hnh, nofun⟩)
  rw [← hlog'] at hgr hhalf
  have hsent : sentBytes s'.log = sentBytes s.log ++ b.readable.take n := by
    rw [hlog', sentBytes_append, sentBytes_of_mute hml, sentBytes_append]
    simp [sentBytes]
  have hbeg : begunBytes s'.log = begunBytes s.log := by
    rw [hlog', begunBytes_append, begunBytes_of_dull hl, begunBytes_append]
    simp [begunBytes]
  have heq' : sentBytes s'.log ++ s'.pending = begunBytes s'.log := by
    rw [hsent, hpend', hread, hbeg, List.append_assoc, List.take_append_drop, heq]
  have hnf' : ¬ Failed s'.log := by
    rw [hlog', failed_append, failed_append, not_or, not_or]
    exact ⟨⟨hnf, by simp [Failed, Ev.isFatal]⟩, not_failed_of_dull hl⟩
  obtain ⟨i1, -, -⟩ := h.interest hh hm
  -- `handle_write_event_` goes on after this, so write interest may still be set
  refine .of_noSend hsend' (fun x hx => ?_) (fun _ => heq') ?_ (fun hf => absurd hf hnf') hgr
    (fun hf => ?_) (fun hm' => absurd (by simp [hlog', hm]) hm')
    fun _ _ => ⟨fun _ => ?_, fun hdr => ?_, fun _ => ?_⟩
  · rw [hs'] at hx
    cases hx
    exact hwf'
  · rw [← heq']
    exact List.prefix_append _ _
  · rcases halfClosed_snoc.1 (hhalf hf) with hf | ⟨hf, -⟩
    · exact absurd hf hnh
    · cases hf
  · rw [hs']
    exact oc ▸ i1 hne
  · have := hdr f (by simp [hctl', hf])
    simp [hfd] at this
  · exact .inr (.inr (.inr ⟨g, by simp [hctl', hg], hgs⟩))

/-- **`handle_write_event_`, after its loop.**  With an empty buffer the interest is removed, and a
pending half-close carried out; otherwise the loop has ended because the socket has no room. -/
theorem writeTail {l : List Ev} {rest : List Frame} (h : Flow s) (hI : Inv s)
    (hctl : s.ctl = .writeLoop :: rest) (hout : t.out = s.out) (hlog : t.log = s.log ++ l)
    (hl : ∀ e ∈ l, e.isDull = true) (hrest : t.ctl = rest)
    (hroom : s.pending ≠ [] → s.writable = false) (hok : t.writeTail = .ok s') : Flow s' := by
  simp only [St.out, Out.mk.injEq] at hout
  obtain ⟨hb, hc, hh, hst, hd, hw, hr⟩ := hout
  have hsend : NoSend s.ctl := h.noSend_of_top hctl rfl
  have hsend' : NoSend t.ctl := fun f hf => hsend f (by simp [hctl, ← hrest, hf])
  have hm := started_of_frame hI hctl rfl
  have hsent : sentBytes t.log = sentBytes s.log := by
    rw [hlog, sentBytes_append, sentBytes_of_mute (mute_of_dull hl), List.append_nil]
  have hbeg : begunBytes t.log = begunBytes s.log := by
    rw [hlog, begunBytes_append, begunBytes_of_dull hl, List.append_nil]
  have hfail : Failed t.log ↔ Failed s.log := by
    rw [hlog, failed_append, or_iff_left (not_failed_of_dull hl)]
  have heq : ¬ Failed t.log → sentBytes t.log ++ s.pending = begunBytes t.log := fun hf => by
    have := h.eq (hfail.not.1 hf)
    rwa [inFlight_of_noSend hsend, List.append_nil, ← hsent, ← hbeg] at this
  have hm' : .kConnected ∈ moves t.log := by simp [hlog, hm]
  have hpre : sentBytes t.log <+: begunBytes t.log := by
    rw [hsent, hbeg]
    exact h.pre
  obtain ⟨hg, hhalf⟩ := graceful_of_mute (mute_of_dull hl) h.graceful
  rw [← hlog] at hg hhalf
  obtain ⟨b, hb', ⟨hne, rfl⟩ | ⟨h0, c, c', w, hc', -, -, hwriting, -, hs'⟩⟩ := St.writeTail_ok hok
  · -- the frame of the loop is gone, and the socket has no room
    have hwf := h.wf b (hb ▸ hb')
    have hp : s'.pending = s.pending := by simp only [St.pending, hb]
    have hne' : s.pending ≠ [] := by
      rw [St.pending, ← hb, hb', Ne, hwf.readable_eq_nil_iff]
      exact hne
    refine .of_noSend hsend' (hb ▸ h.wf) (hp ▸ heq) hpre
      (fun hf => hh.trans (h.failed (hfail.1 hf))) hg (fun hf => ?_) (fun hm => absurd hm' hm)
      fun h1 _ => ⟨?_, fun _ _ _ _ => hp ▸ hne', fun _ => ?_⟩
    · rw [hp, hh]
      exact h.halfClosed (hhalf hf)
    · rw [hp, hc]
      exact (h.interest (hh ▸ h1) hm).writing
    · exact .inr (.inr (.inl (hw.trans (hroom hne'))))
  · have hwf := h.wf b (hb ▸ hb')
    have hp : s.pending = [] := by
      rw [St.pending, ← hb, hb']
      exact hwf.readable_eq_nil_iff.2 h0
    rw [hp, List.append_nil] at heq
    have hp' : s'.pending = [] := by
      rw [St.pending, hs']
      exact Buffer.readable_clear
    obtain ⟨ls, hlog', hls⟩ : ∃ ls, s'.log = t.log ++ ls ∧
        (ls = [] ∨ ls = [.shutWr] ∧ t.state = .kDisconnecting) := by
      refine ⟨_, by rw [hs'], ?_⟩
      split_ifs with hs
      · exact .inr ⟨rfl, hs⟩
      · exact .inl rfl
    -- in state `kDisconnecting` the connection is open, so nothing has failed
    have hopen : t.state = .kDisconnecting → s.handle ≠ none := fun hs => by
      cases hI.life with
      | fresh hp | queued _ _ hp => simp [hp.moves] at hm
      | connecting _ _ _ h2 => simp [← hst, hs] at h2
      | dead _ _ _ _ _ h5 => exact absurd hm h5
      | up _ ho | closing _ ho => exact ho.handle
      | down _ _ h2 => simp [← hst, hs] at h2
    have hsent' : sentBytes s'.log = sentBytes t.log := by
      rcases hls with rfl | ⟨rfl, -⟩ <;> simp [hlog', sentBytes]
    have hbeg' : begunBytes s'.log = begunBytes t.log := by
      rcases hls with rfl | ⟨rfl, -⟩ <;> simp [hlog', begunBytes]
    have hfail' : Failed s'.log ↔ Failed t.log := by
      rcases hls with rfl | ⟨rfl, -⟩ <;> simp [hlog', Failed, Ev.isFatal]
    refine .of_noSend (by rw [hs']; exact hsend') (fun x hx => ?_) (fun hf => ?_) ?_ (fun hf => ?_)
      ?_ (fun _ => .inl hp') (fun hm => absurd (by simp [hlog', hm']) hm) fun _ _ =>
        ⟨fun hne => absurd hp' hne, fun _ x hx hx' => ?_, fun hne => absurd hp' hne⟩
    · rw [hs'] at hx
      cases hx
      exact hwf.clear
    · rw [hsent', hp', hbeg', List.append_nil]
      exact heq (hfail'.not.1 hf)
    · rw [hsent', hbeg']
      exact hpre
    · rw [hs']
      exact hh.trans (h.failed (hfail.1 (hfail'.1 hf)))
    · rw [hlog']
      rcases hls with rfl | ⟨rfl, hs⟩
      · simpa using hg
      · refine graceful_snoc.2 ⟨hg, fun _ => rfl, fun _ _ => heq ?_⟩
        exact hfail.not.2 (h.not_failed (hopen hs))
    · rw [hs'] at hx
      cases hx
      simp [hwriting] at hx'

/-! ### Shutting down -/

theorem nothingToWrite_iff (h : Flow s) : s.nothingToWrite = true ↔ s.pending = [] := by
  unfold St.nothingToWrite St.pending
  cases hb : s.writeBuffer with
  | none => simp
  | some b => simp [(h.wf b hb).readable_eq_nil_iff]

/-- **`shutdown_in_poll_`** shuts the write side only when nothing is pending. -/
theorem shutdownInPoll (h : Flow s) (hsend : NoSend s.ctl) (hok : s.shutdownInPoll = .ok s') :
    Flow s' := by
  rcases St.shutdownInPoll_ok hok with rfl | ⟨-, -, hh, ch, w, l, tid, nid, sch, hf, hs'⟩
  · exact h
  have hin := inFlight_of_noSend hsend
  have hnf := h.not_failed hh
  have heq := h.eq hnf
  rw [hin, List.append_nil] at heq
  have hp : s'.pending = s.pending := by simp only [St.pending, hs']
  -- the write half is closed at once only if nothing is pending
  have hl : l = [] ∨ l = [.shutWr] ∧ s.pending = [] := by
    cases hf with
    | waits => exact .inl rfl
    | noChannel _ hn | done _ hn => exact .inr ⟨rfl, h.nothingToWrite_iff.1 hn⟩
  have hlog : s'.log = s.log ++ [Ev.moved .kDisconnecting] ++ l := by rw [hs']
  have hsent : sentBytes s'.log = sentBytes s.log := by
    rcases hl with rfl | ⟨rfl, -⟩ <;> simp [hlog, sentBytes]
  have hbeg : begunBytes s'.log = begunBytes s.log := by
    rcases hl with rfl | ⟨rfl, -⟩ <;> simp [hlog, begunBytes]
  have hnf' : ¬ Failed s'.log := by
    rw [hlog, failed_append, failed_append, not_or, not_or]
    refine ⟨⟨hnf, by simp [Failed, Ev.isFatal]⟩, ?_⟩
    rcases hl with rfl | ⟨rfl, -⟩ <;> simp [Failed, Ev.isFatal]
  have hmute : ∀ e ∈ [Ev.moved .kDisconnecting], e.isMute = true := by simp [Ev.isMute]
  obtain ⟨hg, hhalf⟩ := graceful_of_mute hmute h.graceful
  have hmoved : .kConnected ∈ moves s'.log ↔ .kConnected ∈ moves s.log := by
    rcases hl with rfl | ⟨rfl, -⟩ <;> simp [hlog, moves]
  refine .of_noSend (by rw [hs']; exact hsend) (by rw [hs']; exact h.wf) (fun _ => ?_) ?_
    (fun hf => absurd hf hnf') ?_ (fun hc => ?_) (fun hm => ?_) fun h1 h2 => ?_
  · rw [hsent, hp, heq, hbeg]
  · rw [hsent, hbeg]
    exact h.pre
  · rw [hlog]
    rcases hl with rfl | ⟨rfl, hpend⟩
    · simpa using hg
    · refine graceful_snoc.2 ⟨hg, fun _ => rfl, fun _ _ => ?_⟩
      rw [hpend, List.append_nil] at heq
      simpa [sentBytes, begunBytes] using heq
  · rw [hp]
    rcases hl with rfl | ⟨rfl, hpend⟩
    · rw [hlog, List.append_nil] at hc
      exact (h.halfClosed (hhalf hc)).imp_right fun h => absurd h hh
    · exact .inl hpend
  · rw [hp]
    exact ⟨(h.waiting (hmoved.not.1 hm)).1, hnf'⟩
  · obtain ⟨i1, i2, i3⟩ := h.interest hh (hmoved.1 h2)
    cases hf with
    | waits hn =>
      rw [hs']
      exact ⟨i1, i2, i3⟩
    | noChannel w hn hc =>
      have hpend := hp.trans (h.nothingToWrite_iff.1 hn)
      refine ⟨fun hne => absurd hpend hne, fun _ x hx => ?_, fun hne => absurd hpend hne⟩
      rw [hs'] at hx
      cases hx
    | done w hn hc _ _ hwriting =>
      have hpend := hp.trans (h.nothingToWrite_iff.1 hn)
      refine ⟨fun hne => absurd hpend hne, fun _ x hx hx' => ?_, fun hne => absurd hpend hne⟩
      rw [hs'] at hx
      cases hx
      simp [hwriting] at hx'

theorem shutdown (h : Flow s) (hsend : NoSend s.ctl) (hok : s.shutdown = .ok s') : Flow s' := by
  unfold St.shutdown at hok
  split_ifs at hok
  · cases hok; exact h
  · exact h.shutdownInPoll hsend hok

theorem close (h : Flow s) (hI : Inv s) (hsend : NoSend s.ctl) : Flow s.close := by
  unfold St.close
  split_ifs
  · exact h
  · exact h.cleanup 0 hI hsend

theorem releaseChannel (h : Flow s) (hI : Inv s) (hd : s.cleanupDone = true) :
    Flow s.releaseChannel := by
  obtain ⟨rel, he, -⟩ := s.releaseChannel_eq
  rw [he]
  refine h.reinterest rfl rfl rfl rfl rfl fun h1 h2 => ?_
  obtain ⟨pre, ho⟩ := hI.life.isOpen h2 h1
  simp [ho.cleanupDone] at hd

/-! ### Setting up -/

/-- Nothing is sent, begun or shut, and no error of `::send` reported. -/
def calm (l : List Ev) : Prop :=
  ∀ e ∈ l, match e with
    | .sent _ | .began _ | .shutWr | .sendError _ => False
    | _ => True

theorem calm_append {l l' : List Ev} (h : calm l) (h' : calm l') : calm (l ++ l') :=
  fun e he => (List.mem_append.1 he).elim (h e) (h' e)

theorem calm_callLog (b : Bool) (cb : Callback) : calm (St.callLog b cb) := by
  cases b <;> simp [calm, St.callLog]

theorem calm_moveLog (st : State) : calm (t.moveLog st) := by
  unfold St.moveLog
  split_ifs <;> simp [calm]

theorem calm_deregisterLog : calm t.deregisterLog := by
  unfold St.deregisterLog
  split <;> simp [calm]

theorem calm_closeLog : calm t.closeLog := by
  unfold St.closeLog
  split <;> simp [calm]

theorem noSend_callFrames {b : Bool} {cb : Callback} {ctl : List Frame} (h : NoSend ctl) :
    NoSend (St.callFrames b cb ++ ctl) := by
  cases b with
  | false => exact h
  | true => exact List.forall_mem_cons.2 ⟨rfl, h⟩

theorem noSend_of_quiet {ctl : List Frame} (h : Quiet ctl) : NoSend ctl := fun f hf => by
  have hq := h f hf
  cases f with
  | sendLoop m n => cases hq
  | _ => rfl

/-- The write buffer of a connection that waits is empty. -/
theorem empty_buffer (h : Flow s) (hm : .kConnected ∉ moves s.log) :
    ∀ b ∈ s.writeBuffer, b.WF ∧ b.readable = [] := fun b hb => by
  have hp := (h.waiting hm).1
  rw [St.pending, hb] at hp
  exact ⟨h.wf b hb, hp⟩

/-- **Setting up.**  Before `start_` takes effect nothing is begun, and nothing is pending. -/
theorem setUp {l : List Ev} (h : Flow s) (hI : Inv s) (hm : .kConnected ∉ moves s.log)
    (hwf : ∀ b ∈ s'.writeBuffer, b.WF ∧ b.readable = []) (hsend : NoSend s'.ctl)
    (hlog : s'.log = s.log ++ l) (hl : calm l)
    (hc : .kConnected ∈ moves s'.log → ∀ c ∈ s'.channel, c.writing = false) : Flow s' := by
  obtain ⟨hp, hnf⟩ := h.waiting hm
  have heq := h.eq hnf
  rw [hp, inFlight_of_noSend (noSend_of_quiet (hI.life.waiting hm).2.quiet), List.append_nil,
    List.append_nil] at heq
  have hp' : s'.pending = [] := by
    unfold St.pending
    cases hb : s'.writeBuffer with
    | none => rfl
    | some b => exact (hwf b hb).2
  have hmute : ∀ e ∈ l, e.isMute = true := fun e he => by
    have := hl e he
    cases e <;> simp_all [Ev.isMute]
  have hbeg : begunBytes l = [] := by
    rw [begunBytes, List.flatMap_eq_nil_iff]
    intro e he
    have := hl e he
    cases e <;> simp_all
  have hnf' : ¬ Failed s'.log := by
    rw [hlog, failed_append, not_or]
    refine ⟨hnf, fun ⟨e, he, hf⟩ => ?_⟩
    have := hl e he
    cases e <;> simp_all [Ev.isFatal]
  have hsent : sentBytes s'.log = begunBytes s'.log := by
    rw [hlog, sentBytes_append, begunBytes_append, sentBytes_of_mute hmute, hbeg, heq]
  exact .of_noSend hsend (fun b hb => (hwf b hb).1) (fun _ => by rw [hp', hsent, List.append_nil])
    (hsent ▸ List.prefix_refl _) (fun hf => absurd hf hnf')
    (hlog ▸ (graceful_of_mute hmute h.graceful).1) (fun _ => .inl hp') (fun _ => ⟨hp', hnf'⟩)
    fun _ h2 => ⟨fun hne => absurd hp' hne, fun _ c hc' hw => by simp [hc h2 c hc'] at hw,
      fun hne => absurd hp' hne⟩

/-- A connection on which `start_` has no effect keeps its channel and buffers. -/
theorem startConnectInPoll (r : ConnectRet) (h : Flow s) (hI : Inv s)
    (hm : .kConnected ∉ moves s.log) (hout : t.writeBuffer = s.writeBuffer) (hctl : t.ctl = s.ctl)
    (hlog : t.log = s.log) : Flow (t.startConnectInPoll r) := by
  have hsend := noSend_of_quiet (hI.life.waiting hm).2.quiet
  have hwf := h.empty_buffer hm
  rcases t.startConnectInPoll_eq r with ⟨err, he⟩ | ⟨k, w, he⟩ <;> rw [he]
  · rw [St.connectFailed_eq]
    refine h.setUp hI hm (hout ▸ hwf) (noSend_callFrames (hctl ▸ hsend)) (by rw [hlog])
      (calm_callLog _ _) fun hm' => absurd hm' ?_
    rw [hlog, moves_append, Life.moves_callLog, List.append_nil]
    exact hm
  · refine h.setUp hI hm (hout ▸ hwf) (hctl ▸ hsend) (by rw [hlog]) (calm_moveLog _)
      fun hm' => absurd hm' ?_
    rw [hlog, moves_append, List.mem_append, not_or]
    refine ⟨hm, ?_⟩
    unfold St.moveLog
    split_ifs <;> simp [moves]

theorem newBuffer_empty {o : Option Buffer} {b : Buffer} (h : St.newBuffer A o = .ok b)
    (ho : ∀ b ∈ o, b.WF ∧ b.readable = []) : b.WF ∧ b.readable = [] := by
  rcases St.newBuffer_ok h with rfl | ⟨-, hn⟩
  · exact ho b rfl
  · exact Buffer.new_sound hn

/-- `start_`, and the callback called after it; `l` was recorded before. -/
theorem start {l : List Ev} {u : St} {b : Bool} {c : Callback} (h : Flow s) (hI : Inv s)
    (hm : .kConnected ∉ moves s.log) (hb : t.writeBuffer = s.writeBuffer) (hctl : t.ctl = s.ctl)
    (hlog : t.log = s.log ++ l) (hl : calm l) (hlm : .kConnected ∉ moves l)
    (hok : t.start A = .ok u) :
    Flow (if b then u.call c none else u) := by
  have hsend := noSend_of_quiet (hI.life.waiting hm).2.quiet
  have hwf := h.empty_buffer hm
  rw [St.callIf_eq]
  rcases St.start_ok hok with ⟨rfl, -⟩ | ⟨-, r, w, wr, -, hw, rfl⟩
  · refine h.setUp (l := l ++ St.callLog b c) hI hm (hb ▸ hwf) (noSend_callFrames (hctl ▸ hsend))
      (by rw [hlog, List.append_assoc]) (calm_append hl (calm_callLog _ _))
      fun hm' => absurd hm' ?_
    rw [hlog, moves_append, moves_append, Life.moves_callLog, List.append_nil, List.mem_append,
      not_or]
    exact ⟨hm, hlm⟩
  · refine h.setUp (l := l ++ t.moveLog .kConnected ++ St.callLog b c) hI hm ?_
      (noSend_callFrames (hctl ▸ hsend)) ?_ ?_ ?_
    · intro x hx
      cases hx
      exact newBuffer_empty hw (hb ▸ hwf)
    · simp only [hlog, List.append_assoc]
    · exact calm_append (calm_append hl (calm_moveLog _)) (calm_callLog _ _)
    · intro _ ch hch
      cases hch
      rfl

end Flow

end Conn

end CxpNet
