import CxpNet.Conn.Stack
import CxpNet.Conn.Stream

/-!
# The incoming side of a connection

`handle_read_event_` receives until the kernel has no more, hands what has come to the message
callback, and closes the connection if the peer has closed it or the socket has failed.  The
machine `Conn.reader` records what the callbacks have consumed and what each call of
`handle_read_event_` has done.

* `Conn.incoming_stream` : no `::recv` has length zero; what was consumed and what is readable is
  what was received; the message callback of a call that has received something is called once,
  before any close callback, and sees all of it; and a call that leaves the connection established
  has received until `EAGAIN`.

The invariant of a call is `Phase`: it is in its loop, or behind it, or it has returned at once
because the connection was not established any more.
-/

namespace CxpNet

namespace Conn

/-! ### Vocabulary -/

/-- The bytes the kernel has delivered. -/
def receivedBytes (l : List Ev) : List UInt8 :=
  l.flatMap fun e => match e with
    | .received bs => bs
    | _ => []

/-- The results of `::recv`. -/
def Ev.isRecv : Ev → Bool
  | .received _ | .recvEof | .recvError _ => true
  | _ => false

def recvs (l : List Ev) : List Ev := l.filter Ev.isRecv

/-- How often the message callback was called. -/
def messageCount (l : List Ev) : ℕ := l.count (.called .message)

/-- What only `handle_read_event_` records. -/
def Ev.isInput : Ev → Bool
  | .received _ | .recvEof | .recvError _ | .called .message => true
  | _ => false

/-- A frame of `handle_read_event_`. -/
def Frame.isRead : Frame → Bool
  | .readLoop _ | .afterMessage _ _ => true
  | _ => false

namespace St

/-- The readable bytes of `read_buffer_`. -/
def unread (s : St) : List UInt8 :=
  match s.readBuffer with
  | none => []
  | some b => b.readable

/-- `handle_read_event_` is in progress. -/
def reading (s : St) : Bool := s.ctl.any Frame.isRead

/-- The room that is left after an operation on the buffer. -/
def room : Buffer.Res → Option ℕ
  | .done b => some b.writableSize
  | .throw _ _ => none

/-- The length with which `::recv` is called in this state, if it is. -/
def recvLength (A : Allocator) (s : St) : Option ℕ :=
  match s.ctl with
  | .readLoop _ :: _ =>
    if s.state = .kConnected then s.readBuffer.bind fun b => room (makeRoom A b) else none
  | _ => none

end St

/-- The history of the incoming side. -/
structure Reads where
  /-- What the message callbacks have taken from the buffer. -/
  consumed : List UInt8
  /-- What was recorded during the last call of `handle_read_event_`. -/
  call : Option (List Ev)
  /-- A message callback was set when it was called. -/
  set : Bool
  /-- What was readable when the message callback was last called. -/
  shown : List UInt8

namespace Reads

def init : Reads := ⟨[], none, false, []⟩

/-- The history after the step `a` from `s` to `s'`. -/
def next (x : Reads) (s : St) (a : Act) (s' : St) : Reads :=
  let new := s'.log.drop s.log.length
  { consumed := match a with
      | .consume k => x.consumed ++ s.unread.take k
      | _ => x.consumed
    call := if a = .dispatch ∧ s'.reading then some []
      else if s.reading then x.call.map (· ++ new) else x.call
    set := if a = .dispatch ∧ s'.reading then s.onMessage else x.set
    shown := if .called .message ∈ new then s'.unread else x.shown }

end Reads

/-- The history of a connection that may crash. -/
def readsNext (x : Reads) (c : Except Crash St) (a : Act) (c' : Except Crash St) : Reads :=
  match c, c' with
  | .ok s, .ok s' => x.next s a s'
  | _, _ => x

/-- The connection as a machine that records what its read handler does. -/
def reader (A : Allocator) (K : Kernel) : Machine (Except Crash St × Reads) Act :=
  (machine A K).history readsNext

/-! ### Steps that leave the incoming side alone -/

@[simp] theorem receivedBytes_append (l l' : List Ev) :
    receivedBytes (l ++ l') = receivedBytes l ++ receivedBytes l' :=
  List.flatMap_append

theorem receivedBytes_of_noInput {l : List Ev} (h : ∀ e ∈ l, e.isInput = false) :
    receivedBytes l = [] := by
  rw [receivedBytes, List.flatMap_eq_nil_iff]
  intro e he
  have := h e he
  cases e with
  | received bs => cases this
  | _ => rfl

section

variable {A : Allocator} {K : Kernel} {s₀ s s' t : St} {a : Act} {x : Reads}

theorem noInput_callLog (set : Bool) {cb : Callback} (h : cb ≠ .message) :
    ∀ e ∈ St.callLog set cb, e.isInput = false := by
  intro e he
  rw [St.mem_callLog he]
  cases cb with
  | message => exact absurd rfl h
  | _ => rfl

theorem noInput_moveLog (st : State) : ∀ e ∈ t.moveLog st, e.isInput = false := by
  intro e he
  rw [St.mem_moveLog he]
  rfl

theorem noInput_deregisterLog : ∀ e ∈ t.deregisterLog, e.isInput = false := by
  intro e he
  obtain ⟨role, rfl⟩ := St.mem_deregisterLog he
  rfl

theorem noInput_closeLog : ∀ e ∈ t.closeLog, e.isInput = false := by
  intro e he
  obtain ⟨k, rfl⟩ := St.mem_closeLog he
  rfl

theorem noInput_cleanupLog (err : ℕ) : ∀ e ∈ t.cleanupLog err, e.isInput = false := by
  intro e he
  cases St.tidies_of_mem he <;> rfl

/-- The innermost call is not in the loop of `handle_read_event_`. -/
def NotReading (ctl : List Frame) : Prop := ∀ b rest, ctl ≠ .readLoop b :: rest

theorem NotLooping.notReading {ctl : List Frame} (h : NotLooping ctl) : NotReading ctl := by
  rintro b rest rfl
  have := h (.readLoop b) rfl
  cases this

theorem notReading_cons {ctl rest : List Frame} {f : Frame} (h : ctl = f :: rest)
    (hf : ∀ b, f ≠ .readLoop b) : NotReading ctl := by
  rintro b rest' he
  rw [h, List.cons.injEq] at he
  exact hf b he.1

/-- What a step may do to the incoming side that neither receives nor consumes nor enters the read
handler. -/
structure Aside (s s' : St) : Prop where
  log : ∃ l, s'.log = s.log ++ l ∧ ∀ e ∈ l, e.isInput = false
  buffer : s'.readBuffer = s.readBuffer ∨
    s.readBuffer = none ∧ ∃ b, s'.readBuffer = some b ∧ b.WF ∧ b.readable = []
  ctl : ∀ f ∈ s'.ctl, f.isRead = true → f ∈ s.ctl
  /-- The loop of the read handler is left if the connection is not established any more;
  otherwise other threads can only queue closures. -/
  loop : ∀ b rest, s.ctl = .readLoop b :: rest →
    (s.state ≠ .kConnected ∧ s'.ctl = rest ∧ s'.log = s.log) ∨
      (s'.ctl = s.ctl ∧ s'.state = s.state ∧ s'.onMessage = s.onMessage ∧
        ∃ l, s'.log = s.log ++ l ∧ ∀ e ∈ l, e = .refused)

namespace Aside

theorem of_log {l : List Ev} (hn : NotReading s.ctl) (hlog : s'.log = s.log ++ l)
    (hl : ∀ e ∈ l, e.isInput = false) (hbuf : s'.readBuffer = s.readBuffer)
    (hctl : ∀ f ∈ s'.ctl, f.isRead = true → f ∈ s.ctl) : Aside s s' :=
  ⟨⟨l, hlog, hl⟩, .inl hbuf, hctl, fun b rest h => absurd h (hn b rest)⟩

/-- Nothing that the read handler looks at is changed. -/
theorem same (hlog : s'.log = s.log) (hbuf : s'.readBuffer = s.readBuffer) (hctl : s'.ctl = s.ctl)
    (hstate : s'.state = s.state) (hset : s'.onMessage = s.onMessage) : Aside s s' :=
  ⟨⟨[], by simp [hlog], by simp⟩, .inl hbuf, fun f hf _ => hctl ▸ hf,
    fun _ _ _ => .inr ⟨hctl, hstate, hset, [], by simp [hlog], by simp⟩⟩

/-- A frame is left, and others are entered. -/
theorem pop (fs : List Frame) (l : List Ev) {rest : List Frame} {f : Frame}
    (hctl : s.ctl = f :: rest) (hf : ∀ b, f ≠ .readLoop b) (hfs : ∀ g ∈ fs, g.isRead = false)
    (hctl' : s'.ctl = fs ++ rest) (hlog : s'.log = s.log ++ l) (hl : ∀ e ∈ l, e.isInput = false)
    (hbuf : s'.readBuffer = s.readBuffer) : Aside s s' := by
  refine of_log (notReading_cons hctl hf) hlog hl hbuf fun g hg hr => ?_
  rw [hctl'] at hg
  rcases List.mem_append.1 hg with hg | hg
  · simp [hfs g hg] at hr
  · exact hctl ▸ List.mem_cons_of_mem f hg

/-- Frames are entered on top of a call that is in no loop. -/
theorem push (fs : List Frame) (l : List Ev) (hn : NotLooping s.ctl)
    (hfs : ∀ g ∈ fs, g.isRead = false) (hctl : s'.ctl = fs ++ s.ctl)
    (hlog : s'.log = s.log ++ l) (hl : ∀ e ∈ l, e.isInput = false)
    (hbuf : s'.readBuffer = s.readBuffer) : Aside s s' := by
  refine of_log hn.notReading hlog hl hbuf fun g hg hr => ?_
  rw [hctl] at hg
  rcases List.mem_append.1 hg with hg | hg
  · simp [hfs g hg] at hr
  · exact hg

/-- A frame is left, and that is all. -/
theorem leave {rest : List Frame} {f : Frame} (hctl : s.ctl = f :: rest)
    (hf : ∀ b, f ≠ .readLoop b) (hctl' : s'.ctl = rest) (hlog : s'.log = s.log)
    (hbuf : s'.readBuffer = s.readBuffer) : Aside s s' :=
  pop [] [] hctl hf (by simp) hctl' (by simp [hlog]) (by simp) hbuf

/-- No frame is left or entered, by a call that is in no loop. -/
theorem stay (hn : NotLooping s.ctl) (hctl : s'.ctl = s.ctl) (hlog : s'.log = s.log)
    (hbuf : s'.readBuffer = s.readBuffer) : Aside s s' :=
  push [] [] hn (by simp) hctl (by simp [hlog]) (by simp) hbuf

end Aside

theorem isRead_of_light {fs : List Frame} (h : Light fs) : ∀ f ∈ fs, f.isRead = false := by
  intro f hf
  have := h f hf
  cases f with
  | user | afterHigh | afterClose => rfl
  | _ => cases this

/-- The end of `send_in_poll_thread_` -/
theorem checkHigh_aside (h : t.checkHigh = .ok s') : ∃ fs l, s'.ctl = fs ++ t.ctl ∧ Light fs ∧
    s'.log = t.log ++ l ∧ (∀ e ∈ l, e.isInput = false) ∧ s'.readBuffer = t.readBuffer := by
  rcases St.checkHigh_ok h with rfl | rfl | rfl
  · exact ⟨[], [], rfl, light_nil, by simp, by simp, rfl⟩
  · exact ⟨[], [], rfl, light_nil, by simp, by simp, rfl⟩
  · exact ⟨[.user (.watermark t.highWatermark), .afterHigh], [.called _], rfl,
      by simp [Light, Frame.isLight], rfl, by simp [Ev.isInput], rfl⟩

theorem enqueue_aside {bs : List UInt8} (h : t.enqueue A bs = .ok s') :
    ∃ fs l, s'.ctl = fs ++ t.ctl ∧ Light fs ∧ s'.log = t.log ++ l ∧
      (∀ e ∈ l, e.isInput = false) ∧ s'.readBuffer = t.readBuffer := by
  obtain ⟨b, b', u, -, -, hu, h⟩ := St.enqueue_ok h
  obtain ⟨c, c', w, -, rfl, -⟩ := St.addWriteEvent_ok hu
  obtain ⟨fs, l, hctl, hlight, hlog, hl, hbuf⟩ := checkHigh_aside h
  exact ⟨fs, l, hctl, hlight, hlog, hl, hbuf⟩

/-- What a step does to the incoming side. -/
inductive InputStep (A : Allocator) (s : St) : Act → St → Prop
  | aside {a : Act} {s' : St} : Aside s s' → (∀ k, a ≠ .consume k) →
      (a = .dispatch → s'.reading = false) → InputStep A s a s'
  | resize {r w : ℕ} {s' : St} {b : Buffer} : s'.readBuffer = some b → b.WF → b.readable = [] →
      s'.ctl = s.ctl → s'.log = s.log → InputStep A s (.setBufferSize r w) s'
  | enter {s' : St} {rest : List Frame} : s.ctl = [] → s'.ctl = .readLoop false :: rest →
      s'.log = s.log → s'.readBuffer = s.readBuffer → s'.onMessage = s.onMessage →
      InputStep A s .dispatch s'
  | received {hasNewData : Bool} {rest : List Frame} {b₀ b b' : Buffer} {bs : List UInt8} :
      s.ctl = .readLoop hasNewData :: rest → s.state = .kConnected → s.readBuffer = some b₀ →
      St.makeRoom A b₀ = .done b → bs ≠ [] → bs.length ≤ b.writableSize → b.fill bs = .done b' →
      InputStep A s (.recvRet (.data bs))
        { s with
          readBuffer := some b', ctl := .readLoop true :: rest, log := s.log ++ [.received bs] }
  | again {hasNewData : Bool} {rest : List Frame} {b₀ b : Buffer} (e : ℕ) :
      s.ctl = .readLoop hasNewData :: rest → s.state = .kConnected → s.readBuffer = some b₀ →
      St.makeRoom A b₀ = .done b → handleErrorAction e = .kContinue →
      InputStep A s (.recvRet (.error e))
        { s with readBuffer := some b, errno := e, log := s.log ++ [.recvError e] }
  | ends {hasNewData shouldClose : Bool} {rest : List Frame} {b₀ b : Buffer} {r : RecvRet}
      {ev : Ev} {err : ℕ} (e : ℕ) : s.ctl = .readLoop hasNewData :: rest →
      s.readBuffer = some b₀ → St.makeRoom A b₀ = .done b → RecvEnd r ev shouldClose err →
      InputStep A s (.recvRet r)
        { s with
          readBuffer := some b, errno := e
          ctl := St.callFrames (hasNewData && s.onMessage) .message ++
            .afterMessage shouldClose err :: rest
          log := s.log ++ [ev] ++ St.callLog (hasNewData && s.onMessage) .message }
  | consume {rest : List Frame} {b b' : Buffer} {k : ℕ} : s.ctl = .user .message :: rest →
      s.readBuffer = some b → b.beenRead A k = .done b' →
      InputStep A s (.consume k) { s with readBuffer := some b' }

theorem reading_of_light (h : Light s.ctl) : s.reading = false := by
  simp only [St.reading, List.any_eq_false]
  exact fun f hf => by simp [isRead_of_light h f hf]

/-- `cleanup_` and `handle_close_event_` -/
theorem closes_aside {err : ℕ} (h : Closing s a err t) (hd : t.cleanupDone = false) :
    Aside s (t.cleanup err) := by
  obtain ⟨sch, ch, w, rel, he, -, -⟩ := St.cleanup_eq err hd
  have hfs := isRead_of_light (light_closeFrames err t)
  have hlog := noInput_cleanupLog (t := t) err
  rw [he]
  cases h with
  | handler hctl hor =>
    refine .pop _ _ hctl ?_ hfs rfl rfl hlog rfl
    rcases hor with rfl | rfl <;> simp
  | failed hctl hor =>
    refine .pop _ ([Ev.sendError err] ++ _) hctl ?_ hfs rfl (List.append_assoc ..) ?_ rfl
    · rcases hor with rfl | ⟨m, n, rfl⟩ <;> simp
    · exact List.forall_mem_append.2 ⟨by simp [Ev.isInput], hlog⟩
  | user hu => exact .push _ _ (notLooping_of_inUserCode hu) hfs rfl rfl hlog rfl
  | task r hctl => exact .push _ _ (notLooping_nil hctl) hfs rfl rfl hlog rfl

theorem passes_aside {err : ℕ} (h : Closing s a err t) : Aside s t := by
  cases h with
  | handler hctl hor =>
    refine .leave hctl ?_ rfl rfl rfl
    rcases hor with rfl | rfl <;> simp
  | failed hctl hor =>
    refine .pop [] [.sendError err] hctl ?_ (by simp) rfl rfl (by simp [Ev.isInput]) rfl
    rcases hor with rfl | ⟨m, n, rfl⟩ <;> simp
  | user | task => exact .same rfl rfl rfl rfl rfl

theorem Closing.not_input {err : ℕ} (h : Closing s a err t) :
    (∀ k, a ≠ .consume k) ∧ a ≠ .dispatch := by
  cases h <;> simp

/-- `start_connect_in_poll_` -/
theorem connects_aside {r : ConnectRet} (h : Connecting s a r t) :
    Aside s (t.startConnectInPoll r) := by
  have hn : NotLooping s.ctl := by
    cases h with
    | user _ _ _ hu => exact notLooping_of_inUserCode hu
    | task _ hctl => exact notLooping_nil hctl
  obtain ⟨hctl, hlog, hbuf⟩ :
      t.ctl = s.ctl ∧ t.log = s.log ∧ t.readBuffer = s.readBuffer := by
    cases h <;> exact ⟨rfl, rfl, rfl⟩
  rcases t.startConnectInPoll_eq r with ⟨err, he⟩ | ⟨k, w, he⟩
  · rw [he, St.connectFailed_eq]
    exact .push _ _ hn (isRead_of_light (light_callFrames _ _)) (congrArg _ hctl)
      (congrArg (· ++ _) hlog) (noInput_callLog _ (by simp)) hbuf
  · rw [he]
    exact .push [] _ hn (by simp) hctl (congrArg (· ++ _) hlog) (noInput_moveLog _) hbuf

/-- `start_` and the callback after it -/
theorem starts_aside {set : Bool} {cb : Callback} {u : St} (h : Starting s a set cb t)
    (hu : t.start A = .ok u) : Aside s
      { u with ctl := St.callFrames set cb ++ u.ctl, log := u.log ++ St.callLog set cb } := by
  have hn : NotLooping s.ctl := by
    cases h with
    | task _ hctl | event _ _ hctl => exact notLooping_nil hctl
    | sync _ huser => exact notLooping_of_inUserCode huser
  have hcb : cb ≠ .message := by cases h <;> simp
  obtain ⟨hctl, hbuf, l, hlog, hl⟩ : t.ctl = s.ctl ∧ t.readBuffer = s.readBuffer ∧
      ∃ l, t.log = s.log ++ l ∧ ∀ e ∈ l, e.isInput = false := by
    cases h with
    | task | sync => exact ⟨rfl, rfl, [], by simp, by simp⟩
    | event => exact ⟨rfl, rfl, _, rfl, noInput_deregisterLog⟩
  have hstart : ∃ l, u.log = s.log ++ l ∧ ∀ e ∈ l, e.isInput = false := by
    rcases St.start_ok hu with ⟨rfl, -⟩ | ⟨-, r, w, wr, -, -, rfl⟩
    · exact ⟨l, hlog, hl⟩
    · refine ⟨l ++ t.moveLog .kConnected, ?_, List.forall_mem_append.2 ⟨hl, noInput_moveLog _⟩⟩
      simp [hlog]
  obtain ⟨l', hlog', hl'⟩ := hstart
  refine ⟨⟨l' ++ St.callLog set cb, by simp [hlog'],
    List.forall_mem_append.2 ⟨hl', noInput_callLog _ hcb⟩⟩, ?_, fun f hf hr => ?_,
    fun b rest hc => absurd hc (hn.notReading b rest)⟩
  · rcases St.start_ok hu with ⟨rfl, -⟩ | ⟨-, r, w, wr, hr, -, rfl⟩
    · exact .inl hbuf
    · rcases St.newBuffer_ok hr with hr | ⟨hnone, hnew⟩
      · exact .inl (hr.symm.trans hbuf)
      · obtain ⟨hwf, hnil⟩ := Buffer.new_sound hnew
        exact .inr ⟨hbuf ▸ hnone, r, rfl, hwf, hnil⟩
  · rw [ctl_start hu, hctl] at hf
    rcases List.mem_append.1 hf with hf | hf
    · simp [isRead_of_light (light_callFrames _ _) f hf] at hr
    · exact hf

/-- `shutdown_in_poll_` -/
theorem shuts_aside (h : Shutting s a t) (hok : t.shutdownInPoll = .ok s') : Aside s s' := by
  have hn : NotLooping s.ctl := by
    cases h with
    | user hu => exact notLooping_of_inUserCode hu
    | task _ hctl => exact notLooping_nil hctl
  obtain ⟨hctl, hlog, hbuf⟩ :
      t.ctl = s.ctl ∧ t.log = s.log ∧ t.readBuffer = s.readBuffer := by
    cases h <;> exact ⟨rfl, rfl, rfl⟩
  rcases St.shutdownInPoll_ok hok with rfl | ⟨-, -, -, ch, w, l, tid, nid, sch, hf, rfl⟩
  · exact .stay hn hctl hlog hbuf
  · refine .push [] ([Ev.moved .kDisconnecting] ++ l) hn (by simp) hctl (by simp [hlog]) ?_ hbuf
    cases hf <;> simp [Ev.isInput]

/-- `send_in_poll_thread_` leaves its loop. -/
theorem loopEnd_aside {m : Msg} {n : ℕ} {fs : List Frame} {l : List Ev} (h : LoopEnd s m n a t)
    (hctl : s'.ctl = fs ++ t.ctl) (hlight : Light fs) (hlog : s'.log = t.log ++ l)
    (hl : ∀ e ∈ l, e.isInput = false) (hbuf : s'.readBuffer = t.readBuffer) : Aside s s' := by
  have hfs := isRead_of_light hlight
  cases h with
  | goal htop => exact .pop fs l htop (by simp) hfs hctl hlog hl hbuf
  | @blocked rest e htop =>
    have hl' : ∀ e' ∈ [Ev.sendError e] ++ l, e'.isInput = false :=
      List.forall_mem_append.2 ⟨by simp [Ev.isInput], hl⟩
    exact .pop fs _ htop (by simp) hfs hctl (hlog.trans (List.append_assoc ..)) hl' hbuf

/-- `send_in_poll_thread_` queues bytes. -/
theorem queues_aside {bs : List UInt8} (h : Queueing s a bs t) (hok : t.enqueue A bs = .ok s') :
    Aside s s' := by
  obtain ⟨fs, l, hctl, hlight, hlog, hl, hbuf⟩ := enqueue_aside hok
  cases h with
  | @behind m u b hs =>
    have hfs := isRead_of_light hlight
    have hl' : ∀ e ∈ [Ev.began m.bytes] ++ l, e.isInput = false :=
      List.forall_mem_append.2 ⟨by simp [Ev.isInput], hl⟩
    have hn := hs.notLooping.2
    cases hs <;> exact .push fs _ hn hfs hctl (hlog.trans (List.append_assoc ..)) hl' hbuf
  | rest hend => exact loopEnd_aside hend hctl hlight hlog hl hbuf

/-- **What a step does to the incoming side.** -/
theorem input_step (h : Moves A s a s') : InputStep A s a s' := by
  cases h with
  | received hctl hs hb hroom hne hle hfill => exact .received hctl hs hb hroom hne hle hfill
  | recvAgain e hctl hs hb hroom hact => exact .again e hctl hs hb hroom hact
  | recvEnd e hctl hs hb hroom hend => exact .ends e hctl hb hroom hend
  | consume hctl hb hr => exact .consume hctl hb hr
  | setBufferSize hr hw =>
    obtain ⟨hwf, hnil⟩ := Buffer.new_sound hr
    exact .resize rfl hwf hnil rfl rfl
  | stay hreq =>
    refine .aside (.same rfl rfl rfl rfl rfl) ?_ ?_
    · rintro k rfl
      cases hreq
    · rintro rfl
      cases hreq
  | refused hcon =>
    refine .aside ⟨⟨[.refused], rfl, by simp [Ev.isInput]⟩, .inl rfl, fun f hf _ => hf,
      fun _ _ _ => .inr ⟨rfl, rfl, rfl, [.refused], rfl, by simp⟩⟩ ?_ ?_
    · rintro k rfl
      cases hcon
    · rintro rfl
      cases hcon
  | setWritable | sockError | setWatermark | setWatermarkCallback | setCloseTimeout | stopTimers
  | extractTimer | fireTimer | postConnect | syncFails =>
    exact .aside (.same rfl rfl rfl rfl rfl) (by simp) (by simp)
  | post hp =>
    cases hp <;> exact .aside (.same rfl rfl rfl rfl rfl) (by simp) (by simp)
  | setCallbacks _ _ hu =>
    exact .aside (.stay (notLooping_of_inUserCode hu) rfl rfl rfl) (by simp) (by simp)
  | destroy sch hctl =>
    exact .aside (.push [] _ (notLooping_nil hctl) (by simp) rfl rfl noInput_closeLog rfl)
      (by simp) (by simp)
  | deliver ev hctl | ignore e hctl =>
    exact .aside (.stay (notLooping_nil hctl) rfl rfl rfl) (by simp) (by simp [St.reading, hctl])
  | @dispatch ev fs e hctl hdel hfs =>
    have enter : ∀ rest, InputStep A s .dispatch
        { s with delivered := none, soError := e, ctl := .readLoop false :: rest } := fun rest =>
      .enter hctl rfl rfl rfl rfl
    have quiet : ∀ fs : List Frame, (∀ f ∈ fs, f.isRead = false) → InputStep A s .dispatch
        { s with delivered := none, soError := e, ctl := fs } := fun fs hq => by
      refine .aside (.push fs [] (notLooping_nil hctl) hq (by simp [hctl]) (by simp) (by simp) rfl)
        (by simp) fun _ => ?_
      simpa [St.reading] using hq
    cases hfs with
    | close | write | read =>
      split_ifs
      · exact enter _
      · exact quiet _ (by simp [Frame.isRead])
  | @connectFails ev w e err hctl =>
    refine .aside (.push _ (s.deregisterLog ++ s.closeLog ++ [Ev.moved .kDisconnected] ++
      St.callLog s.onConnectError (.connectError err)) (notLooping_nil hctl)
      (isRead_of_light (light_callFrames _ _)) (by rw [hctl, List.append_nil])
      (by simp only [List.append_assoc]) ?_ rfl) (by simp) fun _ => ?_
    · simp only [List.forall_mem_append]
      exact ⟨⟨⟨noInput_deregisterLog, noInput_closeLog⟩, by simp [Ev.isInput]⟩,
        noInput_callLog _ (by simp)⟩
    · exact reading_of_light (light_callFrames _ _)
  | connects hc => exact .aside (connects_aside hc) (by cases hc <;> simp) (by cases hc <;> simp)
  | starts hs hu =>
    refine .aside (starts_aside hs hu) (by cases hs <;> simp) fun ha => ?_
    cases hs with
    | task | sync => cases ha
    | event _ _ hctl =>
      refine reading_of_light ?_
      simp only [ctl_start hu, hctl, List.append_nil]
      exact light_callFrames _ _
  | closes hc hd =>
    have hne := hc.not_input
    exact .aside (closes_aside hc hd) hne.1 fun ha => absurd ha hne.2
  | passes hc =>
    have hne := hc.not_input
    exact .aside (passes_aside hc) hne.1 fun ha => absurd ha hne.2
  | shuts hs _ _ _ hok =>
    have haside := shuts_aside hs hok
    cases hs <;> exact .aside haside (by simp) (by simp)
  | dropTask r hctl =>
    exact .aside (.stay (notLooping_nil hctl) rfl rfl rfl) (by simp) (by simp)
  | @leave _ f rest hctl hl =>
    cases hl with
    | ret | message => exact .aside (.leave hctl (by simp) rfl rfl rfl) (by simp) (by simp)
    | read b hs =>
      refine .aside ⟨⟨[], by simp, by simp⟩, .inl rfl, fun f hf _ => ?_, fun b' rest' he => ?_⟩
        (by simp) (by simp)
      · exact hctl ▸ List.mem_cons_of_mem _ hf
      · rw [hctl, List.cons.injEq] at he
        exact .inl ⟨hs, he.2, rfl⟩
  | beginWrite hctl | endLow hctl =>
    exact .aside (.pop [.writeLoop] [] hctl (by simp) (by simp [Frame.isRead]) rfl (by simp)
      (by simp) rfl) (by simp) (by simp)
  | endHigh hctl => exact .aside (.leave hctl (by simp) rfl rfl rfl) (by simp) (by simp)
  | @endClose rest hctl =>
    obtain ⟨rel, he, -⟩ := St.releaseChannel_eq { s with ctl := rest }
    rw [he]
    exact .aside (.leave hctl (by simp) rfl rfl rfl) (by simp) (by simp)
  | drained hctl _ _ hok =>
    obtain ⟨b, -, ⟨-, rfl⟩ | ⟨-, c, c', w, -, -, -, -, -, rfl⟩⟩ := St.writeTail_ok hok
    · exact .aside (.leave hctl (by simp) rfl rfl rfl) (by simp) (by simp)
    · refine .aside (.pop [] _ hctl (by simp) (by simp) rfl rfl ?_ rfl) (by simp) (by simp)
      split_ifs <;> simp [Ev.isInput]
  | @wrote rest b n _ hctl _ _ _ _ hok =>
    obtain ⟨b₁, b', -, -, fs, l, rfl, hf⟩ := St.wrote_ok hok
    refine .aside (.pop fs ([Ev.sent (b.readable.take n)] ++ l) hctl (by simp) ?_ rfl
      (List.append_assoc ..) ?_ rfl) (by simp) (by simp)
    · rcases hf with ⟨rfl, -⟩ | ⟨rfl, -⟩ | ⟨rfl, -⟩ <;> simp [Frame.isRead]
    · rcases hf with ⟨-, rfl⟩ | ⟨-, rfl⟩ | ⟨-, rfl⟩ <;> simp [Ev.isInput]
  | writeBlocked hctl =>
    exact .aside (.pop [] [.sendError _] hctl (by simp) (by simp) rfl rfl (by simp [Ev.isInput])
      rfl) (by simp) (by simp)
  | @interrupted f rest e hctl hf =>
    refine .aside (.of_log (notReading_cons hctl ?_) rfl (by simp [Ev.isInput]) rfl
      fun f hf _ => hf) (by simp) (by simp)
    rcases hf with rfl | ⟨m, n, rfl⟩ <;> simp
  | sentSome hctl =>
    exact .aside (.pop [.sendLoop _ _] [.sent _] hctl (by simp) (by simp [Frame.isRead]) rfl rfl
      (by simp [Ev.isInput]) rfl) (by simp) (by simp)
  | @beginSend _ m t b c hs =>
    have hn := hs.notLooping.2
    have haside : Aside s ((t.note (.began m.bytes)).push (.sendLoop m 0)) := by
      cases hs <;> exact .push [.sendLoop m 0] [.began m.bytes] hn (by simp [Frame.isRead]) rfl rfl
        (by simp [Ev.isInput]) rfl
    cases hs <;> exact .aside haside (by simp) (by simp)
  | @dropSend _ m t hs =>
    have hn := hs.notLooping.2
    have haside : Aside s (t.note (.began m.bytes)) := by
      cases hs <;> exact .push [] [.began m.bytes] hn (by simp) rfl rfl (by simp [Ev.isInput]) rfl
    cases hs <;> exact .aside haside (by simp) (by simp)
  | queues hq hok =>
    have haside := queues_aside hq hok
    cases hq with
    | behind hs => cases hs <;> exact .aside haside (by simp) (by simp)
    | rest hend => cases hend <;> exact .aside haside (by simp) (by simp)
  | sentAll hend _ hok =>
    obtain ⟨fs, l, hctl, hlight, hlog, hl, hbuf⟩ := checkHigh_aside hok
    have haside := loopEnd_aside hend hctl hlight hlog hl hbuf
    cases hend <;> exact .aside haside (by simp) (by simp)

/-! ### The invariant -/

/-- What may be recorded while `handle_read_event_` is in its loop. -/
def Ev.isRound : Ev → Bool
  | .recvEof | .called _ => false
  | .recvError e => handleErrorAction e = .kContinue
  | _ => true

def Looping (l : List Ev) : Prop := ∀ e ∈ l, e.isRound = true

/-- Something was received. -/
def gotData (l : List Ev) : Bool := !(receivedBytes l).isEmpty

/-- Where the last call of `handle_read_event_` stands. -/
inductive Phase (s : St) (x : Reads) : Prop
  | never : x.call = none → s.reading = false → Phase s x
  | loop (rest : List Frame) (l : List Ev) : s.ctl = .readLoop (gotData l) :: rest →
      x.call = some l → Looping l → (gotData l = true → s.state = .kConnected) →
      receivedBytes l <:+ s.unread → x.set = s.onMessage → Phase s x
  /-- It has returned at once. -/
  | left {l : List Ev} : x.call = some l → receivedBytes l = [] → .kDisconnecting ∈ moves s.log →
      s.reading = false → Phase s x
  | after (l l' : List Ev) {r : RecvRet} {ev : Ev} {shouldClose : Bool} {err : ℕ} :
      x.call = some (l ++ ev :: (St.callLog (gotData l && x.set) .message ++ l')) → Looping l →
      RecvEnd r ev shouldClose err → (∀ e ∈ l', e.isInput = false) →
      (gotData l = true → x.set = true → receivedBytes l <:+ x.shown) →
      (∀ b, .readLoop b ∉ s.ctl) → Phase s x

/-- The state of the incoming side. -/
structure Intake (s : St) (x : Reads) : Prop where
  wf : ∀ b ∈ s.readBuffer, b.WF
  eq : x.consumed ++ s.unread = receivedBytes s.log
  waiting : .kConnected ∉ moves s.log → receivedBytes s.log = []
  phase : Phase s x

theorem gotData_append {l l' : List Ev} (h : receivedBytes l' = []) :
    gotData (l ++ l') = gotData l := by
  simp [gotData, h]

theorem receivedBytes_refused {l : List Ev} (h : ∀ e ∈ l, e = .refused) : receivedBytes l = [] :=
  receivedBytes_of_noInput fun e he => by rw [h e he]; rfl

/-- `handle_read_event_` has room in its buffer when it calls `::recv`. -/
theorem makeRoom_done {b b' : Buffer} (h : b.WF) (hok : St.makeRoom A b = .done b') :
    b'.WF ∧ b'.readable = b.readable ∧ 0 < b'.writableSize := by
  unfold St.makeRoom at hok
  split_ifs at hok with h0
  · have hlt : 1024 * 2 < 2 ^ 63 := by norm_num
    rcases Buffer.ensureWritableSize_outcome (A := A) h hlt with
      ⟨b₁, h1, hwf, hr, hle⟩ | ⟨h1 | h1, -⟩
    · rw [h1] at hok
      cases hok
      exact ⟨hwf, hr, by omega⟩
    · rw [h1] at hok
      cases hok
    · rw [h1] at hok
      cases hok
  · cases hok
    exact ⟨h, rfl, by omega⟩

theorem recvLength_pos {n : ℕ} (hwf : ∀ b ∈ s.readBuffer, b.WF) (h : s.recvLength A = some n) :
    0 < n := by
  unfold St.recvLength at h
  split at h
  swap
  · cases h
  split_ifs at h
  obtain ⟨b, hb, h⟩ := Option.bind_eq_some_iff.1 h
  generalize hroom : St.makeRoom A b = r at h
  cases r with
  | throw f b' => cases h
  | done b' =>
    obtain rfl : b'.writableSize = n := Option.some.inj h
    exact (makeRoom_done (hwf b hb) hroom).2.2

theorem Aside.unread_eq (h : Aside s s') : s'.unread = s.unread := by
  rcases h.buffer with hb | ⟨hnone, b, hb, -, hr⟩
  · simp only [St.unread, hb]
  · simp [St.unread, hb, hnone, hr]

theorem Aside.reading_eq (h : Aside s s') (hr : s.reading = false) : s'.reading = false := by
  simp only [St.reading, List.any_eq_false] at hr ⊢
  exact fun f hf hread => hr f (h.ctl f hf hread) hread

theorem reading_of_loop {b : Bool} {rest : List Frame} (h : s.ctl = .readLoop b :: rest) :
    s.reading = true := by
  simp [St.reading, h, Frame.isRead]

/-- The history after a step that leaves the incoming side alone. -/
theorem next_of_noInput {l : List Ev} (hlog : s'.log = s.log ++ l)
    (hl : ∀ e ∈ l, e.isInput = false) (hc : ∀ k, a ≠ .consume k)
    (hd : a = .dispatch → s'.reading = false) :
    x.next s a s' = { x with call := if s.reading then x.call.map (· ++ l) else x.call } := by
  have hnew : s'.log.drop s.log.length = l := by simp [hlog]
  have hshown : .called .message ∉ l := fun hm => by
    have := hl _ hm
    cases this
  have hent : ¬ (a = .dispatch ∧ s'.reading = true) := fun h => by simp [hd h.1] at h
  simp only [Reads.next, hnew, if_neg hent, if_neg hshown]

/-- A step that leaves the incoming side alone. -/
theorem Phase.aside (h : Phase s x) (hI : Inv s) (hstack : Stacked s.ctl) (ha : Aside s s')
    (hc : ∀ k, a ≠ .consume k) (hd : a = .dispatch → s'.reading = false) :
    Phase s' (x.next s a s') := by
  obtain ⟨new, hlog, hnew⟩ := ha.log
  rw [next_of_noInput hlog hnew hc hd]
  cases h with
  | never hcall hr => exact .never (by simp [hr, hcall]) (ha.reading_eq hr)
  | left hcall hnil hm hr =>
    exact .left (by simp [hr, hcall]) hnil (by simp [hlog, hm]) (ha.reading_eq hr)
  | after l l' hcall hloop hend hl' hshown hctl =>
    have hctl' : ∀ b, .readLoop b ∉ s'.ctl := fun b hb => hctl b (ha.ctl _ hb rfl)
    -- until the handler has returned, what happens is recorded with its call
    by_cases hr : s.reading = true
    · refine .after l (l' ++ new) ?_ hloop hend (List.forall_mem_append.2 ⟨hl', hnew⟩) hshown
        hctl'
      simp [hr, hcall]
    · exact .after l l' (by simpa [hr] using hcall) hloop hend hl' hshown hctl'
  | loop rest l hctl hcall hloop hstate hsuf hset =>
    have hr := reading_of_loop hctl
    rcases ha.loop _ _ hctl with ⟨hs, hctl', hlog'⟩ | ⟨hctl', hs, hm, l', hlog', hl'⟩
    · -- the connection is not established any more: nothing has been received
      have hnil : receivedBytes l = [] := by
        by_contra hne
        exact hs (hstate (by simpa [gotData] using hne))
      have hno : new = [] := by simpa [hlog] using hlog'
      have hstarted := Flow.started_of_frame hI hctl rfl
      refine .left (by simp [hr, hcall, hno]) hnil ?_ ?_
      · rw [hlog']
        exact hI.life.disconnecting_of_started hstarted hs
      · rw [hctl] at hstack
        simp only [St.reading, hctl']
        rcases hstack with rfl | ⟨err, rfl⟩ | rfl <;> rfl
    · obtain rfl : new = l' := by simpa [hlog] using hlog'
      have hnil := receivedBytes_refused hl'
      refine .loop rest (l ++ new) ?_ (by simp [hr, hcall]) ?_ ?_ ?_ (hset.trans hm.symm)
      · rw [hctl', hctl, gotData_append hnil]
      · refine List.forall_mem_append.2 ⟨hloop, fun e he => ?_⟩
        rw [hl' e he]
        rfl
      · rw [gotData_append hnil, hs]
        exact hstate
      · rw [receivedBytes_append, hnil, List.append_nil, ha.unread_eq]
        exact hsuf

/-- In the loop the phase is that of the loop. -/
theorem Phase.of_loop {b : Bool} {rest : List Frame} (h : Phase s x)
    (hctl : s.ctl = .readLoop b :: rest) : ∃ l, b = gotData l ∧ x.call = some l ∧ Looping l ∧
      receivedBytes l <:+ s.unread ∧ x.set = s.onMessage := by
  have hr := reading_of_loop hctl
  cases h with
  | never _ hr' | left _ _ _ hr' => simp [hr] at hr'
  | loop rest' l hctl' hcall hloop _ hsuf hset =>
    rw [hctl, List.cons.injEq, Frame.readLoop.injEq] at hctl'
    exact ⟨l, hctl'.1, hcall, hloop, hsuf, hset⟩
  | after _ _ _ _ _ _ _ hno => exact absurd (by simp [hctl]) (hno b)

theorem Intake.received {hasNewData : Bool} {rest : List Frame} {b₀ b b' : Buffer}
    {bs : List UInt8} (h : Intake s x) (hI : Inv s) (hctl : s.ctl = .readLoop hasNewData :: rest)
    (hs : s.state = .kConnected) (hb : s.readBuffer = some b₀)
    (hroom : St.makeRoom A b₀ = .done b) (hne : bs ≠ []) (hle : bs.length ≤ b.writableSize)
    (hfill : b.fill bs = .done b')
    (hs' : s' = { s with
      readBuffer := some b', ctl := .readLoop true :: rest, log := s.log ++ [Ev.received bs] }) :
    Intake s' (x.next s (.recvRet (.data bs)) s') := by
  obtain ⟨l, -, hcall, hloop, hsuf, hset⟩ := h.phase.of_loop hctl
  obtain ⟨hwf, hread, -⟩ := makeRoom_done (h.wf b₀ hb) hroom
  obtain ⟨b₁, h1, hwf', hread'⟩ := hwf.fill hle
  rw [h1] at hfill
  cases hfill
  subst hs'
  have hunread : s.unread = b₀.readable := by simp [St.unread, hb]
  have hnew : receivedBytes [.received bs] = bs := by simp [receivedBytes]
  have hgot : gotData (l ++ [Ev.received bs]) = true := by simp [gotData, hnew, hne]
  refine ⟨by simpa using hwf', ?_, fun hm => ?_,
    .loop rest (l ++ [Ev.received bs]) (by rw [hgot]) ?_ ?_ (fun _ => hs) ?_ ?_⟩
  · rw [receivedBytes_append, hnew, ← h.eq]
    simp [Reads.next, St.unread, hread', hread, hb]
  · obtain ⟨pre, -, hmoves⟩ := hI.life.isUp hs
    simp [moves_append, hmoves] at hm
  · simp [Reads.next, reading_of_loop hctl, hcall]
  · exact List.forall_mem_append.2 ⟨hloop, by simp [Ev.isRound]⟩
  · obtain ⟨pre, hpre⟩ := hsuf
    refine ⟨pre, ?_⟩
    rw [receivedBytes_append, hnew, ← List.append_assoc, hpre, hunread]
    simp [St.unread, hread', hread]
  · simpa [Reads.next] using hset

theorem Intake.again {hasNewData : Bool} {rest : List Frame} {b₀ b : Buffer} {e : ℕ}
    (h : Intake s x) (hctl : s.ctl = .readLoop hasNewData :: rest) (hs : s.state = .kConnected)
    (hb : s.readBuffer = some b₀) (hroom : St.makeRoom A b₀ = .done b)
    (hact : handleErrorAction e = .kContinue)
    (hs' : s' = { s with readBuffer := some b, errno := e, log := s.log ++ [Ev.recvError e] }) :
    Intake s' (x.next s (.recvRet (.error e)) s') := by
  obtain ⟨l, rfl, hcall, hloop, hsuf, hset⟩ := h.phase.of_loop hctl
  obtain ⟨hwf, hread, -⟩ := makeRoom_done (h.wf b₀ hb) hroom
  subst hs'
  have hnew : receivedBytes [.recvError e] = [] := by simp [receivedBytes]
  have hunread : s.unread = b.readable := by simp [St.unread, hb, hread]
  refine ⟨by simpa using hwf, ?_, fun hm => ?_, .loop rest (l ++ [Ev.recvError e]) ?_ ?_ ?_
    (fun _ => hs) ?_ ?_⟩
  · rw [receivedBytes_append, hnew, List.append_nil, ← h.eq]
    simp [Reads.next, St.unread, hread, hb]
  · rw [receivedBytes_append, hnew, List.append_nil]
    exact h.waiting fun hm' => hm (by simp [moves_append, hm'])
  · rw [gotData_append hnew]
    exact hctl
  · simp [Reads.next, reading_of_loop hctl, hcall]
  · exact List.forall_mem_append.2 ⟨hloop, by simp [Ev.isRound, hact]⟩
  · rw [receivedBytes_append, hnew, List.append_nil]
    rwa [hunread] at hsuf
  · simpa [Reads.next] using hset

theorem receivedBytes_callLog (set : Bool) (cb : Callback) :
    receivedBytes (St.callLog set cb) = [] := by
  unfold St.callLog
  split_ifs <;> rfl

theorem RecvEnd.receivedBytes_eq {r : RecvRet} {ev : Ev} {shouldClose : Bool} {err : ℕ}
    (h : RecvEnd r ev shouldClose err) : receivedBytes [ev] = [] := by
  cases h <;> rfl

theorem Intake.ends {hasNewData shouldClose : Bool} {rest : List Frame} {b₀ b : Buffer}
    {r : RecvRet} {ev : Ev} {err e : ℕ} (h : Intake s x) (hstack : Stacked s.ctl)
    (hctl : s.ctl = .readLoop hasNewData :: rest) (hb : s.readBuffer = some b₀)
    (hroom : St.makeRoom A b₀ = .done b) (hend : RecvEnd r ev shouldClose err)
    (hs' : s' = { s with
      readBuffer := some b, errno := e
      ctl := St.callFrames (hasNewData && s.onMessage) .message ++
        .afterMessage shouldClose err :: rest
      log := s.log ++ [ev] ++ St.callLog (hasNewData && s.onMessage) .message }) :
    Intake s' (x.next s (.recvRet r) s') := by
  obtain ⟨l, rfl, hcall, hloop, hsuf, hset⟩ := h.phase.of_loop hctl
  obtain ⟨hwf, hread, -⟩ := makeRoom_done (h.wf b₀ hb) hroom
  have hunread : s'.unread = s.unread := by simp [St.unread, hs', hb, hread]
  have hdrop : s'.log.drop s.log.length = ev :: St.callLog (gotData l && s.onMessage) .message := by
    simp [hs']
  have hrec : receivedBytes s'.log = receivedBytes s.log := by
    simp only [hs', receivedBytes_append, hend.receivedBytes_eq, receivedBytes_callLog,
      List.append_nil]
  refine ⟨by simpa [hs'] using hwf, ?_, fun hm => ?_, .after l [] ?_ hloop hend (by simp) ?_ ?_⟩
  · rw [hrec, hunread, ← h.eq]
    simp [Reads.next]
  · rw [hrec]
    exact h.waiting fun hm' => hm (by simp [hs', moves_append, hm'])
  · simp [Reads.next, reading_of_loop hctl, hcall, hdrop, hset]
  · intro hgot hon
    have hon : s.onMessage = true := by simpa [Reads.next, hset] using hon
    simp only [Reads.next, hdrop, hgot, hon, St.callLog, Bool.and_self, if_true]
    rw [if_pos (by simp), hunread]
    exact hsuf
  · intro b' hb'
    rw [hctl] at hstack
    simp only [hs', St.callFrames] at hb'
    rcases hstack with rfl | ⟨err, rfl⟩ | rfl <;> split_ifs at hb' <;> simp at hb'

theorem Intake.consume {rest : List Frame} {b b' : Buffer} {k : ℕ} (h : Intake s x)
    (hctl : s.ctl = .user .message :: rest) (hb : s.readBuffer = some b)
    (hr : b.beenRead A k = .done b') (hs' : s' = { s with readBuffer := some b' }) :
    Intake s' (x.next s (.consume k) s') := by
  have hle : k ≤ b.readableSize := by
    by_contra hlt
    simp [Buffer.beenRead, Nat.lt_of_not_le hlt] at hr
  obtain ⟨hwf, hread⟩ := Buffer.beenRead_done (h.wf b hb) hle hr
  have hcall : (x.next s (.consume k) s').call = x.call := by
    simp [Reads.next, hs']
  have hkeep : (x.next s (.consume k) s').set = x.set ∧
      (x.next s (.consume k) s').shown = x.shown := by
    simp [Reads.next, hs']
  have hreading : s'.reading = s.reading := by rw [hs']; rfl
  have hlog : s'.log = s.log := by rw [hs']
  refine ⟨by simpa [hs'] using hwf, ?_, fun hm => ?_, ?_⟩
  · rw [hlog, ← h.eq]
    simp [Reads.next, St.unread, hs', hb, hread]
  · rw [hlog] at hm ⊢
    exact h.waiting hm
  · cases h.phase with
    | never h1 h2 => exact .never (hcall.trans h1) (hreading.trans h2)
    | left h1 h2 h3 h4 => exact .left (hcall.trans h1) h2 (hlog ▸ h3) (hreading.trans h4)
    | loop rest' l h1 => simp [hctl] at h1
    | after l l' h1 h2 h3 h4 h5 h6 =>
      refine .after l l' ?_ h2 h3 h4 ?_ ?_
      · rw [hcall, hkeep.1]
        exact h1
      · rw [hkeep.1, hkeep.2]
        exact h5
      · rw [hs']
        exact h6

/-- **One step** keeps the state of the incoming side. -/
theorem Intake.step (h : Intake s x) (hI : Inv s) (hstack : Stacked s.ctl)
    (hG : NoResize (.ok s) a) (hst : InputStep A s a s') : Intake s' (x.next s a s') := by
  cases hst with
  | received hctl hs hb hroom hne hle hfill =>
    exact h.received hI hctl hs hb hroom hne hle hfill rfl
  | again e hctl hs hb hroom hact => exact h.again hctl hs hb hroom hact rfl
  | ends e hctl hb hroom hend => exact h.ends hstack hctl hb hroom hend rfl
  | consume hctl hb hr => exact h.consume hctl hb hr rfl
  | aside ha hc hd =>
    obtain ⟨l, hlog, hl⟩ := ha.log
    have hnew := receivedBytes_of_noInput hl
    refine ⟨?_, ?_, fun hm => ?_, h.phase.aside hI hstack ha hc hd⟩
    · rcases ha.buffer with hb | ⟨-, b, hb, hwf, -⟩
      · rw [hb]
        exact h.wf
      · simpa [hb] using hwf
    · rw [next_of_noInput hlog hl hc hd, hlog, receivedBytes_append, hnew, List.append_nil,
        ha.unread_eq]
      exact h.eq
    · rw [hlog, receivedBytes_append, hnew, List.append_nil]
      exact h.waiting fun hm' => hm (by simp [hlog, hm'])
  | @resize r w _ b hb hwf hnil hctl hlog =>
    -- the buffers of a started connection are not replaced
    have hm : .kConnected ∉ moves s.log := fun hm => by
      have := hG.2
      simp [resizes, mem_moves.1 hm] at this
    have hempty : x.consumed = [] ∧ s.unread = [] := by
      have heq := h.eq
      rw [h.waiting hm] at heq
      exact List.append_eq_nil_iff.1 heq
    have hsame : x.next s (.setBufferSize r w) s' = x := by
      simp [Reads.next, hlog]
    have hreading : s'.reading = s.reading := by simp only [St.reading, hctl]
    rw [hsame]
    refine ⟨by simpa [hb] using hwf, ?_, by rw [hlog]; exact h.waiting, ?_⟩
    · rw [hlog, h.waiting hm]
      simp [St.unread, hb, hnil, hempty.1]
    · cases h.phase with
      | never h1 h2 => exact .never h1 (hreading.trans h2)
      | left h1 h2 h3 h4 => exact .left h1 h2 (hlog ▸ h3) (hreading.trans h4)
      | loop rest l h1 =>
        have := (hI.life.waiting hm).2.quiet _ (by rw [h1]; exact List.mem_cons_self)
        cases this
      | after l l' h1 h2 h3 h4 h5 h6 => exact .after l l' h1 h2 h3 h4 h5 (hctl ▸ h6)
  | @enter _ rest hnil hctl hlog hb hset =>
    have hreading := reading_of_loop hctl
    have hunread : s'.unread = s.unread := by simp only [St.unread, hb]
    refine ⟨by rw [hb]; exact h.wf, ?_, by rw [hlog]; exact h.waiting, .loop rest [] hctl ?_ ?_ ?_
      ?_ ?_⟩
    · rw [hlog, hunread]
      exact h.eq
    · simp [Reads.next, hreading]
    · simp [Looping]
    · simp [gotData, receivedBytes]
    · exact List.nil_suffix
    · simp [Reads.next, hreading, hset]

/-! ### Whole runs -/

/-- The guard of the recorded runs. -/
def ReaderOk (c : Except Crash St × Reads) (a : Act) : Prop := NoResize c.1 a

instance (c : Except Crash St × Reads) (a : Act) : Decidable (ReaderOk c a) :=
  inferInstanceAs (Decidable (NoResize c.1 a))

theorem intake_of_init (h₀ : Init s₀) : Intake s₀ .init := by
  cases h₀ with
  | server | client =>
    exact ⟨by simp [accepted, new], rfl, fun _ => rfl, .never rfl rfl⟩

theorem intake_of_reach (h₀ : Init s₀)
    (h : (reader A K).ReachIf ReaderOk (.ok s₀, .init) (.ok s, x)) : Intake s x := by
  have key : ∀ c : Except Crash St × Reads, (reader A K).ReachIf ReaderOk (.ok s₀, .init) c →
      ∀ s, c.1 = .ok s → Intake s c.2 := fun c hc => by
    induction hc with
    | refl =>
      intro s hs
      cases hs
      exact intake_of_init h₀
    | @tail c c' a hr hG hst ih =>
      intro s' hs'
      obtain ⟨hstep, hnext⟩ := Machine.history_step hst
      obtain ⟨c₁, x⟩ := c
      cases c₁ with
      | error e => cases hstep
      | ok s =>
        have hrun : (machine A K).ReachIf NoResize (.ok s₀) (.ok s) :=
          Machine.ReachIf.of_history (G := NoResize) hr
        have hI := inv_of_reach h₀ (hrun.mono fun _ _ hG => hG.1)
        have hstack := stacked_of_reach h₀ hrun.reach
        rw [hs'] at hstep hnext
        simp only [readsNext] at hnext
        rw [hnext]
        exact (ih s rfl).step hI hstack.stacked hG (input_step (step_cases (machine_step hstep)))
  exact key _ h s rfl

/-- What is known of a call that has returned. -/
structure CallDone (s : St) (x : Reads) (l : List Ev) : Prop where
  /-- What it has received is handed to the message callback, once and before any close callback. -/
  shown : receivedBytes l ≠ [] → x.set = true → messageCount l = 1 ∧
    receivedBytes l <:+ x.shown ∧
    ∀ pre post err, l = pre ++ .called (.close err) :: post → .called .message ∈ pre
  /-- It has received until there was no more. -/
  drained : s.state = .kConnected → .recvEof ∉ l →
    (∀ e, .recvError e ∈ l → handleErrorAction e ≠ .kClose) →
    (recvs l).getLast? = some (.recvError EAGAIN)

theorem eagain_of_kBreak {e : ℕ} (h : handleErrorAction e = .kBreak) : e = EAGAIN := by
  unfold handleErrorAction at h
  split_ifs at h with he
  exact he

theorem messageCount_of_looping {l : List Ev} (h : Looping l) : messageCount l = 0 := by
  rw [messageCount, List.count_eq_zero]
  intro hm
  have := h _ hm
  cases this

theorem recvs_of_noInput {l : List Ev} (h : ∀ e ∈ l, e.isInput = false) : recvs l = [] := by
  rw [recvs, List.filter_eq_nil_iff]
  intro e he hr
  have := h e he
  cases e with
  | received | recvEof | recvError => cases this
  | _ => cases hr

/-- What comes before an event that is not in the first part contains the first part. -/
theorem mem_of_append_eq {α : Type} (l l' : List α) {pre post : List α} {a b : α}
    (h : l ++ l' = pre ++ b :: post) (hb : b ∉ l) (ha : a ∈ l) : a ∈ pre := by
  rcases List.append_eq_append_iff.1 h with ⟨m, rfl, -⟩ | ⟨m, rfl, hm⟩
  · exact List.mem_append_left m ha
  · cases m with
    | nil => simpa using ha
    | cons c m =>
      rw [List.cons_append, List.cons.injEq] at hm
      exact absurd (by simp [hm.1]) hb

theorem Phase.callDone {l : List Ev} (h : Phase s x) (hI : Inv s) (hcall : x.call = some l)
    (hr : s.reading = false) : CallDone s x l := by
  cases h with
  | never hcall' => simp [hcall'] at hcall
  | loop rest l' hctl => simp [reading_of_loop hctl] at hr
  | left hcall' hnil hm =>
    rw [hcall, Option.some.injEq] at hcall'
    subst hcall'
    exact ⟨fun hne => absurd hnil hne, fun hs => absurd hm (hI.life.not_disconnecting hs)⟩
  | @after l₁ l₂ r ev shouldClose err hcall' hloop hend hl₂ hshown =>
    rw [hcall, Option.some.injEq] at hcall'
    subst hcall'
    have hgot : receivedBytes (l₁ ++ ev :: (St.callLog (gotData l₁ && x.set) .message ++ l₂)) =
        receivedBytes l₁ := by
      rw [receivedBytes_append, ← List.singleton_append, receivedBytes_append,
        receivedBytes_append, hend.receivedBytes_eq, receivedBytes_callLog,
        receivedBytes_of_noInput hl₂]
      simp
    constructor
    · intro hne hset
      rw [hgot] at hne ⊢
      have hdata : gotData l₁ = true := by simpa [gotData] using hne
      have hev : ∀ cb, ev ≠ .called cb := by
        rintro cb rfl
        cases hend
      -- the callback was called right after the loop had ended, and neither before nor later
      have hlog : St.callLog (gotData l₁ && x.set) .message = [.called .message] := by
        simp [St.callLog, hdata, hset]
      have hno : ∀ cb, .called cb ∉ l₁ := fun cb hm => by
        have := hloop _ hm
        cases this
      rw [hlog]
      refine ⟨?_, hshown hdata hset, fun pre post err hsplit => ?_⟩
      · have h1 : (l₁.count (.called .message)) = 0 := messageCount_of_looping hloop
        have h2 : (l₂.count (.called .message)) = 0 := by
          rw [List.count_eq_zero]
          intro hm
          have := hl₂ _ hm
          cases this
        simp [messageCount, h1, h2, hev]
      · have hsplit : (l₁ ++ [ev, .called .message]) ++ l₂ =
            pre ++ .called (.close err) :: post := by
          rw [← hsplit]
          simp
        refine mem_of_append_eq _ _ hsplit ?_ (by simp)
        simp only [List.mem_append, List.mem_cons, List.not_mem_nil, or_false, not_or]
        exact ⟨hno _, fun h => hev _ h.symm, by simp⟩
    · intro _ heof hfatal
      cases hend with
      | eof => exact absurd (by simp) heof
      | failed _ hact => exact absurd hact (hfatal err (by simp))
      | again _ hact =>
        obtain rfl := eagain_of_kBreak hact
        have h2 := recvs_of_noInput hl₂
        have h3 : recvs (St.callLog (gotData l₁ && x.set) .message) = [] := by
          unfold St.callLog
          split_ifs <;> rfl
        simp only [recvs] at h2 h3
        simp [recvs, List.filter_append, List.filter_cons, Ev.isRecv, h2, h3]

/-- **Incoming stream integrity.**  In every run in which the buffers of the started connection are
not replaced, with any results of `::recv` and any callbacks: every `::recv` is called with a
positive length; what the message callbacks have consumed, followed by what is readable, is what
was received; and a call of `handle_read_event_` that has returned has handed what it has received
to the message callback, if there is one, once and before any close callback, and unless it has
seen the end of the stream or a fatal error it has received until `EAGAIN` or has left the
connection in another state than `kConnected`. -/
theorem incoming_stream (h₀ : Init s₀)
    (h : (reader A K).ReachIf ReaderOk (.ok s₀, .init) (.ok s, x)) :
    (∀ n, s.recvLength A = some n → 0 < n) ∧
      x.consumed ++ s.unread = receivedBytes s.log ∧
      ∀ l, x.call = some l → s.reading = false → CallDone s x l := by
  have hin := intake_of_reach h₀ h
  have hI : Inv s := by
    have hrun : (machine A K).ReachIf NoResize (.ok s₀) (.ok s) :=
      Machine.ReachIf.of_history (G := NoResize) h
    exact inv_of_reach h₀ (hrun.mono fun _ _ hG => hG.1)
  exact ⟨fun n hn => recvLength_pos hin.wf hn, hin.eq,
    fun l hl hr => hin.phase.callDone hI hl hr⟩

/-- An accepted connection with a message callback; three bytes arrive in two pieces, and the
callback consumes two of them. -/
def readTwice : List Act :=
  [.runTask .badAddress, .setCallbacks true false, .deliver ⟨true, false, false, false⟩, .dispatch,
    .recvRet (.data [1, 2]), .recvRet (.error EINTR), .recvRet (.data [3]),
    .recvRet (.error EAGAIN), .consume 2, .ret, .tau]

theorem incoming_stream_readTwice : ∃ (s : St) (x : Reads), s.reading = false ∧
    receivedBytes s.log = [1, 2, 3] ∧ x.consumed = [1, 2] ∧
    x.consumed ++ s.unread = receivedBytes s.log ∧ ∀ l, x.call = some l → CallDone s x l := by
  obtain ⟨s, hs, hp⟩ := reachIf_of_endsIn (A := .zeroed) (K := .linux) (G := NoResize)
    (accepted 5 false) readTwice
    (p := fun s => s.reading = false ∧ receivedBytes s.log = [1, 2, 3] ∧ s.unread = [3])
    (by decide +kernel) (by decide +kernel)
  obtain ⟨h1, h2, h3⟩ := of_decide_eq_true hp
  obtain ⟨x, hx⟩ := hs.recorded (f := readsNext) Reads.init
  obtain ⟨-, heq, hdone⟩ := incoming_stream (.server 5 false) hx
  refine ⟨s, x, h1, h2, ?_, heq, fun l hl => hdone l hl h1⟩
  rw [h2, h3] at heq
  exact List.append_cancel_right (heq.trans (by simp))

end

end Conn

end CxpNet
