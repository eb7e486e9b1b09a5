import CxpNet.Conn.Reason

/-!
# The receiving side of the socket

A connection together with what the network brings to its socket: bytes arrive, and the peer ends
its stream or the connection is reset.  The poller is edge-triggered (`EPOLLET`): it raises a read
notification when something arrives while the channel asks for read events, and when `epoll_ctl`
finds the socket readable, and it takes the notification back when it reports the events.

* `Conn.no_read_stall` : whenever the poll's thread has left the code of an established connection
  whose socket is readable, a read notification is pending or reported, and the same holds of the
  hang-up of a connection that is not closed; and if nothing is pending or reported, everything
  that has arrived was received.

The reason is that the read handler receives until `EAGAIN`, and that it is entered by every event
set with `kRead`; `Heard` says where the notification is in the meantime.
-/

namespace CxpNet

namespace Conn

/-! ### The socket -/

/-- How the incoming stream ends. -/
inductive Ending where
  | none
  /-- The peer has closed its sending side. -/
  | fin
  /-- The connection is reset. -/
  | reset
  deriving DecidableEq, Repr

/-- The receiving side of the socket. -/
structure Rx where
  /-- History: what the network has brought. -/
  arrived : List UInt8
  /-- The receive queue. -/
  queue : List UInt8
  ending : Ending
  /-- A read notification is pending in the poller. -/
  readReady : Bool
  deriving DecidableEq, Repr

/-- The channel is registered with read interest. -/
def St.listening (s : St) : Bool :=
  match s.channel with
  | none => false
  | some c => c.registered && c.reading

namespace Rx

def init : Rx := ⟨[], [], .none, false⟩

/-- `EPOLLRDHUP` -/
def hup (r : Rx) : Bool := r.ending ≠ .none

/-- `EPOLLIN` -/
def readable (r : Rx) : Bool := !r.queue.isEmpty || r.hup

/-- What the kernel may answer: `::recv` takes bytes from the head of the queue, reports the end of
the stream when the queue is empty, and reports `EAGAIN` only when there is nothing; `epoll_wait`
reports what is the case. -/
def allows (r : Rx) (s : St) : Act → Bool
  | .recvRet (.data bs) => bs.isPrefixOf r.queue
  | .recvRet .eof => r.queue.isEmpty && r.ending = .fin
  | .recvRet (.error e) => e ≠ EAGAIN || !r.readable
  | .deliver ev => !s.listening || (!r.readable || ev.read) && (!r.hup || ev.hup)
  | _ => true

/-- The receiving side after the step `a` of the connection from `s` to `s'`. -/
def next (r : Rx) (s : St) (a : Act) (s' : St) : Rx :=
  { r with
    queue := match a with
      | .recvRet (.data bs) => r.queue.drop bs.length
      | _ => r.queue
    readReady := match a with
      | .deliver _ => false
      | _ =>
        if s'.channel = s.channel then r.readReady
        else s'.listening && (r.readReady || r.readable) }

/-- Bytes arrive. -/
def arrive (r : Rx) (s : St) (bs : List UInt8) : Rx :=
  { r with
    arrived := r.arrived ++ bs, queue := r.queue ++ bs, readReady := r.readReady || s.listening }

/-- The stream ends. -/
def finish (r : Rx) (s : St) (e : Ending) : Rx :=
  { r with ending := e, readReady := r.readReady || s.listening }

end Rx

/-- A step of the connection, or of the network. -/
inductive WireAct where
  | conn (a : Act)
  | arrive (bs : List UInt8)
  | finish (e : Ending)
  deriving DecidableEq

/-- A connection and its receiving side. -/
def wired (A : Allocator) (K : Kernel) : Machine (Except Crash St × Rx) WireAct where
  step x w :=
    match x.1 with
    | .error _ => none
    | .ok s =>
      match w with
      | .conn a =>
        if x.2.allows s a then
          ((machine A K).step (.ok s) a).map fun c =>
            match c with
            | .ok s' => (.ok s', x.2.next s a s')
            | .error e => (.error e, x.2)
        else none
      | .arrive bs =>
        if s.handle ≠ none ∧ x.2.ending = .none then some (.ok s, x.2.arrive s bs) else none
      | .finish e =>
        if s.handle ≠ none ∧ x.2.ending = .none ∧ e ≠ .none then some (.ok s, x.2.finish s e)
        else none

/-- The steps of the connection meet `G`. -/
def OnConn (G : Except Crash St → Act → Prop) (x : Except Crash St × Rx) (w : WireAct) : Prop :=
  match w with
  | .conn a => G x.1 a
  | _ => True

instance (G : Except Crash St → Act → Prop) [∀ c a, Decidable (G c a)] :
    ∀ x w, Decidable (OnConn G x w)
  | x, .conn a => inferInstanceAs (Decidable (G x.1 a))
  | _, .arrive _ | _, .finish _ => .isTrue trivial

section

variable {A : Allocator} {K : Kernel} {G : Except Crash St → Act → Prop} {s₀ s s' : St} {a : Act}
  {r r' : Rx} {w : WireAct}

/-- A step of the connection with its receiving side. -/
inductive WireStep (A : Allocator) (K : Kernel) (s : St) (r : Rx) : WireAct → St → Rx → Prop
  | conn {a : Act} {s' : St} : r.allows s a = true → (machine A K).step (.ok s) a = some (.ok s') →
      WireStep A K s r (.conn a) s' (r.next s a s')
  | arrive (bs : List UInt8) : s.handle ≠ none → r.ending = .none →
      WireStep A K s r (.arrive bs) s (r.arrive s bs)
  | finish (e : Ending) : s.handle ≠ none → r.ending = .none → e ≠ .none →
      WireStep A K s r (.finish e) s (r.finish s e)

theorem wired_step {x : Except Crash St × Rx} (h : (wired A K).step x w = some (.ok s', r')) :
    ∃ s, x.1 = .ok s ∧ WireStep A K s x.2 w s' r' := by
  obtain ⟨c, r⟩ := x
  cases c with
  | error e => cases h
  | ok s =>
    refine ⟨s, rfl, ?_⟩
    cases w with
    | conn a =>
      simp only [wired] at h
      split_ifs at h with hall
      obtain ⟨c, hc, he⟩ := Option.map_eq_some_iff.1 h
      cases c with
      | error e => cases he
      | ok t =>
        cases he
        exact .conn hall hc
    | arrive bs =>
      simp only [wired] at h
      split_ifs at h with hc
      cases h
      exact .arrive bs hc.1 hc.2
    | finish e =>
      simp only [wired] at h
      split_ifs at h with hc
      cases h
      exact .finish e hc.1 hc.2.1 hc.2.2

/-- A run with the receiving side is a run of the connection. -/
theorem reach_of_wired (h : (wired A K).ReachIf (OnConn G) (.ok s₀, .init) (.ok s, r)) :
    (machine A K).ReachIf G (.ok s₀) (.ok s) := by
  have key : ∀ x : Except Crash St × Rx, (wired A K).ReachIf (OnConn G) (.ok s₀, .init) x →
      ∀ s, x.1 = .ok s → (machine A K).ReachIf G (.ok s₀) (.ok s) := fun x hx => by
    induction hx with
    | refl =>
      intro s hs
      cases hs
      exact .refl
    | @tail x y w hr hG hst ih =>
      intro s' hs'
      obtain ⟨c, r'⟩ := y
      cases hs'
      obtain ⟨s, hs, hw⟩ := wired_step hst
      cases hw with
      | @conn a _ _ hc =>
        have hG' : G (.ok s) a := by simpa only [OnConn, hs] using hG
        exact .tail (ih s hs) hG' hc
      | arrive | finish => exact ih _ hs
  exact key _ h s rfl

/-- **The invariant rule** for connections with their receiving side. -/
theorem wired_invariant {I : St → Rx → Prop}
    (h : (wired A K).ReachIf (OnConn G) (.ok s₀, .init) (.ok s, r)) (h₀ : I s₀ .init)
    (hstep : ∀ s r w s' r', (machine A K).ReachIf G (.ok s₀) (.ok s) → I s r →
      OnConn G (.ok s, r) w → WireStep A K s r w s' r' → I s' r') : I s r := by
  have key : ∀ x : Except Crash St × Rx, (wired A K).ReachIf (OnConn G) (.ok s₀, .init) x →
      ∀ s, x.1 = .ok s → I s x.2 := fun x hx => by
    induction hx with
    | refl =>
      intro s hs
      cases hs
      exact h₀
    | @tail x y w hr hG hst ih =>
      intro s' hs'
      obtain ⟨c, r'⟩ := y
      cases hs'
      obtain ⟨s, hs, hw⟩ := wired_step hst
      obtain ⟨c, r⟩ := x
      cases hs
      exact hstep s r w s' r' (reach_of_wired hr) (ih s rfl) hG hw
  exact key _ h s rfl

/-! ### Where the notification is -/

/-- A handler in this frame will receive until there is nothing more, or close the connection. -/
def Frame.hears : Frame → Bool
  | .readLoop _ => true
  | f => f.isCloser

/-- Where the news of what has arrived is, and of the end of the stream. -/
structure Heard (s : St) (r : Rx) : Prop where
  read : s.state = .kConnected → r.readable = true →
    r.readReady = true ∨ (∃ x ∈ s.delivered, x.2.read = true) ∨ ∃ f ∈ s.ctl, f.hears = true
  hup : .kConnected ∈ moves s.log → s.handle ≠ none → r.hup = true →
    r.readReady = true ∨ (∃ x ∈ s.delivered, x.2.hup = true) ∨
      ∃ err, .closePart err ∈ s.ctl

theorem listening_of_isOpen (h : IsOpen s.channel) : s.listening = true := by
  obtain ⟨c, hc, -, hread, hreg⟩ := h
  simp [St.listening, hc, hread, hreg]

/-- Only a report and a dispatch touch what was reported. -/
theorem delivered_step (h : Moves A s a s') :
    s'.delivered = s.delivered ∨ a = .dispatch ∨ ∃ ev, a = .deliver ev := by
  cases h with
  | stay | refused | setWritable | sockError | setCallbacks | setWatermark
  | setWatermarkCallback | setCloseTimeout | setBufferSize | post | stopTimers | extractTimer
  | fireTimer | destroy | postConnect | syncFails | dropTask | interrupted | leave | beginWrite
  | endLow | endHigh | writeBlocked | sentSome | received | recvAgain | recvEnd | consume =>
    exact .inl rfl
  | deliver ev => exact .inr (.inr ⟨ev, rfl⟩)
  | ignore | dispatch | connectFails => exact .inr (.inl rfl)
  | @connects _ k t hc =>
    have ht : t.delivered = s.delivered := by cases hc <;> rfl
    rcases t.startConnectInPoll_eq k with ⟨err, he⟩ | ⟨h, w, he⟩ <;> rw [he]
    · rw [St.connectFailed_eq]
      exact .inl ht
    · exact .inl ht
  | starts hs hu =>
    cases hs with
    | event => exact .inr (.inl rfl)
    | task | sync =>
      rcases St.start_ok hu with ⟨rfl, -⟩ | ⟨-, k, w, wr, -, -, rfl⟩ <;> exact .inl rfl
  | @closes _ err t hc hd =>
    have ht : t.delivered = s.delivered := by cases hc <;> rfl
    obtain ⟨sch, ch, w, rel, he, -⟩ := St.cleanup_eq err hd
    rw [he]
    exact .inl ht
  | passes hc => cases hc <;> exact .inl rfl
  | shuts hs _ _ _ hok =>
    rcases St.shutdownInPoll_ok hok with rfl | ⟨-, -, -, ch, w, l, tid, nid, sch, -, rfl⟩ <;>
      cases hs <;> exact .inl rfl
  | @endClose rest hctl =>
    obtain ⟨rel, he, -⟩ := St.releaseChannel_eq { s with ctl := rest }
    rw [he]
    exact .inl rfl
  | drained hctl _ _ hok =>
    obtain ⟨b, -, ⟨-, rfl⟩ | ⟨-, c, c', w, -, -, -, -, -, rfl⟩⟩ := St.writeTail_ok hok <;>
      exact .inl rfl
  | wrote hctl _ _ _ _ hok =>
    obtain ⟨b, b', -, -, fs, l, rfl, -⟩ := St.wrote_ok hok
    exact .inl rfl
  | beginSend hs | dropSend hs => cases hs <;> exact .inl rfl
  | queues hq hok =>
    obtain ⟨b, b', u, -, -, hu, hok⟩ := St.enqueue_ok hok
    obtain ⟨c, c', w, -, rfl, -⟩ := St.addWriteEvent_ok hu
    rcases St.checkHigh_ok hok with rfl | rfl | rfl <;>
      rcases hq with ⟨⟨⟩ | ⟨⟩⟩ | ⟨⟨⟩ | ⟨⟩⟩ <;> exact .inl rfl
  | sentAll hend _ hok =>
    rcases St.checkHigh_ok hok with rfl | rfl | rfl <;> cases hend <;> exact .inl rfl

/-- A connection becomes established with a new channel. -/
theorem connected_of_same_channel (hI : Inv s) (hI' : Inv s') (h : Moves A s a s')
    (hch : s'.channel = s.channel) (hs' : s'.state = .kConnected) : s.state = .kConnected := by
  by_contra hs
  obtain ⟨l, hl⟩ := log_step h
  obtain ⟨pre, ho, -⟩ := hI'.life.isUp hs'
  by_cases hm : .kConnected ∈ moves s.log
  · have hdis := hI.life.disconnecting_of_started hm hs
    refine hI'.life.not_disconnecting hs' ?_
    rw [hl, moves_append]
    exact List.mem_append_left _ hdis
  · obtain ⟨c, hc, hrole, -⟩ := ho.channel
    rw [hch] at hc
    have := (hI.life.waiting hm).2.channel c hc
    simp [hrole] at this

/-- Likewise for the first move to `kConnected`. -/
theorem started_of_same_channel (hI : Inv s) (hI' : Inv s')
    (hch : s'.channel = s.channel) (hm : .kConnected ∈ moves s'.log) (hh : s'.handle ≠ none) :
    .kConnected ∈ moves s.log := by
  by_contra hno
  obtain ⟨pre, ho⟩ := hI'.life.isOpen hm hh
  obtain ⟨c, hc, hrole, -⟩ := ho.channel
  rw [hch] at hc
  have := (hI.life.waiting hno).2.channel c hc
  simp [hrole] at this

/-- `cleanup_` is not carried out on a connection that stays open. -/
theorem not_closes {err : ℕ} {t : St} (hd : t.cleanupDone = false) :
    (t.cleanup err).state = .kDisconnected ∧ (t.cleanup err).handle = none := by
  obtain ⟨sch, ch, w, rel, he, -⟩ := St.cleanup_eq err hd
  rw [he]
  exact ⟨rfl, rfl⟩

/-- A frame that will close the connection stays until it has. -/
theorem closer_step {f : Frame} (hI : Inv s) (h : Moves A s a s')
    (hm : .kConnected ∈ moves s.log) (hh : s'.handle ≠ none) (hf : f ∈ s.ctl)
    (hc : f.isCloser = true) : f ∈ s'.ctl := by
  cases close_step h (List.ne_nil_of_mem hf) with
  | closes _ hd => exact absurd (not_closes hd).2 hh
  | passes hcl hor =>
    have hsame := hcl.same
    have hhandle : s'.handle = s.handle := by cases hcl <;> rfl
    rw [hhandle] at hh
    obtain ⟨pre, ho⟩ := hI.life.isOpen hm hh
    rcases hor with hs | hd
    · exact absurd ((hI.life.started hm).1 (hsame.1 ▸ hs)) hh
    · rw [hsame.2.1, ho.cleanupDone] at hd
      cases hd
  | proceeds hp => exact hp.kept f hf hc

/-- Only the innermost call can be in a loop. -/
theorem WellStacked.eq_of_loop {ctl : List Frame} {f : Frame} (h : WellStacked ctl) (hf : f ∈ ctl)
    (hl : f.isLoop = true) : ∃ rest, ctl = f :: rest := by
  cases ctl with
  | nil => cases hf
  | cons g rest =>
    rcases List.mem_cons.1 hf with rfl | hf
    · exact ⟨rest, rfl⟩
    · simp [h.noLoop f hf] at hl

/-- A started connection that has lost its handle has moved to `kDisconnected`. -/
theorem handle_none_iff (hI : Inv s) (hm : .kConnected ∈ moves s.log) :
    s.handle = none ↔ .kDisconnected ∈ moves s.log := by
  constructor
  · intro hnone
    cases hI.life with
    | fresh hp | queued _ _ hp => simp [hp.moves] at hm
    | connecting _ _ _ _ _ _ _ _ _ _ h9 => simp [h9] at hm
    | dead _ _ _ _ _ h5 => exact absurd hm h5
    | up _ ho | closing _ ho => exact absurd hnone ho.handle
    | down _ _ _ _ _ _ _ _ h8 => simp [h8]
  · intro hdis
    by_contra hh
    obtain ⟨pre, ho⟩ := hI.life.isOpen hm hh
    cases hI.life with
    | fresh hp | queued _ _ hp => simp [hp.moves] at hm
    | connecting _ _ _ _ _ _ _ _ _ _ h9 => simp [h9] at hm
    | dead _ _ _ _ _ h5 => exact absurd hm h5
    | up pre ho _ _ h3 =>
      rw [h3] at hdis
      rcases ho.pre with rfl | rfl <;> simp at hdis
    | closing pre ho _ h2 =>
      rw [h2] at hdis
      rcases ho.pre with rfl | rfl <;> simp at hdis
    | down _ _ _ h3 => exact hh h3

/-- The handle of a started connection is not given back. -/
theorem handle_of_step (hI : Inv s) (hI' : Inv s') (h : Moves A s a s')
    (hm : .kConnected ∈ moves s.log) (hh : s'.handle ≠ none) : s.handle ≠ none := by
  obtain ⟨l, hl⟩ := log_step h
  have mono : ∀ st, st ∈ moves s.log → st ∈ moves s'.log := fun st hst => by
    rw [hl, moves_append]
    exact List.mem_append_left _ hst
  intro hnone
  exact hh ((handle_none_iff hI' (mono _ hm)).2 (mono _ ((handle_none_iff hI hm).1 hnone)))

/-- The loop of the read handler goes on until there is nothing to receive, or the connection is to
be closed. -/
theorem readLoop_step {b : Bool} {rest : List Frame} (hall : r.allows s a = true)
    (h : Moves A s a s') (hctl : s.ctl = .readLoop b :: rest) (hs : s.state = .kConnected)
    (hread : r.readable = true) : ∃ f ∈ s'.ctl, f.hears = true := by
  have stays : s'.ctl = s.ctl → ∃ f ∈ s'.ctl, f.hears = true := fun he =>
    ⟨.readLoop b, by simp [he, hctl], rfl⟩
  cases input_step h with
  | aside ha =>
    rcases ha.loop b rest hctl with ⟨hne, -⟩ | ⟨he, -⟩
    · exact absurd hs hne
    · exact stays he
  | resize _ _ _ he => exact stays he
  | enter hnil => simp [hctl] at hnil
  | received => exact ⟨.readLoop true, by simp, rfl⟩
  | again => exact stays rfl
  | ends e _ _ _ hend =>
    cases hend with
    | eof | failed =>
      exact ⟨.afterMessage true _, List.mem_append_right _ (List.mem_cons_self ..), rfl⟩
    | again e hact => simp [Rx.allows, eagain_of_kBreak hact, hread] at hall
  | consume => exact stays rfl

theorem readable_of_next (h : (r.next s a s').readable = true) : r.readable = true := by
  simp only [Rx.readable, Rx.next, Rx.hup, Bool.or_eq_true, Bool.not_eq_true'] at h ⊢
  refine h.imp_left fun hq => ?_
  split at hq
  · rw [List.isEmpty_eq_false_iff] at hq ⊢
    rintro hnil
    simp [hnil] at hq
  · exact hq

/-- A report of the poller. -/
theorem deliver_step {ev : Events} (h : Moves A s (.deliver ev) s') :
    s'.state = s.state ∧ s'.channel = s.channel ∧ s'.handle = s.handle ∧ s'.log = s.log ∧
      ∃ role, s'.delivered = some (role, ev) := by
  cases h with
  | stay hreq => cases hreq
  | refused hcon => cases hcon
  | post hp => cases hp
  | deliver => exact ⟨rfl, rfl, rfl, rfl, _, rfl⟩
  | connects hc => cases hc
  | starts hs => cases hs
  | closes hc | passes hc => cases hc
  | shuts hs => cases hs
  | leave _ hl => cases hl
  | beginSend hs | dropSend hs => cases hs
  | queues hq =>
    cases hq with
    | behind hs => cases hs
    | rest hend => cases hend
  | sentAll hend => cases hend

theorem Heard.deliver {ev : Events} (hI : Inv s) (hall : r.allows s (.deliver ev) = true)
    (hst : Moves A s (.deliver ev) s') : Heard s' (r.next s (.deliver ev) s') := by
  obtain ⟨hstate, -, hhandle, hlog, role, hdel⟩ := deliver_step hst
  simp only [Rx.allows, Bool.or_eq_true, Bool.and_eq_true, Bool.not_eq_true'] at hall
  refine ⟨fun hs hread => .inr (.inl ⟨_, hdel, ?_⟩), fun hm hh hhup => .inr (.inl ⟨_, hdel, ?_⟩)⟩
  · obtain ⟨pre, ho, -⟩ := hI.life.isUp (hstate ▸ hs)
    simp only [listening_of_isOpen ho.channel, readable_of_next hread, Bool.true_eq_false,
      false_or] at hall
    exact hall.1
  · obtain ⟨pre, ho⟩ := hI.life.isOpen (hlog ▸ hm) (hhandle ▸ hh)
    have hhup : r.hup = true := hhup
    simp only [listening_of_isOpen ho.channel, hhup, Bool.true_eq_false, false_or] at hall
    exact hall.2

/-- With a new channel the kernel looks at the socket again. -/
theorem Heard.rearm (hI' : Inv s') (hne : ∀ ev, a ≠ .deliver ev)
    (hch : s'.channel ≠ s.channel) : Heard s' (r.next s a s') := by
  have hready : (r.next s a s').readReady = (s'.listening && (r.readReady || r.readable)) := by
    cases a with
    | deliver ev => exact absurd rfl (hne ev)
    | _ => simp [Rx.next, hch]
  refine ⟨fun hs hread => .inl ?_, fun hm hh hhup => .inl ?_⟩
  · obtain ⟨pre, ho, -⟩ := hI'.life.isUp hs
    rw [hready, listening_of_isOpen ho.channel, readable_of_next hread]
    simp
  · obtain ⟨pre, ho⟩ := hI'.life.isOpen hm hh
    have hhup : r.hup = true := hhup
    rw [hready, listening_of_isOpen ho.channel]
    simp [Rx.readable, hhup]

/-- A dispatch of the events of an established connection enters the handlers for them. -/
theorem heard_dispatch {x : Role × Events} (hd : Delivers .established s.delivered)
    (h : s.step A K .dispatch = some (.ok s')) (hx : x ∈ s.delivered) :
    (x.2.read = true → ∃ f ∈ s'.ctl, f.hears = true) ∧
      (x.2.hup = true → ∃ err, .closePart err ∈ s'.ctl) := by
  obtain ⟨role, ev⟩ := x
  obtain rfl : role = .established := hd _ hx
  simp only [St.step, St.otherStep] at h
  split at h
  swap
  · cases h
  rename_i hctl hdel
  rw [hdel] at hx
  cases hx
  have hok := Option.some.inj h
  constructor
  · intro hread
    rcases St.handleEvent_ok hok with ⟨he, -⟩ | ⟨he, -⟩ | ⟨-, e, fs, hfs, rfl⟩
    · cases he
    · cases he
    · cases hfs with
      | close | write | read =>
        exact ⟨.readLoop false, by simp [show ev.read = true from hread], rfl⟩
  · intro hhup
    have hhup : ev.hup = true := hhup
    simp only [St.handleEvent, hhup, Bool.or_true, if_true] at hok
    cases hok
    rw [St.readPart_eq]
    exact ⟨_, List.mem_append_right _ (List.mem_cons_self ..)⟩

theorem Heard.keep (h : Heard s r) (hI : Inv s) (hI' : Inv s') (hw : WellStacked s.ctl)
    (hall : r.allows s a = true) (hst : s.step A K a = some (.ok s')) (hne : ∀ ev, a ≠ .deliver ev)
    (hch : s'.channel = s.channel) : Heard s' (r.next s a s') := by
  have hmove := step_cases hst
  have hready : (r.next s a s').readReady = r.readReady := by
    cases a with
    | deliver ev => exact absurd rfl (hne ev)
    | _ => simp [Rx.next, hch]
  have hdel : ∀ x ∈ s.delivered, x ∈ s'.delivered ∨ a = .dispatch := fun x hx => by
    rcases delivered_step hmove with he | rfl | ⟨ev, rfl⟩
    · exact .inl (he ▸ hx)
    · exact .inr rfl
    · exact absurd rfl (hne ev)
  refine ⟨fun hs' hread => ?_, fun hm' hh' hhup => ?_⟩
  · have hs := connected_of_same_channel hI hI' hmove hch hs'
    have hread := readable_of_next hread
    obtain ⟨pre, ho, hm⟩ := hI.life.isUp hs
    -- readiness that is reported becomes delivered, what is delivered becomes a frame, and a frame
    -- stays until it has read
    rcases h.read hs hread with h1 | ⟨x, hx, h1⟩ | ⟨f, hf, h1⟩
    · exact .inl (hready.trans h1)
    · rcases hdel x hx with hx' | rfl
      · exact .inr (.inl ⟨x, hx', h1⟩)
      · exact .inr (.inr ((heard_dispatch ho.delivered hst hx).1 h1))
    · refine .inr (.inr ?_)
      cases f with
      | readLoop b =>
        obtain ⟨rest, hctl⟩ := hw.eq_of_loop hf rfl
        exact readLoop_step hall hmove hctl hs hread
      | closePart | afterMessage =>
        obtain ⟨pre', ho', -⟩ := hI'.life.isUp hs'
        exact ⟨_, closer_step hI hmove (by simp [hm]) ho'.handle hf h1, h1⟩
      | _ => cases h1
  · have hm := started_of_same_channel hI hI' hch hm' hh'
    have hh := handle_of_step hI hI' hmove hm hh'
    obtain ⟨pre, ho⟩ := hI.life.isOpen hm hh
    rcases h.hup hm hh hhup with h1 | ⟨x, hx, h1⟩ | ⟨err, hf⟩
    · exact .inl (hready.trans h1)
    · rcases hdel x hx with hx' | rfl
      · exact .inr (.inl ⟨x, hx', h1⟩)
      · exact .inr (.inr ((heard_dispatch ho.delivered hst hx).2 h1))
    · exact .inr (.inr ⟨err, closer_step hI hmove hm hh' hf rfl⟩)

theorem Heard.conn (h : Heard s r) (hI : Inv s) (hI' : Inv s') (hw : WellStacked s.ctl)
    (hall : r.allows s a = true) (hst : s.step A K a = some (.ok s')) :
    Heard s' (r.next s a s') := by
  by_cases hd : ∃ ev, a = .deliver ev
  · obtain ⟨ev, rfl⟩ := hd
    exact .deliver hI hall (step_cases hst)
  · rw [not_exists] at hd
    by_cases hch : s'.channel = s.channel
    · exact h.keep hI hI' hw hall hst hd hch
    · exact .rearm hI' hd hch

theorem Heard.step (h : Heard s r) (hI : Inv s) (hw : WellStacked s.ctl)
    (hG : OnConn OneShot (.ok s, r) w) (hst : WireStep A K s r w s' r') : Heard s' r' := by
  cases hst with
  | conn hall hc =>
    have hstep := machine_step hc
    exact h.conn hI (hI.step hG hstep) hw hall hstep
  | arrive bs hh =>
    have hlisten : .kConnected ∈ moves s.log → (r.arrive s bs).readReady = true := fun hm => by
      obtain ⟨pre, ho⟩ := hI.life.isOpen hm hh
      simp [Rx.arrive, listening_of_isOpen ho.channel]
    refine ⟨fun hs _ => .inl (hlisten ?_), fun hm _ _ => .inl (hlisten hm)⟩
    obtain ⟨pre, -, hm⟩ := hI.life.isUp hs
    simp [hm]
  | finish e hh =>
    have hlisten : .kConnected ∈ moves s.log → (r.finish s e).readReady = true := fun hm => by
      obtain ⟨pre, ho⟩ := hI.life.isOpen hm hh
      simp [Rx.finish, listening_of_isOpen ho.channel]
    refine ⟨fun hs _ => .inl (hlisten ?_), fun hm _ _ => .inl (hlisten hm)⟩
    obtain ⟨pre, -, hm⟩ := hI.life.isUp hs
    simp [hm]

theorem heard_of_reach (h₀ : Init s₀)
    (h : (wired A K).ReachIf (OnConn OneShot) (.ok s₀, .init) (.ok s, r)) : Heard s r := by
  refine wired_invariant h ?_ fun s r w s' r' hr ih hG hst =>
    ih.step (inv_of_reach h₀ hr) (stacked_of_reach h₀ hr.reach) hG hst
  exact ⟨fun _ hread => by simp [Rx.readable, Rx.init, Rx.hup] at hread,
    fun _ _ hhup => by simp [Rx.init, Rx.hup] at hhup⟩

/-! ### What a step records -/

/-- The event can only be recorded by this kind of step. -/
def Ev.DueTo (s : St) (a : Act) : Ev → Prop
  | .sent _ => ∃ n, a = .sendRet (.accepted n)
  | .began bs => s.state = .kConnected ∧ ∃ m : Msg, m.bytes = bs ∧
      (a = .send m ∨ ∃ r rest, a = .runTask r ∧ s.tasks = .send m :: rest)
  | .received bs => a = .recvRet (.data bs)
  | .recvEof => a = .recvRet .eof
  | .called .message => ∃ r, a = .recvRet r
  | .moved .kConnecting => (∃ x y r, a = .connect x y r) ∨
      ∃ r rest, a = .runTask r ∧ s.tasks = .connect :: rest
  | .moved .kConnected => (∃ h, a = .connectSync h) ∨ (a = .dispatch ∧ s.state = .kConnecting) ∨
      ∃ r b rest, a = .runTask r ∧ s.tasks = .start b :: rest
  | _ => True

/-- What any step may record. -/
def Ev.isNeutral : Ev → Bool
  | .sent _ | .began _ | .received _ | .recvEof | .called .message | .moved .kConnecting
  | .moved .kConnected => false
  | _ => true

/-- What the step `a` from `s` to `s'` records is due to it. -/
def Records (s : St) (a : Act) (s' : St) : Prop :=
  ∃ l, s'.log = s.log ++ l ∧ ∀ e ∈ l, e.DueTo s a

theorem dueTo_of_neutral {e : Ev} (h : e.isNeutral = true) : e.DueTo s a := by
  cases e with
  | called cb =>
    cases cb with
    | message => cases h
    | _ => trivial
  | moved st =>
    cases st with
    | kConnecting | kConnected => cases h
    | _ => trivial
  | sent | began | received | recvEof => cases h
  | _ => trivial

namespace Records

theorem same (h : s'.log = s.log) : Records s a s' := ⟨[], by simp [h], by simp⟩

theorem neutral {l : List Ev} (hlog : s'.log = s.log ++ l) (h : ∀ e ∈ l, e.isNeutral = true) :
    Records s a s' :=
  ⟨l, hlog, fun e he => dueTo_of_neutral (h e he)⟩

end Records

theorem neutral_callLog (set : Bool) {cb : Callback} (h : cb ≠ .message) :
    ∀ e ∈ St.callLog set cb, e.isNeutral = true := by
  intro e he
  rw [St.mem_callLog he]
  cases cb with
  | message => exact absurd rfl h
  | _ => rfl

theorem Connecting.dueTo {r : ConnectRet} {t : St} (h : Connecting s a r t) :
    t.log = s.log ∧ (Ev.moved .kConnecting).DueTo s a := by
  cases h with
  | user => exact ⟨rfl, .inl ⟨_, _, _, rfl⟩⟩
  | task r _ _ hts => exact ⟨rfl, .inr ⟨r, _, rfl, hts⟩⟩

theorem Starting.dueTo {set : Bool} {cb : Callback} {t : St} (h : Starting s a set cb t) :
    (Ev.moved .kConnected).DueTo s a := by
  cases h with
  | task r _ _ hts => exact .inr (.inr ⟨r, _, _, rfl, hts⟩)
  | sync k => exact .inl ⟨_, rfl⟩
  | event _ _ _ _ hs => exact .inr (.inl ⟨rfl, hs⟩)

theorem neutral_deregisterLog : ∀ e ∈ s.deregisterLog, e.isNeutral = true := by
  intro e he
  obtain ⟨role, rfl⟩ := St.mem_deregisterLog he
  rfl

theorem neutral_closeLog : ∀ e ∈ s.closeLog, e.isNeutral = true := by
  intro e he
  obtain ⟨k, rfl⟩ := St.mem_closeLog he
  rfl

theorem neutral_cleanupLog (err : ℕ) : ∀ e ∈ s.cleanupLog err, e.isNeutral = true := by
  intro e he
  have hmove : ∀ st, e = .moved st → st = .kDisconnecting ∨ st = .kDisconnected := by
    rintro st rfl
    have := mem_moves.2 he
    rw [Life.moves_cleanupLog] at this
    split_ifs at this <;> simp_all
  cases St.tidies_of_mem he with
  | moved st =>
    rcases hmove st rfl with rfl | rfl <;> rfl
  | _ => rfl

theorem neutral_checkHigh {t : St} (h : t.checkHigh = .ok s') :
    ∃ l, s'.log = t.log ++ l ∧ ∀ e ∈ l, e.isNeutral = true := by
  rcases St.checkHigh_ok h with rfl | rfl | rfl
  · exact ⟨[], by simp, by simp⟩
  · exact ⟨[], by simp, by simp⟩
  · exact ⟨[.called (.watermark t.highWatermark)], rfl, by simp [Ev.isNeutral]⟩

theorem neutral_enqueue {t : St} {bs : List UInt8} (h : t.enqueue A bs = .ok s') :
    ∃ l, s'.log = t.log ++ l ∧ ∀ e ∈ l, e.isNeutral = true := by
  obtain ⟨b, b', u, -, -, hu, h⟩ := St.enqueue_ok h
  obtain ⟨c, c', w, -, rfl, -⟩ := St.addWriteEvent_ok hu
  obtain ⟨l, hlog, hl⟩ := neutral_checkHigh h
  exact ⟨l, hlog, hl⟩

theorem Sending.dueTo {m : Msg} {t : St} (h : Sending s a m t) (hs : t.state = .kConnected) :
    t.log = s.log ∧ (Ev.began m.bytes).DueTo s a := by
  cases h with
  | user => exact ⟨rfl, hs, m, rfl, .inl rfl⟩
  | task k _ _ htasks => exact ⟨rfl, hs, m, rfl, .inr ⟨k, _, rfl, htasks⟩⟩

/-- The loop of `send_in_poll_thread_` ends, and neutral events follow. -/
theorem LoopEnd.records {m : Msg} {n : ℕ} {t : St} {l : List Ev} (h : LoopEnd s m n a t)
    (hlog : s'.log = t.log ++ l) (hl : ∀ e ∈ l, e.isNeutral = true) : Records s a s' := by
  cases h with
  | goal => exact .neutral hlog hl
  | blocked =>
    refine .neutral (hlog.trans (List.append_assoc ..)) ?_
    exact List.forall_mem_append.2 ⟨by simp [Ev.isNeutral], hl⟩

/-- **What a step records.** -/
theorem step_records (h : Moves A s a s') : Records s a s' := by
  cases h with
  | stay | setWritable | sockError | setCallbacks | setWatermark | setWatermarkCallback
  | setCloseTimeout | setBufferSize | post | stopTimers | extractTimer | fireTimer | deliver
  | ignore | dispatch | postConnect | syncFails | dropTask | leave | beginWrite | endLow | endHigh
  | consume => exact .same rfl
  | refused => exact .neutral (l := [.refused]) rfl (by simp [Ev.isNeutral])
  | destroy => exact .neutral rfl neutral_closeLog
  | connectFails w e err =>
    refine .neutral (l := s.deregisterLog ++ (s.closeLog ++ ([Ev.moved .kDisconnected] ++
      St.callLog s.onConnectError (.connectError err)))) (by simp only [List.append_assoc]) ?_
    simp only [List.forall_mem_append]
    exact ⟨neutral_deregisterLog, neutral_closeLog, by simp [Ev.isNeutral],
      neutral_callLog _ (by simp)⟩
  | @connects _ k t hc =>
    obtain ⟨ht, hdue⟩ := hc.dueTo
    rcases t.startConnectInPoll_eq k with ⟨err, he⟩ | ⟨k, w, he⟩ <;> rw [he]
    · rw [St.connectFailed_eq]
      exact .neutral (congrArg (· ++ _) ht) (neutral_callLog _ (by simp))
    · refine ⟨_, congrArg (· ++ _) ht, fun e he => ?_⟩
      rw [St.mem_moveLog he]
      exact hdue
  | @starts _ set cb t u hs hu =>
    have hcb : cb ≠ .message := by cases hs <;> simp
    obtain ⟨l, hlog, hl⟩ : ∃ l, t.log = s.log ++ l ∧ ∀ e ∈ l, e.isNeutral = true := by
      cases hs with
      | task | sync => exact ⟨[], by simp, by simp⟩
      | event => exact ⟨_, rfl, neutral_deregisterLog⟩
    rcases St.start_ok hu with ⟨rfl, -⟩ | ⟨-, k, w, wr, -, -, rfl⟩
    · refine .neutral (l := l ++ St.callLog set cb) (by simp [hlog]) ?_
      exact List.forall_mem_append.2 ⟨hl, neutral_callLog _ hcb⟩
    · refine ⟨l ++ (t.moveLog .kConnected ++ St.callLog set cb), by simp [hlog], ?_⟩
      simp only [List.forall_mem_append]
      refine ⟨fun e he => dueTo_of_neutral (hl e he), fun e he => ?_,
        fun e he => dueTo_of_neutral (neutral_callLog _ hcb e he)⟩
      rw [St.mem_moveLog he]
      exact hs.dueTo
  | @closes _ err t hc hd =>
    obtain ⟨sch, ch, w, rel, he, -⟩ := St.cleanup_eq err hd
    rw [he]
    cases hc with
    | handler | user | task => exact .neutral rfl (neutral_cleanupLog _)
    | failed =>
      refine .neutral (List.append_assoc ..) ?_
      exact List.forall_mem_append.2 ⟨by simp [Ev.isNeutral], neutral_cleanupLog _⟩
  | passes hc =>
    cases hc with
    | handler | user | task => exact .same rfl
    | failed => exact .neutral rfl (by simp [Ev.isNeutral])
  | shuts hs _ _ _ hok =>
    rcases St.shutdownInPoll_ok hok with rfl | ⟨-, -, -, ch, w, l, tid, nid, sch, hf, rfl⟩
    · cases hs <;> exact .same rfl
    · refine .neutral (l := .moved .kDisconnecting :: l) (by cases hs <;> simp) ?_
      cases hf <;> simp [Ev.isNeutral]
  | @endClose rest hctl =>
    obtain ⟨rel, he, -⟩ := St.releaseChannel_eq { s with ctl := rest }
    rw [he]
    exact .same rfl
  | drained hctl _ _ hok =>
    obtain ⟨b, -, ⟨-, rfl⟩ | ⟨-, c, c', w, -, -, -, -, -, rfl⟩⟩ := St.writeTail_ok hok
    · exact .same rfl
    · refine .neutral rfl ?_
      split_ifs <;> simp [Ev.isNeutral]
  | wrote hctl _ _ _ _ hok =>
    obtain ⟨b, b', -, -, fs, l, rfl, hf⟩ := St.wrote_ok hok
    have hl : ∀ e ∈ l, e.isNeutral = true := by
      rcases hf with ⟨-, rfl⟩ | ⟨-, rfl⟩ | ⟨-, rfl⟩ <;> simp [Ev.isNeutral]
    refine ⟨_, List.append_assoc .., List.forall_mem_append.2 ⟨by simp [Ev.DueTo], ?_⟩⟩
    exact fun e he => dueTo_of_neutral (hl e he)
  | writeBlocked | interrupted | recvAgain => exact .neutral rfl (by simp [Ev.isNeutral])
  | sentSome => exact ⟨_, rfl, by simp [Ev.DueTo]⟩
  | beginSend hs hconn | dropSend hs hconn =>
    obtain ⟨hlog, hdue⟩ := hs.dueTo hconn
    exact ⟨_, congrArg (· ++ _) hlog, by simpa using hdue⟩
  | queues hq hok =>
    obtain ⟨l, hlog, hl⟩ := neutral_enqueue hok
    cases hq with
    | behind hs hconn =>
      obtain ⟨hlog', hdue⟩ := hs.dueTo hconn
      refine ⟨_ :: l, ?_, List.forall_mem_cons.2 ⟨hdue, fun e he => dueTo_of_neutral (hl e he)⟩⟩
      rw [hlog, St.note_log, hlog', List.append_assoc]
      rfl
    | rest hend => exact hend.records hlog hl
  | sentAll hend _ hok =>
    obtain ⟨l, hlog, hl⟩ := neutral_checkHigh hok
    exact hend.records hlog hl
  | received => exact ⟨_, rfl, by simp [Ev.DueTo]⟩
  | recvEnd _ _ _ _ _ hend =>
    refine ⟨_, List.append_assoc .., List.forall_mem_append.2 ⟨?_, fun e he => ?_⟩⟩
    · cases hend <;> simp [Ev.DueTo]
    · rw [St.mem_callLog he]
      exact ⟨_, rfl⟩

/-! ### What has arrived -/

/-- What has arrived is what was received and what is in the queue. -/
def Accounted (s : St) (r : Rx) : Prop := receivedBytes s.log ++ r.queue = r.arrived

/-- `::recv` delivers bytes. -/
theorem log_of_data {bs : List UInt8} (h : Moves A s (.recvRet (.data bs)) s') :
    s'.log = s.log ++ [Ev.received bs] := by
  cases h with
  | stay hreq => cases hreq
  | refused hcon => cases hcon
  | post hp => cases hp
  | connects hc => cases hc
  | starts hs => cases hs
  | closes hc | passes hc => cases hc
  | shuts hs => cases hs
  | leave _ hl => cases hl
  | beginSend hs | dropSend hs => cases hs
  | queues hq =>
    cases hq with
    | behind hs => cases hs
    | rest hend => cases hend
  | sentAll hend => cases hend
  | received => rfl
  | recvEnd _ _ _ _ _ hend => cases hend

/-- Every other step receives nothing. -/
theorem received_of_ne (h : Moves A s a s') (hne : ∀ bs, a ≠ .recvRet (.data bs)) :
    receivedBytes s'.log = receivedBytes s.log := by
  obtain ⟨l, hl, hdue⟩ := step_records h
  have hnil : receivedBytes l = [] := by
    rw [receivedBytes, List.flatMap_eq_nil_iff]
    intro e he
    cases e with
    | received bs => exact absurd (hdue _ he) (hne bs)
    | _ => rfl
  rw [hl, receivedBytes_append, hnil, List.append_nil]

theorem Accounted.step (h : Accounted s r) (hst : WireStep A K s r w s' r') :
    Accounted s' r' := by
  unfold Accounted at h ⊢
  cases hst with
  | @conn a _ hall hc =>
    have hmove := step_cases (machine_step hc)
    by_cases hd : ∃ bs, a = .recvRet (.data bs)
    · obtain ⟨bs, rfl⟩ := hd
      obtain ⟨tl, htl⟩ := List.isPrefixOf_iff_prefix.1 hall
      simp only [log_of_data hmove, Rx.next, receivedBytes_append, ← h, ← htl]
      simp [receivedBytes]
    · rw [not_exists] at hd
      have hqueue : (r.next s a s').queue = r.queue := by
        unfold Rx.next
        split
        · exact absurd rfl (hd _)
        · rfl
      rw [received_of_ne hmove hd, hqueue]
      exact h
  | arrive bs =>
    simp only [Rx.arrive]
    rw [← h, List.append_assoc]
  | finish e => exact h

theorem accounted_of_reach (h₀ : Init s₀)
    (h : (wired A K).ReachIf (OnConn G) (.ok s₀, .init) (.ok s, r)) : Accounted s r := by
  refine wired_invariant h ?_ fun s r w s' r' _ ih _ hst => ih.step hst
  cases h₀ with
  | server | client => rfl

/-- With no news anywhere, everything that has arrived was received. -/
theorem Heard.received_of_rest (h : Heard s r) (hacc : Accounted s r) (hs : s.state = .kConnected)
    (hctl : s.ctl = []) (hdel : s.delivered = none) (hready : r.readReady = false) :
    receivedBytes s.log = r.arrived ∧ r.ending = .none := by
  have hno : r.readable = false := by
    by_contra hne
    rcases h.read hs (by simpa using hne) with h1 | ⟨x, h1, -⟩ | ⟨f, h1, -⟩
    · simp [hready] at h1
    · simp [hdel] at h1
    · simp [hctl] at h1
  simp only [Rx.readable, Rx.hup, Bool.or_eq_false_iff, Bool.not_eq_false', ne_eq,
    decide_eq_false_iff_not, not_not, List.isEmpty_iff] at hno
  rw [Accounted, hno.1, List.append_nil] at hacc
  exact ⟨hacc, hno.2⟩

/-- **No read stall.**  In every one-shot run, with anything that the network brings and any event
sets that an edge-triggered poller may report, whenever the poll's thread has left the code of a
connection: if it is `kConnected` and its socket is readable, its channel is registered for read
events and a read notification is pending in the poller or reported; if it was started and is not
closed and the peer has ended the stream, the same holds of the hang-up; and if it is `kConnected`
with nothing pending and nothing reported, everything that has arrived was received. -/
theorem no_read_stall (h₀ : Init s₀)
    (h : (wired A K).ReachIf (OnConn OneShot) (.ok s₀, .init) (.ok s, r)) (hctl : s.ctl = []) :
    (s.state = .kConnected → r.readable = true → s.listening = true ∧
      (r.readReady = true ∨ ∃ ev, s.delivered = some (.established, ev) ∧ ev.read = true)) ∧
    (.moved .kConnected ∈ s.log → s.handle ≠ none → r.hup = true → s.listening = true ∧
      (r.readReady = true ∨ ∃ ev, s.delivered = some (.established, ev) ∧ ev.hup = true)) ∧
    (s.state = .kConnected → s.delivered = none → r.readReady = false →
      receivedBytes s.log = r.arrived ∧ r.ending = .none) := by
  have hI : Inv s := inv_of_reach h₀ (reach_of_wired h)
  have hheard := heard_of_reach h₀ h
  refine ⟨fun hs hread => ?_, fun hm hh hhup => ?_, fun hs hdel hready => ?_⟩
  · obtain ⟨pre, ho, -⟩ := hI.life.isUp hs
    refine ⟨listening_of_isOpen ho.channel, ?_⟩
    rcases hheard.read hs hread with h1 | ⟨⟨role, ev⟩, hx, h1⟩ | ⟨f, hf, -⟩
    · exact .inl h1
    · obtain rfl : role = .established := ho.delivered _ hx
      exact .inr ⟨ev, hx, h1⟩
    · simp [hctl] at hf
  · obtain ⟨pre, ho⟩ := hI.life.isOpen (mem_moves.2 hm) hh
    refine ⟨listening_of_isOpen ho.channel, ?_⟩
    rcases hheard.hup (mem_moves.2 hm) hh hhup with h1 | ⟨⟨role, ev⟩, hx, h1⟩ | ⟨err, hf⟩
    · exact .inl h1
    · obtain rfl : role = .established := ho.delivered _ hx
      exact .inr ⟨ev, hx, h1⟩
    · simp [hctl] at hf
  · exact hheard.received_of_rest (accounted_of_reach h₀ h) hs hctl hdel hready

/-- Two bytes arrive before the connection is started, a third one while they are received, and a
fourth one after `EAGAIN`. -/
def arrivesLate : List WireAct :=
  [.arrive [1, 2], .conn (.runTask .badAddress), .conn (.deliver ⟨true, false, false, false⟩),
    .conn .dispatch, .conn (.recvRet (.data [1])), .arrive [3], .conn (.recvRet (.data [2, 3])),
    .conn (.recvRet (.error EAGAIN)), .arrive [4], .conn .tau]

/-- The run ends in a connection outside its code that has received three bytes, with a fourth one
in the queue. -/
def endsLate (x : Except Crash St × Rx) : Bool :=
  match x.1 with
  | .error _ => false
  | .ok s => decide (s.ctl = [] ∧ s.state = .kConnected ∧ s.delivered = none ∧
      receivedBytes s.log = [1, 2, 3] ∧ x.2.queue = [4] ∧ x.2.readable = true)

theorem no_read_stall_arrivesLate : ∃ (s : St) (r : Rx), receivedBytes s.log = [1, 2, 3] ∧
    r.queue = [4] ∧ s.listening = true ∧ r.readReady = true := by
  obtain ⟨⟨c, r⟩, hr, hp⟩ := Machine.ReachIf.of_endsIn (M := wired .zeroed .linux)
    (G := OnConn OneShot) (s := (.ok (accepted 5 false), .init)) (p := endsLate) arrivesLate
    (by decide +kernel) (by decide +kernel)
  cases c with
  | error e => cases hp
  | ok s =>
    obtain ⟨h1, h2, h3, h4, h5, h6⟩ := of_decide_eq_true hp
    obtain ⟨hl, hready⟩ := (no_read_stall (.server 5 false) hr h1).1 h2 h6
    refine ⟨s, r, h4, h5, hl, hready.resolve_right ?_⟩
    rintro ⟨ev, hev, -⟩
    simp [h3] at hev

end

end Conn

end CxpNet
