import CxpNet.Conn.Graceful
import CxpNet.Conn.Wire
import CxpNet.Machine.Pair

/-!
# Two connections and the stream between them

The two ends of a TCP connection, each a `Conn` with its socket, in any interleaving of their
steps.  Between the sockets there is a reliable byte stream in each direction: what arrives at one
end are the next bytes that the kernel of the other end has accepted, the end of the stream arrives
after all of them, and a reset may come at any time.  The sockets of a program that has crashed are
closed by the kernel.

* `Conn.end_to_end` : what one end has received is a prefix of what the other has sent, which is a
  prefix of its messages; an end that has seen the end of the stream has received everything that
  was sent, and after a graceful shutdown every message;
* `Conn.delivered_at_rest` : when both ends are at rest and nothing is under way, everything that
  one end wanted to send has been received by the other.
-/

namespace CxpNet

namespace Conn

/-! ### The sending side of a socket -/

/-- The stream is ended: `::shutdown(SHUT_WR)` or `::close`. -/
def Ev.isEnd : Ev → Bool
  | .shutWr | .closeHandle _ => true
  | _ => false

/-- The sending side of the socket. -/
structure Tx where
  /-- What the kernel has accepted. -/
  sent : List UInt8
  /-- Nothing more will be accepted. -/
  shut : Bool
  deriving DecidableEq, Repr

/-- The sending side after a step of the connection. -/
def Tx.next (x : Tx) (c : Except Crash St) : Tx :=
  match c with
  | .ok s => ⟨sentBytes s.log, s.log.any Ev.isEnd⟩
  | .error _ => { x with shut := true }

/-- One end. -/
structure Peer where
  conn : Except Crash St
  rx : Rx
  tx : Tx

namespace Peer

def new (s : St) : Peer := ⟨.ok s, .init, ⟨[], false⟩⟩

/-- What the two kernels and the network may do. -/
def admits (me other : Peer) : WireAct → Bool
  | .arrive bs => (me.rx.arrived ++ bs).isPrefixOf other.tx.sent
  | .finish .fin => other.tx.shut && me.rx.arrived = other.tx.sent
  -- `EPIPE`
  | .conn (.sendRet (.accepted _)) => !me.tx.shut
  | _ => true

/-- A step of one end. -/
def step (A : Allocator) (K : Kernel) (me other : Peer) (w : WireAct) : Option Peer :=
  if me.admits other w then
    ((wired A K).step (me.conn, me.rx) w).map fun x => ⟨x.1, x.2, me.tx.next x.1⟩
  else none

end Peer

/-- The two ends of a connection. -/
def linked (A : Allocator) (K : Kernel) : Machine (Peer × Peer) (Machine.Turn WireAct) :=
  Machine.pair (Peer.step A K)

/-- The steps of a connection at one end meet `G`. -/
def AtEnd (G : Except Crash St → Act → Prop) (p : Peer) (w : WireAct) : Prop :=
  OnConn G (p.conn, p.rx) w

instance (G : Except Crash St → Act → Prop) [∀ c a, Decidable (G c a)] (p : Peer) (w : WireAct) :
    Decidable (AtEnd G p w) :=
  inferInstanceAs (Decidable (OnConn G (p.conn, p.rx) w))

section

variable {A : Allocator} {K : Kernel} {G G₁ G₂ : Except Crash St → Act → Prop}
  {s₀ s₁ s₂ s s' t : St} {a : Act} {p p' q : Peer} {w : WireAct}

theorem peer_step (h : p.step A K q w = some p') : p.admits q w = true ∧
    (wired A K).step (p.conn, p.rx) w = some (p'.conn, p'.rx) ∧ p'.tx = p.tx.next p'.conn := by
  unfold Peer.step at h
  split_ifs at h with hall
  obtain ⟨x, hx, rfl⟩ := Option.map_eq_some_iff.1 h
  exact ⟨hall, hx, rfl⟩

/-- A step of one end: the connection goes on, or crashes. -/
inductive PeerStep (A : Allocator) (K : Kernel) (p p' : Peer) (w : WireAct) : Prop
  | goes {s s' : St} : p.conn = .ok s → p'.conn = .ok s' → WireStep A K s p.rx w s' p'.rx →
      p'.tx = ⟨sentBytes s'.log, s'.log.any Ev.isEnd⟩ → PeerStep A K p p' w
  | crashes : (∃ e, p'.conn = .error e) → p'.rx = p.rx → p'.tx = { p.tx with shut := true } →
      PeerStep A K p p' w

theorem peer_cases (h : p.step A K q w = some p') :
    p.admits q w = true ∧ PeerStep A K p p' w := by
  obtain ⟨hall, hw, htx⟩ := peer_step h
  refine ⟨hall, ?_⟩
  cases hc : p'.conn with
  | ok s' =>
    rw [hc] at hw htx
    obtain ⟨s, hs, hws⟩ := wired_step hw
    exact .goes hs hc hws htx
  | error e =>
    rw [hc] at hw htx
    refine .crashes ⟨e, hc⟩ ?_ htx
    cases hp : p.conn with
    | error e => simp [wired, hp] at hw
    | ok s =>
      cases w with
      | conn a =>
        simp only [wired, hp] at hw
        split_ifs at hw
        obtain ⟨c, -, he⟩ := Option.map_eq_some_iff.1 hw
        cases c with
        | error e => exact (Prod.mk.inj he).2.symm
        | ok s' => cases (Prod.mk.inj he).1
      | arrive | finish => simp [wired, hp] at hw

/-- What one end does is a run of the connection with its receiving side. -/
theorem wired_of_linked (h : (linked A K).ReachIf (Machine.Each (AtEnd G₁) (AtEnd G₂))
      (.new s₁, .new s₂) (p, q)) :
    (wired A K).ReachIf (OnConn G₁) (.ok s₁, .init) (p.conn, p.rx) :=
  Machine.pair_left (π := fun p : Peer => (p.conn, p.rx)) h fun _ _ w _ hG hst =>
    ⟨w, hG, (peer_step hst).2.1⟩

/-- Weaker guards. -/
theorem linked_mono {G₁' G₂' : Except Crash St → Act → Prop} {x y : Peer × Peer}
    (h : (linked A K).ReachIf (Machine.Each (AtEnd G₁) (AtEnd G₂)) x y)
    (hG₁ : ∀ c a, G₁ c a → G₁' c a) (hG₂ : ∀ c a, G₂ c a → G₂' c a) :
    (linked A K).ReachIf (Machine.Each (AtEnd G₁') (AtEnd G₂')) x y := by
  refine h.mono fun z w hG => ?_
  cases w with
  | left w =>
    cases w with
    | conn a => exact hG₁ _ a hG
    | arrive | finish => trivial
  | right w =>
    cases w with
    | conn a => exact hG₂ _ a hG
    | arrive | finish => trivial

/-- A run of the connection. -/
theorem reach_of_linked (h : (linked A K).ReachIf (Machine.Each (AtEnd G₁) (AtEnd G₂))
      (.new s₁, .new s₂) (p, q)) (hs : p.conn = .ok s) :
    (machine A K).ReachIf G₁ (.ok s₁) (.ok s) := by
  have hw := wired_of_linked h
  rw [hs] at hw
  exact reach_of_wired hw

/-! ### The stream from one end to the other -/

/-- Only a `::send` that succeeds sends. -/
theorem sent_of_ne (h : Moves A s a s') (hne : ∀ n, a ≠ .sendRet (.accepted n)) :
    sentBytes s'.log = sentBytes s.log := by
  obtain ⟨l, hl, hdue⟩ := step_records h
  have hnil : sentBytes l = [] := by
    rw [sentBytes, List.flatMap_eq_nil_iff]
    intro e he
    cases e with
    | sent bs =>
      obtain ⟨n, hn⟩ := hdue _ he
      exact absurd hn (hne n)
    | _ => rfl
  rw [hl, sentBytes_append, hnil, List.append_nil]

/-- The sending side is what the log says, and the end of the stream is seen when everything was
received. -/
structure Peer.Sound (p : Peer) : Prop where
  tx : ∀ s, p.conn = .ok s → p.tx = ⟨sentBytes s.log, s.log.any Ev.isEnd⟩
  eof : ∀ s, p.conn = .ok s → .recvEof ∈ s.log → p.rx.ending = .fin ∧ p.rx.queue = []

/-- What has arrived at `q` was sent by `p`, and the stream ends when everything has arrived. -/
structure Carried (p q : Peer) : Prop where
  arrived : q.rx.arrived <+: p.tx.sent
  fin : q.rx.ending = .fin → q.rx.arrived = p.tx.sent ∧ p.tx.shut = true

theorem Peer.Sound.step (h : p.Sound) (hst : p.step A K q w = some p') : p'.Sound := by
  obtain ⟨-, hcases⟩ := peer_cases hst
  cases hcases with
  | crashes he =>
    obtain ⟨e, he⟩ := he
    exact ⟨fun s hs => by simp [he] at hs, fun s hs => by simp [he] at hs⟩
  | @goes s t hs ht hw htx =>
    refine ⟨fun s' hs' => ?_, fun s' hs' heof => ?_⟩
    · obtain rfl : t = s' := Except.ok.inj (ht.symm.trans hs')
      exact htx
    obtain rfl : t = s' := Except.ok.inj (ht.symm.trans hs')
    generalize p'.rx = r' at hw
    cases hw with
    | @conn a _ hall hc =>
      obtain ⟨l, hl, hdue⟩ := step_records (step_cases (machine_step hc))
      rw [hl, List.mem_append] at heof
      rcases heof with heof | heof
      · obtain ⟨h1, h2⟩ := h.eof s hs heof
        refine ⟨h1, ?_⟩
        simp only [Rx.next, h2]
        split <;> simp
      · obtain rfl : a = .recvRet .eof := hdue _ heof
        simp only [Rx.allows, Bool.and_eq_true, List.isEmpty_iff, decide_eq_true_eq] at hall
        exact ⟨hall.2, hall.1⟩
    | arrive bs _ hend => simp [(h.eof _ hs heof).1] at hend
    | finish e _ hend => simp [(h.eof _ hs heof).1] at hend

/-- A step of the sender. -/
theorem Carried.send (h : Carried p q) (hp : p.Sound) (hst : p.step A K q w = some p') :
    Carried p' q := by
  obtain ⟨hall, hcases⟩ := peer_cases hst
  cases hcases with
  | crashes _ _ htx => exact ⟨htx ▸ h.arrived, fun hf => ⟨htx ▸ (h.fin hf).1, by rw [htx]⟩⟩
  | @goes s s' hs hs' hw htx =>
    have hsound := hp.tx s hs
    generalize p'.rx = r' at hw
    cases hw with
    | @conn a _ _ hc =>
      have hmove := step_cases (machine_step hc)
      obtain ⟨l, hl⟩ := log_step hmove
      have hmono : p.tx.sent <+: p'.tx.sent := by
        rw [htx, hsound, hl, sentBytes_append]
        exact List.prefix_append ..
      refine ⟨h.arrived.trans hmono, fun hf => ?_⟩
      obtain ⟨h1, h2⟩ := h.fin hf
      have hne : ∀ n, a ≠ .sendRet (.accepted n) := by
        rintro n rfl
        simp [Peer.admits, h2] at hall
      have hsame : p'.tx.sent = p.tx.sent := by
        rw [htx, hsound]
        exact sent_of_ne hmove hne
      have hshut : s.log.any Ev.isEnd = true := by
        rw [hsound] at h2
        exact h2
      refine ⟨h1.trans hsame.symm, ?_⟩
      rw [htx, hl]
      simp [hshut]
    | arrive | finish =>
      have : p'.tx = p.tx := htx.trans hsound.symm
      exact ⟨this ▸ h.arrived, this ▸ h.fin⟩

/-- A step of the receiver. -/
theorem Carried.receive (h : Carried q p) (hst : p.step A K q w = some p') : Carried q p' := by
  obtain ⟨hall, hcases⟩ := peer_cases hst
  cases hcases with
  | crashes _ hrx => exact ⟨hrx ▸ h.arrived, hrx ▸ h.fin⟩
  | goes _ _ hw =>
    generalize hr : p'.rx = r' at hw
    cases hw with
    | conn => exact ⟨by simpa [hr, Rx.next] using h.arrived, by simpa [hr, Rx.next] using h.fin⟩
    | arrive bs _ hend =>
      refine ⟨?_, fun hf => ?_⟩
      · rw [hr]
        exact List.isPrefixOf_iff_prefix.1 hall
      · rw [hr] at hf
        exact absurd (hend.symm.trans hf) (by simp)
    | finish e _ hend hne =>
      refine ⟨by simpa [hr, Rx.finish] using h.arrived, fun hf => ?_⟩
      rw [hr] at hf
      obtain rfl : e = .fin := hf
      simp only [Peer.admits, Bool.and_eq_true, decide_eq_true_eq] at hall
      exact ⟨by simpa [hr, Rx.finish] using hall.2, hall.1⟩

/-! ### Whole runs -/

/-- The streams in both directions. -/
structure Streams (p q : Peer) : Prop where
  left : p.Sound
  right : q.Sound
  there : Carried p q
  back : Carried q p

theorem sound_of_init (h₀ : Init s₀) : (Peer.new s₀).Sound := by
  have hl : s₀.log = [] := by cases h₀ <;> rfl
  refine ⟨fun s hs => ?_, fun s hs heof => ?_⟩
  · cases hs
    rw [hl]
    rfl
  · cases hs
    simp [hl] at heof

theorem streams_of_linked (h₁ : Init s₁) (h₂ : Init s₂)
    (h : (linked A K).ReachIf (Machine.Each (AtEnd G₁) (AtEnd G₂)) (.new s₁, .new s₂) (p, q)) :
    Streams p q := by
  have carried : ∀ s t, Carried (.new s) (.new t) := fun s t =>
    ⟨List.prefix_refl _, fun hf => by cases hf⟩
  refine Machine.pair_invariant (R := Streams) (J := fun _ _ => True) h (fun _ _ _ => trivial)
    ⟨sound_of_init h₁, sound_of_init h₂, carried .., carried ..⟩ ?_ ?_
  · exact fun p q w p' _ hR _ hst =>
      ⟨hR.left.step hst, hR.right, hR.there.send hR.left hst, hR.back.receive hst⟩
  · exact fun p q w q' _ hR _ hst =>
      ⟨hR.left, hR.right.step hst, hR.there.receive hst, hR.back.send hR.right hst⟩

/-- Every run can be recorded with its calls. -/
theorem traced_of_reach {c : Except Crash St} (h : (machine A K).ReachIf NoResize (.ok s₀) c) :
    ∃ x, (traced A K).ReachIf Traced.NoResize (.init s₀) x ∧ x.conn = c := by
  induction h with
  | refl => exact ⟨_, .refl, rfl⟩
  | @tail c c' a _ hG hst ih =>
    obtain ⟨x, hx, rfl⟩ := ih
    cases hc : x.conn with
    | error e => simp [machine, hc] at hst
    | ok s =>
      have hstep : (traced A K).step x (0, a) = some (x.record s 0 a c') := by
        rw [hc] at hst
        simp [traced, hc, hst]
      exact ⟨_, .tail (a := (0, a)) hx hG hstep, record_conn ..⟩

/-- When the write side was shut gracefully, every message was sent. -/
theorem sent_of_halfClosed (h₀ : Init s₀) (h : (machine A K).ReachIf NoResize (.ok s₀) (.ok s))
    (hhalf : HalfClosed s.log) : sentBytes s.log = begunBytes s.log := by
  obtain ⟨x, hx, hconn⟩ := traced_of_reach h
  have hbooks := books_of_reach h₀ hx hconn
  obtain ⟨pre, post, hl, hm⟩ := hhalf
  obtain ⟨h1, h2⟩ := (flow_of_reach h₀ h).graceful pre post hl hm
  have hs : sentBytes (.shutWr :: post) = sentBytes post := rfl
  have hb : begunBytes (.shutWr :: post) = begunBytes post := rfl
  rw [hl, sentBytes_append, begunBytes_append, hs, hb, h1, h2, hbooks.begun_post hl hm]

/-- What has been received was sent. -/
theorem prefix_of_linked (h₁ : Init s₁) (h₂ : Init s₂)
    (h : (linked A K).ReachIf (Machine.Each (AtEnd G₁) (AtEnd G₂)) (.new s₁, .new s₂) (p, q))
    (hp : p.conn = .ok s) (hq : q.conn = .ok t) :
    receivedBytes t.log <+: sentBytes s.log ∧ Accounted t q.rx := by
  have hstreams := streams_of_linked h₁ h₂ h
  have hacc : Accounted t q.rx := by
    have hw := wired_of_linked (Machine.pair_swap h)
    rw [hq] at hw
    exact accounted_of_reach h₂ hw
  refine ⟨?_, hacc⟩
  have hsent : p.tx.sent = sentBytes s.log := by rw [hstreams.left.tx s hp]
  have harrived : receivedBytes t.log <+: q.rx.arrived := ⟨q.rx.queue, hacc⟩
  exact hsent ▸ harrived.trans hstreams.there.arrived

/-- **End to end.**  In every run of two connections in which the buffers of a started connection
are not replaced, for each of the two directions: what was received is a prefix of what was sent,
which is a prefix of the messages that were begun; an end that has seen the end of the stream has
received everything that was sent; and if the other end has shut its write side gracefully, it has
received every message. -/
theorem end_to_end (h₁ : Init s₁) (h₂ : Init s₂)
    (h : (linked A K).ReachIf (Machine.Each (AtEnd NoResize) (AtEnd NoResize))
      (.new s₁, .new s₂) (p, q)) (hp : p.conn = .ok s) (hq : q.conn = .ok t) :
    receivedBytes t.log <+: sentBytes s.log ∧ sentBytes s.log <+: begunBytes s.log ∧
      (.recvEof ∈ t.log → receivedBytes t.log = sentBytes s.log ∧
        (HalfClosed s.log → receivedBytes t.log = begunBytes s.log)) := by
  have hstreams := streams_of_linked h₁ h₂ h
  have hrun := reach_of_linked h hp
  obtain ⟨hpre, hacc⟩ := prefix_of_linked h₁ h₂ h hp hq
  refine ⟨hpre, (flow_of_reach h₁ hrun).pre, fun heof => ?_⟩
  obtain ⟨hfin, hqueue⟩ := hstreams.right.eof t hq heof
  have hall : receivedBytes t.log = sentBytes s.log := by
    rw [Accounted, hqueue, List.append_nil] at hacc
    rw [hacc, (hstreams.there.fin hfin).1, hstreams.left.tx s hp]
  exact ⟨hall, fun hhalf => hall.trans (sent_of_halfClosed h₁ hrun hhalf)⟩

/-- A message. -/
def oneTwo : Msg := ⟨[1, 2], by decide⟩

/-- A client connects and sends two bytes; the first one arrives at the server. -/
def sendTwo : List (Machine.Turn WireAct) :=
  [.left (.conn (.connectSync (some 7))), .right (.conn (.runTask .badAddress)),
    .left (.conn (.setWritable true)), .right (.conn (.setWritable true)),
    .left (.conn (.send oneTwo)), .left (.conn (.sendRet (.accepted 2))),
    .right (.arrive [1]), .left (.conn .tau)]

/-- The server receives it, and the second one that arrives in the meantime; the poller reports once
more, since it was notified of the second one. -/
def readTwo : List (Machine.Turn WireAct) :=
  [.right (.conn (.deliver ⟨true, false, false, false⟩)), .right (.conn .dispatch),
    .right (.arrive [2]), .right (.conn (.recvRet (.data [1]))),
    .right (.conn (.recvRet (.data [2]))), .right (.conn (.recvRet (.error EAGAIN))),
    .right (.conn .tau), .right (.conn (.deliver ⟨false, false, false, false⟩)),
    .right (.conn .dispatch)]

/-- The client shuts its side, and the server sees the end of the stream. -/
def seesEnd : List (Machine.Turn WireAct) :=
  [.left (.conn .shutdown), .right (.finish .fin),
    .right (.conn (.deliver ⟨true, false, false, true⟩)), .right (.conn .dispatch),
    .right (.conn (.recvRet .eof))]

/-- Neither end has crashed, and their states pass the test. -/
def bothEnds (x : Peer × Peer) (f : St → St → Bool) : Bool :=
  match x.1.conn, x.2.conn with
  | .ok s, .ok t => f s t
  | _, _ => false

theorem of_bothEnds {x : Peer × Peer} {f : St → St → Bool} (h : bothEnds x f = true) :
    ∃ s t, x.1.conn = .ok s ∧ x.2.conn = .ok t ∧ f s t = true := by
  unfold bothEnds at h
  split at h
  · rename_i s t hs ht
    exact ⟨s, t, hs, ht, h⟩
  · cases h

theorem end_to_end_seesEnd : ∃ s t : St, .recvEof ∈ t.log ∧
    receivedBytes t.log = begunBytes s.log ∧ begunBytes s.log = [1, 2] := by
  obtain ⟨⟨p, q⟩, hx, hp⟩ := Machine.ReachIf.of_endsIn (M := linked .zeroed .linux)
    (G := Machine.Each (AtEnd NoResize) (AtEnd NoResize))
    (s := (.new (new none), .new (accepted 5 false)))
    (p := fun x => bothEnds x fun s t => .recvEof ∈ t.log ∧ begunBytes s.log = [1, 2] ∧
      s.log = s.log.take 4 ++ [Ev.shutWr] ∧ .moved .kDisconnecting ∈ s.log.take 4)
    (sendTwo ++ readTwo ++ seesEnd) (by decide +kernel) (by decide +kernel)
  obtain ⟨s, t, hs, ht, hp⟩ := of_bothEnds hp
  obtain ⟨h1, h2, h3, h4⟩ := of_decide_eq_true hp
  have hend := (end_to_end .client (.server 5 false) hx hs ht).2.2 h1
  exact ⟨s, t, h1, hend.2 ⟨_, [], h3, h4⟩, h2⟩

/-! ### At rest -/

/-- The poll's thread is outside the code of an established connection with room in its socket, and
nothing is pending in the poller or reported. -/
structure AtRest (s : St) (r : Rx) : Prop where
  state : s.state = .kConnected
  ctl : s.ctl = []
  delivered : s.delivered = none
  readReady : r.readReady = false
  writeReady : s.writeReady = false
  writable : s.writable = true

/-- The same as a test. -/
def St.atRest (s : St) (r : Rx) : Bool :=
  s.state = .kConnected && s.ctl = [] && s.delivered = none && !r.readReady && !s.writeReady &&
    s.writable

theorem atRest_iff {r : Rx} : s.atRest r = true ↔ AtRest s r := by
  simp only [St.atRest, Bool.and_eq_true, decide_eq_true_eq, Bool.not_eq_true']
  exact ⟨fun ⟨⟨⟨⟨⟨h1, h2⟩, h3⟩, h4⟩, h5⟩, h6⟩ => ⟨h1, h2, h3, h4, h5, h6⟩,
    fun ⟨h1, h2, h3, h4, h5, h6⟩ => ⟨⟨⟨⟨⟨h1, h2⟩, h3⟩, h4⟩, h5⟩, h6⟩⟩

/-- Nothing is left to write. -/
theorem AtRest.sent {r : Rx} (h : AtRest s r) (hI : Inv s) (hF : Flow s) :
    sentBytes s.log = begunBytes s.log := by
  obtain ⟨pre, ho, hm⟩ := hI.life.isUp h.state
  have hpending : s.pending = [] := by
    by_contra hne
    rcases (hF.interest ho.handle (by simp [hm])).served hne with h1 | ⟨x, h1, -⟩ | h1 | ⟨f, h1, -⟩
    · simp [h.writeReady] at h1
    · simp [h.delivered] at h1
    · simp [h.writable] at h1
    · simp [h.ctl] at h1
  have heq := hF.eq fun hfail => ho.handle (hF.failed hfail)
  have hflight : s.inFlight = [] := by simp [St.inFlight, h.ctl]
  rw [← heq, hpending, hflight, List.append_nil, List.append_nil]

/-- One direction. -/
theorem received_at_rest (h₁ : Init s₁) (h₂ : Init s₂)
    (h : (linked A K).ReachIf (Machine.Each (AtEnd NoResize) (AtEnd NoResize))
      (.new s₁, .new s₂) (p, q)) (hp : p.conn = .ok s) (hq : q.conn = .ok t)
    (hs : AtRest s p.rx) (ht : AtRest t q.rx) (hthere : q.rx.arrived = p.tx.sent) :
    receivedBytes t.log = begunBytes s.log := by
  have hrun := reach_of_linked h hp
  have hI : Inv s := inv_of_reach h₁ (hrun.mono fun _ _ hG => hG.1)
  have hw := wired_of_linked (Machine.pair_swap h)
  rw [hq] at hw
  have hshot : (wired A K).ReachIf (OnConn OneShot) (.ok s₂, .init) (.ok t, q.rx) := by
    refine hw.mono fun x w hG => ?_
    cases w with
    | conn a => exact hG.1
    | arrive | finish => trivial
  have hheard := heard_of_reach h₂ hshot
  have hrecv := (hheard.received_of_rest (accounted_of_reach h₂ hw) ht.state ht.ctl ht.delivered
    ht.readReady).1
  rw [hrecv, hthere, (streams_of_linked h₁ h₂ h).left.tx s hp, hs.sent hI (flow_of_reach h₁ hrun)]

/-- **Everything is delivered.**  In every run of two connections in which the buffers of a started
connection are not replaced, whenever both ends are established and at rest and the network has
nothing under way, each end has received every byte of every message that the other one has
begun. -/
theorem delivered_at_rest (h₁ : Init s₁) (h₂ : Init s₂)
    (h : (linked A K).ReachIf (Machine.Each (AtEnd NoResize) (AtEnd NoResize))
      (.new s₁, .new s₂) (p, q)) (hp : p.conn = .ok s) (hq : q.conn = .ok t)
    (hs : AtRest s p.rx) (ht : AtRest t q.rx) (hthere : q.rx.arrived = p.tx.sent)
    (hback : p.rx.arrived = q.tx.sent) :
    receivedBytes t.log = begunBytes s.log ∧ receivedBytes s.log = begunBytes t.log :=
  ⟨received_at_rest h₁ h₂ h hp hq hs ht hthere,
    received_at_rest h₂ h₁ (Machine.pair_swap h) hq hp ht hs hback⟩

theorem delivered_at_rest_sendTwo : ∃ s t : St, begunBytes s.log = [1, 2] ∧
    receivedBytes t.log = begunBytes s.log ∧ receivedBytes s.log = begunBytes t.log := by
  obtain ⟨⟨p, q⟩, hx, hp⟩ := Machine.ReachIf.of_endsIn (M := linked .zeroed .linux)
    (G := Machine.Each (AtEnd NoResize) (AtEnd NoResize))
    (s := (.new (new none), .new (accepted 5 false)))
    (p := fun x => bothEnds x fun s t =>
      begunBytes s.log = [1, 2] ∧ x.2.rx.arrived = x.1.tx.sent ∧ x.1.rx.arrived = x.2.tx.sent ∧
        s.atRest x.1.rx ∧ t.atRest x.2.rx)
    (sendTwo ++ readTwo) (by decide +kernel) (by decide +kernel)
  obtain ⟨s, t, hs, ht, hp⟩ := of_bothEnds hp
  obtain ⟨h1, h2, h3, h4, h5⟩ := of_decide_eq_true hp
  exact ⟨s, t, h1, delivered_at_rest .client (.server 5 false) hx hs ht (atRest_iff.1 h4)
    (atRest_iff.1 h5) h2 h3⟩

end

end Conn

end CxpNet
