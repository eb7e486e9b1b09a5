import CxpNet.Conn.Conduct
import CxpNet.Conn.Link

/-!
# A client that is used from several threads

The client of `examples/tcp_client` and `examples/chat_client`.  Its `send` may be called on any
thread and at any time: until the connection is established the message is kept in
`pending_messages_`, and the connected callback passes what was kept to `conn_->send`.  The check of
`connected()` and what follows from it are under `mutex_`, and the callback swaps the vector under
`mutex_`; the state of the connection changes without it.

* `Conn.asked_in_order` : what the connection has begun to send is a prefix of the messages in the
  order in which `send` has locked `mutex_`, and once the connected callback has returned, while the
  connection is established, no message is left behind;
* `Conn.asked_delivered` : the same of what the other end has received, and when both ends are at
  rest and no message is queued, it has received all of them.
-/

namespace CxpNet

namespace Conn

/-! ### The program -/

/-- Where `flush_pending_messages_` stands. -/
inductive Flush where
  /-- It has not swapped the vector. -/
  | waiting
  /-- The messages that it has still to look at. -/
  | sending (rest : List Msg)
  deriving DecidableEq

/-- The client, but for its connection. -/
structure Client where
  /-- `pending_messages_` -/
  pending : List Msg
  /-- The call of `send` that holds `mutex_`: the message, and what `connected()` has returned. -/
  caller : Option (Msg × Bool)
  flush : Flush
  /-- History: the messages in the order in which `send` has locked `mutex_`. -/
  asked : List Msg
  deriving DecidableEq

namespace Client

/-- The client as it is constructed. -/
def init : Client := ⟨[], none, .waiting, []⟩

/-- What the client lets happen to its connection.  `connect` is called with a connected callback,
which returns when `flush_pending_messages_` has; messages are sent as below.  The connection may be
shut down or closed at any time. -/
def does (c : Client) (s : St) : Act → Bool
  | .connect onConnected _ _ | .postConnect onConnected _ => onConnected
  | .ret =>
    match s.ctl with
    | .user .connected :: _ => c.flush = .sending []
    | _ => true
  | .send _ | .postSend _ | .connectSync _ | .destroy => false
  | _ => true

/-- The same for a step of the two ends. -/
def admits (c : Client) (p : Peer) : Machine.Turn WireAct → Bool
  | .left (.conn a) =>
    match p.conn with
    | .ok s => c.does s a
    | .error _ => false
  | _ => true

end Client

/-- The poll's thread is in the connected callback. -/
def St.inConnected (s : St) : Bool :=
  match s.ctl with
  | .user .connected :: _ => true
  | _ => false

/-- The steps of the client and of the two ends of its connection. -/
inductive ClientAct where
  | net (w : Machine.Turn WireAct)
  /-- `send` locks `mutex_` and calls `conn_->connected()`. -/
  | enter (m : Msg)
  /-- `send` does what follows from it, and unlocks `mutex_`. -/
  | leave
  /-- `flush_pending_messages_` swaps the vector. -/
  | swap
  /-- `flush_pending_messages_` looks at the next message. -/
  | pass
  deriving DecidableEq

/-- A client, its connection and the other end.  A client whose `conn_` is null behaves as one whose
connection is not established. -/
def typed (A : Allocator) (K : Kernel) : Machine (Client × (Peer × Peer)) ClientAct where
  step x a :=
    match x, a with
    | (c, z), .net w => if c.admits z.1 w then ((linked A K).step z w).map (c, ·) else none
    | (c, z), .enter m =>
      match z.1.conn, c.caller with
      | .ok s, none =>
        some ({ c with caller := some (m, s.state = .kConnected), asked := c.asked ++ [m] }, z)
      | _, _ => none
    | (c, z), .leave =>
      match c.caller with
      | none => none
      | some (m, true) =>
        ((linked A K).step z (.left (.conn (.postSend m)))).map ({ c with caller := none }, ·)
      | some (m, false) => some ({ c with caller := none, pending := c.pending ++ [m] }, z)
    | (c, z), .swap =>
      match z.1.conn, c.flush, c.caller with
      | .ok s, .waiting, none =>
        if s.inConnected then some ({ c with pending := [], flush := .sending c.pending }, z)
        else none
      | _, _, _ => none
    | (c, z), .pass =>
      match z.1.conn, c.flush with
      | .ok s, .sending (m :: rest) =>
        if s.inConnected then
          if s.state = .kConnected then
            ((linked A K).step z (.left (.conn (.send m)))).map
              ({ c with flush := .sending rest }, ·)
          else some ({ c with flush := .sending rest }, z)
        else none
      | _, _ => none

/-- `connect` is called once, and the buffers of a started connection are not replaced. -/
def ClientOk (x : Client × (Peer × Peer)) (a : ClientAct) : Prop :=
  match a with
  | .net w => Machine.Each (AtEnd NoResize) (AtEnd NoResize) x.2 w
  | _ => True

instance : ∀ x a, Decidable (ClientOk x a)
  | x, .net w =>
    inferInstanceAs (Decidable (Machine.Each (AtEnd NoResize) (AtEnd NoResize) x.2 w))
  | _, .enter _ | _, .leave | _, .swap | _, .pass => .isTrue trivial

section

variable {A : Allocator} {K : Kernel} {s₀ s s' t : St} {a : Act} {c c' : Client}
  {z z' : Peer × Peer}

/-! ### What a step can do -/

/-- A step of the client, given the connection before it. -/
inductive ClientStep (A : Allocator) (K : Kernel) (c : Client) (z : Peer × Peer) :
    ClientAct → Client → Peer × Peer → Prop
  | net {w : Machine.Turn WireAct} {z' : Peer × Peer} : c.admits z.1 w = true →
      (linked A K).step z w = some z' → ClientStep A K c z (.net w) c z'
  | enter {s : St} (m : Msg) : z.1.conn = .ok s → c.caller = none → ClientStep A K c z (.enter m)
      { c with caller := some (m, s.state = .kConnected), asked := c.asked ++ [m] } z
  | post {m : Msg} {z' : Peer × Peer} : c.caller = some (m, true) →
      (linked A K).step z (.left (.conn (.postSend m))) = some z' →
      ClientStep A K c z .leave { c with caller := none } z'
  | keep {m : Msg} : c.caller = some (m, false) → ClientStep A K c z .leave
      { c with caller := none, pending := c.pending ++ [m] } z
  | swap {s : St} : z.1.conn = .ok s → s.inConnected = true → c.flush = .waiting →
      c.caller = none → ClientStep A K c z .swap
        { c with pending := [], flush := .sending c.pending } z
  | send {s : St} {m : Msg} {rest : List Msg} {z' : Peer × Peer} : z.1.conn = .ok s →
      s.inConnected = true → s.state = .kConnected → c.flush = .sending (m :: rest) →
      (linked A K).step z (.left (.conn (.send m))) = some z' →
      ClientStep A K c z .pass { c with flush := .sending rest } z'
  | skip {s : St} {m : Msg} {rest : List Msg} : z.1.conn = .ok s → s.state ≠ .kConnected →
      c.flush = .sending (m :: rest) →
      ClientStep A K c z .pass { c with flush := .sending rest } z

theorem client_cases {b : ClientAct} (h : (typed A K).step (c, z) b = some (c', z')) :
    ClientStep A K c z b c' z' := by
  cases b with
  | net w =>
    simp only [typed] at h
    split_ifs at h with hall
    obtain ⟨z', hz, he⟩ := Option.map_eq_some_iff.1 h
    cases he
    exact .net hall hz
  | enter m =>
    simp only [typed] at h
    split at h
    · rename_i hs hc
      cases h
      exact .enter m hs hc
    · cases h
  | leave =>
    simp only [typed] at h
    split at h
    · cases h
    · rename_i hc
      obtain ⟨z', hz, he⟩ := Option.map_eq_some_iff.1 h
      cases he
      exact .post hc hz
    · rename_i hc
      cases h
      exact .keep hc
  | swap =>
    simp only [typed] at h
    split at h
    · rename_i hs hf hc
      split_ifs at h with hin
      cases h
      exact .swap hs hin hf hc
    · cases h
  | pass =>
    simp only [typed] at h
    split at h
    · rename_i hs hf
      split_ifs at h with hin hst
      · obtain ⟨z', hz, he⟩ := Option.map_eq_some_iff.1 h
        cases he
        exact .send hs hin hst hf hz
      · cases h
        exact .skip hs hst hf
    · cases h

/-- What the two ends do is a run of theirs. -/
theorem linked_of_typed {x₀ x : Client × (Peer × Peer)} (h : (typed A K).ReachIf ClientOk x₀ x) :
    (linked A K).ReachIf (Machine.Each (AtEnd NoResize) (AtEnd NoResize)) x₀.2 x.2 := by
  refine h.project fun x b x' hG hst => ?_
  have hcases : ClientStep A K x.1 x.2 b x'.1 x'.2 := client_cases hst
  generalize x'.1 = c', x'.2 = z' at hcases
  cases hcases with
  | net _ hz => exact .inr ⟨_, hG, hz⟩
  | post _ hz | send _ _ _ _ hz =>
    refine .inr ⟨_, ?_, hz⟩
    show NoResize x.2.1.conn _
    cases x.2.1.conn with
    | ok s => exact ⟨trivial, rfl⟩
    | error e => exact ⟨trivial, rfl⟩
  | enter | keep | swap | skip => exact .inl rfl

/-! ### What a step of the connection does to the messages -/

/-- The bytes that a closure has to send. -/
def Task.bytes : Task → List UInt8
  | .send m => m.bytes
  | _ => []

/-- The bytes of the messages that are queued on the poll. -/
def queued (ts : List Task) : List UInt8 := ts.flatMap Task.bytes

/-- The bytes of some messages. -/
def flat (ms : List Msg) : List UInt8 := ms.flatMap Msg.bytes

@[simp] theorem queued_nil : queued [] = [] := rfl

@[simp] theorem queued_cons (k : Task) (ts : List Task) :
    queued (k :: ts) = k.bytes ++ queued ts := rfl

@[simp] theorem queued_append (ts ts' : List Task) :
    queued (ts ++ ts') = queued ts ++ queued ts' := List.flatMap_append

@[simp] theorem flat_nil : flat [] = [] := rfl

@[simp] theorem flat_cons (m : Msg) (ms : List Msg) : flat (m :: ms) = m.bytes ++ flat ms := rfl

@[simp] theorem flat_append (ms ms' : List Msg) : flat (ms ++ ms') = flat ms ++ flat ms' :=
  List.flatMap_append

/-- Neither what was begun nor what is queued changes. -/
structure Keeping (s s' : St) : Prop where
  begun : begunBytes s'.log = begunBytes s.log
  queued : queued s'.tasks = queued s.tasks

theorem Silent.keeping (h : Silent s s') : Keeping s s' := by
  obtain ⟨⟨l, hl, hb⟩, ts, ht, hk⟩ := h
  have hts : queued ts = [] := List.flatMap_eq_nil_iff.2 fun k hk' => by
    have := hk k hk'
    cases k <;> first | rfl | cases this
  exact ⟨by rw [hl, begunBytes_append, begunBytes_of_noBegan hb, List.append_nil],
    by rw [ht, queued_append, hts, List.append_nil]⟩

/-- A call that sends nothing. -/
theorem keeping_of_step (hsend : ∀ m, a ≠ .send m) (hpost : ∀ m, a ≠ .postSend m)
    (hrun : ∀ r, a ≠ .runTask r) (h : s.step A K a = some (.ok s')) : Keeping s s' := by
  have posted : Keeping s (s.post .shutdown) := ⟨rfl, by simp [St.post, Task.bytes]⟩
  cases a with
  | send m => exact absurd rfl (hsend m)
  | postSend m => exact absurd rfl (hpost m)
  | runTask r => exact absurd rfl (hrun r)
  | shutdown =>
    simp only [St.step, St.userStep] at h
    split_ifs at h
    have h := Option.some.inj h
    unfold St.shutdown at h
    split_ifs at h
    · cases h
      exact ⟨rfl, rfl⟩
    · exact (Silent.shutdownInPoll h).keeping
  | postShutdown =>
    cases h
    split_ifs
    · exact ⟨rfl, rfl⟩
    · exact posted
  | serverShutdown =>
    simp only [St.step, St.otherStep] at h
    split_ifs at h
    cases h
    exact posted
  | _ => exact (Silent.step rfl h).keeping

/-- The next closure runs: its message is begun if the connection is established. -/
theorem begun_of_runTask {r : ConnectRet} (h : s.step A K (.runTask r) = some (.ok s')) :
    ∃ k rest, s.ctl = [] ∧ s.tasks = k :: rest ∧ queued s'.tasks = queued rest ∧
      begunBytes s'.log = begunBytes s.log ++ if s.state = .kConnected then k.bytes else [] := by
  simp only [St.step, St.otherStep] at h
  split at h
  · rename_i hctl _
    unfold St.runTask at h
    split at h
    · cases h
    · rename_i k rest hts
      refine ⟨k, rest, hctl, hts, ?_⟩
      have aside : k.bytes = [] → Silent { s with tasks := rest } s' →
          queued s'.tasks = queued rest ∧ begunBytes s'.log =
            begunBytes s.log ++ if s.state = .kConnected then k.bytes else [] := by
        intro hk hsil
        have := hsil.keeping
        simpa [hk] using And.intro this.queued this.begun
      cases k with
      | start b =>
        obtain ⟨t, ht, rfl⟩ := map_ok (Option.some.inj h)
        refine aside rfl ?_
        rw [St.callIf_eq]
        exact (Silent.start ht).trans (.callIf b .conn t)
      | connect =>
        cases h
        exact aside rfl (.startConnectInPoll r _)
      | send m =>
        rcases Silent.sendInPollThread (Option.some.inj h) with ⟨hs, rfl⟩ | ⟨hs, hsil⟩
        · have hs : s.state ≠ .kConnected := hs
          simp [hs]
        · have hs : s.state = .kConnected := hs
          refine ⟨hsil.keeping.queued, hsil.keeping.begun.trans ?_⟩
          simp [St.note, hs, begunBytes, Task.bytes]
      | shutdown => exact aside rfl (.shutdownInPoll (Option.some.inj h))
      | cleanup err =>
        cases h
        exact aside rfl (.cleanup err _)
      | release =>
        cases h
        exact aside rfl (.refl _)
  · cases h

/-- `conn_->send` in the connected callback. -/
theorem begun_of_send {m : Msg} (hs : s.state = .kConnected)
    (h : s.step A K (.send m) = some (.ok s')) :
    queued s'.tasks = queued s.tasks ∧ begunBytes s'.log = begunBytes s.log ++ m.bytes := by
  simp only [St.step, St.userStep] at h
  split_ifs at h
  have h := Option.some.inj h
  unfold St.send at h
  split_ifs at h with hno
  · cases h
    have hm : m.bytes = [] := hno.resolve_left fun h => h hs
    simp [hm]
  · rcases Silent.sendInPollThread h with ⟨hne, -⟩ | ⟨-, hsil⟩
    · exact absurd hs hne
    · refine ⟨hsil.keeping.queued, hsil.keeping.begun.trans ?_⟩
      simp [St.note, begunBytes]

/-- `conn_->send` on another thread. -/
theorem queued_of_post {m : Msg} (h : s.step A K (.postSend m) = some (.ok s')) :
    s' = s ∧ (s.state = .kConnected → m.bytes = []) ∨
      s.state = .kConnected ∧ s' = s.post (.send m) := by
  cases h
  split_ifs with hno
  · exact .inl ⟨rfl, fun hs => hno.resolve_left fun h => h hs⟩
  · rw [not_or, not_not] at hno
    exact .inr ⟨hno.1, rfl⟩

/-! ### The connected callback -/

/-- A connect has a connected callback, and is not synchronous. -/
def Act.joins : Act → Bool
  | .connect onConnected _ _ | .postConnect onConnected _ => onConnected
  | .connectSync _ => false
  | _ => true

theorem joins_of_does (h : c.does s a = true) : a.joins = true := by
  cases a with
  | connect | postConnect | connectSync => exact h
  | _ => rfl

/-- `on_connected_func_` is set by a connect. -/
theorem hook_step (h : Moves A s a s') (ha : a.joins = true) :
    s'.onConnected = s.onConnected ∧ s'.used = s.used ∨ s'.onConnected = true := by
  cases h with
  | stay | refused | setWritable | sockError | setCallbacks | setWatermark | setWatermarkCallback
  | setCloseTimeout | setBufferSize | post | stopTimers | extractTimer | fireTimer | destroy
  | deliver | ignore | dispatch | connectFails | dropTask | leave | beginWrite | endLow | endHigh
  | writeBlocked | interrupted | sentSome | received | recvAgain | recvEnd | consume =>
    exact .inl ⟨rfl, rfl⟩
  | postConnect => exact .inr ha
  | syncFails => cases ha
  | @connects _ r t hc =>
    have hsame : (t.startConnectInPoll r).onConnected = t.onConnected ∧
        (t.startConnectInPoll r).used = t.used := by
      rcases t.startConnectInPoll_eq r with ⟨err, he⟩ | ⟨h, w, he⟩ <;> rw [he]
      · rw [St.connectFailed_eq]
        exact ⟨rfl, rfl⟩
      · exact ⟨rfl, rfl⟩
    rw [hsame.1, hsame.2]
    cases hc with
    | user => exact .inr ha
    | task => exact .inl ⟨rfl, rfl⟩
  | starts hs hu =>
    left
    cases hs with
    | sync => cases ha
    | task | event =>
      rcases St.start_ok hu with ⟨rfl, -⟩ | ⟨-, r, w, wr, -, -, rfl⟩ <;> exact ⟨rfl, rfl⟩
  | closes hc hd =>
    obtain ⟨sch, ch, w, rel, he, -⟩ := St.cleanup_eq _ hd
    rw [he]
    cases hc <;> exact .inl ⟨rfl, rfl⟩
  | passes hc => cases hc <;> exact .inl ⟨rfl, rfl⟩
  | shuts hs _ _ _ hok =>
    left
    rcases St.shutdownInPoll_ok hok with rfl | ⟨-, -, -, ch, w, l, tid, nid, sch, -, rfl⟩ <;>
      cases hs <;> exact ⟨rfl, rfl⟩
  | @endClose rest =>
    obtain ⟨rel, he, -⟩ := St.releaseChannel_eq { s with ctl := rest }
    rw [he]
    exact .inl ⟨rfl, rfl⟩
  | drained _ _ _ hok =>
    left
    obtain ⟨b, -, ⟨-, rfl⟩ | ⟨-, c, c', w, -, -, -, -, -, rfl⟩⟩ := St.writeTail_ok hok <;>
      exact ⟨rfl, rfl⟩
  | wrote _ _ _ _ _ hok =>
    obtain ⟨b, b', -, -, fs, l, rfl, -⟩ := St.wrote_ok hok
    exact .inl ⟨rfl, rfl⟩
  | beginSend hs | dropSend hs => cases hs <;> exact .inl ⟨rfl, rfl⟩
  | queues hq hok =>
    left
    obtain ⟨b, b', u, -, -, hu, hok⟩ := St.enqueue_ok hok
    obtain ⟨c, c', w, -, rfl, -⟩ := St.addWriteEvent_ok hu
    rcases St.checkHigh_ok hok with rfl | rfl | rfl <;> cases hq with
    | behind hs => cases hs <;> exact ⟨rfl, rfl⟩
    | rest hend => cases hend <;> exact ⟨rfl, rfl⟩
  | sentAll hend _ hok =>
    left
    rcases St.checkHigh_ok hok with rfl | rfl | rfl <;> cases hend <;> exact ⟨rfl, rfl⟩

/-- **`handle_connect_event_`** and the other events: `on_connected_func_` is called if and only if
the connection is established. -/
theorem dispatch_calls (hI : Inv s) (h : Moves A s .dispatch s') :
    (s.state = .kConnecting ∧ s.used = true ∧ s'.state = .kConnected ∧
      s'.ctl = St.callFrames s.onConnected .connected) ∨
        (.user .connected ∉ s'.ctl ∧ (s'.state = s.state ∨ s'.state = .kDisconnected)) := by
  cases h with
  | stay hreq => cases hreq
  | refused hcon => cases hcon
  | post hp => cases hp
  | ignore _ hctl => exact .inr ⟨by simp [hctl], .inl rfl⟩
  | dispatch _ _ _ hfs =>
    refine .inr ⟨?_, .inl rfl⟩
    cases hfs with
    | close | write | read => split_ifs <;> simp
  | connectFails =>
    refine .inr ⟨?_, .inr rfl⟩
    unfold St.callFrames
    split_ifs <;> simp
  | connects hc => cases hc
  | starts hs hu =>
    cases hs with
    | event w e hctl hdel hst =>
      obtain ⟨hused, hhandle⟩ : s.used = true ∧ s.handle ≠ none := by
        cases hI.life with
        | connecting _ _ h1 _ h2 => exact ⟨h1, h2⟩
        | fresh hp | queued _ _ hp => simp [hp.state] at hst
        | dead _ _ _ h1 => exact absurd hst h1
        | up _ _ h1 | closing _ _ h1 | down _ _ h1 => simp [hst] at h1
      rcases St.start_ok hu with ⟨rfl, hno⟩ | ⟨-, r, b, wr, -, -, rfl⟩
      · rcases hno with hno | hno
        · exact absurd hno hhandle
        · simp [hst] at hno
      · exact .inl ⟨hst, hused, rfl, by simp [hctl]⟩
  | closes hc | passes hc => cases hc
  | shuts hs => cases hs
  | leave _ hl => cases hl
  | beginSend hs | dropSend hs => cases hs
  | queues hq =>
    cases hq with
    | behind hs => cases hs
    | rest hend => cases hend
  | sentAll hend => cases hend

/-- What the client's way of connecting ensures. -/
structure Joined (s : St) : Prop where
  start : ∀ b, .start b ∉ s.tasks
  hook : s.used = true → s.onConnected = true
  called : .user .connected ∈ s.ctl → .kConnected ∈ moves s.log

theorem Joined.step (h : Joined s) (hI : Inv s) (hI' : Inv s') (ha : a.joins = true)
    (hmove : Moves A s a s') : Joined s' := by
  obtain ⟨⟨gs, fs, rest, htrade⟩, htasks, -⟩ := step_conduct hmove
  refine ⟨fun b hb => ?_, fun hu => ?_, fun hmem => ?_⟩
  · rcases htasks _ hb with hb | hb
    · exact h.start b hb
    · exact hb
  · rcases hook_step hmove ha with ⟨h1, h2⟩ | h1
    · exact h1.trans (h.hook (h2 ▸ hu))
    · exact h1
  · rw [htrade.new, List.mem_append] at hmem
    rcases hmem with hmem | hmem
    · obtain rfl : a = .dispatch := htrade.entered _ hmem
      rcases dispatch_calls hI hmove with ⟨-, -, hs', -⟩ | ⟨hno, -⟩
      · obtain ⟨pre, -, he⟩ := hI'.life.isUp hs'
        simp [he]
      · exact absurd (htrade.new ▸ List.mem_append_left _ hmem) hno
    · obtain ⟨l, hl⟩ := log_step hmove
      rw [hl, moves_append]
      exact List.mem_append_left _ (h.called (htrade.old ▸ List.mem_append_right _ hmem))

/-- A connection becomes established once, and the connected callback is called then. -/
theorem Joined.established (h : Joined s) (hI : Inv s) (hI' : Inv s') (ha : a.joins = true)
    (hmove : Moves A s a s') (hs' : s'.state = .kConnected) : s.state = .kConnected ∨
      .kConnected ∉ moves s.log ∧ a = .dispatch ∧ s'.ctl = [.user .connected] := by
  by_cases hs : s.state = .kConnected
  · exact .inl hs
  obtain ⟨l, hl, hdue⟩ := step_records hmove
  have hm : .kConnected ∉ moves s.log := fun hm => by
    refine hI'.life.not_disconnecting hs' ?_
    rw [hl, moves_append]
    exact List.mem_append_left _ (hI.life.disconnecting_of_started hm hs)
  have hnew : .moved .kConnected ∈ l := by
    obtain ⟨pre, -, he⟩ := hI'.life.isUp hs'
    have hmem : .kConnected ∈ moves s'.log := by simp [he]
    rw [hl, moves_append, List.mem_append] at hmem
    exact mem_moves.1 (hmem.resolve_left hm)
  rcases hdue _ hnew with ⟨k, rfl⟩ | ⟨rfl, hst⟩ | ⟨r, b, rest, -, hts⟩
  · cases ha
  · rcases dispatch_calls hI hmove with ⟨-, hused, -, hctl⟩ | ⟨-, hsame | hdis⟩
    · exact .inr ⟨hm, rfl, by simp [hctl, St.callFrames, h.hook hused]⟩
    · exact absurd (hsame.symm.trans hs') hs
    · simp [hs'] at hdis
  · exact absurd (hts ▸ List.mem_cons_self ..) (h.start b)

/-! ### The order of the messages -/

/-- The message of the call that holds `mutex_`. -/
def held : Option (Msg × Bool) → List UInt8
  | none => []
  | some (m, _) => m.bytes

@[simp] theorem held_none : held none = [] := rfl

@[simp] theorem held_some (m : Msg) (b : Bool) : held (some (m, b)) = m.bytes := rfl

/-- Where the messages are. -/
inductive Ordered (c : Client) (s : St) : Prop
  /-- They are kept. -/
  | before : .kConnected ∉ moves s.log → begunBytes s.log = [] → queued s.tasks = [] →
      (∀ m b, c.caller = some (m, b) → b = false) → c.flush = .waiting →
      flat c.asked = flat c.pending ++ held c.caller → Ordered c s
  /-- The connection is established and the connected callback has not swapped the vector.  A call
  that has seen the connection before keeps its message; then no other call has come after it. -/
  | called : s.state = .kConnected → .user .connected ∈ s.ctl → begunBytes s.log = [] →
      c.flush = .waiting → (∀ m, c.caller = some (m, false) → queued s.tasks = []) →
      flat c.asked = flat c.pending ++ queued s.tasks ++ held c.caller → Ordered c s
  /-- It has swapped it: those that were kept go before those that are queued. -/
  | flushing (rest : List Msg) : s.state = .kConnected → c.flush = .sending rest →
      (rest = [] ∨ .user .connected ∈ s.ctl) → c.pending = [] →
      (∀ m b, c.caller = some (m, b) → b = true) →
      flat c.asked = begunBytes s.log ++ flat rest ++ queued s.tasks ++ held c.caller → Ordered c s
  /-- Nothing is begun any more. -/
  | ended : .kConnected ∈ moves s.log → s.state ≠ .kConnected →
      begunBytes s.log <+: flat c.asked → Ordered c s

/-- A step of the connection that the client lets happen. -/
theorem conn_effect (ha : c.does s a = true) (hst : s.step A K a = some (.ok s')) :
    Keeping s s' ∨ ∃ k rest, s.ctl = [] ∧ s.tasks = k :: rest ∧ queued s'.tasks = queued rest ∧
      begunBytes s'.log = begunBytes s.log ++ if s.state = .kConnected then k.bytes else [] := by
  by_cases hrun : ∃ r, a = .runTask r
  · obtain ⟨r, rfl⟩ := hrun
    exact .inr (begun_of_runTask hst)
  · refine .inl (keeping_of_step ?_ ?_ (fun r hr => hrun ⟨r, hr⟩) hst)
    · rintro m rfl
      cases ha
    · rintro m rfl
      cases ha

/-- The connected callback returns when `flush_pending_messages_` has. -/
theorem connected_stays (ha : c.does s a = true) (hmove : Moves A s a s')
    (hmem : .user .connected ∈ s.ctl) : .user .connected ∈ s'.ctl ∨ c.flush = .sending [] := by
  obtain ⟨⟨gs, fs, rest, htrade⟩, -, -⟩ := step_conduct hmove
  rw [htrade.old, List.mem_append] at hmem
  rcases hmem with hmem | hmem
  · right
    obtain rfl : a = .ret := htrade.ret _ hmem
    obtain ⟨g, rfl⟩ : ∃ g, gs = [g] := by
      match gs, htrade.one, hmem with
      | [g], _, _ => exact ⟨g, rfl⟩
    obtain rfl := List.mem_singleton.1 hmem
    simpa [Client.does, htrade.old] using ha
  · exact .inl (htrade.new ▸ List.mem_append_right _ hmem)

/-- **The connection goes on.** -/
theorem Ordered.conn (h : Ordered c s) (hj : Joined s) (hI : Inv s) (hI' : Inv s')
    (ha : c.does s a = true) (hst : s.step A K a = some (.ok s')) : Ordered c s' := by
  have hmove := step_cases hst
  have heffect := conn_effect ha hst
  have hest := hj.established hI hI' (joins_of_does ha) hmove
  have hmono : .kConnected ∈ moves s.log → .kConnected ∈ moves s'.log := fun hm => by
    obtain ⟨l, hl⟩ := log_step hmove
    rw [hl, moves_append]
    exact List.mem_append_left _ hm
  have hup : s.state = .kConnected → .kConnected ∈ moves s.log := fun hs => by
    obtain ⟨pre, -, he⟩ := hI.life.isUp hs
    simp [he]
  cases h with
  | before h1 h2 h3 h4 h5 h6 =>
    have hs : s.state ≠ .kConnected := fun hs => h1 (hup hs)
    -- nothing was passed to the connection yet, so a closure that runs sends nothing
    obtain ⟨hb, hq⟩ : begunBytes s'.log = [] ∧ queued s'.tasks = [] := by
      rcases heffect with hk | ⟨k, rest, -, hts, hq, hb⟩
      · exact ⟨hk.begun.trans h2, hk.queued.trans h3⟩
      · rw [hts, queued_cons, List.append_eq_nil_iff] at h3
        rw [if_neg hs, List.append_nil] at hb
        exact ⟨hb.trans h2, hq.trans h3.2⟩
    by_cases hs' : s'.state = .kConnected
    · obtain ⟨-, -, hctl⟩ := (hest hs').resolve_left hs
      exact .called hs' (by simp [hctl]) hb h5 (fun _ _ => hq) (by simp [h6, hq])
    · by_cases hm : .kConnected ∈ moves s'.log
      · exact .ended hm hs' (hb ▸ List.nil_prefix)
      · exact .before hm hb hq h4 h5 h6
  | called h1 h2 h3 h4 h5 h6 =>
    -- while its callback runs, the connection executes no closure
    obtain ⟨hb, hq⟩ : Keeping s s' := heffect.resolve_right fun ⟨k, rest, hnil, _⟩ => by
      simp [hnil] at h2
    by_cases hs' : s'.state = .kConnected
    · have hmem := (connected_stays ha hmove h2).resolve_right (by simp [h4])
      exact .called hs' hmem (hb.trans h3) h4 (fun m hm => hq.trans (h5 m hm)) (hq ▸ h6)
    · exact .ended (hmono (hup h1)) hs' ((hb.trans h3) ▸ List.nil_prefix)
  | flushing rest h1 h2 h3 h4 h5 h6 =>
    -- messages are left to send only while the callback runs
    have hframes : rest = [] ∨ .user .connected ∈ s'.ctl := by
      rcases h3 with h3 | h3
      · exact .inl h3
      · rcases connected_stays ha hmove h3 with hmem | hf
        · exact .inr hmem
        · rw [h2, Flush.sending.injEq] at hf
          exact .inl hf
    have heq : flat c.asked =
        begunBytes s'.log ++ flat rest ++ queued s'.tasks ++ held c.caller := by
      rcases heffect with hk | ⟨k, ts, hnil, hts, hq, hb⟩
      · rw [hk.begun, hk.queued, h6]
      · obtain rfl : rest = [] := h3.resolve_right (by simp [hnil])
        rw [if_pos h1] at hb
        rw [h6, hb, hq, hts, queued_cons]
        simp
    by_cases hs' : s'.state = .kConnected
    · exact .flushing rest hs' h2 hframes h4 h5 heq
    · refine .ended (hmono (hup h1)) hs' ?_
      rw [heq, List.append_assoc, List.append_assoc]
      exact List.prefix_append ..
  | ended h1 h2 h3 =>
    -- it is connected once
    have hs' : s'.state ≠ .kConnected := fun hs' => (hest hs').elim h2 fun hno => hno.1 h1
    refine .ended (hmono h1) hs' ?_
    rcases heffect with hk | ⟨k, rest, -, -, -, hb⟩
    · rw [hk.begun]
      exact h3
    · rw [hb, if_neg h2, List.append_nil]
      exact h3

/-- `send` passes its message on. -/
theorem Ordered.post {m : Msg} (h : Ordered c s) (hc : c.caller = some (m, true))
    (hst : s.step A K (.postSend m) = some (.ok s')) : Ordered { c with caller := none } s' := by
  cases h with
  | before _ _ _ h4 => cases h4 m true hc
  | called h1 h2 h3 h4 _ h6 =>
    rcases queued_of_post hst with ⟨rfl, hm⟩ | ⟨-, rfl⟩
    · exact .called h1 h2 h3 h4 (by simp) (by simp [h6, hc, hm h1])
    · refine .called h1 h2 h3 h4 (by simp) ?_
      simp [h6, hc, St.post, Task.bytes]
  | flushing rest h1 h2 h3 h4 _ h6 =>
    rcases queued_of_post hst with ⟨rfl, hm⟩ | ⟨-, rfl⟩
    · exact .flushing rest h1 h2 h3 h4 (by simp) (by simp [h6, hc, hm h1])
    · refine .flushing rest h1 h2 h3 h4 (by simp) ?_
      simp [h6, hc, St.post, Task.bytes]
  | ended h1 h2 h3 =>
    rcases queued_of_post hst with ⟨rfl, -⟩ | ⟨hs, -⟩
    · exact .ended h1 h2 h3
    · exact absurd hs h2

/-- `send` keeps its message. -/
theorem Ordered.keep {m : Msg} (h : Ordered c s) (hc : c.caller = some (m, false)) :
    Ordered { c with caller := none, pending := c.pending ++ [m] } s := by
  cases h with
  | before h1 h2 h3 _ h5 h6 =>
    exact .before h1 h2 h3 (by simp) h5 (by simp [h6, hc])
  | called h1 h2 h3 h4 h5 h6 =>
    exact .called h1 h2 h3 h4 (by simp) (by simp [h6, hc, h5 m hc])
  | flushing _ _ _ _ _ h5 => cases h5 m false hc
  | ended h1 h2 h3 => exact .ended h1 h2 h3

/-- `send` locks `mutex_`. -/
theorem Ordered.enter (m : Msg) (h : Ordered c s) (hI : Inv s) (hc : c.caller = none) :
    Ordered { c with caller := some (m, s.state = .kConnected), asked := c.asked ++ [m] } s := by
  cases h with
  | before h1 h2 h3 h4 h5 h6 =>
    have hs : s.state ≠ .kConnected := fun hs => by
      obtain ⟨pre, -, he⟩ := hI.life.isUp hs
      exact h1 (by simp [he])
    exact .before h1 h2 h3 (by simp [hs]) h5 (by simp [h6, hc])
  | called h1 h2 h3 h4 h5 h6 =>
    exact .called h1 h2 h3 h4 (by simp [h1]) (by simp [h6, hc])
  | flushing rest h1 h2 h3 h4 h5 h6 =>
    exact .flushing rest h1 h2 h3 h4 (by simp [h1]) (by simp [h6, hc])
  | ended h1 h2 h3 =>
    refine .ended h1 h2 ?_
    rw [flat_append]
    exact h3.trans (List.prefix_append ..)

/-- `flush_pending_messages_` swaps the vector. -/
theorem Ordered.swap (h : Ordered c s) (hj : Joined s) (hin : .user .connected ∈ s.ctl)
    (hf : c.flush = .waiting) (hc : c.caller = none) :
    Ordered { c with pending := [], flush := .sending c.pending } s := by
  cases h with
  | before h1 => exact absurd (hj.called hin) h1
  | called h1 h2 h3 _ _ h6 =>
    exact .flushing c.pending h1 rfl (.inr h2) rfl (by simp [hc]) (by simp [h6, h3, hc])
  | flushing rest _ h2 => simp [hf] at h2
  | ended h1 h2 h3 => exact .ended h1 h2 h3

/-- `flush_pending_messages_` passes the next message on. -/
theorem Ordered.send {m : Msg} {rest : List Msg} (h : Ordered c s) (hI : Inv s)
    (hin : .user .connected ∈ s.ctl) (hs : s.state = .kConnected)
    (hf : c.flush = .sending (m :: rest)) (hst : s.step A K (.send m) = some (.ok s')) :
    Ordered { c with flush := .sending rest } s' := by
  have hmove := step_cases hst
  obtain ⟨hq, hb⟩ := begun_of_send hs hst
  cases h with
  | before _ _ _ _ h5 => simp [hf] at h5
  | called _ _ _ h4 => simp [hf] at h4
  | flushing rest' _ h2 _ h4 h5 h6 =>
    rw [hf, Flush.sending.injEq] at h2
    subst h2
    have heq : flat c.asked =
        begunBytes s'.log ++ flat rest ++ queued s'.tasks ++ held c.caller := by
      rw [h6, hb, hq, flat_cons]
      simp
    by_cases hs' : s'.state = .kConnected
    · have hmem : .user .connected ∈ s'.ctl := by
        obtain ⟨⟨gs, fs, tl, htrade⟩, -, -⟩ := step_conduct hmove
        rw [htrade.old, List.mem_append] at hin
        rw [htrade.new, List.mem_append]
        exact hin.elim (fun hg => by cases htrade.ret _ hg) .inr
      exact .flushing rest hs' rfl (.inr hmem) h4 h5 heq
    · obtain ⟨pre, -, he⟩ := hI.life.isUp hs
      obtain ⟨l, hl⟩ := log_step hmove
      refine .ended (by simp [hl, moves_append, he]) hs' ?_
      rw [heq, List.append_assoc, List.append_assoc]
      exact List.prefix_append ..
  | ended _ h2 => exact absurd hs h2

/-- `flush_pending_messages_` drops the next message of a connection that is closed. -/
theorem Ordered.skip {rest : List Msg} (h : Ordered c s) (hs : s.state ≠ .kConnected)
    (hf : c.flush ≠ .waiting) : Ordered { c with flush := .sending rest } s := by
  cases h with
  | before _ _ _ _ h5 => exact absurd h5 hf
  | called h1 | flushing _ h1 => exact absurd h1 hs
  | ended h1 h2 h3 => exact .ended h1 h2 h3

/-! ### Whole runs -/

theorem mem_of_inConnected (h : s.inConnected = true) : .user .connected ∈ s.ctl := by
  unfold St.inConnected at h
  split at h
  · rename_i rest hctl
    simp [hctl]
  · cases h

/-- A step of the client's connection. -/
theorem conn_of_left (h : (linked A K).step z (.left (.conn a)) = some z')
    (hs' : z'.1.conn = .ok s') : ∃ s, z.1.conn = .ok s ∧ s.step A K a = some (.ok s') := by
  obtain ⟨p, hp, rfl⟩ := Option.map_eq_some_iff.1 h
  obtain ⟨-, hcases⟩ := peer_cases hp
  cases hcases with
  | crashes he =>
    obtain ⟨e, he⟩ := he
    exact absurd (he.symm.trans hs') (by simp)
  | @goes s t hs ht hw =>
    obtain rfl : t = s' := Except.ok.inj (ht.symm.trans hs')
    generalize p.rx = r' at hw
    cases hw with
    | conn _ hc => exact ⟨s, hs, machine_step hc⟩

/-- Any other step of the two ends. -/
theorem conn_of_other {w : Machine.Turn WireAct} (h : (linked A K).step z w = some z')
    (hw : ∀ a, w ≠ .left (.conn a)) (hs' : z'.1.conn = .ok s') : z.1.conn = .ok s' := by
  cases w with
  | right w =>
    obtain ⟨q, -, rfl⟩ := Option.map_eq_some_iff.1 h
    exact hs'
  | left w =>
    obtain ⟨p, hp, rfl⟩ := Option.map_eq_some_iff.1 h
    obtain ⟨-, hcases⟩ := peer_cases hp
    cases hcases with
    | crashes he =>
      obtain ⟨e, he⟩ := he
      exact absurd (he.symm.trans hs') (by simp)
    | @goes s t hs ht hstep =>
      obtain rfl : t = s' := Except.ok.inj (ht.symm.trans hs')
      generalize p.rx = r' at hstep
      cases hstep with
      | conn => exact absurd rfl (hw _)
      | arrive | finish => exact hs

/-- The client and its connection. -/
def Tracks (c : Client) (z : Peer × Peer) : Prop :=
  ∀ s, z.1.conn = .ok s → Joined s ∧ Ordered c s

theorem Tracks.step {b : ClientAct} (h : Tracks c z) (hI : ∀ s, z.1.conn = .ok s → Inv s)
    (hI' : ∀ s, z'.1.conn = .ok s → Inv s) (hst : ClientStep A K c z b c' z') :
    Tracks c' z' := by
  intro s' hs'
  cases hst with
  | @net w _ hall hz =>
    by_cases hw : ∃ a, w = .left (.conn a)
    · obtain ⟨a, rfl⟩ := hw
      obtain ⟨s, hs, hstep⟩ := conn_of_left hz hs'
      obtain ⟨hj, ho⟩ := h s hs
      have ha : c.does s a = true := by simpa [Client.admits, hs] using hall
      exact ⟨hj.step (hI s hs) (hI' s' hs') (joins_of_does ha) (step_cases hstep),
        ho.conn hj (hI s hs) (hI' s' hs') ha hstep⟩
    · exact h s' (conn_of_other hz (fun a ha => hw ⟨a, ha⟩) hs')
  | @enter s m hs hc =>
    obtain rfl : s = s' := Except.ok.inj (hs.symm.trans hs')
    exact ⟨(h s hs).1, (h s hs).2.enter m (hI s hs) hc⟩
  | post hc hz =>
    obtain ⟨s, hs, hstep⟩ := conn_of_left hz hs'
    obtain ⟨hj, ho⟩ := h s hs
    exact ⟨hj.step (hI s hs) (hI' s' hs') rfl (step_cases hstep), ho.post hc hstep⟩
  | keep hc => exact ⟨(h s' hs').1, (h s' hs').2.keep hc⟩
  | @swap s hs hin hf hc =>
    obtain rfl : s = s' := Except.ok.inj (hs.symm.trans hs')
    obtain ⟨hj, ho⟩ := h s hs
    exact ⟨hj, ho.swap hj (mem_of_inConnected hin) hf hc⟩
  | @send s m rest _ hs hin hup hf hz =>
    obtain ⟨t, ht, hstep⟩ := conn_of_left hz hs'
    obtain rfl : s = t := Except.ok.inj (hs.symm.trans ht)
    obtain ⟨hj, ho⟩ := h s hs
    exact ⟨hj.step (hI s hs) (hI' s' hs') rfl (step_cases hstep),
      ho.send (hI s hs) (mem_of_inConnected hin) hup hf hstep⟩
  | @skip s m rest hs hne hf =>
    obtain rfl : s = s' := Except.ok.inj (hs.symm.trans hs')
    exact ⟨(h s hs).1, (h s hs).2.skip hne (by simp [hf])⟩

/-- What was begun is a prefix of the messages. -/
theorem Ordered.begun (h : Ordered c s) : begunBytes s.log <+: flat c.asked := by
  cases h with
  | before _ h2 => exact h2 ▸ List.nil_prefix
  | called _ _ h3 => exact h3 ▸ List.nil_prefix
  | flushing _ _ _ _ _ _ h6 =>
    rw [h6, List.append_assoc, List.append_assoc]
    exact List.prefix_append ..
  | ended _ _ h3 => exact h3

/-- Once the connected callback has returned, no message is kept. -/
theorem Ordered.settled (h : Ordered c s) (hI : Inv s) (hs : s.state = .kConnected)
    (hout : .user .connected ∉ s.ctl) : c.pending = [] ∧
      flat c.asked = begunBytes s.log ++ queued s.tasks ++ held c.caller := by
  cases h with
  | before h1 =>
    obtain ⟨pre, -, he⟩ := hI.life.isUp hs
    exact absurd (by simp [he]) h1
  | called _ h2 => exact absurd h2 hout
  | flushing rest _ _ h3 h4 _ h6 =>
    obtain rfl := h3.resolve_right hout
    exact ⟨h4, by simpa using h6⟩
  | ended _ h2 => exact absurd hs h2

section

variable {s₂ : St} {p q : Peer}

theorem inv_of_typed {x : Client × (Peer × Peer)}
    (h : (typed A K).ReachIf ClientOk (.init, .new (new none), .new s₂) x)
    (hs : x.2.1.conn = .ok s) : Inv s := by
  have hrun := reach_of_linked (linked_of_typed h) hs
  exact inv_of_reach .client (hrun.mono fun _ _ hG => hG.1)

theorem tracks_of_reach {x : Client × (Peer × Peer)}
    (h : (typed A K).ReachIf ClientOk (.init, .new (new none), .new s₂) x) : Tracks x.1 x.2 := by
  refine h.invariant_of (I := fun x => Tracks x.1 x.2)
    (J := fun x => (typed A K).ReachIf ClientOk (.init, .new (new none), .new s₂) x)
    (fun _ hx => hx) (fun s hs => ?_) fun x b x' hx hT hG hst => ?_
  · cases hs
    exact ⟨⟨by simp [new], by simp [new], by simp [new]⟩,
      .before (by simp [new, moves]) rfl rfl (by simp [Client.init]) rfl rfl⟩
  · exact hT.step (fun s hs => inv_of_typed hx hs)
      (fun s hs => inv_of_typed (.tail hx hG hst) hs) (client_cases hst)

/-- **The order of the messages.**  In every run of a client whose `send` is called on any threads,
before and after the connection is established, and whose connection may be closed at any time:
what the connection has begun to send is a prefix of the messages in the order in which `send` has
locked `mutex_`; and while the connection is established and the connected callback has returned,
none of them is kept, and all of them were begun but for those that are queued on the poll and the
one of the call that holds `mutex_`. -/
theorem asked_in_order
    (h : (typed A K).ReachIf ClientOk (.init, .new (new none), .new s₂) (c, p, q))
    (hp : p.conn = .ok s) :
    begunBytes s.log <+: flat c.asked ∧
      (s.state = .kConnected → .user .connected ∉ s.ctl → c.pending = [] ∧
        flat c.asked = begunBytes s.log ++ queued s.tasks ++ held c.caller) := by
  obtain ⟨-, ho⟩ := tracks_of_reach h s hp
  exact ⟨ho.begun, ho.settled (inv_of_typed h hp)⟩

/-- A second message. -/
def three : Msg := ⟨[3], by decide⟩

/-- One message is sent before the connection is established; another one, by another thread, while
the connected callback is about to swap the vector. -/
def talks : List ClientAct :=
  [.net (.left (.conn (.postConnect true true))), .enter oneTwo, .leave,
    .net (.left (.conn (.runTask (.inProgress 7)))), .net (.right (.conn (.runTask .badAddress))),
    .net (.left (.conn (.setWritable true))), .net (.right (.conn (.setWritable true))),
    .net (.left (.conn (.deliver ⟨false, true, false, false⟩))), .net (.left (.conn .dispatch)),
    .enter three, .leave, .swap, .pass, .net (.left (.conn (.sendRet (.accepted 2)))),
    .net (.left (.conn .tau)), .net (.left (.conn .ret))]

theorem asked_in_order_talks : ∃ (c : Client) (s : St), flat c.asked = [1, 2, 3] ∧
    begunBytes s.log = [1, 2] ∧ queued s.tasks = [3] ∧ c.pending = [] ∧
    flat c.asked = begunBytes s.log ++ queued s.tasks ++ held c.caller := by
  obtain ⟨⟨c, p, q⟩, hx, hp⟩ := Machine.ReachIf.of_endsIn (M := typed .zeroed .linux)
    (G := ClientOk) (s := (.init, .new (new none), .new (accepted 5 false)))
    (p := fun x => bothEnds x.2 fun s _ => s.state = .kConnected ∧ s.ctl = [] ∧
      flat x.1.asked = [1, 2, 3] ∧ begunBytes s.log = [1, 2] ∧ queued s.tasks = [3])
    talks (by decide +kernel) (by decide +kernel)
  obtain ⟨s, t, hs, -, hp⟩ := of_bothEnds hp
  obtain ⟨h1, h2, h3, h4, h5⟩ := of_decide_eq_true hp
  obtain ⟨h6, h7⟩ := (asked_in_order hx hs).2 h1 (by simp [h2])
  exact ⟨c, s, h3, h4, h5, h6, h7⟩

/-- **Every line arrives.**  What the other end has received is a prefix of the messages that were
given to the client, in order; and when both ends are at rest, no message is queued, no call is in
`send` and nothing is under way, it is all of them. -/
theorem asked_delivered (h₂ : Init s₂)
    (h : (typed A K).ReachIf ClientOk (.init, .new (new none), .new s₂) (c, p, q))
    (hp : p.conn = .ok s) (hq : q.conn = .ok t) :
    receivedBytes t.log <+: flat c.asked ∧
      (AtRest s p.rx → AtRest t q.rx → s.tasks = [] → c.caller = none →
        q.rx.arrived = p.tx.sent → receivedBytes t.log = flat c.asked) := by
  obtain ⟨-, ho⟩ := tracks_of_reach h s hp
  have hlinked := linked_of_typed h
  have hI : Inv s := inv_of_typed h hp
  refine ⟨?_, fun hs ht htasks hcaller hall => ?_⟩
  · have hpre := (prefix_of_linked .client h₂ hlinked hp hq).1
    have hflow := flow_of_reach .client (reach_of_linked hlinked hp)
    exact (hpre.trans hflow.pre).trans ho.begun
  · have hrecv := received_at_rest .client h₂ hlinked hp hq hs ht hall
    obtain ⟨-, heq⟩ := ho.settled hI hs.state (by simp [hs.ctl])
    rw [hrecv, heq, htasks, hcaller]
    simp

/-- The second message is sent, and both arrive. -/
def arrives : List ClientAct :=
  [.net (.left (.conn (.runTask .badAddress))), .net (.left (.conn (.sendRet (.accepted 1)))),
    .net (.left (.conn .tau)), .net (.right (.arrive [1, 2, 3])),
    .net (.right (.conn (.deliver ⟨true, false, false, false⟩))), .net (.right (.conn .dispatch)),
    .net (.right (.conn (.recvRet (.data [1, 2, 3])))),
    .net (.right (.conn (.recvRet (.error EAGAIN)))), .net (.right (.conn .tau))]

theorem asked_delivered_talks : ∃ (c : Client) (t : St), c.asked = [oneTwo, three] ∧
    receivedBytes t.log = flat c.asked := by
  obtain ⟨⟨c, p, q⟩, hx, hp⟩ := Machine.ReachIf.of_endsIn (M := typed .zeroed .linux)
    (G := ClientOk) (s := (.init, .new (new none), .new (accepted 5 false)))
    (p := fun x => bothEnds x.2 fun s t => s.atRest x.2.1.rx ∧ t.atRest x.2.2.rx ∧
      s.tasks = [] ∧ x.1.caller = none ∧ x.2.2.rx.arrived = x.2.1.tx.sent ∧
      x.1.asked = [oneTwo, three])
    (talks ++ arrives) (by decide +kernel) (by decide +kernel)
  obtain ⟨s, t, hs, ht, hp⟩ := of_bothEnds hp
  obtain ⟨h1, h2, h3, h4, h5, h6⟩ := of_decide_eq_true hp
  exact ⟨c, t, h6, (asked_delivered (.server 5 false) hx hs ht).2 (atRest_iff.1 h1)
    (atRest_iff.1 h2) h3 h4 h5⟩

end

end

end Conn

end CxpNet
