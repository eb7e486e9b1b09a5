import CxpNet.Conn.Conduct
import CxpNet.Conn.Link

/-!
# The echo server

The echo server of `examples/echo_server`: its connection callback sets the message and the close
callback, its message callback sends what is in the buffer back and then calls `been_read_all`.
`Echo.does` says what this user code does in which state; everything else (the kernel, the poller,
the server's shutdown, the client) is arbitrary.

* `Conn.echo_exact` : in every run of an accepted connection of the echo server, what it has begun
  to send is a prefix of what it has received, and outside the connection's code it is exactly what
  it has received;
* `Conn.echo_round_trip` : a client that is linked to the echo server receives a prefix of what it
  has sent, and when both are at rest all of it.
-/

namespace CxpNet

namespace Conn

section

variable {A : Allocator} {K : Kernel} {s₀ s s' t : St} {a : Act}

/-! ### The program -/

/-- How many messages were begun. -/
def begins (l : List Ev) : ℕ := l.countP Ev.isBegan

/-- Every message callback so far has called `send`. -/
def St.answered (s : St) : Bool := begins s.log = messageCount s.log

/-- What the callbacks of the echo server do.  The connection callback calls
`set_conn_user_callbacks` and returns; the message callback calls `conn->send(msg)` with the
contents of the buffer, then `buffer->been_read_all()`, and returns; the close callback returns.
No other thread calls the connection. -/
def St.echoes (s : St) : Act → Bool
  | .setCallbacks onMessage onClose =>
    match s.ctl with
    | .user .conn :: _ => onMessage && onClose
    | _ => false
  | .send m =>
    match s.ctl with
    | .user .message :: _ => !s.answered && m.bytes = s.unread
    | _ => false
  | .consume k =>
    match s.ctl with
    | .user .message :: _ => s.answered && s.unread ≠ [] && k = s.unread.length
    | _ => false
  | .ret =>
    match s.ctl with
    | .user .conn :: _ => s.onMessage
    | .user .message :: _ => s.answered && s.unread = []
    | _ => true
  | .shutdown | .close | .connect _ _ _ | .connectSync _ | .setWatermark _ _
  | .setWatermarkCallback | .setCloseTimeout _ | .setBufferSize _ _ | .postSend _ | .postShutdown
  | .postClose | .postConnect _ _ => false
  | _ => true

/-- A step of a connection of the echo server. -/
def EchoOk (c : Except Crash St) (a : Act) : Prop :=
  match c with
  | .ok s => s.echoes a = true
  | .error _ => True

instance : ∀ c a, Decidable (EchoOk c a)
  | .ok s, a => inferInstanceAs (Decidable (s.echoes a = true))
  | .error _, _ => .isTrue trivial

theorem noResize_of_echoOk {c : Except Crash St} (h : EchoOk c a) : NoResize c a := by
  cases c with
  | error e => exact ⟨by cases a <;> trivial, by cases a <;> rfl⟩
  | ok s =>
    cases a with
    | connect | connectSync | postConnect | setBufferSize => cases h
    | _ => exact ⟨trivial, rfl⟩

/-- Where the echo server stands. -/
inductive Echoing (s : St) : Prop
  /-- Everything that was received has been answered. -/
  | idle : .user .message ∉ s.ctl → (∀ rest, s.ctl ≠ .readLoop true :: rest) →
      begins s.log = messageCount s.log → s.unread = [] →
      begunBytes s.log = receivedBytes s.log → Echoing s
  /-- The read handler has received something. -/
  | loop (rest : List Frame) : s.ctl = .readLoop true :: rest → .user .message ∉ rest →
      s.state = .kConnected → begins s.log = messageCount s.log → s.unread ≠ [] →
      begunBytes s.log ++ s.unread = receivedBytes s.log → Echoing s
  /-- The message callback was called and has not yet called `send`. -/
  | asked (rest : List Frame) : s.ctl = .user .message :: rest → .user .message ∉ rest →
      s.state = .kConnected → begins s.log + 1 = messageCount s.log → s.unread ≠ [] →
      begunBytes s.log ++ s.unread = receivedBytes s.log → Echoing s
  /-- The message callback has called `send`. -/
  | replied (fs rest : List Frame) : s.ctl = fs ++ .user .message :: rest →
      .user .message ∉ fs → (∀ b, .readLoop b ∉ fs) → .user .message ∉ rest →
      begins s.log = messageCount s.log → begunBytes s.log = receivedBytes s.log → Echoing s

/-- The echo server has prepared the connection. -/
structure Prepared (s : St) : Prop where
  tasks : ∀ k ∈ s.tasks, k ≠ .connect ∧ k ≠ .start false ∧ ∀ m, k ≠ .send m
  accepted : .moved .kConnecting ∉ s.log
  set : .kConnected ∈ moves s.log → s.onMessage = true ∨ .user .conn ∈ s.ctl

/-- `start_` of a connection with a connection callback. -/
theorem conn_called {r : ConnectRet} {rest : List Task} (h : Moves A s (.runTask r) s')
    (hts : s.tasks = .start true :: rest) : .user .conn ∈ s'.ctl := by
  cases h with
  | stay hreq => cases hreq
  | refused hcon => cases hcon
  | post hp => cases hp
  | connects hc =>
    cases hc with
    | task _ _ _ ht => simp [hts] at ht
  | starts hs hu =>
    cases hs with
    | task _ _ _ ht =>
      rw [hts, List.cons.injEq, Task.start.injEq] at ht
      simp [← ht.1, St.callFrames]
  | closes hc | passes hc =>
    cases hc with
    | task _ _ _ ht => simp [hts] at ht
  | shuts hs =>
    cases hs with
    | task _ _ _ ht => simp [hts] at ht
  | dropTask _ _ _ ht hd =>
    rw [hts, List.cons.injEq] at ht
    rw [← ht.1] at hd
    cases hd
  | leave _ hl => cases hl
  | beginSend hs | dropSend hs =>
    cases hs with
    | task _ _ _ ht => simp [hts] at ht
  | queues hq =>
    cases hq with
    | behind hs =>
      cases hs with
      | task _ _ _ ht => simp [hts] at ht
    | rest hend => cases hend
  | sentAll hend => cases hend

/-- An attempt to connect is recorded. -/
theorem moved_of_connecting (hI : Inv s) (hs : s.state = .kConnecting) :
    .moved .kConnecting ∈ s.log := by
  cases hI.life with
  | fresh hp | queued _ _ hp => simp [hp.state] at hs
  | connecting _ _ _ _ _ _ _ _ _ _ h9 => exact mem_moves.1 (by simp [h9])
  | dead _ _ _ h3 => exact absurd hs h3
  | up _ _ h1 | closing _ _ h1 | down _ _ h1 => simp [h1] at hs

theorem Prepared.step (h : Prepared s) (hI : Inv s) (hG : s.echoes a = true)
    (hst : Moves A s a s') : Prepared s' := by
  obtain ⟨⟨gs, fs, rest, hold, hnew, hone, hret, -⟩, htasks, hset⟩ := step_conduct hst
  obtain ⟨l, hl, hdue⟩ := step_records hst
  refine ⟨fun k hk => ?_, fun hm => ?_, fun hm => ?_⟩
  · rcases htasks k hk with hk | hk
    · exact h.tasks k hk
    · cases k with
      | send m =>
        obtain rfl : a = .postSend m := hk
        cases hG
      | connect =>
        obtain ⟨x, y, rfl⟩ := hk
        cases hG
      | start => exact hk.elim
      | shutdown | cleanup | release => simp
  · rw [hl, List.mem_append] at hm
    rcases hm with hm | hm
    · exact h.accepted hm
    · rcases hdue _ hm with ⟨x, y, r, rfl⟩ | ⟨r, rest, -, hts⟩
      · cases hG
      · exact (h.tasks .connect (by simp [hts])).1 rfl
  · rw [mem_moves, hl, List.mem_append] at hm
    rcases hm with hm | hm
    · rcases h.set (mem_moves.2 hm) with hon | hctl
      · rcases hset with he | ⟨c, rfl⟩
        · exact .inl (he.trans hon)
        · simp only [St.echoes] at hG
          split at hG
          · exact .inl (Bool.and_eq_true_iff.1 hG).1
          · cases hG
      · rw [hold, List.mem_append] at hctl
        rcases hctl with hg | hr
        · -- the connection callback returns
          obtain rfl := hret _ hg
          obtain ⟨g, rfl⟩ := List.length_eq_one_iff.1
            (le_antisymm hone (List.length_pos_of_mem hg))
          rw [List.mem_singleton] at hg
          rw [← hg] at hold
          simp only [St.echoes, hold, List.singleton_append] at hG
          rcases hset with he | ⟨c, hc⟩
          · exact .inl (he.trans hG)
          · cases hc
        · exact .inr (hnew ▸ List.mem_append_right _ hr)
    · rcases hdue _ hm with ⟨k, rfl⟩ | ⟨-, hs⟩ | ⟨r, b, rest, rfl, hts⟩
      · cases hG
      · exact absurd (moved_of_connecting hI hs) h.accepted
      · cases b with
        | true => exact .inr (conn_called hst hts)
        | false => exact absurd rfl (h.tasks (.start false) (by simp [hts])).2.1

/-! ### Steps that neither receive nor send nor consume -/

/-- Such a step. -/
def Act.isPlain : Act → Bool
  | .recvRet _ | .send _ | .consume _ | .setBufferSize _ _ => false
  | _ => true

/-- Nothing that the echo server counts has changed. -/
structure Unchanged (s s' : St) : Prop where
  begins : begins s'.log = begins s.log
  messages : messageCount s'.log = messageCount s.log
  begun : begunBytes s'.log = begunBytes s.log
  received : receivedBytes s'.log = receivedBytes s.log
  unread : s'.unread = s.unread

theorem unchanged_of_plain (h : Prepared s) (hst : Moves A s a s') (ha : a.isPlain = true) :
    Unchanged s s' := by
  obtain ⟨l, hl, hdue⟩ := step_records hst
  have hno : ∀ e ∈ l, e.isBegan = false ∧ e ≠ .called .message ∧ ∀ bs, e ≠ .received bs := by
    intro e he
    have hd := hdue e he
    cases e with
    | began bs =>
      obtain ⟨-, m, -, rfl | ⟨r, rest, -, hts⟩⟩ := hd
      · cases ha
      · exact absurd rfl ((h.tasks (.send m) (by simp [hts])).2.2 m)
    | received bs =>
      obtain rfl : a = .recvRet (.data bs) := hd
      cases ha
    | called cb =>
      cases cb with
      | message =>
        obtain ⟨r, rfl⟩ := hd
        cases ha
      | _ => simp [Ev.isBegan]
    | _ => simp [Ev.isBegan]
  have hcount : l.countP Ev.isBegan = 0 :=
    List.countP_eq_zero.2 fun e he => by simp [(hno e he).1]
  have hcalls : l.count (.called .message) = 0 :=
    List.count_eq_zero.2 fun he => (hno _ he).2.1 rfl
  refine ⟨?_, ?_, ?_, ?_, ?_⟩
  · rw [begins, hl, List.countP_append, hcount, Nat.add_zero, begins]
  · rw [messageCount, hl, List.count_append, hcalls, Nat.add_zero, messageCount]
  · rw [hl, begunBytes_append, begunBytes_of_noBegan fun e he => (hno e he).1, List.append_nil]
  · exact received_of_ne hst fun bs he => by simp [he, Act.isPlain] at ha
  · cases input_step hst with
    | aside hs => exact hs.unread_eq
    | resize | received | again | ends | consume => cases ha
    | enter _ _ _ hbuf => simp only [St.unread, hbuf]

/-- While a callback runs, other threads change neither the calls in progress nor the state. -/
theorem same_in_callback {cb : Callback} {rest : List Frame} (hctl : s.ctl = .user cb :: rest)
    (ha : a.isPlain = true) (hret : a ≠ .ret) (hG : s.echoes a = true)
    (hcb : cb ≠ .conn) (hst : s.step A K a = some (.ok s')) :
    s'.ctl = s.ctl ∧ s'.state = s.state := by
  cases a with
  | recvRet | send | consume | setBufferSize => cases ha
  | ret => exact absurd rfl hret
  | shutdown | close | connect | connectSync | setWatermark | setWatermarkCallback
  | setCloseTimeout | postSend | postShutdown | postClose | postConnect => cases hG
  | setCallbacks =>
    simp only [St.echoes, hctl] at hG
    split at hG
    · rename_i heq
      rw [List.cons.injEq, Frame.user.injEq] at heq
      exact absurd heq.1 hcb
    · cases hG
  | tau | sendRet | deliver | dispatch | runTask | destroy =>
    simp [St.step, St.tau, St.sendRet, St.otherStep, hctl] at hst
  | setWritable | sockError | stopTimers =>
    cases hst
    exact ⟨rfl, rfl⟩
  | serverShutdown | serverCleanup | extractTimer | fireTimer =>
    simp only [St.step, St.otherStep] at hst
    split_ifs at hst
    cases hst
    exact ⟨rfl, rfl⟩

/-- A message is begun by `send`, unless it is not carried out. -/
theorem send_cases {m : Msg} (h : Moves A s (.send m) s') : s' = s ∨
    ∃ fs l, s'.ctl = fs ++ s.ctl ∧ (∀ f ∈ fs, f.isCommon = true) ∧
      s'.log = s.log ++ Ev.began m.bytes :: l ∧ (∀ e ∈ l, e.isNeutral = true) ∧
      s'.readBuffer = s.readBuffer := by
  cases h with
  | stay => exact .inl rfl
  | refused hcon => cases hcon
  | post hp => cases hp
  | connects hc => cases hc
  | starts hs => cases hs
  | closes hc | passes hc => cases hc
  | shuts hs => cases hs
  | leave _ hl => cases hl
  | beginSend hs =>
    cases hs with
    | user => exact .inr ⟨[.sendLoop m 0], [], rfl, by simp [Frame.isCommon], rfl, by simp, rfl⟩
  | dropSend hs =>
    cases hs with
    | user => exact .inr ⟨[], [], rfl, by simp, rfl, by simp, rfl⟩
  | queues hq hok =>
    cases hq with
    | behind hs =>
      cases hs with
      | user =>
        obtain ⟨fs, h1, h2, -, -⟩ := common_enqueue hok
        obtain ⟨l, h3, h4⟩ := neutral_enqueue hok
        obtain ⟨-, -, -, -, -, -, h5⟩ := enqueue_aside hok
        exact .inr ⟨fs, l, h1, h2, by simpa using h3, h4, h5⟩
    | rest hend => cases hend
  | sentAll hend => cases hend

/-- What `::recv` does. -/
theorem recv_cases {r : RecvRet} (h : Moves A s (.recvRet r) s') :
    ∃ hasNewData rest b₀ b, s.ctl = .readLoop hasNewData :: rest ∧ s.state = .kConnected ∧
      s.readBuffer = some b₀ ∧ St.makeRoom A b₀ = .done b ∧
      ((∃ bs b', r = .data bs ∧ bs ≠ [] ∧ bs.length ≤ b.writableSize ∧ b.fill bs = .done b' ∧
          s' = { s with
            readBuffer := some b'
            ctl := .readLoop true :: rest
            log := s.log ++ [.received bs] }) ∨
        (∃ e, r = .error e ∧
          s' = { s with readBuffer := some b, errno := e, log := s.log ++ [.recvError e] }) ∨
        ∃ ev shouldClose err e, RecvEnd r ev shouldClose err ∧
          s' = { s with
            readBuffer := some b, errno := e
            ctl := St.callFrames (hasNewData && s.onMessage) .message ++
              .afterMessage shouldClose err :: rest
            log := s.log ++ [ev] ++ St.callLog (hasNewData && s.onMessage) .message }) := by
  cases h with
  | stay hreq => cases hreq
  | refused hcon => cases hcon
  | post hp => cases hp
  | connects hc => cases hc
  | starts hs => cases hs
  | closes hc | passes hc => cases hc
  | shuts hs => cases hs
  | leave _ hl => cases hl
  | beginSend hs | dropSend hs => cases hs
  | queues hq =>
    cases hq with
    | behind hs => cases hs
    | rest hend => cases hend
  | sentAll hend => cases hend
  | received hctl hs hb hroom hne hle hfill =>
    exact ⟨_, _, _, _, hctl, hs, hb, hroom, .inl ⟨_, _, rfl, hne, hle, hfill, rfl⟩⟩
  | recvAgain e hctl hs hb hroom =>
    exact ⟨_, _, _, _, hctl, hs, hb, hroom, .inr (.inl ⟨e, rfl, rfl⟩)⟩
  | recvEnd e hctl hs hb hroom hend =>
    exact ⟨_, _, _, _, hctl, hs, hb, hroom, .inr (.inr ⟨_, _, _, e, hend, rfl⟩)⟩

/-! ### The echo server goes on -/

theorem Trades.no_message {gs fs rest : List Frame} (h : Trades s a s' gs fs rest)
    (ha : a.isPlain = true) : .user .message ∉ fs ∧ .readLoop true ∉ fs := by
  constructor
  · intro hf
    obtain ⟨r, rfl⟩ := h.entered _ hf
    cases ha
  · intro hf
    rcases h.entered _ hf with ⟨-, he⟩ | ⟨bs, rfl⟩
    · cases he
    · cases ha

/-- A loop is not left behind. -/
theorem Trades.no_loop {gs fs rest : List Frame} (h : Trades s a s' gs fs rest)
    (hw : WellStacked s.ctl) (ha : a.isPlain = true)
    (hno : ∀ rest, s.ctl ≠ .readLoop true :: rest) :
    ∀ rest, s'.ctl ≠ .readLoop true :: rest := by
  intro rest' he
  rw [h.new] at he
  cases fs with
  | cons f fs =>
    rw [List.cons_append, List.cons.injEq] at he
    exact (h.no_message ha).2 (he.1 ▸ List.mem_cons_self ..)
  | nil =>
    cases gs with
    | nil => exact hno rest' (h.old.trans he)
    | cons g gs =>
      have hmem : .readLoop true ∈ s.ctl.tail := by
        rw [h.old, List.cons_append, List.tail_cons]
        exact List.mem_append_right _ ((List.nil_append rest ▸ he) ▸ List.mem_cons_self ..)
      have := hw.noLoop _ hmem
      cases this

theorem ctl_of_dispatch (h : s.step A K .dispatch = some (.ok s')) : s.ctl = [] := by
  simp only [St.step, St.otherStep] at h
  split at h
  · assumption
  · cases h

theorem Echoing.plain (h : Echoing s) (hp : Prepared s) (hw : WellStacked s.ctl)
    (hG : s.echoes a = true) (ha : a.isPlain = true) (hst : s.step A K a = some (.ok s')) :
    Echoing s' := by
  have hmove := step_cases hst
  obtain ⟨⟨gs, fs, rest, htrade⟩, -, -⟩ := step_conduct hmove
  obtain ⟨hb, hm, hbegun, hrecv, hunread⟩ := unchanged_of_plain hp hmove ha
  obtain ⟨hno, hnoloop⟩ := htrade.no_message ha
  cases h with
  | idle h1 h2 h3 h4 h5 =>
    refine .idle (fun hmem => ?_) (htrade.no_loop hw ha h2) (by rw [hb, hm, h3])
      (hunread.trans h4) (by rw [hbegun, hrecv, h5])
    rw [htrade.new, List.mem_append] at hmem
    rcases hmem with hmem | hmem
    · exact hno hmem
    · exact h1 (htrade.old ▸ List.mem_append_right _ hmem)
  | loop rest' h1 h2 h3 h4 h5 h6 =>
    obtain ⟨hctl, hstate⟩ : s'.ctl = s.ctl ∧ s'.state = s.state := by
      cases input_step hmove with
      | aside hs =>
        rcases hs.loop true rest' h1 with ⟨hne, -⟩ | ⟨hctl, hstate, -⟩
        · exact absurd h3 hne
        · exact ⟨hctl, hstate⟩
      | enter hnil => simp [h1] at hnil
      | resize | received | again | ends | consume => cases ha
    exact .loop rest' (hctl.trans h1) h2 (hstate.trans h3) (by rw [hb, hm, h4])
      (hunread ▸ h5) (by rw [hbegun, hrecv, hunread, h6])
  | asked rest' h1 h2 h3 h4 h5 h6 =>
    have hret : a ≠ .ret := by
      rintro rfl
      simp only [St.echoes, h1, St.answered, Bool.and_eq_true, decide_eq_true_eq] at hG
      omega
    obtain ⟨hctl, hstate⟩ := same_in_callback h1 ha hret hG (by simp) hst
    exact .asked rest' (hctl.trans h1) h2 (hstate.trans h3) (by rw [hb, hm, h4])
      (hunread ▸ h5) (by rw [hbegun, hrecv, hunread, h6])
  | replied fs' rest' h1 h2 h3 h4 h5 h6 =>
    have hdisp : ∀ b, .readLoop b ∉ fs := by
      intro b hf
      rcases htrade.entered _ hf with ⟨rfl, -⟩ | ⟨bs, rfl⟩
      · simp [ctl_of_dispatch hst] at h1
      · cases ha
    cases gs with
    | nil =>
      refine .replied (fs ++ fs') rest' ?_ ?_ ?_ h4 (by rw [hb, hm, h5])
        (by rw [hbegun, hrecv, h6])
      · rw [htrade.new, List.append_assoc, ← h1]
        exact congrArg _ htrade.old.symm
      · simp [hno, h2]
      · simp [hdisp, h3]
    | cons g gs =>
      have hgs : gs = [] := List.length_eq_zero_iff.1 (by have := htrade.one; simpa using this)
      subst hgs
      have hold := htrade.old
      rw [h1] at hold
      cases fs' with
      | nil =>
        -- the message callback returns
        rw [List.nil_append, List.singleton_append, List.cons.injEq] at hold
        obtain ⟨rfl, rfl⟩ := hold
        obtain rfl := htrade.ret .message (by simp)
        simp only [St.echoes, h1, List.nil_append, Bool.and_eq_true, decide_eq_true_eq] at hG
        refine .idle ?_ (htrade.no_loop hw ha fun rest he => ?_) (by rw [hb, hm, h5])
          (hunread.trans hG.2) (by rw [hbegun, hrecv, h6])
        · rw [htrade.new]
          simp [hno, h4]
        · simp [h1] at he
      | cons f fs' =>
        rw [List.cons_append, List.singleton_append, List.cons.injEq] at hold
        obtain ⟨rfl, rfl⟩ := hold
        refine .replied (fs ++ fs') rest' ?_ ?_ ?_ h4 (by rw [hb, hm, h5])
          (by rw [hbegun, hrecv, h6])
        · rw [htrade.new, List.append_assoc]
        · simp only [List.mem_cons, not_or] at h2
          simp [hno, h2.2]
        · simp only [List.mem_cons, not_or] at h3
          simp [hdisp, h3]

theorem begins_append (l l' : List Ev) : begins (l ++ l') = begins l + begins l' :=
  List.countP_append

theorem messageCount_append (l l' : List Ev) :
    messageCount (l ++ l') = messageCount l + messageCount l' :=
  List.count_append

theorem counts_of_neutral {l : List Ev} (h : ∀ e ∈ l, e.isNeutral = true) : begins l = 0 ∧
    messageCount l = 0 ∧ begunBytes l = [] ∧ receivedBytes l = [] := by
  have hno : ∀ e ∈ l, e.isBegan = false := fun e he => by
    have := h e he
    cases e with
    | began => cases this
    | _ => rfl
  refine ⟨List.countP_eq_zero.2 fun e he => by simp [hno e he], ?_, begunBytes_of_noBegan hno, ?_⟩
  · refine List.count_eq_zero.2 fun he => ?_
    have := h _ he
    cases this
  · rw [receivedBytes, List.flatMap_eq_nil_iff]
    intro e he
    have := h e he
    cases e with
    | received => cases this
    | _ => rfl

theorem Echoing.send {m : Msg} (h : Echoing s) (hG : s.echoes (.send m) = true)
    (hst : Moves A s (.send m) s') : Echoing s' := by
  rcases send_cases hst with rfl | ⟨fs, l, hctl, hfs, hlog, hl, hbuf⟩
  · exact h
  simp only [St.echoes] at hG
  split at hG
  swap
  · cases hG
  rename_i rest hold
  simp only [St.answered, Bool.and_eq_true, Bool.not_eq_true', decide_eq_false_iff_not,
    decide_eq_true_eq] at hG
  obtain ⟨hna, hbytes⟩ := hG
  cases h with
  | idle h1 => exact absurd (by simp [hold]) h1
  | loop _ h1 => simp [hold] at h1
  | replied _ _ _ _ _ _ h5 => exact absurd h5 hna
  | asked rest' h1 h2 h3 h4 h5 h6 =>
    obtain ⟨hb, hm, hbegun, hrecv⟩ := counts_of_neutral hl
    have hno : ∀ f ∈ fs, f ≠ .user .message ∧ ∀ b, f ≠ .readLoop b := fun f hf => by
      have := hfs f hf
      constructor
      · rintro rfl
        cases this
      · rintro b rfl
        cases this
    have hlog' : s'.log = s.log ++ ([Ev.began m.bytes] ++ l) := by simpa using hlog
    refine .replied fs rest' (by rw [hctl, h1]) (fun hf => (hno _ hf).1 rfl)
      (fun b hf => (hno _ hf).2 b rfl) h2 ?_ ?_
    · rw [hlog', begins_append, begins_append, hb, messageCount_append, messageCount_append, hm]
      exact h4
    · rw [hlog', begunBytes_append, begunBytes_append, hbegun, receivedBytes_append,
        receivedBytes_append, hrecv, ← h6]
      simp [begunBytes, receivedBytes, hbytes]

theorem Echoing.consume {k : ℕ} (h : Echoing s) (hG : s.echoes (.consume k) = true)
    (hst : Moves A s (.consume k) s') : Echoing s' := by
  simp only [St.echoes] at hG
  split at hG
  swap
  · cases hG
  rename_i rest hold
  simp only [St.answered, Bool.and_eq_true, decide_eq_true_eq] at hG
  cases input_step hst with
  | aside _ hne => exact absurd rfl (hne k)
  | consume =>
    cases h with
    | idle h1 => exact absurd (by simp [hold]) h1
    | loop _ h1 => simp [hold] at h1
    | asked _ _ _ _ h4 => omega
    | replied fs rest' h1 h2 h3 h4 h5 h6 => exact .replied fs rest' h1 h2 h3 h4 h5 h6

/-- The read handler is not running inside a callback. -/
theorem Echoing.of_loop {b : Bool} {rest : List Frame} (h : Echoing s)
    (hctl : s.ctl = .readLoop b :: rest) : .user .message ∉ rest ∧
      begins s.log = messageCount s.log ∧ (b = false → s.unread = []) ∧ (b = true → s.unread ≠ []) ∧
      begunBytes s.log ++ s.unread = receivedBytes s.log := by
  cases h with
  | idle h1 h2 h3 h4 h5 =>
    refine ⟨fun hm => h1 (by simp [hctl, hm]), h3, fun _ => h4, ?_, by rw [h4, List.append_nil, h5]⟩
    rintro rfl
    exact absurd hctl (h2 rest)
  | loop _ h1 h2 h3 h4 h5 h6 =>
    rw [hctl, List.cons.injEq, Frame.readLoop.injEq] at h1
    obtain ⟨rfl, rfl⟩ := h1
    exact ⟨h2, h4, by simp, fun _ => h5, h6⟩
  | asked _ h1 => simp [hctl] at h1
  | replied fs _ h1 _ h3 =>
    cases fs with
    | nil => simp [hctl] at h1
    | cons f fs =>
      rw [hctl, List.cons_append, List.cons.injEq] at h1
      exact absurd (h1.1 ▸ List.mem_cons_self ..) (h3 b)

theorem Echoing.recv {r : RecvRet} (h : Echoing s) (hp : Prepared s) (hI : Inv s)
    (hw : WellStacked s.ctl) (hwf : ∀ b ∈ s.readBuffer, b.WF) (hst : Moves A s (.recvRet r) s') :
    Echoing s' := by
  obtain ⟨hasNewData, rest, b₀, b, hctl, hs, hb, hroom, hcases⟩ := recv_cases hst
  obtain ⟨hno, hcount, hnone, hsome, heq⟩ := h.of_loop hctl
  obtain ⟨hwf', hread, -⟩ := makeRoom_done (hwf b₀ hb) hroom
  have hunread : s.unread = b.readable := by simp [St.unread, hb, hread]
  have hstack := hw.stacked
  rw [hctl] at hstack
  rcases hcases with ⟨bs, b', rfl, hne, hle, hfill, rfl⟩ | ⟨e, rfl, rfl⟩ |
    ⟨ev, shouldClose, err, e, hend, rfl⟩
  · -- the bytes are appended to those that the callback has not seen
    obtain ⟨b₁, h1, -, hread'⟩ := hwf'.fill hle
    rw [h1] at hfill
    cases hfill
    have hun : St.unread { s with
        readBuffer := some b', ctl := .readLoop true :: rest, log := s.log ++ [Ev.received bs] } =
        s.unread ++ bs := by
      rw [hunread]
      exact hread'
    refine .loop rest rfl hno hs ?_ ?_ ?_
    · rw [begins_append, messageCount_append, hcount]
      rfl
    · rw [hun]
      simp [hne]
    · rw [hun, begunBytes_append, receivedBytes_append, ← heq]
      simp [begunBytes, receivedBytes]
  · have hun : St.unread { s with
        readBuffer := some b, errno := e, log := s.log ++ [Ev.recvError e] } = s.unread :=
      hunread.symm
    have hb : begins (s.log ++ [Ev.recvError e]) = messageCount (s.log ++ [Ev.recvError e]) := by
      rw [begins_append, messageCount_append, hcount]
      rfl
    have heq' : begunBytes (s.log ++ [Ev.recvError e]) ++ s.unread =
        receivedBytes (s.log ++ [Ev.recvError e]) := by
      rw [begunBytes_append, receivedBytes_append, ← heq]
      simp [begunBytes, receivedBytes]
    cases hasNewData with
    | true => exact .loop rest hctl hno hs hb (hun ▸ hsome rfl) (hun ▸ heq')
    -- nothing was received yet: it is as if the loop had not begun
    | false =>
      refine .idle (by simp [hctl, hno]) (by simp [hctl]) hb (hun.trans (hnone rfl)) ?_
      rwa [hnone rfl, List.append_nil] at heq'
  · have hev : begins [ev] = 0 ∧ messageCount [ev] = 0 ∧ begunBytes [ev] = [] ∧
        receivedBytes [ev] = [] := by
      cases hend <;> exact ⟨rfl, rfl, rfl, rfl⟩
    obtain ⟨hev1, hev2, hev3, hev4⟩ := hev
    cases hasNewData with
    | false =>
      refine .idle (by simp [St.callFrames, hno]) (by simp [St.callFrames]) ?_
        (hunread.symm.trans (hnone rfl)) ?_
      · simp [St.callLog, begins_append, messageCount_append, hev1, hev2, hcount]
      · rw [hnone rfl, List.append_nil] at heq
        simp [St.callLog, hev3, hev4, heq]
    | true =>
      obtain ⟨pre, -, hm⟩ := hI.life.isUp hs
      -- a message callback is set since the connection was established
      have hon : s.onMessage = true := by
        refine (hp.set (by simp [hm])).resolve_right fun hmem => ?_
        rw [hctl] at hmem
        rcases hstack with rfl | ⟨err, rfl⟩ | rfl <;> simp at hmem
      refine .asked (.afterMessage shouldClose err :: rest) (by simp [St.callFrames, hon])
        (by simp [hno]) hs ?_ (fun hnil => hsome rfl (hunread.trans hnil)) ?_
      · simp only [St.callLog, hon, Bool.and_true, if_true, begins_append, messageCount_append,
          hev1, hev2, hcount]
        rfl
      · have hun : s.unread = b.readable := hunread
        simp only [begunBytes_append, receivedBytes_append, hev3, hev4, List.append_nil,
          receivedBytes_callLog, ← heq, hun]
        simp [St.callLog, hon, begunBytes, St.unread]

/-! ### Whole runs -/

/-- Every operation leaves a well-formed read buffer. -/
theorem wf_of_reach (h₀ : Init s₀) (h : (machine A K).ReachIf NoResize (.ok s₀) (.ok s)) :
    ∀ b ∈ s.readBuffer, b.WF := by
  obtain ⟨x, hx⟩ := h.recorded (f := readsNext) Reads.init
  exact (intake_of_reach h₀ hx).wf

theorem Echoing.step (h : Echoing s) (hp : Prepared s) (hI : Inv s) (hw : WellStacked s.ctl)
    (hwf : ∀ b ∈ s.readBuffer, b.WF) (hG : s.echoes a = true)
    (hst : s.step A K a = some (.ok s')) : Echoing s' := by
  have hmove := step_cases hst
  by_cases ha : a.isPlain = true
  · exact h.plain hp hw hG ha hst
  · cases a with
    | recvRet => exact h.recv hp hI hw hwf hmove
    | send => exact h.send hG hmove
    | consume => exact h.consume hG hmove
    | setBufferSize => cases hG
    | _ => exact absurd rfl ha

theorem echoing_of_reach {k : ℕ}
    (h : (machine A K).ReachIf EchoOk (.ok (accepted k true)) (.ok s)) :
    Prepared s ∧ Echoing s := by
  have hno : ∀ s, (machine A K).ReachIf EchoOk (.ok (accepted k true)) (.ok s) →
      (machine A K).ReachIf NoResize (.ok (accepted k true)) (.ok s) := fun s hr =>
    hr.mono fun _ _ hG => noResize_of_echoOk hG
  refine invariant_ok (I := fun s => Prepared s ∧ Echoing s)
    (J := fun s => Inv s ∧ WellStacked s.ctl ∧ ∀ b ∈ s.readBuffer, b.WF) h (fun s hr => ?_) ?_
    fun s a s' hJ hE hG hst => ?_
  · exact ⟨inv_of_reach (.server k true) ((hno s hr).mono fun _ _ hG => hG.1),
      stacked_of_reach (.server k true) hr.reach, wf_of_reach (.server k true) (hno s hr)⟩
  · refine ⟨⟨by simp [accepted], by simp [accepted, new], ?_⟩, .idle ?_ ?_ rfl rfl rfl⟩ <;>
      simp [accepted, new, moves]
  · exact ⟨hE.1.step hJ.1 hG (step_cases hst), hE.2.step hE.1 hJ.1 hJ.2.1 hJ.2.2 hG hst⟩

/-- Outside a call that has received something, everything was answered. -/
theorem Echoing.exact (h : Echoing s) (hctl : s.ctl = []) :
    begunBytes s.log = receivedBytes s.log ∧ s.unread = [] := by
  cases h with
  | idle _ _ _ h4 h5 => exact ⟨h5, h4⟩
  | loop _ h1 | asked _ h1 | replied _ _ h1 => simp [hctl] at h1

theorem Echoing.prefix_of_begun (h : Echoing s) : begunBytes s.log <+: receivedBytes s.log := by
  cases h with
  | idle _ _ _ _ h5 => exact h5 ▸ List.prefix_refl _
  | loop _ _ _ _ _ _ h6 | asked _ _ _ _ _ _ h6 =>
    rw [← h6]
    exact List.prefix_append ..
  | replied _ _ _ _ _ _ _ h6 => exact h6 ▸ List.prefix_refl _

/-- **The echo server echoes.**  In every run of an accepted connection whose callbacks are those of
the echo server, with anything that the kernel, the client and the server's shutdown do: what it
has begun to send is a prefix of what it has received, and so is what the kernel has accepted; and
whenever the poll's thread is outside the connection's code, it has begun to send exactly what it
has received, with nothing left in the read buffer. -/
theorem echo_exact {k : ℕ} (h : (machine A K).ReachIf EchoOk (.ok (accepted k true)) (.ok s)) :
    begunBytes s.log <+: receivedBytes s.log ∧ sentBytes s.log <+: receivedBytes s.log ∧
      (s.ctl = [] → begunBytes s.log = receivedBytes s.log ∧ s.unread = []) := by
  obtain ⟨-, hecho⟩ := echoing_of_reach h
  have hflow := flow_of_reach (.server k true) (h.mono fun _ _ hG => noResize_of_echoOk hG)
  exact ⟨hecho.prefix_of_begun, hflow.pre.trans hecho.prefix_of_begun, hecho.exact⟩

/-- The echo server receives two bytes and echoes them. -/
def echoTwo : List Act :=
  [.runTask .badAddress, .setCallbacks true true, .ret, .deliver ⟨true, false, false, false⟩,
    .dispatch, .recvRet (.data [1, 2]), .recvRet (.error EAGAIN), .send oneTwo,
    .sendRet (.accepted 1), .sendRet (.error EAGAIN), .consume 2, .ret, .tau]

theorem echo_exact_echoTwo : ∃ s : St, sentBytes s.log = [1] ∧ receivedBytes s.log = [1, 2] ∧
    begunBytes s.log = receivedBytes s.log := by
  obtain ⟨s, hs, hp⟩ := reachIf_of_endsIn (A := .zeroed) (K := .linux) (G := EchoOk)
    (accepted 5 true) echoTwo
    (p := fun s => s.ctl = [] ∧ sentBytes s.log = [1] ∧ receivedBytes s.log = [1, 2])
    (by decide +kernel) (by decide +kernel)
  obtain ⟨h1, h2, h3⟩ := of_decide_eq_true hp
  exact ⟨s, h2, h3, ((echo_exact hs).2.2 h1).1⟩

/-- **The round trip.**  In every run of a client and a connection of the echo server, what the
client has received is a prefix of what it has begun to send; and when both are at rest and the
network has nothing under way, it has received all of it. -/
theorem echo_round_trip {k : ℕ} {p q : Peer} (h₁ : Init s₀)
    (h : (linked A K).ReachIf (Machine.Each (AtEnd NoResize) (AtEnd EchoOk))
      (.new s₀, .new (accepted k true)) (p, q)) (hp : p.conn = .ok s) (hq : q.conn = .ok t) :
    receivedBytes s.log <+: begunBytes s.log ∧
      (AtRest s p.rx → AtRest t q.rx → q.rx.arrived = p.tx.sent → p.rx.arrived = q.tx.sent →
        receivedBytes s.log = begunBytes s.log) := by
  have h₂ : Init (accepted k true) := .server k true
  have hno := linked_mono h (fun _ _ hG => hG) fun _ _ hG => noResize_of_echoOk hG
  have hecho := (echoing_of_reach (reach_of_linked (Machine.pair_swap h) hq)).2
  have hflow := flow_of_reach h₁ (reach_of_linked hno hp)
  have hflow' := flow_of_reach h₂ (reach_of_linked (Machine.pair_swap hno) hq)
  refine ⟨?_, fun hs ht hthere hback => ?_⟩
  · have hback : receivedBytes s.log <+: sentBytes t.log :=
      (prefix_of_linked h₂ h₁ (Machine.pair_swap hno) hq hp).1
    have hthere : receivedBytes t.log <+: sentBytes s.log :=
      (prefix_of_linked h₁ h₂ hno hp hq).1
    have hserver : sentBytes t.log <+: receivedBytes t.log :=
      hflow'.pre.trans hecho.prefix_of_begun
    exact ((hback.trans hserver).trans hthere).trans hflow.pre
  · calc
      receivedBytes s.log = begunBytes t.log :=
        received_at_rest h₂ h₁ (Machine.pair_swap hno) hq hp ht hs hback
      _ = receivedBytes t.log := (hecho.exact ht.ctl).1
      _ = begunBytes s.log := received_at_rest h₁ h₂ hno hp hq hs ht hthere

/-- A client connects and sends two bytes, the echo server sends them back, and the client receives
them. -/
def pingPong : List (Machine.Turn WireAct) :=
  [.left (.conn (.connectSync (some 7))), .left (.conn (.setWritable true)),
    .right (.conn (.runTask .badAddress)), .right (.conn (.setCallbacks true true)),
    .right (.conn .ret), .right (.conn (.setWritable true)),
    .left (.conn (.send oneTwo)), .left (.conn (.sendRet (.accepted 2))),
    .left (.conn .tau), .right (.arrive [1, 2]),
    .right (.conn (.deliver ⟨true, false, false, false⟩)), .right (.conn .dispatch),
    .right (.conn (.recvRet (.data [1, 2]))), .right (.conn (.recvRet (.error EAGAIN))),
    .right (.conn (.send oneTwo)), .right (.conn (.sendRet (.accepted 2))),
    .left (.arrive [1, 2]), .right (.conn .tau), .right (.conn (.consume 2)), .right (.conn .ret),
    .right (.conn .tau), .left (.conn (.deliver ⟨true, false, false, false⟩)),
    .left (.conn .dispatch), .left (.conn (.recvRet (.data [1, 2]))),
    .left (.conn (.recvRet (.error EAGAIN))), .left (.conn .tau)]

theorem echo_round_trip_pingPong : ∃ s : St, begunBytes s.log = [1, 2] ∧
    receivedBytes s.log = begunBytes s.log := by
  obtain ⟨⟨p, q⟩, hx, hp⟩ := Machine.ReachIf.of_endsIn (M := linked .zeroed .linux)
    (G := Machine.Each (AtEnd NoResize) (AtEnd EchoOk))
    (s := (.new (new none), .new (accepted 5 true)))
    (p := fun x => bothEnds x fun s t =>
      begunBytes s.log = [1, 2] ∧ x.2.rx.arrived = x.1.tx.sent ∧ x.1.rx.arrived = x.2.tx.sent ∧
        s.atRest x.1.rx ∧ t.atRest x.2.rx)
    pingPong (by decide +kernel) (by decide +kernel)
  obtain ⟨s, t, hs, ht, hp⟩ := of_bothEnds hp
  obtain ⟨h1, h2, h3, h4, h5⟩ := of_decide_eq_true hp
  exact ⟨s, h1, (echo_round_trip .client hx hs ht).2 (atRest_iff.1 h4) (atRest_iff.1 h5) h2 h3⟩

end

end Conn

end CxpNet
