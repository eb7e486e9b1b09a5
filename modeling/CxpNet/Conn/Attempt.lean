import CxpNet.Conn.Stack

/-!
# Connect attempts

`connect` looks at the state on the thread that calls it, and the state moves to `kConnecting` only
when `start_connect_in_poll_` runs on the poll's thread.  Between the two the closure is queued and
the state is still `kDisconnected`.

* `Conn.one_attempt` : if no `connect` comes in between, there is one attempt at a time, and
  `start_connect_in_poll_` never overwrites an open socket or a registered channel;
* `Conn.close_not_lost` : if no `close` or `shutdown` comes in between, it is not lost: the
  connection is not established once the closures that were queued have run.
-/

namespace CxpNet

namespace Conn

/-! ### One attempt at a time -/

/-- An accepted attempt has not been settled: its closure is queued, or the socket is connecting. -/
def St.unresolved (s : St) : Bool := s.tasks.contains .connect || s.state = .kConnecting

/-- `connect` or `connect_sync`. -/
def Act.isAttempt : Act → Bool
  | .connect _ _ _ | .postConnect _ _ | .connectSync _ => true
  | _ => false

/-- No attempt is accepted while a closure is queued that will connect or start the connection. -/
def Alone (c : Except Crash St) (a : Act) : Prop :=
  match c with
  | .error _ => True
  | .ok s => a.isAttempt = true → s.state = .kDisconnected → setups s.tasks = []

instance : ∀ c a, Decidable (Alone c a)
  | .error _, _ => .isTrue trivial
  | .ok s, a => inferInstanceAs
      (Decidable (a.isAttempt = true → s.state = .kDisconnected → setups s.tasks = []))

/-- In state `kDisconnected` there is no socket and the poller knows no channel, unless the server's
`start_` is queued; and at most one closure is queued that will leave the state. -/
structure Single (s : St) : Prop where
  queued : setups s.tasks = [] ∨ (s.state = .kDisconnected ∧ ∃ k, setups s.tasks = [k])
  handle : s.state = .kDisconnected → s.handle = none ∨ ∃ b, setups s.tasks = [.start b]
  idle : s.state = .kDisconnected → ∀ c ∈ s.channel, St.isIdle c = true

section

variable {A : Allocator} {K : Kernel} {s₀ s s' t : St} {a : Act}

namespace Single

theorem open_setups (h : Single s) (hs : s.state ≠ .kDisconnected) :
    setups s.tasks = [] := by
  rcases h.queued with he | ⟨he, -⟩
  · exact he
  · exact absurd he hs

/-- The handle of a connection that is not going to be started. -/
theorem handle_none (h : Single s) (hs : s.state = .kDisconnected)
    (hne : ∀ b, setups s.tasks ≠ [.start b]) : s.handle = none := by
  rcases h.handle hs with he | ⟨b, he⟩
  · exact he
  · exact absurd he (hne b)

theorem of_open (hs : s'.state ≠ .kDisconnected) (hset : setups s'.tasks = []) : Single s' :=
  ⟨.inl hset, fun h => absurd h hs, fun h => absurd h hs⟩

theorem congr (h : Single s) (hstate : s'.state = s.state) (hhandle : s'.handle = s.handle)
    (hch : s'.channel = s.channel) (hset : setups s'.tasks = setups s.tasks) :
    Single s' := by
  refine ⟨?_, fun hs => ?_, fun hs => ?_⟩
  · rw [hset, hstate]
    exact h.queued
  · rw [hhandle, hset]
    exact h.handle (hstate ▸ hs)
  · rw [hch]
    exact h.idle (hstate ▸ hs)

/-- The closure at the head of the queue is the only one that connects or starts. -/
theorem rest_setups {k : Task} {rest : List Task} (h : Single s) (htasks : s.tasks = k :: rest)
    (hk : k.isSetup = true) : s.state = .kDisconnected ∧ setups s.tasks = [k] ∧
      setups rest = [] := by
  have hcons : setups s.tasks = k :: setups rest := by
    rw [htasks]
    exact List.filter_cons_of_pos hk
  rcases h.queued with he | ⟨hs, k', he⟩
  · simp [hcons] at he
  · rw [hcons, List.cons.injEq] at he
    exact ⟨hs, by rw [hcons, he.2], he.2⟩

end Single

theorem setups_cons {k : Task} {rest : List Task} (h : k.isSetup = false) :
    setups (k :: rest) = setups rest :=
  List.filter_cons_of_neg (by simp [h])

theorem setups_post {k : Task} {ts : List Task} (h : k.isSetup = false) :
    setups (ts ++ [k]) = setups ts := by
  rw [setups_append, setups_cons h]
  exact List.append_nil _

theorem Posts.not_setup {k : Task} (h : Posts s a k) : k.isSetup = false := by
  cases h with
  | send | shutdown | close | serverShutdown | serverCleanup => rfl

theorem Drops.not_setup {k : Task} (h : Drops s k) : k.isSetup = false := by
  cases h with
  | send | shutdown | release => rfl

/-- Write interest is not taken from a channel that has none. -/
theorem channel_writeTail (h : t.writeTail = .ok s')
    (hidle : ∀ c ∈ t.channel, St.isIdle c = true) : s'.channel = t.channel := by
  obtain ⟨n, hn, h⟩ := bind_ok h
  split_ifs at h
  · obtain ⟨u, hu, h⟩ := bind_ok h
    obtain ⟨b, b', -, -, rfl⟩ := St.onWriteBuffer_ok hu
    obtain ⟨v, hv, h⟩ := bind_ok h
    have hsame : v.channel = t.channel := by
      unfold St.removeWriteEvent at hv
      cases hc : t.channel with
      | none => simp [hc] at hv
      | some c =>
        have hw : c.writing = false := by
          have := hidle c hc
          simp only [St.isIdle, Bool.and_eq_true, Bool.not_eq_true'] at this
          exact this.1.2
        simp only [hc, hw, Bool.false_eq_true, reduceIte, Except.ok.injEq] at hv
        rw [← hv]
    cases h
    split_ifs
    · exact hsame
    · exact hsame
  · cases h
    rfl

/-- Where `start_connect_in_poll_` is called there is no socket and no registered channel. -/
theorem Single.of_connecting {r : ConnectRet} (h : Single s) (hG : Alone (.ok s) a)
    (hc : Connecting s a r t) : t.state = .kDisconnected ∧ setups t.tasks = [] ∧
      t.handle = none ∧ ∀ c ∈ t.channel, St.isIdle c = true := by
  cases hc with
  | user _ _ _ _ hs =>
    have hset := hG rfl hs
    exact ⟨hs, hset, h.handle_none hs (by simp [hset]), h.idle hs⟩
  | task r _ _ htasks =>
    obtain ⟨hs, hset, hrest⟩ := h.rest_setups htasks rfl
    exact ⟨hs, hrest, h.handle_none hs (by simp [hset]), h.idle hs⟩

/-- `cleanup_` leaves neither a socket nor a registered channel. -/
theorem Single.closes {err : ℕ} (h : Single s) (hc : Closing s a err t)
    (hd : t.cleanupDone = false) : Single (t.cleanup err) := by
  have hidle := St.cleanup_idle err hd
  obtain ⟨sch, ch, w, rel, he, hrel, -⟩ := St.cleanup_eq err hd
  rw [he] at hidle ⊢
  have hset : setups (t.tasks ++ rel) = setups s.tasks := by
    have htask : setups t.tasks = setups s.tasks := by
      cases hc with
      | handler | failed | user => rfl
      | task _ _ _ htasks =>
        rw [htasks]
        exact (setups_cons rfl).symm
    rw [setups_append, Life.setups_release hrel, List.append_nil, htask]
  refine ⟨?_, fun _ => .inl rfl, fun _ => hidle⟩
  rcases h.queued with hnil | ⟨-, hk⟩
  · exact .inl (hset.trans hnil)
  · exact .inr ⟨rfl, by rwa [hset]⟩

theorem Single.starts {set : Bool} {cb : Callback} {u : St} (h : Single s)
    (hG : Alone (.ok s) a) (hs : Starting s a set cb t) (hu : t.start A = .ok u) : Single
      { u with ctl := St.callFrames set cb ++ u.ctl, log := u.log ++ St.callLog set cb } := by
  -- what is known of the state in which `start_` is called
  obtain ⟨hset, hidle⟩ : setups t.tasks = [] ∧
      (t.state = .kDisconnected → ∀ c ∈ t.channel, St.isIdle c = true) := by
    cases hs with
    | task r _ _ htasks =>
      obtain ⟨-, -, hrest⟩ := h.rest_setups htasks rfl
      exact ⟨hrest, h.idle⟩
    | sync k _ hs => exact ⟨hG rfl hs, h.idle⟩
    | event w e _ _ hs => exact ⟨h.open_setups (by simp [hs]), by simp⟩
  rcases St.start_ok hu with ⟨rfl, hno | hconn⟩ | ⟨-, r, w, wr, -, -, rfl⟩
  · exact ⟨.inl hset, fun _ => .inl hno, hidle⟩
  · exact .of_open (by simp [hconn]) hset
  · exact .of_open (by simp) hset

theorem Single.queues {bs : List UInt8} (h : Single s) (hsends : SendsConnected s)
    (hq : Queueing s a bs t) (hok : t.enqueue A bs = .ok s') : Single s' := by
  have hconn : t.state = .kConnected ∧ s.state = .kConnected ∧ setups t.tasks = setups s.tasks := by
    cases hq with
    | behind hs hconn =>
      cases hs with
      | user => exact ⟨hconn, hconn, rfl⟩
      | task r _ _ htasks =>
        refine ⟨hconn, hconn, ?_⟩
        rw [htasks]
        exact (setups_cons rfl).symm
    | rest hend =>
      have := hsends _ _ _ hend.ctl_eq
      cases hend with
      | goal | blocked => exact ⟨this, this, rfl⟩
  obtain ⟨ht, hs, hset⟩ := hconn
  have hout : s'.state = t.state ∧ s'.tasks = t.tasks := by
    obtain ⟨b, b', u, -, -, hu, hok⟩ := St.enqueue_ok hok
    obtain ⟨c, c', w, -, rfl, -⟩ := St.addWriteEvent_ok hu
    rcases St.checkHigh_ok hok with rfl | rfl | rfl <;> exact ⟨rfl, rfl⟩
  refine .of_open (by simp [hout.1, ht]) ?_
  rw [hout.2, hset]
  exact h.open_setups (by simp [hs])

/-- **The step lemma.** -/
theorem Single.step (h : Single s) (hsends : SendsConnected s) (hG : Alone (.ok s) a)
    (hst : Moves A s a s') : Single s' := by
  cases hst with
  | stay | refused | setWritable | sockError | setCallbacks | setWatermark | setWatermarkCallback
  | setCloseTimeout | setBufferSize | stopTimers | extractTimer | deliver | ignore | dispatch
  | syncFails | leave | beginWrite | endLow | endHigh | writeBlocked | interrupted | sentSome
  | received | recvAgain | recvEnd | consume => exact h.congr rfl rfl rfl rfl
  | post hp => exact h.congr rfl rfl rfl (setups_post hp.not_setup)
  | fireTimer => exact h.congr rfl rfl rfl (setups_post rfl)
  | destroy _ _ htasks hch =>
    refine ⟨.inl ?_, fun _ => .inl rfl, fun _ c hc => ?_⟩
    · show setups s.tasks = []
      rw [htasks]
      rfl
    · simp [hch] at hc
  | connectFails w e err _ _ hs =>
    exact ⟨.inl (h.open_setups (by simp [hs])), fun _ => .inl rfl, by simp⟩
  | postConnect _ _ hs =>
    have hset := hG rfl hs
    refine ⟨.inr ⟨hs, .connect, ?_⟩, fun _ => .inl (h.handle_none hs (by simp [hset])), h.idle⟩
    show setups (s.tasks ++ [Task.connect]) = [Task.connect]
    rw [setups_append, hset]
    rfl
  | @connects _ r t hc =>
    obtain ⟨hs, hset, hno, hidle⟩ := h.of_connecting hG hc
    rcases t.startConnectInPoll_eq r with ⟨err, he⟩ | ⟨k, w, he⟩ <;> rw [he]
    · rw [St.connectFailed_eq]
      exact ⟨.inl hset, fun _ => .inl hno, fun _ => hidle⟩
    · exact .of_open (by simp) hset
  | starts hs hu => exact h.starts hG hs hu
  | closes hc hd => exact h.closes hc hd
  | passes hc =>
    cases hc with
    | handler | failed | user => exact h.congr rfl rfl rfl rfl
    | task _ _ _ htasks =>
      refine h.congr rfl rfl rfl ?_
      rw [htasks]
      exact (setups_cons rfl).symm
  | @shuts _ t _ hs hne _ _ hok =>
    have hset : setups t.tasks = [] := by
      cases hs with
      | user => exact h.open_setups hne
      | task _ _ _ htasks =>
        have := h.open_setups hne
        rwa [htasks, setups_cons rfl] at this
    rcases St.shutdownInPoll_ok hok with rfl | ⟨-, -, -, ch, w, l, tid, nid, sch, -, rfl⟩
    · exact .of_open hne hset
    · exact .of_open (by simp) hset
  | dropTask _ _ _ htasks hd =>
    refine h.congr rfl rfl rfl ?_
    rw [htasks]
    exact (setups_cons hd.not_setup).symm
  | @endClose rest =>
    obtain ⟨rel, he, hrel⟩ := St.releaseChannel_eq { s with ctl := rest }
    rw [he]
    have hset : setups (s.tasks ++ rel) = setups s.tasks := by
      rw [setups_append, Life.setups_release hrel, List.append_nil]
    exact ⟨by simpa [hset] using h.queued, by simpa [hset] using h.handle, by simp⟩
  | drained _ _ _ hok =>
    have hidle : s.state = .kDisconnected → s'.channel = s.channel := fun hs => by
      have := channel_writeTail hok (h.idle hs)
      exact this
    obtain ⟨hstate, hhandle, htasks⟩ : s'.state = s.state ∧ s'.handle = s.handle ∧
        s'.tasks = s.tasks := by
      obtain ⟨b, -, ⟨-, rfl⟩ | ⟨-, c, c', w, -, -, -, -, -, rfl⟩⟩ := St.writeTail_ok hok <;>
        exact ⟨rfl, rfl, rfl⟩
    refine ⟨?_, ?_, fun hs => ?_⟩
    · rw [htasks, hstate]
      exact h.queued
    · rw [htasks, hstate, hhandle]
      exact h.handle
    · rw [hstate] at hs
      rw [hidle hs]
      exact h.idle hs
  | wrote _ _ _ _ _ hok =>
    obtain ⟨b, b', -, -, fs, l, rfl, -⟩ := St.wrote_ok hok
    exact h.congr rfl rfl rfl rfl
  | beginSend hs | dropSend hs =>
    cases hs with
    | user => exact h.congr rfl rfl rfl rfl
    | task _ _ _ htasks =>
      refine h.congr rfl rfl rfl ?_
      rw [htasks]
      exact (setups_cons rfl).symm
  | queues hq hok => exact h.queues hsends hq hok
  | sentAll hend _ hok =>
    rcases St.checkHigh_ok hok with rfl | rfl | rfl <;> cases hend <;>
      exact h.congr rfl rfl rfl rfl

theorem single_of_init (h : Init s) : Single s := by
  cases h with
  | server k b => exact ⟨.inr ⟨rfl, _, rfl⟩, fun _ => .inr ⟨b, rfl⟩, by simp [accepted, new]⟩
  | client => exact ⟨.inl rfl, fun _ => .inl rfl, by simp [new]⟩

theorem single_of_reach (h₀ : Init s₀) (h : (machine A K).ReachIf Alone (.ok s₀) (.ok s)) :
    Single s :=
  invariant_ok h (fun _ hs => sendsConnected_of_reach h₀ hs.reach) (single_of_init h₀)
    fun _ _ _ hsends ih hG hst => ih.step hsends hG (step_cases hst)

/-- The connection has been closed or shut down, or was never connected. -/
def St.isOver (s : St) : Bool := s.state = .kDisconnected || s.state = .kDisconnecting

/-- The closure of `close` or `shutdown`, or of the close timer. -/
def Task.isEnd : Task → Bool
  | .shutdown | .cleanup _ => true
  | _ => false

/-- `poll_` executes a closure. -/
def Act.isRunTask : Act → Bool
  | .runTask _ => true
  | _ => false

/-- What a step does to the state and to the queue. -/
inductive Course (s : St) (a : Act) (s' : St) : Prop
  /-- An attempt is accepted. -/
  | attempt : a.isAttempt = true → s.state = .kDisconnected → Course s a s'
  /-- The closure of `connect`, or of the server's `start_`, is executed. -/
  | setup {k : Task} {rest : List Task} : s.tasks = k :: rest → k.isSetup = true → Course s a s'
  | stays (l : List Task) : a.isRunTask = false → s'.used = s.used → s'.tasks = s.tasks ++ l →
      setups l = [] →
      (s'.state = s.state ∨ s'.isOver = true ∨ s.state = .kConnecting) → Course s a s'
  /-- Another closure is executed. -/
  | task {k : Task} {rest : List Task} (l : List Task) : a.isRunTask = true → s'.used = s.used →
      s.tasks = k :: rest → k.isSetup = false → s'.tasks = rest ++ l → setups l = [] →
      (s'.state = s.state ∨ s'.isOver = true) →
      (k.isEnd = true → s'.isOver = true ∨ s.cleanupDone = true ∨ s.handle = none) →
      Course s a s'

theorem isOver_iff : s.isOver = true ↔ s.state = .kDisconnected ∨ s.state = .kDisconnecting := by
  simp [St.isOver]

theorem Course.same (ha : a.isRunTask = false) (hused : s'.used = s.used)
    (htasks : s'.tasks = s.tasks) (hstate : s'.state = s.state) : Course s a s' :=
  .stays [] ha hused (by simp [htasks]) rfl (.inl hstate)

/-- The closure of a `send` is executed. -/
theorem Course.sends {m : Msg} (h : Sending s a m t) (hused : s'.used = t.used)
    (htasks : s'.tasks = t.tasks) (hstate : s'.state = t.state) : Course s a s' := by
  cases h with
  | user => exact .same rfl hused htasks hstate
  | task r _ _ hs =>
    exact .task [] rfl hused hs rfl (by simp [htasks]) rfl (.inl hstate) (fun h => by cases h)

theorem Course.closes {err : ℕ} (h : Closing s a err t) (hd : t.cleanupDone = false) :
    Course s a (t.cleanup err) := by
  obtain ⟨sch, ch, w, rel, he, hrel, -⟩ := St.cleanup_eq err hd
  rw [he]
  have hset := Life.setups_release hrel
  cases h with
  | handler | failed | user => exact .stays rel rfl rfl rfl hset (.inr (.inl rfl))
  | task r _ _ hs => exact .task rel rfl rfl hs rfl rfl hset (.inr rfl) fun _ => .inl rfl

theorem Course.passes {err : ℕ} (h : Closing s a err t)
    (hor : t.state = .kDisconnected ∨ t.cleanupDone = true) : Course s a t := by
  cases h with
  | handler | failed | user => exact .same rfl rfl rfl rfl
  | task r _ _ hs =>
    refine .task [] rfl rfl hs rfl (by simp) rfl (.inl rfl) fun _ => ?_
    rcases hor with hs | hd
    · exact .inl (isOver_iff.2 (.inl hs))
    · exact .inr (.inl hd)

/-- **What a step does to the state and to the queue.** -/
theorem course_step (h : Moves A s a s') : Course s a s' := by
  cases h with
  | setWritable | sockError | setCallbacks | setWatermark | setWatermarkCallback
  | setCloseTimeout | setBufferSize | stopTimers | extractTimer | deliver | ignore | dispatch
  | destroy | beginWrite | endLow | endHigh | writeBlocked | interrupted | sentSome
  | received | recvAgain | recvEnd | consume => exact .same rfl rfl rfl rfl
  | stay hreq =>
    refine .same ?_ rfl rfl rfl
    cases a with
    | runTask => cases hreq
    | _ => rfl
  | refused hcon =>
    refine .same ?_ rfl rfl rfl
    cases a with
    | runTask => cases hcon
    | _ => rfl
  | @post _ k hp =>
    have ha : a.isRunTask = false := by cases hp <;> rfl
    exact .stays [k] ha rfl rfl (setups_cons hp.not_setup) (.inl rfl)
  | fireTimer => exact .stays [_] rfl rfl rfl rfl (.inl rfl)
  | connectFails => exact .stays [] rfl rfl (by simp) rfl (.inr (.inl rfl))
  | postConnect _ _ hs | syncFails _ hs => exact .attempt rfl hs
  | connects hc =>
    cases hc with
    | user _ _ _ _ hs => exact .attempt rfl hs
    | task _ _ _ hs => exact .setup hs rfl
  | starts hs hu =>
    cases hs with
    | task _ _ _ htasks => exact .setup htasks rfl
    | sync _ _ hs => exact .attempt rfl hs
    | event w e _ _ hs =>
      rcases St.start_ok hu with ⟨rfl, -⟩ | ⟨-, r, w, wr, -, -, rfl⟩
      · exact .same rfl rfl rfl rfl
      · exact .stays [] rfl rfl (by simp) rfl (.inr (.inr hs))
  | closes hc hd => exact .closes hc hd
  | passes hc hor => exact .passes hc hor
  | shuts hs h1 h2 h3 hok =>
    obtain ⟨ch, w, l, tid, nid, sch, -, rfl⟩ := St.shutdownInPoll_carried h1 h2 h3 hok
    cases hs with
    | user => exact .stays [] rfl rfl (by simp) rfl (.inr (.inl rfl))
    | task r _ _ htasks =>
      exact .task [] rfl rfl htasks rfl (by simp) rfl (.inr rfl) fun _ => .inl rfl
  | dropTask r _ _ htasks hd =>
    refine .task [] rfl rfl htasks hd.not_setup (by simp) rfl (.inl rfl) fun hk => ?_
    cases hd with
    | send | release => cases hk
    | shutdown hor =>
      rcases hor with hs | hs | hh
      · exact .inl (isOver_iff.2 (.inl hs))
      · exact .inl (isOver_iff.2 (.inr hs))
      · exact .inr (.inr hh)
  | leave _ hl =>
    have ha : a.isRunTask = false := by cases hl <;> rfl
    exact .same ha rfl rfl rfl
  | @endClose rest =>
    obtain ⟨rel, he, hrel⟩ := St.releaseChannel_eq { s with ctl := rest }
    rw [he]
    exact .stays rel rfl rfl rfl (Life.setups_release hrel) (.inl rfl)
  | drained _ _ _ hok =>
    obtain ⟨b, -, ⟨-, rfl⟩ | ⟨-, c, c', w, -, -, -, -, -, rfl⟩⟩ := St.writeTail_ok hok <;>
      exact .same rfl rfl rfl rfl
  | wrote _ _ _ _ _ hok =>
    obtain ⟨b, b', -, -, fs, l, rfl, -⟩ := St.wrote_ok hok
    exact .same rfl rfl rfl rfl
  | beginSend hs | dropSend hs => exact .sends hs rfl rfl rfl
  | @queues _ bs t _ hq hok =>
    obtain ⟨hused, htasks, hstate⟩ : s'.used = t.used ∧ s'.tasks = t.tasks ∧
        s'.state = t.state := by
      obtain ⟨b, b', u, -, -, hu, hok⟩ := St.enqueue_ok hok
      obtain ⟨c, c', w, -, rfl, -⟩ := St.addWriteEvent_ok hu
      rcases St.checkHigh_ok hok with rfl | rfl | rfl <;> exact ⟨rfl, rfl, rfl⟩
    cases hq with
    | behind hs => exact .sends hs hused htasks hstate
    | rest hend =>
      cases hend with
      | goal | blocked => exact .same rfl hused htasks hstate
  | sentAll hend _ hok =>
    rcases St.checkHigh_ok hok with rfl | rfl | rfl <;> cases hend <;>
      exact .same rfl rfl rfl rfl

/-! ### A close after a connect -/

/-- `close` or `shutdown`, on any thread. -/
def Act.isEnding : Act → Bool
  | .close | .shutdown | .postClose | .postShutdown => true
  | _ => false

/-- The connection is set up, and it is over or one of the next `n` closures will end it. -/
structure Sealed (n : ℕ) (s : St) : Prop where
  used : s.used = true
  setups : setups s.tasks = []
  ends : s.isOver = true ∨ ∃ k ∈ s.tasks.take n, k.isEnd = true

/-- A connection that is set up, and was cleaned up or has no socket, is over. -/
theorem over_of_done (hI : Inv s) (hused : s.used = true) (hset : setups s.tasks = [])
    (h : s.cleanupDone = true ∨ s.handle = none) : s.isOver = true := by
  rw [isOver_iff]
  cases hI.life with
  | fresh _ h1 => simp [hused] at h1
  | queued k rest _ _ h2 _ h4 => exact absurd (h2 ▸ hset) (Life.setups_ne_nil h4)
  | connecting _ _ _ _ h3 _ _ h6 => simp [h3, h6] at h
  | dead _ _ h2 h3 =>
    cases hs : s.state with
    | kDisconnected => exact .inl rfl
    | kDisconnecting => exact .inr rfl
    | kConnected => exact absurd hs h2
    | kConnecting => exact absurd hs h3
  | up _ ho => simp [ho.handle, ho.cleanupDone] at h
  | closing _ _ h1 => exact .inr h1
  | down _ _ h2 => exact .inl h2

namespace Sealed

variable {n : ℕ}

theorem isOver (h : Sealed 0 s) : s.isOver = true := by
  rcases h.ends with ho | ⟨k, hk, -⟩
  · exact ho
  · simp at hk

/-- A connection that is over is not connected again. -/
theorem not_attempt (h : Sealed n s) (hG : OneShot (.ok s) a) (ha : a.isAttempt = true)
    (hs : s.state = .kDisconnected) : False := by
  have hunused : s.used = false := by
    cases a with
    | connect | postConnect | connectSync => exact hG hs
    | _ => cases ha
  simp [h.used] at hunused

/-- **The step lemma**: a closure that is executed is not queued any more. -/
theorem step (h : Sealed n s) (hI : Inv s) (hG : OneShot (.ok s) a) (hst : Moves A s a s') :
    Sealed (n - if a.isRunTask then 1 else 0) s' := by
  cases course_step hst with
  | attempt ha hs => exact (h.not_attempt hG ha hs).elim
  | @setup k rest htasks hk =>
    have hset := h.setups
    rw [htasks] at hset
    simp [Conn.setups, hk] at hset
  | stays l ha hused htasks hl hstate =>
    rw [ha]
    refine ⟨hused.trans h.used, by rw [htasks, setups_append, h.setups, hl]; rfl, ?_⟩
    -- what is over stays over, and the ending closure is still among the first
    rcases h.ends with ho | ⟨k, hk, he⟩
    · refine .inl ?_
      rw [isOver_iff] at ho ⊢
      rcases hstate with hs | hs | hs
      · rwa [hs]
      · rwa [isOver_iff] at hs
      · simp [hs] at ho
    · refine .inr ⟨k, ?_, he⟩
      rw [htasks, List.take_append]
      exact List.mem_append_left _ hk
  | @task k rest l ha hused htasks hk htasks' hl hstate hend =>
    rw [ha]
    have hset := h.setups
    rw [htasks, setups_cons hk] at hset
    refine ⟨hused.trans h.used, by rw [htasks', setups_append, hset, hl]; rfl, ?_⟩
    have hover : s.isOver = true → s'.isOver = true := fun ho => by
      rcases hstate with hs | hs
      · rw [isOver_iff] at ho ⊢
        rwa [hs]
      · exact hs
    rcases h.ends with ho | ⟨k', hk', he⟩
    · exact .inl (hover ho)
    · cases n with
      | zero => simp at hk'
      | succ n =>
        rw [htasks, List.take_succ_cons, List.mem_cons] at hk'
        -- the closure that is executed is the ending one, or that one has come nearer
        rcases hk' with rfl | hk'
        · rcases hend he with ho | ho
          · exact .inl ho
          · exact .inl (hover (over_of_done hI h.used h.setups ho))
        · refine .inr ⟨k', ?_, he⟩
          rw [htasks', List.take_append]
          exact List.mem_append_left _ hk'

theorem run {as : List Act} (h : Sealed n s) (h₀ : Init s₀)
    (hr : (machine A K).ReachIf OneShot (.ok s₀) (.ok s))
    (hrun : (machine A K).exec (.ok s) as = some (.ok s'))
    (hG : (machine A K).Meets OneShot (.ok s) as) :
    Sealed (n - as.countP Act.isRunTask) s' ∧ (machine A K).ReachIf OneShot (.ok s₀) (.ok s') := by
  induction as generalizing s n with
  | nil =>
    cases hrun
    exact ⟨h, hr⟩
  | cons a as ih =>
    obtain ⟨c, hst, hrun⟩ := Option.bind_eq_some_iff.1 hrun
    rw [Machine.meets_cons hst] at hG
    cases c with
    | error e => cases as <;> cases hrun
    | ok s₁ =>
      have hstep := h.step (inv_of_reach h₀ hr) hG.1 (step_cases (machine_step hst))
      have hend := ih hstep (hr.tail hG.1 hst) hrun hG.2
      rw [Nat.sub_sub, Nat.add_comm] at hend
      rwa [List.countP_cons]

end Sealed

/-! ### Where `on_connected` is invoked -/

theorem not_connected_moveLog (t : St) (st : State) : .called .connected ∉ t.moveLog st := by
  intro h
  cases St.mem_moveLog h

theorem not_connected_deregisterLog (t : St) : .called .connected ∉ t.deregisterLog := by
  intro h
  obtain ⟨role, he⟩ := St.mem_deregisterLog h
  cases he

theorem not_connected_closeLog (t : St) : .called .connected ∉ t.closeLog := by
  intro h
  obtain ⟨k, he⟩ := St.mem_closeLog h
  cases he

theorem not_connected_callLog {cb : Callback} (set : Bool) (hne : cb ≠ .connected) :
    .called .connected ∉ St.callLog set cb := by
  intro h
  cases St.mem_callLog h
  exact hne rfl

/-- The record has grown from `s` to `t`, and `on_connected` was not invoked. -/
def Unannounced (s t : St) : Prop := ∃ l, t.log = s.log ++ l ∧ .called .connected ∉ l

namespace Unannounced

theorem of_log (h : t.log = s.log) : Unannounced s t := ⟨[], by simp [h], by simp⟩

theorem trans {u : St} (h : Unannounced s t) (h' : Unannounced t u) : Unannounced s u := by
  obtain ⟨l, hl, hn⟩ := h
  obtain ⟨l', hl', hn'⟩ := h'
  exact ⟨l ++ l', by rw [hl', hl, List.append_assoc], by simp [hn, hn']⟩

theorem checkHigh (h : t.checkHigh = .ok s') : Unannounced t s' := by
  rcases St.checkHigh_ok h with rfl | rfl | rfl
  · exact of_log rfl
  · exact of_log rfl
  · exact ⟨_, rfl, by simp⟩

theorem enqueue {bs : List UInt8} (h : t.enqueue A bs = .ok s') : Unannounced t s' := by
  obtain ⟨b, b', u, -, -, hu, hok⟩ := St.enqueue_ok h
  obtain ⟨c, c', w, -, rfl, -⟩ := St.addWriteEvent_ok hu
  obtain ⟨l, hl, hn⟩ := checkHigh hok
  exact ⟨l, hl, hn⟩

theorem sending {m : Msg} (h : Sending s a m t) : Unannounced s t := by
  cases h with
  | user | task => exact of_log rfl

theorem loopEnd {m : Msg} {n : ℕ} (h : LoopEnd s m n a t) : Unannounced s t := by
  cases h with
  | goal => exact of_log rfl
  | blocked => exact ⟨_, rfl, by simp⟩

theorem queueing {bs : List UInt8} (h : Queueing s a bs t) : Unannounced s t := by
  cases h with
  | behind hs => exact (sending hs).trans ⟨_, rfl, by simp⟩
  | rest hend => exact loopEnd hend

theorem closing {err : ℕ} (h : Closing s a err t) : Unannounced s t := by
  cases h with
  | handler | user | task => exact of_log rfl
  | failed => exact ⟨_, rfl, by simp⟩

theorem cleanup {err : ℕ} (hd : t.cleanupDone = false) : Unannounced t (t.cleanup err) := by
  obtain ⟨sch, ch, w, rel, he, -⟩ := St.cleanup_eq err hd
  rw [he]
  refine ⟨_, rfl, fun h => ?_⟩
  cases St.tidies_of_mem h

theorem startConnectInPoll (r : ConnectRet) : Unannounced t (t.startConnectInPoll r) := by
  rcases t.startConnectInPoll_eq r with ⟨err, he⟩ | ⟨k, w, he⟩
  · rw [he, St.connectFailed_eq]
    exact ⟨_, rfl, not_connected_callLog _ (by simp)⟩
  · rw [he]
    exact ⟨_, rfl, not_connected_moveLog _ _⟩

end Unannounced

/-- `on_connected` is invoked only by `handle_connect_event_`. -/
theorem connected_step (h : Moves A s a s') : ∃ l, s'.log = s.log ++ l ∧
    (.called .connected ∈ l → a = .dispatch ∧ s.state = .kConnecting) := by
  have quiet : Unannounced s s' → ∃ l, s'.log = s.log ++ l ∧
      (.called .connected ∈ l → a = .dispatch ∧ s.state = .kConnecting) :=
    fun ⟨l, hlog, hl⟩ => ⟨l, hlog, fun h => absurd h hl⟩
  cases h with
  | stay | setWritable | sockError | setCallbacks | setWatermark | setWatermarkCallback
  | setCloseTimeout | setBufferSize | post | stopTimers | extractTimer | fireTimer | deliver
  | ignore | dispatch | postConnect | syncFails | dropTask | leave | beginWrite | endLow | endHigh
  | consume => exact quiet (.of_log rfl)
  | refused | writeBlocked | interrupted | sentSome | received | recvAgain =>
    exact quiet ⟨_, rfl, by simp⟩
  | destroy => exact quiet ⟨_, rfl, not_connected_closeLog s⟩
  | connectFails w e err =>
    refine quiet ⟨s.deregisterLog ++ s.closeLog ++ [Ev.moved .kDisconnected] ++
      St.callLog s.onConnectError (.connectError err), by simp only [List.append_assoc], ?_⟩
    simp only [List.mem_append, not_or]
    exact ⟨⟨⟨not_connected_deregisterLog s, not_connected_closeLog s⟩, by simp⟩,
      not_connected_callLog _ (by simp)⟩
  | @connects _ r t hc =>
    have ht : t.log = s.log := by cases hc <;> rfl
    exact quiet ((Unannounced.of_log ht).trans (.startConnectInPoll r))
  | starts hs hu =>
    cases hs with
    | event w e _ _ hs =>
      rcases St.start_ok hu with ⟨rfl, -⟩ | ⟨-, r, w, wr, -, -, rfl⟩
      · exact ⟨_, List.append_assoc .., fun _ => ⟨rfl, hs⟩⟩
      · exact ⟨_, (List.append_assoc ..).trans (List.append_assoc ..), fun _ => ⟨rfl, hs⟩⟩
    | task | sync =>
      rcases St.start_ok hu with ⟨rfl, -⟩ | ⟨-, r, w, wr, -, -, rfl⟩
      · exact quiet ⟨_, rfl, not_connected_callLog _ (by simp)⟩
      · refine quiet ⟨_, List.append_assoc .., ?_⟩
        simp [not_connected_moveLog, not_connected_callLog]
  | closes hc hd => exact quiet ((Unannounced.closing hc).trans (.cleanup hd))
  | passes hc => exact quiet (.closing hc)
  | @shuts _ t _ hs h1 h2 h3 hok =>
    obtain ⟨ch, w, l, tid, nid, sch, hf, rfl⟩ := St.shutdownInPoll_carried h1 h2 h3 hok
    have ht : t.log = s.log := by cases hs <;> rfl
    refine quiet ⟨[Ev.moved .kDisconnecting] ++ l, by simp [ht], ?_⟩
    cases hf <;> simp
  | @endClose rest =>
    obtain ⟨rel, he, -⟩ := St.releaseChannel_eq { s with ctl := rest }
    rw [he] at quiet ⊢
    exact quiet (.of_log rfl)
  | drained _ _ _ hok =>
    obtain ⟨b, -, ⟨-, rfl⟩ | ⟨-, c, c', w, -, -, -, -, -, rfl⟩⟩ := St.writeTail_ok hok
    · exact quiet (.of_log rfl)
    · refine quiet ⟨_, rfl, ?_⟩
      split_ifs <;> simp
  | wrote _ _ _ _ _ hok =>
    obtain ⟨b, b', -, -, fs, l, rfl, hf⟩ := St.wrote_ok hok
    refine quiet ⟨_, List.append_assoc .., ?_⟩
    rcases hf with ⟨-, rfl⟩ | ⟨-, rfl⟩ | ⟨-, rfl⟩ <;> simp
  | beginSend hs | dropSend hs =>
    exact quiet ((Unannounced.sending hs).trans ⟨_, rfl, by simp⟩)
  | queues hq hok => exact quiet ((Unannounced.queueing hq).trans (.enqueue hok))
  | sentAll hend _ hok => exact quiet ((Unannounced.loopEnd hend).trans (.checkHigh hok))
  | recvEnd e hctl _ _ _ hend =>
    refine quiet ⟨_, List.append_assoc .., ?_⟩
    have hmsg : ∀ set, .called .connected ∉ St.callLog set .message := fun set =>
      not_connected_callLog set (by simp)
    cases hend <;> simp [hmsg]

/-- No connect event is handled. -/
def NoConnectEvent (c : Except Crash St) (a : Act) : Prop :=
  match c with
  | .error _ => True
  | .ok s => a = .dispatch → s.state ≠ .kConnecting

instance : ∀ c a, Decidable (NoConnectEvent c a)
  | .error _, _ => .isTrue trivial
  | .ok s, a => inferInstanceAs (Decidable (a = .dispatch → s.state ≠ .kConnecting))

/-- Without a connect event `on_connected` is not invoked. -/
theorem not_connected_run {as : List Act} (hrun : (machine A K).exec (.ok s) as = some (.ok s'))
    (hG : (machine A K).Meets NoConnectEvent (.ok s) as) : Unannounced s s' := by
  induction as generalizing s with
  | nil =>
    cases hrun
    exact .of_log rfl
  | cons a as ih =>
    obtain ⟨c, hst, hrun⟩ := Option.bind_eq_some_iff.1 hrun
    rw [Machine.meets_cons hst] at hG
    cases c with
    | error e => cases as <;> cases hrun
    | ok s₁ =>
      obtain ⟨l, hl, hc⟩ := connected_step (step_cases (machine_step hst))
      have hstep : Unannounced s s₁ := ⟨l, hl, fun hmem => hG.1 (hc hmem).1 (hc hmem).2⟩
      exact hstep.trans (ih hrun hG.2)

/-- What is over stays over, and `on_connected` is not invoked any more. -/
theorem Sealed.forever (h : Sealed 0 s) (h₀ : Init s₀)
    (hr : (machine A K).ReachIf OneShot (.ok s₀) (.ok s))
    (hrun : (machine A K).ReachIf OneShot (.ok s) (.ok s')) :
    Sealed 0 s' ∧ Unannounced s s' := by
  refine invariant_ok (I := fun s' => Sealed 0 s' ∧ Unannounced s s') hrun
    (fun s' hs => inv_of_reach h₀ (hr.trans hs)) ⟨h, .of_log rfl⟩ fun s₁ a s₂ hI ih hG hst => ?_
  obtain ⟨hs, hquiet⟩ := ih
  have hmove := step_cases hst
  refine ⟨by simpa using hs.step hI hG hmove, ?_⟩
  obtain ⟨l, hl, hc⟩ := connected_step hmove
  refine hquiet.trans ⟨l, hl, fun hmem => ?_⟩
  have hover := isOver_iff.1 hs.isOver
  simp [(hc hmem).2] at hover

/-- When `close` or `shutdown` returns, the connection is over or the closure that ends it is
queued. -/
theorem sealed_of_ending (hI : Inv s) (hused : s.used = true) (hset : setups s.tasks = [])
    (ha : a.isEnding = true) (hst : s.step A K a = some (.ok s')) :
    Sealed s'.tasks.length s' := by
  -- the call finds the connection over, ends it, or queues a closure that will
  have stays : s.isOver = true → Sealed s.tasks.length s := fun ho => ⟨hused, hset, .inl ho⟩
  have posts : ∀ k : Task, k.isEnd = true → k.isSetup = false →
      Sealed (s.post k).tasks.length (s.post k) := fun k he hk =>
    ⟨hused, (setups_post hk).trans hset,
      .inr ⟨k, by rw [List.take_length]; exact List.mem_append_right _ (by simp), he⟩⟩
  cases a with
  | close =>
    simp only [St.step] at hst
    split_ifs at hst
    simp only [St.userStep, Option.some.injEq, Except.ok.injEq] at hst
    subst hst
    unfold St.close
    split_ifs with hs
    · exact stays (isOver_iff.2 (.inl hs))
    · cases hd : s.cleanupDone with
      | true =>
        rw [St.cleanup_of_done 0 hd]
        exact stays (over_of_done hI hused hset (.inl hd))
      | false =>
        obtain ⟨sch, ch, w, rel, he, hrel, -⟩ := St.cleanup_eq 0 hd
        rw [he]
        refine ⟨hused, ?_, .inl rfl⟩
        show setups (s.tasks ++ rel) = []
        rw [setups_append, hset, Life.setups_release hrel, List.append_nil]
  | shutdown =>
    simp only [St.step] at hst
    split_ifs at hst
    simp only [St.userStep, Option.some.injEq, St.shutdown] at hst
    split_ifs at hst with hs
    · cases hst
      rcases hs with hs | hs | hh
      · exact stays (isOver_iff.2 (.inl hs))
      · exact stays (isOver_iff.2 (.inr hs))
      · exact stays (over_of_done hI hused hset (.inr hh))
    · rw [not_or, not_or] at hs
      obtain ⟨ch, w, l, tid, nid, sch, -, rfl⟩ :=
        St.shutdownInPoll_carried hs.1 hs.2.1 hs.2.2 hst
      exact ⟨hused, hset, .inl rfl⟩
  | postClose =>
    simp only [St.step, St.otherStep, Option.some.injEq, Except.ok.injEq] at hst
    split_ifs at hst with hs
    · subst hst
      exact stays (isOver_iff.2 (.inl hs))
    · subst hst
      exact posts _ rfl rfl
  | postShutdown =>
    simp only [St.step, St.otherStep, Option.some.injEq, Except.ok.injEq] at hst
    split_ifs at hst with hs
    · subst hst
      rcases hs with hs | hs | hh
      · exact stays (isOver_iff.2 (.inl hs))
      · exact stays (isOver_iff.2 (.inr hs))
      · exact stays (over_of_done hI hused hset (.inr hh))
    · subst hst
      exact posts _ rfl rfl
  | _ => cases ha

end

end Conn

end CxpNet
