import CxpNet.Conn.Incoming

/-!
# The reason of a close

For an event set with `kError`, `Channel::handle_event_` fetches `SO_ERROR` first, calls the read
handler if there is `kRead`, and then the close handler with the error it has fetched.  The read
handler may run the whole cleanup before that, with a reason of its own: the `errno` of a `::recv`
that fails, the `errno` of a `::send` in the message callback, or 0 at the end of the stream.

* `Conn.error_reported_iff` : the close callback is called exactly once, and it gets an error
  unless the end of the stream was what closed the connection.
-/

namespace CxpNet

namespace Conn

/-- The arguments of the calls of the close callback. -/
def closeArgs (l : List Ev) : List ℕ :=
  l.filterMap fun e => match e with
    | .called (.close err) => some err
    | _ => none

/-- `::recv` reports the end of the stream. -/
def Act.isEof : Act → Bool
  | .recvRet .eof => true
  | _ => false

/-- `::send` fails with an error that closes the connection. -/
def Act.isFatalSend : Act → Bool
  | .sendRet (.error e) => handleErrorAction e = .kClose
  | _ => false

def sawEof (as : List Act) : Bool := as.any Act.isEof

def sawFatalSend (as : List Act) : Bool := as.any Act.isFatalSend

/-- User code neither closes the connection nor takes its close callback away, and a system call
that fails sets `errno`. -/
def loyal (s : St) : Act → Bool
  | .close => s.cleanupDone
  | .setCallbacks _ onClose => s.cleanupDone || onClose
  | .recvRet (.error e) | .sendRet (.error e) => e ≠ 0
  | _ => true

/-- A step of a dispatch in which no callback closes the connection. -/
def InDispatch (c : Except Crash St) (a : Act) : Prop :=
  match c with
  | .error _ => False
  | .ok s => OneShot (.ok s) a ∧ s.ctl ≠ [] ∧ loyal s a = true

instance : ∀ c a, Decidable (InDispatch c a)
  | .error _, _ => .isFalse id
  | .ok s, a => inferInstanceAs (Decidable (OneShot (.ok s) a ∧ s.ctl ≠ [] ∧ loyal s a = true))

/-! ### The frames that close the connection -/

/-- At the end of such a frame the connection is closed. -/
def Frame.isCloser : Frame → Bool
  | .closePart _ | .afterMessage true _ => true
  | _ => false

/-- What a step does that does not close the connection. -/
structure Proceeds (s : St) (a : Act) (s' : St) : Prop where
  done : s.cleanupDone = false → s'.cleanupDone = false
  set : s'.onClose = s.onClose ∨ ∃ onMessage, a = .setCallbacks onMessage s'.onClose
  kept : ∀ f ∈ s.ctl, f.isCloser = true → f ∈ s'.ctl
  new : ∀ f ∈ s'.ctl, f.isCloser = true → f ∈ s.ctl ∨
    ∃ r ev err, a = .recvRet r ∧ RecvEnd r ev true err ∧ f = .afterMessage true err

/-- What a step does to the closing of the connection. -/
inductive CloseStep (s : St) (a : Act) : St → Prop
  | closes {err : ℕ} {t : St} : Closing s a err t → t.cleanupDone = false →
      CloseStep s a (t.cleanup err)
  | passes {err : ℕ} {t : St} : Closing s a err t →
      t.state = .kDisconnected ∨ t.cleanupDone = true → CloseStep s a t
  | proceeds {s' : St} : Proceeds s a s' → CloseStep s a s'

section

variable {A : Allocator} {K : Kernel} {s₀ s s₁ s' t : St} {a : Act} {as : List Act}

theorem isCloser_of_light {fs : List Frame} (h : Light fs) : ∀ f ∈ fs, f.isCloser = false := by
  intro f hf
  have := h f hf
  cases f with
  | user | afterHigh | afterClose => rfl
  | _ => cases this

namespace Proceeds

/-- The frames `gs` are left and `fs` are entered. -/
theorem of_ctl (gs fs rest : List Frame) (hctl : s.ctl = gs ++ rest) (hctl' : s'.ctl = fs ++ rest)
    (hgs : ∀ f ∈ gs, f.isCloser = false) (hfs : ∀ f ∈ fs, f.isCloser = false)
    (hdone : s'.cleanupDone = s.cleanupDone ∨ s'.cleanupDone = false)
    (hset : s'.onClose = s.onClose) : Proceeds s a s' := by
  refine ⟨fun hd => ?_, .inl hset, fun f hf hc => ?_, fun f hf hc => .inl ?_⟩
  · rcases hdone with h | h
    · exact h.trans hd
    · exact h
  · rw [hctl, List.mem_append] at hf
    rw [hctl', List.mem_append]
    rcases hf with hf | hf
    · simp [hgs f hf] at hc
    · exact .inr hf
  · rw [hctl', List.mem_append] at hf
    rw [hctl, List.mem_append]
    rcases hf with hf | hf
    · simp [hfs f hf] at hc
    · exact .inr hf

/-- The calls in progress stay as they are. -/
theorem same (hctl : s'.ctl = s.ctl)
    (hdone : s'.cleanupDone = s.cleanupDone ∨ s'.cleanupDone = false)
    (hset : s'.onClose = s.onClose) : Proceeds s a s' :=
  of_ctl [] [] s.ctl rfl hctl (by simp) (by simp) hdone hset

theorem push {fs : List Frame} (hctl : s'.ctl = fs ++ s.ctl) (hfs : Light fs)
    (hdone : s'.cleanupDone = s.cleanupDone ∨ s'.cleanupDone = false)
    (hset : s'.onClose = s.onClose) : Proceeds s a s' :=
  of_ctl [] fs s.ctl rfl hctl (by simp) (isCloser_of_light hfs) hdone hset

theorem pop {f : Frame} {fs rest : List Frame} (hctl : s.ctl = f :: rest)
    (hf : f.isCloser = false) (hctl' : s'.ctl = fs ++ rest) (hfs : ∀ f ∈ fs, f.isCloser = false)
    (hdone : s'.cleanupDone = s.cleanupDone) (hset : s'.onClose = s.onClose) :
    Proceeds s a s' :=
  of_ctl [f] fs rest hctl hctl' (by simpa using hf) hfs (.inl hdone) hset

end Proceeds

theorem checkHigh_proceeds (h : t.checkHigh = .ok s') : ∃ fs, s'.ctl = fs ++ t.ctl ∧ Light fs ∧
    s'.cleanupDone = t.cleanupDone ∧ s'.onClose = t.onClose := by
  obtain ⟨fs, hctl, hl⟩ := ctl_checkHigh h
  rcases St.checkHigh_ok h with rfl | rfl | rfl <;> exact ⟨fs, hctl, hl, rfl, rfl⟩

theorem enqueue_proceeds {bs : List UInt8} (h : t.enqueue A bs = .ok s') :
    ∃ fs, s'.ctl = fs ++ t.ctl ∧ Light fs ∧ s'.cleanupDone = t.cleanupDone ∧
      s'.onClose = t.onClose := by
  obtain ⟨b, b', u, -, -, hu, h⟩ := St.enqueue_ok h
  obtain ⟨c, c', w, -, rfl, -⟩ := St.addWriteEvent_ok hu
  obtain ⟨fs, hctl, hl, hdone, hset⟩ := checkHigh_proceeds h
  exact ⟨fs, hctl, hl, hdone, hset⟩

theorem Sending.proceeds_eq {m : Msg} (h : Sending s a m t) :
    t.ctl = s.ctl ∧ t.cleanupDone = s.cleanupDone ∧ t.onClose = s.onClose := by
  cases h with
  | user | task => exact ⟨rfl, rfl, rfl⟩

theorem LoopEnd.proceeds_eq {m : Msg} {n : ℕ} (h : LoopEnd s m n a t) :
    t.cleanupDone = s.cleanupDone ∧ t.onClose = s.onClose := by
  cases h with
  | goal | blocked => exact ⟨rfl, rfl⟩

theorem connects_proceeds {r : ConnectRet} (h : Connecting s a r t) :
    Proceeds s a (t.startConnectInPoll r) := by
  have ht : t.ctl = s.ctl ∧ (t.cleanupDone = s.cleanupDone ∨ t.cleanupDone = false) ∧
      t.onClose = s.onClose := by
    cases h with
    | user => exact ⟨rfl, .inr rfl, rfl⟩
    | task => exact ⟨rfl, .inl rfl, rfl⟩
  obtain ⟨hctl, hdone, hset⟩ := ht
  rcases t.startConnectInPoll_eq r with ⟨err, he⟩ | ⟨h, w, he⟩ <;> rw [he]
  · rw [St.connectFailed_eq]
    exact .push (by rw [← hctl]) (light_callFrames _ _) hdone hset
  · exact .same hctl hdone hset

theorem starts_proceeds {set : Bool} {cb : Callback} {u : St} (h : Starting s a set cb t)
    (hu : t.start A = .ok u) : Proceeds s a
      { u with ctl := St.callFrames set cb ++ u.ctl, log := u.log ++ St.callLog set cb } := by
  have ht : t.ctl = s.ctl ∧ (t.cleanupDone = s.cleanupDone ∨ t.cleanupDone = false) ∧
      t.onClose = s.onClose := by
    cases h with
    | task | event => exact ⟨rfl, .inl rfl, rfl⟩
    | sync => exact ⟨rfl, .inr rfl, rfl⟩
  obtain ⟨hctl, hdone, hset⟩ := ht
  rcases St.start_ok hu with ⟨rfl, -⟩ | ⟨-, r, w, wr, -, -, rfl⟩
  · exact .push (by rw [← hctl]) (light_callFrames _ _) hdone hset
  · exact .push (by rw [← hctl]) (light_callFrames _ _) (.inr rfl) hset

theorem queues_proceeds {bs : List UInt8} (h : Queueing s a bs t) (hok : t.enqueue A bs = .ok s') :
    Proceeds s a s' := by
  obtain ⟨fs, hctl, hl, hdone, hset⟩ := enqueue_proceeds hok
  cases h with
  | behind hs =>
    obtain ⟨h1, h2, h3⟩ := hs.proceeds_eq
    have hctl' : s'.ctl = fs ++ s.ctl := by
      rw [hctl, ← h1]
      rfl
    exact .push hctl' hl (.inl (hdone.trans h2)) (hset.trans h3)
  | rest hend =>
    obtain ⟨h2, h3⟩ := hend.proceeds_eq
    exact .pop hend.ctl_eq rfl hctl (isCloser_of_light hl) (hdone.trans h2) (hset.trans h3)

/-- The frames of a `::recv` that ends the loop of `handle_read_event_`. -/
theorem recvEnd_proceeds {hasNewData shouldClose : Bool} {rest : List Frame} {r : RecvRet}
    {ev : Ev} {err : ℕ} (hctl : s.ctl = .readLoop hasNewData :: rest)
    (hend : RecvEnd r ev shouldClose err)
    (hctl' : s'.ctl = St.callFrames (hasNewData && s.onMessage) .message ++
      .afterMessage shouldClose err :: rest)
    (hdone : s'.cleanupDone = s.cleanupDone) (hset : s'.onClose = s.onClose) :
    Proceeds s (.recvRet r) s' := by
  have hcall := isCloser_of_light (light_callFrames (hasNewData && s.onMessage) .message)
  refine ⟨fun hd => hdone.trans hd, .inl hset, fun f hf hc => ?_, fun f hf hc => ?_⟩
  · rw [hctl, List.mem_cons] at hf
    rcases hf with rfl | hf
    · cases hc
    · simp [hctl', hf]
  · rw [hctl', List.mem_append, List.mem_cons] at hf
    rcases hf with hf | rfl | hf
    · simp [hcall f hf] at hc
    · cases shouldClose with
      | true => exact .inr ⟨r, ev, err, rfl, hend, rfl⟩
      | false => cases hc
    · exact .inl (by simp [hctl, hf])

/-- **What a step of a dispatch does to the closing of the connection.** -/
theorem close_step (h : Moves A s a s') (hne : s.ctl ≠ []) : CloseStep s a s' := by
  cases h with
  | closes hc hd => exact .closes hc hd
  | passes hc hor => exact .passes hc hor
  | dispatch _ hctl | connectFails _ _ _ hctl => exact absurd hctl hne
  | setCallbacks onMessage onClose =>
    exact .proceeds ⟨id, .inr ⟨onMessage, rfl⟩, fun _ hf _ => hf, fun _ hf _ => .inl hf⟩
  | stay | refused | setWritable | sockError | setWatermark | setWatermarkCallback
  | setCloseTimeout | setBufferSize | post | stopTimers | extractTimer | fireTimer | destroy
  | deliver | ignore | dropTask | interrupted | recvAgain | consume =>
    exact .proceeds (.same rfl (.inl rfl) rfl)
  | postConnect | syncFails => exact .proceeds (.same rfl (.inr rfl) rfl)
  | connects hc => exact .proceeds (connects_proceeds hc)
  | starts hs hu => exact .proceeds (starts_proceeds hs hu)
  | shuts hs _ _ _ hok =>
    have ht : s'.ctl = s.ctl ∧ s'.cleanupDone = s.cleanupDone ∧ s'.onClose = s.onClose := by
      rcases St.shutdownInPoll_ok hok with rfl | ⟨-, -, -, ch, w, l, tid, nid, sch, -, rfl⟩ <;>
        cases hs <;> exact ⟨rfl, rfl, rfl⟩
    exact .proceeds (.same ht.1 (.inl ht.2.1) ht.2.2)
  | leave hctl hl =>
    refine .proceeds (.pop hctl ?_ (List.nil_append _).symm (by simp) rfl rfl)
    cases hl with
    | ret | read | message => rfl
  | endHigh hctl | writeBlocked hctl =>
    exact .proceeds (.pop hctl rfl (List.nil_append _).symm (by simp) rfl rfl)
  | beginWrite hctl | endLow hctl | received hctl =>
    exact .proceeds (.pop hctl rfl (List.singleton_append).symm (by simp [Frame.isCloser]) rfl rfl)
  | endClose hctl =>
    obtain ⟨rel, he, -⟩ := St.releaseChannel_eq { s with ctl := _ }
    rw [he]
    exact .proceeds (.pop hctl rfl (List.nil_append _).symm (by simp) rfl rfl)
  | drained hctl _ _ hok =>
    refine .proceeds (.pop hctl rfl ((ctl_writeTail hok).trans (List.nil_append _).symm) (by simp)
      ?_ ?_) <;>
    obtain ⟨b, -, ⟨-, rfl⟩ | ⟨-, c, c', w, -, -, -, -, -, rfl⟩⟩ := St.writeTail_ok hok <;> rfl
  | wrote hctl _ _ _ _ hok =>
    obtain ⟨b, b', -, -, fs, l, rfl, hf⟩ := St.wrote_ok hok
    refine .proceeds (.pop hctl rfl rfl ?_ rfl rfl)
    rcases hf with ⟨rfl, -⟩ | ⟨rfl, -⟩ | ⟨rfl, -⟩ <;> simp [Frame.isCloser]
  | sentSome hctl =>
    exact .proceeds (.pop hctl rfl (List.singleton_append).symm (by simp [Frame.isCloser]) rfl rfl)
  | @beginSend _ m t _ _ hs =>
    obtain ⟨h1, h2, h3⟩ := hs.proceeds_eq
    exact .proceeds (.of_ctl [] [.sendLoop m 0] s.ctl rfl (congrArg (_ :: ·) h1) (by simp)
      (by simp [Frame.isCloser]) (.inl h2) h3)
  | dropSend hs =>
    obtain ⟨h1, h2, h3⟩ := hs.proceeds_eq
    exact .proceeds (.same h1 (.inl h2) h3)
  | queues hq hok => exact .proceeds (queues_proceeds hq hok)
  | sentAll hend _ hok =>
    obtain ⟨fs, hctl, hl, hdone, hset⟩ := checkHigh_proceeds hok
    obtain ⟨h2, h3⟩ := hend.proceeds_eq
    exact .proceeds (.pop hend.ctl_eq rfl hctl (isCloser_of_light hl) (hdone.trans h2)
      (hset.trans h3))
  | recvEnd e hctl _ _ _ hend => exact .proceeds (recvEnd_proceeds hctl hend rfl rfl rfl)

/-! ### What the record says -/

@[simp] theorem closeArgs_append (l₁ l₂ : List Ev) :
    closeArgs (l₁ ++ l₂) = closeArgs l₁ ++ closeArgs l₂ :=
  List.filterMap_append

theorem closeArgs_closings (l : List Ev) : closeArgs (closings l) = closeArgs l := by
  induction l with
  | nil => rfl
  | cons e l ih =>
    have hcons : closings (e :: l) = closings [e] ++ closings l := closings_append [e] l
    have hhead : closeArgs (closings [e]) = closeArgs [e] := by
      cases e with
      | called cb => cases cb <;> rfl
      | deregistered role => cases role <;> rfl
      | _ => rfl
    have hargs : closeArgs (e :: l) = closeArgs [e] ++ closeArgs l := closeArgs_append [e] l
    rw [hcons, closeArgs_append, hhead, ih, hargs]

theorem mem_closeArgs {l : List Ev} {err : ℕ} : err ∈ closeArgs l ↔ .called (.close err) ∈ l := by
  simp only [closeArgs, List.mem_filterMap]
  constructor
  · rintro ⟨e, he, h⟩
    split at h
    · cases h
      exact he
    · cases h
  · exact fun h => ⟨_, h, rfl⟩

/-- Of a cleanup there is at most one call of the close callback. -/
theorem IsCleanup.closeArgs_length {l : List Ev} (h : IsCleanup l) : (closeArgs l).length ≤ 1 := by
  obtain ⟨k, i, c, rfl, hi, hc⟩ := h
  rcases hi with rfl | rfl <;> rcases hc with rfl | ⟨err, rfl⟩ <;> simp [closeArgs]

/-- After the close callback was called the connection is down, and it is not called again. -/
theorem closed_of_called {err : ℕ} (hI : Inv s) (hm : .kConnected ∈ moves s.log)
    (hc : .called (.close err) ∈ s.log) :
    s.state = .kDisconnected ∧ s.cleanupDone = true ∧ closeArgs s.log = [err] := by
  have hargs : err ∈ closeArgs s.log := mem_closeArgs.2 hc
  have hopen : closings s.log ≠ [] := by
    rw [← closeArgs_closings] at hargs
    rintro he
    simp [he, closeArgs] at hargs
  cases hI.life with
  | fresh hp | queued _ _ hp => simp [hp.moves] at hm
  | connecting _ _ _ _ _ _ _ _ _ _ h9 => simp [h9] at hm
  | dead _ _ _ _ _ h5 => exact absurd hm h5
  | up _ ho | closing _ ho => exact absurd ho.closings hopen
  | down _ _ h2 _ _ h5 _ _ _ h9 =>
    refine ⟨h2, h5, ?_⟩
    have hlen := h9.closeArgs_length
    rw [closeArgs_closings] at hlen
    obtain ⟨e, he⟩ := List.length_eq_one_iff.1
      (le_antisymm hlen (List.length_pos_of_mem hargs))
    rw [he] at hargs ⊢
    rw [List.mem_singleton.1 hargs]

/-- A step only adds to the record. -/
theorem log_step (h : Moves A s a s') : ∃ l, s'.log = s.log ++ l := by
  cases input_step h with
  | aside ha => exact ha.log.imp fun l hl => hl.1
  | resize _ _ _ _ hlog | enter _ _ hlog => exact ⟨[], by simp [hlog]⟩
  | received => exact ⟨_, rfl⟩
  | again => exact ⟨_, rfl⟩
  | ends => exact ⟨_, List.append_assoc ..⟩
  | consume => exact ⟨[], by simp⟩

theorem Closing.same {err : ℕ} (h : Closing s a err t) : t.state = s.state ∧
    t.cleanupDone = s.cleanupDone ∧ t.onClose = s.onClose := by
  cases h with
  | handler | failed | user | task => exact ⟨rfl, rfl, rfl⟩

theorem called_cleanup {err : ℕ} (hd : t.cleanupDone = false) (hset : t.onClose = true) :
    .called (.close err) ∈ (t.cleanup err).log := by
  obtain ⟨sch, ch, w, rel, he, -⟩ := St.cleanup_eq err hd
  rw [he]
  simp [St.cleanupLog, St.closeCallLog, hset]

/-! ### The steps that decide the reason -/

/-- A frame of `handle_write_event_`. -/
def Frame.isWrite : Frame → Bool
  | .writePart | .writeLoop | .afterLow => true
  | _ => false

/-- The write handler is not called: in the branch of `kError` it never is. -/
def NoWrite (ctl : List Frame) : Prop := ∀ f ∈ ctl, f.isWrite = false

theorem isWrite_of_light {fs : List Frame} (h : Light fs) : ∀ f ∈ fs, f.isWrite = false := by
  intro f hf
  have := h f hf
  cases f with
  | user | afterHigh | afterClose => rfl
  | _ => cases this

theorem NoWrite.step {ctl ctl' : List Frame} (h : NoWrite ctl) (hst : StackStep a ctl ctl')
    (hne : ctl ≠ []) : NoWrite ctl' := by
  have turn : ∀ {f f' : Frame} {rest : List Frame}, NoWrite (f :: rest) → Turns f f' →
      NoWrite (f' :: rest) := fun h ht => by
    rw [NoWrite, List.forall_mem_cons] at h ⊢
    refine ⟨?_, h.2⟩
    cases ht with
    | read | message | send => rfl
    | write | written | low | endLow => exact absurd h.1 (by simp [Frame.isWrite])
  cases hst with
  | keep => exact h
  | push hl => exact List.forall_mem_append.2 ⟨isWrite_of_light hl, h⟩
  | enter => exact List.forall_mem_cons.2 ⟨rfl, h⟩
  | pop f rest hl =>
    exact List.forall_mem_append.2 ⟨isWrite_of_light hl, (List.forall_mem_cons.1 h).2⟩
  | turn rest ht => exact turn h ht
  | calls rest hl ht => exact List.forall_mem_append.2 ⟨isWrite_of_light hl, turn h ht⟩
  | dispatch => exact absurd rfl hne

/-- A fatal error of `::send` closes the connection, unless it is closed already. -/
theorem fatal_closes {e : ℕ} (h : Moves A s (.sendRet (.error e)) s')
    (he : handleErrorAction e = .kClose) : ∃ t, Closing s (.sendRet (.error e)) e t ∧
      (t.cleanupDone = false ∧ s' = t.cleanup e ∨
        (t.state = .kDisconnected ∨ t.cleanupDone = true) ∧ s' = t) := by
  cases h with
  | closes hc hd =>
    cases hc with
    | failed hctl hf hact => exact ⟨_, .failed hctl hf hact, .inl ⟨hd, rfl⟩⟩
  | passes hc hor =>
    cases hc with
    | failed hctl hf hact => exact ⟨_, .failed hctl hf hact, .inr ⟨hor, rfl⟩⟩
  | writeBlocked _ _ _ hact | interrupted _ _ _ hact => simp [he] at hact
  | queues hq hok =>
    cases hq with
    | behind hs => cases hs
    | rest hend =>
      cases hend with
      | blocked _ _ hact => simp [he] at hact
  | sentAll hend =>
    cases hend with
    | blocked _ _ hact => simp [he] at hact
  | stay h | refused h => cases h
  | post h | connects h | starts h | shuts h | leave _ h | beginSend h | dropSend h => cases h

/-- At the end of the stream the connection is going to be closed without an error. -/
theorem eof_frame (h : Moves A s (.recvRet .eof) s') :
    .afterMessage true 0 ∈ s'.ctl ∧ s.state = .kConnected := by
  cases h with
  | recvEnd e hctl hs _ _ hend =>
    cases hend with
    | eof => exact ⟨by simp, hs⟩
  | queues hq hok =>
    cases hq with
    | behind hs => cases hs
    | rest hend => cases hend
  | stay h | refused h => cases h
  | post h | connects h | starts h | closes h | passes h | shuts h | leave _ h | beginSend h
  | dropSend h | sentAll h => cases h

theorem isFatalSend_iff : a.isFatalSend = true ↔
    ∃ e, a = .sendRet (.error e) ∧ handleErrorAction e = .kClose := by
  constructor
  · intro h
    unfold Act.isFatalSend at h
    split at h
    · exact ⟨_, rfl, of_decide_eq_true h⟩
    · cases h
  · rintro ⟨e, rfl, he⟩
    exact decide_eq_true he

theorem isEof_iff : a.isEof = true ↔ a = .recvRet .eof := by
  constructor
  · intro h
    unfold Act.isEof at h
    split at h
    · rfl
    · cases h
  · rintro rfl
    rfl

/-! ### The dispatch -/

/-- Where a dispatch with a pending error stands: `eof` and `fatal` say whether `::recv` has
reported the end of the stream, and whether `::send` has failed for good. -/
inductive Report (s : St) (eof fatal : Bool) : Prop
  /-- Whatever is going to close the connection has an error to report. -/
  | waiting : s.cleanupDone = false → s.onClose = true → (∃ f ∈ s.ctl, f.isCloser = true) →
      (∀ err, .closePart err ∈ s.ctl ∨ .afterMessage true err ∈ s.ctl → err ≠ 0) →
      eof = false → fatal = false → Report s eof fatal
  /-- The read handler is going to close it without one. -/
  | ended : s.cleanupDone = false → s.onClose = true → .afterMessage true 0 ∈ s.ctl →
      eof = true → fatal = false → Report s eof fatal
  | reported (err : ℕ) : .called (.close err) ∈ s.log →
      (err ≠ 0 ↔ (eof = true → fatal = true)) → Report s eof fatal

namespace Report

variable {eof fatal : Bool}

/-- The frame that is about to close the connection tells the reason. -/
theorem reason {f : Frame} {rest : List Frame} {err : ℕ} (h : Report s eof fatal)
    (hd : s.cleanupDone = false) (hI : Inv s) (hm : .kConnected ∈ moves s.log)
    (hw : WellStacked s.ctl) (hctl : s.ctl = f :: rest)
    (hf : f = .closePart err ∨ f = .afterMessage true err) :
    err ≠ 0 ↔ (eof = true → fatal = true) := by
  cases h with
  | waiting _ _ _ hne heof =>
    have herr : err ≠ 0 := hne err (by rw [hctl]; rcases hf with rfl | rfl <;> simp)
    simp [herr, heof]
  | ended _ _ hmem heof hfat =>
    -- above the close handler there is only the read handler
    have hst := hw.stacked
    rw [hctl] at hmem hst
    have herr : err = 0 := by
      rcases hf with rfl | rfl
      · obtain rfl : rest = [] := hst
        simp at hmem
      · obtain rfl | ⟨err', rfl⟩ | rfl := hst <;> simpa [eq_comm] using hmem
    simp [herr, heof, hfat]
  | reported e hc =>
    obtain ⟨-, hdone, -⟩ := closed_of_called hI hm hc
    simp [hd] at hdone

/-- The close callback is called. -/
theorem close {err : ℕ} (hc : Closing s a err t) (hd : t.cleanupDone = false)
    (hset : s.onClose = true) (hr : err ≠ 0 ↔ (eof = true → fatal = true)) :
    Report (t.cleanup err) eof fatal :=
  .reported err (called_cleanup hd (hc.same.2.2.trans hset)) hr

/-- While the connection is open it is not too late for a reason. -/
theorem open_or (h : Report s eof fatal) :
    (s.cleanupDone = false ∧ s.onClose = true ∧ fatal = false) ∨
      ∃ err, .called (.close err) ∈ s.log ∧ (err ≠ 0 ↔ (eof = true → fatal = true)) := by
  cases h with
  | waiting hd hset _ _ _ hfat | ended hd hset _ _ hfat => exact .inl ⟨hd, hset, hfat⟩
  | reported err hc hr => exact .inr ⟨err, hc, hr⟩

/-- A step that closes nothing and decides nothing. -/
theorem proceed (h : Report s eof fatal) (hp : Proceeds s a s') (hlog : ∃ l, s'.log = s.log ++ l)
    (hloyal : loyal s a = true) (heof : a.isEof = false) : Report s' eof fatal := by
  have hset : s.cleanupDone = false → s.onClose = true → s'.onClose = true := fun hd hs => by
    rcases hp.set with he | ⟨onMessage, rfl⟩
    · exact he.trans hs
    · simpa [loyal, hd] using hloyal
  cases h with
  | waiting hd hs hex hne he hfat =>
    obtain ⟨f, hf, hc⟩ := hex
    refine .waiting (hp.done hd) (hset hd hs) ⟨f, hp.kept f hf hc, hc⟩ (fun err hmem => ?_) he hfat
    have hnew : ∀ f ∈ s'.ctl, f = .closePart err ∨ f = .afterMessage true err → err ≠ 0 := by
      intro f hf hor
      have hcloser : f.isCloser = true := by rcases hor with rfl | rfl <;> rfl
      rcases hp.new f hf hcloser with hold | ⟨r, ev, err', rfl, hend, rfl⟩
      · exact hne err (by rcases hor with rfl | rfl <;> simp [hold])
      · obtain rfl : err' = err := by simpa using hor
        cases hend with
        | eof => cases heof
        | failed => simpa [loyal] using hloyal
    rcases hmem with hmem | hmem
    · exact hnew _ hmem (.inl rfl)
    · exact hnew _ hmem (.inr rfl)
  | ended hd hs hmem he hfat =>
    exact .ended (hp.done hd) (hset hd hs) (hp.kept _ hmem rfl) he hfat
  | reported err hc hr =>
    obtain ⟨l, hl⟩ := hlog
    exact .reported err (by simp [hl, hc]) hr

end Report

/-- A connection that was started and not cleaned up is open. -/
theorem open_of_not_done (hI : Inv s) (hm : .kConnected ∈ moves s.log)
    (hd : s.cleanupDone = false) : s.state ≠ .kDisconnected := by
  cases hI.life with
  | fresh hp | queued _ _ hp => simp [hp.moves] at hm
  | connecting _ _ _ _ _ _ _ _ _ _ h9 => simp [h9] at hm
  | dead _ _ _ _ _ h5 => exact absurd hm h5
  | up _ _ h1 | closing _ _ h1 => simp [h1]
  | down _ _ _ _ _ h5 => simp [hd] at h5

/-- The state of a dispatch with a pending error. -/
structure Dispatching (s : St) (eof fatal : Bool) : Prop where
  inv : Inv s
  started : .kConnected ∈ moves s.log
  stack : WellStacked s.ctl
  sends : SendsConnected s
  noWrite : NoWrite s.ctl
  report : Report s eof fatal

namespace Dispatching

variable {eof fatal : Bool}

theorem open_of_connected (h : Dispatching s eof fatal) (hs : s.state = .kConnected) :
    s.cleanupDone = false ∧ s.onClose = true := by
  rcases h.report.open_or with ⟨hd, hset, -⟩ | ⟨err, hc, -⟩
  · exact ⟨hd, hset⟩
  · obtain ⟨hdown, -⟩ := closed_of_called h.inv h.started hc
    simp [hs] at hdown

/-- `::send` can only fail while the connection is established. -/
theorem connected_of_failed {e : ℕ} (h : Dispatching s eof fatal)
    (hc : Closing s (.sendRet (.error e)) e t) : s.state = .kConnected := by
  cases hc with
  | failed hctl hf =>
    rcases hf with rfl | ⟨m, n, rfl⟩
    · have := h.noWrite .writeLoop (by simp [hctl])
      cases this
    · exact h.sends m n _ hctl

theorem fails {e : ℕ} (h : Dispatching s eof fatal) (hG : InDispatch (.ok s) (.sendRet (.error e)))
    (he : handleErrorAction e = .kClose) (hst : Moves A s (.sendRet (.error e)) s') :
    Report s' eof true := by
  obtain ⟨t, hc, hor⟩ := fatal_closes hst he
  have hconn := h.connected_of_failed hc
  obtain ⟨hd, hset⟩ := h.open_of_connected hconn
  rcases hor with ⟨htd, rfl⟩ | ⟨hor, rfl⟩
  · have he0 : e ≠ 0 := by simpa [loyal] using hG.2.2
    exact .close hc htd hset (by simp [he0])
  · rw [hc.same.1, hc.same.2.1, hconn, hd] at hor
    simp at hor

theorem ends (h : Dispatching s eof fatal) (hG : InDispatch (.ok s) (.recvRet .eof))
    (hst : Moves A s (.recvRet .eof) s') : Report s' true fatal := by
  obtain ⟨hmem, hconn⟩ := eof_frame hst
  obtain ⟨hd, hset⟩ := h.open_of_connected hconn
  have hfat : fatal = false := by
    rcases h.report.open_or with ⟨-, -, hfat⟩ | ⟨err, hc, -⟩
    · exact hfat
    · obtain ⟨hdown, -⟩ := closed_of_called h.inv h.started hc
      simp [hconn] at hdown
  cases close_step hst hG.2.1 with
  | closes hc | passes hc => cases hc
  | proceeds hp =>
    refine .ended (hp.done hd) ?_ hmem rfl hfat
    rcases hp.set with he | ⟨onMessage, he⟩
    · exact he.trans hset
    · cases he

/-- A step that neither ends the stream nor fails to send. -/
theorem goes_on (h : Dispatching s eof fatal) (hG : InDispatch (.ok s) a) (hst : Moves A s a s')
    (heof : a.isEof = false) (hfat : a.isFatalSend = false) : Report s' eof fatal := by
  obtain ⟨l, hl⟩ := log_step hst
  cases close_step hst hG.2.1 with
  | proceeds hp => exact h.report.proceed hp ⟨l, hl⟩ hG.2.2 heof
  | closes hc hd =>
    have hd' : s.cleanupDone = false := hc.same.2.1 ▸ hd
    have hset : s.onClose = true := by
      rcases h.report.open_or with ⟨-, hset, -⟩ | ⟨err, hcall, -⟩
      · exact hset
      · obtain ⟨-, hdone, -⟩ := closed_of_called h.inv h.started hcall
        simp [hd'] at hdone
    cases hc with
    | handler hctl hf =>
      exact .close (.handler hctl hf) hd hset
        (h.report.reason hd' h.inv h.started h.stack hctl hf)
    | failed _ _ he => simp [isFatalSend_iff.2 ⟨_, rfl, he⟩] at hfat
    | user =>
      have hdone : s.cleanupDone = true := hG.2.2
      simp [hd'] at hdone
    | task _ hctl => exact absurd hctl hG.2.1
  | passes hc hor =>
    rcases h.report.open_or with ⟨hd, -, -⟩ | ⟨err, hcall, hr⟩
    · have hopen := open_of_not_done h.inv h.started hd
      rw [hc.same.1, hc.same.2.1, hd] at hor
      simp [hopen] at hor
    · exact .reported err (by simp [hl, hcall]) hr

/-- **The step lemma.** -/
theorem step (h : Dispatching s eof fatal) (hG : InDispatch (.ok s) a)
    (hst : s.step A K a = some (.ok s')) :
    Dispatching s' (eof || a.isEof) (fatal || a.isFatalSend) := by
  have hmove := step_cases hst
  have hstack := stack_step hmove
  obtain ⟨l, hl⟩ := log_step hmove
  refine ⟨h.inv.step hG.1 hst, ?_, ⟨h.stack.stacked.step hstack, noLoop_tail_step h.stack.noLoop
    hstack⟩, h.sends.step h.stack hmove, h.noWrite.step hstack hG.2.1, ?_⟩
  · rw [hl]
    exact started_append h.started
  · cases hfat : a.isFatalSend with
    | true =>
      obtain ⟨e, rfl, he⟩ := isFatalSend_iff.1 hfat
      have heof : Act.isEof (.sendRet (.error e)) = false := rfl
      rw [heof, Bool.or_false, Bool.or_true]
      exact h.fails hG he hmove
    | false =>
      rw [Bool.or_false]
      cases heof : a.isEof with
      | true =>
        obtain rfl := isEof_iff.1 heof
        rw [Bool.or_true]
        exact h.ends hG hmove
      | false =>
        rw [Bool.or_false]
        exact h.goes_on hG hmove heof hfat

/-- **The run lemma.** -/
theorem run (h : Dispatching s eof fatal) (hrun : (machine A K).exec (.ok s) as = some (.ok s'))
    (hG : (machine A K).Meets InDispatch (.ok s) as) :
    Dispatching s' (eof || sawEof as) (fatal || sawFatalSend as) ∧ ∃ l, s'.log = s.log ++ l := by
  induction as generalizing s eof fatal with
  | nil =>
    cases hrun
    simpa [sawEof, sawFatalSend] using h
  | cons a as ih =>
    obtain ⟨c, hst, hrun⟩ := Option.bind_eq_some_iff.1 hrun
    rw [Machine.meets_cons hst] at hG
    cases c with
    | error e =>
      cases as with
      | nil => cases hrun
      | cons => cases hrun
    | ok s₁ =>
      have hstep := machine_step hst
      obtain ⟨hend, l, hl⟩ := ih (h.step hG.1 hstep) hrun hG.2
      obtain ⟨l₁, hl₁⟩ := log_step (step_cases hstep)
      refine ⟨?_, l₁ ++ l, by rw [hl, hl₁, List.append_assoc]⟩
      simpa [sawEof, sawFatalSend, Bool.or_assoc] using hend

end Dispatching

/-! ### The whole dispatch -/

/-- A whole dispatch of an event set with `kError` to an established connection: `SO_ERROR` is an
error, the close callback is set, and the steps `as` follow until `handle_event` returns. -/
structure ErrorDispatch (A : Allocator) (K : Kernel) (s : St) (as : List Act) (s' : St) :
    Prop where
  delivered : ∃ ev, s.delivered = some (.established, ev) ∧ ev.error = true
  error : s.soError ≠ 0
  notDone : s.cleanupDone = false
  set : s.onClose = true
  run : (machine A K).exec (.ok s) (.dispatch :: as) = some (.ok s')
  meets : ∀ c, (machine A K).step (.ok s) .dispatch = some c → (machine A K).Meets InDispatch c as
  returned : s'.ctl = []

/-- What the dispatch of an event set with `kError` enters. -/
theorem dispatch_error {ev : Events} {c : Except Crash St} (hh : s.handle ≠ none)
    (hdel : s.delivered = some (.established, ev)) (hev : ev.error = true)
    (hst : s.step A K .dispatch = some c) : c = .ok
      { s with
        delivered := none, soError := 0
        ctl := (if ev.read then [.readLoop false] else []) ++ [.closePart s.soError] } := by
  simp only [St.step, St.otherStep, hdel] at hst
  split at hst
  · rename_i role ev' hctl he
    cases he
    cases hst
    obtain ⟨h, hh⟩ := Option.ne_none_iff_exists'.1 hh
    have htake : St.takeSoError { s with delivered := none } =
        (some s.soError, { s with delivered := none, soError := 0 }) := by
      simp [St.takeSoError, hh]
    simp only [St.handleEvent, hev, Bool.true_or, reduceIte, htake, Option.getD_some, St.readPart]
    split_ifs <;> simp [St.push, hctl]
  · cases hst

theorem dispatching_of_error {ev : Events} {c : Except Crash St} (h₀ : Init s₀)
    (h : (machine A K).ReachIf OneShot (.ok s₀) (.ok s))
    (hdel : s.delivered = some (.established, ev)) (hev : ev.error = true)
    (herr : s.soError ≠ 0) (hd : s.cleanupDone = false) (hset : s.onClose = true)
    (hst : (machine A K).step (.ok s) .dispatch = some c) :
    ∃ s₁, c = .ok s₁ ∧ s₁.log = s.log ∧ closeArgs s.log = [] ∧ Dispatching s₁ false false := by
  have hI := inv_of_reach h₀ h
  -- only a connection that was established has a channel of this kind
  have hm : .kConnected ∈ moves s.log := by
    by_contra hm
    have := (hI.life.waiting hm).2.delivered _ hdel
    cases this
  obtain ⟨pre, ho⟩ := hI.life.isOpen_of_state hm (open_of_not_done hI hm hd)
  have hargs : closeArgs s.log = [] := by
    rw [← closeArgs_closings, ho.closings]
    rfl
  have hc := dispatch_error ho.handle hdel hev (machine_step hst)
  subst hc
  have hone : OneShot (.ok s) .dispatch := trivial
  have hreach := h.tail hone hst
  refine ⟨_, rfl, rfl, hargs, inv_of_reach h₀ hreach, hm, stacked_of_reach h₀ hreach.reach,
    sendsConnected_of_reach h₀ hreach.reach, ?_, ?_⟩
  · show NoWrite ((if ev.read then [Frame.readLoop false] else []) ++ [Frame.closePart s.soError])
    split_ifs <;> simp [NoWrite, Frame.isWrite]
  · refine .waiting hd hset ⟨.closePart s.soError, by simp, rfl⟩ (fun err hmem => ?_) rfl rfl
    have hclose : err = s.soError := by
      rcases hmem with hmem | hmem
      · revert hmem
        split_ifs <;> simp
      · revert hmem
        split_ifs <;> simp
    rw [hclose]
    exact herr

/-- **A socket error is reported as an error** in a dispatch of `kError`, whatever `::recv` and the
callbacks do, if and only if `::recv` does not report the end of the stream first, or a fatal error
of `::send` in the message callback comes in between. -/
theorem error_reported_iff (h₀ : Init s₀) (h : (machine A K).ReachIf OneShot (.ok s₀) (.ok s))
    (hrun : ErrorDispatch A K s as s') :
    (∃ err, closeArgs (s'.log.drop s.log.length) = [err] ∧ err ≠ 0) ↔
      (sawEof as = true → sawFatalSend as = true) := by
  obtain ⟨ev, hdel, hev⟩ := hrun.delivered
  obtain ⟨c, hst, hexec⟩ := Option.bind_eq_some_iff.1 hrun.run
  obtain ⟨s₁, rfl, hlog₁, hargs, hbegin⟩ :=
    dispatching_of_error h₀ h hdel hev hrun.error hrun.notDone hrun.set hst
  obtain ⟨hend, l, hl⟩ := hbegin.run hexec (hrun.meets _ hst)
  rw [Bool.false_or, Bool.false_or] at hend
  -- nothing that would close the connection is left, so the callback was called
  cases hend.report with
  | waiting _ _ hex =>
    obtain ⟨f, hf, -⟩ := hex
    simp [hrun.returned] at hf
  | ended _ _ hmem => simp [hrun.returned] at hmem
  | reported err hc hr =>
    obtain ⟨-, -, hall⟩ := closed_of_called hend.inv hend.started hc
    rw [hl, hlog₁, closeArgs_append, hargs, List.nil_append] at hall
    rw [hl, hlog₁, List.drop_left, hall, ← hr]
    constructor
    · rintro ⟨err', he, hne⟩
      rw [List.singleton_inj.1 he]
      exact hne
    · exact fun hne => ⟨err, rfl, hne⟩

/-- The test of a whole dispatch in which the close callback gets the arguments `args`. -/
def testDispatch (A : Allocator) (K : Kernel) (as : List Act) (args : List ℕ) (s : St) : Bool :=
  (s.delivered.any fun x => x.1 = .established && x.2.error) && s.soError ≠ 0 && !s.cleanupDone &&
    s.onClose && (((machine A K).step (.ok s) .dispatch).all fun c =>
      (machine A K).Meets InDispatch c as) &&
    endsIn A K s (.dispatch :: as) fun s' =>
      s'.ctl = [] && closeArgs (s'.log.drop s.log.length) = args

theorem of_testDispatch {args : List ℕ} (h : testDispatch A K as args s = true) :
    ∃ s', ErrorDispatch A K s as s' ∧ closeArgs (s'.log.drop s.log.length) = args := by
  simp only [testDispatch, Bool.and_eq_true, decide_eq_true_eq, Bool.not_eq_eq_eq_not,
    Bool.not_true, endsIn] at h
  obtain ⟨⟨⟨⟨⟨hdel, herr⟩, hd⟩, hset⟩, hmeets⟩, hend⟩ := h
  split at hend
  · rename_i s' hs'
    rw [Bool.and_eq_true, decide_eq_true_eq, decide_eq_true_eq] at hend
    obtain ⟨⟨role, ev⟩, he, hx⟩ := (Option.any_eq_true ..).1 hdel
    rw [Bool.and_eq_true, decide_eq_true_eq] at hx
    obtain ⟨rfl, hev⟩ : role = .established ∧ ev.error = true := hx
    refine ⟨s', ⟨⟨ev, he, hev⟩, herr, hd, hset, hs', fun c hc => ?_, hend.1⟩, hend.2⟩
    rw [hc] at hmeets
    simpa using hmeets
  · cases hend

/-- A started connection with a close callback, for which the poller reports an error and data. -/
def resetByPeer : List Act :=
  [.runTask .badAddress, .setCallbacks true true, .sockError 104,
    .deliver ⟨true, false, true, false⟩]

/-- Data, then nothing more: the message callback is called, and then the close callback with the
pending error. -/
theorem error_reported_iff_data : ∃ s s' as, ErrorDispatch .zeroed .linux s as s' ∧
    sawEof as = false ∧ ∃ err, closeArgs (s'.log.drop s.log.length) = [err] ∧ err ≠ 0 := by
  have hrun := reachIf_of_endsIn (A := .zeroed) (K := .linux) (G := OneShot)
    (p := testDispatch .zeroed .linux
      [.recvRet (.data [7]), .recvRet (.error EAGAIN), .ret, .tau, .tau, .ret, .tau] [104])
    (accepted 5 false) resetByPeer (by decide +kernel) (by decide +kernel)
  obtain ⟨s, hs, ht⟩ := hrun
  obtain ⟨s', hd, -⟩ := of_testDispatch ht
  exact ⟨s, s', _, hd, rfl, (error_reported_iff (.server 5 false) hs hd).2 fun h => by cases h⟩

/-- The end of the stream: the connection was reset, and the close callback is told 0. -/
theorem error_not_reported : ∃ s s' as,
    (machine .zeroed .linux).ReachIf OneShot (.ok (accepted 5 false)) (.ok s) ∧
      ErrorDispatch .zeroed .linux s as s' ∧ closeArgs (s'.log.drop s.log.length) = [0] := by
  have hrun := reachIf_of_endsIn (A := .zeroed) (K := .linux) (G := OneShot)
    (p := testDispatch .zeroed .linux [.recvRet .eof, .tau, .ret, .tau, .tau] [0])
    (accepted 5 false) resetByPeer (by decide +kernel) (by decide +kernel)
  obtain ⟨s, hs, ht⟩ := hrun
  obtain ⟨s', hd, hargs⟩ := of_testDispatch ht
  exact ⟨s, s', _, hs, hd, hargs⟩

end

end Conn

end CxpNet
