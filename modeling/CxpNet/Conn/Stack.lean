import CxpNet.Conn.Moves
import CxpNet.Conn.Outgoing

/-!
# The calls in progress

A dispatch begins with an empty stack and enters at most two handlers, one under the other; a
handler is never entered a second time from inside.  What user code enters on top of it is a call
that comes back: a callback, the end of `do_cleanup_` or of `send_in_poll_thread_`, or the loop of
`send_in_poll_thread_`.  The three loops call nobody, so only the innermost call can be in one.

* `Conn.stack_step` : what a step does to the stack;
* `Conn.stacked_of_reach` : the stack of every run has this form;
* `Conn.sendsConnected_of_reach` : a send goes on only in state `kConnected`.
-/

namespace CxpNet

namespace Conn

/-- A frame that any call may enter. -/
def Frame.isLight : Frame → Bool
  | .user _ | .afterHigh | .afterClose => true
  | _ => false

/-- All of these frames may be entered by any call. -/
def Light (fs : List Frame) : Prop := ∀ f ∈ fs, f.isLight = true

/-- A frame goes on as another one. -/
inductive Turns : Frame → Frame → Prop
  | write : Turns .writePart .writeLoop
  | written : Turns .writeLoop .writeLoop
  | low : Turns .writeLoop .afterLow
  | endLow : Turns .afterLow .writeLoop
  | read (a b : Bool) : Turns (.readLoop a) (.readLoop b)
  | message (a b : Bool) (err : ℕ) : Turns (.readLoop a) (.afterMessage b err)
  | send (m : Msg) (n k : ℕ) : Turns (.sendLoop m n) (.sendLoop m k)

/-- A loop around a system call. -/
def Frame.isLoop : Frame → Bool
  | .readLoop _ | .writeLoop | .sendLoop _ _ => true
  | _ => false

/-- No call is in a loop. -/
def NoLoop (ctl : List Frame) : Prop := ∀ f ∈ ctl, f.isLoop = false

/-- The innermost call is not in a loop. -/
def NotLooping (ctl : List Frame) : Prop := ∀ f ∈ ctl.head?, f.isLoop = false

/-- What the step `a` does to the stack. -/
inductive StackStep (a : Act) : List Frame → List Frame → Prop
  | keep (ctl : List Frame) : StackStep a ctl ctl
  | push {ctl fs : List Frame} : Light fs → NotLooping ctl → StackStep a ctl (fs ++ ctl)
  | enter {ctl : List Frame} (m : Msg) : NotLooping ctl → a = .send m ∨ ctl = [] →
      StackStep a ctl (.sendLoop m 0 :: ctl)
  | pop {fs : List Frame} (f : Frame) (rest : List Frame) : Light fs →
      StackStep a (f :: rest) (fs ++ rest)
  | turn {f f' : Frame} (rest : List Frame) : Turns f f' → StackStep a (f :: rest) (f' :: rest)
  | calls {fs : List Frame} {f f' : Frame} (rest : List Frame) : Light fs → Turns f f' →
      f'.isLoop = false → StackStep a (f :: rest) (fs ++ f' :: rest)
  | dispatch {ev : Events} {fs : List Frame} : St.EventFrames ev fs → StackStep a [] fs

section

variable {A : Allocator} {K : Kernel} {s₀ s s' t : St} {a : Act}

theorem notLooping_of_inUserCode (h : s.inUserCode = true) : NotLooping s.ctl := by
  unfold St.inUserCode at h
  intro f hf
  split at h
  · rename_i hctl
    simp [hctl] at hf
  · rename_i cb rest hctl
    rw [hctl] at hf
    cases hf
    rfl
  · cases h

theorem light_nil : Light [] := by simp [Light]

theorem light_closeFrames (err : ℕ) (t : St) : Light (t.closeFrames err) := by
  unfold St.closeFrames
  split_ifs <;> simp [Light, Frame.isLight]

theorem light_callFrames (b : Bool) (cb : Callback) : Light (St.callFrames b cb) := by
  unfold St.callFrames
  split_ifs <;> simp [Light, Frame.isLight]

theorem ctl_cleanup (err : ℕ) (h : t.cleanupDone = false) :
    (t.cleanup err).ctl = t.closeFrames err ++ t.ctl := by
  obtain ⟨sch, ch, w, rel, he, -⟩ := St.cleanup_eq err h
  rw [he]

theorem ctl_checkHigh (h : t.checkHigh = .ok s') :
    ∃ fs, s'.ctl = fs ++ t.ctl ∧ Light fs := by
  rcases St.checkHigh_ok h with rfl | rfl | rfl
  · exact ⟨[], rfl, light_nil⟩
  · exact ⟨[], rfl, light_nil⟩
  · exact ⟨[.user (.watermark t.highWatermark), .afterHigh], rfl, by simp [Light, Frame.isLight]⟩

theorem ctl_enqueue {bs : List UInt8} (h : t.enqueue A bs = .ok s') :
    ∃ fs, s'.ctl = fs ++ t.ctl ∧ Light fs := by
  obtain ⟨b, b', u, -, -, hu, h⟩ := St.enqueue_ok h
  obtain ⟨c, c', w, -, rfl, -⟩ := St.addWriteEvent_ok hu
  obtain ⟨fs, he, hl⟩ := ctl_checkHigh h
  exact ⟨fs, he, hl⟩

theorem ctl_start (h : t.start A = .ok s') : s'.ctl = t.ctl := by
  rcases St.start_ok h with ⟨rfl, -⟩ | ⟨-, r, w, wr, -, -, rfl⟩ <;> rfl

theorem ctl_shutdownInPoll (h : t.shutdownInPoll = .ok s') : s'.ctl = t.ctl := by
  rcases St.shutdownInPoll_ok h with rfl | ⟨-, -, -, ch, w, l, tid, nid, sch, -, rfl⟩ <;> rfl

theorem ctl_startConnectInPoll (r : ConnectRet) (t : St) :
    ∃ fs, (t.startConnectInPoll r).ctl = fs ++ t.ctl ∧ Light fs := by
  rcases t.startConnectInPoll_eq r with ⟨err, he⟩ | ⟨h, w, he⟩ <;> rw [he]
  · rw [St.connectFailed_eq]
    exact ⟨_, rfl, light_callFrames _ _⟩
  · exact ⟨[], rfl, light_nil⟩

theorem ctl_writeTail (h : t.writeTail = .ok s') : s'.ctl = t.ctl := by
  obtain ⟨b, -, ⟨-, rfl⟩ | ⟨-, c, c', w, -, -, -, -, -, rfl⟩⟩ := St.writeTail_ok h <;> rfl

theorem ctl_releaseChannel (t : St) : t.releaseChannel.ctl = t.ctl := by
  obtain ⟨rel, he, -⟩ := t.releaseChannel_eq
  rw [he]

/-- The frame that a loop of `send_in_poll_thread_` leaves when it ends. -/
theorem LoopEnd.ctl_eq {m : Msg} {n : ℕ} (h : LoopEnd s m n a t) :
    s.ctl = .sendLoop m n :: t.ctl := by
  cases h with
  | goal hctl | blocked hctl => exact hctl

theorem notLooping_nil (h : s.ctl = []) : NotLooping s.ctl := by
  simp [NotLooping, h]

theorem Sending.notLooping {m : Msg} (h : Sending s a m t) :
    t.ctl = s.ctl ∧ NotLooping s.ctl := by
  cases h with
  | user hu => exact ⟨rfl, notLooping_of_inUserCode hu⟩
  | task _ hctl => exact ⟨rfl, notLooping_nil hctl⟩

/-- **What a step does to the stack.** -/
theorem stack_step (h : Moves A s a s') : StackStep a s.ctl s'.ctl := by
  cases h with
  | stay | refused | setWritable | sockError | setCallbacks | setWatermark
  | setWatermarkCallback | setCloseTimeout | setBufferSize | post | stopTimers | extractTimer
  | fireTimer | destroy | deliver | ignore | postConnect | syncFails | dropTask | interrupted
  | recvAgain | consume => exact .keep _
  | dispatch e hctl hdel hfs =>
    rw [hctl]
    exact .dispatch hfs
  | connectFails w e err hctl =>
    rw [hctl]
    have : StackStep .dispatch [] (St.callFrames s.onConnectError (.connectError err) ++ []) :=
      .push (light_callFrames s.onConnectError (.connectError err)) (by simp [NotLooping])
    rwa [List.append_nil] at this
  | @connects _ r t hc =>
    obtain ⟨fs, he, hl⟩ := ctl_startConnectInPoll r t
    rw [he]
    cases hc with
    | user _ _ _ hu => exact .push hl (notLooping_of_inUserCode hu)
    | task _ hctl => exact .push hl (notLooping_nil hctl)
  | starts hs hu =>
    rw [ctl_start hu]
    cases hs with
    | task _ hctl => exact .push (light_callFrames _ _) (notLooping_nil hctl)
    | sync _ hu => exact .keep _
    | event _ _ hctl => exact .push (light_callFrames _ _) (notLooping_nil hctl)
  | closes hc hd =>
    rw [ctl_cleanup _ hd]
    cases hc with
    | handler hctl | failed hctl =>
      rw [hctl]
      exact .pop _ _ (light_closeFrames _ _)
    | user hu => exact .push (light_closeFrames _ _) (notLooping_of_inUserCode hu)
    | task _ hctl => exact .push (light_closeFrames _ _) (notLooping_nil hctl)
  | passes hc =>
    cases hc with
    | handler hctl | failed hctl =>
      rw [hctl]
      exact .pop _ _ light_nil
    | user hu => exact .keep _
    | task => exact .keep _
  | shuts hs _ _ _ hok =>
    rw [ctl_shutdownInPoll hok]
    cases hs with
    | user | task => exact .keep _
  | leave hctl =>
    rw [hctl]
    exact .pop _ _ light_nil
  | beginWrite hctl =>
    rw [hctl]
    exact .turn _ .write
  | endLow hctl =>
    rw [hctl]
    exact .turn _ .endLow
  | endHigh hctl =>
    rw [hctl]
    exact .pop _ _ light_nil
  | endClose hctl =>
    rw [hctl, ctl_releaseChannel]
    exact .pop _ _ light_nil
  | drained hctl _ _ hok =>
    rw [hctl, ctl_writeTail hok]
    exact .pop _ _ light_nil
  | wrote hctl _ _ _ _ hok =>
    obtain ⟨b, b', -, -, fs, l, rfl, hf⟩ := St.wrote_ok hok
    rw [hctl]
    rcases hf with ⟨rfl, -⟩ | ⟨rfl, -⟩ | ⟨rfl, -⟩
    · exact .turn _ .written
    · exact .turn _ .low
    · have light : ∀ cb, Light [.user cb] := by simp [Light, Frame.isLight]
      exact .calls _ (light _) .low rfl
  | writeBlocked hctl =>
    rw [hctl]
    exact .pop _ _ light_nil
  | @sentSome m n k _ hctl =>
    rw [hctl]
    exact .turn _ (.send m n (n + k))
  | beginSend hs =>
    obtain ⟨he, hn⟩ := hs.notLooping
    have hctl : ∀ e f, ((St.note e _).push f).ctl = f :: s.ctl := fun e f => congrArg (f :: ·) he
    rw [hctl]
    refine .enter _ hn ?_
    cases hs with
    | user => exact .inl rfl
    | task _ hnil => exact .inr hnil
  | dropSend hs =>
    have hctl : ∀ e, (St.note e _).ctl = s.ctl := fun e => hs.notLooping.1
    rw [hctl]
    exact .keep _
  | queues hq hok =>
    obtain ⟨fs, he, hl⟩ := ctl_enqueue hok
    rw [he]
    cases hq with
    | behind hs =>
      have hctl : ∀ e, (St.note e _).ctl = s.ctl := fun e => hs.notLooping.1
      rw [hctl]
      exact .push hl hs.notLooping.2
    | rest hend =>
      rw [hend.ctl_eq]
      exact .pop _ _ hl
  | sentAll hend _ hok =>
    obtain ⟨fs, he, hl⟩ := ctl_checkHigh hok
    rw [he, hend.ctl_eq]
    exact .pop _ _ hl
  | @received b _ _ _ _ _ hctl =>
    rw [hctl]
    exact .turn _ (.read b true)
  | recvEnd e hctl =>
    rw [hctl]
    exact .calls _ (light_callFrames _ _) (.message _ _ _) rfl

/-! ### The form of the stack -/

/-- The handlers of a dispatch are at the bottom of the stack: the write handler alone, the close
handler alone, or the read handler with at most one of them below. -/
def Stacked : List Frame → Prop
  | [] => True
  | .readLoop _ :: rest | .afterMessage _ _ :: rest =>
    rest = [] ∨ (∃ err, rest = [.closePart err]) ∨ rest = [.writePart]
  | .closePart _ :: rest | .writePart :: rest | .writeLoop :: rest | .afterLow :: rest => rest = []
  | .user _ :: rest | .sendLoop _ _ :: rest | .afterHigh :: rest | .afterClose :: rest =>
    Stacked rest

theorem Stacked.tail {f : Frame} {rest : List Frame} (h : Stacked (f :: rest)) :
    Stacked rest := by
  cases f with
  | user | sendLoop | afterHigh | afterClose => exact h
  | closePart | writePart | writeLoop | afterLow =>
    obtain rfl : rest = [] := h
    trivial
  | readLoop | afterMessage =>
    obtain rfl | ⟨err, rfl⟩ | rfl := h
    · trivial
    · rfl
    · rfl

theorem Stacked.append {fs ctl : List Frame} (hfs : Light fs) (h : Stacked ctl) :
    Stacked (fs ++ ctl) := by
  induction fs with
  | nil => exact h
  | cons f fs ih =>
    have ih := ih fun g hg => hfs g (List.mem_cons_of_mem f hg)
    have hf := hfs f (by simp)
    cases f with
    | user | afterHigh | afterClose => exact ih
    | _ => cases hf

theorem Stacked.turn {f f' : Frame} {rest : List Frame} (h : Stacked (f :: rest))
    (ht : Turns f f') : Stacked (f' :: rest) := by
  cases ht with
  | write | written | low | endLow | read | message | send => exact h

theorem Stacked.step {ctl ctl' : List Frame} (h : Stacked ctl) (hst : StackStep a ctl ctl') :
    Stacked ctl' := by
  cases hst with
  | keep => exact h
  | push hl => exact h.append hl
  | enter m => exact h
  | pop f rest hl => exact h.tail.append hl
  | turn rest ht => exact h.turn ht
  | calls rest hl ht => exact (h.turn ht).append hl
  | dispatch hfs =>
    cases hfs with
    | close err =>
      split_ifs
      · exact .inr (.inl ⟨err, rfl⟩)
      · rfl
    | write =>
      split_ifs
      · exact .inr (.inr rfl)
      · rfl
    | read =>
      split_ifs
      · exact .inl rfl
      · trivial

theorem noLoop_of_light {fs : List Frame} (h : Light fs) : NoLoop fs := fun f hf => by
  have := h f hf
  cases f with
  | user | afterHigh | afterClose => rfl
  | _ => cases this

theorem NoLoop.noSend {ctl : List Frame} (h : NoLoop ctl) : NoSend ctl := fun f hf => by
  have := h f hf
  cases f with
  | sendLoop => cases this
  | _ => rfl

theorem noLoop_whole {ctl : List Frame} (h : NoLoop ctl.tail) (hn : NotLooping ctl) :
    NoLoop ctl := by
  cases ctl with
  | nil => exact h
  | cons f rest => exact List.forall_mem_cons.2 ⟨hn f rfl, h⟩

theorem noSend_of_eventFrames {ev : Events} {fs : List Frame} (h : St.EventFrames ev fs) :
    NoSend fs := by
  cases h with
  | close | write | read => split_ifs <;> simp [NoSend, Frame.isSend]

/-- Only the innermost call can be in a loop. -/
theorem noLoop_tail_step {ctl ctl' : List Frame} (h : NoLoop ctl.tail)
    (hst : StackStep a ctl ctl') : NoLoop ctl'.tail := by
  have tail : ∀ {l : List Frame}, NoLoop l → NoLoop l.tail := fun hl f hf =>
    hl f (List.mem_of_mem_tail hf)
  cases hst with
  | keep | turn => exact h
  | push hl hn => exact tail (List.forall_mem_append.2 ⟨noLoop_of_light hl, noLoop_whole h hn⟩)
  | enter m hn => exact noLoop_whole h hn
  | pop f rest hl => exact tail (List.forall_mem_append.2 ⟨noLoop_of_light hl, h⟩)
  | calls rest hl _ hf =>
    exact tail (List.forall_mem_append.2 ⟨noLoop_of_light hl, List.forall_mem_cons.2 ⟨hf, h⟩⟩)
  | dispatch hfs =>
    cases hfs with
    | close | write | read => split_ifs <;> simp [NoLoop, Frame.isLoop]

/-! ### Whole runs -/

/-- The form of the stack. -/
structure WellStacked (ctl : List Frame) : Prop where
  stacked : Stacked ctl
  noLoop : NoLoop ctl.tail

/-- **The form of the stack in every run.** -/
theorem stacked_of_reach (h₀ : Init s₀) (h : (machine A K).Reach (.ok s₀) (.ok s)) :
    WellStacked s.ctl := by
  refine invariant_ok (I := fun s => WellStacked s.ctl) (J := fun _ => True) h
    (fun _ _ => trivial) ?_ fun s a s' _ ih _ hst => ?_
  · cases h₀ with
    | server | client => exact ⟨trivial, by simp [NoLoop, accepted, new]⟩
  · have hmove := stack_step (step_cases hst)
    exact ⟨ih.stacked.step hmove, noLoop_tail_step ih.noLoop hmove⟩

/-! ### The loop of a send -/

/-- `send_in_poll_thread_` stays in its loop only in state `kConnected`. -/
def SendsConnected (s : St) : Prop :=
  ∀ m n rest, s.ctl = .sendLoop m n :: rest → s.state = .kConnected

theorem sendsConnected_of_noLoop (h : NoLoop s.ctl) : SendsConnected s := by
  intro m n rest hctl
  have := h (.sendLoop m n) (by simp [hctl])
  cases this

/-- A frame is left, and no loop is entered. -/
theorem WellStacked.noLoop_pop {f : Frame} {fs rest : List Frame} (h : WellStacked s.ctl)
    (hctl : s.ctl = f :: rest) (hfs : Light fs) : NoLoop (fs ++ rest) := by
  have hrest : NoLoop rest := by
    have := h.noLoop
    rwa [hctl] at this
  exact List.forall_mem_append.2 ⟨noLoop_of_light hfs, hrest⟩

theorem WellStacked.noLoop_push {fs : List Frame} (h : WellStacked s.ctl)
    (hn : NotLooping s.ctl) (hfs : Light fs) : NoLoop (fs ++ s.ctl) :=
  List.forall_mem_append.2 ⟨noLoop_of_light hfs, noLoop_whole h.noLoop hn⟩

theorem sendsConnected_closes {err : ℕ} (h : Closing s a err t) (hw : WellStacked s.ctl)
    (hd : t.cleanupDone = false) : SendsConnected (t.cleanup err) := by
  apply sendsConnected_of_noLoop
  rw [ctl_cleanup _ hd]
  have hl := light_closeFrames err t
  cases h with
  | handler hctl | failed hctl => exact hw.noLoop_pop hctl hl
  | user hu => exact hw.noLoop_push (notLooping_of_inUserCode hu) hl
  | task _ hctl => exact hw.noLoop_push (notLooping_nil hctl) hl

/-- The step lemma: whoever moves the state is not in that loop. -/
theorem SendsConnected.step (h : SendsConnected s) (hw : WellStacked s.ctl)
    (hst : Moves A s a s') : SendsConnected s' := by
  cases hst with
  | stay | refused | setWritable | sockError | setCallbacks | setWatermark
  | setWatermarkCallback | setCloseTimeout | setBufferSize | post | stopTimers | extractTimer
  | fireTimer | destroy | deliver | ignore | postConnect | syncFails | dropTask | interrupted
  | recvAgain | consume => exact h
  | @dispatch ev fs e hctl hdel hfs =>
    intro m n rest hc
    have hmem : Frame.sendLoop m n ∈ fs := by
      rw [show fs = _ from hc]
      exact List.mem_cons_self
    have := noSend_of_eventFrames hfs _ hmem
    cases this
  | connectFails w e err hctl =>
    exact sendsConnected_of_noLoop (noLoop_of_light (light_callFrames _ _))
  | @connects _ r t hc =>
    obtain ⟨fs, he, hl⟩ := ctl_startConnectInPoll r t
    apply sendsConnected_of_noLoop
    rw [he]
    cases hc with
    | user _ _ _ hu => exact hw.noLoop_push (notLooping_of_inUserCode hu) hl
    | task _ hctl => exact hw.noLoop_push (notLooping_nil hctl) hl
  | @starts _ set cb t u hs hu =>
    have hctl : u.ctl = s.ctl ∧ NotLooping s.ctl := by
      rw [ctl_start hu]
      cases hs with
      | task _ hctl => exact ⟨rfl, notLooping_nil hctl⟩
      | sync _ huser => exact ⟨rfl, notLooping_of_inUserCode huser⟩
      | event _ _ hctl => exact ⟨rfl, notLooping_nil hctl⟩
    apply sendsConnected_of_noLoop
    show NoLoop (St.callFrames set cb ++ u.ctl)
    rw [hctl.1]
    exact hw.noLoop_push hctl.2 (light_callFrames _ _)
  | closes hc hd => exact sendsConnected_closes hc hw hd
  | passes hc =>
    cases hc with
    | handler hctl | failed hctl =>
      exact sendsConnected_of_noLoop (hw.noLoop_pop hctl light_nil)
    | user | task => exact h
  | shuts hs _ _ _ hok =>
    apply sendsConnected_of_noLoop
    rw [ctl_shutdownInPoll hok]
    cases hs with
    | user hu => exact hw.noLoop_push (notLooping_of_inUserCode hu) light_nil
    | task _ hctl => exact hw.noLoop_push (notLooping_nil hctl) light_nil
  | leave hctl | endHigh hctl | writeBlocked hctl =>
    exact sendsConnected_of_noLoop (hw.noLoop_pop hctl light_nil)
  | beginWrite | endLow | received =>
    intro m n rest hc
    cases hc
  | endClose hctl =>
    apply sendsConnected_of_noLoop
    rw [ctl_releaseChannel]
    exact hw.noLoop_pop hctl light_nil
  | drained hctl _ _ hok =>
    apply sendsConnected_of_noLoop
    rw [ctl_writeTail hok]
    exact hw.noLoop_pop hctl light_nil
  | wrote hctl _ _ _ _ hok =>
    obtain ⟨b, b', -, -, fs, l, rfl, hf⟩ := St.wrote_ok hok
    intro m n rest hc
    rcases hf with ⟨rfl, -⟩ | ⟨rfl, -⟩ | ⟨rfl, -⟩ <;> cases hc
  | sentSome hctl =>
    intro m n rest hc
    exact h _ _ _ hctl
  | beginSend hs hconn =>
    intro m n rest hc
    exact hconn
  | dropSend hs hconn =>
    intro m n rest hc
    exact hconn
  | queues hq hok =>
    obtain ⟨fs, he, hl⟩ := ctl_enqueue hok
    apply sendsConnected_of_noLoop
    rw [he]
    cases hq with
    | behind hs =>
      have hctl : ∀ e, (St.note e _).ctl = s.ctl := fun e => hs.notLooping.1
      rw [hctl]
      exact hw.noLoop_push hs.notLooping.2 hl
    | rest hend => exact hw.noLoop_pop hend.ctl_eq hl
  | sentAll hend _ hok =>
    obtain ⟨fs, he, hl⟩ := ctl_checkHigh hok
    apply sendsConnected_of_noLoop
    rw [he]
    exact hw.noLoop_pop hend.ctl_eq hl
  | recvEnd e hctl =>
    apply sendsConnected_of_noLoop
    have hrest : NoLoop s.ctl.tail := hw.noLoop
    rw [hctl] at hrest
    exact List.forall_mem_append.2
      ⟨noLoop_of_light (light_callFrames _ _), List.forall_mem_cons.2 ⟨rfl, hrest⟩⟩

theorem sendsConnected_of_reach (h₀ : Init s₀) (h : (machine A K).Reach (.ok s₀) (.ok s)) :
    SendsConnected s := by
  refine invariant_ok (J := fun s => WellStacked s.ctl) h (fun s hs => stacked_of_reach h₀ hs) ?_
    fun s a s' hw ih _ hst => ih.step hw (step_cases hst)
  cases h₀ with
  | server | client =>
    intro m n rest hc
    cases hc

/-! ### Setting up -/

theorem pristine_of_setup {k : Task} {rest : List Task} (hI : Inv s) (htasks : s.tasks = k :: rest)
    (hk : k.isSetup = true) : Pristine s := by
  rcases hI.life.setUp_or with ⟨-, hset⟩ | ⟨hp, -⟩
  · simp [htasks, setups, hk] at hset
  · exact hp

/-- `start_connect_in_poll_` is called on a connection on which nothing has happened. -/
theorem Connecting.pristine {r : ConnectRet} (h : Connecting s a r t) (hI : Inv s)
    (hG : OneShot (.ok s) a) : Pristine s := by
  cases h with
  | user _ _ r hu hs => exact (hI.fresh_of_unused (hG hs)).1
  | task r _ _ htasks => exact pristine_of_setup hI htasks rfl

/-- `start_` is called when there is no channel and no handler. -/
theorem Starting.waiting {set : Bool} {cb : Callback} (h : Starting s a set cb t) (hI : Inv s)
    (hG : OneShot (.ok s) a) : t.channel = none ∧ t.delivered = none ∧ Quiet t.ctl := by
  cases h with
  | task r _ _ htasks =>
    have hp := pristine_of_setup hI htasks rfl
    exact ⟨hp.channel, hp.delivered, hp.quiet⟩
  | sync k hu hs =>
    have hp := (hI.fresh_of_unused (hG hs)).1
    exact ⟨hp.channel, hp.delivered, hp.quiet⟩
  | event w e hctl => exact ⟨rfl, rfl, by simp [hctl, Quiet]⟩

/-- It is called on a connection that is not established. -/
theorem Starting.not_connected {set : Bool} {cb : Callback} (h : Starting s a set cb t)
    (hI : Inv s) : s.state ≠ .kConnected := by
  cases h with
  | task r _ _ htasks => simp [(pristine_of_setup hI htasks rfl).state]
  | sync k hu hs => simp [hs]
  | event w e _ _ hs => simp [hs]

end

end Conn

end CxpNet
