import CxpNet.Conn.Stack

/-!
# What a step does to the calls in progress

`Conn.step_conduct` : a step leaves at most the innermost frame and enters others; the frames whose
code belongs to a user program (the message callback with the loop around it, and the connected
callback) are entered only by certain steps, and a callback is left only when it returns.  It says
the same of the closures that a step queues and of `on_message_func_`.

A program that uses a connection is a restriction on the calls in its callbacks; what it does in
whole runs is followed from here.
-/

namespace CxpNet

namespace Conn

/-- The frame can only be entered by this kind of step. -/
def Frame.EnteredBy (a : Act) : Frame → Prop
  | .user .message => ∃ r, a = .recvRet r
  | .user .connected => a = .dispatch
  | .readLoop b => (a = .dispatch ∧ b = false) ∨ ∃ bs, a = .recvRet (.data bs)
  | _ => True

/-- What any step may enter. -/
def Frame.isCommon : Frame → Bool
  | .user .message | .user .connected | .readLoop _ => false
  | _ => true

/-- At most the innermost frame is left, and others are entered. -/
structure Trades (s : St) (a : Act) (s' : St) (gs fs rest : List Frame) : Prop where
  old : s.ctl = gs ++ rest
  new : s'.ctl = fs ++ rest
  one : gs.length ≤ 1
  /-- A callback is left when it returns. -/
  ret : ∀ cb, .user cb ∈ gs → a = .ret
  entered : ∀ f ∈ fs, f.EnteredBy a

/-- The closure can only be queued by this kind of step. -/
def Task.QueuedBy (a : Act) : Task → Prop
  | .send m => a = .postSend m
  | .connect => ∃ x y, a = .postConnect x y
  | .start _ => False
  | _ => True

/-- What a step does to the calls in progress, to the queue and to the message callback. -/
structure Conduct (s : St) (a : Act) (s' : St) : Prop where
  calls : ∃ gs fs rest, Trades s a s' gs fs rest
  tasks : ∀ k ∈ s'.tasks, k ∈ s.tasks ∨ k.QueuedBy a
  set : s'.onMessage = s.onMessage ∨ ∃ c, a = .setCallbacks s'.onMessage c

section

variable {A : Allocator} {s s' t : St} {a : Act}

theorem enteredBy_of_common {f : Frame} (h : f.isCommon = true) : f.EnteredBy a := by
  cases f with
  | user cb =>
    cases cb with
    | message | connected => cases h
    | _ => trivial
  | readLoop => cases h
  | _ => trivial

namespace Conduct

theorem keep (hctl : s'.ctl = s.ctl) (htasks : ∀ k ∈ s'.tasks, k ∈ s.tasks ∨ k.QueuedBy a)
    (hset : s'.onMessage = s.onMessage) : Conduct s a s' :=
  ⟨⟨[], [], s.ctl, rfl, hctl, by simp, by simp, by simp⟩, htasks, .inl hset⟩

theorem push (fs : List Frame) (hfs : ∀ f ∈ fs, f.isCommon = true) (hctl : s'.ctl = fs ++ s.ctl)
    (htasks : ∀ k ∈ s'.tasks, k ∈ s.tasks ∨ k.QueuedBy a)
    (hset : s'.onMessage = s.onMessage) : Conduct s a s' :=
  ⟨⟨[], fs, s.ctl, rfl, hctl, by simp, by simp, fun f hf => enteredBy_of_common (hfs f hf)⟩,
    htasks, .inl hset⟩

/-- A frame that is not a callback is left, and others are entered. -/
theorem pop {f : Frame} {rest : List Frame} (fs : List Frame) (hold : s.ctl = f :: rest)
    (hf : ∀ cb, f ≠ .user cb) (hfs : ∀ f ∈ fs, f.isCommon = true) (hctl : s'.ctl = fs ++ rest)
    (htasks : ∀ k ∈ s'.tasks, k ∈ s.tasks ∨ k.QueuedBy a)
    (hset : s'.onMessage = s.onMessage) : Conduct s a s' := by
  refine ⟨⟨[f], fs, rest, hold, hctl, by simp, fun cb hcb => ?_,
    fun f hf => enteredBy_of_common (hfs f hf)⟩, htasks, .inl hset⟩
  rw [List.mem_singleton] at hcb
  exact absurd hcb.symm (hf cb)

end Conduct

theorem common_callFrames (b : Bool) {cb : Callback} (h : (Frame.user cb).isCommon = true) :
    ∀ f ∈ St.callFrames b cb, f.isCommon = true := by
  unfold St.callFrames
  split_ifs
  · simpa using h
  · simp

theorem common_closeFrames (err : ℕ) (t : St) : ∀ f ∈ t.closeFrames err, f.isCommon = true := by
  unfold St.closeFrames
  split_ifs <;> simp [Frame.isCommon]

theorem common_checkHigh (h : t.checkHigh = .ok s') :
    ∃ fs, s'.ctl = fs ++ t.ctl ∧ (∀ f ∈ fs, f.isCommon = true) ∧ s'.tasks = t.tasks ∧
      s'.onMessage = t.onMessage := by
  rcases St.checkHigh_ok h with rfl | rfl | rfl
  · exact ⟨[], rfl, by simp, rfl, rfl⟩
  · exact ⟨[], rfl, by simp, rfl, rfl⟩
  · exact ⟨[.user (.watermark t.highWatermark), .afterHigh], rfl, by simp [Frame.isCommon], rfl,
      rfl⟩

theorem common_enqueue {bs : List UInt8} (h : t.enqueue A bs = .ok s') :
    ∃ fs, s'.ctl = fs ++ t.ctl ∧ (∀ f ∈ fs, f.isCommon = true) ∧ s'.tasks = t.tasks ∧
      s'.onMessage = t.onMessage := by
  obtain ⟨b, b', u, -, -, hu, h⟩ := St.enqueue_ok h
  obtain ⟨c, c', w, -, rfl, -⟩ := St.addWriteEvent_ok hu
  obtain ⟨fs, h1, h2, h3, h4⟩ := common_checkHigh h
  exact ⟨fs, h1, h2, h3, h4⟩

theorem queued_release {rel ts : List Task} (hrel : rel = [] ∨ rel = [.release]) :
    ∀ k ∈ ts ++ rel, k ∈ ts ∨ k.QueuedBy a := by
  intro k hk
  rcases List.mem_append.1 hk with hk | hk
  · exact .inl hk
  · rcases hrel with rfl | rfl
    · cases hk
    · rw [List.mem_singleton.1 hk]
      exact .inr trivial

/-- The state in which a function is called differs from `s` in nothing that matters here. -/
structure Alike (s t : St) : Prop where
  ctl : t.ctl = s.ctl
  tasks : ∀ k ∈ t.tasks, k ∈ s.tasks
  set : t.onMessage = s.onMessage

theorem Alike.push (fs : List Frame) (h : Alike s t) (hfs : ∀ f ∈ fs, f.isCommon = true)
    (hctl : s'.ctl = fs ++ t.ctl) (htasks : s'.tasks = t.tasks)
    (hset : s'.onMessage = t.onMessage) : Conduct s a s' :=
  .push fs hfs (by rw [hctl, h.ctl]) (fun k hk => .inl (h.tasks k (htasks ▸ hk)))
    (hset.trans h.set)

theorem Sending.alike {m : Msg} (h : Sending s a m t) : Alike s t := by
  cases h with
  | user => exact ⟨rfl, fun _ hk => hk, rfl⟩
  | task _ _ _ hts => exact ⟨rfl, fun _ hk => by simp [hts, hk], rfl⟩

theorem Shutting.alike (h : Shutting s a t) : Alike s t := by
  cases h with
  | user => exact ⟨rfl, fun _ hk => hk, rfl⟩
  | task _ _ _ hts => exact ⟨rfl, fun _ hk => by simp [hts, hk], rfl⟩

theorem Connecting.alike {r : ConnectRet} (h : Connecting s a r t) : Alike s t := by
  cases h with
  | user => exact ⟨rfl, fun _ hk => hk, rfl⟩
  | task _ _ _ hts => exact ⟨rfl, fun _ hk => by simp [hts, hk], rfl⟩

theorem Starting.alike {set : Bool} {cb : Callback} (h : Starting s a set cb t) : Alike s t := by
  cases h with
  | sync | event => exact ⟨rfl, fun _ hk => hk, rfl⟩
  | task _ _ _ hts => exact ⟨rfl, fun _ hk => by simp [hts, hk], rfl⟩

/-- `send_in_poll_thread_` ends its loop. -/
theorem LoopEnd.conduct {m : Msg} {n : ℕ} {fs : List Frame} (h : LoopEnd s m n a t)
    (hctl : s'.ctl = fs ++ t.ctl) (hfs : ∀ f ∈ fs, f.isCommon = true) (htasks : s'.tasks = t.tasks)
    (hset : s'.onMessage = t.onMessage) : Conduct s a s' := by
  have hsame : t.tasks = s.tasks ∧ t.onMessage = s.onMessage := by cases h <;> exact ⟨rfl, rfl⟩
  exact .pop fs h.ctl_eq (by simp) hfs hctl (fun k hk => .inl (hsame.1 ▸ htasks ▸ hk))
    (hset.trans hsame.2)

/-- `cleanup_` or `handle_close_event_` is called. -/
theorem Closing.conduct {err : ℕ} {fs : List Frame} (h : Closing s a err t)
    (hctl : s'.ctl = fs ++ t.ctl) (hfs : ∀ f ∈ fs, f.isCommon = true)
    (htasks : ∀ k ∈ s'.tasks, k ∈ t.tasks ∨ k.QueuedBy a) (hset : s'.onMessage = t.onMessage) :
    Conduct s a s' := by
  cases h with
  | handler htop hor =>
    refine .pop fs htop ?_ hfs hctl htasks hset
    rcases hor with rfl | rfl <;> simp
  | failed htop hor =>
    refine .pop fs htop ?_ hfs hctl htasks hset
    rcases hor with rfl | ⟨m, n, rfl⟩ <;> simp
  | user => exact .push fs hfs hctl htasks hset
  | task _ _ _ hts =>
    refine .push fs hfs hctl (fun k hk => (htasks k hk).imp_left fun hk => ?_) hset
    rw [hts]
    exact List.mem_cons_of_mem _ hk

/-- **What a step does to the calls in progress.** -/
theorem step_conduct (h : Moves A s a s') : Conduct s a s' := by
  cases h with
  | stay | refused | setWritable | sockError | setWatermark | setWatermarkCallback
  | setCloseTimeout | setBufferSize | stopTimers | extractTimer | destroy | deliver | ignore
  | syncFails | interrupted | recvAgain | consume =>
    exact .keep rfl (fun _ hk => .inl hk) rfl
  | setCallbacks m c =>
    exact ⟨⟨[], [], s.ctl, rfl, rfl, by simp, by simp, by simp⟩, fun _ hk => .inl hk,
      .inr ⟨c, rfl⟩⟩
  | post hp =>
    refine .keep rfl (fun k hk => ?_) rfl
    rcases List.mem_append.1 hk with hk | hk
    · exact .inl hk
    · rw [List.mem_singleton.1 hk]
      cases hp with
      | send => exact .inr rfl
      | _ => exact .inr trivial
  | fireTimer =>
    refine .keep rfl (fun k hk => ?_) rfl
    rcases List.mem_append.1 hk with hk | hk
    · exact .inl hk
    · rw [List.mem_singleton.1 hk]
      exact .inr trivial
  | postConnect x y =>
    refine .keep rfl (fun k hk => ?_) rfl
    rcases List.mem_append.1 hk with hk | hk
    · exact .inl hk
    · rw [List.mem_singleton.1 hk]
      exact .inr ⟨x, y, rfl⟩
  | dropTask r _ _ hts => exact .keep rfl (fun m hk => .inl (by simp [hts, hk])) rfl
  | @dispatch ev fs e hctl hdel hfs =>
    refine ⟨⟨[], fs, [], by simp [hctl], by simp, by simp, by simp, fun f hf => ?_⟩,
      fun _ hk => .inl hk, .inl rfl⟩
    cases hfs with
    | close | write | read =>
      split_ifs at hf <;> simp at hf <;> rcases hf with rfl | rfl <;>
        simp [Frame.EnteredBy]
  | connectFails w e err hctl =>
    exact .push (St.callFrames s.onConnectError (.connectError err))
      (common_callFrames _ rfl) (by simp [hctl]) (fun _ hk => .inl hk) rfl
  | @connects _ k t hc =>
    rcases t.startConnectInPoll_eq k with ⟨err, he⟩ | ⟨h, w, he⟩ <;> rw [he]
    · rw [St.connectFailed_eq]
      exact hc.alike.push (St.callFrames t.onConnectError (.connectError err))
        (common_callFrames _ rfl) rfl rfl rfl
    · exact hc.alike.push [] (by simp) rfl rfl rfl
  | @starts _ set cb t u hs hu =>
    obtain ⟨h1, h2, h3⟩ : u.ctl = t.ctl ∧ u.tasks = t.tasks ∧ u.onMessage = t.onMessage := by
      rcases St.start_ok hu with ⟨rfl, -⟩ | ⟨-, r, w, wr, -, -, rfl⟩ <;> exact ⟨rfl, rfl, rfl⟩
    have hcall : ∀ f ∈ St.callFrames set cb, f.EnteredBy a := by
      cases hs with
      | task | sync => exact fun f hf => enteredBy_of_common (common_callFrames _ rfl f hf)
      | event =>
        intro f hf
        unfold St.callFrames at hf
        split_ifs at hf
        · rw [List.mem_singleton.1 hf]
          rfl
        · cases hf
    refine ⟨⟨[], St.callFrames set cb, s.ctl, rfl, by rw [h1, hs.alike.ctl], by simp, by simp,
      hcall⟩, fun k hk => .inl (hs.alike.tasks k (h2 ▸ hk)), .inl (h3.trans hs.alike.set)⟩
  | @closes _ err t hc hd =>
    obtain ⟨sch, ch, w, rel, he, hrel, -⟩ := St.cleanup_eq err hd
    rw [he]
    exact hc.conduct rfl (common_closeFrames err t) (queued_release hrel) rfl
  | passes hc =>
    have hnone : ∀ f ∈ ([] : List Frame), f.isCommon = true := by simp
    exact hc.conduct rfl hnone (fun _ hk => .inl hk) rfl
  | shuts hs _ _ _ hok =>
    rcases St.shutdownInPoll_ok hok with rfl | ⟨-, -, -, ch, w, l, tid, nid, sch, -, rfl⟩ <;>
      exact hs.alike.push [] (by simp) rfl rfl rfl
  | @leave _ f rest hctl hl =>
    refine ⟨⟨[f], [], rest, hctl, rfl, by simp, fun cb hcb => ?_, by simp⟩, fun _ hk => .inl hk,
      .inl rfl⟩
    cases hl with
    | ret => rfl
    | read | message => simp at hcb
  | beginWrite hctl | endLow hctl =>
    exact .pop [.writeLoop] hctl (by simp) (by simp [Frame.isCommon]) rfl (fun _ hk => .inl hk) rfl
  | endHigh hctl | writeBlocked hctl =>
    exact .pop [] hctl (by simp) (by simp) rfl (fun _ hk => .inl hk) rfl
  | @endClose rest hctl =>
    obtain ⟨rel, he, hrel⟩ := St.releaseChannel_eq { s with ctl := rest }
    rw [he]
    exact .pop [] hctl (by simp) (by simp) rfl (queued_release hrel) rfl
  | drained hctl _ _ hok =>
    obtain ⟨b, -, ⟨-, rfl⟩ | ⟨-, c, c', w, -, -, -, -, -, rfl⟩⟩ := St.writeTail_ok hok <;>
      exact .pop [] hctl (by simp) (by simp) rfl (fun _ hk => .inl hk) rfl
  | wrote hctl _ _ _ _ hok =>
    obtain ⟨b, b', -, -, fs, l, rfl, hf⟩ := St.wrote_ok hok
    refine .pop fs hctl (by simp) ?_ rfl (fun _ hk => .inl hk) rfl
    rcases hf with ⟨rfl, -⟩ | ⟨rfl, -⟩ | ⟨rfl, -⟩ <;> simp [Frame.isCommon]
  | @sentSome m n k rest hctl =>
    exact .pop [.sendLoop m (n + k)] hctl (by simp) (by simp [Frame.isCommon]) rfl
      (fun _ hk => .inl hk) rfl
  | @beginSend _ m _ _ _ hs =>
    exact hs.alike.push [.sendLoop m 0] (by simp [Frame.isCommon]) rfl rfl rfl
  | dropSend hs => exact hs.alike.push [] (by simp) rfl rfl rfl
  | queues hq hok =>
    obtain ⟨fs, h1, h2, h3, h4⟩ := common_enqueue hok
    cases hq with
    | behind hs => exact hs.alike.push fs h2 h1 h3 h4
    | rest hend => exact hend.conduct h1 h2 h3 h4
  | sentAll hend _ hok =>
    obtain ⟨fs, h1, h2, h3, h4⟩ := common_checkHigh hok
    exact hend.conduct h1 h2 h3 h4
  | @received b rest _ _ _ bs hctl =>
    refine ⟨⟨[.readLoop b], [.readLoop true], rest, hctl, rfl, by simp, by simp, ?_⟩,
      fun _ hk => .inl hk, .inl rfl⟩
    simp [Frame.EnteredBy]
  | @recvEnd b c rest _ _ r _ err _ hctl _ _ _ hend =>
    refine ⟨⟨[Frame.readLoop b],
      St.callFrames (b && s.onMessage) .message ++ [Frame.afterMessage c err], rest, hctl,
      by simp, by simp, by simp, fun f hf => ?_⟩, fun _ hk => .inl hk, .inl rfl⟩
    rcases List.mem_append.1 hf with hf | hf
    · unfold St.callFrames at hf
      split_ifs at hf
      · rw [List.mem_singleton.1 hf]
        exact ⟨r, rfl⟩
      · cases hf
    · rw [List.mem_singleton.1 hf]
      trivial

end

end Conn

end CxpNet
