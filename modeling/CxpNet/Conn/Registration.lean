import CxpNet.Conn.Attempt
import CxpNet.Poller.Registry

/-!
# What a connection asks of its poller

A connection is modelled with a channel whose registration is its own.  Here its steps are read as
calls of `Channel`'s functions on a poller that knows the channel by the descriptor it was made for.

* `St.calls` : the calls of a step;
* `Alters.exec` : they lead from the events that were asked for to those that are asked for then,
  and a channel is removed only after it was cleared;
* `Enrolled.step` : they are made while the socket is open, or on the descriptor that the kernel
  gives in this step, unless the connection is connected anew from inside its close callback.
-/

namespace CxpNet

namespace Conn

open Poller (Mask Op Legal registry)

/-! ### What a connection asks of its poller -/

/-- The events a channel asks for: `events_`. -/
def Channel.mask (c : Channel) : Mask := ⟨c.reading, c.writing⟩

/-- The events that the connection asks for on a channel of this role. -/
def St.asks (s : St) (role : Role) : Mask :=
  match s.channel with
  | none => .kNone
  | some c => if c.role = role then c.mask else .kNone

/-- The channels that `clear_event` and `remove` were called on. -/
def dropped (l : List Ev) : List Role :=
  l.filterMap fun e => match e with
    | .deregistered role => some role
    | _ => none

/-- The calls that make a channel with the events `m` ask for what `c` asks for.  Read interest is
only given up by `clear_event`. -/
def Channel.changes (c : Channel) (m : Mask) : List (Op Role) :=
  (if c.reading && !m.read then [.addReadEvent c.role] else []) ++
    (if c.writing && !m.write then [.addWriteEvent c.role] else []) ++
    (if m.write && !c.writing then [.removeWriteEvent c.role] else [])

/-- The calls of the channels' functions in a step from `s` to `s'`: a channel is cleared and
removed where the log says so, and what changes otherwise was asked for on the channel that is there
then, which is a new one if the former was dropped. -/
def St.calls (s s' : St) : List (Op Role) :=
  let drops := dropped (s'.log.drop s.log.length)
  drops.flatMap (fun role => [.clearEvent role, .remove role]) ++
    match s'.channel with
    | none => []
    | some c => c.changes (if drops = [] then s.asks c.role else .kNone)

@[simp] theorem dropped_append (l₁ l₂ : List Ev) :
    dropped (l₁ ++ l₂) = dropped l₁ ++ dropped l₂ :=
  List.filterMap_append

section

variable {A : Allocator} {K : Kernel} {s₀ s s' t : St} {a : Act}

theorem asks_none (h : s.channel = none) (role : Role) : s.asks role = .kNone := by
  simp [St.asks, h]

theorem asks_some {c : Channel} (h : s.channel = some c) (role : Role) :
    s.asks role = if c.role = role then c.mask else .kNone := by
  simp [St.asks, h]

theorem asks_of_idle (h : ∀ c ∈ s.channel, St.isIdle c = true) (role : Role) :
    s.asks role = .kNone := by
  unfold St.asks
  cases hc : s.channel with
  | none => rfl
  | some c =>
    have hidle := h c hc
    simp only [St.isIdle, Bool.and_eq_true, Bool.not_eq_true'] at hidle
    simp [Channel.mask, hidle, Mask.kNone]

/-! The functions of the connection that use the channel make these calls. -/

theorem calls_addWriteEvent {c : Channel} (hc : s.channel = some c)
    (h : s.addWriteEvent = .ok s') :
    s.calls s' = if c.writing then [] else [.addWriteEvent c.role] := by
  simp only [St.addWriteEvent, hc, Except.ok.injEq] at h
  split_ifs at h with hw
  · subst h
    simp [St.calls, hc, asks_some hc, dropped, Channel.changes, Channel.mask, hw]
  · obtain ⟨w, he, -⟩ := s.update_eq { c with writing := true }
    rw [he] at h
    subst h
    simp [St.calls, asks_some hc, dropped, Channel.changes, Channel.mask, hw]

theorem calls_removeWriteEvent {c : Channel} (hc : s.channel = some c)
    (h : s.removeWriteEvent = .ok s') :
    s.calls s' = if c.writing then [.removeWriteEvent c.role] else [] := by
  simp only [St.removeWriteEvent, hc, Except.ok.injEq] at h
  split_ifs at h with hw
  · obtain ⟨w, he, -⟩ := s.update_eq { c with writing := false }
    rw [he] at h
    subst h
    simp [St.calls, asks_some hc, dropped, Channel.changes, Channel.mask, hw]
  · subst h
    simp [St.calls, hc, asks_some hc, dropped, Channel.changes, Channel.mask, hw]

theorem calls_deregister {c : Channel} (hc : s.channel = some c) :
    s.calls s.deregister = [.clearEvent c.role, .remove c.role] := by
  obtain ⟨w, he, -⟩ := s.update_eq { c with reading := false, writing := false }
  simp only [St.deregister, hc, he]
  simp [St.calls, St.note, dropped, Channel.changes, Mask.kNone]

/-- A channel is made where there is none in use, and asks for its first events. -/
theorem calls_update {c : Channel} (h : ∀ c ∈ s.channel, St.isIdle c = true) :
    s.calls (s.update c) = c.changes .kNone := by
  obtain ⟨w, he, -⟩ := s.update_eq c
  rw [he]
  simp [St.calls, asks_of_idle h, dropped, Channel.changes]

theorem chan_of_changes {c : Channel} {m : Mask} {o : Op Role} (h : o ∈ c.changes m) :
    o.chan = c.role := by
  simp only [Channel.changes, List.mem_append, List.mem_ite_nil_right, List.mem_singleton] at h
  rcases h with (⟨-, rfl⟩ | ⟨-, rfl⟩) | ⟨-, rfl⟩ <;> rfl

/-- What the calls make of the events. -/
theorem foldl_changes {c : Channel} {m : Mask} (hread : m.read = true → c.reading = true) :
    (c.changes m).foldl (fun m o => o.apply m) m = c.mask := by
  obtain ⟨r, w⟩ := m
  obtain ⟨role, reading, writing, registered⟩ := c
  cases r <;> cases w <;> cases reading <;> cases writing <;>
    simp_all [Channel.changes, Channel.mask, Op.apply]

/-- The calls change the events of the one channel that is in use, and no other is. -/
theorem changes_exec (n : ℕ) {c : Channel} {masks : Role → Mask}
    (hothers : ∀ role, role ≠ c.role → masks role = .kNone)
    (hread : (masks c.role).read = true → c.reading = true) :
    (registry Role).exec masks (c.changes (masks c.role)) =
        some (fun role => if c.role = role then c.mask else .kNone) ∧
      (registry Role).Meets (Legal fun _ => n) masks (c.changes (masks c.role)) := by
  have hchan : ∀ o ∈ c.changes (masks c.role), o.chan = c.role := fun _ => chan_of_changes
  have hremove : .remove c.role ∉ c.changes (masks c.role) := by simp [Channel.changes]
  obtain ⟨h1, h2⟩ := Poller.registry_one (fun _ => n) hchan hremove
    fun role hne _ => hothers role hne
  refine ⟨h1.trans (congrArg some (funext fun role => ?_)), h2⟩
  by_cases h : role = c.role
  · subst h
    rw [Function.update_self, if_pos rfl]
    exact foldl_changes hread
  · rw [Function.update_of_ne h, if_neg (Ne.symm h), hothers role h]

/-- What a step may do to the channel: it may clear and remove it; otherwise what was asked for on
it is still asked for, but for write interest. -/
structure Alters (s s' : St) : Prop where
  drops : dropped (s'.log.drop s.log.length) = [] ∨
    ∃ c, s.channel = some c ∧ dropped (s'.log.drop s.log.length) = [c.role]
  keeps : dropped (s'.log.drop s.log.length) = [] → ∀ role, s.asks role ≠ .kNone →
    ∃ c, s'.channel = some c ∧ c.role = role ∧ ((s.asks role).read = true → c.reading = true)

/-- **The calls of a step** lead from what the connection asked for to what it asks for, and they
are legal as far as its own channels go. -/
theorem Alters.exec (h : Alters s s') (n : ℕ) :
    (registry Role).exec s.asks (s.calls s') = some s'.asks ∧
      (registry Role).Meets (Legal fun _ => n) s.asks (s.calls s') := by
  -- the calls on the channel that is there at the end
  have hlast : ∀ masks : Role → Mask, (s'.channel = none → masks = fun _ => .kNone) →
      (∀ c, s'.channel = some c → (∀ role, role ≠ c.role → masks role = .kNone) ∧
        ((masks c.role).read = true → c.reading = true)) →
      (registry Role).exec masks (match s'.channel with
        | none => []
        | some c => c.changes (masks c.role)) = some s'.asks ∧
      (registry Role).Meets (Legal fun _ => n) masks (match s'.channel with
        | none => []
        | some c => c.changes (masks c.role)) := by
    intro masks hnone hsome
    cases hc : s'.channel with
    | none =>
      refine ⟨?_, trivial⟩
      simp only [Machine.exec, hnone hc, Option.some.injEq]
      funext role
      rw [asks_none hc]
    | some c =>
      obtain ⟨h1, h2⟩ := hsome c hc
      obtain ⟨h3, h4⟩ := changes_exec n h1 h2
      refine ⟨h3.trans (congrArg some (funext fun role => ?_)), h4⟩
      rw [asks_some hc]
  unfold St.calls
  rcases h.drops with hd | ⟨c₀, hc₀, hd⟩
  · simp only [hd, List.flatMap_nil, List.nil_append, if_true]
    refine hlast s.asks (fun hnone => funext fun role => ?_) fun c hc => ⟨fun role hne => ?_, ?_⟩
    · by_contra hask
      obtain ⟨c, hc, -⟩ := h.keeps hd role hask
      simp [hnone] at hc
    · by_contra hask
      obtain ⟨c', hc', hrole, -⟩ := h.keeps hd role hask
      cases hc.symm.trans hc'
      exact hne hrole.symm
    · intro hread
      obtain ⟨c', hc', -, hk⟩ := h.keeps hd c.role fun he => by simp [he, Mask.kNone] at hread
      cases hc.symm.trans hc'
      exact hk hread
  · -- the former channel is cleared and removed, and nothing is in use then
    have hothers : ∀ role, role ≠ c₀.role → s.asks role = .kNone := fun role hne => by
      rw [asks_some hc₀, if_neg (Ne.symm hne)]
    have hclear : (registry Role).step s.asks (.clearEvent c₀.role) = some fun _ => .kNone := by
      refine congrArg some (funext fun role => ?_)
      by_cases hr : role = c₀.role
      · subst hr
        exact Function.update_self ..
      · exact (Function.update_of_ne hr ..).trans (hothers role hr)
    have hremove : (registry Role).step (fun _ => .kNone) (.remove c₀.role) =
        some fun _ => .kNone :=
      congrArg some (Function.update_eq_self ..)
    obtain ⟨h1, h2⟩ := hlast (fun _ => .kNone) (fun _ => rfl) fun _ _ =>
      ⟨fun _ _ => rfl, fun he => by simp [Mask.kNone] at he⟩
    simp only [hd, List.flatMap_cons, List.flatMap_nil, List.append_nil, List.cons_append,
      List.nil_append, List.cons_ne_nil, if_false]
    refine ⟨?_, ?_⟩
    · rw [Machine.exec, hclear, Option.bind_some, Machine.exec, hremove, Option.bind_some]
      exact h1
    · rw [Machine.meets_cons hclear, Machine.meets_cons hremove]
      exact ⟨⟨fun role hne _ => hothers role hne, by simp⟩, ⟨fun _ _ _ => rfl, fun _ _ => rfl⟩, h2⟩

/-! ### What a connection keeps -/

/-- Where an attempt to connect may be made: no other one is queued, and it is not made inside the
close callback, after which `do_cleanup_` gives the channel away (`lost_registration`). -/
def Afresh (c : Except Crash St) (a : Act) : Prop :=
  Alone c a ∧ match c with
    | .error _ => True
    | .ok s => a.isAttempt = true → .afterClose ∉ s.ctl

instance : ∀ c a, Decidable (Afresh c a)
  | .error e, a => inferInstanceAs (Decidable (Alone (.error e) a ∧ True))
  | .ok s, a => inferInstanceAs
      (Decidable (Alone (.ok s) a ∧ (a.isAttempt = true → .afterClose ∉ s.ctl)))

/-- The descriptor that the kernel gives in a step. -/
def Act.given : Act → Option ℕ
  | .connect _ _ (.inProgress h) | .runTask (.inProgress h) | .connectSync (some h) => some h
  | _ => none

/-- The channel is registered if it asks for something, and it does so only while the socket is
open. -/
structure Enrolled (s : St) : Prop where
  registered : ∀ c ∈ s.channel, c.registered = (c.reading || c.writing)
  reading : s.state = .kConnected → ∀ c ∈ s.channel, c.reading = true
  owned : ∀ c ∈ s.channel, St.isIdle c = true ∨ s.handle ≠ none
  late : ∀ c ∈ s.channel, s.handle = none → s.cleanupDone = true ∧ .afterClose ∈ s.ctl
  ending : .afterClose ∈ s.ctl → s.state = .kDisconnected

/-- What a step does, as far as the poller is concerned. -/
structure Turn (s : St) (a : Act) (s' : St) : Prop where
  enrolled : Enrolled s'
  alters : Alters s s'
  handle : s'.handle = s.handle ∨ s'.handle = none ∨
    (s.handle = none ∧ ∃ h, a.given = some h ∧ s'.handle = some h)
  dropped : dropped (s'.log.drop s.log.length) ≠ [] → s.handle ≠ none

section

variable (s)

@[simp] theorem dropped_moveLog (st : State) : dropped (s.moveLog st) = [] := by
  unfold St.moveLog
  split_ifs <;> rfl

@[simp] theorem dropped_closeLog : dropped s.closeLog = [] := by
  unfold St.closeLog
  split <;> rfl

@[simp] theorem dropped_callLog (set : Bool) (cb : Callback) :
    dropped (St.callLog set cb) = [] := by
  cases set <;> rfl

theorem dropped_deregisterLog : dropped s.deregisterLog = (s.channel.map Channel.role).toList := by
  unfold St.deregisterLog
  cases s.channel <;> rfl

theorem dropped_cleanupLog (err : ℕ) :
    dropped (s.cleanupLog err) = (s.channel.map Channel.role).toList := by
  have h1 : dropped s.shutWrLog = [] := by
    unfold St.shutWrLog
    split_ifs <;> rfl
  have h2 : dropped s.internalCloseLog = [] := by
    unfold St.internalCloseLog
    split_ifs <;> rfl
  have h3 : dropped (s.closeCallLog err) = [] := by
    unfold St.closeCallLog
    split_ifs <;> rfl
  simp only [St.cleanupLog, dropped_append, h1, h2, h3, dropped_moveLog, dropped_closeLog,
    dropped_deregisterLog, List.append_nil, List.nil_append]
  exact List.append_nil _

end

/-- The channel stays, but for write interest, which is asked for only on an open socket. -/
def Adjusts (s : St) (ch : Option Channel) : Prop :=
  ch = s.channel ∨ ∃ c c', s.channel = some c ∧ ch = some c' ∧ c'.role = c.role ∧
    c'.reading = c.reading ∧ c'.registered = (c'.reading || c'.writing) ∧
    (c'.writing = true → c.writing = true ∨ s.handle ≠ none)

theorem Adjusts.alters {l : List Ev} (h : Adjusts s s'.channel) (hlog : s'.log = s.log ++ l)
    (hl : dropped l = []) : Alters s s' := by
  refine ⟨.inl (by rw [hlog, List.drop_left, hl]), fun _ role hask => ?_⟩
  cases hc : s.channel with
  | none => exact absurd (asks_none hc role) hask
  | some c =>
    rw [asks_some hc] at hask ⊢
    split_ifs at hask with hrole
    · rw [if_pos hrole]
      rcases h with h | ⟨c₁, c', hc₁, hc', hr, hread, -⟩
      · exact ⟨c, h.trans hc, hrole, id⟩
      · cases hc.symm.trans hc₁
        exact ⟨c', hc', hr.trans hrole, fun h => hread.trans h⟩
    · exact absurd rfl hask

theorem isIdle_iff {c : Channel} : St.isIdle c = true ↔
    c.reading = false ∧ c.writing = false ∧ c.registered = false := by
  simp [St.isIdle, and_assoc]

/-- Nothing that matters to the poller has changed, but for the channel and the state. -/
structure Beside (s s' : St) : Prop where
  handle : s'.handle = s.handle
  cleanupDone : s'.cleanupDone = s.cleanupDone
  log : ∃ l, s'.log = s.log ++ l ∧ dropped l = []
  ctl : .afterClose ∈ s'.ctl ↔ .afterClose ∈ s.ctl

theorem Beside.trans (h : Beside s t) (h' : Beside t s') : Beside s s' := by
  obtain ⟨l, hl, h1⟩ := h.log
  obtain ⟨l', hl', h2⟩ := h'.log
  refine ⟨h'.handle.trans h.handle, h'.cleanupDone.trans h.cleanupDone, ⟨l ++ l', ?_, ?_⟩,
    h'.ctl.trans h.ctl⟩
  · rw [hl', hl, List.append_assoc]
  · rw [dropped_append, h1, h2]
    rfl

/-- A step that neither makes nor drops a channel. -/
theorem Enrolled.adjust (h : Enrolled s) (hch : Adjusts s s'.channel) (hb : Beside s s')
    (hstate : s'.state = s.state ∨ s'.state ≠ .kConnected ∧ .afterClose ∉ s.ctl) :
    Turn s a s' := by
  obtain ⟨hh, hdone, ⟨l, hlog, hl⟩, hctl⟩ := hb
  refine ⟨?_, hch.alters hlog hl, .inl hh, fun hd => absurd ?_ hd⟩
  swap
  · rw [hlog, List.drop_left, hl]
  have hend : .afterClose ∈ s'.ctl → s'.state = .kDisconnected := fun hm => by
    rcases hstate with hs | ⟨-, hout⟩
    · exact hs.trans (h.ending (hctl.1 hm))
    · exact absurd (hctl.1 hm) hout
  have hconn : s'.state = .kConnected → s.state = .kConnected := fun hs => by
    rcases hstate with he | ⟨hne, -⟩
    · exact he.symm.trans hs
    · exact absurd hs hne
  rcases hch with he | ⟨c, c', hc, hc', hrole, hread, hreg, hw⟩
  · refine ⟨?_, fun hs => ?_, ?_, ?_, hend⟩
    · rw [he]
      exact h.registered
    · rw [he]
      exact h.reading (hconn hs)
    · rw [he, hh]
      exact h.owned
    · rw [he, hh, hdone, hctl]
      exact h.late
  · refine ⟨?_, fun hs => ?_, ?_, ?_, hend⟩ <;> rw [hc']
    · intro x hx
      cases hx
      exact hreg
    · intro x hx
      cases hx
      exact hread.trans (h.reading (hconn hs) c hc)
    · intro x hx
      cases hx
      rw [hh]
      -- a channel that asked for nothing gets write interest only on an open socket
      rcases h.owned c hc with hidle | hopen
      · obtain ⟨h1, h2, h3⟩ := isIdle_iff.1 hidle
        by_cases hnone : s.handle = none
        · have hw' : c'.writing = false := by
            by_contra hne
            rcases hw (by simpa using hne) with h4 | h4
            · simp [h2] at h4
            · exact h4 hnone
          exact .inl (isIdle_iff.2 ⟨hread.trans h1, hw', by simp [hreg, hread, h1, hw']⟩)
        · exact .inr hnone
      · exact .inr hopen
    · intro x hx
      cases hx
      rw [hh, hdone, hctl]
      exact h.late c hc

theorem adjusts_of_write {c c' : Channel} {ch : Option Channel}
    (hc : s.channel = some c) (hch : ch = some c')
    (hc' : c' = { c with writing := c'.writing, registered := c.reading || c'.writing })
    (hw : c'.writing = true → c.writing = true ∨ s.handle ≠ none) : Adjusts s ch := by
  refine .inr ⟨c, c', hc, hch, ?_, ?_, ?_, hw⟩ <;> rw [hc']

/-- `add_write_event`, on an open socket. -/
theorem adjusts_addWriteEvent {u : St} (ht : t.channel = s.channel)
    (hh : s.handle ≠ none) (hok : t.addWriteEvent = .ok u) : Adjusts s u.channel := by
  unfold St.addWriteEvent at hok
  cases hc : t.channel with
  | none => simp [hc] at hok
  | some c =>
    simp only [hc, Except.ok.injEq] at hok
    split_ifs at hok with hw
    · subst hok
      exact .inl ht
    · obtain ⟨w, he, -⟩ := t.update_eq { c with writing := true }
      rw [he] at hok
      subst hok
      exact adjusts_of_write (ht.symm.trans hc) rfl rfl fun _ => .inr hh

/-- `remove_write_event` -/
theorem adjusts_removeWriteEvent {u : St} (ht : t.channel = s.channel)
    (hok : t.removeWriteEvent = .ok u) : Adjusts s u.channel := by
  unfold St.removeWriteEvent at hok
  cases hc : t.channel with
  | none => simp [hc] at hok
  | some c =>
    simp only [hc, Except.ok.injEq] at hok
    split_ifs at hok with hw
    · obtain ⟨w, he, -⟩ := t.update_eq { c with writing := false }
      rw [he] at hok
      subst hok
      exact adjusts_of_write (ht.symm.trans hc) rfl rfl (by simp)
    · subst hok
      exact .inl ht

/-- `shutdown_in_poll_` -/
theorem adjusts_shutdownInPoll {u : St} (ht : t.channel = s.channel)
    (hok : t.shutdownInPoll = .ok u) : Adjusts s u.channel := by
  have htimer : ∀ v : St, v.startCloseTimeout.channel = v.channel := fun v => by
    obtain ⟨tid, nid, sch, he⟩ := v.startCloseTimeout_eq
    rw [he]
  unfold St.shutdownInPoll at hok
  split_ifs at hok with h1 h2
  · cases hok
    exact .inl ht
  · cases hok
    exact .inl ht
  obtain ⟨v, hv, hok⟩ := bind_ok hok
  have hadj : Adjusts s v.channel := by
    have hset : (t.setState .kDisconnecting).channel = s.channel := by
      rw [St.setState_eq]
      exact ht
    unfold St.finishWrites at hv
    split_ifs at hv with hn hc
    · cases hv
      exact .inl hset
    · obtain ⟨w, hw, hv⟩ := bind_ok hv
      cases hv
      have hadj := adjusts_removeWriteEvent hset hw
      exact hadj
    · cases hv
      exact .inl hset
  cases hok
  split_ifs
  · rw [htimer]
    exact hadj
  · exact hadj

/-- `handle_write_event_`, after its loop. -/
theorem adjusts_writeTail {u : St} (ht : t.channel = s.channel)
    (hok : t.writeTail = .ok u) : Adjusts s u.channel := by
  obtain ⟨n, hn, hok⟩ := bind_ok hok
  split_ifs at hok
  · obtain ⟨v, hv, hok⟩ := bind_ok hok
    obtain ⟨b, b', -, -, rfl⟩ := St.onWriteBuffer_ok hv
    obtain ⟨w, hw, hok⟩ := bind_ok hok
    have hadj := adjusts_removeWriteEvent (t := { t with writeBuffer := some b' }) ht hw
    cases hok
    split_ifs
    · exact hadj
    · exact hadj
  · cases hok
    exact .inl ht

/-! ### Every step keeps it -/

/-- Where a function of the connection is called, nothing has happened yet but for the frame that
was left or the closure that was taken. -/
theorem Closing.beside {err : ℕ} (h : Closing s a err t) :
    Beside s t ∧ t.channel = s.channel ∧ t.state = s.state := by
  cases h with
  | handler hctl hf =>
    refine ⟨⟨rfl, rfl, ⟨[], (List.append_nil _).symm, rfl⟩, ?_⟩, rfl, rfl⟩
    rcases hf with rfl | rfl <;> simp [hctl]
  | failed hctl hf =>
    refine ⟨⟨rfl, rfl, ⟨_, rfl, rfl⟩, ?_⟩, rfl, rfl⟩
    rcases hf with rfl | ⟨m, n, rfl⟩ <;> simp [hctl]
  | user | task => exact ⟨⟨rfl, rfl, ⟨[], (List.append_nil _).symm, rfl⟩, Iff.rfl⟩, rfl, rfl⟩

theorem Sending.beside {m : Msg} (h : Sending s a m t) :
    Beside s t ∧ t.channel = s.channel ∧ t.state = s.state := by
  cases h with
  | user | task => exact ⟨⟨rfl, rfl, ⟨[], (List.append_nil _).symm, rfl⟩, Iff.rfl⟩, rfl, rfl⟩

theorem LoopEnd.beside {m : Msg} {n : ℕ} (h : LoopEnd s m n a t) :
    Beside s t ∧ t.channel = s.channel ∧ t.state = s.state := by
  cases h with
  | goal hctl =>
    exact ⟨⟨rfl, rfl, ⟨[], (List.append_nil _).symm, rfl⟩, by simp [hctl]⟩, rfl, rfl⟩
  | blocked hctl => exact ⟨⟨rfl, rfl, ⟨_, rfl, rfl⟩, by simp [hctl]⟩, rfl, rfl⟩

theorem Shutting.beside (h : Shutting s a t) :
    Beside s t ∧ t.channel = s.channel ∧ t.state = s.state := by
  cases h with
  | user | task => exact ⟨⟨rfl, rfl, ⟨[], (List.append_nil _).symm, rfl⟩, Iff.rfl⟩, rfl, rfl⟩

theorem beside_checkHigh (h : t.checkHigh = .ok s') :
    Beside t s' ∧ s'.channel = t.channel ∧ s'.state = t.state := by
  rcases St.checkHigh_ok h with rfl | rfl | rfl
  · exact ⟨⟨rfl, rfl, ⟨[], (List.append_nil _).symm, rfl⟩, Iff.rfl⟩, rfl, rfl⟩
  · exact ⟨⟨rfl, rfl, ⟨[], (List.append_nil _).symm, rfl⟩, Iff.rfl⟩, rfl, rfl⟩
  · exact ⟨⟨rfl, rfl, ⟨_, rfl, rfl⟩, by simp [St.call, St.note]⟩, rfl, rfl⟩

/-- A message is queued on an established connection, whose socket is open. -/
theorem Enrolled.queues {bs : List UInt8} (h : Enrolled s) (hsends : SendsConnected s)
    (hq : Queueing s a bs t) (hok : t.enqueue A bs = .ok s') : Turn s a s' := by
  obtain ⟨hb, hch, hst, hconn⟩ : Beside s t ∧ t.channel = s.channel ∧ t.state = s.state ∧
      s.state = .kConnected := by
    cases hq with
    | behind hs hconn =>
      obtain ⟨hb, hch, hst⟩ := hs.beside
      refine ⟨hb.trans ⟨rfl, rfl, ⟨_, rfl, rfl⟩, Iff.rfl⟩, hch, hst, ?_⟩
      rw [← hst]
      exact hconn
    | rest hend =>
      obtain ⟨hb, hch, hst⟩ := hend.beside
      exact ⟨hb, hch, hst, hsends _ _ _ hend.ctl_eq⟩
  obtain ⟨b, b', u, -, -, hu, hok⟩ := St.enqueue_ok hok
  obtain ⟨hb', hch', hst'⟩ := beside_checkHigh hok
  have hopen : s.handle ≠ none := by
    obtain ⟨c, c', w, hc, -⟩ := St.addWriteEvent_ok hu
    have hc : s.channel = some c := hch.symm.trans hc
    have hread := h.reading hconn c hc
    refine (h.owned c hc).resolve_left fun hidle => ?_
    simp [(isIdle_iff.1 hidle).1] at hread
  have hbu : Beside t u ∧ u.state = t.state := by
    obtain ⟨c, c', w, -, rfl, -⟩ := St.addWriteEvent_ok hu
    exact ⟨⟨rfl, rfl, ⟨[], (List.append_nil _).symm, rfl⟩, Iff.rfl⟩, rfl⟩
  refine h.adjust ?_ ((hb.trans hbu.1).trans hb') (.inl ?_)
  · rw [hch']
    exact adjusts_addWriteEvent (t := { t with writeBuffer := some b' }) hch hopen hu
  · exact hst'.trans (hbu.2.trans hst)

theorem afterClose_of_cleanup (err : ℕ) (hd : t.cleanupDone = false) :
    ∀ c ∈ (t.cleanup err).channel, .afterClose ∈ (t.cleanup err).ctl := by
  intro c hc
  unfold St.cleanup at hc ⊢
  rw [if_neg (by simp [hd]), St.doCleanup] at hc ⊢
  unfold St.runClose at hc ⊢
  split_ifs at hc ⊢
  · simp [St.call, St.note]
  · obtain ⟨rel, he, -⟩ := St.releaseChannel_eq (St.runInternalClose _)
    rw [he] at hc
    cases hc

/-- A step after which the former channel asks for nothing: it was cleared and removed, or it had
asked for nothing before. -/
theorem Enrolled.leaves (h : Enrolled s) (h' : Enrolled s') {l : List Ev}
    (hlog : s'.log = s.log ++ l)
    (hl : dropped l = [] ∧ (∀ c ∈ s.channel, St.isIdle c = true) ∨
      dropped l = (s.channel.map Channel.role).toList ∧ (s.cleanupDone = false ∨ s.ctl = []))
    (hh : s'.handle = s.handle ∨ s'.handle = none ∨
      (s.handle = none ∧ ∃ k, a.given = some k ∧ s'.handle = some k)) : Turn s a s' := by
  have hdrop : dropped (s'.log.drop s.log.length) = dropped l := by rw [hlog, List.drop_left]
  rcases hl with ⟨hnil, hidle⟩ | ⟨hl, hopen⟩
  · refine ⟨h', ⟨.inl (hdrop.trans hnil), fun _ role hask => ?_⟩, hh, fun hne => ?_⟩
    · exact absurd (asks_of_idle hidle role) hask
    · exact absurd (hdrop.trans hnil) hne
  · rw [hl] at hdrop
    refine ⟨h', ⟨?_, fun hnil role hask => ?_⟩, hh, fun hne hnone => ?_⟩
    · rw [hdrop]
      cases hc : s.channel with
      | none => exact .inl rfl
      | some c => exact .inr ⟨c, rfl, rfl⟩
    · cases hc : s.channel with
      | none => exact absurd (asks_none hc role) hask
      | some c => simp [hdrop, hc] at hnil
    · cases hc : s.channel with
      | none => simp [hdrop, hc] at hne
      | some c =>
        obtain ⟨hdone, hm⟩ := h.late c hc hnone
        rcases hopen with he | he
        · simp [he] at hdone
        · simp [he] at hm

/-- **`cleanup_`** clears and removes the channel of the open socket, and leaves no other. -/
theorem Enrolled.closes {err : ℕ} (h : Enrolled s) (hc : Closing s a err t)
    (hd : t.cleanupDone = false) : Turn s a (t.cleanup err) := by
  obtain ⟨hb, hch, -⟩ := hc.beside
  have hidle := St.cleanup_idle err hd
  have hlate := afterClose_of_cleanup err hd
  obtain ⟨sch, ch, w, rel, he, -, -⟩ := St.cleanup_eq err hd
  rw [he] at hidle hlate ⊢
  obtain ⟨l, hlog, hl⟩ := hb.log
  refine h.leaves ⟨fun c hc => ?_, by simp, fun c hc => .inl (hidle c hc), fun c hc _ =>
    ⟨rfl, hlate c hc⟩, fun _ => rfl⟩ (l := l ++ t.cleanupLog err) ?_ (.inr ⟨?_, .inl ?_⟩)
    (.inr (.inl rfl))
  · obtain ⟨h1, h2, h3⟩ := isIdle_iff.1 (hidle c hc)
    simp [h1, h2, h3]
  · rw [← List.append_assoc, ← hlog]
  · rw [dropped_append, hl, dropped_cleanupLog, hch]
    rfl
  · rw [← hb.cleanupDone, hd]

/-- **`start_connect_in_poll_`** makes a channel for a new socket, where there was none. -/
theorem Enrolled.connects {r : ConnectRet} (h : Enrolled s) (hI : Single s)
    (hG : Afresh (.ok s) a) (hc : Connecting s a r t) : Turn s a (t.startConnectInPoll r) := by
  obtain ⟨hs, -, hno, hidle⟩ := hI.of_connecting hG.1 hc
  have hout : .afterClose ∉ t.ctl := by
    cases hc with
    | user => exact hG.2 rfl
    | task _ hctl => simp [hctl]
  obtain ⟨hch, hh, hlog, hctl⟩ : t.channel = s.channel ∧ t.handle = s.handle ∧ t.log = s.log ∧
      t.ctl = s.ctl := by
    cases hc with
    | user | task => exact ⟨rfl, rfl, rfl, rfl⟩
  rw [hch] at hidle
  -- an attempt that fails at once leaves what was there
  have hfails : ∀ err, Turn s a (t.connectFailed err) := fun err => by
    rw [St.connectFailed_eq]
    have hout' : .afterClose ∉ St.callFrames t.onConnectError (.connectError err) ++ t.ctl :=
      fun hm => hout (Inv.mem_callFrames hm)
    have hst : t.state ≠ .kConnected := by simp [hs]
    refine h.leaves ⟨?_, fun hs => absurd hs hst, ?_, fun c hc hn => ?_, fun hm => absurd hm hout'⟩
      (l := St.callLog t.onConnectError (.connectError err)) (by rw [hlog])
      (.inl ⟨by simp, hidle⟩) (.inl hh)
    · show ∀ c ∈ t.channel, _
      rw [hch]
      exact h.registered
    · show ∀ c ∈ t.channel, _ ∨ t.handle ≠ none
      rw [hch, hh]
      exact h.owned
    · have hm := (h.late c (hch ▸ hc) (hh.symm.trans hn)).2
      rw [← hctl] at hm
      exact absurd hm hout
  cases r with
  | badAddress => exact hfails EINVAL
  | failed e => exact hfails e
  | inProgress k =>
    unfold St.startConnectInPoll
    simp only [St.setState_eq]
    obtain ⟨w, he, -⟩ := St.update_eq ⟨.connecting, false, true, false⟩
      { t with
        handle := some k, state := .kConnecting
        log := t.log ++ St.moveLog .kConnecting { t with handle := some k } }
    rw [he]
    refine h.leaves ⟨?_, by simp, by simp, by simp, fun hm => absurd hm hout⟩
      (l := St.moveLog .kConnecting { t with handle := some k }) (by rw [hlog])
      (.inl ⟨by simp, hidle⟩) (.inr (.inr ⟨hh.symm.trans hno, k, ?_, rfl⟩))
    · intro c hc
      cases hc
      rfl
    · cases hc with
      | user | task => rfl

/-- **`start_`** makes a channel for the socket, where there was none or where the channel of the
connect was cleared and removed. -/
theorem Enrolled.starts {set : Bool} {cb : Callback} {u : St} (h : Enrolled s) (hI : Single s)
    (hG : Afresh (.ok s) a) (hs : Starting s a set cb t) (hu : t.start A = .ok u) : Turn s a
      { u with ctl := St.callFrames set cb ++ u.ctl, log := u.log ++ St.callLog set cb } := by
  -- the three places where a connection is established: a closure of the server, `connect_sync`,
  -- and the event of a connect, which drops its channel first
  obtain ⟨l, hlog, hl, hout, hidle, hlate, hst, hh⟩ : ∃ l, t.log = s.log ++ l ∧
      (dropped l = [] ∧ (∀ c ∈ s.channel, St.isIdle c = true) ∨
        dropped l = (s.channel.map Channel.role).toList ∧
          (s.cleanupDone = false ∨ s.ctl = [])) ∧
      .afterClose ∉ t.ctl ∧ (∀ c ∈ t.channel, St.isIdle c = true) ∧
      (∀ c ∈ t.channel, t.handle ≠ none) ∧ t.state ≠ .kConnected ∧
      (t.handle = s.handle ∨ t.handle = none ∨
        (s.handle = none ∧ ∃ k, a.given = some k ∧ t.handle = some k)) := by
    cases hs with
    | task r hctl _ htasks =>
      have hst := (hI.rest_setups htasks rfl).1
      exact ⟨[], (List.append_nil _).symm, .inl ⟨rfl, hI.idle hst⟩, by simp [hctl], hI.idle hst,
        fun c hc hn => by simpa [hctl] using (h.late c hc hn).2, by simp [hst], .inl rfl⟩
    | sync k _ hst =>
      have hno := hI.handle_none hst (by simp [hG.1 rfl hst])
      exact ⟨[], (List.append_nil _).symm, .inl ⟨rfl, hI.idle hst⟩, hG.2 rfl, hI.idle hst,
        by simp, by simp [hst], .inr (.inr ⟨hno, k, rfl, rfl⟩)⟩
    | event w e hctl _ hst =>
      exact ⟨_, rfl, .inr ⟨dropped_deregisterLog s, .inr hctl⟩, by simp [hctl], by simp, by simp,
        by simp [hst], .inl rfl⟩
  have hout' : .afterClose ∉ St.callFrames set cb ++ t.ctl := fun hm =>
    hout (Inv.mem_callFrames hm)
  rcases St.start_ok hu with ⟨rfl, -⟩ | ⟨hopen, r, w, wr, -, -, rfl⟩
  · refine h.leaves ⟨fun c hc => ?_, fun he => absurd he hst, fun c hc => .inl (hidle c hc),
      fun c hc hn => absurd hn (hlate c hc), fun hm => absurd hm hout'⟩
      (l := l ++ St.callLog set cb) (by simp [hlog]) (by simpa using hl) hh
    obtain ⟨h1, h2, h3⟩ := isIdle_iff.1 (hidle c hc)
    simp [h1, h2, h3]
  · refine h.leaves ⟨?_, ?_, fun c hc => .inr hopen, fun c hc hn => absurd hn hopen,
      fun hm => absurd hm hout'⟩ (l := l ++ t.moveLog .kConnected ++ St.callLog set cb)
      (by simp [hlog]) (by simpa using hl) hh
    · intro c hc
      cases hc
      rfl
    · intro _ c hc
      cases hc
      rfl

/-- **What a step asks of the poller.** -/
theorem Enrolled.step (h : Enrolled s) (hI : Single s) (hsends : SendsConnected s)
    (hG : Afresh (.ok s) a) (hst : Moves A s a s') : Turn s a s' := by
  -- a step that has changed neither the channel nor the state
  have hsame : Beside s s' → s'.channel = s.channel → s'.state = s.state → Turn s a s' :=
    fun hb hch he => h.adjust (.inl hch) hb (.inl he)
  have hnone : ∃ l, s.log = s.log ++ l ∧ dropped l = [] := ⟨[], (List.append_nil _).symm, rfl⟩
  cases hst with
  | stay | setWritable | sockError | setCallbacks | setWatermark | setWatermarkCallback
  | setCloseTimeout | setBufferSize | stopTimers | extractTimer | deliver | post | fireTimer
  | dropTask | consume | ignore =>
    exact hsame ⟨rfl, rfl, hnone, Iff.rfl⟩ rfl rfl
  | refused | interrupted | recvAgain => exact hsame ⟨rfl, rfl, ⟨_, rfl, rfl⟩, Iff.rfl⟩ rfl rfl
  | destroy sch hctl _ hch _ =>
    refine h.leaves ⟨?_, ?_, ?_, ?_, h.ending⟩ (l := s.closeLog) rfl
      (.inl ⟨dropped_closeLog s, by simp [hch]⟩) (.inr (.inl rfl)) <;> simp [hch]
  | @dispatch ev fs e hctl _ hfs =>
    refine hsame ⟨rfl, rfl, hnone, ?_⟩ rfl rfl
    show .afterClose ∈ fs ↔ _
    cases hfs with
    | close | write | read => cases ev.read <;> simp [hctl]
  | connectFails w e err hctl _ hs =>
    refine h.leaves ⟨by simp, by simp, by simp, by simp, fun _ => rfl⟩
      (l := s.deregisterLog ++ s.closeLog ++ [Ev.moved .kDisconnected] ++
        St.callLog s.onConnectError (.connectError err)) (by simp only [List.append_assoc])
      (.inr ⟨?_, .inr hctl⟩) (.inr (.inl rfl))
    simp only [dropped_append, dropped_deregisterLog, dropped_closeLog, dropped_callLog,
      List.append_nil]
    exact List.append_nil _
  | postConnect _ _ hs =>
    have hout := hG.2 rfl
    refine h.leaves ⟨h.registered, h.reading, h.owned, fun c hc hn => ?_, h.ending⟩ (l := [])
      (List.append_nil _).symm (.inl ⟨rfl, hI.idle hs⟩) (.inl rfl)
    exact absurd (h.late c hc hn).2 hout
  | connects hc => exact h.connects hI hG hc
  | syncFails _ hs =>
    have hout := hG.2 rfl
    refine h.leaves ⟨h.registered, h.reading, h.owned, fun c hc hn => ?_, h.ending⟩ (l := [])
      (List.append_nil _).symm (.inl ⟨rfl, hI.idle hs⟩) (.inl rfl)
    exact absurd (h.late c hc hn).2 hout
  | starts hs hu => exact h.starts hI hG hs hu
  | closes hc hd => exact h.closes hc hd
  | passes hc =>
    obtain ⟨hb, hch, he⟩ := hc.beside
    exact hsame hb hch he
  | @shuts _ t _ hs hne _ _ hok =>
    obtain ⟨hb, hch, he⟩ := hs.beside
    have hadj := adjusts_shutdownInPoll hch hok
    -- a close callback runs on a connection that is disconnected already
    have hout : .afterClose ∉ s.ctl := fun hm => hne (he.trans (h.ending hm))
    rcases St.shutdownInPoll_ok hok with rfl | ⟨-, -, -, ch, w, l, tid, nid, sch, hf, rfl⟩
    · exact hsame hb hch he
    · refine h.adjust hadj (hb.trans ⟨rfl, rfl, ⟨_, List.append_assoc .., ?_⟩, Iff.rfl⟩)
        (.inr ⟨by simp, hout⟩)
      cases hf <;> rfl
  | @leave _ f rest hctl hl =>
    refine hsame ⟨rfl, rfl, hnone, ?_⟩ rfl rfl
    cases hl <;> simp [hctl]
  | beginWrite hctl | endLow hctl | endHigh hctl =>
    exact hsame ⟨rfl, rfl, hnone, by simp [hctl]⟩ rfl rfl
  | @endClose rest hctl =>
    -- the channel that `do_cleanup_` gives away asks for nothing
    have hdis := h.ending (by simp [hctl])
    obtain ⟨rel, he, -⟩ := St.releaseChannel_eq { s with ctl := rest }
    rw [he]
    exact h.leaves ⟨by simp, by simp, by simp, by simp, fun _ => hdis⟩ (l := [])
      (List.append_nil _).symm (.inl ⟨rfl, hI.idle hdis⟩) (.inl rfl)
  | @drained rest b _ hctl _ _ hok =>
    have hadj := adjusts_writeTail (t := { s with ctl := rest }) rfl hok
    have hout : .afterClose ∈ s.ctl ↔ .afterClose ∈ rest := by simp [hctl]
    obtain ⟨b, -, ⟨-, rfl⟩ | ⟨-, c, c', w, -, -, -, -, -, rfl⟩⟩ := St.writeTail_ok hok
    · exact hsame ⟨rfl, rfl, hnone, hout.symm⟩ rfl rfl
    · refine h.adjust hadj ⟨rfl, rfl, ⟨_, rfl, ?_⟩, hout.symm⟩ (.inl rfl)
      split_ifs <;> rfl
  | @wrote rest _ _ _ hctl _ _ _ _ hok =>
    obtain ⟨b, b', -, -, fs, l, rfl, hfs⟩ := St.wrote_ok hok
    refine hsame ⟨rfl, rfl, ⟨_, List.append_assoc .., ?_⟩, ?_⟩ rfl rfl
    · rcases hfs with ⟨-, rfl⟩ | ⟨-, rfl⟩ | ⟨-, rfl⟩ <;> rfl
    · show .afterClose ∈ fs ++ rest ↔ _
      rcases hfs with ⟨rfl, -⟩ | ⟨rfl, -⟩ | ⟨rfl, -⟩ <;> simp [hctl]
  | writeBlocked hctl | sentSome hctl | received hctl =>
    exact hsame ⟨rfl, rfl, ⟨_, rfl, rfl⟩, by simp [hctl]⟩ rfl rfl
  | beginSend hs =>
    obtain ⟨hb, hch, he⟩ := hs.beside
    exact hsame (hb.trans ⟨rfl, rfl, ⟨_, rfl, rfl⟩, by simp [St.push, St.note]⟩) hch he
  | dropSend hs =>
    obtain ⟨hb, hch, he⟩ := hs.beside
    exact hsame (hb.trans ⟨rfl, rfl, ⟨_, rfl, rfl⟩, Iff.rfl⟩) hch he
  | queues hq hok => exact h.queues hsends hq hok
  | sentAll hend _ hok =>
    obtain ⟨hb, hch, he⟩ := hend.beside
    obtain ⟨hb', hch', he'⟩ := beside_checkHigh hok
    exact hsame (hb.trans hb') (hch'.trans hch) (he'.trans he)
  | @recvEnd hasNewData shouldClose rest b₀ b r ev err e hctl _ _ _ hend =>
    refine hsame ⟨rfl, rfl, ⟨_, List.append_assoc .., ?_⟩, ?_⟩ rfl rfl
    · rw [dropped_append, dropped_callLog]
      cases hend <;> rfl
    · show .afterClose ∈ St.callFrames _ _ ++ _ ↔ _
      cases hasNewData <;> cases s.onMessage <;> simp [hctl, St.callFrames]

/-- The invariant holds from the beginning. -/
theorem enrolled_of_init (h : Init s) : Enrolled s := by
  cases h with
  | server | client => exact ⟨by simp [accepted, new], by simp [accepted, new],
      by simp [accepted, new], by simp [accepted, new], by simp [accepted, new]⟩

theorem enrolled_of_reach (h₀ : Init s₀) (h : (machine A K).ReachIf Afresh (.ok s₀) (.ok s)) :
    Enrolled s :=
  invariant_ok (J := fun s => Single s ∧ SendsConnected s) h
    (fun _ hs => ⟨single_of_reach h₀ (hs.mono fun _ _ hG => hG.1),
      sendsConnected_of_reach h₀ hs.reach⟩)
    (enrolled_of_init h₀)
    fun _ _ _ hJ ih hG hst => (ih.step hJ.1 hJ.2 hG (step_cases hst)).enrolled

end

end Conn

end CxpNet
