import CxpNet.Timer.Order
import Mathlib.Data.List.Perm.Basic

/-!
# What becomes of a timer

A timer that was added is scheduled, then moved out of the containers, then started; or it is
cancelled.  `timer_thread_func_` moves timers out in batches and runs their callbacks without the
mutex, and callers add and cancel in between; nothing is lost on the way.

* `TimerManager.no_timer_lost` : until `shutdown()`, the timers that were added are exactly those
  that were started, moved out, scheduled or cancelled, each of them once;
* `TimerManager.due_started` : in every state the timer thread can, by itself, start every timer
  that is due.
-/

namespace CxpNet

namespace TimerManager

variable {κ : Type} {s s' : St κ} {added : List Entry}

/-! ### Until the shutdown -/

/-- The timer thread does not write `running_`, nor does it add timers or move the clock. -/
theorem threadStep_frame (hst : threadStep s = some s') :
    s'.running = s.running ∧ s'.now = s.now ∧ s'.call = s.call := by
  unfold threadStep at hst
  cases hpc : s.pc with
  | untimedBlocked | timedBlocked d | exited => simp [hpc] at hst
  | loopHead | untimedCheck | timedCheck d | afterTimed | untimedWindow | timedWindow d =>
    simp only [hpc, Option.some.injEq] at hst
    subst hst
    exact ⟨rfl, rfl, rfl⟩
  | lock | untimedWoken | timedWoken d timeout =>
    simp only [hpc] at hst
    split_ifs at hst <;> cases hst <;> exact ⟨rfl, rfl, rfl⟩
  | afterUntimed =>
    simp only [hpc] at hst
    split_ifs at hst
    · split at hst <;> cases hst
      exact ⟨rfl, rfl, rfl⟩
    · cases hst
      exact ⟨rfl, rfl, rfl⟩
  | extract =>
    simp only [hpc, Option.some.injEq] at hst
    subst hst
    obtain ⟨t, st, sch, heq, -⟩ := extractExpired_spec s.now s.schedule s []
    rw [heq]
    exact ⟨rfl, rfl, rfl⟩
  | callbacks rest =>
    cases rest with
    | nil =>
      simp only [hpc, Option.some.injEq] at hst
      subst hst
      exact ⟨rfl, rfl, rfl⟩
    | cons c rest =>
      simp only [hpc, Option.some.injEq] at hst
      subst hst
      split_ifs <;> exact ⟨rfl, rfl, rfl⟩

/-- `running_` is never set again. -/
theorem running_of_step {a : Act κ} (hst : step s a = some s') (hrun : s'.running = true) :
    s.running = true := by
  cases a with
  | thread => exact (threadStep_frame hst).1 ▸ hrun
  | timeout | spurious =>
    simp only [step] at hst
    repeat' split at hst
    all_goals cases hst
    all_goals exact hrun
  | enter c | notifyAll | join | clear =>
    simp only [step] at hst
    split_ifs at hst <;> cases hst <;> exact hrun
  | leave =>
    simp only [step] at hst
    split at hst
    · cases hst
    · cases hst
      exact hrun
    · rename_i id hc
      cases hst
      rcases cancelTimer_spec id s with heq | ⟨t, st, sch, l, heq, -⟩ <;> rw [heq] at hrun <;>
        exact hrun
  | exchange =>
    cases hst
    split_ifs at hrun
    exact hrun
  | tick n =>
    cases hst
    exact hrun

theorem emplace_perm (d : TimePoint) (id : TimerID) (es : List Entry) :
    (emplace d id es).Perm ((d, id) :: es) := by
  induction es with
  | nil => exact .refl _
  | cons x xs ih =>
    simp only [emplace]
    split_ifs
    · exact (ih.cons x).trans (.swap ..)
    · exact .refl _

/-- The ids of the timers that were not lost. -/
def kept (s : St κ) : List TimerID := (history s).map Prod.snd ++ s.cancelled

/-- What the extraction leaves is not due. -/
theorem extractExpired_left (now : TimePoint) {es : List Entry} (s : St κ) (cbs : List (Expired κ))
    (hs : es.Pairwise fun a b => a.1 ≤ b.1) :
    ∀ e ∈ (extractExpired now es s cbs).1.schedule, now < e.1 := by
  induction es generalizing s cbs with
  | nil => simp [extractExpired]
  | cons x xs ih =>
    rw [List.pairwise_cons] at hs
    simp only [extractExpired]
    split_ifs with hd
    · rintro e he
      rcases List.mem_cons.1 he with rfl | he
      · exact hd
      · exact lt_of_lt_of_le hd (hs.1 e he)
    · split
      · exact ih _ _ hs.2
      · exact ih _ _ hs.2

/-- **The extraction** moves out the timers that are due, and no others. -/
theorem extract_eq (h : Ordered s added) : ∃ rest new, s.schedule = new.map Expired.entry ++ rest ∧
    (∀ e ∈ rest, s.now < e.1) ∧ ∃ t st, extractExpired s.now s.schedule s [] =
      ({ s with timers := t, scheduledTimers := st, schedule := rest }, new) := by
  obtain ⟨taken, rest, new, hes, -, hnew, heq⟩ := extractExpired_eq s.now s.schedule s []
    h.schedule_nodup fun e he => by
      obtain ⟨t, ht, -⟩ := (h.timer e.1 e.2).1 he
      exact ⟨t, ht, h.live _ t ht⟩
  have hsorted : s.schedule.Pairwise fun a b => a.1 ≤ b.1 :=
    (h.pairwise.sublist (List.sublist_append_right _ _)).imp fun hab =>
      hab.elim le_of_lt fun hab => hab.1.le
  have hleft := extractExpired_left s.now s [] hsorted
  rw [heq] at hleft
  exact ⟨rest, new, by rw [hnew, hes], hleft, _, _, heq⟩

/-- The thread moves the timers on and loses none, while `running_` is set. -/
theorem history_threadStep (h : Ordered s added) (hrun : s.running = true)
    (hst : threadStep s = some s') : history s' = history s ∧ s'.cancelled = s.cancelled := by
  unfold threadStep at hst
  cases hpc : s.pc with
  | untimedBlocked | timedBlocked d | exited => simp [hpc] at hst
  | loopHead | untimedCheck | timedCheck d | afterTimed =>
    simp only [hpc, Option.some.injEq] at hst
    subst hst
    refine ⟨?_, rfl⟩
    rw [history, history, hpc]
    split_ifs <;> rfl
  | lock | untimedWoken =>
    simp only [hpc] at hst
    split_ifs at hst
    cases hst
    exact ⟨by rw [history, history, hpc]; rfl, rfl⟩
  | untimedWindow | timedWindow d =>
    simp only [hpc, Option.some.injEq] at hst
    subst hst
    exact ⟨by rw [history, history, hpc]; rfl, rfl⟩
  | afterUntimed =>
    simp only [hpc] at hst
    rw [if_pos hrun] at hst
    split at hst
    · cases hst
    · cases hst
      exact ⟨by rw [history, history, hpc]; rfl, rfl⟩
  | timedWoken d timeout =>
    simp only [hpc] at hst
    split_ifs at hst <;> cases hst <;> exact ⟨by rw [history, history, hpc]; rfl, rfl⟩
  | extract =>
    simp only [hpc, Option.some.injEq] at hst
    subst hst
    -- what is due goes from the schedule to the callbacks, in the same order
    obtain ⟨rest, new, hsch, -, t, st, heq⟩ := extract_eq h
    rw [heq]
    refine ⟨?_, rfl⟩
    rw [history, history, hpc, hsch]
    simp [ThreadPc.pending]
  | callbacks rest =>
    cases rest with
    | nil =>
      simp only [hpc, Option.some.injEq] at hst
      subst hst
      exact ⟨by rw [history, history, hpc]; rfl, rfl⟩
    | cons c rest =>
      simp only [hpc, Option.some.injEq] at hst
      subst hst
      -- the first callback that was moved out is started
      rw [if_pos hrun]
      refine ⟨?_, rfl⟩
      rw [history, history, hpc]
      simp [ThreadPc.pending]

theorem kept_addTimer (delayMs : ℕ) (cb : κ) :
    (kept (addTimer delayMs cb s)).Perm (kept s ++ [s.nextId]) := by
  have hemplace := (emplace_perm (s.now + delayMs) s.nextId s.schedule).map Prod.snd
  simp only [kept, addTimer, notify, history, pending_woken, List.map_append, List.append_assoc]
  refine .append_left _ (.append_left _ ?_)
  refine (hemplace.append_right _).trans ?_
  rw [List.map_cons, List.cons_append, ← List.append_assoc]
  exact (List.perm_append_singleton ..).symm

theorem kept_cancelTimer (h : Ordered s added) (id : TimerID) :
    (kept (cancelTimer id s)).Perm (kept s) := by
  cases ht : s.timers id with
  | none =>
    rw [cancelTimer, ht]
  | some t =>
    rw [h.cancelTimer_eq ht]
    have hmem : (t.expireTime, id) ∈ s.schedule := (h.timer _ _).2 ⟨t, ht, rfl⟩
    have herase := (List.perm_cons_erase hmem).map Prod.snd
    simp only [kept, notify, history, pending_woken, List.map_append, List.append_assoc]
    refine .append_left _ (.append_left _ ?_)
    refine .trans ?_ (herase.symm.append_right _)
    rw [← List.append_assoc, List.map_cons, List.cons_append]
    exact List.perm_append_singleton ..

/-- **One step** loses no timer, unless it ends the run of the manager. -/
theorem kept_step (h : Ordered s added) (hstop : s.stop ≠ .none → s.running = false) {a : Act κ}
    (hst : step s a = some s') (hrun : s'.running = true) :
    (kept s').Perm (kept s ++ (additions s a).map Prod.snd) := by
  have hrun' := running_of_step hst hrun
  -- where nothing is added, it is enough that the history is the same
  have hsame : additions s a = [] → history s' = history s → s'.cancelled = s.cancelled →
      (kept s').Perm (kept s ++ (additions s a).map Prod.snd) := fun h1 h2 h3 => by
    rw [kept, kept, h1, h2, h3, List.map_nil, List.append_nil]
  cases a with
  | thread =>
    obtain ⟨h1, h2⟩ := history_threadStep h hrun' hst
    exact hsame rfl h1 h2
  | timeout =>
    simp only [step] at hst
    split at hst
    · rename_i d hpc
      split_ifs at hst
      cases hst
      exact hsame rfl (by rw [history, history, hpc]; rfl) rfl
    · cases hst
  | spurious =>
    simp only [step] at hst
    split at hst
    · rename_i hpc
      cases hst
      exact hsame rfl (by rw [history, history, hpc]; rfl) rfl
    · rename_i d hpc
      cases hst
      exact hsame rfl (by rw [history, history, hpc]; rfl) rfl
    · cases hst
  | enter c =>
    simp only [step] at hst
    split_ifs at hst
    cases hst
    exact hsame rfl rfl rfl
  | leave =>
    simp only [step] at hst
    split at hst
    · cases hst
    · rename_i delayMs cb hc
      cases hst
      simp only [additions, hc]
      exact kept_addTimer (s := s) delayMs cb
    · rename_i id hc
      cases hst
      simp only [additions, hc, List.map_nil, List.append_nil]
      exact kept_cancelTimer h id
  | exchange =>
    cases hst
    rw [if_pos hrun'] at hrun
    cases hrun
  | notifyAll =>
    simp only [step] at hst
    split_ifs at hst
    cases hst
    refine hsame rfl ?_ rfl
    simp only [history, notify, pending_woken]
  | join =>
    simp only [step] at hst
    split_ifs at hst
    cases hst
    exact hsame rfl rfl rfl
  | clear =>
    simp only [step] at hst
    split_ifs at hst with hclear
    rw [hstop (by simp [hclear.1])] at hrun'
    cases hrun'
  | tick n =>
    cases hst
    exact hsame rfl rfl rfl

/-- The thread returns only when `running_` is cleared. -/
theorem exited_step {a : Act κ} (hst : step s a = some s') (hrun : s'.running = true)
    (hpc : s.pc ≠ .exited) : s'.pc ≠ .exited := by
  have hrun' := running_of_step hst hrun
  have hwoken : s.pc.woken ≠ .exited := by cases hp : s.pc <;> simp_all [ThreadPc.woken]
  cases a with
  | thread =>
    change threadStep s = some s' at hst
    unfold threadStep at hst
    cases hp : s.pc with
    | exited => exact absurd hp hpc
    | untimedBlocked | timedBlocked d => simp [hp] at hst
    | loopHead | untimedCheck | timedCheck d | afterTimed | untimedWindow | timedWindow d =>
      simp only [hp, Option.some.injEq] at hst
      subst hst
      simp only [hrun', if_true]
      try split_ifs
      all_goals simp
    | lock | untimedWoken | timedWoken d timeout =>
      simp only [hp] at hst
      split_ifs at hst <;> cases hst <;> simp
    | afterUntimed =>
      simp only [hp] at hst
      rw [if_pos hrun'] at hst
      split at hst <;> cases hst
      simp
    | extract =>
      simp only [hp, Option.some.injEq] at hst
      subst hst
      simp
    | callbacks rest =>
      cases rest <;> simp only [hp, Option.some.injEq] at hst <;> subst hst
      · simp
      · rw [if_pos hrun']
        simp
  | timeout | spurious =>
    simp only [step] at hst
    repeat' split at hst
    all_goals cases hst
    all_goals simp
  | enter c | join | clear =>
    simp only [step] at hst
    split_ifs at hst <;> cases hst <;> exact hpc
  | notifyAll =>
    simp only [step] at hst
    split_ifs at hst
    cases hst
    exact hwoken
  | leave =>
    simp only [step] at hst
    split at hst
    · cases hst
    · cases hst
      exact hwoken
    · rename_i id hc
      cases hst
      rcases cancelTimer_spec id s with heq | ⟨t, st, sch, l, heq, -⟩ <;> rw [heq]
      · exact hpc
      · exact hwoken
  | exchange =>
    cases hst
    rw [if_pos hrun'] at hrun
    cases hrun
  | tick n =>
    cases hst
    exact hpc

/-- What is known of a run until its shutdown. -/
structure Up (s : St κ) (added : List Entry) : Prop where
  inv : Inv s
  awake : s.pc ≠ .exited
  kept : (added.map Prod.snd).Perm (kept s)

theorem up_of_reach (h : (recorded κ).Reach (init κ, []) (s, added)) (hrun : s.running = true) :
    Up s added := by
  refine h.invariant_of (J := fun x => Ordered x.1 x.2)
    (I := fun x => x.1.running = true → Up x.1 x.2) (fun x hx => ordered_of_reach hx)
    (fun _ => ⟨inv_init, nofun, .refl _⟩) (fun x a y hx hI _ hst hrun => ?_) hrun
  obtain ⟨s', hs', rfl⟩ := Option.map_eq_some_iff.1 hst
  have hrun' := running_of_step hs' hrun
  obtain ⟨hinv, hawake, hkept⟩ := hI hrun'
  have hnone : x.1.stop = .none := by
    by_contra hne
    rw [hinv.stopped hne] at hrun'
    cases hrun'
  have hguard : NotifyOk x.1 a := by
    cases a with
    | notifyAll =>
      simp only [step, hnone] at hs'
      cases hs'
    | _ => trivial
  refine ⟨hinv.step hguard hs', exited_step hs' hrun hawake, ?_⟩
  rw [List.map_append]
  exact (hkept.append_right _).trans (kept_step hx hinv.stopped hs' hrun).symm

/-- **No timer is lost.**  In every state of every run in which `shutdown()` has not begun, the
timers that were added are exactly those whose callback was started or is about to be, those that
are scheduled, and those that were cancelled; each of them is one of these, and only one. -/
theorem no_timer_lost (h : (recorded κ).Reach (init κ, []) (s, added)) (hrun : s.running = true) :
    (added.map Prod.snd).Perm (s.started.map Prod.snd ++ s.pc.pending.map Prod.snd ++
      s.schedule.map Prod.snd ++ s.cancelled) ∧
    (s.started.map Prod.snd ++ s.pc.pending.map Prod.snd ++ s.schedule.map Prod.snd ++
      s.cancelled).Nodup := by
  have hkept := (up_of_reach h hrun).kept
  have hids : (added.map Prod.snd).Nodup :=
    List.pairwise_map.2 ((ordered_of_reach h).ids.imp Nat.ne_of_lt)
  rw [kept, history, List.map_append, List.map_append] at hkept
  exact ⟨hkept, hkept.nodup_iff.1 hids⟩

/-- The first of three timers is moved out while the second is still scheduled and the third was
cancelled. -/
def threeFates : List (Act ℕ) :=
  [.enter (.addTimer 5 10), .leave, .enter (.addTimer 9 20), .leave, .enter (.addTimer 9 30),
    .leave, .enter (.cancelTimer 3), .leave, .tick 5] ++ .replicate 6 .thread ++
    [.timeout, .thread, .thread, .thread]

theorem no_timer_lost_threeFates : ∃ (s : St ℕ) (added : List Entry),
    s.pc = .callbacks [⟨(5, 1), 10⟩] ∧ s.schedule = [(9, 2)] ∧ s.cancelled = [3] ∧
    (added.map Prod.snd).Perm (s.started.map Prod.snd ++ s.pc.pending.map Prod.snd ++
      s.schedule.map Prod.snd ++ s.cancelled) := by
  obtain ⟨⟨s, added⟩, hs, hp⟩ := Machine.Reach.of_endsIn (M := recorded ℕ) (s := (init ℕ, []))
    (p := fun x => x.1.running = true ∧ x.1.pc = .callbacks [⟨(5, 1), 10⟩] ∧
      x.1.schedule = [(9, 2)] ∧ x.1.cancelled = [3]) threeFates (by decide +kernel)
  obtain ⟨h1, h2, h3, h4⟩ := of_decide_eq_true hp
  exact ⟨s, added, h2, h3, h4, (no_timer_lost hs h1).1⟩

/-! ### The thread by itself -/

/-- A run in which only the timer thread makes steps; the deadline of a wait may pass. -/
abbrev Alone (s s' : St κ) : Prop :=
  (machine κ).ReachIf (fun _ a => a = .thread ∨ a = .timeout) s s'

theorem alone_thread (hst : threadStep s = some s') : Alone s s' :=
  .tail .refl (.inl rfl) hst

section

variable {d : TimePoint}

theorem alone_afterTimed (hrun : s.running = true) :
    Alone { s with pc := .afterTimed } { s with pc := .extract } :=
  alone_thread (by simp [threadStep, hrun])

/-- The deadline has passed: the wait ends by itself. -/
theorem alone_timedBlocked (hrun : s.running = true) (hcall : s.call = none) (hd : d ≤ s.now) :
    Alone { s with pc := .timedBlocked d } { s with pc := .extract } := by
  have h1 : (machine κ).step { s with pc := .timedBlocked d } .timeout =
      some { s with pc := .timedWoken d true } := by
    simp [machine, step, hd]
  have h2 : threadStep { s with pc := .timedWoken d true } = some { s with pc := .afterTimed } := by
    simp [threadStep, mutexFree, ThreadPc.holds, hcall]
  exact .trans (.tail .refl (.inr rfl) h1) (.trans (alone_thread h2) (alone_afterTimed hrun))

theorem alone_timedWindow (hrun : s.running = true) (hcall : s.call = none) (hd : d ≤ s.now) :
    Alone { s with pc := .timedWindow d } { s with pc := .extract } :=
  .trans (alone_thread rfl) (alone_timedBlocked hrun hcall hd)

/-- Something is due, so the wait does not outlast it. -/
theorem alone_timedCheck (hinv : Inv s) (hrun : s.running = true) (hcall : s.call = none)
    {e : Entry} (he : e ∈ s.schedule) (hdue : e.1 ≤ s.now) :
    Alone { s with pc := .timedCheck d } { s with pc := .extract } := by
  cases hpred : timedPred d s with
  | true =>
    have h1 : threadStep { s with pc := .timedCheck d } = some { s with pc := .afterTimed } := by
      have hpred' : timedPred d { s with pc := .timedCheck d } = true := hpred
      simp [threadStep, hpred']
    exact .trans (alone_thread h1) (alone_afterTimed hrun)
  | false =>
    have h1 : threadStep { s with pc := .timedCheck d } = some { s with pc := .timedWindow d } := by
      have hpred' : timedPred d { s with pc := .timedCheck d } = false := hpred
      simp [threadStep, hpred']
    have hd : d ≤ s.now := (le_of_timedPred hinv.sorted hpred e he).trans hdue
    exact .trans (alone_thread h1) (alone_timedWindow hrun hcall hd)

theorem alone_afterUntimed (hinv : Inv s) (hrun : s.running = true) (hcall : s.call = none)
    {e : Entry} (he : e ∈ s.schedule) (hdue : e.1 ≤ s.now) :
    Alone { s with pc := .afterUntimed } { s with pc := .extract } := by
  obtain ⟨x, xs, hsch⟩ := List.exists_cons_of_ne_nil (List.ne_nil_of_mem he)
  have h1 : threadStep { s with pc := .afterUntimed } = some { s with pc := .timedCheck x.1 } := by
    simp [threadStep, hrun, hsch]
  exact .trans (alone_thread h1) (alone_timedCheck hinv hrun hcall he hdue)

theorem alone_untimedCheck (hinv : Inv s) (hrun : s.running = true) (hcall : s.call = none)
    {e : Entry} (he : e ∈ s.schedule) (hdue : e.1 ≤ s.now) :
    Alone { s with pc := .untimedCheck } { s with pc := .extract } := by
  have h1 : threadStep { s with pc := .untimedCheck } = some { s with pc := .afterUntimed } := by
    have hpred : untimedPred { s with pc := .untimedCheck } = true := by
      simp [untimedPred, List.ne_nil_of_mem he]
    simp [threadStep, hpred]
  exact .trans (alone_thread h1) (alone_afterUntimed hinv hrun hcall he hdue)

theorem alone_of_pc {pc : ThreadPc κ} (hpc : s.pc = pc) (h : Alone { s with pc := pc } s') :
    Alone s s' := by
  subst hpc
  exact h

/-- **The thread comes to the extraction** from wherever it stands, if something is due. -/
theorem alone_extract (hup : Up s added) (hrun : s.running = true) (hcall : s.call = none)
    {e : Entry} (he : e ∈ s.schedule) (hdue : e.1 ≤ s.now) (hpc : ∀ rest, s.pc ≠ .callbacks rest) :
    Alone s { s with pc := .extract } := by
  have hwait := hup.inv.wait
  have hne : s.schedule ≠ [] := List.ne_nil_of_mem he
  have hcheck := alone_untimedCheck hup.inv hrun hcall he hdue
  have hlock : Alone { s with pc := .lock } { s with pc := .extract } := by
    refine .trans (alone_thread ?_) hcheck
    simp [threadStep, mutexFree, ThreadPc.holds, hcall]
  -- from wherever it stands, the thread gets to the loop over the due timers
  cases hp : s.pc with
  | callbacks rest => exact absurd hp (hpc rest)
  | exited => exact absurd hp hup.awake
  | untimedWindow | untimedBlocked =>
    rw [hp] at hwait
    exact absurd hwait.1 hne
  | extract => exact alone_of_pc hp .refl
  | afterTimed => exact alone_of_pc hp (alone_afterTimed hrun)
  | timedBlocked d =>
    rw [hp] at hwait
    exact alone_of_pc hp (alone_timedBlocked hrun hcall ((hwait e he).trans hdue))
  | timedWindow d =>
    rw [hp] at hwait
    exact alone_of_pc hp (alone_timedWindow hrun hcall ((hwait e he).trans hdue))
  | timedCheck d => exact alone_of_pc hp (alone_timedCheck hup.inv hrun hcall he hdue)
  | timedWoken d timeout =>
    refine alone_of_pc hp ?_
    cases timeout with
    | true =>
      refine .trans (alone_thread ?_) (alone_afterTimed hrun)
      simp [threadStep, mutexFree, ThreadPc.holds, hcall]
    | false =>
      refine .trans (alone_thread ?_) (alone_timedCheck (d := d) hup.inv hrun hcall he hdue)
      simp [threadStep, mutexFree, ThreadPc.holds, hcall]
  | afterUntimed => exact alone_of_pc hp (alone_afterUntimed hup.inv hrun hcall he hdue)
  | untimedCheck => exact alone_of_pc hp hcheck
  | untimedWoken =>
    refine alone_of_pc hp (.trans (alone_thread ?_) hcheck)
    simp [threadStep, mutexFree, ThreadPc.holds, hcall]
  | lock => exact alone_of_pc hp hlock
  | loopHead =>
    refine alone_of_pc hp (.trans (alone_thread ?_) hlock)
    simp [threadStep, hrun]

/-- The callbacks that were moved out are started, one after the other. -/
theorem alone_callbacks (hrun : s.running = true) (rest : List (Expired κ)) :
    Alone { s with pc := .callbacks rest }
      { s with pc := .loopHead, started := s.started ++ rest.map Expired.entry } := by
  induction rest generalizing s with
  | nil =>
    have h := alone_thread (s := { s with pc := .callbacks [] }) rfl
    simpa using h
  | cons c rest ih =>
    have h1 : threadStep { s with pc := .callbacks (c :: rest) } =
        some { s with pc := .callbacks rest, started := s.started ++ [c.entry] } := by
      simp [threadStep, hrun]
    have h2 := ih (s := { s with started := s.started ++ [c.entry] }) hrun
    rw [List.append_assoc] at h2
    exact .trans (alone_thread h1) h2

/-- What the thread comes to: everything that was due has been started. -/
structure Served (s s' : St κ) : Prop where
  alone : Alone s s'
  due : ∀ e ∈ history s, e.1 ≤ s.now → e ∈ s'.started
  cancelled : s'.cancelled = s.cancelled

theorem served_extract (ho : Ordered s added) (hrun : s.running = true) (hpc : s.pc = .extract) :
    ∃ s', Served s s' := by
  obtain ⟨rest, new, hsch, hleft, t, st, heq⟩ := extract_eq ho
  have h1 : threadStep s = some { s with
      timers := t, scheduledTimers := st, schedule := rest, pc := .callbacks new } := by
    simp only [threadStep, hpc, heq]
  have h2 := alone_callbacks
    (s := { s with timers := t, scheduledTimers := st, schedule := rest }) hrun new
  refine ⟨_, .trans (alone_thread h1) h2, fun e he hdue => ?_, rfl⟩
  rw [history, hpc, hsch] at he
  simp only [ThreadPc.pending, List.append_nil, List.mem_append] at he ⊢
  rcases he with he | he | he
  · exact .inl he
  · exact .inr he
  · exact absurd hdue (not_le.2 (hleft e he))

end

/-- Nothing is added while the thread runs alone. -/
theorem reach_alone (h : (recorded κ).Reach (init κ, []) (s, added)) (ha : Alone s s') :
    (recorded κ).Reach (init κ, []) (s', added) := by
  induction ha with
  | refl => exact h
  | @tail t t' a _ hG hst ih =>
    have hadd : additions t a = [] := additions_of_ne (by rcases hG with rfl | rfl <;> exact nofun)
    refine .tail ih trivial (a := a) ?_
    change (step t a).map _ = _
    rw [show step t a = some t' from hst, hadd]
    simp

theorem served_of_no_callbacks (h : (recorded κ).Reach (init κ, []) (s, added))
    (hrun : s.running = true) (hcall : s.call = none) (hpc : ∀ rest, s.pc ≠ .callbacks rest) :
    ∃ s', Served s s' := by
  have hpending : s.pc.pending = [] := by
    cases hp : s.pc with
    | callbacks rest => exact absurd hp (hpc rest)
    | _ => rfl
  by_cases hdue : ∃ e ∈ s.schedule, e.1 ≤ s.now
  · obtain ⟨e, he, hle⟩ := hdue
    have halone := alone_extract (up_of_reach h hrun) hrun hcall he hle hpc
    have ho : Ordered { s with pc := .extract } added :=
      (ordered_of_reach h).goto (by rw [hpending]; rfl)
    obtain ⟨s', hserved⟩ := served_extract ho hrun rfl
    refine ⟨s', .trans halone hserved.alone, fun e he hle => hserved.due e ?_ hle,
      hserved.cancelled⟩
    rw [history, hpending] at he
    exact he
  · refine ⟨s, .refl, fun e he hle => ?_, rfl⟩
    rw [history, hpending, List.append_nil, List.mem_append] at he
    exact he.resolve_right fun he => hdue ⟨e, he, hle⟩

/-- **Every timer that is due can be started.**  In every state of every run in which `shutdown()`
has not begun and no caller is inside its section, the timer thread comes by its own steps to a
state in which the callback of every timer whose deadline has passed was started, unless the timer
was cancelled. -/
theorem due_started (h : (recorded κ).Reach (init κ, []) (s, added)) (hrun : s.running = true)
    (hcall : s.call = none) : ∃ s', Alone s s' ∧
      ∀ e ∈ added, e.1 ≤ s.now → e ∈ s'.started ∨ e.2 ∈ s'.cancelled := by
  have hserved : ∃ s', Served s s' := by
    by_cases hpc : ∃ rest, s.pc = .callbacks rest
    · -- the batch first
      obtain ⟨rest, hpc⟩ := hpc
      have halone := alone_of_pc hpc (alone_callbacks (s := s) hrun rest)
      have h1 := reach_alone h halone
      obtain ⟨s', hserved⟩ := served_of_no_callbacks h1 hrun hcall nofun
      refine ⟨s', .trans halone hserved.alone, fun e he => hserved.due e ?_, hserved.cancelled⟩
      rw [history, hpc] at he
      simpa [history, ThreadPc.pending] using he
    · exact served_of_no_callbacks h hrun hcall fun rest hp => hpc ⟨rest, hp⟩
  obtain ⟨s', hserved⟩ := hserved
  refine ⟨s', hserved.alone, fun e he hdue => ?_⟩
  have ho := ordered_of_reach h
  have hmem := (up_of_reach h hrun).kept.mem_iff.1 (List.mem_map_of_mem he)
  rw [kept, List.mem_append] at hmem
  rcases hmem with hmem | hmem
  · obtain ⟨e', he', hid⟩ := List.mem_map.1 hmem
    have heq : e' = e := eq_of_id ho.ids (ho.mem e' he') he hid
    exact .inl (hserved.due e (heq ▸ he') hdue)
  · exact .inr (hserved.cancelled ▸ hmem)

/-- The thread is asleep until the later one of two deadlines when the earlier timer is added, and
both deadlines pass. -/
theorem due_started_earlier : ∃ s s' : St ℕ, s.pc = .timedWoken 9 false ∧ Alone s s' ∧
    ∀ e ∈ [(9, 1), (4, 2)], e.1 ≤ s.now → e ∈ s'.started ∨ e.2 ∈ s'.cancelled := by
  obtain ⟨⟨s, added⟩, hs, hp⟩ := Machine.Reach.of_endsIn (M := recorded ℕ) (s := (init ℕ, []))
    (p := fun x => x.1.running = true ∧ x.1.call = none ∧ x.1.pc = .timedWoken 9 false ∧
      x.2 = [(9, 1), (4, 2)])
    ([Act.enter (.addTimer 9 10), .leave] ++ List.replicate 6 Act.thread ++
      [Act.enter (.addTimer 4 20), .leave, .tick 9]) (by decide +kernel)
  obtain ⟨h1, h2, h3, h4⟩ := of_decide_eq_true hp
  obtain ⟨s', halone, hall⟩ := due_started hs h1 h2
  have hadded : added = [(9, 1), (4, 2)] := h4
  exact ⟨s, s', h3, halone, hadded ▸ hall⟩

end TimerManager

end CxpNet
