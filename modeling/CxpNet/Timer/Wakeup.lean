import CxpNet.Timer.Basic
import Mathlib.Order.Lattice
import Mathlib.Tactic.Tauto

/-!
# Does the timer thread sleep through a wake reason?

`add_timer` and `cancel_timer` change the schedule and notify inside one `mutex_` section, so no
change falls between the evaluation of a wait predicate and the block.  `shutdown()` clears
`running_` and notifies outside the mutex.  If both happen after the timer thread has evaluated
the predicate of its untimed wait and before it blocks, the notification finds no waiter: the
thread blocks with `running_` false, and `shutdown()` joins it forever
(`TimerManager.shutdown_hangs`).

`TimerManager.no_lost_wakeup` says that this is the only way: in every run in which `notify_all`
is not executed inside that window, the thread is never blocked past a wake reason.
-/

namespace CxpNet

namespace TimerManager

variable {κ : Type} {s s' : St κ}

/-- The thread is blocked on `cv_`, no notification is on its way, and it should be awake:
in the untimed wait with `running_` cleared or something scheduled, or in the timed wait with an
entry before its deadline.  While `shutdown()` stands before its `notify_all`, that notification
is on its way. -/
def Overslept (s : St κ) : Prop :=
  match s.pc with
  | .untimedBlocked => (s.running = false ∧ s.stop ≠ .notifying) ∨ s.schedule ≠ []
  | .timedBlocked d => ∃ e ∈ s.schedule, e.1 < d
  | _ => False

/-- `notify_all` is not executed between the predicate of the untimed wait and the block. -/
def NotifyOk (s : St κ) : Act κ → Prop
  | .notifyAll => s.pc ≠ .untimedWindow
  | _ => True

instance (s : St κ) [DecidableEq κ] : ∀ a : Act κ, Decidable (NotifyOk s a)
  | .notifyAll => inferInstanceAs (Decidable (s.pc ≠ .untimedWindow))
  | .thread | .timeout | .spurious | .enter _ | .leave | .exchange | .join | .clear
  | .tick _ => .isTrue trivial

/-- What must hold around a wait: from the evaluation of its predicate on, nothing is scheduled
that the predicate would have seen, and a cleared `running_` will still be notified. -/
def WaitOk (schedule : List (TimePoint × TimerID)) (running : Bool) (stop : StopPc) :
    ThreadPc κ → Prop
  | .untimedWindow | .untimedBlocked => schedule = [] ∧ (running = false → stop = .notifying)
  | .timedWindow d | .timedBlocked d => ∀ e ∈ schedule, d ≤ e.1
  | _ => True

/-- The invariant of the timer manager. -/
structure Inv (s : St κ) : Prop where
  sorted : s.schedule.Pairwise fun a b => a.1 ≤ b.1
  mutex : s.pc.holds = true → s.call = none
  stopped : s.stop ≠ .none → s.running = false
  wait : WaitOk s.schedule s.running s.stop s.pc

theorem inv_init : Inv (init κ) :=
  ⟨List.Pairwise.nil, by simp [init], by simp [init], trivial⟩

/-! ### The schedule -/

theorem mem_emplace {d : TimePoint} {id : TimerID} {es : List (TimePoint × TimerID)}
    {e : TimePoint × TimerID} : e ∈ emplace d id es ↔ e = (d, id) ∨ e ∈ es := by
  induction es with
  | nil => simp [emplace]
  | cons x xs ih =>
    simp only [emplace]
    split_ifs
    · simp only [List.mem_cons, ih]; tauto
    · simp

theorem sorted_emplace {d : TimePoint} {id : TimerID} {es : List (TimePoint × TimerID)}
    (h : es.Pairwise fun a b => a.1 ≤ b.1) :
    (emplace d id es).Pairwise fun a b => a.1 ≤ b.1 := by
  induction es with
  | nil => simp [emplace]
  | cons x xs ih =>
    obtain ⟨hx, hxs⟩ := List.pairwise_cons.1 h
    simp only [emplace]
    split_ifs with hle
    · refine List.pairwise_cons.2 ⟨fun e he => ?_, ih hxs⟩
      rcases mem_emplace.1 he with rfl | he
      · exact hle
      · exact hx e he
    · refine List.pairwise_cons.2 ⟨fun e he => ?_, h⟩
      have hlt : d ≤ x.1 := (not_le.1 hle).le
      rcases List.mem_cons.1 he with rfl | he
      · exact hlt
      · exact hlt.trans (hx e he)

/-- The extraction leaves a tail of the schedule and changes only the three containers. -/
theorem extractExpired_spec (now : TimePoint) (es : List (TimePoint × TimerID)) (s : St κ)
    (cbs : List (Expired κ)) :
    ∃ t st sch, (extractExpired now es s cbs).1 =
      { s with timers := t, scheduledTimers := st, schedule := sch } ∧ sch <:+ es := by
  induction es generalizing s cbs with
  | nil => exact ⟨_, _, [], rfl, List.suffix_refl _⟩
  | cons x xs ih =>
    obtain ⟨d, id⟩ := x
    simp only [extractExpired]
    split_ifs
    · exact ⟨_, _, _, rfl, List.suffix_refl _⟩
    · cases s.timers id with
      | none =>
        obtain ⟨t, st, sch, he, hs⟩ :=
          ih { s with scheduledTimers := Function.update s.scheduledTimers id none } cbs
        exact ⟨t, st, sch, he, hs.trans (List.suffix_cons _ _)⟩
      | some timer =>
        obtain ⟨t, st, sch, he, hs⟩ :=
          ih { s with
            scheduledTimers := Function.update s.scheduledTimers id none
            timers := Function.update s.timers id none }
            (if timer.cancelled then cbs else cbs ++ [⟨(d, id), timer.callback⟩])
        exact ⟨t, st, sch, he, hs.trans (List.suffix_cons _ _)⟩

/-- `cancel_timer` does nothing, or it takes entries out of the schedule and notifies. -/
theorem cancelTimer_spec (id : TimerID) (s : St κ) :
    cancelTimer id s = s ∨ ∃ t st sch l, cancelTimer id s =
      { s with timers := t, scheduledTimers := st, schedule := sch, cancelled := l,
               pc := s.pc.woken } ∧ sch.Sublist s.schedule := by
  unfold cancelTimer
  cases s.timers id with
  | none => exact .inl rfl
  | some timer =>
    simp only
    cases s.scheduledTimers id with
    | none => exact .inr ⟨_, _, _, _, rfl, List.Sublist.refl _⟩
    | some it => exact .inr ⟨_, _, _, _, rfl, List.erase_sublist⟩

/-! ### Steps -/

/-- Outside the windows a notified thread is not waiting, whatever the schedule is. -/
theorem waitOk_woken {pc : ThreadPc κ} {es : List (TimePoint × TimerID)} {r : Bool} {st : StopPc}
    (h : pc.holds = false) : WaitOk es r st pc.woken := by
  cases pc <;> simp_all [ThreadPc.woken, ThreadPc.holds, WaitOk]

/-- `running_` and the stage of `shutdown()` matter only around the untimed wait. -/
theorem WaitOk.stop {pc : ThreadPc κ} {es : List (TimePoint × TimerID)} {r r' : Bool}
    {st st' : StopPc} (h : WaitOk es r st pc)
    (hs : pc = .untimedWindow ∨ pc = .untimedBlocked → r' = false → st' = .notifying) :
    WaitOk es r' st' pc := by
  cases pc with
  | untimedWindow => exact ⟨h.1, hs (.inl rfl)⟩
  | untimedBlocked => exact ⟨h.1, hs (.inr rfl)⟩
  | _ => exact h

/-- A notification outside the window of the untimed wait keeps the waits in order, whatever
becomes of `running_` and `shutdown()`. -/
theorem WaitOk.woken {pc : ThreadPc κ} {es : List (TimePoint × TimerID)} {r r' : Bool}
    {st st' : StopPc} (h : WaitOk es r st pc) (hw : pc ≠ .untimedWindow) :
    WaitOk es r' st' pc.woken := by
  cases pc with
  | untimedWindow => exact absurd rfl hw
  | untimedBlocked | timedBlocked d => trivial
  | _ => exact h

/-- If the predicate of the timed wait is false, no entry is before its deadline. -/
theorem le_of_timedPred {d : TimePoint} (hs : s.schedule.Pairwise fun a b => a.1 ≤ b.1)
    (h : timedPred d s = false) : ∀ e ∈ s.schedule, d ≤ e.1 := by
  intro e he
  unfold timedPred at h
  split_ifs at h
  split at h
  · cases h
  · rename_i x xs hsch
    rw [hsch] at he hs
    have hx : d ≤ x.1 := not_lt.1 (of_decide_eq_false h)
    rcases List.mem_cons.1 he with rfl | he
    · exact hx
    · exact hx.trans ((List.pairwise_cons.1 hs).1 e he)

theorem holds_woken (pc : ThreadPc κ) : pc.woken.holds = pc.holds := by cases pc <;> rfl

/-- The thread moves on without touching the schedule. -/
theorem Inv.move {pc : ThreadPc κ} (h : Inv s) (hm : pc.holds = true → s.call = none)
    (hw : WaitOk s.schedule s.running s.stop pc) : Inv { s with pc := pc } :=
  ⟨h.sorted, hm, h.stopped, hw⟩

theorem call_eq_none_of_mutexFree (h : mutexFree s = true) : s.call = none := by
  simp only [mutexFree, Bool.and_eq_true, Option.isNone_iff_eq_none] at h
  exact h.2

theorem Inv.threadStep (h : Inv s) (hst : threadStep s = some s') : Inv s' := by
  have hmutex := h.mutex
  have hwait := h.wait
  unfold TimerManager.threadStep at hst
  cases hpc : s.pc with
  | untimedBlocked | timedBlocked d | exited => simp [hpc] at hst
  | loopHead =>
    simp only [hpc, Option.some.injEq] at hst
    subst hst
    split_ifs
    · exact h.move (by simp [ThreadPc.holds]) trivial
    · exact h.move (by simp [ThreadPc.holds]) trivial
  | lock | untimedWoken =>
    simp only [hpc] at hst
    split_ifs at hst with hfree
    cases hst
    exact h.move (fun _ => call_eq_none_of_mutexFree hfree) trivial
  | untimedCheck =>
    simp only [hpc, Option.some.injEq] at hst
    subst hst
    have hcall : s.call = none := hmutex (by simp [hpc, ThreadPc.holds])
    split_ifs with hpred
    · exact h.move (fun _ => hcall) trivial
    · -- the predicate was false: running, and nothing is scheduled
      simp only [untimedPred, Bool.or_eq_true, Bool.not_eq_true', not_or, Bool.not_eq_false,
        List.isEmpty_iff] at hpred
      exact h.move (fun _ => hcall) ⟨hpred.2, by simp [hpred.1]⟩
  | untimedWindow =>
    simp only [hpc, Option.some.injEq] at hst
    subst hst
    rw [hpc] at hwait
    exact h.move (by simp [ThreadPc.holds]) hwait
  | afterUntimed =>
    have hcall : s.call = none := hmutex (by simp [hpc, ThreadPc.holds])
    simp only [hpc] at hst
    split_ifs at hst
    · cases hsch : s.schedule with
      | nil => simp [hsch] at hst
      | cons e es =>
        simp only [hsch, Option.some.injEq] at hst
        subst hst
        rw [← hsch]
        exact h.move (fun _ => hcall) trivial
    · cases hst
      exact h.move (by simp [ThreadPc.holds]) trivial
  | timedCheck d =>
    simp only [hpc, Option.some.injEq] at hst
    subst hst
    have hcall : s.call = none := hmutex (by simp [hpc, ThreadPc.holds])
    split_ifs with hpred
    · exact h.move (fun _ => hcall) trivial
    · -- the predicate was false: the first entry, hence every entry, is not before `d`
      exact h.move (fun _ => hcall) (le_of_timedPred h.sorted (by simpa using hpred))
  | timedWindow d =>
    simp only [hpc, Option.some.injEq] at hst
    subst hst
    rw [hpc] at hwait
    exact h.move (by simp [ThreadPc.holds]) hwait
  | timedWoken d timeout =>
    simp only [hpc] at hst
    split_ifs at hst with hfree
    · cases hst
      exact h.move (fun _ => call_eq_none_of_mutexFree hfree) trivial
    · cases hst
      exact h.move (fun _ => call_eq_none_of_mutexFree hfree) trivial
  | afterTimed =>
    have hcall : s.call = none := hmutex (by simp [hpc, ThreadPc.holds])
    simp only [hpc, Option.some.injEq] at hst
    subst hst
    split_ifs
    · exact h.move (fun _ => hcall) trivial
    · exact h.move (by simp [ThreadPc.holds]) trivial
  | extract =>
    simp only [hpc, Option.some.injEq] at hst
    subst hst
    obtain ⟨t, st, sch, he, hs⟩ := extractExpired_spec s.now s.schedule s []
    rw [he]
    exact ⟨h.sorted.sublist hs.sublist, by simp [ThreadPc.holds], h.stopped, trivial⟩
  | callbacks rest =>
    cases rest with
    | nil =>
      simp only [hpc, Option.some.injEq] at hst
      subst hst
      exact h.move (by simp [ThreadPc.holds]) trivial
    | cons c rest =>
      simp only [hpc, Option.some.injEq] at hst
      subst hst
      split_ifs
      · exact ⟨h.sorted, by simp [ThreadPc.holds], h.stopped, trivial⟩
      · exact h.move (by simp [ThreadPc.holds]) trivial

/-- A caller that leaves its section was alone in it, so the thread is in no window; and if the
schedule changed the thread was notified, so it is not blocked either. -/
theorem Inv.leave (h : Inv s) {c : Call κ} (hc : s.call = some c)
    {t : TimerID → Option (Timer κ)} {st : TimerID → Option (TimePoint × TimerID)}
    {sch : List (TimePoint × TimerID)} {n : TimerID} {l : List TimerID}
    (hs : sch.Pairwise fun a b => a.1 ≤ b.1) :
    Inv { s with timers := t, scheduledTimers := st, schedule := sch, nextId := n, cancelled := l,
                 pc := s.pc.woken, call := none } := by
  have hfree : s.pc.holds = false := by
    by_contra hh
    rw [h.mutex (by simpa using hh)] at hc
    cases hc
  exact ⟨hs, fun _ => rfl, h.stopped, waitOk_woken hfree⟩

theorem Inv.step (h : Inv s) {a : Act κ} (hg : NotifyOk s a) (hst : step s a = some s') :
    Inv s' := by
  cases a with
  | thread => exact h.threadStep hst
  | timeout =>
    simp only [TimerManager.step] at hst
    split at hst
    · split_ifs at hst
      cases hst
      exact h.move (by simp [ThreadPc.holds]) trivial
    · cases hst
  | spurious =>
    simp only [TimerManager.step] at hst
    split at hst
    · cases hst; exact h.move (by simp [ThreadPc.holds]) trivial
    · cases hst; exact h.move (by simp [ThreadPc.holds]) trivial
    · cases hst
  | enter c =>
    simp only [TimerManager.step] at hst
    split_ifs at hst with hfree
    · cases hst
      refine ⟨h.sorted, fun hh => ?_, h.stopped, h.wait⟩
      simp only [mutexFree, Bool.and_eq_true, Bool.not_eq_true'] at hfree
      rw [hfree.1] at hh
      cases hh
    · cases hst; exact h
  | leave =>
    simp only [TimerManager.step] at hst
    split at hst
    · cases hst
    · rename_i delayMs cb hc
      cases hst
      exact h.leave hc (sorted_emplace h.sorted)
    · rename_i id hc
      cases hst
      rcases cancelTimer_spec id s with he | ⟨t, st, sch, l, he, hs⟩
      · rw [he]
        exact ⟨h.sorted, fun _ => rfl, h.stopped, h.wait⟩
      · rw [he]
        exact h.leave hc (h.sorted.sublist hs)
  | exchange =>
    simp only [TimerManager.step, Option.some.injEq] at hst
    subst hst
    split_ifs
    · exact ⟨h.sorted, h.mutex, fun _ => rfl, h.wait.stop fun _ _ => rfl⟩
    · exact h
  | notifyAll =>
    simp only [TimerManager.step] at hst
    split_ifs at hst with hn
    cases hst
    exact ⟨h.sorted, fun hh => h.mutex (by rwa [← holds_woken]),
      fun _ => h.stopped (by simp [hn]), h.wait.woken hg⟩
  | join =>
    simp only [TimerManager.step] at hst
    split_ifs at hst with hj
    cases hst
    refine ⟨h.sorted, h.mutex, fun _ => h.stopped (by simp [hj.1]), h.wait.stop ?_⟩
    rintro (hpc | hpc) <;> simp [hpc] at hj
  | clear =>
    simp only [TimerManager.step] at hst
    split_ifs at hst with hcl
    cases hst
    have hr : s.running = false := h.stopped (by simp [hcl.1])
    have hwait := h.wait
    refine ⟨List.Pairwise.nil, h.mutex, fun _ => hr, ?_⟩
    -- the thread has been joined, so it waits for nothing
    cases hpc : s.pc with
    | untimedWindow | untimedBlocked =>
      rw [hpc] at hwait
      cases hcl.1.symm.trans (hwait.2 hr)
    | timedWindow d | timedBlocked d => exact fun e he => absurd he List.not_mem_nil
    | _ => trivial
  | tick n =>
    cases hst
    exact ⟨h.sorted, h.mutex, h.stopped, h.wait⟩

theorem inv_of_reach (h : (machine κ).ReachIf NotifyOk (init κ) s) : Inv s :=
  h.invariant inv_init fun _ _ _ hi hg hst => hi.step hg hst

/-! ### Results -/

/-- **No lost wakeup outside the window.**  In every run, of any callers and one or more
`shutdown()` calls, in which no `notify_all` is executed between the evaluation of the untimed
predicate and the block: the timer thread is never blocked past a wake reason; in particular
`shutdown()` never joins a thread that is blocked in the untimed wait. -/
theorem no_lost_wakeup (h : (machine κ).ReachIf NotifyOk (init κ) s) :
    ¬ Overslept s ∧ ¬ (s.stop = .joining ∧ s.pc = .untimedBlocked) := by
  have hi := inv_of_reach h
  have hwait := hi.wait
  constructor
  · unfold Overslept
    cases hpc : s.pc with
    | untimedBlocked =>
      rw [hpc] at hwait
      rintro (⟨hr, hn⟩ | hsch)
      · exact hn (hwait.2 hr)
      · exact hsch hwait.1
    | timedBlocked d =>
      rw [hpc] at hwait
      rintro ⟨e, he, hlt⟩
      exact absurd hlt (not_lt.2 (hwait e he))
    | _ => exact id
  · rintro ⟨hj, hpc⟩
    rw [hpc] at hwait
    cases hj.symm.trans (hwait.2 (hi.stopped (by simp [hj])))

/-- The thread goes to sleep, a timer is added and wakes it, and it goes to sleep until the
deadline; then `shutdown()` is called and joins. -/
def stopWhileAsleep : List (Act ℕ) :=
  [.thread, .thread, .thread, .thread, .enter (.addTimer 5 0), .leave, .thread, .thread, .thread,
    .thread, .thread, .exchange, .notifyAll]

/-- `stopWhileAsleep` meets the guard, and the thread is on its way out of the timed wait. -/
theorem no_lost_wakeup_stopWhileAsleep :
    ∃ s, (machine ℕ).exec (init ℕ) stopWhileAsleep = some s ∧ s.pc = .timedWoken 5 false ∧
      s.stop = .joining ∧ ¬ Overslept s := by
  obtain ⟨s, hs⟩ : ∃ s, (machine ℕ).exec (init ℕ) stopWhileAsleep = some s := ⟨_, rfl⟩
  have hpc : ((machine ℕ).exec (init ℕ) stopWhileAsleep).map (fun s => (s.pc, s.stop)) =
      some (.timedWoken 5 false, .joining) := rfl
  rw [hs] at hpc
  simp only [Option.map_some, Option.some.injEq, Prod.mk.injEq] at hpc
  exact ⟨s, hs, hpc.1, hpc.2, (no_lost_wakeup (.of_exec _ hs (by decide))).1⟩

/-- The thread evaluates the untimed predicate; `shutdown()` clears `running_` and notifies; the
thread blocks. -/
def stopInWindow : List (Act ℕ) := [.thread, .thread, .thread, .exchange, .notifyAll, .thread]

/-- After `stopInWindow` the thread sleeps in the untimed wait with `running_` false, and
`shutdown()` is joining it. -/
theorem shutdown_hangs :
    ∃ s, (machine ℕ).Reach (init ℕ) s ∧ Overslept s ∧ s.stop = .joining ∧
      s.pc = .untimedBlocked ∧ s.running = false :=
  ⟨_, .of_exec stopInWindow rfl, .inl ⟨rfl, by decide⟩, rfl, rfl, rfl⟩

end TimerManager

end CxpNet
