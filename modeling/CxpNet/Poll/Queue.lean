import CxpNet.Poll.Basic

/-!
# No lost, duplicated or reordered task, and no lost wakeup

The invariant of the event loop ties the queue, the batch in hand, the eventfd counter and the
ready list together:

* the queued closures are, in order, the executed ones, the rest of the batch and the queue;
* a positive counter is announced: the fd is on the ready list, or it was reported and
  `handle_wakeup_` is still to come (`Announced`);
* in every phase in which the loop may block before it next takes the queue, a closure whose
  wakeup was written keeps the counter positive (`Covered`).  Between `handle_wakeup_` and the
  swap the counter may be zero, but there the loop does not block.

`Poll.task_queue` is the result for every interleaving of any number of threads.
-/

namespace CxpNet

namespace Poll

variable {T τ : Type} {R creator : T} {s s' : St T τ}

/-- The closures at the end of the queue whose wakeup is not written yet: the one of the thread
that is inside its section, if any. -/
def unannounced (s : St T τ) : ℕ := if s.mutex.isSome then 1 else 0

/-- The phases from which the loop can block before it takes the queue. -/
def RunPc.mayBlock : RunPc → Bool
  | notStarted | top | polling | dispatch true | exec => true
  | _ => false

/-- The invariant of the event loop. -/
structure Inv (s : St T τ) : Prop where
  order : s.enqueued = s.executed ++ s.batch ++ s.tasks
  announced : 0 < s.counter → s.edge = true ∨ s.pc = .dispatch true
  covered : s.pc.mayBlock = true → unannounced s < s.tasks.length → 0 < s.counter
  stopped : s.shutWritten = true → s.shut = true ∧ (s.pc = .polling → 0 < s.counter)
  notifying : s.notifying ≠ [] → s.shut = true
  returned : s.pc = .returned → s.executed = s.atReturn
  batch : s.pc ≠ .exec → s.batch = []

theorem inv_init : Inv (init creator : St T τ) := by
  constructor <;> simp [init, unannounced]

/-! ### Wakeups and pushes -/

/-- A written wakeup keeps the invariant, whichever section or call it ends. -/
theorem Inv.wakeupWrite {m : Option T} {n : List T} {w : Bool} (h : Inv s)
    (hw : w = true → s.shut = true) (hn : n ≠ [] → s.shut = true) :
    Inv (wakeupWrite { s with mutex := m, notifying := n, shutWritten := w }) := by
  obtain ⟨c, e, he, hc, hedge⟩ :=
    wakeupWrite_eq { s with mutex := m, notifying := n, shutWritten := w }
  rw [he]
  refine ⟨h.order, fun _ => ?_, fun _ _ => hc, fun hsw => ⟨hw hsw, fun _ => hc⟩, hn, h.returned,
    h.batch⟩
  rcases hedge with rfl | ⟨hpos, rfl⟩
  · exact .inl rfl
  · exact h.announced hpos

/-- A push does not change what is announced: the new closure is the unannounced one. -/
theorem Inv.pushBack {t : T} {f : τ} (h : Inv s) (hm : s.mutex = none) :
    Inv (pushBack t f s) := by
  refine ⟨?_, h.announced, fun hpc hlt => h.covered hpc ?_, h.stopped, h.notifying, h.returned,
    h.batch⟩
  · simp [Poll.pushBack, h.order]
  · simp only [unannounced, Poll.pushBack, Option.isSome_some, ↓reduceIte,
      List.length_append, List.length_singleton, Nat.lt_add_left_iff_pos] at hlt
    simpa [unannounced, hm] using hlt

/-! ### Steps -/

/-- The loop takes the whole queue as its next batch. -/
theorem Inv.take (h : Inv s) (hpc : s.pc = .swap ∨ s.pc = .drain) :
    Inv { s with pc := .exec, batch := s.tasks, tasks := [] } := by
  have hb : s.batch = [] := h.batch (by rcases hpc with hpc | hpc <;> simp [hpc])
  refine ⟨?_, fun hc => ?_, by simp, fun hw => ⟨(h.stopped hw).1, by simp⟩, h.notifying, by simp,
    by simp⟩
  · simpa [hb] using h.order
  · rcases h.announced hc with he | he
    · exact .inl he
    · rcases hpc with hpc | hpc <;> simp [hpc] at he

/-- The loop moves on without touching the queue, the batch or the counter. -/
theorem Inv.move {q : RunPc} {e : Bool} {t : T} (h : Inv s) (hb : s.batch = [])
    (hq : q ≠ .returned) (ha : 0 < s.counter → e = true ∨ q = .dispatch true)
    (hc : q.mayBlock = true → s.pc.mayBlock = true) (hp : q = .polling → s.shut = false) :
    Inv { s with pc := q, edge := e, threadId := t } := by
  refine ⟨h.order, ha, fun hm hlt => h.covered (hc hm) hlt, fun hw => ?_, h.notifying,
    fun hr => absurd hr hq, fun _ => hb⟩
  have hshut := (h.stopped hw).1
  exact ⟨hshut, fun hpoll => by rw [hp hpoll] at hshut; cases hshut⟩

theorem Inv.loopStep (h : Inv s) {a : LoopAct} (hst : loopStep R s a = some s') : Inv s' := by
  have hann : s.pc ≠ .dispatch true → 0 < s.counter → s.edge = true :=
    fun hpc hc => (h.announced hc).resolve_right hpc
  cases a with
  | runStart =>
    simp only [Poll.loopStep] at hst
    split_ifs at hst with hpc
    cases hst
    exact h.move (h.batch (by simp [hpc])) (by simp) (fun hc => .inl (hann (by simp [hpc]) hc))
      (by simp [hpc, RunPc.mayBlock]) (by simp)
  | loadShut =>
    simp only [Poll.loopStep] at hst
    split_ifs at hst with hpc hshut
    · cases hst
      exact h.move (h.batch (by simp [hpc])) (by simp) (fun hc => .inl (hann (by simp [hpc]) hc))
        (by simp [RunPc.mayBlock]) (by simp)
    · cases hst
      exact h.move (h.batch (by simp [hpc])) (by simp) (fun hc => .inl (hann (by simp [hpc]) hc))
        (by simp [hpc, RunPc.mayBlock]) (by simpa using hshut)
  | pollReturn wake =>
    cases wake with
    | false =>
      simp only [Poll.loopStep] at hst
      split_ifs at hst with hpc
      cases hst
      exact h.move (h.batch (by simp [hpc])) (by simp) (fun hc => .inl (hann (by simp [hpc]) hc))
        (by simp [RunPc.mayBlock]) (by simp)
    | true =>
      simp only [Poll.loopStep] at hst
      split_ifs at hst with hpc
      cases hst
      exact h.move (h.batch (by simp [hpc.1])) (by simp) (fun _ => .inr rfl)
        (by simp [hpc.1, RunPc.mayBlock]) (by simp)
  | wakeupRead =>
    -- the counter is reset, so the phases up to the swap must not be blocking ones
    simp only [Poll.loopStep] at hst
    split_ifs at hst with hpc
    cases hst
    exact ⟨h.order, by simp, by simp [RunPc.mayBlock], fun hw => ⟨(h.stopped hw).1, by simp⟩,
      h.notifying, by simp, fun _ => h.batch (by simp [hpc])⟩
  | dispatchDone =>
    simp only [Poll.loopStep] at hst
    split_ifs at hst with hpc
    cases hst
    exact h.move (h.batch (by simp [hpc])) (by simp) (fun hc => .inl (hann (by simp [hpc]) hc))
      (by simp [RunPc.mayBlock]) (by simp)
  | swapTasks =>
    simp only [Poll.loopStep] at hst
    split_ifs at hst with hpc
    cases hst
    exact h.take (.inl hpc.1)
  | drainTasks =>
    simp only [Poll.loopStep] at hst
    split_ifs at hst with hpc hnil
    · cases hst
      have hb : s.batch = [] := h.batch (by simp [hpc.1])
      refine ⟨h.order, fun hc => .inl (hann (by simp [hpc.1]) hc), by simp [RunPc.mayBlock],
        fun hw => ⟨(h.stopped hw).1, by simp⟩, h.notifying, fun _ => ?_, fun _ => hb⟩
      simp [h.order, hb, hnil]
    · cases hst
      exact h.take (.inr hpc.1)
  | runTask =>
    simp only [Poll.loopStep] at hst
    split_ifs at hst with hpc
    cases hbatch : s.batch with
    | nil =>
      simp only [hbatch, Option.some.injEq] at hst
      subst hst
      have hm := h.move (q := .top) (e := s.edge) (t := s.threadId) hbatch (by simp)
        (fun hc => .inl (hann (by simp [hpc]) hc)) (by simp [hpc, RunPc.mayBlock]) (by simp)
      rwa [hbatch] at hm
    | cons f rest =>
      simp only [hbatch, Option.some.injEq] at hst
      subst hst
      exact ⟨by simp [h.order, hbatch], h.announced, h.covered, h.stopped, h.notifying,
        by simp [hpc], by simp [hpc]⟩

theorem Inv.callStep [DecidableEq T] (h : Inv s) {a : CallAct T τ}
    (hst : callStep R s a = some s') : Inv s' := by
  cases a with
  | runInPoll t f =>
    simp only [Poll.callStep] at hst
    split_ifs at hst with hcan hin hm
    · cases hst
      exact ⟨h.order, h.announced, h.covered, h.stopped, h.notifying, h.returned, h.batch⟩
    · cases hst
      have h' : Inv { s with passed := s.passed ++ [f] } :=
        ⟨h.order, h.announced, h.covered, h.stopped, h.notifying, h.returned, h.batch⟩
      exact h'.pushBack hm
  | runLater t f =>
    simp only [Poll.callStep] at hst
    split_ifs at hst with hcan
    cases hst
    exact h.pushBack hcan.2
  | notify t =>
    simp only [Poll.callStep] at hst
    split_ifs at hst
    cases hst
    exact h.wakeupWrite (fun hw => (h.stopped hw).1) h.notifying
  | shutdownLoad t =>
    simp only [Poll.callStep] at hst
    split_ifs at hst
    · cases hst; exact h
    · cases hst
      exact ⟨h.order, h.announced, h.covered, h.stopped, h.notifying, h.returned, h.batch⟩
  | shutdownStore t =>
    simp only [Poll.callStep] at hst
    split_ifs at hst
    cases hst
    exact ⟨h.order, h.announced, h.covered, fun hw => ⟨rfl, (h.stopped hw).2⟩, fun _ => rfl,
      h.returned, h.batch⟩
  | shutdownNotify t =>
    simp only [Poll.callStep] at hst
    split_ifs at hst with hmem
    cases hst
    have hshut : s.shut = true := h.notifying (List.ne_nil_of_mem hmem)
    exact h.wakeupWrite (fun _ => hshut) (fun _ => hshut)

theorem Inv.step [DecidableEq T] (h : Inv s) {a : Act T τ} (hst : step R s a = some s') :
    Inv s' := by
  cases a with
  | loop a =>
    simp only [Poll.step] at hst
    split_ifs at hst
    exact h.loopStep hst
  | call a => exact h.callStep hst

theorem inv_of_reach [DecidableEq T] (h : (machine R).Reach (init creator) s) : Inv s :=
  h.invariant inv_init fun _ _ _ hi _ hst => hi.step hst

/-! ### Results -/

/-- The loop's thread is asleep in the poller, and no wakeup is on its way. -/
def Asleep (s : St T τ) : Prop := s.pc = .polling ∧ ¬ (s.edge = true ∧ 0 < s.counter)

/-- **The task queue.**  In every reachable state, for any number of calling threads:

* the queued closures are, in order, the executed ones, the rest of the batch in hand and
  `tasks_`;
* the loop is never asleep while `tasks_` is non-empty (but for the closure of a thread that is
  still inside its `mutex_` section and about to write the wakeup), nor after a `shutdown()` has
  written its wakeup;
* once `run()` has returned, exactly the closures queued before its final emptiness check have
  been executed, each once and in order. -/
theorem task_queue [DecidableEq T] (h : (machine R).Reach (init creator) s) :
    s.enqueued = s.executed ++ s.batch ++ s.tasks ∧
      (Asleep s → (s.mutex = none → s.tasks = []) ∧ s.tasks.length ≤ unannounced s ∧
        s.shutWritten = false) ∧
      (s.pc = .returned → s.executed = s.atReturn) := by
  have hi := inv_of_reach h
  refine ⟨hi.order, fun ⟨hpc, hno⟩ => ?_, hi.returned⟩
  have hc : ¬ 0 < s.counter := fun hc =>
    hno ⟨(hi.announced hc).resolve_right (by simp [hpc]), hc⟩
  have hle : s.tasks.length ≤ unannounced s := by
    by_contra hlt
    exact hc (hi.covered (by simp [hpc, RunPc.mayBlock]) (by omega))
  refine ⟨fun hm => ?_, hle, ?_⟩
  · simpa [unannounced, hm] using hle
  · by_contra hw
    exact hc ((hi.stopped (by simpa using hw)).2 hpc)

/-- A closure queued by thread 0 is taken and executed by thread 1, which then goes back to
sleep. -/
theorem task_queue_oneTask : ∃ s, (machine 1).Reach (init 0 : St ℕ ℕ) s ∧ Asleep s ∧
    s.executed = [7] ∧ s.enqueued = s.executed ++ s.batch ++ s.tasks ∧ s.tasks = [] := by
  have hr : (machine 1).Reach (init 0 : St ℕ ℕ) _ :=
    .of_exec [.loop .runStart, .call (.runLater 0 7), .call (.notify 0), .loop .loadShut,
      .loop (.pollReturn true), .loop .wakeupRead, .loop .dispatchDone, .loop .swapTasks,
      .loop .runTask, .loop .runTask, .loop .loadShut] rfl
  have h := task_queue hr
  refine ⟨_, hr, ?_, rfl, h.1, (h.2.1 ?_).1 rfl⟩ <;> exact ⟨rfl, by decide⟩

end Poll

end CxpNet
