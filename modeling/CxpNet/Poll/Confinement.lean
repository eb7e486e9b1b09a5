import CxpNet.Poll.Queue

/-!
# Which thread executes a closure

`Conn`, `Channel` and the pollers use no locks: they rely on every closure passed to
`run_in_poll` being executed by the thread `R` that executes `run()`.  But `thread_id_` names the
constructing thread until `run()` overwrites it, and `run_in_poll` executes its closure on the
spot when the caller's id equals `thread_id_`.  A sub-poll is constructed by the thread that also
runs the main loop and accepts connections, so an accept that is processed before the sub-poll's
thread has entered `run()` executes `Conn::start_` on the accepting thread
(`Poll.not_confined_before_run`).

`Poll.confined_iff` says exactly when this does not happen: a run is confined iff its
constructing thread, unless it executes `run()` itself, calls `run_in_poll` only after `run()`
has stored `thread_id_`.
-/

namespace CxpNet

namespace Poll

variable {T τ : Type} {R creator : T} {s s' : St T τ}

/-- Every closure passed to `run_in_poll` has been executed by `R` or is still queued for it,
and no other thread has executed any closure of this poll. -/
def Confined (R : T) (s : St T τ) : Prop :=
  (∀ f ∈ s.passed, (f, R) ∈ s.ran ∨ f ∈ s.batch ∨ f ∈ s.tasks) ∧ ∀ p ∈ s.ran, p.2 = R

/-- A `run_in_poll` call comes from `R`, from a thread that did not construct the poll, or after
`run()` has stored `thread_id_`. -/
def CallOk (R creator : T) (s : St T τ) : Act T τ → Prop
  | .call (.runInPoll t _) => t = R ∨ t ≠ creator ∨ s.pc ≠ .notStarted
  | _ => True

instance [DecidableEq T] (s : St T τ) : ∀ a : Act T τ, Decidable (CallOk R creator s a)
  | .call (.runInPoll t _) => inferInstanceAs (Decidable (t = R ∨ t ≠ creator ∨ s.pc ≠ .notStarted))
  | .loop _ | .call (.runLater ..) | .call (.notify _) | .call (.shutdownLoad _)
  | .call (.shutdownStore _) | .call (.shutdownNotify _) => .isTrue trivial

/-- `thread_id_` names the constructing thread up to the start of `run()`, and `R` after it. -/
def IdInv (R creator : T) (s : St T τ) : Prop :=
  s.threadId = if s.pc = .notStarted then creator else R

/-! ### What one step does to the histories -/

/-- What a step of the loop does to the closures: it executes the first one of the batch, or it
moves the queue to an empty batch, or it leaves them alone. -/
theorem loopStep_closures {a : LoopAct} (hst : loopStep R s a = some s') :
    s'.passed = s.passed ∧
      ((s'.ran = s.ran ∧ s'.batch = s.batch ∧ s'.tasks = s.tasks) ∨
        (s'.ran = s.ran ∧ s'.batch = s.tasks ∧ s'.tasks = [] ∧ s.pc ≠ .exec) ∨
        ∃ f, s'.ran = s.ran ++ [(f, R)] ∧ s.batch = f :: s'.batch ∧ s'.tasks = s.tasks) := by
  cases a with
  | runTask =>
    simp only [loopStep] at hst
    split_ifs at hst with hpc
    cases hb : s.batch with
    | nil =>
      simp only [hb, Option.some.injEq] at hst
      subst hst
      exact ⟨rfl, .inl ⟨rfl, rfl, rfl⟩⟩
    | cons f rest =>
      simp only [hb, Option.some.injEq] at hst
      subst hst
      exact ⟨rfl, .inr (.inr ⟨f, rfl, rfl, rfl⟩)⟩
  | swapTasks =>
    simp only [loopStep] at hst
    split_ifs at hst with hpc
    cases hst
    exact ⟨rfl, .inr (.inl ⟨rfl, rfl, rfl, by simp [hpc.1]⟩)⟩
  | drainTasks =>
    simp only [loopStep] at hst
    split_ifs at hst with hpc
    · cases hst; exact ⟨rfl, .inl ⟨rfl, rfl, rfl⟩⟩
    · cases hst; exact ⟨rfl, .inr (.inl ⟨rfl, rfl, rfl, by simp [hpc.1]⟩)⟩
  | pollReturn wake =>
    cases wake <;> simp only [loopStep] at hst <;> split_ifs at hst <;> cases hst <;>
      exact ⟨rfl, .inl ⟨rfl, rfl, rfl⟩⟩
  | runStart | loadShut | wakeupRead | dispatchDone =>
    simp only [loopStep] at hst
    split_ifs at hst <;> cases hst <;> exact ⟨rfl, .inl ⟨rfl, rfl, rfl⟩⟩

/-- What a call does to the closures: only `run_in_poll` on the thread that `thread_id_` names
executes one. -/
theorem callStep_closures [DecidableEq T] {a : CallAct T τ} (hst : callStep R s a = some s') :
    s'.batch = s.batch ∧ s'.pc = s.pc ∧ s'.threadId = s.threadId ∧
      ((∃ t f, a = .runInPoll t f ∧ s.threadId = t ∧ s'.passed = s.passed ++ [f] ∧
          s'.ran = s.ran ++ [(f, t)] ∧ s'.tasks = s.tasks) ∨
        (∃ t f, a = .runInPoll t f ∧ s.threadId ≠ t ∧ s'.passed = s.passed ++ [f] ∧
          s'.ran = s.ran ∧ s'.tasks = s.tasks ++ [f]) ∨
        ((∀ t f, a ≠ .runInPoll t f) ∧ s'.passed = s.passed ∧ s'.ran = s.ran ∧
          ∃ l, s'.tasks = s.tasks ++ l)) := by
  cases a with
  | runInPoll t f =>
    simp only [callStep] at hst
    split_ifs at hst with hcan hin
    · cases hst
      exact ⟨rfl, rfl, rfl, .inl ⟨t, f, rfl, by simpa [isInPollThread] using hin, rfl, rfl, rfl⟩⟩
    · cases hst
      have ht := by simpa [isInPollThread] using hin
      exact ⟨rfl, rfl, rfl, .inr (.inl ⟨t, f, rfl, ht, rfl, rfl, rfl⟩)⟩
  | runLater t f =>
    simp only [callStep] at hst
    split_ifs at hst
    cases hst
    exact ⟨rfl, rfl, rfl, .inr (.inr ⟨by simp, rfl, rfl, [f], rfl⟩)⟩
  | shutdownLoad t =>
    simp only [callStep] at hst
    split_ifs at hst <;> cases hst <;>
      exact ⟨rfl, rfl, rfl, .inr (.inr ⟨by simp, rfl, rfl, [], by simp⟩)⟩
  | shutdownStore t =>
    simp only [callStep] at hst
    split_ifs at hst
    cases hst
    exact ⟨rfl, rfl, rfl, .inr (.inr ⟨by simp, rfl, rfl, [], by simp⟩)⟩
  | notify t | shutdownNotify t =>
    simp only [callStep] at hst
    split_ifs at hst
    cases hst
    obtain ⟨c, e, he, -⟩ := wakeupWrite_eq _
    rw [he]
    exact ⟨rfl, rfl, rfl, .inr (.inr ⟨by simp, rfl, rfl, [], by simp⟩)⟩

theorem loopStep_idInv (h : IdInv R creator s) {a : LoopAct} (hst : loopStep R s a = some s') :
    IdInv R creator s' := by
  have key : ∀ {q : RunPc}, s.pc ≠ .notStarted → q ≠ .notStarted →
      s.threadId = if q = .notStarted then creator else R := by
    intro q h1 h2
    simpa [IdInv, h1, h2] using h
  unfold IdInv
  cases a with
  | runStart => simp only [loopStep] at hst; split_ifs at hst; cases hst; rfl
  | pollReturn wake =>
    cases wake <;> simp only [loopStep] at hst <;> split_ifs at hst with hpc <;> cases hst <;>
      exact key (by simp [hpc]) (by simp)
  | runTask =>
    simp only [loopStep] at hst
    split_ifs at hst with hpc
    cases hb : s.batch with
    | nil =>
      simp only [hb, Option.some.injEq] at hst
      subst hst
      exact key (by simp [hpc]) (by simp)
    | cons f rest =>
      simp only [hb, Option.some.injEq] at hst; subst hst; exact key (by simp [hpc]) (by simp [hpc])
  | loadShut =>
    simp only [loopStep] at hst
    split_ifs at hst with hpc <;> cases hst <;> exact key (by simp [hpc]) (by simp)
  | swapTasks | drainTasks | wakeupRead | dispatchDone =>
    simp only [loopStep] at hst
    split_ifs at hst with hpc <;> cases hst <;> exact key (by simp [hpc]) (by simp)

theorem idInv_step [DecidableEq T] (h : IdInv R creator s) {a : Act T τ}
    (hst : step R s a = some s') :
    IdInv R creator s' := by
  cases a with
  | loop a =>
    simp only [step] at hst
    split_ifs at hst
    exact loopStep_idInv h hst
  | call a =>
    obtain ⟨-, hpc, hid, -⟩ := callStep_closures hst
    rw [IdInv, hpc, hid]
    exact h

/-! ### No closure is lost -/

/-- Every closure passed to `run_in_poll` has been executed by some thread or is still queued. -/
def Kept (s : St T τ) : Prop :=
  ∀ f ∈ s.passed, (∃ t, (f, t) ∈ s.ran) ∨ f ∈ s.batch ∨ f ∈ s.tasks

theorem loopStep_kept (hb : s.pc ≠ .exec → s.batch = []) (h : Kept s) {a : LoopAct}
    (hst : loopStep R s a = some s') : Kept s' := by
  obtain ⟨hp, hcase⟩ := loopStep_closures hst
  intro f hf
  rw [hp] at hf
  rcases hcase with ⟨hr, hb', ht⟩ | ⟨hr, hb', -, hpc⟩ | ⟨g, hr, hb', ht⟩
  · rw [hr, hb', ht]
    exact h f hf
  · rw [hr, hb']
    rcases h f hf with hran | hbatch | htasks
    · exact .inl hran
    · rw [hb hpc] at hbatch
      cases hbatch
    · exact .inr (.inl htasks)
  · rw [hr, ht]
    rcases h f hf with ⟨t, hran⟩ | hbatch | htasks
    · exact .inl ⟨t, List.mem_append_left _ hran⟩
    · rw [hb'] at hbatch
      rcases List.mem_cons.1 hbatch with rfl | hbatch
      · exact .inl ⟨R, by simp⟩
      · exact .inr (.inl hbatch)
    · exact .inr (.inr htasks)

theorem callStep_kept [DecidableEq T] (h : Kept s) {a : CallAct T τ}
    (hst : callStep R s a = some s') : Kept s' := by
  obtain ⟨hb, -, -, hcase⟩ := callStep_closures hst
  intro f hf
  rw [hb]
  rcases hcase with ⟨t, g, -, -, hp, hr, ht⟩ | ⟨t, g, -, -, hp, hr, ht⟩ | ⟨-, hp, hr, l, ht⟩
  · rw [hp] at hf
    rw [hr, ht]
    rcases List.mem_append.1 hf with hf | hf
    · rcases h f hf with ⟨u, hran⟩ | hq
      · exact .inl ⟨u, List.mem_append_left _ hran⟩
      · exact .inr hq
    · cases List.mem_singleton.1 hf
      exact .inl ⟨t, by simp⟩
  · rw [hp] at hf
    rw [hr, ht]
    rcases List.mem_append.1 hf with hf | hf
    · rcases h f hf with hran | hbatch | htasks
      · exact .inl hran
      · exact .inr (.inl hbatch)
      · exact .inr (.inr (List.mem_append_left _ htasks))
    · exact .inr (.inr (List.mem_append_right _ hf))
  · rw [hp] at hf
    rw [hr, ht]
    rcases h f hf with hran | hbatch | htasks
    · exact .inl hran
    · exact .inr (.inl hbatch)
    · exact .inr (.inr (List.mem_append_left _ htasks))

theorem kept_of_reach [DecidableEq T] (h : (machine R).Reach (init creator) s) : Kept s := by
  refine h.invariant_of (J := Inv) (fun s hs => inv_of_reach hs) (by simp [Kept, init]) ?_
  intro s a s' hi hk _ hst
  cases a with
  | loop a =>
    simp only [machine, step] at hst
    split_ifs at hst
    exact loopStep_kept hi.batch hk hst
  | call a => exact callStep_kept hk hst

/-! ### Who executes -/

/-- Only `R` has executed closures of this poll. -/
def OnlyLoop (R : T) (s : St T τ) : Prop := ∀ p ∈ s.ran, p.2 = R

theorem onlyLoop_append {p : τ × T} (hr : s'.ran = s.ran ++ [p]) :
    OnlyLoop R s' ↔ OnlyLoop R s ∧ p.2 = R := by
  simp [OnlyLoop, hr, or_imp, forall_and]

/-- One step executes a closure on another thread iff it is a `run_in_poll` call of the
constructing thread before the start of `run()`. -/
theorem onlyLoop_step [DecidableEq T] (hid : IdInv R creator s) {a : Act T τ}
    (hst : step R s a = some s') : OnlyLoop R s' ↔ OnlyLoop R s ∧ CallOk R creator s a := by
  cases a with
  | loop a =>
    simp only [step] at hst
    split_ifs at hst
    have hok : CallOk R creator s (.loop a) := trivial
    rcases (loopStep_closures hst).2 with ⟨hr, -⟩ | ⟨hr, -⟩ | ⟨f, hr, -⟩
    · simp [OnlyLoop, hr, hok]
    · simp [OnlyLoop, hr, hok]
    · simp [onlyLoop_append hr, hok]
  | call a =>
    rcases (callStep_closures hst).2.2.2 with ⟨t, f, rfl, ht, -, hr, -⟩ |
      ⟨t, f, rfl, ht, -, hr, -⟩ | ⟨hne, -, hr, -⟩
    · rw [onlyLoop_append hr, CallOk]
      rw [IdInv] at hid
      refine and_congr_right fun _ => ⟨.inl, ?_⟩
      rintro (h | h | h)
      · exact h
      · -- the caller is named by `thread_id_`, so it is the creator or `R`
        split_ifs at hid with hpc
        · exact absurd (ht.symm.trans hid) h
        · exact ht.symm.trans hid
      · rw [if_neg h] at hid
        exact ht.symm.trans hid
    · -- `thread_id_` names another thread, so the closure is queued
      have hok : CallOk R creator s (.call (.runInPoll t f)) := by
        by_cases hpc : s.pc = .notStarted
        · rw [IdInv, if_pos hpc] at hid
          exact .inr (.inl fun h => ht (by rw [hid, h]))
        · exact .inr (.inr hpc)
      simp [OnlyLoop, hr, hok]
    · have hok : CallOk R creator s (.call a) := by
        cases a with
        | runInPoll t f => exact absurd rfl (hne t f)
        | runLater | notify | shutdownLoad | shutdownStore | shutdownNotify => trivial
      simp [OnlyLoop, hr, hok]

theorem onlyLoop_exec [DecidableEq T] (hid : IdInv R creator s) {as : List (Act T τ)}
    (h : (machine R).exec s as = some s') :
    OnlyLoop R s' ↔ OnlyLoop R s ∧ (machine R).Meets (CallOk R creator) s as := by
  induction as generalizing s with
  | nil => cases h; simp [Machine.Meets]
  | cons a as ih =>
    obtain ⟨t, hst, h⟩ := Option.bind_eq_some_iff.1 h
    rw [ih (idInv_step hid hst) h, onlyLoop_step hid hst, Machine.meets_cons hst, and_assoc]

/-! ### Results -/

/-- **Confinement.**  For every run of a poll constructed on `creator` and run on `R`: every
closure passed to `run_in_poll` is executed by `R` and by no other thread iff the constructing
thread (unless it is `R`) calls `run_in_poll` only after `run()` has stored `thread_id_`. -/
theorem confined_iff [DecidableEq T] {as : List (Act T τ)}
    (h : (machine R).exec (init creator) as = some s) :
    Confined R s ↔ (machine R).Meets (CallOk R creator) (init creator) as := by
  have hid : IdInv R creator (init creator : St T τ) := rfl
  have hkept := kept_of_reach (.of_exec as h)
  have h0 : OnlyLoop R (init creator : St T τ) := by simp [OnlyLoop, init]
  have hkey := onlyLoop_exec hid h
  rw [and_iff_right h0] at hkey
  rw [← hkey]
  refine ⟨fun hc => hc.2, fun ho => ⟨fun f hf => ?_, ho⟩⟩
  rcases hkept f hf with ⟨t, hran⟩ | hq
  · have ht : t = R := ho _ hran
    exact .inl (ht ▸ hran)
  · exact .inr hq

/-- Thread 0 constructs the poll and passes closure 7 to it after thread 1 has entered `run()`. -/
def lateCall : List (Act ℕ ℕ) :=
  [.loop .runStart, .call (.runInPoll 0 7), .call (.notify 0), .loop .loadShut,
    .loop (.pollReturn true), .loop .wakeupRead, .loop .dispatchDone, .loop .swapTasks,
    .loop .runTask]

/-- The closure of `lateCall` is queued, and thread 1 executes it. -/
theorem confined_iff_lateCall :
    ∃ s, (machine 1).exec (init 0) lateCall = some s ∧ s.ran = [(7, 1)] ∧ Confined 1 s := by
  obtain ⟨s, hs⟩ : ∃ s, (machine 1).exec (init 0) lateCall = some s := ⟨_, rfl⟩
  have hran : ((machine 1).exec (init 0) lateCall).map (·.ran) = some [(7, 1)] := by decide
  rw [hs] at hran
  exact ⟨s, hs, by simpa using hran, (confined_iff hs).2 (by decide)⟩

/-- Thread 0 constructs the poll and passes closure 7 to it before thread 1 has entered `run()`
(an accept processed while the sub-poll's thread is still starting): thread 0 executes it. -/
theorem not_confined_before_run :
    ∃ s, (machine 1).Reach (init 0 : St ℕ ℕ) s ∧ s.ran = [(7, 0)] ∧ ¬ Confined 1 s := by
  refine ⟨_, .of_exec [.call (.runInPoll 0 7)] rfl, rfl, fun h => ?_⟩
  exact absurd (h.2 (7, 0) (by simp)) (by decide)

end Poll

end CxpNet
