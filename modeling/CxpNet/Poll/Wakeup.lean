import CxpNet.Poll.Basic
import Mathlib.Order.Basic
import Mathlib.Tactic.SplitIfs

/-!
# The wakeup descriptor

A sleeping event loop is woken through a descriptor of its own: an eventfd that is registered
edge-triggered with `epoll`, or on macOS a pipe that is registered level-triggered with `kqueue`
(`wakeup_write` and `wakeup_read` of the two `platform_api` files).  The eventfd is emptied by one
`read`; the pipe is emptied in pieces of 256 bytes, while other threads go on writing.

`Wakeup.Signal` is what the two have in common.  The history of a run counts the writes, and
remembers how many there were when `wakeup_read` returned last.

* `Wakeup.report_iff` : between two executions of `handle_wakeup_` the descriptor is reported iff
  there was a write since the last one returned, for both implementations;
* `Wakeup.reads_le` : the loop of `wakeup_read` on a pipe reads at most as often as was written;
* `Wakeup.poll_report_iff` : the same of the event loop of `Poll.machine`.
-/

namespace CxpNet

namespace Wakeup

/-! ### Signals -/

/-- A descriptor to write to and to wait for, with states `σ`. -/
structure Signal (σ : Type) where
  init : σ
  /-- `wakeup_write` -/
  write : σ → σ
  /-- The poller can report the descriptor. -/
  readable : σ → Bool
  /-- The poller reports it. -/
  report : σ → σ
  /-- One `read` in `wakeup_read`, and whether the function then returns. -/
  read : σ → σ × Bool

/-- A signal, and whether the loop's thread is in `handle_wakeup_`. -/
structure St (σ : Type) where
  signal : σ
  awake : Bool
  deriving DecidableEq, Repr

inductive Act where
  /-- Some thread calls `wakeup_write`. -/
  | write
  /-- The poll returns and reports the descriptor. -/
  | report
  /-- The loop's thread calls `read`. -/
  | read
  deriving DecidableEq, Repr

variable {σ : Type}

def step (S : Signal σ) (s : St σ) : Act → Option (St σ)
  | .write => some { s with signal := S.write s.signal }
  | .report =>
    if s.awake = false ∧ S.readable s.signal then some ⟨S.report s.signal, true⟩ else none
  | .read => if s.awake then some ⟨(S.read s.signal).1, !(S.read s.signal).2⟩ else none

/-- The threads around a signal. -/
def machine (S : Signal σ) : Machine (St σ) Act := ⟨step S⟩

/-- The history of a run. -/
structure Rings where
  /-- The calls of `wakeup_write`. -/
  rung : ℕ
  /-- Those before the last return of `wakeup_read`. -/
  answered : ℕ
  /-- The calls of `read` that did not end `wakeup_read`. -/
  again : ℕ
  deriving DecidableEq, Repr

/-- What an action adds to the history. -/
def Rings.next (r : Rings) (_ : St σ) (a : Act) (s' : St σ) : Rings :=
  match a with
  | .write => { r with rung := r.rung + 1 }
  | .report => r
  | .read => if s'.awake then { r with again := r.again + 1 } else { r with answered := r.rung }

/-- A signal at the start of the event loop. -/
def St.start (S : Signal σ) : St σ := ⟨S.init, false⟩

def Rings.none : Rings := ⟨0, 0, 0⟩

/-- The runs of a signal with their history. -/
def Rung (S : Signal σ) (s : St σ) (r : Rings) : Prop :=
  ((machine S).history Rings.next).Reach (.start S, .none) (s, r)

/-! ### What is asked of a signal -/

/-- **A signal does its job**, with `pending` for "something was written that `wakeup_read` has not
taken out": it is reported as long as something is pending, and `wakeup_read` returns only when
nothing is. -/
structure Lawful (S : Signal σ) (pending : σ → Prop) (Inv : Bool → σ → Prop) : Prop where
  init : Inv false S.init ∧ ¬ pending S.init
  write : ∀ b x, Inv b x → Inv b (S.write x) ∧ pending (S.write x)
  report : ∀ x, Inv false x → Inv true (S.report x)
  read : ∀ x, Inv true x →
    Inv (!(S.read x).2) (S.read x).1 ∧ ((S.read x).2 = true → ¬ pending (S.read x).1)
  readable : ∀ x, Inv false x → (S.readable x = true ↔ pending x)

/-- What one step does, with its history. -/
theorem rung_cases {S : Signal σ} {s s' : St σ} {r r' : Rings} {a : Act}
    (h : ((machine S).history Rings.next).step (s, r) a = some (s', r')) :
    (s' = { s with signal := S.write s.signal } ∧ r' = { r with rung := r.rung + 1 }) ∨
    (s.awake = false ∧ s' = ⟨S.report s.signal, true⟩ ∧ r' = r) ∨
    (s.awake = true ∧ (S.read s.signal).2 = true ∧ s' = ⟨(S.read s.signal).1, false⟩ ∧
      r' = { r with answered := r.rung }) ∨
    (s.awake = true ∧ (S.read s.signal).2 = false ∧ s' = ⟨(S.read s.signal).1, true⟩ ∧
      r' = { r with again := r.again + 1 }) := by
  obtain ⟨hst, hr⟩ := Machine.history_step h
  change step S s a = some s' at hst
  dsimp only at hr
  subst hr
  cases a with
  | write =>
    cases hst
    exact .inl ⟨rfl, rfl⟩
  | report =>
    simp only [step] at hst
    split_ifs at hst with hrep
    cases hst
    exact .inr (.inl ⟨hrep.1, rfl, rfl⟩)
  | read =>
    simp only [step] at hst
    split_ifs at hst with hawake
    cases hst
    cases hret : (S.read s.signal).2 with
    | true => exact .inr (.inr (.inl ⟨hawake, rfl, by simp, by simp [Rings.next]⟩))
    | false => exact .inr (.inr (.inr ⟨hawake, rfl, by simp, by simp [Rings.next]⟩))

/-- A run of a lawful signal. -/
structure Answers (pending : σ → Prop) (Inv : Bool → σ → Prop) (s : St σ) (r : Rings) : Prop where
  inv : Inv s.awake s.signal
  le : r.answered ≤ r.rung
  pending_iff : s.awake = false → (pending s.signal ↔ r.answered < r.rung)

theorem Lawful.answers {S : Signal σ} {pending : σ → Prop} {Inv : Bool → σ → Prop}
    (hS : Lawful S pending Inv) {s : St σ} {r : Rings} (h : Rung S s r) :
    Answers pending Inv s r := by
  refine h.invariant (I := fun x => Answers pending Inv x.1 x.2)
    ⟨hS.init.1, Nat.le_refl _, fun _ => by simp [St.start, Rings.none, hS.init.2]⟩ ?_
  rintro ⟨s, r⟩ a ⟨s', r'⟩ ⟨hinv, hle, hiff⟩ - hst
  rcases rung_cases hst with ⟨rfl, rfl⟩ | ⟨hidle, rfl, rfl⟩ | ⟨hawake, hret, rfl, rfl⟩ |
    ⟨hawake, hret, rfl, rfl⟩
  · obtain ⟨hinv, hpending⟩ := hS.write _ _ hinv
    exact ⟨hinv, Nat.le_succ_of_le hle, fun _ => iff_of_true hpending (Nat.lt_succ_of_le hle)⟩
  · exact ⟨hS.report _ (hidle ▸ hinv), hle, nofun⟩
  · obtain ⟨hinv, hdone⟩ := hS.read _ (hawake ▸ hinv)
    rw [hret] at hinv
    exact ⟨hinv, Nat.le_refl _, fun _ => iff_of_false (hdone hret) (Nat.lt_irrefl _)⟩
  · obtain ⟨hinv, -⟩ := hS.read _ (hawake ▸ hinv)
    rw [hret] at hinv
    exact ⟨hinv, hle, nofun⟩

/-! ### The eventfd -/

/-- The counter of an eventfd, and whether it is on the ready list of `epoll`. -/
abbrev Eventfd := ℕ × Bool

/-- An eventfd that is registered with `EPOLLET`.  A `write` to a full counter and a `read` of an
empty one fail with `EAGAIN`, which is ignored. -/
def eventfd : Signal Eventfd where
  init := (0, false)
  write x := if x.1 = Poll.eventfdMax then x else (x.1 + 1, true)
  readable x := x.2 && 0 < x.1
  report x := (x.1, false)
  read x := ((0, x.2), true)

/-- Between two executions of the handler a counter that is not zero is on the ready list. -/
theorem eventfd_lawful :
    Lawful eventfd (fun x => 0 < x.1) fun awake x => awake = false → 0 < x.1 → x.2 = true := by
  refine ⟨by simp [eventfd], fun b x hx => ?_, fun x _ => nofun, fun x _ => ?_, fun x hx => ?_⟩
  · by_cases hfull : x.1 = Poll.eventfdMax
    · have hpos : 0 < x.1 := by rw [hfull, Poll.eventfdMax]; omega
      simp only [eventfd, if_pos hfull]
      exact ⟨hx, hpos⟩
    · simp [eventfd, if_neg hfull]
  · simp [eventfd]
  · simp only [eventfd, Bool.and_eq_true, decide_eq_true_eq]
    exact ⟨fun h => h.2, fun h => ⟨hx rfl h, h⟩⟩

/-! ### The pipe -/

/-- The bytes in a pipe with room for `capacity`, registered with `EVFILT_READ`.  A `write` to a
full pipe fails with `EAGAIN`; so does a `read` of an empty one, which ends the loop of
`wakeup_read`. -/
def pipe (capacity : ℕ) : Signal ℕ where
  init := 0
  write n := if n = capacity then n else n + 1
  readable n := 0 < n
  report n := n
  read n := if n = 0 then (0, true) else (n - min 256 n, false)

theorem pipe_lawful {capacity : ℕ} (hc : 0 < capacity) :
    Lawful (pipe capacity) (fun n => 0 < n) fun _ _ => True := by
  refine ⟨by simp [pipe], fun _ n _ => ⟨trivial, ?_⟩, fun _ _ => trivial,
    fun n _ => ⟨trivial, ?_⟩, fun n _ => by simp [pipe]⟩
  · simp only [pipe]
    split_ifs <;> omega
  · simp only [pipe]
    split_ifs <;> simp

/-- **The descriptor is reported as it should be.**  Whatever the interleaving of the threads that
write with the loop's thread: while this thread is not in `handle_wakeup_`, the poller can report
the descriptor if and only if there was a write since `wakeup_read` returned last.  This is so of
the edge-triggered eventfd, whose counter may be full, and of the pipe, which may be full, and which
is written to while it is being emptied. -/
theorem report_iff {capacity : ℕ} (hc : 0 < capacity) :
    (∀ s r, Rung eventfd s r → s.awake = false →
      (((machine eventfd).step s .report).isSome ↔ r.answered < r.rung)) ∧
    ∀ s r, Rung (pipe capacity) s r → s.awake = false →
      (((machine (pipe capacity)).step s .report).isSome ↔ r.answered < r.rung) := by
  have hgen : ∀ {σ : Type} {S : Signal σ} {pending Inv}, Lawful S pending Inv → ∀ s r, Rung S s r →
      s.awake = false → (((machine S).step s .report).isSome ↔ r.answered < r.rung) := by
    intro σ S pending Inv hS s r h hawake
    obtain ⟨hinv, -, hpending⟩ := hS.answers h
    rw [← hpending hawake, ← hS.readable _ (hawake ▸ hinv)]
    simp [machine, step, hawake]
  exact ⟨hgen eventfd_lawful, hgen (pipe_lawful hc)⟩

/-- A thread writes while the pipe is being emptied, and a second time after that. -/
theorem report_iff_again : ∃ s r, Rung (pipe 4096) s r ∧ s.awake = false ∧
    (((machine (pipe 4096)).step s .report).isSome ↔ r.answered < r.rung) ∧ r = ⟨3, 2, 1⟩ := by
  obtain ⟨x, hx⟩ : ∃ x, ((machine (pipe 4096)).history Rings.next).exec (.start (pipe 4096), .none)
    [.write, .report, .write, .read, .read, .write] = some x := ⟨_, rfl⟩
  have hrung := Machine.Reach.of_exec _ hx
  cases hx
  exact ⟨_, _, hrung, rfl, (report_iff (by decide)).2 _ _ hrung rfl, rfl⟩

/-- **The loop of `wakeup_read` on a pipe** reads at most as often as was written: it ends, unless
it is written to for ever. -/
theorem reads_le {capacity : ℕ} {s : St ℕ} {r : Rings} (h : Rung (pipe capacity) s r) :
    r.again + s.signal ≤ r.rung := by
  refine h.invariant (I := fun x => x.2.again + x.1.signal ≤ x.2.rung) (Nat.le_refl _) ?_
  rintro ⟨s, r⟩ a ⟨s', r'⟩ hle - hst
  dsimp only at hle ⊢
  rcases rung_cases hst with ⟨rfl, rfl⟩ | ⟨-, rfl, rfl⟩ | ⟨-, hret, rfl, rfl⟩ | ⟨-, hret, rfl, rfl⟩
  · simp only [pipe]
    split_ifs <;> omega
  · exact hle
  · simp only [pipe] at hret ⊢
    split_ifs at hret ⊢ with h0
    omega
  · simp only [pipe] at hret ⊢
    split_ifs at hret ⊢
    omega

/-! ### The event loop -/

section

variable {T τ : Type} [DecidableEq T] {R : T}

/-- The signal of an event loop. -/
def ofPoll (s : Poll.St T τ) : St Eventfd := ⟨(s.counter, s.edge), s.pc = .dispatch true⟩

/-- What a step of the loop or of a caller is to the signal. -/
def ofAct : Poll.Act T τ → Option Act
  | .call (.notify _) | .call (.shutdownNotify _) => some .write
  | .loop (.pollReturn true) => some .report
  | .loop .wakeupRead => some .read
  | _ => none

/-- The history of the signal, in a run of the event loop. -/
def pollRings (r : Rings) (s : Poll.St T τ) (a : Poll.Act T τ) (s' : Poll.St T τ) : Rings :=
  match ofAct a with
  | none => r
  | some b => r.next (ofPoll s) b (ofPoll s')

omit [DecidableEq T] in
theorem ofPoll_write (s : Poll.St T τ) : ofPoll (Poll.wakeupWrite s) =
    { ofPoll s with signal := eventfd.write (ofPoll s).signal } := by
  unfold Poll.wakeupWrite ofPoll eventfd
  dsimp only
  split_ifs <;> rfl

/-- **The event loop contains the signal**: its steps are steps of the signal or leave it alone. -/
theorem step_ofPoll {s s' : Poll.St T τ} {a : Poll.Act T τ} (h : Poll.step R s a = some s') :
    match ofAct a with
    | none => ofPoll s' = ofPoll s
    | some b => step eventfd (ofPoll s) b = some (ofPoll s') := by
  cases a with
  | loop a =>
    simp only [Poll.step] at h
    split_ifs at h
    cases a with
    | pollReturn wake =>
      cases wake <;> simp only [Poll.loopStep] at h <;> split_ifs at h with hpc <;> cases h
      · simp [ofAct, ofPoll, hpc]
      · obtain ⟨hpc, hedge, hcounter⟩ := hpc
        simp [ofAct, ofPoll, step, eventfd, hpc, hedge, hcounter]
    | wakeupRead =>
      simp only [Poll.loopStep] at h
      split_ifs at h with hpc
      cases h
      simp [ofAct, ofPoll, step, eventfd, hpc]
    | runStart | dispatchDone =>
      simp only [Poll.loopStep] at h
      split_ifs at h with hpc
      cases h
      simp [ofAct, ofPoll, hpc]
    | loadShut =>
      simp only [Poll.loopStep] at h
      split_ifs at h with hpc <;> cases h <;> simp [ofAct, ofPoll, hpc]
    | swapTasks =>
      simp only [Poll.loopStep] at h
      split_ifs at h with hpc
      cases h
      simp [ofAct, ofPoll, hpc.1]
    | drainTasks =>
      simp only [Poll.loopStep] at h
      split_ifs at h with hpc <;> cases h <;> simp [ofAct, ofPoll, hpc.1]
    | runTask =>
      simp only [Poll.loopStep] at h
      split_ifs at h with hpc
      split at h <;> cases h <;> simp [ofAct, ofPoll, hpc]
  | call a =>
    cases a with
    | notify t | shutdownNotify t =>
      simp only [Poll.step, Poll.callStep] at h
      split_ifs at h
      cases h
      simp only [ofAct, step, ofPoll_write]
      rfl
    | runInPoll t f | runLater t f | shutdownLoad t | shutdownStore t =>
      simp only [Poll.step, Poll.callStep] at h
      split_ifs at h <;> cases h <;> rfl

/-- **The event loop wakes up when it should.**  In every run of the loop and its callers: while the
loop's thread is not in `handle_wakeup_`, `epoll_wait` can report the wakeup descriptor if and only
if a `notify_wakeup_` has come after the last return of `wakeup_read`. -/
theorem poll_report_iff {creator : T} {s : Poll.St T τ} {r : Rings}
    (h : ((Poll.machine R).history pollRings).Reach (Poll.init creator, Rings.none) (s, r))
    (hawake : s.pc ≠ .dispatch true) : (s.edge = true ∧ 0 < s.counter) ↔ r.answered < r.rung := by
  have hrung : Rung eventfd (ofPoll s) r := by
    refine h.project (f := fun x => (ofPoll x.1, x.2)) fun x a x' _ hst => ?_
    obtain ⟨hst, hr⟩ := Machine.history_step hst
    have hof := step_ofPoll hst
    unfold pollRings at hr
    split at hof
    · rename_i hnone
      rw [hnone] at hr
      exact .inl (by rw [hof, hr])
    · rename_i b hsome
      rw [hsome] at hr
      refine .inr ⟨b, trivial, ?_⟩
      simp [Machine.history, machine, hof, hr]
  have hidle : (ofPoll s).awake = false := by simp [ofPoll, hawake]
  obtain ⟨hinv, -, hiff⟩ := eventfd_lawful.answers hrung
  rw [← hiff hidle, ← eventfd_lawful.readable _ (hidle ▸ hinv)]
  simp [eventfd, ofPoll]

end

end Wakeup

end CxpNet
