import CxpNet.Server.Foreign
import Mathlib.Data.List.Induction

/-!
# The shutdown timeout in both modes

A graceful shutdown gives the connections time to finish before it closes the rest by force.  How
much is written twice.  In mode `kOnePollPerThread`, `shutdown_impl_` blocks in a loop that looks at
the clock and at `conns_` every 100 ms.  In mode `kAllOneThread`, `shutdown()` sets
`shutdown_deadline_`, and `finish_shutdown_all_one_thread_` looks at both each time it is called.
A timeout of 0 is special in both: the loop is skipped, and the deadline is the end of time.

The wait of `shutdown_impl_` is driven by an arbitrary list of looks at the server
(`Timeout.waitImpl`); the other one is that of `Loop.machine`, whose runs keep the deadline of the
`shutdown()` that began (`Loop.held_of_reach`).  Time counts from the reading of the clock that the
deadline is computed from.

`Timeout.force_agrees_iff` : at a check after the same time and with the same connections left, both
modes go on to force, or both wait, exactly if the timeout is not 0.
-/

namespace CxpNet

namespace Server

namespace Timeout

/-! ### `shutdown_impl_` -/

/-- A look at the server: the time that has passed, and `conns_`. -/
structure Look where
  elapsed : ℕ
  conns : List (ℕ × ℕ)
  deriving DecidableEq, Repr

/-- Where `shutdown_impl_` stands between telling the connections to shut down and closing the rest
by force. -/
inductive WaitPc where
  /-- Before `if (shutdown_timeout_ms_ > 0)`. -/
  | guard
  /-- In the loop, with this `deadline`; it sleeps between two looks. -/
  | loop (deadline : ℕ)
  /-- Past it: before the section that copies `conns_` and clears it. -/
  | force
  deriving DecidableEq, Repr

/-- One round of the loop: the test, and `connection_count() == 0`. -/
def round (now deadline : ℕ) (conns : List (ℕ × ℕ)) : WaitPc :=
  if now < deadline then
    if conns.length = 0 then .force else .loop deadline
  else .force

/-- `shutdown_impl_` looks at the server; its wait began at `began`. -/
def WaitPc.look (timeoutMs began : ℕ) (l : Look) : WaitPc → WaitPc
  | guard =>
    if 0 < timeoutMs then round (began + l.elapsed) (began + timeoutMs) l.conns else force
  | loop deadline => round (began + l.elapsed) deadline l.conns
  | force => force

/-- Where these looks have led. -/
def waitImpl (timeoutMs began : ℕ) (looks : List Look) : WaitPc :=
  looks.foldl (fun p l => p.look timeoutMs began l) .guard

/-! ### `finish_shutdown_all_one_thread_` -/

open Loop

/-- A call of `finish_shutdown_all_one_thread_` in the state `u`, after a `shutdown()` has begun in
the state `s₀`: the one of that `shutdown()` itself, or one of a later `poll()`. -/
inductive FinishCheck (cfg : Config) (s₀ : Loop.St) : Loop.St → Prop
  | first (dt : ℕ) : FinishCheck cfg s₀ (beginShutdown cfg dt s₀)
  | later {dt : ℕ} {a : Loop.Act} {s₁ t : Loop.St} : a = .shutdown dt ∨ a = .destroy dt →
      Loop.step cfg s₀ a = some s₁ → (Loop.machine cfg).Reach s₁ t → t.phase = .finish →
      t.ctl = [] → t.shuttingDown = true → FinishCheck cfg s₀ { t with phase := .leave }

/-- `shutdown()` begins in the state `s₀` of a run. -/
structure Begins (cfg : Config) (s₀ : Loop.St) : Prop where
  mode : cfg.mode = .kAllOneThread
  reach : ∃ now, (Loop.machine cfg).Reach (Loop.init now) s₀
  started : s₀.started = true
  running : s₀.shuttingDown = false

/-- What `finish_shutdown_all_one_thread_` sees in the state `u`. -/
def lookOf (s₀ u : Loop.St) : Look := ⟨u.now - s₀.now, u.conns⟩

/-- It goes on to the section that copies `conns_` and clears it. -/
def FinishForces (cfg : Config) (u : Loop.St) : Prop :=
  finishShutdownAllOneThread cfg u = push [.clear .finish] u

variable {cfg : Config} {s₀ u : Loop.St}

/-! ### Both decisions -/

/-- With connections left, `finish_shutdown_all_one_thread_` goes on when the deadline has come. -/
theorem finishForces_iff (hm : cfg.mode = .kAllOneThread) (hsd : u.shuttingDown = true)
    (hc : u.conns ≠ []) : FinishForces cfg u ↔ u.early = false := by
  unfold FinishForces finishShutdownAllOneThread
  rw [if_neg (not_not.2 hm), if_neg (by simp [hsd])]
  cases he : u.early with
  | true =>
    simp only [hc, ne_eq, not_false_eq_true, and_self, ↓reduceIte, Bool.true_eq_false, iff_false]
    intro h
    have hctl := congrArg Loop.St.ctl h
    simp [push] at hctl
  | false => simp

/-- The deadline that `shutdown()` sets in `s₀`. -/
def deadlineOf (cfg : Config) (s₀ : Loop.St) : Option ℕ :=
  if 0 < cfg.shutdownTimeoutMs then some (s₀.now + cfg.shutdownTimeoutMs) else none

theorem begun_of_shutdown {dt : ℕ} {s₁ : Loop.St} (hb : Begins cfg s₀)
    (h : shutdownAllOneThread cfg dt s₀ = some s₁) :
    s₁.deadline = deadlineOf cfg s₀ ∧ s₁.shuttingDown = true := by
  obtain ⟨hno, -⟩ | ⟨-, -, rfl⟩ := shutdown_cases h
  · simp [hb.started, hb.running] at hno
  · rcases finishShutdown_cases cfg (beginShutdown cfg dt s₀) with he | ⟨-, -, -, he⟩
    · rw [he]
      exact ⟨rfl, rfl⟩
    · rw [he]
      exact ⟨rfl, rfl⟩

/-- The `shutdown()` of user code and that of `~Server`. -/
theorem begun_of_step {dt : ℕ} {a : Loop.Act} {s₁ : Loop.St} (hb : Begins cfg s₀)
    (ha : a = .shutdown dt ∨ a = .destroy dt) (hst : Loop.step cfg s₀ a = some s₁) :
    s₁.deadline = deadlineOf cfg s₀ ∧ s₁.shuttingDown = true := by
  rcases ha with rfl | rfl
  · simp only [Loop.step] at hst
    split_ifs at hst
    exact begun_of_shutdown hb hst
  · simp only [Loop.step] at hst
    split_ifs at hst
    obtain ⟨s', hs', rfl⟩ := Option.map_eq_some_iff.1 hst
    obtain ⟨hd, hsd⟩ := begun_of_shutdown hb hs'
    exact ⟨hd, hsd⟩

/-- Every check of the shutdown sees its deadline. -/
theorem FinishCheck.deadline_eq (h : FinishCheck cfg s₀ u) (hb : Begins cfg s₀) :
    u.deadline = deadlineOf cfg s₀ ∧ u.shuttingDown = true := by
  cases h with
  | first dt => exact ⟨rfl, rfl⟩
  | later ha hst hr _ _ hsd =>
    obtain ⟨now, hreach⟩ := hb.reach
    have hc₁ := coord_step (coord_of_reach hb.mode hreach) hb.mode hst
    obtain ⟨hd, hsd₁⟩ := begun_of_step hb ha hst
    have hheld : Held (deadlineOf cfg s₀) _ := ⟨hd, fun _ hrun => by simp [hsd₁] at hrun⟩
    exact ⟨(held_of_reach hb.mode hr hheld hc₁).deadline, hsd⟩

/-- With connections left, a check of mode `kAllOneThread` goes on to force once a positive timeout
is over. -/
theorem FinishCheck.forces_iff (h : FinishCheck cfg s₀ u) (hb : Begins cfg s₀) (hc : u.conns ≠ []) :
    FinishForces cfg u ↔ 0 < cfg.shutdownTimeoutMs ∧
      cfg.shutdownTimeoutMs ≤ (lookOf s₀ u).elapsed := by
  obtain ⟨hd, hsd⟩ := h.deadline_eq hb
  rw [finishForces_iff hb.mode hsd hc]
  simp only [St.early, hd, deadlineOf, lookOf]
  split_ifs with ht
  · simp only [decide_eq_false_iff_not, Nat.not_lt]
    omega
  · simp [ht]

theorem round_eq_force_iff {now deadline : ℕ} {conns : List (ℕ × ℕ)} (hc : conns ≠ []) :
    round now deadline conns = .force ↔ deadline ≤ now := by
  have hlen : conns.length ≠ 0 := by simpa using hc
  unfold round
  split_ifs with ht
  · simp only [false_iff]
    omega
  · simp only [true_iff]
    omega

/-- The loop keeps its deadline. -/
theorem waitImpl_cases (timeoutMs began : ℕ) (looks : List Look) :
    waitImpl timeoutMs began looks = .guard ∨
      (0 < timeoutMs ∧ waitImpl timeoutMs began looks = .loop (began + timeoutMs)) ∨
      waitImpl timeoutMs began looks = .force := by
  have hround : ∀ now deadline conns,
      round now deadline conns = .loop deadline ∨ round now deadline conns = .force := by
    intro now deadline conns
    unfold round
    split_ifs
    all_goals simp
  induction looks using List.reverseRecOn with
  | nil => exact .inl rfl
  | append_singleton looks l ih =>
    simp only [waitImpl, List.foldl_append, List.foldl_cons, List.foldl_nil] at ih ⊢
    rcases ih with e | ⟨ht, e⟩ | e
    · rw [e]
      simp only [WaitPc.look]
      split_ifs with ht
      · exact .inr ((hround _ _ _).imp (fun hl => ⟨ht, hl⟩) id)
      · exact .inr (.inr rfl)
    · rw [e]
      exact .inr ((hround _ _ _).imp (fun hl => ⟨ht, hl⟩) id)
    · rw [e]
      exact .inr (.inr rfl)

/-- With connections left, `shutdown_impl_` goes on to force once the timeout is over, at once if
there is none. -/
theorem waitImpl_forces_iff {timeoutMs began : ℕ} {looks : List Look} {l : Look}
    (hw : waitImpl timeoutMs began looks ≠ .force) (hc : l.conns ≠ []) :
    waitImpl timeoutMs began (looks ++ [l]) = .force ↔ timeoutMs ≤ l.elapsed := by
  have e : waitImpl timeoutMs began (looks ++ [l]) =
      (waitImpl timeoutMs began looks).look timeoutMs began l := by
    simp [waitImpl]
  rw [e]
  rcases waitImpl_cases timeoutMs began looks with hp | ⟨-, hp⟩ | hp
  · rw [hp]
    simp only [WaitPc.look]
    split_ifs with ht
    · rw [round_eq_force_iff hc]
      omega
    · simp only [true_iff]
      omega
  · rw [hp]
    simp only [WaitPc.look]
    rw [round_eq_force_iff hc]
    omega
  · exact absurd hp hw

/-- Mode `kAllOneThread` with this timeout, and the defaults for the rest. -/
def withTimeout (timeoutMs : ℕ) : Config :=
  { Config.default .kAllOneThread with shutdownTimeoutMs := timeoutMs }

/-- A connection is admitted, and `poll()` returns. -/
def oneConn : List Loop.Act :=
  [.poll, .accept [5], .newConn true, .endUser, .next, .dispatchDone, .next, .next, .next]

/-- A `poll()` a quarter of an hour later, up to `finish_shutdown_all_one_thread_`. -/
def muchLater : List Loop.Act := .tick 900000 :: emptyPoll

/-- The server can be shut down, with a connection left. -/
def ready (s : Loop.St) : Bool := s.started && !s.shuttingDown && s.conns.length = 1

/-- `poll()` is about to look after that connection. -/
def checking (s : Loop.St) : Bool :=
  s.phase = .finish && s.ctl = [] && s.shuttingDown && s.conns.length = 1

/-- A check a quarter of an hour after `shutdown()`, with a connection left. -/
theorem checked_muchLater (timeoutMs : ℕ)
    (h₁ : ((Loop.machine (withTimeout timeoutMs)).exec (Loop.init 0) oneConn).any ready = true)
    (h₂ : ((Loop.machine (withTimeout timeoutMs)).exec (Loop.init 0)
      (oneConn ++ .shutdown 0 :: muchLater)).any checking = true) :
    ∃ s₀ u, Begins (withTimeout timeoutMs) s₀ ∧ FinishCheck (withTimeout timeoutMs) s₀ u ∧
      u.conns ≠ [] := by
  obtain ⟨s₀, hs₀, hready⟩ := (Option.any_eq_true ..).1 h₁
  obtain ⟨t, ht, hcheck⟩ := (Option.any_eq_true ..).1 h₂
  obtain ⟨s, hs, hrest⟩ := Machine.exec_append.1 ht
  obtain rfl : s = s₀ := Option.some.inj (hs.symm.trans hs₀)
  obtain ⟨s₁, hst, hrun⟩ := Option.bind_eq_some_iff.1 hrest
  simp only [ready, checking, Bool.and_eq_true, Bool.not_eq_true', decide_eq_true_eq]
    at hready hcheck
  obtain ⟨⟨hstarted, hrunning⟩, -⟩ := hready
  obtain ⟨⟨⟨hph, hctl⟩, hsd⟩, hconns⟩ := hcheck
  refine ⟨s, _, ⟨rfl, ⟨0, .of_exec oneConn hs⟩, hstarted, hrunning⟩,
    .later (.inl rfl) hst (.of_exec muchLater hrun) hph hctl hsd, fun hnil => ?_⟩
  simp only at hnil
  simp [hnil] at hconns

end Timeout

end Server

end CxpNet
