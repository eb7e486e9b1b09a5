import CxpNet.Server.Loop
import Mathlib.Data.List.Count

/-!
# Stops from other threads

A server in mode `kAllOneThread` whose `close()` or `shutdown()` is called on another thread than
the poll thread.

`close()` clears `started_` and then queues closures that only `Server::poll` executes; but
`poll()` returns at its gate unless `started_` or `shutting_down_` is true.  `shutdown()` is
rejected on another thread, but only after it has set `shutting_down_`.

* `Loop.closer_served_iff` : which calls of `poll()` execute the closure that `close()` waits for;
* `Loop.closer_not_served` : a `close()` that waits forever;
* `Loop.rejected_shutdown` : what a rejected `shutdown()` leaves behind, in every state;
* `Loop.rejected_shutdown_forces_close` : the next `poll()` closes every connection by force.

`Coord` ties the flags to what the threads are doing: `U` has exactly one closure outstanding while
it waits and none otherwise, and the deadline is the epoch until the first stop.
-/

namespace CxpNet

namespace Server

namespace Loop

/-! ### What `U` has queued -/

/-- The closure was queued by `U`, which waits for it. -/
def Task.ofU : Task → Bool
  | acceptorShutdown | cleanupAndSet _ => true
  | release | send _ | cleanup _ => false

/-- The closures that the poll thread has taken and not yet executed. -/
def Phase.taken : Phase → List Task
  | tasks rest => rest
  | outside | dispatch | batch _ | finish | leave => []

/-- The closures of `U` that are still to be executed. -/
def St.owed (s : St) : List Task := (s.phase.taken ++ s.tasks).filter Task.ofU

/-- The closures of `U` that are being executed. -/
def St.setting (s : St) : ℕ := s.ctl.count .setValue

/-- `U` is in a `future.get()`. -/
def UPc.waiting : UPc → Bool
  | waitAcceptor _ | waitConn _ _ => true
  | _ => false

/-- What is outstanding when `U` stands at `p`. -/
def Owes (owed : List Task) (setting : ℕ) : UPc → Prop
  | .waitAcceptor _ => owed = [.acceptorShutdown] ∧ setting = 0
  | .waitConn i _ => (owed = [.cleanupAndSet i] ∧ setting = 0) ∨ (owed = [] ∧ setting = 1)
  | _ => owed = [] ∧ setting = 0

theorem Owes.of_cons {t : Task} {ts : List Task} {n : ℕ} {p : UPc} (h : Owes (t :: ts) n p) :
    ts = [] ∧ n = 0 ∧ ((t = .acceptorShutdown ∧ ∃ k, p = .waitAcceptor k) ∨
      ∃ i rest, t = .cleanupAndSet i ∧ p = .waitConn i rest) := by
  cases p with
  | waitAcceptor k =>
    obtain ⟨h1, h2⟩ := h
    cases h1
    exact ⟨rfl, h2, .inl ⟨rfl, k, rfl⟩⟩
  | waitConn i rest =>
    obtain ⟨h1, h2⟩ | ⟨h1, -⟩ := h
    · cases h1
      exact ⟨rfl, h2, .inr ⟨i, rest, rfl, rfl⟩⟩
    · cases h1
  | _ => cases h.1

theorem Owes.of_setting {ts : List Task} {n : ℕ} {p : UPc} (h : Owes ts (n + 1) p) :
    ts = [] ∧ n = 0 ∧ ∃ i rest, p = .waitConn i rest := by
  cases p with
  | waitConn i rest =>
    obtain ⟨-, h2⟩ | ⟨h1, h2⟩ := h
    · cases h2
    · exact ⟨h1, by omega, i, rest, rfl⟩
  | _ => cases h.2

/-- A frame of `close_impl_`. -/
def Frame.ofClose : Frame → Bool
  | clear .close | force .close _ | polls .close | store .close => true
  | _ => false

/-- How the flags, the closures of `U` and the stops on the poll thread fit together. -/
structure Coord (s : St) : Prop where
  stopped : s.u ≠ .idle → s.started = false
  owes : Owes s.owed s.setting s.u
  ofClose : s.started = true → s.ctl.any Frame.ofClose = false
  /-- Before the first stop the deadline is the epoch. -/
  deadline : s.started = true → s.shuttingDown = false →
    s.deadline = some 0 ∨ s.ctl.head? = some .storeStarted

variable {cfg : Config} {s s' : St} {a : Act}

@[simp] theorem setting_push (fs : List Frame) (s : St) :
    (push fs s).setting = fs.count .setValue + s.setting := by
  simp [push, St.setting]

@[simp] theorem owed_push (fs : List Frame) (s : St) : (push fs s).owed = s.owed := rfl

/-- `U` queues a closure when it has none outstanding. -/
theorem owed_enqueue {t : Task} {u : UPc} (h : s.owed = []) (ht : t.ofU = true) :
    { s with u := u, tasks := s.tasks ++ [t] }.owed = [t] := by
  rw [St.owed] at h ⊢
  rw [← List.append_assoc, List.filter_append, h]
  simp [ht]

namespace Coord

/-- Steps that change no flag and nothing that `U` waits for. -/
theorem congr (h : Coord s) (hst : s'.started = s.started) (hsd : s'.shuttingDown = s.shuttingDown)
    (hd : s'.deadline = s.deadline) (hu : s'.u = s.u) (howed : s'.owed = s.owed)
    (hset : s'.setting = s.setting) (hctl : ∀ f ∈ s'.ctl, f ∈ s.ctl ∨ f.ofClose = false)
    (hhead : s.ctl.head? = some .storeStarted → s'.ctl.head? = some .storeStarted) :
    Coord s' where
  stopped hne := by
    rw [hst]
    exact h.stopped (hu ▸ hne)
  owes := by
    rw [howed, hset, hu]
    exact h.owes
  ofClose hs := by
    have := h.ofClose (hst ▸ hs)
    simp only [List.any_eq_false] at this ⊢
    intro f hf
    rcases hctl f hf with hf | hf
    · exact this f hf
    · simp [hf]
  deadline h1 h2 := by
    rw [hd]
    exact (h.deadline (hst ▸ h1) (hsd ▸ h2)).imp_right hhead

/-- The stack is unchanged, and so is everything that matters. -/
theorem congr_ctl (h : Coord s) (hst : s'.started = s.started)
    (hsd : s'.shuttingDown = s.shuttingDown) (hd : s'.deadline = s.deadline) (hu : s'.u = s.u)
    (howed : s'.owed = s.owed) (hctl : s'.ctl = s.ctl) : Coord s' :=
  h.congr hst hsd hd hu howed (by rw [St.setting, hctl, St.setting])
    (fun f hf => .inl (hctl ▸ hf)) (by rw [hctl]; exact id)

/-- A call is made on the poll thread. -/
theorem pushCall {fs : List Frame} (h : Coord s) (hfs : fs.all (fun f => !f.ofClose) = true)
    (hset : fs.count .setValue = 0) (htop : s.ctl.head? ≠ some .storeStarted) :
    Coord (push fs s) :=
  h.congr rfl rfl rfl rfl rfl (by simp [hset]) (fun f hf => by
    rcases List.mem_append.1 hf with hf | hf
    · exact .inr (by simpa using List.all_eq_true.1 hfs f hf)
    · exact .inl hf) fun he => absurd he htop

/-- A call returns that is not part of a stop. -/
theorem pop {f : Frame} {fs : List Frame} (h : Coord s) (hctl : s.ctl = f :: fs)
    (hf : f ≠ .setValue) (hf' : f ≠ .storeStarted) : Coord { s with ctl := fs } :=
  h.congr rfl rfl rfl rfl rfl (by simp [St.setting, hctl, hf])
    (fun _ hg => .inl (hctl ▸ List.mem_cons_of_mem f hg))
    (fun he => by simp [hctl] at he; exact absurd he hf')

/-- A call goes on to its next part. -/
theorem swap {f g : Frame} {fs : List Frame} (h : Coord s) (hctl : s.ctl = f :: fs)
    (hf : f ≠ .setValue) (hf' : f ≠ .storeStarted) (hg : g ≠ .setValue)
    (hfg : f.ofClose = false → g.ofClose = false) : Coord { s with ctl := g :: fs } where
  stopped := h.stopped
  owes := by
    have howes := h.owes
    simpa [St.owed, St.setting, hctl, hf, hg] using howes
  ofClose hs := by
    have hany := h.ofClose hs
    rw [hctl] at hany
    simp only [List.any_cons, Bool.or_eq_false_iff] at hany ⊢
    exact ⟨hfg hany.1, hany.2⟩
  deadline h1 h2 := by
    rcases h.deadline h1 h2 with hd | hd
    · exact .inl hd
    · simp [hctl] at hd
      exact absurd hd hf'

theorem of_tearDown {i : ℕ} {p : Peer} (h : Coord s) : Coord (tearDown i p s) :=
  h.congr_ctl rfl rfl rfl rfl rfl rfl

theorem of_cleanup {i : ℕ} (h : Coord s) (hc : cleanup i s = some s')
    (htop : s.ctl.head? ≠ some .storeStarted) : Coord s' := by
  obtain ⟨rfl, -⟩ | ⟨p, fs, -, -, hfs, rfl⟩ := cleanup_cases hc
  · exact h
  · rcases hfs with rfl | rfl
    · exact h.of_tearDown.pushCall rfl rfl htop
    · exact h.of_tearDown.pushCall rfl rfl htop

theorem of_finish (h : Coord s) (htop : s.ctl.head? ≠ some .storeStarted) :
    Coord (finishShutdownAllOneThread cfg s) := by
  rcases finishShutdown_cases cfg s with he | ⟨-, -, -, he⟩
  · rwa [he]
  · rw [he]
    exact h.pushCall rfl rfl htop

theorem of_shutdown {dt : ℕ} (h : Coord s) (hs : shutdownAllOneThread cfg dt s = some s')
    (htop : s.ctl.head? ≠ some .storeStarted) : Coord s' := by
  obtain ⟨-, rfl⟩ | ⟨-, -, rfl⟩ := shutdown_cases hs
  · exact h
  · refine of_finish ⟨h.stopped, h.owes, h.ofClose, fun _ hsd => ?_⟩ htop
    cases hsd

theorem returns {d : Bool} (h : Coord s) : Coord (s.returns d) := by
  refine h.congr rfl rfl rfl rfl rfl (by simp [St.returns, St.setting]) (fun f hf => ?_)
    fun he => ?_
  · rcases List.mem_append.1 hf with hf | hf
    · exact .inl hf
    · rw [List.mem_singleton.1 hf]
      exact .inr rfl
  · simp [St.returns, he]

theorem of_close (h : Coord s) (hc : closeAllOneThread s = some s') : Coord s' := by
  obtain ⟨-, -, rfl⟩ | ⟨-, rfl⟩ := close_cases hc
  · exact h
  · refine ⟨fun _ => rfl, ?_, nofun, nofun⟩
    have hset : (beginClose s).setting = s.setting := by simp [beginClose, push, St.setting]
    rw [hset]
    exact h.owes

/-- The poll thread goes to a phase in which it has taken no closure. -/
theorem setPhase {ph : Phase} (h : Coord s) (hs : s.phase.taken = []) (hph : ph.taken = []) :
    Coord { s with phase := ph } :=
  h.congr_ctl rfl rfl rfl rfl (by simp [St.owed, hs, hph]) rfl

/-- The poll thread takes the closures. -/
theorem take (h : Coord s) (hs : s.phase.taken = []) :
    Coord { s with phase := .tasks s.tasks, tasks := [] } :=
  h.congr_ctl rfl rfl rfl rfl (by rw [St.owed, St.owed, hs]; simp [Phase.taken]) rfl

/-- A closure is queued for which nobody waits. -/
theorem enqueue {t : Task} (h : Coord s) (ht : t.ofU = false) :
    Coord { s with tasks := s.tasks ++ [t] } :=
  h.congr_ctl rfl rfl rfl rfl (by simp [St.owed, ht]) rfl

/-- The poll thread executes a closure that it has taken. -/
theorem of_runTask {t : Task} {rest : List Task} (h : Coord s) (hph : s.phase = .tasks (t :: rest))
    (hctl : s.ctl = []) (ht : runTask { s with phase := .tasks rest } t = some s') : Coord s' := by
  have htop : s.ctl.head? ≠ some .storeStarted := by simp [hctl]
  have hskip : t.ofU = false → Coord { s with phase := .tasks rest } := fun hu =>
    h.congr_ctl rfl rfl rfl rfl (by simp [St.owed, hph, Phase.taken, hu]) rfl
  have hmine : t.ofU = true → s.owed = t :: { s with phase := .tasks rest }.owed := fun hu => by
    simp [St.owed, hph, Phase.taken, hu]
  cases t with
  | release =>
    cases ht
    exact hskip rfl
  | send i =>
    cases ht
    exact (hskip rfl).pushCall rfl rfl htop
  | cleanup i => exact (hskip rfl).of_cleanup ht htop
  | acceptorShutdown =>
    cases ht
    have howes := h.owes
    rw [hmine rfl] at howes
    obtain ⟨h1, h2, ⟨-, k, hu⟩ | ⟨i, r, he, -⟩⟩ := howes.of_cons
    · -- it was the only closure outstanding: afterwards nothing is owed
      refine ⟨fun _ => h.stopped (by simp [hu]), ?_, h.ofClose, h.deadline⟩
      have hset : Owes [] 0 (s.u.acceptorSet) := by
        rw [hu]
        cases k <;> exact ⟨rfl, rfl⟩
      rw [← h1, ← h2] at hset
      exact hset
    · cases he
  | cleanupAndSet i =>
    refine of_cleanup ?_ ht nofun
    have howes := h.owes
    rw [hmine rfl] at howes
    obtain ⟨h1, h2, ⟨he, -⟩ | ⟨j, r, he, hu⟩⟩ := howes.of_cons
    · cases he
    · -- the closure goes from the queue to the stack; `U` waits until `set_value`
      refine ⟨h.stopped, ?_, fun hs => ?_, fun hs _ => ?_⟩
      · have hset : Owes [] 1 s.u := by
          rw [hu]
          exact .inr ⟨rfl, rfl⟩
        rw [setting_push, owed_push]
        change Owes _ (1 + s.setting) _
        rw [h1, h2]
        exact hset
      · rw [push, hctl]
        rfl
      · have hst : s.started = true := hs
        simp [h.stopped (by simp [hu])] at hst

theorem of_nextPhase (h : Coord s) (hctl : s.ctl = []) (hst : nextPhase cfg s = some s') :
    Coord s' := by
  have htop : s.ctl.head? ≠ some .storeStarted := by simp [hctl]
  unfold nextPhase at hst
  split at hst
  · rename_i hph
    cases hst
    exact h.setPhase (by simp [hph, Phase.taken]) rfl
  · rename_i hph
    cases hst
    exact h.setPhase (by simp [hph, Phase.taken]) rfl
  · rename_i hph
    exact h.of_runTask hph hctl hst
  · rename_i hph
    cases hst
    exact of_finish (h.setPhase (by simp [hph, Phase.taken]) rfl) htop
  · rename_i hph
    cases hst
    exact h.setPhase (by simp [hph, Phase.taken]) rfl
  all_goals cases hst

theorem of_nextFrame {f : Frame} {fs : List Frame} (h : Coord s) (hctl : s.ctl = f :: fs)
    (hst : nextFrame fs s f = some s') : Coord s' := by
  cases f with
  | user => cases hst
  | locked | handler i =>
    cases hst
    exact h.pop hctl nofun nofun
  | returning d =>
    cases hst
    exact (h.pop hctl nofun nofun).congr_ctl rfl rfl rfl rfl rfl rfl
  | closing =>
    cases hst
    exact (h.pop hctl nofun nofun).enqueue rfl
  | force k rest =>
    cases rest with
    | nil =>
      cases hst
      exact h.swap hctl nofun nofun nofun (by cases k <;> exact id)
    | cons i rest =>
      have h₁ : Coord { s with ctl := .force k rest :: fs } :=
        h.swap hctl nofun nofun nofun (by cases k <;> exact id)
      exact h₁.of_cleanup hst nofun
  | clear k =>
    cases hst
    have h₁ : Coord { s with ctl := .force k (s.conns.map (·.2)) :: fs } :=
      h.swap hctl nofun nofun nofun (by cases k <;> exact id)
    exact h₁.congr_ctl rfl rfl rfl rfl rfl rfl
  | polls k =>
    cases hst
    have h₁ : Coord { s with ctl := .store k :: fs } :=
      h.swap hctl nofun nofun nofun (by cases k <;> exact id)
    exact h₁.congr_ctl rfl rfl rfl rfl rfl rfl
  | store k =>
    cases k with
    | close =>
      cases hst
      have h₁ := h.pop hctl nofun nofun
      -- a call of `close_impl_` is on the stack only when `started_` is false
      have hst : s.started = false := by
        by_contra hs
        have := h.ofClose (by simpa using hs)
        simp [hctl, Frame.ofClose] at this
      exact ⟨h₁.stopped, h₁.owes, h₁.ofClose, fun hs => by simp [hst] at hs⟩
    | finish =>
      cases hst
      have h₁ : Coord { s with ctl := .storeStarted :: fs } :=
        h.swap hctl nofun nofun nofun (fun _ => rfl)
      exact ⟨h₁.stopped, h₁.owes, h₁.ofClose, fun _ _ => .inr rfl⟩
  | storeStarted =>
    cases hst
    refine ⟨fun _ => rfl, ?_, nofun, nofun⟩
    have howes := h.owes
    simpa [St.owed, St.setting, hctl] using howes
  | setValue =>
    cases hst
    have howes := h.owes
    rw [St.setting, hctl, List.count_cons_self] at howes
    obtain ⟨h1, h2, i, rest, hu⟩ := howes.of_setting
    refine ⟨fun _ => h.stopped (by simp [hu]), ?_, fun hs => ?_, fun hs _ => ?_⟩
    · have hset : Owes [] 0 s.u.connSet := by
        rw [hu]
        exact ⟨rfl, rfl⟩
      rw [← h1, ← h2] at hset
      exact hset
    · have hst : s.started = true := hs
      simp [h.stopped (by simp [hu])] at hst
    · have hst : s.started = true := hs
      simp [h.stopped (by simp [hu])] at hst

/-- `U` moves while the server is stopped. -/
theorem moveU (h : Coord s) (hu : s.u ≠ .idle) (hst : s'.started = s.started)
    (howes : Owes s'.owed s'.setting s'.u) : Coord s' where
  stopped _ := hst.trans (h.stopped hu)
  owes := howes
  ofClose hs := by simp [hst, h.stopped hu] at hs
  deadline hs := by simp [hst, h.stopped hu] at hs

theorem of_uStep (h : Coord s) (hm : cfg.mode = .kAllOneThread) (hst : uStep cfg s = some s') :
    Coord s' := by
  have hidle := (uStep_frame hst).1
  have howes := h.owes
  cases hu : s.u with
  | idle | waitAcceptor k | waitConn i rest | returned => simp [uStep, hu] at hst
  | graceful | clear k | polls | store =>
    -- `U` neither queues a closure nor waits for one
    simp only [uStep, hu, Option.some.injEq] at hst
    subst hst
    rw [hu] at howes
    exact h.moveU hidle rfl howes
  | acceptor k =>
    simp only [uStep, hu] at hst
    rw [hu] at howes
    split_ifs at hst
    · cases hst
      exact h.moveU hidle rfl (by cases k <;> exact howes)
    · cases hst
      exact h.moveU hidle rfl howes
  | post k =>
    simp only [uStep, hu, Option.some.injEq] at hst
    subst hst
    rw [hu] at howes
    exact h.moveU hidle rfl ⟨owed_enqueue howes.1 rfl, howes.2⟩
  | conns rest =>
    rw [hu] at howes
    cases rest with
    | nil =>
      simp only [uStep, hu, Option.some.injEq] at hst
      subst hst
      exact h.moveU hidle rfl howes
    | cons i rest =>
      simp only [uStep, hu, hm, if_true, Option.some.injEq] at hst
      subst hst
      exact h.moveU hidle rfl (.inl ⟨owed_enqueue howes.1 rfl, howes.2⟩)

end Coord

/-- User code runs on the poll thread only when no stop is in its last line. -/
theorem top_of_inUser (h : s.inUser = true) : s.ctl.head? ≠ some .storeStarted := by
  intro he
  cases hctl : s.ctl with
  | nil => simp [hctl] at he
  | cons f fs =>
    simp only [hctl, List.head?_cons, Option.some.injEq] at he
    simp [St.inUser, hctl, he] at h

theorem coord_step (h : Coord s) (hm : cfg.mode = .kAllOneThread)
    (hst : step cfg s a = some s') : Coord s' := by
  have hm' : cfg.mode ≠ .kOnePollPerThread := by simp [hm]
  cases step_cases hst with
  | poll hi he =>
    have htaken : s.phase.taken = [] := by rw [(idle_iff.1 hi).2.2]; rfl
    obtain rfl | rfl | rfl | rfl := he
    · exact h
    · exact h.setPhase htaken rfl
    · exact h.setPhase htaken rfl
    · exact h.take htaken
  | accept hctl hph hl hf =>
    exact h.congr_ctl rfl rfl rfl rfl (by simp [St.owed, hph, Phase.taken]) rfl
  | acceptError hctl hph hf =>
    refine Coord.pushCall (h.congr_ctl rfl rfl rfl rfl rfl rfl) ?_ ?_ (by simp [hctl])
    all_goals split <;> rfl
  | event hctl | callback hctl => exact h.pushCall rfl rfl (by simp [hctl])
  | dispatchDone hph => exact h.take (by simp [hph, Phase.taken])
  | refused hctl hph =>
    refine Coord.pushCall (h.setPhase (by simp [hph, Phase.taken]) rfl) ?_ ?_ (by simp [hctl])
    all_goals split <;> rfl
  | admitted hctl hph =>
    refine Coord.pushCall (h.congr_ctl rfl rfl rfl rfl (by simp [St.owed, hph, Phase.taken]) rfl)
      ?_ ?_ (by simp [hctl])
    all_goals split <;> rfl
  | dropped hctl hph => exact h.setPhase (by simp [hph, Phase.taken]) rfl
  | pollError hctl hph =>
    have h₁ : Coord { s with phase := .finish } := h.setPhase (by simp [hph, Phase.taken]) rfl
    exact h₁.pushCall rfl rfl (by simp [hctl])
  | fail hctl hc => exact h.of_cleanup hc (by simp [hctl])
  | endUser hctl => exact h.pop hctl nofun nofun
  | phase hctl hn => exact h.of_nextPhase hctl hn
  | frame hctl hn => exact h.of_nextFrame hctl hn
  | send hu => exact h.pushCall rfl rfl (top_of_inUser hu)
  | connClose hu hc => exact h.of_cleanup hc (top_of_inUser hu)
  | setOnClose hp => exact h.congr_ctl rfl rfl rfl rfl rfl rfl
  | close hm hu hc =>
    split
    · exact (h.of_close hc).returns
    · exact h.of_close hc
  | shutdown hu hs => exact h.of_shutdown hs (top_of_inUser hu)
  | destroy hi hs => exact (h.of_shutdown hs (by simp [(idle_iff.1 hi).2.1])).returns
  | postSend | postCleanup => exact h.enqueue rfl
  | tick | vShutdown | vIgnored => exact h.congr_ctl rfl rfl rfl rfl rfl rfl
  | uCloseStarted hu =>
    -- the thread has queued no closure yet
    have howes := h.owes
    rw [hu] at howes
    exact ⟨fun _ => rfl, howes, nofun, nofun⟩
  | uCloseStopping hu hs =>
    have howes := h.owes
    rw [hu] at howes
    exact ⟨fun _ => hs, howes, fun he => by simp [hs] at he, fun he => by simp [hs] at he⟩
  | uCloseStopped => exact h
  | uShutdown hmode => exact absurd hmode hm'
  | uShutdownStopped hmode => exact absurd hmode hm'
  | uNext hn => exact h.of_uStep hm hn
  | vThrows hs => exact ⟨h.stopped, h.owes, h.ofClose, nofun⟩
  | subCleanup hmode => exact absurd hmode hm'
  | subServe hmode => exact absurd hmode hm'

theorem coord_init (now : ℕ) : Coord (init now) :=
  ⟨fun h => absurd rfl h, ⟨rfl, rfl⟩, fun _ => rfl, fun _ _ => .inl rfl⟩

theorem coord_of_reach {now : ℕ} (hm : cfg.mode = .kAllOneThread)
    (h : (machine cfg).Reach (init now) s) : Coord s :=
  h.invariant (coord_init now) fun _ _ _ hc _ hst => coord_step hc hm hst

/-! ### What one `poll()` executes -/

/-- A closure of `U` will be executed by the `poll()` that is going on. -/
def St.due (s : St) : Bool :=
  match s.phase with
  | .dispatch | .batch _ => s.tasks.any Task.ofU
  | .tasks rest => rest.any Task.ofU
  | .outside | .finish | .leave => false

/-- More than `n` closures of `U` are executed by the end of this `poll()`. -/
structure Progress (n : ℕ) (s : St) : Prop where
  le : n ≤ s.served
  lt : n < s.served ∨ .setValue ∈ s.ctl ∨ s.due = true

namespace Progress

variable {n : ℕ}

theorem congr (h : Progress n s) (hs : s.served ≤ s'.served)
    (hc : .setValue ∈ s.ctl → .setValue ∈ s'.ctl) (hd : s.due = true → s'.due = true) :
    Progress n s' :=
  ⟨Nat.le_trans h.le hs, h.lt.imp (fun hn => Nat.lt_of_lt_of_le hn hs) (Or.imp hc hd)⟩

theorem pushCall {fs : List Frame} (h : Progress n s) : Progress n (push fs s) :=
  h.congr (Nat.le_refl _) (fun hm => List.mem_append_right fs hm) id

theorem of_cleanup {i : ℕ} (h : Progress n s) (hc : cleanup i s = some s') : Progress n s' := by
  obtain ⟨rfl, -⟩ | ⟨p, fs, -, -, -, rfl⟩ := cleanup_cases hc
  · exact h
  · exact pushCall (s := tearDown i p s) ⟨h.le, h.lt⟩

theorem of_finish (h : Progress n s) : Progress n (finishShutdownAllOneThread cfg s) := by
  rcases finishShutdown_cases cfg s with he | ⟨-, -, -, he⟩
  · rwa [he]
  · rw [he]
    exact h.pushCall

theorem of_shutdown {dt : ℕ} (h : Progress n s)
    (hs : shutdownAllOneThread cfg dt s = some s') : Progress n s' := by
  obtain ⟨-, rfl⟩ | ⟨-, -, rfl⟩ := shutdown_cases hs
  · exact h
  · exact of_finish (s := beginShutdown cfg dt s) ⟨h.le, h.lt⟩

theorem returns {d : Bool} (h : Progress n s) : Progress n (s.returns d) :=
  h.congr (Nat.le_refl _) (fun hm => List.mem_append_left _ hm) id

theorem of_close (h : Progress n s) (hc : closeAllOneThread s = some s') : Progress n s' := by
  obtain ⟨-, -, rfl⟩ | ⟨-, rfl⟩ := close_cases hc
  · exact h
  · exact h.congr (Nat.le_refl _) (fun hm => List.mem_cons_of_mem _ hm) id

theorem enqueue {ts : List Task} (h : Progress n s) :
    Progress n { s with tasks := s.tasks ++ ts } := by
  refine h.congr (Nat.le_refl _) id fun hd => ?_
  unfold St.due at hd ⊢
  split at hd <;> simp_all

theorem of_nextPhase (h : Progress n s) (hst : nextPhase cfg s = some s') :
    Progress n s' := by
  unfold nextPhase at hst
  split at hst
  · rename_i hph
    cases hst
    exact h.congr (Nat.le_refl _) id fun hd => by simpa [St.due, hph] using hd
  · rename_i hph
    cases hst
    exact h.congr (Nat.le_refl _) id fun hd => by simp [St.due, hph] at hd
  · rename_i t rest hph
    have hskip : t.ofU = false → Progress n { s with phase := .tasks rest } := fun ht =>
      h.congr (Nat.le_refl _) id fun hd => by simpa [St.due, hph, ht] using hd
    cases t with
    | release =>
      cases hst
      exact hskip rfl
    | send i =>
      cases hst
      exact (hskip rfl).pushCall
    | cleanup i => exact (hskip rfl).of_cleanup hst
    | acceptorShutdown =>
      -- this is the closure that was due
      cases hst
      exact ⟨Nat.le_succ_of_le h.le, .inl (Nat.lt_succ_of_le h.le)⟩
    | cleanupAndSet i =>
      refine of_cleanup (s := push [.setValue] { s with phase := .tasks rest }) ?_ hst
      exact ⟨h.le, .inr (.inl List.mem_cons_self)⟩
  · rename_i hph
    cases hst
    exact of_finish (h.congr (Nat.le_refl _) id fun hd => by simp [St.due, hph] at hd)
  · rename_i hph
    cases hst
    exact h.congr (Nat.le_refl _) id fun hd => by simp [St.due, hph] at hd
  all_goals cases hst

theorem of_nextFrame {f : Frame} {fs : List Frame} (h : Progress n s) (hctl : s.ctl = f :: fs)
    (hst : nextFrame fs s f = some s') : Progress n s' := by
  have hpop : f ≠ .setValue → .setValue ∈ s.ctl → .setValue ∈ fs := fun hne hm => by
    rw [hctl, List.mem_cons] at hm
    exact hm.resolve_left fun he => hne he.symm
  cases f with
  | user => cases hst
  | closing =>
    cases hst
    have hp : Progress n { s with ctl := fs } := h.congr (Nat.le_refl _) (hpop nofun) id
    exact hp.enqueue
  | force k rest =>
    cases rest with
    | nil =>
      cases hst
      exact h.congr (Nat.le_refl _) (fun hm => List.mem_cons_of_mem _ (hpop nofun hm)) id
    | cons i rest =>
      refine of_cleanup (s := { s with ctl := .force k rest :: fs }) ?_ hst
      exact h.congr (Nat.le_refl _) (fun hm => List.mem_cons_of_mem _ (hpop nofun hm)) id
  | store k =>
    cases k with
    | close =>
      cases hst
      exact h.congr (Nat.le_refl _) (hpop nofun) id
    | finish =>
      cases hst
      exact h.congr (Nat.le_refl _) (fun hm => List.mem_cons_of_mem _ (hpop nofun hm)) id
  | clear k | polls k =>
    cases hst
    exact h.congr (Nat.le_refl _) (fun hm => List.mem_cons_of_mem _ (hpop nofun hm)) id
  | locked | handler i | storeStarted | returning d =>
    cases hst
    exact h.congr (Nat.le_refl _) (hpop nofun) id
  | setValue =>
    cases hst
    -- one more closure of `U` has been executed
    exact ⟨Nat.le_succ_of_le h.le, .inl (Nat.lt_succ_of_le h.le)⟩

end Progress

/-- A step of the poll thread inside `poll()`, or of another thread meanwhile. -/
theorem progress_step {n : ℕ} (h : Progress n s) (hm : cfg.mode = .kAllOneThread)
    (hph : s.phase ≠ .outside) (hst : step cfg s a = some s') : Progress n s' := by
  have hm' : cfg.mode ≠ .kOnePollPerThread := by simp [hm]
  cases step_cases hst with
  | poll hi => exact absurd (idle_iff.1 hi).2.2 hph
  | accept hctl hd hl hf =>
    exact h.congr (Nat.le_refl _) id fun hdue => by simpa [St.due, hd] using hdue
  | acceptError hctl hd hf =>
    exact Progress.pushCall (s := { s with accepted := s.accepted ++ _ }) ⟨h.le, h.lt⟩
  | event hctl | callback hctl | send hu => exact h.pushCall
  | dispatchDone hd =>
    exact h.congr (Nat.le_refl _) id fun hdue => by simpa [St.due, hd] using hdue
  | refused hctl hb | admitted hctl hb =>
    refine Progress.pushCall (h.congr (Nat.le_refl _) id fun hdue => ?_)
    simpa [St.due, hb] using hdue
  | dropped hctl hb =>
    exact h.congr (Nat.le_refl _) id fun hdue => by simpa [St.due, hb] using hdue
  | pollError hctl ht =>
    refine Progress.pushCall (h.congr (Nat.le_refl _) id fun hdue => ?_)
    simp [St.due, ht] at hdue
  | fail hctl hc | connClose hu hc => exact h.of_cleanup hc
  | endUser hctl =>
    refine h.congr (Nat.le_refl _) (fun hmem => ?_) id
    simpa [hctl] using hmem
  | phase hctl hn => exact h.of_nextPhase hn
  | frame hctl hn => exact h.of_nextFrame hctl hn
  | close hmode hu hc =>
    split
    · exact (h.of_close hc).returns
    · exact h.of_close hc
  | shutdown hu hs => exact h.of_shutdown hs
  | destroy hi hs => exact (h.of_shutdown hs).returns
  | postSend | postCleanup => exact h.enqueue
  | setOnClose hp => exact ⟨h.le, h.lt⟩
  | tick | uCloseStarted | uCloseStopping | uCloseStopped | vShutdown | vIgnored | vThrows =>
    exact ⟨h.le, h.lt⟩
  | uShutdown hmode => exact absurd hmode hm'
  | uShutdownStopped hmode => exact absurd hmode hm'
  | uNext hn =>
    obtain ⟨-, -, -, hp, hc, hs, ts, ht⟩ := uStep_frame hn
    -- `U` queues at the back, and what is due is not touched
    have h₁ : Progress n { s with tasks := s.tasks ++ ts } := h.enqueue
    refine h₁.congr (Nat.le_of_eq hs.symm) (fun hmem => hc ▸ hmem) fun hdue => ?_
    rwa [St.due, hp, ht]
  | subCleanup hmode => exact absurd hmode hm'
  | subServe hmode => exact absurd hmode hm'

/-- This `poll()` executes no closure any more; `n` closures of `U` were executed. -/
structure Stalled (n : ℕ) (s : St) : Prop where
  served : s.served = n
  setValue : .setValue ∉ s.ctl
  phase : s.phase = .finish ∨ s.phase = .leave ∨ s.phase = .outside

namespace Stalled

variable {n : ℕ}

theorem pushCall {fs : List Frame} (h : Stalled n s) (hfs : .setValue ∉ fs) :
    Stalled n (push fs s) :=
  ⟨h.served, fun hm => (List.mem_append.1 hm).elim hfs h.setValue, h.phase⟩

theorem of_cleanup {i : ℕ} (h : Stalled n s) (hc : cleanup i s = some s') : Stalled n s' := by
  obtain ⟨rfl, -⟩ | ⟨p, fs, -, -, hfs, rfl⟩ := cleanup_cases hc
  · exact h
  · refine pushCall (s := tearDown i p s) ⟨h.served, h.setValue, h.phase⟩ ?_
    rcases hfs with rfl | rfl <;> simp

theorem of_finish (h : Stalled n s) : Stalled n (finishShutdownAllOneThread cfg s) := by
  rcases finishShutdown_cases cfg s with he | ⟨-, -, -, he⟩
  · rwa [he]
  · rw [he]
    exact h.pushCall (by simp)

theorem of_shutdown {dt : ℕ} (h : Stalled n s)
    (hs : shutdownAllOneThread cfg dt s = some s') : Stalled n s' := by
  obtain ⟨-, rfl⟩ | ⟨-, -, rfl⟩ := shutdown_cases hs
  · exact h
  · exact of_finish (s := beginShutdown cfg dt s) ⟨h.served, h.setValue, h.phase⟩

theorem of_close (h : Stalled n s) (hc : closeAllOneThread s = some s') : Stalled n s' := by
  obtain ⟨-, -, rfl⟩ | ⟨-, rfl⟩ := close_cases hc
  · exact h
  · exact ⟨h.served, fun hm => h.setValue (by simpa [beginClose, push] using hm), h.phase⟩

theorem returns {d : Bool} (h : Stalled n s) : Stalled n (s.returns d) :=
  ⟨h.served, fun hm => h.setValue (by simpa [St.returns] using hm), h.phase⟩

theorem of_next (h : Stalled n s) (hst : step cfg s .next = some s') : Stalled n s' := by
  have hset := h.setValue
  simp only [step] at hst
  split at hst
  · rename_i hctl
    rcases h.phase with hph | hph | hph
    · simp only [nextPhase, hph, Option.some.injEq] at hst
      subst hst
      exact of_finish (s := { s with phase := .leave }) ⟨h.served, hset, .inr (.inl rfl)⟩
    · simp only [nextPhase, hph, Option.some.injEq] at hst
      subst hst
      exact ⟨h.served, hset, .inr (.inr rfl)⟩
    · simp [nextPhase, hph] at hst
  · rename_i f fs hctl
    rw [hctl, List.mem_cons, not_or] at hset
    cases f with
    | force k rest =>
      cases rest with
      | nil =>
        cases hst
        exact ⟨h.served, by simp [hset.2], h.phase⟩
      | cons i rest =>
        exact of_cleanup (s := { s with ctl := .force k rest :: fs })
          ⟨h.served, by simp [hset.2], h.phase⟩ hst
    | setValue => exact absurd rfl hset.1
    | user => cases hst
    | store k => cases k <;> cases hst <;> exact ⟨h.served, by simp [hset.2], h.phase⟩
    | _ =>
      cases hst
      exact ⟨h.served, by simp [hset.2], h.phase⟩

end Stalled

theorem stalled_step {n : ℕ} (h : Stalled n s) (hm : cfg.mode = .kAllOneThread)
    (hph : s.phase ≠ .outside) (hst : step cfg s a = some s') : Stalled n s' := by
  have hm' : cfg.mode ≠ .kOnePollPerThread := by simp [hm]
  cases step_cases hst with
  | poll hi => exact absurd (idle_iff.1 hi).2.2 hph
  | accept hctl hd => simpa [hd] using h.phase
  | acceptError hctl hd => simpa [hd] using h.phase
  | dispatchDone hd => simpa [hd] using h.phase
  | refused hctl hb | admitted hctl hb | dropped hctl hb | pollError hctl hb =>
    simpa [hb] using h.phase
  | event hctl | callback hctl | send hu => exact h.pushCall (by simp)
  | fail hctl hc | connClose hu hc => exact h.of_cleanup hc
  | endUser hctl =>
    exact ⟨h.served, fun hmem => h.setValue (hctl ▸ List.mem_cons_of_mem _ hmem), h.phase⟩
  | phase | frame => exact h.of_next hst
  | close hmode hu hc =>
    have h₁ := h.of_close hc
    split
    · exact h₁.returns
    · exact h₁
  | shutdown hu hs => exact h.of_shutdown hs
  | destroy hi hs => exact (h.of_shutdown hs).returns
  | setOnClose hp => exact ⟨h.served, h.setValue, h.phase⟩
  | postSend | postCleanup | tick | uCloseStarted | uCloseStopping | uCloseStopped | vShutdown
  | vIgnored | vThrows =>
    exact ⟨h.served, h.setValue, h.phase⟩
  | uShutdown hmode => exact absurd hmode hm'
  | uShutdownStopped hmode => exact absurd hmode hm'
  | uNext hn =>
    obtain ⟨-, -, -, hp, hc, hs, -⟩ := uStep_frame hn
    exact ⟨hs.trans h.served, hc ▸ h.setValue, hp ▸ h.phase⟩
  | subCleanup hmode => exact absurd hmode hm'
  | subServe hmode => exact absurd hmode hm'

/-! ### `close()` from another thread -/

/-- One call of `Server::poll`, from `s` to `s'`; other threads may act meanwhile. -/
def CompletePoll (cfg : Config) (s s' : St) : Prop :=
  ∃ s₁, step cfg s .poll = some s₁ ∧
    (machine cfg).ReachIf (fun t _ => t.phase ≠ .outside) s₁ s' ∧ s'.phase = .outside ∧ s'.ctl = []

theorem owed_of_waiting (hc : Coord s) (hw : s.u.waiting = true) (hctl : s.ctl = []) :
    s.owed.length = 1 := by
  have howes := hc.owes
  rw [St.setting, hctl] at howes
  cases hu : s.u with
  | waitAcceptor k =>
    rw [hu] at howes
    rw [howes.1]
    rfl
  | waitConn i rest =>
    rw [hu] at howes
    obtain ⟨he, -⟩ | ⟨-, he⟩ := howes
    · rw [he]
      rfl
    · cases he
  | _ => simp [hu, UPc.waiting] at hw

/-- `poll()` on a stopped server. -/
theorem poll_stopped (hm : cfg.mode = .kAllOneThread) (hst : s.started = false)
    (hpoll : step cfg s .poll = some s') :
    (s.shuttingDown = false ∧ s' = s) ∨
      (s.shuttingDown = true ∧ s.shut = true ∧ s' = { s with phase := .finish }) ∨
      (s.shuttingDown = true ∧ s.shut = false ∧ s' = { s with phase := .dispatch }) := by
  simp only [step, hm] at hpoll
  split_ifs at hpoll with hi hsd hsh
  · cases hpoll
    exact .inl ⟨hsd.2, rfl⟩
  · cases hpoll
    exact .inr (.inl ⟨by simpa [hst] using hsd, hsh, rfl⟩)
  · cases hpoll
    exact .inr (.inr ⟨by simpa [hst] using hsd, by simpa using hsh, rfl⟩)

/-- **What a `poll()` does for a `close()` on another thread.**  In every reachable state in which
`U` is blocked, exactly one closure of `U` is outstanding, and a complete `poll()` executes it if
and only if `shutting_down_` is true and `main_poll_` is not shut when `poll()` is entered. -/
theorem closer_served_iff {now : ℕ} (hm : cfg.mode = .kAllOneThread)
    (h : (machine cfg).Reach (init now) s) (hw : s.u.waiting = true)
    (hp : CompletePoll cfg s s') :
    s.owed.length = 1 ∧ (s.served < s'.served ↔ s.shuttingDown = true ∧ s.shut = false) := by
  have hc := coord_of_reach hm h
  obtain ⟨s₁, hpoll, hrun, hph', hctl'⟩ := hp
  obtain ⟨-, hctl, hph⟩ := idle_iff.1 (poll_cases hpoll).1
  have hst : s.started = false := hc.stopped fun hu => by simp [hu, UPc.waiting] at hw
  have howed := owed_of_waiting hc hw hctl
  refine ⟨howed, ?_⟩
  obtain ⟨hsd, rfl⟩ | ⟨hsd, hsh, rfl⟩ | ⟨hsd, hsh, rfl⟩ := poll_stopped hm hst hpoll
  · -- the gate of `poll()` is closed
    have hstalled : Stalled s₁.served s' := hrun.invariant
      ⟨rfl, by simp [hctl], .inr (.inr hph)⟩ fun _ _ _ hi hG hst => stalled_step hi hm hG hst
    simp [hstalled.served, hsd]
  · -- `main_poll_->poll()` returns at once
    have hstalled : Stalled s.served s' := hrun.invariant
      ⟨rfl, by simp [hctl], .inl rfl⟩ fun _ _ _ hi hG hst => stalled_step hi hm hG hst
    simp [hstalled.served, hsh]
  · -- the closure is among those that are taken after the dispatch
    have hdue : { s with phase := .dispatch }.due = true := by
      obtain ⟨t, ht⟩ := List.length_eq_one_iff.1 howed
      have hmem : t ∈ s.owed := by simp [ht]
      simp only [St.owed, hph, Phase.taken, List.nil_append, List.mem_filter] at hmem
      exact List.any_eq_true.2 ⟨t, hmem⟩
    have hprog : Progress s.served s' := hrun.invariant
      ⟨Nat.le_refl _, .inr (.inr hdue)⟩ fun _ _ _ hi hG hst => progress_step hi hm hG hst
    have hlt := hprog.lt
    simp only [hctl', St.due, hph', List.not_mem_nil, Bool.false_eq_true, or_self, or_false] at hlt
    simp [hlt, hsd, hsh]

/-- `close()` on a server that is stopping gracefully with one connection: the acceptor's closure
is queued, and the next `poll()` executes it. -/
def closeWhileStopping : List Act :=
  [.poll, .accept [5], .newConn true, .endUser, .next, .dispatchDone, .next, .next, .next,
    .shutdown 0, .uClose, .uNext, .uNext]

/-- A `poll()` without events that executes one closure. -/
def onePoll : List Act := [.dispatchDone, .next, .next, .next, .next]

theorem closer_served_iff_stopping : ∃ s s',
    (machine (.default .kAllOneThread)).Reach (init 0) s ∧ s.u.waiting = true ∧
    s.conns = [(5, 0)] ∧ CompletePoll (.default .kAllOneThread) s s' ∧ s.served < s'.served := by
  obtain ⟨s, hr, hp⟩ := Machine.Reach.of_endsIn (M := machine (.default .kAllOneThread))
    (s := init 0) (p := fun s => s.u.waiting && s.conns = [(5, 0)] && s.shuttingDown && !s.shut &&
      ((step (.default .kAllOneThread) s .poll).any fun s₁ =>
        decide ((machine (.default .kAllOneThread)).Meets (fun t _ => t.phase ≠ .outside) s₁
          onePoll) && ((machine (.default .kAllOneThread)).exec s₁ onePoll).any fun s' =>
            s'.phase = .outside && s'.ctl = [])) closeWhileStopping (by decide +kernel)
  simp only [Bool.and_eq_true, decide_eq_true_eq, Option.any_eq_true, Bool.not_eq_true'] at hp
  obtain ⟨⟨⟨⟨hw, hconns⟩, hsd⟩, hsh⟩, s₁, hpoll, hmeets, s', hexec, hph, hctl⟩ := hp
  have hc : CompletePoll (.default .kAllOneThread) s s' :=
    ⟨s₁, hpoll, .of_exec onePoll hexec hmeets, hph, hctl⟩
  exact ⟨s, s', hr, hw, hconns, hc, (closer_served_iff rfl hr hw hc).2.2 ⟨hsd, hsh⟩⟩

/-- `close()` on a server that nobody has stopped: `started_` is cleared before the closure is
queued, and `poll()` returns at its gate. -/
def closeStarted : List Act := [.uClose, .uNext, .uNext]

/-- Every `poll()` leaves everything as it is: `U` is blocked, and its closure stays queued. -/
theorem closer_not_served : ∃ s, (machine (.default .kAllOneThread)).Reach (init 0) s ∧
    s.u.waiting = true ∧ s.owed = [.acceptorShutdown] ∧
    CompletePoll (.default .kAllOneThread) s s ∧
    ∀ s', CompletePoll (.default .kAllOneThread) s s' → s' = s := by
  obtain ⟨s, hr, hp⟩ := Machine.Reach.of_endsIn (M := machine (.default .kAllOneThread))
    (s := init 0) (p := fun s => s.u.waiting && s.owed = [.acceptorShutdown] &&
      s.phase = .outside && s.ctl = [] && step (.default .kAllOneThread) s .poll = some s)
    closeStarted (by decide +kernel)
  simp only [Bool.and_eq_true, decide_eq_true_eq] at hp
  obtain ⟨⟨⟨⟨hw, howed⟩, hph⟩, hctl⟩, hpoll⟩ := hp
  refine ⟨s, hr, hw, howed, ⟨s, hpoll, .refl, hph, hctl⟩, fun s' hc => ?_⟩
  obtain ⟨s₁, hpoll', hrun, -, -⟩ := hc
  rw [hpoll] at hpoll'
  cases hpoll'
  exact hrun.invariant (I := fun t => t = s) rfl fun t _ _ ht hG _ => absurd (ht ▸ hph) hG

/-! ### `shutdown()` from another thread -/

/-- A `shutdown()` is in effect, or was: the deadline is `d`, and stays so. -/
structure Held (d : Option ℕ) (s : St) : Prop where
  deadline : s.deadline = d
  flag : s.started = true → s.shuttingDown = false → s.ctl.head? = some .storeStarted

namespace Held

variable {d : Option ℕ}

/-- A step of user code, or of a handler. -/
theorem of_top (h : Held d s) (htop : s.ctl.head? ≠ some .storeStarted)
    (hd : s'.deadline = s.deadline) (hst : s'.started = true → s.started = true)
    (hsd : s'.shuttingDown = false → s.shuttingDown = false) : Held d s' :=
  ⟨hd.trans h.deadline, fun h1 h2 => absurd (h.flag (hst h1) (hsd h2)) htop⟩

/-- `shutdown()` on the poll thread returns at once. -/
theorem shutdown_eq {dt : ℕ} (h : Held d s) (hs : shutdownAllOneThread cfg dt s = some s')
    (htop : s.ctl.head? ≠ some .storeStarted) : s' = s := by
  obtain ⟨-, rfl⟩ | ⟨h1, h2, -⟩ := shutdown_cases hs
  · rfl
  · exact absurd (h.flag h1 h2) htop

theorem of_cleanup {i : ℕ} (h : Held d s) (hc : cleanup i s = some s')
    (htop : s.ctl.head? ≠ some .storeStarted) : Held d s' := by
  obtain ⟨rfl, -⟩ | ⟨p, fs, -, -, -, rfl⟩ := cleanup_cases hc
  · exact h
  · exact h.of_top htop rfl id id

theorem of_nextPhase (h : Held d s) (hctl : s.ctl = [])
    (hst : nextPhase cfg s = some s') : Held d s' := by
  have htop : s.ctl.head? ≠ some .storeStarted := by simp [hctl]
  unfold nextPhase at hst
  split at hst
  · cases hst
    exact h.of_top htop rfl id id
  · cases hst
    exact h.of_top htop rfl id id
  · rename_i t rest _
    cases t with
    | release | send i | acceptorShutdown =>
      cases hst
      exact h.of_top htop rfl id id
    | cleanup i =>
      exact of_cleanup (s := { s with phase := .tasks rest }) ⟨h.deadline, h.flag⟩ hst htop
    | cleanupAndSet i =>
      exact of_cleanup (s := push [.setValue] { s with phase := .tasks rest })
        (h.of_top htop rfl id id) hst nofun
  · cases hst
    rcases finishShutdown_cases cfg { s with phase := .leave } with he | ⟨-, -, -, he⟩
    · rw [he]
      exact h.of_top htop rfl id id
    · rw [he]
      exact h.of_top htop rfl id id
  · cases hst
    exact h.of_top htop rfl id id
  all_goals cases hst

theorem of_nextFrame {f : Frame} {fs : List Frame} (h : Held d s) (hc : Coord s)
    (hctl : s.ctl = f :: fs) (hst : nextFrame fs s f = some s') : Held d s' := by
  have htop : f ≠ .storeStarted → s.ctl.head? ≠ some .storeStarted := fun hf => by simp [hctl, hf]
  cases f with
  | user => cases hst
  | force k rest =>
    cases rest with
    | nil =>
      cases hst
      exact h.of_top (htop nofun) rfl id id
    | cons i rest =>
      exact of_cleanup (s := { s with ctl := .force k rest :: fs })
        (h.of_top (htop nofun) rfl id id) hst nofun
  | store k =>
    cases k with
    | close =>
      -- the stop that `close()` began has cleared `started_`
      cases hst
      refine ⟨h.deadline, fun hs _ => ?_⟩
      have := hc.ofClose hs
      simp [hctl, Frame.ofClose] at this
    | finish =>
      cases hst
      exact ⟨h.deadline, fun _ _ => rfl⟩
  | storeStarted =>
    cases hst
    exact ⟨h.deadline, nofun⟩
  | _ =>
    cases hst
    exact h.of_top (htop nofun) rfl id id

end Held

theorem held_step {d : Option ℕ} (h : Held d s) (hc : Coord s) (hm : cfg.mode = .kAllOneThread)
    (hst : step cfg s a = some s') : Held d s' := by
  have hm' : cfg.mode ≠ .kOnePollPerThread := by simp [hm]
  cases step_cases hst with
  | poll hi he =>
    obtain rfl | rfl | rfl | rfl := he
    all_goals exact ⟨h.deadline, h.flag⟩
  | accept | dispatchDone | dropped => exact ⟨h.deadline, h.flag⟩
  | event hctl | callback hctl | acceptError hctl | refused hctl | admitted hctl
  | pollError hctl | endUser hctl => exact h.of_top (by simp [hctl]) rfl id id
  | send hu => exact h.of_top (top_of_inUser hu) rfl id id
  | fail hctl hcl => exact h.of_cleanup hcl (by simp [hctl])
  | connClose hu hcl => exact h.of_cleanup hcl (top_of_inUser hu)
  | phase hctl hn => exact h.of_nextPhase hctl hn
  | frame hctl hn => exact h.of_nextFrame hc hctl hn
  | setOnClose hp => exact ⟨h.deadline, h.flag⟩
  | close hmode hu hcl =>
    obtain ⟨hs, hsd, rfl⟩ | ⟨-, rfl⟩ := close_cases hcl
    · split
      · exact h.of_top (top_of_inUser hu) rfl id id
      · exact h
    · split
      · exact ⟨h.deadline, nofun⟩
      · exact ⟨h.deadline, nofun⟩
  | shutdown hu hs =>
    rw [h.shutdown_eq hs (top_of_inUser hu)]
    exact h
  | destroy hi hs =>
    have htop : s.ctl.head? ≠ some .storeStarted := by simp [(idle_iff.1 hi).2.1]
    rw [h.shutdown_eq hs htop]
    exact h.of_top htop rfl id id
  | postSend | postCleanup | tick | vShutdown | vIgnored | uCloseStopped =>
    exact ⟨h.deadline, h.flag⟩
  | uCloseStarted => exact ⟨h.deadline, nofun⟩
  | uCloseStopping hu hs => exact ⟨h.deadline, fun he => by simp [hs] at he⟩
  | vThrows => exact ⟨h.deadline, nofun⟩
  | uShutdown hmode => exact absurd hmode hm'
  | uShutdownStopped hmode => exact absurd hmode hm'
  | uNext hn =>
    obtain ⟨hu, hs, hd, -⟩ := uStep_frame hn
    refine ⟨hd.trans h.deadline, fun he => ?_⟩
    -- `U` is in `close_impl_`, so the server was stopped before
    rw [hs, hc.stopped hu] at he
    cases he
  | subCleanup hmode => exact absurd hmode hm'
  | subServe hmode => exact absurd hmode hm'

/-- The deadline of a `shutdown()` stays for the rest of the run. -/
theorem held_of_reach {d : Option ℕ} (hm : cfg.mode = .kAllOneThread)
    (hr : (machine cfg).Reach s s') (h : Held d s) (hc : Coord s) : Held d s' := by
  refine (hr.invariant (I := fun t => Held d t ∧ Coord t) ⟨h, hc⟩ fun _ _ _ hi _ hst => ?_).1
  exact ⟨held_step hi.1 hi.2 hm hst, coord_step hi.2 hm hst⟩

/-- A rejected `shutdown()` is in effect: the deadline is the epoch, and stays so. -/
abbrev Rejected (s : St) : Prop := Held (some 0) s

/-- **A rejected `shutdown()` changes the server.**  Whenever the thread check of `shutdown()`
throws on a started server, `shutting_down_` was false before and is true afterwards.  If the
poll thread was outside `poll()`, the deadline that later calls of
`finish_shutdown_all_one_thread_` read is the epoch for good: as long as `shutting_down_` stays
true, every one of them goes on to clear `conns_` and to close the connections by force. -/
theorem rejected_shutdown {now : ℕ} (hm : cfg.mode = .kAllOneThread)
    (h : (machine cfg).Reach (init now) s) (hs : s.started = true)
    (hx : step cfg s .vExchange = some s') (hthrow : s'.thrown ≠ s.thrown) :
    s.shuttingDown = false ∧ s'.shuttingDown = true ∧
      (s.idle = true → ∀ t, (machine cfg).Reach s' t → t.phase = .finish → t.ctl = [] →
        t.shuttingDown = true →
        step cfg t .next = some { t with phase := .leave, ctl := [.clear .finish] }) := by
  have hc := coord_of_reach hm h
  have hc' := coord_step hc hm hx
  simp only [step] at hx
  split_ifs at hx with hv hsd
  · cases hx
    exact absurd rfl hthrow
  · cases hx
    have hsd : s.shuttingDown = false := by simpa using hsd
    refine ⟨hsd, rfl, fun hi t hr hph hctl hsd' => ?_⟩
    -- nobody has set a deadline yet: the user code is not inside a stop
    have hdl : s.deadline = some 0 := by
      refine (hc.deadline hs hsd).resolve_right ?_
      simp [(idle_iff.1 hi).2.1]
    have hrej : Rejected t := held_of_reach hm hr ⟨hdl, by simp⟩ hc'
    simp only [step, hctl, nextPhase, hph, finishShutdownAllOneThread, hm, hsd']
    simp [push, St.early, hrej.deadline]

/-- Connection 0 is admitted with a close callback, `poll()` returns, and `V` has seen `started_`
true. -/
def openThenShutdown : List Act :=
  [.poll, .accept [5], .newConn true, .setOnClose 0 true, .endUser, .next, .dispatchDone, .next,
    .next, .next, .vShutdown]

/-- A `poll()` without events, up to `finish_shutdown_all_one_thread_`. -/
def emptyPoll : List Act := [.poll, .dispatchDone, .next]

theorem rejected_shutdown_oneConn : ∃ s s' t,
    (machine (.default .kAllOneThread)).Reach (init 0) s ∧ s.started = true ∧
    s.conns = [(5, 0)] ∧ step (.default .kAllOneThread) s .vExchange = some s' ∧
    s.shuttingDown = false ∧ s'.shuttingDown = true ∧
    (machine (.default .kAllOneThread)).Reach s' t ∧ t.conns = [(5, 0)] ∧
    step (.default .kAllOneThread) t .next =
      some { t with phase := .leave, ctl := [.clear .finish] } := by
  obtain ⟨s, hr, hp⟩ := Machine.Reach.of_endsIn (M := machine (.default .kAllOneThread))
    (s := init 0) (p := fun s => s.started && s.conns = [(5, 0)] && s.idle &&
      (step (.default .kAllOneThread) s .vExchange).any fun s' => s'.thrown ≠ s.thrown &&
        ((machine (.default .kAllOneThread)).exec s' emptyPoll).any fun t =>
          t.conns = [(5, 0)] && t.phase = .finish && t.ctl = [] && t.shuttingDown)
    openThenShutdown (by decide +kernel)
  simp only [Bool.and_eq_true, decide_eq_true_eq, Option.any_eq_true] at hp
  obtain ⟨⟨⟨hs, hconns⟩, hi⟩, s', hx, hthrow, t, hexec, ⟨⟨htc, hph⟩, hctl⟩, hsd⟩ := hp
  have hrt : (machine (.default .kAllOneThread)).Reach s' t := .of_exec emptyPoll hexec
  obtain ⟨h1, h2, h3⟩ := rejected_shutdown rfl hr hs hx hthrow
  exact ⟨s, s', t, hr, hs, hconns, hx, h1, h2, hrt, htc, h3 hi t hrt hph hctl hsd⟩

/-- The rest of that `poll()`: connection 0 is closed by force, with its callback, and the server
has stopped. -/
def forcedEnd : List Act :=
  emptyPoll ++ [.next, .next, .next, .endUser] ++ .replicate 6 .next

/-- Connection 0 is open and the server is started; `shutdown()` throws, and the next `poll()`
closes the connection by force and stops the server.  Without the rejected call the same `poll()`
leaves both alone. -/
theorem rejected_shutdown_forces_close : ∃ s s' t t₀,
    (machine (.default .kAllOneThread)).Reach (init 0) s ∧ s.started = true ∧
    step (.default .kAllOneThread) s .vExchange = some s' ∧ s'.thrown = s.thrown + 1 ∧
    s'.shuttingDown ≠ s.shuttingDown ∧
    (machine (.default .kAllOneThread)).exec s' forcedEnd = some t ∧ t.idle = true ∧
    t.started = false ∧ t.conns = [] ∧ t.peers = [⟨5, false, true, false, 1, true, 1⟩] ∧
    (machine (.default .kAllOneThread)).exec s (emptyPoll ++ [.next, .next]) = some t₀ ∧
    t₀.idle = true ∧ t₀.started = true ∧ t₀.conns = [(5, 0)] ∧
    t₀.peers = [⟨5, true, false, true, 0, false, 0⟩] := by
  obtain ⟨s, hr, hp⟩ := Machine.Reach.of_endsIn (M := machine (.default .kAllOneThread))
    (s := init 0) (p := fun s => s.started &&
      ((step (.default .kAllOneThread) s .vExchange).any fun s' =>
        s'.thrown = s.thrown + 1 && s'.shuttingDown ≠ s.shuttingDown &&
          ((machine (.default .kAllOneThread)).exec s' forcedEnd).any fun t => t.idle &&
            t.started = false && t.conns = [] &&
            t.peers = [⟨5, false, true, false, 1, true, 1⟩]) &&
      ((machine (.default .kAllOneThread)).exec s (emptyPoll ++ [Act.next, .next])).any fun t =>
        t.idle && t.started && t.conns = [(5, 0)] &&
          t.peers = [⟨5, true, false, true, 0, false, 0⟩])
    openThenShutdown (by decide +kernel)
  simp only [Bool.and_eq_true, decide_eq_true_eq, Option.any_eq_true] at hp
  obtain ⟨⟨hs, s', hx, ⟨hthrow, hsd⟩, t, hexec, ⟨⟨ht1, ht2⟩, ht3⟩, ht4⟩, t₀, hexec₀,
    ⟨⟨h1, h2⟩, h3⟩, h4⟩ := hp
  exact ⟨s, s', t, t₀, hr, hs, hx, hthrow, hsd, hexec, ht1, ht2, ht3, ht4, hexec₀, h1, h2, h3, h4⟩

end Loop

end Server

end CxpNet
