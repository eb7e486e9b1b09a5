import CxpNet.Server.Loop

/-!
# No admission after a stop

`close()` shuts the acceptor down before it clears `conns_`, so that no connection can be admitted
once the table is empty.  That is so if the acceptor is shut down between two accept batches: on
the poll thread as a closure of `main_poll_` (every `close()` on another thread, and every `close()`
in mode `kOnePollPerThread`), or by a `close()` that no handle of a batch waits for.

* `Loop.no_admission_after_stop` : the runs in which it is;
* `Loop.admission_after_stop` : in mode `kAllOneThread`, a connection callback that calls `close()`
  while its batch still has a handle.
-/

namespace CxpNet

namespace Server

namespace Loop

/-- In this step `Acceptor::shutdown` takes effect directly as part of `close()`: the call is made
on the poll thread, or `main_poll_` is already shut. -/
def St.cutsNow (s : St) : Act → Bool
  | .close => s.started || s.shuttingDown
  | .uNext => s.shut && s.u = .acceptor .close
  | _ => false

/-- In mode `kAllOneThread`, `close()` shuts the acceptor down directly only when no handle of the
current batch is still to be passed on. -/
def CutBetweenBatches (cfg : Config) (s : St) (a : Act) : Prop :=
  cfg.mode = .kAllOneThread → s.cutsNow a = true → s.pending = []

instance (cfg : Config) (s : St) (a : Act) : Decidable (CutBetweenBatches cfg s a) :=
  inferInstanceAs (Decidable (cfg.mode = .kAllOneThread → s.cutsNow a = true → s.pending = []))

/-- A frame of a stop on the poll thread. -/
def Frame.stops : Frame → Bool
  | clear _ | force _ _ | polls _ | store _ | storeStarted => true
  | user | locked | handler _ | closing | setValue | returning _ => false

/-- What the guard keeps. -/
structure Admitting (cfg : Config) (s : St) : Prop where
  late : s.late = 0
  cut : s.cut = true → s.listening = false ∧ s.pending = []
  cleared : s.cleared = true → s.cut = true ∧ s.conns = []
  /-- `conns_` is cleared after the acceptor was shut down. -/
  clearFrame : .clear .close ∈ s.ctl → s.cut = true
  clearU : s.u = .clear .close → s.cut = true
  /-- In mode `kOnePollPerThread` only `U` stops the server. -/
  shut : cfg.mode = .kOnePollPerThread → s.shut = true → s.u = .store ∨ s.u = .returned
  subPolls : cfg.mode = .kOnePollPerThread → s.ctl.any Frame.stops = false

variable {cfg : Config} {s s' : St} {a : Act}

namespace Admitting

/-- Steps that admit nobody and stop nothing. -/
theorem congr (h : Admitting cfg s) (hlate : s'.late = s.late) (hcut : s'.cut = s.cut)
    (hl : s.listening = false → s'.listening = false) (hp : s.pending = [] → s'.pending = [])
    (hcl : s'.cleared = s.cleared) (hconns : s.conns = [] → s'.conns = [])
    (hctl : ∀ f ∈ s'.ctl, f ∈ s.ctl ∨ f.stops = false)
    (hu : s'.u = s.u) (hsh : s'.shut = s.shut) : Admitting cfg s' where
  late := hlate.trans h.late
  cut hc := by
    obtain ⟨h1, h2⟩ := h.cut (hcut ▸ hc)
    exact ⟨hl h1, hp h2⟩
  cleared hc := by
    obtain ⟨h1, h2⟩ := h.cleared (hcl ▸ hc)
    exact ⟨hcut.trans h1, hconns h2⟩
  clearFrame hm := by
    rcases hctl _ hm with hm | hm
    · exact hcut.trans (h.clearFrame hm)
    · cases hm
  clearU hc := hcut.trans (h.clearU (hu ▸ hc))
  shut hm hs := by
    rw [hu]
    exact h.shut hm (hsh ▸ hs)
  subPolls hm := by
    have := h.subPolls hm
    simp only [List.any_eq_false] at this ⊢
    intro f hf
    rcases hctl f hf with hf | hf
    · exact this f hf
    · simp [hf]

theorem returns {d : Bool} (h : Admitting cfg s) : Admitting cfg (s.returns d) :=
  h.congr rfl rfl id id rfl id (fun f hf => by
    rcases List.mem_append.1 hf with hf | hf
    · exact .inl hf
    · rw [List.mem_singleton.1 hf]
      exact .inr rfl) rfl rfl

theorem pushUser {fs : List Frame} (h : Admitting cfg s) (hfs : fs.all (!·.stops) = true) :
    Admitting cfg (push fs s) :=
  h.congr rfl rfl id id rfl id (fun f hf => by
    rcases List.mem_append.1 hf with hf | hf
    · exact .inr (by simpa using List.all_eq_true.1 hfs f hf)
    · exact .inl hf) rfl rfl

/-- A step before the acceptor is shut down. -/
theorem uncut (h : Admitting cfg s) (hc : s.cut ≠ true) (hlate : s'.late = 0)
    (hcut : s'.cut = s.cut) (hcl : s'.cleared = s.cleared) (hctl : s'.ctl = s.ctl)
    (hu : s'.u = s.u) (hsh : s'.shut = s.shut) : Admitting cfg s' where
  late := hlate
  cut hc' := absurd (hcut ▸ hc') hc
  cleared hc' := absurd (h.cleared (hcl ▸ hc')).1 hc
  clearFrame hm := absurd (h.clearFrame (hctl ▸ hm)) hc
  clearU hu' := absurd (h.clearU (hu ▸ hu')) hc
  shut hm hs := by
    rw [hu]
    exact h.shut hm (hsh ▸ hs)
  subPolls hm := by
    rw [hctl]
    exact h.subPolls hm

/-- The call on top, which is part of a stop, goes on. -/
theorem swap {f : Frame} {fs : List Frame} (gs : List Frame) (h : Admitting cfg s)
    (hctl : s.ctl = f :: fs) (hf : f.stops = true) (hgs : .clear .close ∉ gs)
    (hctl' : s'.ctl = gs ++ fs) (hlate : s'.late = s.late) (hcut : s'.cut = s.cut)
    (hl : s'.listening = s.listening) (hp : s'.pending = s.pending)
    (hcl : s'.cleared = true → s.cut = true ∧ s'.conns = []) (hu : s'.u = s.u) :
    Admitting cfg s' := by
  -- on the poll thread the server is stopped only in mode `kAllOneThread`
  have hmode : cfg.mode ≠ .kOnePollPerThread := fun hm => by
    have := h.subPolls hm
    simp [hctl, hf] at this
  refine ⟨hlate.trans h.late, fun hc => ?_, fun hc => ?_, fun hm => ?_,
    fun hc => hcut.trans (h.clearU (hu ▸ hc)), fun hm => absurd hm hmode,
    fun hm => absurd hm hmode⟩
  · rw [hl, hp]
    exact h.cut (hcut ▸ hc)
  · obtain ⟨h1, h2⟩ := hcl hc
    exact ⟨hcut.trans h1, h2⟩
  · rw [hctl', List.mem_append] at hm
    exact hcut.trans (h.clearFrame (hctl ▸ List.mem_cons_of_mem f (hm.resolve_left hgs)))

/-- `U` goes on. -/
theorem moveU (h : Admitting cfg s) (hlate : s'.late = s.late) (hcut : s'.cut = s.cut)
    (hl : s'.listening = s.listening) (hp : s'.pending = s.pending)
    (hcl : s'.cleared = true → s.cut = true ∧ s'.conns = []) (hctl : s'.ctl = s.ctl)
    (hu : s'.u = .clear .close → s.u = .clear .close)
    (hsh : cfg.mode = .kOnePollPerThread → s'.shut = true → s'.u = .store ∨ s'.u = .returned) :
    Admitting cfg s' where
  late := hlate.trans h.late
  cut hc := by
    rw [hl, hp]
    exact h.cut (hcut ▸ hc)
  cleared hc := by
    obtain ⟨h1, h2⟩ := hcl hc
    exact ⟨hcut.trans h1, h2⟩
  clearFrame hm := hcut.trans (h.clearFrame (hctl ▸ hm))
  clearU hc := hcut.trans (h.clearU (hu hc))
  shut := hsh
  subPolls hm := by
    rw [hctl]
    exact h.subPolls hm

theorem not_cut {k : ℕ} {rest : List ℕ} (h : Admitting cfg s)
    (hph : s.phase = .batch (k :: rest)) : s.cut ≠ true := fun hc => by
  have := (h.cut hc).2
  simp [St.pending, hph] at this

theorem not_shut (h : Admitting cfg s) (hu : s.u ≠ .store) (hu' : s.u ≠ .returned)
    (hm : cfg.mode = .kOnePollPerThread) : s.shut ≠ true :=
  fun hs => (h.shut hm hs).elim hu hu'

theorem of_tearDown {i : ℕ} {p : Peer} (h : Admitting cfg s) : Admitting cfg (tearDown i p s) :=
  h.congr rfl rfl id id rfl (fun hc => by simp [tearDown, hc, eraseHandle]) (fun _ => .inl) rfl rfl

theorem of_cleanup {i : ℕ} (h : Admitting cfg s) (hc : cleanup i s = some s') :
    Admitting cfg s' := by
  obtain ⟨rfl, -⟩ | ⟨p, fs, -, -, hfs, rfl⟩ := cleanup_cases hc
  · exact h
  · refine h.of_tearDown.pushUser ?_
    rcases hfs with rfl | rfl <;> rfl

/-- A sub-poll cleans up a connection. -/
theorem of_subCleanup {i : ℕ} {p : Peer} (h : Admitting cfg s) :
    Admitting cfg (if p.cleanupDone then s else tearDown i p s) := by
  split
  · exact h
  · exact h.of_tearDown

/-- The poll thread moves on to a phase without a batch. -/
theorem setPhase {ph : Phase} (h : Admitting cfg s) (hph : { s with phase := ph }.pending = []) :
    Admitting cfg { s with phase := ph } :=
  h.congr rfl rfl id (fun _ => hph) rfl id (fun _ => .inl) rfl rfl

theorem setTasks (h : Admitting cfg s) (ts : List Task) : Admitting cfg { s with tasks := ts } :=
  h.congr rfl rfl id id rfl id (fun _ => .inl) rfl rfl

/-- A call returns. -/
theorem pop {f : Frame} {fs : List Frame} (h : Admitting cfg s) (hctl : s.ctl = f :: fs) :
    Admitting cfg { s with ctl := fs } :=
  h.congr rfl rfl id id rfl id (fun _ hg => .inl (hctl ▸ List.mem_cons_of_mem f hg)) rfl rfl

theorem of_finish (h : Admitting cfg s) : Admitting cfg (finishShutdownAllOneThread cfg s) := by
  rcases finishShutdown_cases cfg s with he | ⟨hm, -, -, he⟩
  · rwa [he]
  · rw [he]
    refine ⟨h.late, h.cut, h.cleared, fun hf => h.clearFrame (by simpa [push] using hf), h.clearU,
      h.shut, fun hm' => ?_⟩
    simp [hm] at hm'

theorem of_shutdown {dt : ℕ} (h : Admitting cfg s)
    (hs : shutdownAllOneThread cfg dt s = some s') : Admitting cfg s' := by
  obtain ⟨-, rfl⟩ | ⟨-, -, rfl⟩ := shutdown_cases hs
  · exact h
  · exact of_finish (h.congr rfl rfl (fun _ => rfl) id rfl id (fun _ => .inl) rfl rfl)

theorem of_close (h : Admitting cfg s)
    (hp : (s.started || s.shuttingDown) = true → s.pending = [])
    (hc : closeAllOneThread s = some s') (hm : cfg.mode = .kAllOneThread) : Admitting cfg s' := by
  obtain ⟨-, -, rfl⟩ | ⟨hs, rfl⟩ := close_cases hc
  · exact h
  · refine ⟨h.late, fun _ => ⟨rfl, hp hs⟩, fun hc => ⟨rfl, (h.cleared hc).2⟩, fun _ => rfl,
      fun _ => rfl, h.shut, fun hm' => ?_⟩
    simp [hm] at hm'

theorem of_runTask {t : Task} (h : Admitting cfg s) (hp : s.pending = [])
    (ht : runTask s t = some s') : Admitting cfg s' := by
  cases t with
  | release =>
    cases ht
    exact h
  | send i =>
    cases ht
    exact h.pushUser rfl
  | cleanup i => exact h.of_cleanup ht
  | acceptorShutdown =>
    cases ht
    refine ⟨h.late, fun _ => ⟨rfl, hp⟩, fun hc => ?_, fun hm => ?_, fun hc => ?_, fun hm hs => ?_,
      h.subPolls⟩
    · obtain ⟨h1, h2⟩ := h.cleared hc
      exact ⟨by simp [h1], h2⟩
    · simp [h.clearFrame hm]
    · -- the closure that `U` waits for in `close()` is this one
      rcases UPc.eq_of_acceptorSet hc with hu | hu
      · simp [h.clearU hu]
      · simp [hu]
    · rcases h.shut hm hs with hu | hu <;> simp [hu, UPc.acceptorSet]
  | cleanupAndSet i => exact (h.pushUser rfl).of_cleanup ht

theorem of_nextPhase (h : Admitting cfg s) (hst : nextPhase cfg s = some s') :
    Admitting cfg s' := by
  unfold nextPhase at hst
  split at hst
  · cases hst
    exact h.setPhase rfl
  · cases hst
    exact h.setPhase rfl
  · exact of_runTask (h.setPhase rfl) rfl hst
  · cases hst
    exact of_finish (h.setPhase rfl)
  · cases hst
    exact h.setPhase rfl
  all_goals cases hst

theorem of_nextFrame {f : Frame} {fs : List Frame} (h : Admitting cfg s) (hctl : s.ctl = f :: fs)
    (hst : nextFrame fs s f = some s') : Admitting cfg s' := by
  cases f with
  | user => cases hst
  | clear k =>
    cases hst
    -- for `close_impl_` the acceptor is shut down by now
    refine h.swap [.force k _] hctl rfl (by simp) rfl rfl rfl rfl rfl (fun hc => ?_) rfl
    rcases Bool.or_eq_true _ _ ▸ hc with hc | hk
    · exact ⟨(h.cleared hc).1, rfl⟩
    · cases of_decide_eq_true hk
      exact ⟨h.clearFrame (by simp [hctl]), rfl⟩
  | force k rest =>
    cases rest with
    | nil =>
      cases hst
      exact h.swap [.polls k] hctl rfl (by simp) rfl rfl rfl rfl rfl h.cleared rfl
    | cons i rest =>
      have h₁ : Admitting cfg { s with ctl := .force k rest :: fs } :=
        h.swap [.force k rest] hctl rfl (by simp) rfl rfl rfl rfl rfl h.cleared rfl
      exact h₁.of_cleanup hst
  | polls k =>
    cases hst
    exact h.swap [.store k] hctl rfl (by simp) rfl rfl rfl rfl rfl h.cleared rfl
  | store k =>
    cases k with
    | close =>
      cases hst
      exact h.swap [] hctl rfl (by simp) rfl rfl rfl rfl rfl h.cleared rfl
    | finish =>
      cases hst
      exact h.swap [.storeStarted] hctl rfl (by simp) rfl rfl rfl rfl rfl h.cleared rfl
  | storeStarted =>
    cases hst
    exact h.swap [] hctl rfl (by simp) rfl rfl rfl rfl rfl h.cleared rfl
  | setValue =>
    cases hst
    refine (h.pop hctl).moveU rfl rfl rfl rfl h.cleared rfl UPc.eq_of_connSet fun hm hs => ?_
    rcases h.shut hm hs with hu | hu <;> simp [hu, UPc.connSet]
  | locked | handler i | returning d =>
    cases hst
    have := h.pop hctl
    exact ⟨this.late, this.cut, this.cleared, this.clearFrame, this.clearU, this.shut,
      this.subPolls⟩
  | closing =>
    cases hst
    exact (h.pop hctl).setTasks _

theorem of_uStep (h : Admitting cfg s) (hG : CutBetweenBatches cfg s .uNext)
    (hst : uStep cfg s = some s') : Admitting cfg s' := by
  -- in mode `kOnePollPerThread`, `main_poll_` is not shut before `U` stands at `.store`
  have hns := h.not_shut
  cases hu : s.u with
  | idle | waitAcceptor k | waitConn i rest | returned => simp [uStep, hu] at hst
  | acceptor k =>
    simp only [uStep, hu] at hst
    rw [hu] at hns
    split_ifs at hst with hs
    · have hm : cfg.mode = .kAllOneThread := by
        cases hmode : cfg.mode with
        | kAllOneThread => rfl
        | kOnePollPerThread => exact absurd hs (hns (by simp) (by simp) hmode)
      cases hst
      cases k with
      | shutdown =>
        have hcut : (s.cut || decide (Kind.shutdown = .close)) = s.cut := Bool.or_false _
        refine ⟨h.late, fun hc => ⟨rfl, (h.cut (hcut ▸ hc)).2⟩,
          fun hc => ⟨hcut.trans (h.cleared hc).1, (h.cleared hc).2⟩,
          fun hc => hcut.trans (h.clearFrame hc), by simp [UPc.pastAcceptor],
          fun hm' => ?_, h.subPolls⟩
        simp [hm] at hm'
      | close =>
        have hp : s.pending = [] := hG hm (by simp [St.cutsNow, hs, hu])
        refine ⟨h.late, fun _ => ⟨rfl, hp⟩, fun hc => ⟨by simp, (h.cleared hc).2⟩,
          fun _ => by simp, fun _ => by simp, fun hm' => ?_, h.subPolls⟩
        simp [hm] at hm'
    · cases hst
      exact h.moveU rfl rfl rfl rfl h.cleared rfl (by simp) fun _ hs' => absurd hs' hs
  | clear k =>
    simp only [uStep, hu, Option.some.injEq] at hst
    subst hst
    rw [hu] at hns
    refine h.moveU rfl rfl rfl rfl (fun hc => ?_) rfl (by simp)
      fun hm hs => absurd hs (hns (by simp) (by simp) hm)
    rcases Bool.or_eq_true _ _ ▸ hc with hc | hk
    · exact ⟨(h.cleared hc).1, rfl⟩
    · cases of_decide_eq_true hk
      exact ⟨h.clearU hu, rfl⟩
  | post k | graceful =>
    simp only [uStep, hu, Option.some.injEq] at hst
    subst hst
    rw [hu] at hns
    exact h.moveU rfl rfl rfl rfl h.cleared rfl (by simp)
      fun hm hs => absurd hs (hns (by simp) (by simp) hm)
  | conns rest =>
    rw [hu] at hns
    cases rest with
    | nil | cons i rest =>
      simp only [uStep, hu, Option.some.injEq] at hst
      subst hst
      exact h.moveU rfl rfl rfl rfl h.cleared rfl (by simp)
        fun hm hs => absurd hs (hns (by simp) (by simp) hm)
  | polls =>
    simp only [uStep, hu, Option.some.injEq] at hst
    subst hst
    exact h.moveU rfl rfl rfl rfl h.cleared rfl (by simp) fun _ _ => .inl rfl
  | store =>
    simp only [uStep, hu, Option.some.injEq] at hst
    subst hst
    exact h.moveU rfl rfl rfl rfl h.cleared rfl (by simp) fun _ _ => .inr rfl

end Admitting

theorem admitting_step (h : Admitting cfg s) (hG : CutBetweenBatches cfg s a)
    (hst : step cfg s a = some s') : Admitting cfg s' := by
  cases step_cases hst with
  | poll hi he =>
    obtain rfl | rfl | rfl | rfl := he
    · exact h
    · exact h.setPhase rfl
    · exact h.setPhase rfl
    · exact (h.setTasks []).setPhase rfl
  | accept hctl hph hl hf =>
    -- a channel that is listening has not been shut down
    have hcut : s.cut ≠ true := fun hc => by
      have := (h.cut hc).1
      simp [hl] at this
    exact h.uncut hcut h.late rfl rfl rfl rfl rfl
  | acceptError hctl hph hf =>
    refine Admitting.pushUser (h.congr rfl rfl id id rfl id (fun _ => .inl) rfl rfl) ?_
    split <;> rfl
  | refused hctl hph =>
    refine Admitting.pushUser (h.uncut (h.not_cut hph) h.late rfl rfl rfl rfl rfl) ?_
    split <;> rfl
  | admitted hctl hph =>
    have hcut := h.not_cut hph
    refine Admitting.pushUser (h.uncut hcut ?_ rfl rfl rfl rfl rfl) ?_
    · simp [hcut, h.late]
    · split <;> rfl
  | dropped hctl hph => exact h.uncut (h.not_cut hph) h.late rfl rfl rfl rfl rfl
  | event hctl | send hu | callback hctl => exact h.pushUser rfl
  | dispatchDone hph => exact (h.setTasks []).setPhase rfl
  | pollError hctl hph => exact (h.setPhase rfl).pushUser rfl
  | fail hctl hc | connClose hu hc => exact h.of_cleanup hc
  | endUser hctl => exact h.pop hctl
  | phase hctl hn => exact h.of_nextPhase hn
  | frame hctl hn => exact h.of_nextFrame hctl hn
  | setOnClose hp => exact h.congr rfl rfl id id rfl id (fun _ => .inl) rfl rfl
  | close hm hu hc =>
    have h₁ := h.of_close (hG hm) hc hm
    split
    · exact h₁.returns
    · exact h₁
  | shutdown hu hs => exact h.of_shutdown hs
  | destroy hi hs => exact (h.of_shutdown hs).returns
  | postSend | postCleanup => exact h.setTasks _
  | tick | vShutdown | vIgnored | vThrows hs =>
    exact h.congr rfl rfl id id rfl id (fun _ => .inl) rfl rfl
  | uCloseStarted hu | uCloseStopping hu hs | uShutdown hm hu =>
    exact h.moveU rfl rfl rfl rfl h.cleared rfl nofun
      fun hm hs => absurd hs (h.not_shut (by simp [hu]) (by simp [hu]) hm)
  | uCloseStopped => exact h
  | uShutdownStopped hm => exact h
  | uNext hn => exact h.of_uStep hG hn
  | subCleanup hm => exact h.of_subCleanup
  | subServe hm hu =>
    rename_i i rest p
    have h₁ := h.of_subCleanup (i := i) (p := p)
    have hu₁ : (if p.cleanupDone then s else tearDown i p s).u = .waitConn i rest := by
      split <;> exact hu
    exact h₁.moveU rfl rfl rfl rfl h₁.cleared rfl nofun
      fun hm hs => absurd hs (h₁.not_shut (by simp [hu₁]) (by simp [hu₁]) hm)

/-! ### Results -/

theorem admitting_init (now : ℕ) : Admitting cfg (init now) := by
  constructor <;> simp [init]

/-- Handles 5 and 6 arrive together; both are admitted, and the callback of the second one calls
`close()`, which runs to its end. -/
def closeAtEnd : List Act :=
  [.poll, .accept [5, 6], .newConn true, .endUser, .newConn true, .close] ++ .replicate 8 .next

/-- Handles 5 and 6 arrive together; the callback of the first one calls `close()`, which runs to
its end, and the loop goes on. -/
def closeInBatch : List Act :=
  [.poll, .accept [5, 6], .newConn true, .close] ++ .replicate 6 .next ++ [.endUser, .newConn true]

end Loop

end Server

end CxpNet
