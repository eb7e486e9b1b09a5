import CxpNet.Server.Stop
import Mathlib.Data.Fintype.Basic
import Mathlib.Tactic.Tauto

/-!
# When a stop can wait forever

A thread that waits for a closure queued on `main_poll_` waits forever if `M` is blocked in
`join_exit_thread_`, or is outside `main_poll_->run()` with `started_` already false (`Stuck`).

At every moment one of three things holds (`Mode`): the server is up; exactly one agent is
stopping it, between its exchange of `started_` and its `main_poll_->shutdown()`; or it is down.
Only the stopping agent can wait for `main_poll_`, so it is enough that `M` is draining
`main_poll_` when the exchange is made, and that no `~Server` gets in between.

* `Stop.not_stuck_of_stopOk` : no state of a run within these conditions is stuck;
* `Stop.stuck_of_destroy_without_run` : `~Server` on `M` after `start()` without `run()` is.
-/

namespace CxpNet

namespace Server

namespace Stop

variable {T : Type}

/-! ### Stuck states -/

/-- The position inside `Acceptor::shutdown`, if the thread is there. -/
def ImplPc.acc : ImplPc T → Option AccPc
  | acceptor _ p => some p
  | _ => none

/-- The position of an agent inside `Acceptor::shutdown`. -/
def St.acc (s : St T) : Agent T → Option AccPc
  | .thread t =>
    match s.pc t with
    | .impl _ p => p.acc
    | .members p => some p
    | _ => none
  | .exit =>
    match s.exit with
    | .running p => p.acc
    | _ => none

/-- Some agent waits for a closure queued on `main_poll_`, and the only thread that could execute
it is blocked in `join_exit_thread_` or can no longer enter the loop. -/
def Stuck (M : T) (s : St T) : Prop :=
  (∃ w, s.acc w = some (.waiting false)) ∧
    (s.pc M = .joining ∨ (s.loop.drains = false ∧ s.started = false))

/-! ### One agent stops the server -/

/-- Before `main_poll_->shutdown()`. -/
def ImplPc.busy : ImplPc T → Bool
  | store | returned => false
  | _ => true

def Pc.busy : Pc T → Bool
  | won _ _ => true
  | impl _ p => p.busy
  | _ => false

def Exit.busy : Exit T → Bool
  | running p => p.busy
  | _ => false

/-- The agent has exchanged `started_` and has not yet shut `main_poll_`. -/
def St.busy (s : St T) : Agent T → Bool
  | .thread t => (s.pc t).busy
  | .exit => s.exit.busy

/-- The three phases of a server's life. -/
inductive Mode (s : St T) : Prop
  | up : s.started = true → s.mainShut = false → s.exit = .none → (∀ w, s.busy w = false) →
      s.loop ≠ .returned → Mode s
  | stopping (w : Agent T) : s.started = false → s.mainShut = false → s.loop.drains = true →
      s.busy w = true → (∀ v, s.busy v = true → v = w) → (w ≠ .exit → s.exit = .none) → Mode s
  | down : s.started = false → s.mainShut = true → (∀ w, s.busy w = false) → Mode s

/-- The thread is in `~Server`. -/
def Pc.inDtor : Pc T → Bool
  | loaded d | won _ d | impl d _ => d
  | join | joining | members _ | gone => true
  | idle => false

/-- The thread has seen `started_` false, or has cleared it itself. -/
def Pc.pastExchange : Pc T → Bool
  | won _ _ | impl _ _ | join | joining | members _ | gone => true
  | idle | loaded _ => false

/-- What is known of a thread in `~Server`. -/
structure Dtor (M : T) (s : St T) : Prop where
  main : (s.pc M).inDtor = true → s.loop.drains = false
  other : ∀ t, t ≠ M → (s.pc t).inDtor = true → s.destroying = true ∧
    (s.mainShut = true ∨ ∀ u, u ≠ t → s.pc u = .idle)
  stopped : ∀ t, (s.pc t).pastExchange = true → s.started = false
  members : ∀ t p, s.pc t = .members p → p = .enter ∧ (t ≠ M → s.mainShut = true)

structure Inv (M : T) (s : St T) : Prop where
  quiet : s.shuttingDown = false
  mode : Mode s
  dtor : Dtor M s

/-- A stop clears `started_` only while `M` drains `main_poll_`; `~Server` is not entered on `M`
inside the loop, nor on another thread while a stop that has not yet shut `main_poll_` is still
going on. -/
def StopOk (M : T) (s : St T) : Act T → Prop
  | .callClose _ | .exchange _ => s.started = true → s.loop.drains = true
  | .destroy t =>
    (t = M → s.loop.drains = false) ∧
      (t ≠ M → s.mainShut = true ∨ ∀ u, u ≠ t → s.pc u = .idle)
  | _ => True

instance [DecidableEq T] [Fintype T] (M : T) (s : St T) : ∀ a, Decidable (StopOk M s a)
  | .callClose _ | .exchange _ =>
    inferInstanceAs (Decidable (s.started = true → s.loop.drains = true))
  | .destroy t => inferInstanceAs (Decidable ((t = M → s.loop.drains = false) ∧
      (t ≠ M → s.mainShut = true ∨ ∀ u, u ≠ t → s.pc u = .idle)))
  | .run | .runEnter | .runMainTask | .leaveLoop | .callShutdown _ | .branch _ | .impl _ _
  | .join _ | .joined _ | .members _ | .runSubTask _ _ => .isTrue trivial

variable {M : T} {managed : T → Bool} {s s' s₁ : St T} {t : T} {q : Pc T}

@[simp] theorem busy_returnPc (d : Bool) : (returnPc d : Pc T).busy = false := by
  cases d <;> rfl

theorem inDtor_returnPc (d : Bool) : (returnPc d : Pc T).inDtor = d := by
  cases d <;> rfl

theorem returnPc_ne_members (d : Bool) (p : AccPc) : (returnPc d : Pc T) ≠ .members p := by
  cases d <;> simp [returnPc]

namespace Mode

/-- Steps that change nobody's part in a stop. -/
theorem congr (h : Mode s) (hst : s'.started = s.started) (hsh : s'.mainShut = s.mainShut)
    (hex : s.exit = .none → s'.exit = .none) (hb : ∀ w, s'.busy w = s.busy w)
    (hl : s.mainShut = false → s'.loop = s.loop ∨ s'.loop.drains = true) : Mode s' := by
  cases h with
  | up h1 h2 h3 h4 h5 =>
    refine .up (hst.trans h1) (hsh.trans h2) (hex h3) (fun w => (hb w).trans (h4 w)) ?_
    rcases hl h2 with he | hd
    · rwa [he]
    · rintro he
      simp [he, LoopPc.drains] at hd
  | stopping w h1 h2 h3 h4 h5 h6 =>
    refine .stopping w (hst.trans h1) (hsh.trans h2) ?_ ((hb w).trans h4)
      (fun v hv => h5 v (hb v ▸ hv)) (fun hw => hex (h6 hw))
    rcases hl h2 with he | hd
    · rwa [he]
    · exact hd
  | down h1 h2 h3 => exact .down (hst.trans h1) (hsh.trans h2) fun w => (hb w).trans (h3 w)

/-- Only a stopping server has a busy agent. -/
theorem of_busy {w : Agent T} (h : Mode s) (hw : s.busy w = true) :
    s.started = false ∧ s.mainShut = false ∧ s.loop.drains = true ∧
      (∀ v, s.busy v = true → v = w) ∧ (w ≠ .exit → s.exit = .none) := by
  cases h with
  | up _ _ _ h4 _ => simp [h4 w] at hw
  | stopping v h1 h2 h3 _ h5 h6 =>
    obtain rfl := h5 w hw
    exact ⟨h1, h2, h3, h5, h6⟩
  | down _ _ h3 => simp [h3 w] at hw

/-- `main_poll_->shutdown()` by the stopping agent. -/
theorem shut {w : Agent T} (h : Mode s) (hw : s.busy w = true) (hst : s'.started = s.started)
    (hsh : s'.mainShut = true) (hself : s'.busy w = false)
    (hb : ∀ v, v ≠ w → s'.busy v = s.busy v) : Mode s' := by
  obtain ⟨h1, -, -, huniq, -⟩ := h.of_busy hw
  refine .down (hst.trans h1) hsh fun v => ?_
  by_cases hv : v = w
  · rw [hv]; exact hself
  · rw [hb v hv]
    by_contra hne
    exact hv (huniq v (by simpa using hne))

end Mode

/-- Steps that move no thread. -/
theorem Dtor.frame (h : Dtor M s) (hpc : s'.pc = s.pc) (hst : s'.started = s.started)
    (hsh : s.mainShut = true → s'.mainShut = true) (hd : s'.destroying = s.destroying)
    (hl : s.pc M ≠ .idle → s.loop.drains = false → s'.loop.drains = false) : Dtor M s' where
  main hm := by
    rw [hpc] at hm
    exact hl (fun he => by simp [he, Pc.inDtor] at hm) (h.main hm)
  other t ht hin := by
    rw [hpc] at hin ⊢
    obtain ⟨h1, h2⟩ := h.other t ht hin
    exact ⟨hd.trans h1, h2.imp_left hsh⟩
  stopped t hp := by
    rw [hpc] at hp
    exact hst.trans (h.stopped t hp)
  members t p hp := by
    rw [hpc] at hp
    exact ⟨(h.members t p hp).1, fun ht => hsh ((h.members t p hp).2 ht)⟩

namespace Inv

theorem setTasks (h : Inv M s) (ts : List (Agent T)) : Inv M { s with tasks := ts } :=
  ⟨h.quiet, h.mode.congr rfl rfl id (fun _ => rfl) fun _ => .inl rfl,
    h.dtor.frame rfl rfl id rfl fun _ => id⟩

theorem setExitMutex (h : Inv M s) (m : Option T) : Inv M { s with exitMutex := m } :=
  ⟨h.quiet, h.mode.congr rfl rfl id (fun _ => rfl) fun _ => .inl rfl,
    h.dtor.frame rfl rfl id rfl fun _ => id⟩

/-- `M` moves in `Server::run`. -/
theorem setLoop {l : LoopPc} (h : Inv M s)
    (hl : s.mainShut = false → l = s.loop ∨ l.drains = true)
    (hd : s.pc M ≠ .idle → s.loop.drains = false → l.drains = false) :
    Inv M { s with loop := l } :=
  ⟨h.quiet, h.mode.congr rfl rfl id (fun _ => rfl) hl, h.dtor.frame rfl rfl id rfl hd⟩

/-- The exit thread moves without changing its part in a stop. -/
theorem setExit {e : Exit T} (h : Inv M s) (hne : s.exit ≠ .none) (hb : e.busy = s.exit.busy) :
    Inv M { s with exit := e } := by
  refine ⟨h.quiet, h.mode.congr rfl rfl (fun hn => absurd hn hne) (fun v => ?_) fun _ => .inl rfl,
    h.dtor.frame rfl rfl id rfl fun _ => id⟩
  cases v with
  | thread u => rfl
  | exit => exact hb

/-- A thread in `~Server` that finds no exit thread to wait for finds `main_poll_` shut. -/
theorem mainShut_of_no_exit (h : Inv M s) (ht : t ≠ M) (hin : (s.pc t).inDtor = true)
    (hpast : (s.pc t).pastExchange = true) (hself : (s.pc t).busy = false)
    (hex : s.exit.busy = false) : s.mainShut = true := by
  cases h.mode with
  | up h1 => simp [h.dtor.stopped t hpast] at h1
  | down _ h2 => exact h2
  | stopping w _ h2 _ h4 =>
    cases w with
    | exit => simp [St.busy, hex] at h4
    | thread u =>
      have hu : u ≠ t := by
        rintro rfl
        simp [St.busy, hself] at h4
      rcases (h.dtor.other t ht hin).2 with hm | hi
      · exact hm
      · simp [St.busy, hi u hu, Pc.busy] at h4

/-- Only the agent that is stopping the server waits for `main_poll_`. -/
theorem drains_of_waiting {w : Agent T} (h : Inv M s)
    (hw : s.acc w = some (.waiting false)) : s.loop.drains = true := by
  have key : ∀ {p : ImplPc T}, p.acc = some (.waiting false) → p.busy = true := by
    intro p hp
    cases p <;> simp_all [ImplPc.acc, ImplPc.busy]
  cases w with
  | thread t =>
    simp only [St.acc] at hw
    split at hw
    · rename_i d p hp
      refine (h.mode.of_busy (w := .thread t) ?_).2.2.1
      rw [St.busy, hp]
      exact key hw
    · rename_i p hp
      cases hw
      cases (h.dtor.members t _ hp).1
    · cases hw
  | exit =>
    simp only [St.acc] at hw
    split at hw
    · rename_i p hp
      refine (h.mode.of_busy (w := .exit) ?_).2.2.1
      rw [St.busy, hp]
      exact key hw
    · cases hw

end Inv

section

variable [DecidableEq T]

@[simp] theorem pc_setPc (t : T) (q : Pc T) (s : St T) (u : T) :
    (setPc t q s).pc u = if u = t then q else s.pc u := by
  simp only [setPc, Function.update_apply]

@[simp] theorem busy_setPc (t : T) (q : Pc T) (s : St T) (w : Agent T) :
    (setPc t q s).busy w = if w = .thread t then q.busy else s.busy w := by
  cases w with
  | thread u => by_cases h : u = t <;> simp [St.busy, h]
  | exit => simp [St.busy, setPc]

/-- What one step of `shutdown_impl_` or `close_impl_` does. -/
theorem implStep_cases {w : Agent T} {ps : List T} {p : ImplPc T} {r : St T × ImplPc T}
    (h : implStep M managed w ps s p = some r) :
    (p.busy = true ∧ r.2.busy = true ∧ ∃ ts, r.1 = { s with tasks := ts }) ∨
      (p = .polls ∧ r = ({ s with mainShut := true }, .store)) ∨
      (p = .store ∧ r = ({ s with shuttingDown := false }, .returned)) := by
  cases p with
  | acceptor k p =>
    obtain ⟨r', hr, rfl⟩ := Option.map_eq_some_iff.1 h
    refine .inl ⟨rfl, by dsimp only; split <;> rfl, ?_⟩
    cases p with
    | enter =>
      simp only [accStep] at hr
      split_ifs at hr <;> cases hr <;> exact ⟨s.tasks, rfl⟩
    | queueing => cases hr; exact ⟨_, rfl⟩
    | waiting d =>
      cases d with
      | true => cases hr; exact ⟨s.tasks, rfl⟩
      | false => cases hr
  | snapshot force =>
    simp only [implStep] at h
    split_ifs at h
    cases h
    exact .inl ⟨rfl, rfl, s.tasks, rfl⟩
  | conns force rest =>
    cases rest with
    | nil =>
      cases h
      exact .inl ⟨rfl, by cases force <;> rfl, s.tasks, rfl⟩
    | cons p rest =>
      cases h
      refine .inl ⟨rfl, ?_, s.tasks, rfl⟩
      dsimp only
      split_ifs <;> rfl
  | connWait force p d rest =>
    cases d with
    | true => cases h; exact .inl ⟨rfl, rfl, s.tasks, rfl⟩
    | false => cases h
  | polls => cases h; exact .inr (.inl ⟨rfl, rfl⟩)
  | store => cases h; exact .inr (.inr ⟨rfl, rfl⟩)
  | returned => cases h

/-- The exchange of `started_`. -/
theorem Mode.win (h : Mode s) (hst : s.started = true) (hl : s.loop.drains = true) (k : Kind)
    (d : Bool) : Mode (setPc t (.won k d) { s with started := false }) := by
  cases h with
  | up _ h2 h3 h4 _ =>
    refine .stopping (.thread t) rfl h2 hl (by simp [Pc.busy]) (fun v hv => ?_) fun _ => h3
    by_contra hne
    rw [busy_setPc, if_neg hne] at hv
    have hv' : s.busy v = true := hv
    simp [h4 v] at hv'
  | stopping _ h1 | down h1 => simp [h1] at hst

/-- Steps that move one thread, which is in a call already or may begin one. -/
theorem Dtor.setPc (h : Dtor M s) (hpc : s₁.pc = s.pc)
    (hst : s.started = false → s₁.started = false) (hsh : s.mainShut = true → s₁.mainShut = true)
    (hl : s₁.loop = s.loop) (hd : s₁.destroying = s.destroying)
    (hen : s.destroying = false ∨ s.pc t ≠ .idle)
    (hin : q.inDtor = true → (s.pc t).inDtor = true)
    (hpast : q.pastExchange = true → s₁.started = false)
    (hmem : ∀ p, q = .members p → p = .enter ∧ (t ≠ M → s₁.mainShut = true)) :
    Dtor M (Stop.setPc t q s₁) where
  main hm := by
    rw [pc_setPc, hpc] at hm
    refine (congrArg LoopPc.drains hl).trans (h.main ?_)
    split_ifs at hm with he
    · rw [he]; exact hin hm
    · exact hm
  other u hu hin' := by
    rw [pc_setPc, hpc] at hin'
    by_cases he : u = t
    · subst he
      rw [if_pos rfl] at hin'
      obtain ⟨h1, h2⟩ := h.other u hu (hin hin')
      refine ⟨hd.trans h1, h2.imp hsh fun hi v hv => ?_⟩
      rw [pc_setPc, if_neg hv, hpc]
      exact hi v hv
    · rw [if_neg he] at hin'
      obtain ⟨h1, h2⟩ := h.other u hu hin'
      refine ⟨hd.trans h1, .inl (hsh (h2.resolve_right fun hi => ?_))⟩
      rcases hen with hen | hen
      · simp [hen] at h1
      · exact hen (hi t (Ne.symm he))
  stopped u hp := by
    rw [pc_setPc, hpc] at hp
    split_ifs at hp with he
    · exact hpast hp
    · exact hst (h.stopped u hp)
  members u p hp := by
    rw [pc_setPc, hpc] at hp
    split_ifs at hp with he
    · subst he; exact hmem p hp
    · exact ⟨(h.members u p hp).1, fun hu => hsh ((h.members u p hp).2 hu)⟩

/-- A thread moves without changing its part in a stop. -/
theorem Mode.setPc (h : Mode s) (hb : q.busy = (s.pc t).busy) : Mode (Stop.setPc t q s) := by
  refine h.congr rfl rfl id (fun w => ?_) fun _ => .inl rfl
  rw [busy_setPc]
  split_ifs with hw
  · rw [hw]; exact hb
  · rfl

/-- The stopping thread hands over to the exit thread. -/
theorem Mode.spawn {p : ImplPc T} (h : Mode s) (hw : s.busy (.thread t) = true)
    (hq : q.busy = false) (hp : p.busy = true) :
    Mode (Stop.setPc t q { s with exit := .running p }) := by
  obtain ⟨h1, h2, h3, huniq, -⟩ := h.of_busy hw
  refine .stopping .exit h1 h2 h3 hp (fun v hv => ?_) fun hne => absurd rfl hne
  cases v with
  | exit => rfl
  | thread u =>
    rw [busy_setPc] at hv
    split_ifs at hv with he
    · simp [hq] at hv
    · exact absurd (huniq (.thread u) hv) he

/-- `~Server` begins. -/
theorem Dtor.destroy (h : Dtor M s) (hlive : s.destroying = false)
    (hG : StopOk M s (.destroy t)) : Dtor M (loadStarted t true { s with destroying := true }) := by
  have key : ∀ q : Pc T, (q.pastExchange = true → s.started = false) → (∀ p, q ≠ .members p) →
      Dtor M (Stop.setPc t q { s with destroying := true }) := by
    intro q hpast hmem
    refine ⟨fun hm => ?_, fun u hu hin => ?_, fun u hp => ?_, fun u p hp => ?_⟩
    · rw [pc_setPc] at hm
      split_ifs at hm with he
      · exact hG.1 he.symm
      · exact h.main hm
    · rw [pc_setPc] at hin
      split_ifs at hin with he
      · subst he
        refine ⟨rfl, (hG.2 hu).imp_right fun hi v hv => ?_⟩
        rw [pc_setPc, if_neg hv]
        exact hi v hv
      · simp [(h.other u hu hin).1] at hlive
    · rw [pc_setPc] at hp
      split_ifs at hp
      · exact hpast hp
      · exact h.stopped u hp
    · rw [pc_setPc] at hp
      split_ifs at hp
      · exact absurd hp (hmem p)
      · exact h.members u p hp
  unfold loadStarted
  split_ifs with hs
  · exact key _ (fun _ => hs.1) (returnPc_ne_members _)
  · exact key _ nofun nofun

namespace Inv

/-- A thread moves inside a call. -/
theorem setPc (h : Inv M s) (hb : q.busy = (s.pc t).busy)
    (hen : s.destroying = false ∨ s.pc t ≠ .idle)
    (hin : q.inDtor = true → (s.pc t).inDtor = true)
    (hpast : q.pastExchange = true → s.started = false)
    (hmem : ∀ p, q = .members p → p = .enter ∧ (t ≠ M → s.mainShut = true)) :
    Inv M (Stop.setPc t q s) :=
  ⟨h.quiet, h.mode.setPc hb, h.dtor.setPc rfl id id rfl rfl hen hin hpast hmem⟩

/-- A thread that is past the exchange of `started_` moves. -/
theorem advance {p : Pc T} (h : Inv M s) (hp : s.pc t = p) (hpast : p.pastExchange = true)
    (hb : q.busy = p.busy) (hin : q.inDtor = true → p.inDtor = true)
    (hmem : ∀ m, q = .members m → m = .enter ∧ (t ≠ M → s.mainShut = true)) :
    Inv M (Stop.setPc t q s) := by
  subst hp
  refine h.setPc hb (.inr fun hidle => ?_) hin (fun _ => h.dtor.stopped t hpast) hmem
  simp [hidle, Pc.pastExchange] at hpast

/-- A thread in `~Server` that finds no exit thread to wait for goes on to the members. -/
theorem toMembers {p : Pc T} (h : Inv M s) (hp : s.pc t = p) (hjoin : p = .join ∨ p = .joining)
    (hex : s.exit.busy = false) : Inv M (Stop.setPc t (.members .enter) s) := by
  have hpast : p.pastExchange = true := by rcases hjoin with rfl | rfl <;> rfl
  have hself : p.busy = false := by rcases hjoin with rfl | rfl <;> rfl
  have hin : p.inDtor = true := by rcases hjoin with rfl | rfl <;> rfl
  refine h.advance hp hpast (by rw [hself]; rfl) (fun _ => hin) ?_
  rintro m ⟨⟩
  subst hp
  exact ⟨rfl, fun ht => h.mainShut_of_no_exit ht hin hpast hself hex⟩

/-- A promise set by `M` changes nobody's part in the stop. -/
theorem signal (h : Inv M s) (w : Agent T) : Inv M (signal w s) := by
  cases w with
  | thread t =>
    simp only [Stop.signal]
    split
    · rename_i d k hp
      exact h.advance hp rfl rfl id nofun
    · rename_i hp
      cases (h.dtor.members t _ hp).1
    · exact h
  | exit =>
    simp only [Stop.signal]
    split
    · rename_i k hp
      exact h.setExit (by simp [hp]) (by rw [hp]; rfl)
    · exact h

theorem signalSub {p : T} {w : Agent T} (h : Inv M s) (hst : signalSub p w s = some s') :
    Inv M s' := by
  cases w with
  | thread t =>
    simp only [Stop.signalSub] at hst
    split at hst
    · rename_i d f q rest hp
      split_ifs at hst
      cases hst
      exact h.advance hp rfl rfl id nofun
    · cases hst
  | exit =>
    simp only [Stop.signalSub] at hst
    split at hst
    · rename_i f q rest hp
      split_ifs at hst
      cases hst
      exact h.setExit (by simp [hp]) (by rw [hp]; rfl)
    · cases hst

/-- The exchange of `started_` returns true. -/
theorem win (h : Inv M s) (hst : s.started = true) (hl : s.loop.drains = true) {k : Kind} {d : Bool}
    (hen : s.destroying = false ∨ s.pc t ≠ .idle) (hin : d = true → (s.pc t).inDtor = true) :
    Inv M (Stop.setPc t (.won k d) { s with started := false }) :=
  ⟨h.quiet, h.mode.win hst hl k d,
    h.dtor.setPc rfl (fun _ => rfl) id rfl rfl hen hin (fun _ => rfl) nofun⟩

/-- The winner of the exchange hands the stop over to the exit thread. -/
theorem spawn {k : Kind} {d : Bool} {p : ImplPc T} (h : Inv M s) (hp : s.pc t = .won k d)
    (hbusy : p.busy = true) :
    Inv M (Stop.setPc t (returnPc d) { s with exit := .running p }) := by
  have hen : s.pc t ≠ .idle := by simp [hp]
  have hstop : s.started = false := h.dtor.stopped t (by rw [hp]; rfl)
  refine ⟨h.quiet, h.mode.spawn (by rw [St.busy, hp]; rfl) (busy_returnPc d) hbusy, ?_⟩
  refine h.dtor.setPc rfl id id rfl rfl (.inr hen) ?_ (fun _ => hstop)
    fun m hm => absurd hm (returnPc_ne_members d m)
  rw [inDtor_returnPc, hp]
  exact id

end Inv

theorem inv_init : Inv M (init : St T) := by
  refine ⟨rfl, .up rfl rfl rfl (fun w => ?_) nofun, ?_⟩
  · cases w <;> rfl
  · constructor <;> simp [init, Pc.inDtor, Pc.pastExchange]

theorem canCall_iff : canCall M t s = true ↔
    s.pc t = .idle ∧ s.destroying = false ∧ ¬ (t = M ∧ s.loop = .checked) := by
  simp [canCall, and_assoc, imp_iff_not_or]

/-- A step of `shutdown_impl_` or `close_impl_` keeps the invariant. -/
theorem Inv.implThread {ps : List T} (h : Inv M s) {d : Bool} {p : ImplPc T}
    (hp : s.pc t = .impl d p) {r : St T × ImplPc T}
    (hr : implStep M managed (.thread t) ps s p = some r) :
    Inv M (Stop.setPc t (if r.2 = .returned then returnPc d else .impl d r.2) r.1) := by
  have hstop : s.started = false := h.dtor.stopped t (by rw [hp]; rfl)
  have hen : s.pc t ≠ .idle := by simp [hp]
  rcases implStep_cases hr with ⟨hb, hb', ts, hts⟩ | ⟨rfl, rfl⟩ | ⟨rfl, rfl⟩
  · have hne : r.2 ≠ .returned := fun he => by simp [he, ImplPc.busy] at hb'
    rw [if_neg hne, hts]
    refine (h.setTasks ts).setPc ?_ (.inr hen) ?_ (fun _ => hstop) nofun
    · exact hb'.trans (by simp [hp, Pc.busy, hb])
    · simp [hp, Pc.inDtor]
  · rw [if_neg (by simp)]
    have hbusy : s.busy (.thread t) = true := by simp [St.busy, hp, Pc.busy, ImplPc.busy]
    refine ⟨h.quiet, h.mode.shut hbusy rfl rfl ?_ fun v hv => ?_, ?_⟩
    · simp [Pc.busy, ImplPc.busy]
    · rw [busy_setPc, if_neg hv]
      rfl
    · exact h.dtor.setPc rfl id (fun _ => rfl) rfl rfl (.inr hen) (by simp [hp, Pc.inDtor])
        (fun _ => hstop) nofun
  · rw [if_pos rfl]
    refine ⟨rfl, Mode.setPc (s := { s with shuttingDown := false }) ?_ ?_, ?_⟩
    · exact h.mode.congr rfl rfl id (fun _ => rfl) fun _ => .inl rfl
    · rw [busy_returnPc, hp]
      rfl
    · exact h.dtor.setPc rfl id id rfl rfl (.inr hen) (by rw [inDtor_returnPc, hp]; exact id)
        (fun _ => hstop) fun p' hp' => absurd hp' (returnPc_ne_members d p')

theorem Inv.implExit {ps : List T} (h : Inv M s) {p : ImplPc T} (hp : s.exit = .running p)
    {r : St T × ImplPc T} (hr : implStep M managed .exit ps s p = some r) :
    Inv M { r.1 with exit := if r.2 = .returned then .ended else .running r.2 } := by
  have hne : s.exit ≠ .none := by simp [hp]
  rcases implStep_cases hr with ⟨hb, hb', ts, hts⟩ | ⟨rfl, rfl⟩ | ⟨rfl, rfl⟩
  · have hret : r.2 ≠ .returned := fun he => by simp [he, ImplPc.busy] at hb'
    rw [if_neg hret, hts]
    exact (h.setTasks ts).setExit hne (hb'.trans (by simp [hp, Exit.busy, hb]))
  · rw [if_neg (by simp)]
    have hbusy : s.busy .exit = true := by simp [St.busy, hp, Exit.busy, ImplPc.busy]
    refine ⟨h.quiet, h.mode.shut hbusy rfl rfl rfl fun v hv => ?_,
      h.dtor.frame rfl rfl (fun _ => rfl) rfl fun _ => id⟩
    cases v with
    | thread u => rfl
    | exit => exact absurd rfl hv
  · rw [if_pos rfl]
    have h' : Inv M { s with shuttingDown := false } :=
      ⟨rfl, h.mode.congr rfl rfl id (fun _ => rfl) fun _ => .inl rfl,
        h.dtor.frame rfl rfl id rfl fun _ => id⟩
    exact h'.setExit hne (by rw [hp]; rfl)

theorem inv_step {a : Act T} (h : Inv M s) (hG : StopOk M s a)
    (hst : step M managed s a = some s') : Inv M s' := by
  cases a with
  | run =>
    simp only [step] at hst
    split_ifs at hst with hc hs
    · cases hst
      exact h.setLoop (fun _ => .inr rfl) fun hne => absurd hc.1 hne
    · cases hst; exact h
  | runEnter =>
    simp only [step] at hst
    split_ifs at hst with hc
    cases hst
    exact h.setLoop (fun _ => .inr rfl) fun _ hd => by simp [hc, LoopPc.drains] at hd
  | runMainTask =>
    simp only [step] at hst
    split_ifs at hst
    split at hst
    · cases hst
      exact (h.setTasks _).signal _
    · cases hst
  | leaveLoop =>
    simp only [step] at hst
    split_ifs at hst with hc
    cases hst
    exact h.setLoop (fun hm => by simp [hc] at hm) fun _ _ => rfl
  | callShutdown t =>
    simp only [step] at hst
    split_ifs at hst with hc
    cases hst
    obtain ⟨hidle, hlive, -⟩ := canCall_iff.1 hc
    unfold loadStarted
    split_ifs
    · exact h.setPc (by rw [hidle]; rfl) (.inl hlive) (fun hd => by cases hd)
        (fun hp => by cases hp) fun _ hp => by cases hp
    · exact h.setPc (by rw [hidle]; rfl) (.inl hlive) (fun hd => by cases hd)
        (fun hp => by cases hp) fun _ hp => by cases hp
  | callClose t =>
    simp only [step] at hst
    split_ifs at hst with hc hs hsd
    · cases hst
      exact h.win hs (hG hs) (.inl (canCall_iff.1 hc).2.1) (by simp)
    · -- `shutting_down_` is not set in this mode
      simp [h.quiet] at hsd
    · cases hst; exact h
  | destroy t =>
    simp only [step] at hst
    split_ifs at hst with hc
    cases hst
    obtain ⟨hidle, hlive, -⟩ := canCall_iff.1 hc
    have hmode : Mode { s with destroying := true } :=
      h.mode.congr rfl rfl id (fun _ => rfl) fun _ => .inl rfl
    have hdtor := h.dtor.destroy hlive hG
    unfold loadStarted at hdtor ⊢
    split_ifs at hdtor ⊢
    · exact ⟨h.quiet, hmode.setPc (by rw [hidle]; rfl), hdtor⟩
    · exact ⟨h.quiet, hmode.setPc (by rw [hidle]; rfl), hdtor⟩
  | exchange t =>
    simp only [step] at hst
    split at hst
    · rename_i d hp
      have hen : s.pc t ≠ .idle := by simp [hp]
      split_ifs at hst with hs
      · cases hst
        exact h.win hs (hG hs) (.inr hen) (by rw [hp]; exact id)
      · cases hst
        refine h.setPc (by rw [hp, busy_returnPc]; rfl) (.inr hen) ?_ (fun _ => by simpa using hs)
          fun p hp' => absurd hp' (returnPc_ne_members d p)
        rw [inDtor_returnPc, hp]
        exact id
    · cases hst
  | branch t =>
    simp only [step] at hst
    split at hst
    · rename_i k d hp
      split_ifs at hst with hm
      · split at hst
        · cases hst
        · cases hst
        · cases hst
          exact h.spawn hp rfl
      · cases hst
        exact h.advance hp rfl rfl id (by simp)
    · cases hst
  | impl w ps =>
    cases w with
    | thread t =>
      simp only [step] at hst
      split at hst
      · rename_i d p hp
        obtain ⟨r, hr, rfl⟩ := Option.map_eq_some_iff.1 hst
        exact h.implThread hp hr
      · cases hst
    | exit =>
      simp only [step] at hst
      split at hst
      · rename_i p hp
        obtain ⟨r, hr, rfl⟩ := Option.map_eq_some_iff.1 hst
        exact h.implExit hp hr
      · cases hst
  | join t =>
    simp only [step] at hst
    split_ifs at hst with hc
    obtain ⟨hp, -⟩ := hc
    split at hst
    · rename_i hex
      cases hst
      exact h.toMembers hp (.inl rfl) (by rw [hex]; rfl)
    · rename_i hex
      cases hst
      exact h.toMembers hp (.inl rfl) (by rw [hex]; rfl)
    all_goals
      cases hst
      exact (h.setExitMutex (some t)).advance hp rfl rfl id (by simp)
  | joined t =>
    simp only [step] at hst
    split_ifs at hst with hc
    obtain ⟨hp, hex⟩ := hc
    cases hst
    have h' : Inv M { s with exit := .joined } := h.setExit (by simp [hex]) (by rw [hex]; rfl)
    exact (h'.setExitMutex none).toMembers hp (.inr rfl) rfl
  | members t =>
    simp only [step] at hst
    split at hst
    · rename_i p hp
      obtain ⟨rfl, hshut⟩ := h.dtor.members t p hp
      have hret : (Agent.thread t).isMain M = true ∨ s.mainShut = true := by
        by_cases ht : t = M
        · simp [Agent.isMain, ht]
        · exact .inr (hshut ht)
      simp only [accStep, if_pos hret, Option.map_some, Option.some.injEq] at hst
      subst hst
      exact h.advance hp rfl rfl id (by simp)
    · cases hst
  | runSubTask p w =>
    simp only [step] at hst
    split_ifs at hst
    exact h.signalSub hst

/-! ### Results -/

/-- **A stop never waits forever for `main_poll_`** in a run in which `started_` is cleared only
while `M` drains `main_poll_`, and `~Server` is entered neither on `M` inside the loop nor on
another thread while a stop that has not yet shut `main_poll_` is going on. -/
theorem not_stuck_of_stopOk (h : (machine M managed).ReachIf (StopOk M) init s) :
    ¬ Stuck M s := by
  have hi : Inv M s := h.invariant inv_init fun _ _ _ hi hG hst => inv_step hi hG hst
  rintro ⟨⟨w, hw⟩, hmain⟩
  have hd := hi.drains_of_waiting hw
  rcases hmain with hj | ⟨hd', -⟩
  · have hd' := hi.dtor.main (by rw [hj]; rfl)
    simp [hd] at hd'
  · simp [hd] at hd'

end

/-- Thread 0 enters `run()`; thread 1, not one of the server's, calls `shutdown()` and waits for
the loop of thread 0. -/
theorem not_stuck_of_stopOk_otherThread :
    ∃ s, (machine (0 : Fin 3) fun t => t = 2).ReachIf (StopOk 0) init s ∧
      s.acc (.thread 1) = some (.waiting false) ∧ ¬ Stuck 0 s := by
  have hr : (machine (0 : Fin 3) fun t => t = 2).ReachIf (StopOk 0) init _ :=
    .of_exec [.run, .runEnter, .callShutdown 1, .exchange 1, .branch 1, .impl (.thread 1) [],
      .impl (.thread 1) []] rfl (by decide)
  exact ⟨_, hr, rfl, not_stuck_of_stopOk hr⟩

/-- Thread 0 starts the server and destroys it without calling `run()`: the exit thread waits for
the loop of thread 0, and thread 0 for the exit thread. -/
theorem stuck_of_destroy_without_run :
    ∃ s, (machine (0 : Fin 3) fun t => t = 2).Reach init s ∧ s.pc 0 = .joining ∧
      s.acc .exit = some (.waiting false) ∧ Stuck 0 s := by
  have hr : (machine (0 : Fin 3) fun t => t = 2).Reach init _ :=
    .of_exec [.destroy 0, .exchange 0, .branch 0, .join 0, .impl .exit [], .impl .exit []] rfl
  exact ⟨_, hr, rfl, rfl, ⟨.exit, rfl⟩, .inl rfl⟩

end Stop

end Server

end CxpNet
