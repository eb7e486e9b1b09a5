import CxpNet.Conn.Spec
import Mathlib.Tactic.Tauto

/-!
# The life of a connection

`Life s` says where in its life a one-shot connection stands, and what is known of it there:

* `fresh`, `queued` : nothing has happened; in `queued` the closure that will start it or connect
  it is at the head of the poll's queue;
* `connecting` : an asynchronous connect is under way;
* `dead` : it will never be started;
* `up`, `closing`, `down` : `start_` has taken effect, and the state is `kConnected`,
  `kDisconnecting`, or `kDisconnected` for good.

The functions that close, start or connect the connection move along this list; every other step
leaves the connection where it is (`Idles`).
-/

namespace CxpNet

namespace Conn

/-! ### What the log says -/

/-- The states a connection has moved to. -/
def moves (l : List Ev) : List State :=
  l.filterMap fun e => match e with
    | .moved st => some st
    | _ => none

/-- The events of a cleanup: the established channel is deregistered, the socket closed, the
internal close callback called, the user's close callback called. -/
def Ev.isClosing : Ev → Bool
  | .closeHandle _ | .deregistered .established | .internalClose | .called (.close _) => true
  | _ => false

def closings (l : List Ev) : List Ev := l.filter Ev.isClosing

/-- The outcomes of a connect. -/
def Ev.isOutcome : Ev → Bool
  | .called .connected | .called (.connectError _) => true
  | _ => false

def outcomes (l : List Ev) : List Ev := l.filter Ev.isOutcome

/-- Bytes are transferred, the message callback is called, or the state moves. -/
def Ev.isActive : Ev → Bool
  | .sent _ | .received _ | .called .message | .moved _ => true
  | _ => false

/-- Nothing active comes after a move to `kDisconnected`. -/
def QuietAfter (l : List Ev) : Prop :=
  l.Pairwise fun a b => a = .moved .kDisconnected → b.isActive = false

/-- An event that says nothing about the life of the connection. -/
def Ev.isPlain : Ev → Bool
  | .moved _ => false
  | e => !e.isClosing && !e.isOutcome

@[simp] theorem moves_append (l₁ l₂ : List Ev) : moves (l₁ ++ l₂) = moves l₁ ++ moves l₂ :=
  List.filterMap_append

@[simp] theorem closings_append (l₁ l₂ : List Ev) :
    closings (l₁ ++ l₂) = closings l₁ ++ closings l₂ :=
  List.filter_append ..

@[simp] theorem outcomes_append (l₁ l₂ : List Ev) :
    outcomes (l₁ ++ l₂) = outcomes l₁ ++ outcomes l₂ :=
  List.filter_append ..

theorem mem_moves {l : List Ev} {st : State} : st ∈ moves l ↔ .moved st ∈ l := by
  simp only [moves, List.mem_filterMap]
  constructor
  · rintro ⟨e, he, h⟩
    split at h
    · cases h; exact he
    · cases h
  · exact fun h => ⟨_, h, rfl⟩

section

variable {l : List Ev}

theorem moves_of_plain (h : ∀ e ∈ l, e.isPlain = true) : moves l = [] := by
  rw [moves, List.filterMap_eq_nil_iff]
  intro e he
  have := h e he
  cases e <;> simp_all [Ev.isPlain]

theorem closings_of_plain (h : ∀ e ∈ l, e.isPlain = true) : closings l = [] := by
  rw [closings, List.filter_eq_nil_iff]
  intro e he hc
  have := h e he
  cases e <;> simp_all [Ev.isPlain]

theorem outcomes_of_plain (h : ∀ e ∈ l, e.isPlain = true) : outcomes l = [] := by
  rw [outcomes, List.filter_eq_nil_iff]
  intro e he hc
  have := h e he
  cases e <;> simp_all [Ev.isPlain]

theorem quietAfter_of_open (h : .kDisconnected ∉ moves l) : QuietAfter l := by
  refine List.pairwise_of_forall_mem_list fun a ha b _ he => absurd (mem_moves.2 ?_) h
  exact he ▸ ha

theorem QuietAfter.append {l' : List Ev} (h : QuietAfter l)
    (hl : ∀ e ∈ l', e.isActive = false) : QuietAfter (l ++ l') := by
  rw [QuietAfter, List.pairwise_append]
  refine ⟨h, ?_, fun a _ b hb _ => hl b hb⟩
  exact List.pairwise_of_forall_mem_list fun a _ b hb _ => hl b hb

end

/-! ### Where a connection stands -/

/-- The closure starts or connects the connection. -/
def Task.isSetup : Task → Bool
  | .start _ | .connect => true
  | _ => false

def setups (ts : List Task) : List Task := ts.filter Task.isSetup

@[simp] theorem setups_append (ts ts' : List Task) :
    setups (ts ++ ts') = setups ts ++ setups ts' :=
  List.filter_append ..

/-- Such a frame may be in progress before `start_` has taken effect. -/
def Frame.isQuiet : Frame → Bool
  | .user _ | .afterClose => true
  | _ => false

def Quiet (ctl : List Frame) : Prop := ∀ f ∈ ctl, f.isQuiet = true

/-- The events that are to be dispatched are those of a channel of this role. -/
def Delivers (role : Role) (d : Option (Role × Events)) : Prop := ∀ x ∈ d, x.1 = role

/-- `start_` has not taken effect: the channel can only be that of a connect. -/
structure Waiting (s : St) : Prop where
  channel : ∀ c ∈ s.channel, c.role = .connecting
  delivered : Delivers .connecting s.delivered
  quiet : Quiet s.ctl

/-- Nothing has happened yet. -/
structure Pristine (s : St) : Prop where
  state : s.state = .kDisconnected
  channel : s.channel = none
  cleanupDone : s.cleanupDone = false
  timer : s.closeTimerId = 0
  scheduled : s.scheduled = []
  extracted : s.extracted = []
  delivered : s.delivered = none
  quiet : Quiet s.ctl
  moves : moves s.log = []
  closings : closings s.log = []
  outcomes : outcomes s.log = []

/-- The channel that `start_` makes, with or without write interest. -/
def IsOpen (ch : Option Channel) : Prop :=
  ∃ c, ch = some c ∧ c.role = .established ∧ c.reading = true ∧ c.registered = true

/-- `start_` has taken effect and `cleanup_` has not begun; `pre` is where the connection was
before. -/
structure Open (s : St) (pre : List State) : Prop where
  used : s.used = true
  handle : s.handle ≠ none
  channel : IsOpen s.channel
  readBuffer : s.readBuffer.isSome = true
  writeBuffer : s.writeBuffer.isSome = true
  cleanupDone : s.cleanupDone = false
  delivered : Delivers .established s.delivered
  setups : setups s.tasks = []
  pre : pre = [] ∨ pre = [.kConnecting]
  closings : closings s.log = []
  outcomes : (outcomes s.log).length ≤ 1

/-- The events of one complete cleanup. -/
def IsCleanup (l : List Ev) : Prop :=
  ∃ h i c, l = [.deregistered .established, .closeHandle h] ++ i ++ c ∧
    (i = [] ∨ i = [.internalClose]) ∧ (c = [] ∨ ∃ err, c = [.called (.close err)])

/-- Where a one-shot connection stands in its life. -/
inductive Life (s : St) : Prop
  | fresh : Pristine s → s.used = false → s.handle = none → s.server = false → s.tasks = [] →
      Life s
  | queued (t : Task) (rest : List Task) : Pristine s → s.used = true → s.tasks = t :: rest →
      setups rest = [] → ((∃ b, t = .start b) ∧ s.handle ≠ none ∨ t = .connect) → Life s
  | connecting (c : Channel) : Waiting s → s.used = true → s.state = .kConnecting →
      s.handle ≠ none →
      s.channel = some c → c.role = .connecting → s.cleanupDone = false → s.closeTimerId = 0 →
      setups s.tasks = [] → moves s.log = [.kConnecting] → closings s.log = [] →
      outcomes s.log = [] → Life s
  | dead : Waiting s → s.used = true → s.state ≠ .kConnected → s.state ≠ .kConnecting →
      setups s.tasks = [] → .kConnected ∉ moves s.log → (outcomes s.log).length ≤ 1 → Life s
  | up (pre : List State) : Open s pre → s.state = .kConnected → s.closeTimerId = 0 →
      moves s.log = pre ++ [.kConnected] → Life s
  | closing (pre : List State) : Open s pre → s.state = .kDisconnecting →
      moves s.log = pre ++ [.kConnected, .kDisconnecting] → Life s
  | down (pre : List State) : s.used = true → s.state = .kDisconnected → s.handle = none →
      s.closeTimerId = 0 → s.cleanupDone = true → setups s.tasks = [] →
      (pre = [] ∨ pre = [.kConnecting]) →
      moves s.log = pre ++ [.kConnected, .kDisconnecting, .kDisconnected] →
      IsCleanup (closings s.log) → QuietAfter s.log → (outcomes s.log).length ≤ 1 → Life s

/-- The fields that decide where a connection stands, but for its channel, buffers and log. -/
structure Core where
  state : State
  handle : Option ℕ
  closeTimerId : ℕ
  cleanupDone : Bool
  server : Bool
  used : Bool
  tasks : List Task
  scheduled : List ℕ
  extracted : List ℕ
  delivered : Option (Role × Events)

def St.core (s : St) : Core :=
  ⟨s.state, s.handle, s.closeTimerId, s.cleanupDone, s.server, s.used, s.tasks, s.scheduled,
    s.extracted, s.delivered⟩

/-- The channel keeps its role, and read interest keeps it registered. -/
def SameChannel (ch ch' : Option Channel) : Prop :=
  match ch, ch' with
  | none, none => True
  | some c, some c' => c'.role = c.role ∧ c'.reading = c.reading ∧
      (c.reading = true → c.registered = true → c'.registered = true)
  | _, _ => False

theorem SameChannel.refl (ch : Option Channel) : SameChannel ch ch := by
  cases ch with
  | none => trivial
  | some c => exact ⟨rfl, rfl, fun _ h => h⟩

theorem SameChannel.isOpen {ch ch' : Option Channel} (h : SameChannel ch ch') (ho : IsOpen ch) :
    IsOpen ch' := by
  obtain ⟨c, rfl, h1, h2, h3⟩ := ho
  cases ch' with
  | none => exact h.elim
  | some c' => exact ⟨c', rfl, h.1.trans h1, h.2.1.trans h2, h.2.2 h2 h3⟩

theorem IsOpen.role {ch : Option Channel} (h : IsOpen ch) : ∀ c ∈ ch, c.role = .established := by
  obtain ⟨c, rfl, h1, -⟩ := h
  intro c' hc
  cases hc
  exact h1

theorem SameChannel.waiting {ch ch' : Option Channel} (h : SameChannel ch ch')
    (hw : ∀ c ∈ ch, c.role = .connecting) : ∀ c ∈ ch', c.role = .connecting := by
  cases ch <;> cases ch' <;> simp_all [SameChannel]

theorem SameChannel.none_iff {ch ch' : Option Channel} (h : SameChannel ch ch') :
    ch' = none ↔ ch = none := by
  cases ch <;> cases ch' <;> simp_all [SameChannel]

/-- What a step that does not move the connection along may do. -/
structure Idles (s s' : St) : Prop where
  core : s'.core = s.core
  channel : SameChannel s.channel s'.channel
  readBuffer : s.readBuffer.isSome = true → s'.readBuffer.isSome = true
  writeBuffer : s.writeBuffer.isSome = true → s'.writeBuffer.isSome = true
  log : ∃ l, s'.log = s.log ++ l ∧ ∀ e ∈ l, e.isPlain = true ∧
    (s.state = .kDisconnected → s.handle = none → e.isActive = false)
  ctl : .afterClose ∈ s'.ctl → .afterClose ∈ s.ctl

namespace Life

variable {s s' : St}

theorem setups_release {rel : List Task} (h : rel = [] ∨ rel = [.release]) : setups rel = [] := by
  rcases h with rfl | rfl <;> rfl

theorem setups_ne_nil {t : Task} {rest : List Task}
    (h : (∃ b, t = .start b) ∧ s.handle ≠ none ∨ t = .connect) : setups (t :: rest) ≠ [] := by
  rcases h with ⟨⟨b, rfl⟩, -⟩ | rfl <;> simp [setups, Task.isSetup]

/-- Such a step leaves the connection where it is, unless it enters a handler of the established
connection too early. -/
theorem idle (h : Life s) (hi : Idles s s')
    (hq : .kConnected ∉ moves s.log → Quiet s.ctl → Quiet s'.ctl) : Life s' := by
  obtain ⟨hcore, hch, hr, hw, ⟨l, hlog, hl⟩, -⟩ := hi
  simp only [St.core, Core.mk.injEq] at hcore
  obtain ⟨hstate, hhandle, htimer, hdone, hserver, hused, htasks, hsch, hext, hdel⟩ := hcore
  have hplain : ∀ e ∈ l, e.isPlain = true := fun e he => (hl e he).1
  have hmoves : moves s'.log = moves s.log := by
    rw [hlog, moves_append, moves_of_plain hplain, List.append_nil]
  have hclos : closings s'.log = closings s.log := by
    rw [hlog, closings_append, closings_of_plain hplain, List.append_nil]
  have hout : outcomes s'.log = outcomes s.log := by
    rw [hlog, outcomes_append, outcomes_of_plain hplain, List.append_nil]
  have hpristine : Pristine s → Pristine s' :=
    fun ⟨h1, h2, h3, h4, h5, h6, h7, h8, h9, h10, h11⟩ =>
    ⟨hstate.trans h1, hch.none_iff.2 h2, hdone.trans h3, htimer.trans h4, hsch.trans h5,
      hext.trans h6, hdel.trans h7, hq (by simp [h9]) h8, hmoves.trans h9, hclos.trans h10,
      hout.trans h11⟩
  have hwaiting : .kConnected ∉ moves s.log → Waiting s → Waiting s' := fun hs ⟨h1, h2, h3⟩ =>
    ⟨hch.waiting h1, hdel ▸ h2, hq hs h3⟩
  have hopen : ∀ {pre}, Open s pre → Open s' pre :=
    fun ⟨h1, h2, h3, h4, h5, h6, h7, h8, h9, h10, h11⟩ =>
    ⟨hused.trans h1, hhandle ▸ h2, hch.isOpen h3, hr h4, hw h5, hdone.trans h6, hdel ▸ h7,
      htasks ▸ h8, h9, hclos.trans h10, hout ▸ h11⟩
  -- nothing that the phase speaks of has changed
  cases h with
  | fresh hp h1 h2 h3 h4 =>
    exact .fresh (hpristine hp) (hused.trans h1) (hhandle.trans h2) (hserver.trans h3)
      (htasks.trans h4)
  | queued t rest hp h1 h2 h3 h4 =>
    exact .queued t rest (hpristine hp) (hused.trans h1) (htasks.trans h2) h3 (hhandle ▸ h4)
  | connecting c hwt h1 h2 h3 h4 h5 h6 h7 h8 h9 h10 h11 =>
    have hwt' := hwaiting (by simp [h9]) hwt
    rw [h4] at hch
    cases hc' : s'.channel with
    | none => simp [hc', SameChannel] at hch
    | some c' =>
      rw [hc'] at hch
      exact .connecting c' hwt' (hused.trans h1) (hstate.trans h2) (hhandle ▸ h3) hc'
        (hch.1.trans h5) (hdone.trans h6) (htimer.trans h7) (htasks ▸ h8) (hmoves.trans h9)
        (hclos.trans h10) (hout.trans h11)
  | dead hwt h1 h2 h3 h4 h5 h6 =>
    exact .dead (hwaiting h5 hwt) (hused.trans h1) (hstate ▸ h2) (hstate ▸ h3) (htasks ▸ h4)
      (hmoves ▸ h5) (hout ▸ h6)
  | up pre ho h1 h2 h3 =>
    exact .up pre (hopen ho) (hstate.trans h1) (htimer.trans h2) (hmoves.trans h3)
  | closing pre ho h1 h2 => exact .closing pre (hopen ho) (hstate.trans h1) (hmoves.trans h2)
  | down pre h1 h2 h3 h4 h5 h6 h7 h8 h9 h10 h11 =>
    refine .down pre (hused.trans h1) (hstate.trans h2) (hhandle.trans h3) (htimer.trans h4)
      (hdone.trans h5) (htasks ▸ h6) h7 (hmoves.trans h8) (hclos ▸ h9) ?_ (hout ▸ h11)
    rw [hlog]
    exact h10.append fun e he => (hl e he).2 h2 h3

/-- A connection on which something may have happened has been given a socket or connected, and no
closure that would do so is queued. -/
theorem setUp_or (h : Life s) : (s.used = true ∧ setups s.tasks = []) ∨ Pristine s ∧
    ((s.used = false ∧ s.handle = none ∧ s.server = false ∧ s.tasks = []) ∨
      ∃ t rest, s.used = true ∧ s.tasks = t :: rest ∧ setups rest = [] ∧
        ((∃ b, t = .start b) ∧ s.handle ≠ none ∨ t = .connect)) := by
  cases h with
  | fresh hp h1 h2 h3 h4 => exact .inr ⟨hp, .inl ⟨h1, h2, h3, h4⟩⟩
  | queued t rest hp h1 h2 h3 h4 => exact .inr ⟨hp, .inr ⟨t, rest, h1, h2, h3, h4⟩⟩
  | connecting _ _ h1 _ _ _ _ _ _ h8 => exact .inl ⟨h1, h8⟩
  | dead _ h1 _ _ h4 => exact .inl ⟨h1, h4⟩
  | up _ ho | closing _ ho => exact .inl ⟨ho.used, ho.setups⟩
  | down _ h1 _ _ _ _ h6 => exact .inl ⟨h1, h6⟩

/-- Before `start_` has taken effect the state is not `kConnected`, and the connection waits. -/
theorem waiting (h : Life s) (hm : .kConnected ∉ moves s.log) :
    s.state ≠ .kConnected ∧ Waiting s := by
  have hpristine : Pristine s → s.state ≠ .kConnected ∧ Waiting s := fun hp =>
    ⟨by simp [hp.state], by simp [hp.channel], by simp [hp.delivered, Delivers], hp.quiet⟩
  cases h with
  | fresh hp | queued _ _ hp => exact hpristine hp
  | connecting _ hwt _ h2 => exact ⟨by simp [h2], hwt⟩
  | dead hwt _ h2 => exact ⟨h2, hwt⟩
  | up _ _ _ _ h3 => simp [h3] at hm
  | closing _ _ _ h2 => simp [h2] at hm
  | down _ _ _ _ _ _ _ _ h8 => simp [h8] at hm

/-- After `start_` has taken effect the connection is open or its handle is gone. -/
theorem started (h : Life s) (hm : .kConnected ∈ moves s.log) :
    (s.state = .kDisconnected → s.handle = none) ∧
      (s.state ≠ .kDisconnected → s.cleanupDone = false) := by
  cases h with
  | fresh hp | queued _ _ hp => simp [hp.moves] at hm
  | connecting _ _ _ _ _ _ _ _ _ _ h9 => simp [h9] at hm
  | dead _ _ _ _ _ h5 => exact absurd hm h5
  | up _ ho h1 | closing _ ho h1 => exact ⟨fun h => by simp [h1] at h, fun _ => ho.cleanupDone⟩
  | down _ _ h2 h3 => exact ⟨fun _ => h3, fun h => absurd h2 h⟩

theorem isOpen (h : Life s) (hm : .kConnected ∈ moves s.log) (hh : s.handle ≠ none) :
    ∃ pre, Open s pre := by
  cases h with
  | fresh hp | queued _ _ hp => simp [hp.moves] at hm
  | connecting _ _ _ _ _ _ _ _ _ _ h9 => simp [h9] at hm
  | dead _ _ _ _ _ h5 => exact absurd hm h5
  | up pre ho | closing pre ho => exact ⟨pre, ho⟩
  | down _ _ _ h3 => exact absurd h3 hh

theorem isOpen_of_state (h : Life s) (hm : .kConnected ∈ moves s.log)
    (hs : s.state ≠ .kDisconnected) : ∃ pre, Open s pre := by
  cases h with
  | fresh hp | queued _ _ hp => simp [hp.moves] at hm
  | connecting _ _ _ _ _ _ _ _ _ _ h9 => simp [h9] at hm
  | dead _ _ _ _ _ h5 => exact absurd hm h5
  | up pre ho | closing pre ho => exact ⟨pre, ho⟩
  | down _ _ h2 => exact absurd h2 hs

/-- In state `kConnected` the connection is open and has not been shut down. -/
theorem isUp (h : Life s) (hs : s.state = .kConnected) :
    ∃ pre, Open s pre ∧ moves s.log = pre ++ [State.kConnected] := by
  cases h with
  | fresh hp | queued _ _ hp => simp [hp.state] at hs
  | connecting _ _ _ h2 => simp [h2] at hs
  | dead _ _ h2 => exact absurd hs h2
  | up pre ho _ _ h3 => exact ⟨pre, ho, h3⟩
  | closing _ _ h1 | down _ _ h1 => simp [h1] at hs

theorem not_disconnecting (h : Life s) (hs : s.state = .kConnected) :
    .kDisconnecting ∉ moves s.log := by
  obtain ⟨pre, ho, hm⟩ := h.isUp hs
  rw [hm]
  rcases ho.pre with rfl | rfl <;> decide

theorem disconnecting_of_started (h : Life s) (hm : .kConnected ∈ moves s.log)
    (hs : s.state ≠ .kConnected) : .kDisconnecting ∈ moves s.log := by
  cases h with
  | fresh hp | queued _ _ hp => simp [hp.moves] at hm
  | connecting _ _ _ _ _ _ _ _ _ _ h9 => simp [h9] at hm
  | dead _ _ _ _ _ h5 => exact absurd hm h5
  | up _ _ h1 => exact absurd h1 hs
  | closing _ _ _ h2 => simp [h2]
  | down _ _ _ _ _ _ _ _ h8 => simp [h8]

theorem not_started_of_connecting (h : Life s) (hs : s.state = .kConnecting) :
    .kConnected ∉ moves s.log := by
  cases h with
  | fresh hp | queued _ _ hp => simp [hp.moves]
  | connecting _ _ _ _ _ _ _ _ _ _ h9 => simp [h9]
  | dead _ _ _ _ _ h5 => exact h5
  | up _ _ h1 | closing _ _ h1 | down _ _ h1 => simp [h1] at hs

theorem setUp_of_not_pristine (h : Life s) (hp : ¬ Pristine s) :
    s.used = true ∧ setups s.tasks = [] :=
  h.setUp_or.resolve_right fun h => hp h.1

/-- What the poll's queue, the timers and the poller may do to a connection that is set up. -/
theorem outside {ts : List Task} {sch ext : List ℕ} {d : Option (Role × Events)} {w : Bool}
    (h : Life s) (hset : s.used = true ∧ setups s.tasks = []) (hts : setups ts = setups s.tasks)
    (hd : ∀ x ∈ d, x ∈ s.delivered ∨ ∃ c ∈ s.channel, x.1 = c.role) : Life
    { s with
      tasks := ts, scheduled := sch, extracted := ext, delivered := d, writeReady := w } := by
  have hdel : ∀ {role}, Delivers role s.delivered → (∀ c ∈ s.channel, c.role = role) →
      Delivers role d := fun h1 h2 x hx => by
    rcases hd x hx with hx | ⟨c, hc, hx⟩
    · exact h1 x hx
    · exact hx.trans (h2 c hc)
  have hwaiting : Waiting s → Waiting
      { s with tasks := ts, scheduled := sch, extracted := ext, delivered := d, writeReady := w } :=
    fun hwt => ⟨hwt.channel, hdel hwt.delivered hwt.channel, hwt.quiet⟩
  have hopen : ∀ {pre}, Open s pre → Open
      { s with tasks := ts, scheduled := sch, extracted := ext, delivered := d, writeReady := w }
      pre := fun ho =>
    ⟨ho.used, ho.handle, ho.channel, ho.readBuffer, ho.writeBuffer, ho.cleanupDone,
      hdel ho.delivered ho.channel.role, hts.trans ho.setups, ho.pre, ho.closings, ho.outcomes⟩
  cases h with
  | fresh _ h1 => simp [h1] at hset
  | queued _ _ _ _ h2 _ h4 => exact absurd (h2 ▸ hset.2) (setups_ne_nil h4)
  | connecting c hwt h1 h2 h3 h4 h5 h6 h7 h8 h9 h10 h11 =>
    exact .connecting c (hwaiting hwt) h1 h2 h3 h4 h5 h6 h7 (hts.trans h8) h9 h10 h11
  | dead hwt h1 h2 h3 h4 h5 h6 => exact .dead (hwaiting hwt) h1 h2 h3 (hts.trans h4) h5 h6
  | up pre ho h1 h2 h3 => exact .up pre (hopen ho) h1 h2 h3
  | closing pre ho h1 h2 => exact .closing pre (hopen ho) h1 h2
  | down pre h1 h2 h3 h4 h5 h6 h7 h8 h9 h10 h11 =>
    exact .down pre h1 h2 h3 h4 h5 (hts.trans h6) h7 h8 h9 h10 h11

/-! ### Moving along -/

theorem moves_cleanupLog (err : ℕ) : moves (s.cleanupLog err) =
    (if s.state = .kDisconnecting then [] else [State.kDisconnecting]) ++
      [State.kDisconnected] := by
  have h1 : moves s.shutWrLog = [] := by unfold St.shutWrLog; split_ifs <;> rfl
  have h2 : moves (s.moveLog .kDisconnecting) =
      if s.state = .kDisconnecting then [] else [.kDisconnecting] := by
    unfold St.moveLog; split_ifs <;> rfl
  have h3 : moves s.deregisterLog = [] := by unfold St.deregisterLog; split <;> rfl
  have h4 : moves s.closeLog = [] := by unfold St.closeLog; split <;> rfl
  have h5 : moves s.internalCloseLog = [] := by unfold St.internalCloseLog; split_ifs <;> rfl
  have h6 : moves (s.closeCallLog err) = [] := by unfold St.closeCallLog; split_ifs <;> rfl
  simp only [St.cleanupLog, moves_append, h1, h2, h3, h4, h5, h6, List.append_nil,
    List.nil_append]
  rfl

theorem outcomes_cleanupLog (err : ℕ) : outcomes (s.cleanupLog err) = [] := by
  have h1 : outcomes s.shutWrLog = [] := by unfold St.shutWrLog; split_ifs <;> rfl
  have h2 : outcomes (s.moveLog .kDisconnecting) = [] := by
    unfold St.moveLog; split_ifs <;> rfl
  have h3 : outcomes s.deregisterLog = [] := by unfold St.deregisterLog; split <;> rfl
  have h4 : outcomes s.closeLog = [] := by unfold St.closeLog; split <;> rfl
  have h5 : outcomes s.internalCloseLog = [] := by unfold St.internalCloseLog; split_ifs <;> rfl
  have h6 : outcomes (s.closeCallLog err) = [] := by unfold St.closeCallLog; split_ifs <;> rfl
  simp only [St.cleanupLog, outcomes_append, h1, h2, h3, h4, h5, h6, List.append_nil]
  rfl

/-- The cleanup of an established connection deregisters the channel, then closes the socket,
then calls the internal and the user's close callback. -/
theorem closings_cleanupLog (err : ℕ) (hc : IsOpen s.channel) (hh : s.handle ≠ none) :
    IsCleanup (closings (s.cleanupLog err)) := by
  obtain ⟨c, hc, hrole, -, -⟩ := hc
  obtain ⟨h, hh⟩ := Option.ne_none_iff_exists'.1 hh
  have h1 : closings s.shutWrLog = [] := by unfold St.shutWrLog; split_ifs <;> rfl
  have h2 : closings (s.moveLog .kDisconnecting) = [] := by
    unfold St.moveLog; split_ifs <;> rfl
  have h3 : closings s.deregisterLog = [.deregistered .established] := by
    simp [St.deregisterLog, hc, hrole, closings, Ev.isClosing]
  have h4 : closings s.closeLog = [.closeHandle h] := by
    simp [St.closeLog, hh, closings, Ev.isClosing]
  refine ⟨h, closings s.internalCloseLog, closings (s.closeCallLog err), ?_, ?_, ?_⟩
  · simp only [St.cleanupLog, closings_append, h1, h2, h3, h4, List.nil_append,
      List.append_assoc]
    rfl
  · unfold St.internalCloseLog
    split_ifs
    · exact .inr rfl
    · exact .inl rfl
  · unfold St.closeCallLog
    split_ifs
    · exact .inr ⟨err, rfl⟩
    · exact .inl rfl

/-- Nothing active follows the move to `kDisconnected` in a cleanup. -/
theorem quietAfter_cleanupLog (err : ℕ) (h : .kDisconnected ∉ moves s.log) :
    QuietAfter (s.log ++ s.cleanupLog err) := by
  have hpre : ∀ l : List Ev, (∀ e ∈ l, e ≠ .moved .kDisconnected) → .kDisconnected ∉ moves l :=
    fun l hl hm => hl _ (mem_moves.1 hm) rfl
  have hsplit : s.log ++ s.cleanupLog err =
      (s.log ++ s.shutWrLog ++ s.moveLog .kDisconnecting ++ s.deregisterLog ++ s.closeLog) ++
        ([Ev.moved .kDisconnected] ++ (s.internalCloseLog ++ s.closeCallLog err)) := by
    simp [St.cleanupLog]
  have htail : ∀ e ∈ s.internalCloseLog ++ s.closeCallLog err, e.isActive = false := by
    unfold St.internalCloseLog St.closeCallLog
    split_ifs <;> simp [Ev.isActive]
  have hhead : .kDisconnected ∉ moves (s.log ++ s.shutWrLog ++ s.moveLog .kDisconnecting ++
      s.deregisterLog ++ s.closeLog) := by
    simp only [moves_append, List.mem_append, not_or]
    refine ⟨⟨⟨⟨h, hpre _ ?_⟩, hpre _ ?_⟩, hpre _ ?_⟩, hpre _ ?_⟩
    · unfold St.shutWrLog; split_ifs <;> simp
    · unfold St.moveLog; split_ifs <;> simp
    · unfold St.deregisterLog; split <;> simp
    · unfold St.closeLog; split <;> simp
  rw [hsplit, QuietAfter, List.pairwise_append]
  refine ⟨quietAfter_of_open hhead, ?_, fun a ha b _ he => ?_⟩
  · exact QuietAfter.append (by simp [QuietAfter]) htail
  · exact absurd (mem_moves.2 (he ▸ ha)) hhead

theorem quiet_closeFrames (err : ℕ) (h : Quiet s.ctl) : Quiet (s.closeFrames err ++ s.ctl) := by
  intro f hf
  rcases List.mem_append.1 hf with hf | hf
  · unfold St.closeFrames at hf
    split_ifs at hf
    · simp only [List.mem_cons, List.not_mem_nil, or_false] at hf
      rcases hf with rfl | rfl <;> rfl
    · simp at hf
  · exact h f hf

theorem quiet_callFrames {b : Bool} {cb : Callback} (h : Quiet s.ctl) :
    Quiet (St.callFrames b cb ++ s.ctl) := by
  cases b with
  | false => exact h
  | true => exact List.forall_mem_cons.2 ⟨rfl, h⟩

theorem waiting_of_role {ch ch' : Option Channel}
    (h : ch' = none ∨ ch'.map Channel.role = ch.map Channel.role)
    (hw : ∀ c ∈ ch, c.role = .connecting) : ∀ c ∈ ch', c.role = .connecting := by
  cases ch <;> cases ch' <;> simp_all

/-- **`cleanup_`** ends the life of a connection that is set up. -/
theorem cleanup (err : ℕ) (h : Life s)
    (hrun : s.state = .kDisconnected → s.used = true ∧ setups s.tasks = []) :
    Life (s.cleanup err) := by
  cases hd : s.cleanupDone with
  | true => rw [St.cleanup_of_done err hd]; exact h
  | false =>
    obtain ⟨sch, ch, w, rel, he, hrel, hrole⟩ := St.cleanup_eq err hd
    rw [he]
    have hwaiting : Waiting s → Waiting
        { s with
          cleanupDone := true, closeTimerId := 0, scheduled := sch, channel := ch
          writeReady := w, handle := none, state := .kDisconnected, internalClose := false
          onClose := false, ctl := s.closeFrames err ++ s.ctl, tasks := s.tasks ++ rel
          log := s.log ++ s.cleanupLog err } := fun hwt =>
      ⟨waiting_of_role hrole hwt.channel, hwt.delivered, quiet_closeFrames err hwt.quiet⟩
    have hset : setups s.tasks = [] → setups (s.tasks ++ rel) = [] := fun hs => by
      rw [setups_append, hs, setups_release hrel, List.append_nil]
    have hout : outcomes (s.log ++ s.cleanupLog err) = outcomes s.log := by
      rw [outcomes_append, outcomes_cleanupLog, List.append_nil]
    have hmoves : moves (s.log ++ s.cleanupLog err) = moves s.log ++
        ((if s.state = .kDisconnecting then [] else [State.kDisconnecting]) ++
          [State.kDisconnected]) := by
      rw [moves_append, moves_cleanupLog]
    have hdown : ∀ {pre : List State}, Open s pre → .kDisconnected ∉ moves s.log →
        moves (s.log ++ s.cleanupLog err) =
          pre ++ [State.kConnected, .kDisconnecting, .kDisconnected] → Life
        { s with
          cleanupDone := true, closeTimerId := 0, scheduled := sch, channel := ch
          writeReady := w, handle := none, state := .kDisconnected, internalClose := false
          onClose := false, ctl := s.closeFrames err ++ s.ctl, tasks := s.tasks ++ rel
          log := s.log ++ s.cleanupLog err } := by
      intro pre ho hnot hm
      refine .down pre ho.used rfl rfl rfl rfl (hset ho.setups) ho.pre hm ?_
        (quietAfter_cleanupLog err hnot) (hout ▸ ho.outcomes)
      rw [closings_append, ho.closings, List.nil_append]
      exact closings_cleanupLog err ho.channel ho.handle
    -- a connection that was established is down now, one that was connecting is dead
    cases h with
    | fresh hp h1 => simp [(hrun hp.state).1] at h1
    | queued t rest hp h1 h2 h3 h4 =>
      exact absurd (h2 ▸ (hrun hp.state).2) (setups_ne_nil h4)
    | connecting c hwt h1 h2 h3 h4 h5 h6 h7 h8 h9 h10 h11 =>
      refine .dead (hwaiting hwt) h1 nofun nofun (hset h8) ?_ (by simp only [hout, h11]; decide)
      rw [hmoves, h9, h2]
      decide
    | dead hwt h1 h2 h3 h4 h5 h6 =>
      refine .dead (hwaiting hwt) h1 nofun nofun (hset h4) ?_ (hout ▸ h6)
      rw [hmoves, List.mem_append, not_or]
      refine ⟨h5, ?_⟩
      split_ifs <;> decide
    | up pre ho h1 h2 h3 =>
      refine hdown ho ?_ (by rw [hmoves, h3, h1]; simp)
      rw [h3]
      rcases ho.pre with rfl | rfl <;> decide
    | closing pre ho h1 h2 =>
      refine hdown ho ?_ (by rw [hmoves, h2, h1]; simp)
      rw [h2]
      rcases ho.pre with rfl | rfl <;> decide
    | down pre _ _ _ _ h5 => simp [h5] at hd

/-- **`handle_close_event_`** -/
theorem handleCloseEvent (err : ℕ) (h : Life s) : Life (s.handleCloseEvent err) := by
  unfold St.handleCloseEvent
  split_ifs with hs
  · exact h
  · exact h.cleanup err fun he => absurd he hs

/-- **`shutdown_in_poll_`** -/
theorem shutdownInPoll (h : Life s) (hok : s.shutdownInPoll = .ok s') : Life s' := by
  rcases St.shutdownInPoll_ok hok with rfl | ⟨h1, h2, h3, ch, w, l, tid, nid, sch, hf, rfl⟩
  · exact h
  have hplain : ∀ e ∈ l, e.isPlain = true := by
    cases hf <;> simp [Ev.isPlain, Ev.isClosing, Ev.isOutcome]
  have hm : moves (s.log ++ [Ev.moved .kDisconnecting] ++ l) =
      moves s.log ++ [State.kDisconnecting] := by
    rw [moves_append, moves_append, moves_of_plain hplain, List.append_nil]
    rfl
  have hcl : closings (s.log ++ [Ev.moved .kDisconnecting] ++ l) = closings s.log := by
    rw [closings_append, closings_append, closings_of_plain hplain, List.append_nil]
    exact List.append_nil _
  have ho : outcomes (s.log ++ [Ev.moved .kDisconnecting] ++ l) = outcomes s.log := by
    rw [outcomes_append, outcomes_append, outcomes_of_plain hplain, List.append_nil]
    exact List.append_nil _
  cases h with
  | fresh hp => exact absurd hp.state h1
  | queued _ _ hp => exact absurd hp.state h1
  | connecting c hwt h4 h5 h6 h7 h8 h9 h10 h11 h12 h13 h14 =>
    have hch : ∀ c ∈ ch, c.role = .connecting := by
      cases hf with
      | waits => exact hwt.channel
      | noChannel => simp
      | done _ _ hc e1 =>
        rw [h7] at hc
        cases hc
        simp [e1, h8]
    refine .dead ⟨hch, hwt.delivered, hwt.quiet⟩ h4 nofun nofun h11 ?_
      ((congrArg List.length (ho.trans h14)).trans_le (by decide))
    rw [hm, h12]
    decide
  | dead _ _ h5 h6 => cases hs : s.state <;> simp_all
  | up pre hop h5 h6 h7 =>
    refine .closing pre ?_ rfl (by rw [hm, h7]; simp)
    have hch : IsOpen ch := by
      obtain ⟨c, hc, h8, h9, h10⟩ := hop.channel
      cases hf with
      | waits => exact hop.channel
      | noChannel _ _ hn => simp [hc] at hn
      | done _ _ hc' e1 e2 e3 e4 =>
        rw [hc] at hc'
        cases hc'
        exact ⟨_, rfl, e1.trans h8, e2.trans h9, e4 h9 h10⟩
    exact ⟨hop.used, hop.handle, hch, hop.readBuffer, hop.writeBuffer, hop.cleanupDone,
      hop.delivered, hop.setups, hop.pre, hcl.trans hop.closings, ho ▸ hop.outcomes⟩
  | closing _ _ h5 => exact absurd h5 h2
  | down _ _ h5 => exact absurd h5 h1

theorem moves_callLog (b : Bool) (cb : Callback) : moves (St.callLog b cb) = [] := by
  cases b <;> rfl

theorem length_outcomes_callLog (b : Bool) (cb : Callback) :
    (outcomes (St.callLog b cb)).length ≤ 1 :=
  (List.length_filter_le ..).trans (by cases b <;> simp [St.callLog])

/-- **`start_`** on a connection that has been given a socket, and the callback called after it. -/
theorem start {A : Allocator} {t : St} {pre : List State} (hused : s.used = true)
    (hh : s.handle ≠ none) (hst : s.state ≠ .kConnected) (htimer : s.closeTimerId = 0)
    (hdel : s.delivered = none) (hset : setups s.tasks = [])
    (hpre : pre = [] ∨ pre = [.kConnecting])
    (hm : moves s.log = pre) (hc : closings s.log = []) (ho : outcomes s.log = [])
    (h : s.start A = .ok t) (l : List Ev) (ctl : List Frame) (hlm : moves l = [])
    (hlc : closings l = []) (hlo : (outcomes l).length ≤ 1) :
    Life { t with ctl := ctl, log := t.log ++ l } := by
  rcases St.start_ok h with ⟨-, hn | hn⟩ | ⟨-, r, w, wr, -, -, rfl⟩
  · exact absurd hn hh
  · exact absurd hn hst
  · have hlog : s.moveLog .kConnected = [.moved .kConnected] := by simp [St.moveLog, hst]
    refine .up pre ⟨hused, hh, ⟨_, rfl, rfl, rfl, rfl⟩, rfl, rfl, rfl, by simp [hdel, Delivers],
      hset, hpre, ?_, ?_⟩ rfl htimer ?_
    · rw [closings_append, closings_append, hc, hlc, hlog]
      rfl
    · rw [outcomes_append, outcomes_append, ho, hlog]
      exact hlo
    · rw [moves_append, moves_append, hm, hlm, hlog, List.append_nil]
      rfl

/-- A connect that fails before there is a socket. -/
theorem connectFailed (err : ℕ) (hwt : Waiting s) (hused : s.used = true)
    (hs : s.state = .kDisconnected)
    (hset : setups s.tasks = []) (hm : moves s.log = []) (ho : outcomes s.log = []) :
    Life (s.connectFailed err) := by
  rw [St.connectFailed_eq]
  refine .dead ⟨hwt.channel, hwt.delivered, quiet_callFrames hwt.quiet⟩ hused (by simp [hs])
    (by simp [hs]) hset ?_ ?_
  · rw [moves_append, hm, moves_callLog]
    simp
  · rw [outcomes_append, ho]
    exact length_outcomes_callLog ..

/-- **`start_connect_in_poll_`** of a connection on which nothing has happened. -/
theorem startConnectInPoll (r : ConnectRet) (hused : s.used = true) (hp : Pristine s)
    (hset : setups s.tasks = []) : Life (s.startConnectInPoll r) := by
  have hwt : Waiting s :=
    ⟨by simp [hp.channel], by simp [hp.delivered, Delivers], hp.quiet⟩
  rcases s.startConnectInPoll_eq r with ⟨err, he⟩ | ⟨h, w, he⟩ <;> rw [he]
  · exact connectFailed err hwt hused hp.state hset hp.moves hp.outcomes
  · have hlog : s.moveLog .kConnecting = [.moved .kConnecting] := by simp [St.moveLog, hp.state]
    refine .connecting _ ⟨by simp, hwt.delivered, hwt.quiet⟩ hused rfl (by simp) rfl rfl
      hp.cleanupDone hp.timer hset ?_ ?_ ?_
    · rw [moves_append, hp.moves, hlog]
      rfl
    · rw [closings_append, hp.closings, hlog]
      rfl
    · rw [outcomes_append, hp.outcomes, hlog]
      rfl

/-- **`handle_connect_event_`** -/
theorem handleConnectEvent {A : Allocator} (h : Life s) (hdel : s.delivered = none)
    (hok : s.handleConnectEvent A = .ok s') : Life s' := by
  rcases St.handleConnectEvent_ok hok with ⟨-, rfl⟩ | ⟨hs, -, hok⟩ | ⟨hs, -, w, e, t, ht, rfl⟩
  · exact h
  all_goals
    cases h with
    | fresh hp | queued _ _ hp => simp [hp.state] at hs
    | dead _ _ _ h3 => exact absurd hs h3
    | up _ _ h1 | closing _ _ h1 | down _ _ h1 => simp [h1] at hs
    | connecting c hwt h1 h2 h3 h4 h5 h6 h7 h8 h9 h10 h11 => ?_
  · obtain ⟨w, e, rfl⟩ := hok
    obtain ⟨k, hk⟩ := Option.ne_none_iff_exists'.1 h3
    refine .dead ⟨by simp, hwt.delivered, quiet_callFrames hwt.quiet⟩ h1 nofun nofun h8 ?_ ?_
    · simp only [moves_append, h9, St.deregisterLog, h4, St.closeLog, hk, moves_callLog]
      simp [moves]
    · simp only [outcomes_append, h11, St.deregisterLog, h4, St.closeLog, hk]
      exact length_outcomes_callLog ..
  · have hd : s.deregisterLog = [.deregistered .connecting] := by
      simp [St.deregisterLog, h4, h5]
    refine start ?_ ?_ ?_ ?_ ?_ ?_ (.inr rfl) ?_ ?_ ?_ ht _ _ (moves_callLog ..) ?_
      (length_outcomes_callLog ..)
    · exact h1
    · exact h3
    · simp [h2]
    · exact h7
    · exact hdel
    · exact h8
    · rw [hd, moves_append, h9]; rfl
    · rw [hd, closings_append, h10]; rfl
    · rw [hd, outcomes_append, h11]; rfl
    · unfold St.callLog; split_ifs <;> rfl

end Life

end Conn

end CxpNet
