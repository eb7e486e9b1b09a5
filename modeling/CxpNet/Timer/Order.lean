import CxpNet.Timer.Wakeup
import Mathlib.Data.List.Nodup

/-!
# The containers, and the order of the callbacks

`timers_`, `scheduled_timers_` and `schedule_` describe the same timers after every critical
section.  Callbacks are moved out of them in batches and run without the mutex, while timers are
added and cancelled; still, over the whole run they are started in the order of their deadlines,
and for equal deadlines in the order they were added in.  What carries this is one list: what was
started, then what was moved out, then what is scheduled (`TimerManager.history`).

* `TimerManager.ordered_of_reach` : this list stays in order, whatever the interleaving;
* `TimerManager.timers_correct` : the containers agree, a callback is started at most once, not
  before its deadline, not after it was cancelled, and in order.
-/

namespace CxpNet

namespace TimerManager

variable {κ : Type}

/-! ### Histories -/

/-- A schedule entry. -/
abbrev Entry := TimePoint × TimerID

/-- The timer that is added by this step. -/
def additions (s : St κ) : Act κ → List Entry
  | .leave =>
    match s.call with
    | some (.addTimer delayMs _) => [(s.now + delayMs, s.nextId)]
    | _ => []
  | _ => []

theorem additions_of_ne {s : St κ} {a : Act κ} (ha : a ≠ .leave) : additions s a = [] := by
  cases a with
  | leave => exact absurd rfl ha
  | _ => rfl

/-- The manager with the list of the timers that were added, oldest first. -/
def recorded (κ : Type) : Machine (St κ × List Entry) (Act κ) where
  step x a := (step x.1 a).map fun s => (s, x.2 ++ additions x.1 a)

/-- The entries whose callbacks were moved out and are yet to run. -/
def ThreadPc.pending : ThreadPc κ → List Entry
  | .callbacks rest => rest.map Expired.entry
  | _ => []

/-- What was started, what is about to be started, and what is scheduled. -/
def history (s : St κ) : List Entry := s.started ++ s.pc.pending ++ s.schedule

/-- The earlier deadline comes first; equal deadlines in the order of the ids. -/
def Before (a b : Entry) : Prop := a.1 < b.1 ∨ a.1 = b.1 ∧ a.2 < b.2

/-! ### The invariant -/

/-- **The containers agree**: the same timers are in all three, each once in `schedule_` under its
deadline, and its iterator refers to this entry. -/
structure InStep (s : St κ) : Prop where
  timers : ∀ id, (s.timers id).isSome ↔ id ∈ s.schedule.map Prod.snd
  scheduledTimers : ∀ id, (s.scheduledTimers id).isSome ↔ id ∈ s.schedule.map Prod.snd
  once : (s.schedule.map Prod.snd).Nodup
  deadline : ∀ d id t, (d, id) ∈ s.schedule → s.timers id = some t → t.expireTime = d
  iterator : ∀ id it, s.scheduledTimers id = some it → it ∈ s.schedule ∧ it.2 = id

/-- The invariant of a run in which the timers `added` were added. -/
structure Ordered (s : St κ) (added : List Entry) : Prop where
  pairwise : (history s).Pairwise Before
  mem : ∀ e ∈ history s, e ∈ added
  ids : added.Pairwise fun a b => a.2 < b.2
  fresh : ∀ e ∈ added, e.2 < s.nextId
  due : ∀ e ∈ s.started ++ s.pc.pending, e.1 ≤ s.now
  cancelled : ∀ id ∈ s.cancelled, id < s.nextId ∧ id ∉ (history s).map Prod.snd
  timer : ∀ d id, (d, id) ∈ s.schedule ↔ ∃ t, s.timers id = some t ∧ t.expireTime = d
  iterator : ∀ id it, s.scheduledTimers id = some it ↔ it ∈ s.schedule ∧ it.2 = id
  live : ∀ id t, s.timers id = some t → t.cancelled = false

/-- A new id goes behind the entries with the same deadline. -/
theorem before_emplace {d : TimePoint} {id : TimerID} {es : List Entry} (h : es.Pairwise Before)
    (hid : ∀ e ∈ es, e.2 < id) : (emplace d id es).Pairwise Before := by
  induction es with
  | nil => exact List.pairwise_singleton ..
  | cons x xs ih =>
    rw [List.pairwise_cons] at h
    simp only [emplace]
    split_ifs with hle
    · refine List.pairwise_cons.2 ⟨fun e he => ?_, ih h.2 fun e he => hid e (by simp [he])⟩
      rcases mem_emplace.1 he with rfl | he
      · rcases hle.lt_or_eq with hlt | heq
        · exact .inl hlt
        · exact .inr ⟨heq, hid x (by simp)⟩
      · exact h.1 e he
    · have hlt : d < x.1 := Nat.lt_of_not_le hle
      refine List.pairwise_cons.2 ⟨fun e he => .inl ?_, List.pairwise_cons.2 h⟩
      rcases List.mem_cons.1 he with rfl | he
      · exact hlt
      · rcases h.1 e he with h1 | ⟨h1, -⟩
        · exact hlt.trans h1
        · exact h1 ▸ hlt

theorem Before.ne {a b : Entry} (h : Before a b) : a ≠ b := by
  rintro rfl
  rcases h with h | ⟨-, h⟩ <;> exact lt_irrefl _ h

/-- In a list with growing ids an entry is found by its id. -/
theorem eq_of_id {l : List Entry} (h : l.Pairwise fun a b => a.2 < b.2) {a b : Entry} (ha : a ∈ l)
    (hb : b ∈ l) (hid : a.2 = b.2) : a = b := by
  have hnodup : (l.map Prod.snd).Nodup := List.pairwise_map.2 (h.imp Nat.ne_of_lt)
  exact List.inj_on_of_nodup_map hnodup ha hb hid

/-- In such a list the smaller id comes first. -/
theorem sublist_of_id {l : List Entry} (h : l.Pairwise fun a b => a.2 < b.2) {a b : Entry}
    (ha : a ∈ l) (hb : b ∈ l) (hid : a.2 < b.2) : [a, b].Sublist l := by
  induction l with
  | nil => cases ha
  | cons x xs ih =>
    rw [List.pairwise_cons] at h
    rcases List.mem_cons.1 ha with rfl | ha'
    · rcases List.mem_cons.1 hb with rfl | hb'
      · exact absurd hid (lt_irrefl _)
      · exact (List.singleton_sublist.2 hb').cons_cons _
    · rcases List.mem_cons.1 hb with rfl | hb'
      · exact absurd (h.1 a ha') (lt_asymm hid)
      · exact (ih h.2 ha' hb').cons _

@[simp] theorem pending_woken (pc : ThreadPc κ) : pc.woken.pending = pc.pending := by
  cases pc <;> rfl

namespace Ordered

variable {s s' : St κ} {added : List Entry}

theorem nodup (h : Ordered s added) : ((history s).map Prod.snd).Nodup := by
  refine List.pairwise_map.2 (h.pairwise.imp_of_mem fun {a b} ha hb hab hid => ?_)
  exact hab.ne (eq_of_id h.ids (h.mem a ha) (h.mem b hb) hid)

theorem schedule_nodup (h : Ordered s added) : (s.schedule.map Prod.snd).Nodup :=
  h.nodup.sublist ((List.sublist_append_right _ _).map _)

theorem mem_schedule (h : Ordered s added) {e : Entry} (he : e ∈ s.schedule) :
    e ∈ added ∧ e.2 < s.nextId := by
  have hm : e ∈ added := h.mem e (List.mem_append_right _ he)
  exact ⟨hm, h.fresh e hm⟩

theorem inStep (h : Ordered s added) : InStep s := by
  refine ⟨fun id => ?_, fun id => ?_, h.schedule_nodup, fun d id t hd ht => ?_,
    fun id it => (h.iterator id it).1⟩
  · rw [Option.isSome_iff_exists, List.mem_map]
    constructor
    · rintro ⟨t, ht⟩
      exact ⟨(t.expireTime, id), (h.timer _ id).2 ⟨t, ht, rfl⟩, rfl⟩
    · rintro ⟨⟨d, id⟩, hd, rfl⟩
      obtain ⟨t, ht, -⟩ := (h.timer d id).1 hd
      exact ⟨t, ht⟩
  · rw [Option.isSome_iff_exists, List.mem_map]
    exact exists_congr fun it => h.iterator id it
  · obtain ⟨t', ht', hd⟩ := (h.timer d id).1 hd
    rw [ht] at ht'
    cases ht'
    exact hd

/-- The containers are left alone, and what is left of the history stays in order. -/
theorem of_sublist (h : Ordered s added) (hh : (history s').Sublist (history s))
    (hdue : (s'.started ++ s'.pc.pending).Sublist (s.started ++ s.pc.pending))
    (hnow : s.now ≤ s'.now)
    (hnext : s'.nextId = s.nextId) (hcan : s'.cancelled = s.cancelled)
    (hsch : s'.schedule = s.schedule) (htim : s'.timers = s.timers)
    (hit : s'.scheduledTimers = s.scheduledTimers) : Ordered s' added := by
  refine ⟨h.pairwise.sublist hh, fun e he => h.mem e (hh.subset he), h.ids, hnext ▸ h.fresh,
    fun e he => (h.due e (hdue.subset he)).trans hnow, fun id hid => ?_, ?_, ?_, htim ▸ h.live⟩
  · obtain ⟨h1, h2⟩ := h.cancelled id (hcan ▸ hid)
    exact ⟨hnext ▸ h1, fun hm => h2 ((hh.map _).subset hm)⟩
  · rw [hsch, htim]
    exact h.timer
  · rw [hsch, hit]
    exact h.iterator

/-- Only the position of the thread changes, or the flags that `shutdown()` sets. -/
theorem move (h : Ordered s added) (hpc : s'.pc.pending = s.pc.pending)
    (hstart : s'.started = s.started) (hnow : s.now ≤ s'.now) (hnext : s'.nextId = s.nextId)
    (hcan : s'.cancelled = s.cancelled) (hsch : s'.schedule = s.schedule)
    (htim : s'.timers = s.timers) (hit : s'.scheduledTimers = s.scheduledTimers) :
    Ordered s' added := by
  refine h.of_sublist ?_ ?_ hnow hnext hcan hsch htim hit
  · rw [history, history, hpc, hstart, hsch]
  · rw [hpc, hstart]

/-! ### The critical sections -/

theorem addTimer (h : Ordered s added) (delayMs : ℕ) (cb : κ) :
    Ordered (addTimer delayMs cb s) (added ++ [(s.now + delayMs, s.nextId)]) := by
  have hlt : ∀ e ∈ history s, e.2 < s.nextId := fun e he => h.fresh e (h.mem e he)
  have hsch : ∀ e ∈ s.schedule, e.2 < s.nextId := fun e he => hlt e (List.mem_append_right _ he)
  -- the identifier is new
  have hnone : s.timers s.nextId = none := by
    by_contra hne
    obtain ⟨t, ht⟩ := Option.ne_none_iff_exists'.1 hne
    exact absurd (hsch _ ((h.timer _ _).2 ⟨t, ht, rfl⟩)) (lt_irrefl _)
  have hpair := h.pairwise
  rw [history, List.pairwise_append] at hpair
  obtain ⟨h1, h2, h3⟩ := hpair
  have hmem : ∀ e, e ∈ history (TimerManager.addTimer delayMs cb s) ↔
      e = (s.now + delayMs, s.nextId) ∨ e ∈ history s := by
    intro e
    simp only [history, TimerManager.addTimer, notify, pending_woken, List.mem_append, mem_emplace]
    tauto
  refine ⟨?_, ?_, ?_, ?_, ?_, ?_, ?_, ?_, ?_⟩
  · -- what has begun was due, so the new timer comes after it, and after the earlier ones that are
    -- due at the same time
    rw [history, List.pairwise_append]
    simp only [TimerManager.addTimer, notify, pending_woken]
    refine ⟨h1, before_emplace h2 hsch, fun a ha b hb => ?_⟩
    rcases mem_emplace.1 hb with rfl | hb
    · have hdue : a.1 ≤ s.now := h.due a ha
      have hid : a.2 < s.nextId := hlt a (List.mem_append_left _ ha)
      rcases Nat.lt_or_ge a.1 (s.now + delayMs) with hd | hd
      · exact .inl hd
      · exact .inr ⟨le_antisymm (hdue.trans (Nat.le_add_right ..)) hd, hid⟩
    · exact h3 a ha b hb
  · intro e he
    rcases (hmem e).1 he with rfl | he
    · simp
    · exact List.mem_append_left _ (h.mem e he)
  · rw [List.pairwise_append]
    refine ⟨h.ids, List.pairwise_singleton .., fun a ha b hb => ?_⟩
    rw [List.mem_singleton.1 hb]
    exact h.fresh a ha
  · intro e he
    show e.2 < s.nextId + 1
    rcases List.mem_append.1 he with he | he
    · exact (h.fresh e he).trans (Nat.lt_succ_self _)
    · rw [List.mem_singleton.1 he]
      exact Nat.lt_succ_self _
  · simp only [TimerManager.addTimer, notify, pending_woken]
    exact h.due
  · intro id hid
    obtain ⟨h4, h5⟩ := h.cancelled id hid
    refine ⟨h4.trans (Nat.lt_succ_self _), fun hm => ?_⟩
    obtain ⟨e, he, rfl⟩ := List.mem_map.1 hm
    rcases (hmem e).1 he with rfl | he
    · exact absurd h4 (lt_irrefl _)
    · exact h5 (List.mem_map_of_mem he)
  · intro d id
    simp only [TimerManager.addTimer, notify, mem_emplace]
    by_cases hid : id = s.nextId
    · subst hid
      have hno : (d, s.nextId) ∉ s.schedule := fun hm => absurd (hsch _ hm) (lt_irrefl _)
      simp [hno, eq_comm]
    · rw [Function.update_of_ne hid, h.timer d id]
      simp [hid]
  · intro id it
    simp only [TimerManager.addTimer, notify, mem_emplace]
    by_cases hid : id = s.nextId
    · subst hid
      have hno : ¬ (it ∈ s.schedule ∧ it.2 = s.nextId) := fun ⟨hm, he⟩ =>
        absurd (hsch _ hm) (he ▸ lt_irrefl _)
      rw [or_and_right, or_iff_left hno]
      simp only [Function.update_self, Option.some.injEq]
      exact ⟨fun he => ⟨he.symm, he ▸ rfl⟩, fun he => he.1.symm⟩
    · rw [Function.update_of_ne hid, h.iterator id it, or_and_right, or_iff_right]
      rintro ⟨rfl, he⟩
      exact hid he.symm
  · intro id t ht
    simp only [TimerManager.addTimer, notify] at ht
    by_cases hid : id = s.nextId
    · subst hid
      simp only [Function.update_self, Option.some.injEq] at ht
      rw [← ht]
    · rw [Function.update_of_ne hid] at ht
      exact h.live id t ht

/-- The section of `cancel_timer` that finds the timer present. -/
theorem cancelTimer_eq {id : TimerID} {t : Timer κ} (h : Ordered s added)
    (ht : s.timers id = some t) : TimerManager.cancelTimer id s =
      notify { s with
        cancelled := s.cancelled ++ [id]
        schedule := s.schedule.erase (t.expireTime, id)
        scheduledTimers := Function.update s.scheduledTimers id none
        timers := Function.update s.timers id none } := by
  have hmem : (t.expireTime, id) ∈ s.schedule := (h.timer _ _).2 ⟨t, ht, rfl⟩
  have hit : s.scheduledTimers id = some (t.expireTime, id) := (h.iterator _ _).2 ⟨hmem, rfl⟩
  simp [TimerManager.cancelTimer, ht, hit]

theorem cancelTimer (h : Ordered s added) (id : TimerID) : Ordered (cancelTimer id s) added := by
  cases ht : s.timers id with
  | none =>
    rw [TimerManager.cancelTimer, ht]
    exact h
  | some t =>
    rw [h.cancelTimer_eq ht]
    have hmem : (t.expireTime, id) ∈ s.schedule := (h.timer _ _).2 ⟨t, ht, rfl⟩
    have hnodup : s.schedule.Nodup := h.schedule_nodup.of_map
    have hiff : ∀ e, e ∈ s.schedule.erase (t.expireTime, id) ↔ e ∈ s.schedule ∧ e.2 ≠ id := by
      intro e
      rw [hnodup.mem_erase_iff, and_comm]
      refine and_congr_right fun he => not_congr ⟨fun heq => by rw [heq], fun heq => ?_⟩
      exact List.inj_on_of_nodup_map h.schedule_nodup he hmem heq
    have hsub : (s.started ++ s.pc.pending ++ s.schedule.erase (t.expireTime, id)).Sublist
        (history s) := (List.Sublist.refl _).append List.erase_sublist
    refine ⟨?_, fun e he => h.mem e ?_, h.ids, h.fresh, ?_, fun i hi => ?_, fun d i => ?_,
      fun i it => ?_, fun i t' ht' => ?_⟩
    · simp only [history, notify, pending_woken]
      exact h.pairwise.sublist hsub
    · simp only [history, notify, pending_woken] at he
      exact hsub.subset he
    · simp only [notify, pending_woken]
      exact h.due
    · simp only [history, notify, pending_woken]
      rcases List.mem_append.1 hi with hi | hi
      · obtain ⟨h1, h2⟩ := h.cancelled i hi
        exact ⟨h1, fun hm => h2 ((hsub.map _).subset hm)⟩
      · rw [List.mem_singleton.1 hi]
        refine ⟨(h.mem_schedule hmem).2, fun hm => ?_⟩
        obtain ⟨e, he, heq⟩ := List.mem_map.1 hm
        rcases List.mem_append.1 he with he | he
        · -- it is scheduled, hence was not moved out
          have hd := h.nodup
          rw [history, List.map_append, List.nodup_append] at hd
          exact hd.2.2 e.2 (List.mem_map_of_mem he) id (List.mem_map_of_mem hmem) heq
        · exact ((hiff e).1 he).2 heq
    · simp only [notify]
      rw [hiff]
      by_cases hi : i = id
      · subst hi
        simp
      · rw [Function.update_of_ne hi, h.timer d i]
        simp [hi]
    · simp only [notify]
      rw [hiff]
      by_cases hi : i = id
      · subst hi
        simp
      · rw [Function.update_of_ne hi, h.iterator i it, and_assoc]
        refine and_congr_right fun _ => ⟨fun he => ⟨he ▸ hi, he⟩, fun he => he.2⟩
    · simp only [notify] at ht'
      by_cases hi : i = id
      · subst hi
        simp at ht'
      · rw [Function.update_of_ne hi] at ht'
        exact h.live i t' ht'

end Ordered

/-- The entries of `id` and then of `ids` are erased. -/
theorem update_take {β : Type} (f : TimerID → Option β) (id : TimerID) (ids : List TimerID) :
    (fun i => if i ∈ ids then none else Function.update f id none i) =
      fun i => if i = id ∨ i ∈ ids then none else f i := by
  funext i
  by_cases h1 : i ∈ ids <;> by_cases h2 : i = id <;> simp [h1, h2]

/-- **The extraction** moves out the callbacks of the expired entries, in the order of the
schedule, if each of them has its timer. -/
theorem extractExpired_eq (now : TimePoint) (es : List Entry) (s : St κ) (cbs : List (Expired κ))
    (hnodup : (es.map Prod.snd).Nodup)
    (ht : ∀ e ∈ es, ∃ t, s.timers e.2 = some t ∧ t.cancelled = false) :
    ∃ taken rest new, es = taken ++ rest ∧ (∀ e ∈ taken, e.1 ≤ now) ∧
      new.map Expired.entry = taken ∧ extractExpired now es s cbs =
        ({ s with
            timers := fun id => if id ∈ taken.map Prod.snd then none else s.timers id
            scheduledTimers := fun id =>
              if id ∈ taken.map Prod.snd then none else s.scheduledTimers id
            schedule := rest },
          cbs ++ new) := by
  induction es generalizing s cbs with
  | nil => exact ⟨[], [], [], rfl, by simp, rfl, by simp [extractExpired]⟩
  | cons x xs ih =>
    obtain ⟨d, id⟩ := x
    simp only [extractExpired]
    split_ifs with hd
    · exact ⟨[], (d, id) :: xs, [], rfl, by simp, rfl, by simp⟩
    · obtain ⟨t, hti, hc⟩ := ht (d, id) (by simp)
      simp only at hti
      rw [List.map_cons, List.nodup_cons] at hnodup
      have hne : ∀ e ∈ xs, e.2 ≠ id := fun e he heq => by
        subst heq
        exact hnodup.1 (List.mem_map.2 ⟨e, he, rfl⟩)
      obtain ⟨taken, rest, new, rfl, h1, h2, h3⟩ := ih
        { s with
          scheduledTimers := Function.update s.scheduledTimers id none
          timers := Function.update s.timers id none }
        (cbs ++ [⟨(d, id), t.callback⟩]) hnodup.2 fun e he => by
          obtain ⟨t', ht', hc'⟩ := ht e (by simp [he])
          exact ⟨t', by simp only [Function.update_of_ne (hne e he), ht'], hc'⟩
      refine ⟨(d, id) :: taken, rest, ⟨(d, id), t.callback⟩ :: new, rfl, ?_, by simp [h2], ?_⟩
      · rintro e he
        rcases List.mem_cons.1 he with rfl | he
        · exact Nat.le_of_not_lt hd
        · exact h1 e he
      · simp only [hti, hc, Bool.false_eq_true, if_false, h3, List.append_assoc,
          List.singleton_append,
          List.map_cons, List.mem_cons]
        rw [update_take, update_take]

namespace Ordered

variable {s s' : St κ} {added : List Entry}

theorem extract (h : Ordered s added) (hpc : s.pc = .extract) :
    Ordered { (extractExpired s.now s.schedule s []).1 with
      pc := .callbacks (extractExpired s.now s.schedule s []).2 } added := by
  obtain ⟨taken, rest, new, hes, hdue, hnew, heq⟩ := extractExpired_eq s.now s.schedule s []
    h.schedule_nodup fun e he => by
      obtain ⟨t, ht, -⟩ := (h.timer e.1 e.2).1 he
      exact ⟨t, ht, h.live _ t ht⟩
  rw [heq]
  have hnodup := h.schedule_nodup
  rw [hes, List.map_append, List.nodup_append] at hnodup
  have hpending : s.pc.pending = [] := by simp [hpc, ThreadPc.pending]
  have hhist : s.started ++ taken ++ rest = history s := by
    rw [history, hpending, hes, List.append_nil, List.append_assoc]
  -- an entry that is left is not one of those moved out
  have hleft : ∀ e : Entry, e ∈ rest ↔ e ∈ s.schedule ∧ e.2 ∉ taken.map Prod.snd := by
    intro e
    rw [hes, List.mem_append]
    refine ⟨fun he => ⟨.inr he, fun ht => ?_⟩, fun ⟨he, hn⟩ => he.resolve_left fun ht => ?_⟩
    · exact hnodup.2.2 e.2 ht e.2 (List.mem_map_of_mem he) rfl
    · exact hn (List.mem_map_of_mem ht)
  refine ⟨?_, ?_, h.ids, h.fresh, ?_, ?_, fun d id => ?_, fun id it => ?_, fun id t ht => ?_⟩
  · simp only [history, ThreadPc.pending, List.nil_append, hnew, hhist]
    exact h.pairwise
  · simp only [history, ThreadPc.pending, List.nil_append, hnew, hhist]
    exact h.mem
  · simp only [ThreadPc.pending, List.nil_append, hnew]
    intro e he
    rcases List.mem_append.1 he with he | he
    · exact h.due e (List.mem_append_left _ he)
    · exact hdue e he
  · simp only [history, ThreadPc.pending, List.nil_append, hnew, hhist]
    exact h.cancelled
  · simp only [hleft, h.timer d id]
    by_cases hid : id ∈ taken.map Prod.snd <;> simp [hid]
  · simp only [hleft]
    by_cases hid : id ∈ taken.map Prod.snd
    · simp only [hid, if_true, reduceCtorEq, false_iff]
      rintro ⟨⟨-, hn⟩, rfl⟩
      exact hn hid
    · simp only [hid, if_false, h.iterator id it, and_assoc]
      refine and_congr_right fun _ => ⟨fun he => ⟨he ▸ hid, he⟩, fun he => he.2⟩
  · simp only at ht
    split_ifs at ht
    exact h.live id t ht

/-! ### Steps -/

theorem goto {pc : ThreadPc κ} (h : Ordered s added) (hpc : pc.pending = s.pc.pending) :
    Ordered { s with pc := pc } added :=
  h.move hpc rfl le_rfl rfl rfl rfl rfl rfl

theorem threadStep (h : Ordered s added) (hst : threadStep s = some s') : Ordered s' added := by
  unfold TimerManager.threadStep at hst
  cases hpc : s.pc with
  | untimedBlocked | timedBlocked d | exited => simp [hpc] at hst
  | loopHead | untimedCheck | timedCheck d | afterTimed =>
    simp only [hpc, Option.some.injEq] at hst
    subst hst
    refine h.goto ?_
    rw [hpc]
    split_ifs <;> rfl
  | lock | untimedWoken =>
    simp only [hpc] at hst
    split_ifs at hst
    cases hst
    exact h.goto (by rw [hpc]; rfl)
  | untimedWindow | timedWindow d =>
    simp only [hpc, Option.some.injEq] at hst
    subst hst
    exact h.goto (by rw [hpc]; rfl)
  | afterUntimed =>
    simp only [hpc] at hst
    split_ifs at hst
    · split at hst
      · cases hst
      · cases hst
        exact h.goto (by rw [hpc]; rfl)
    · cases hst
      exact h.goto (by rw [hpc]; rfl)
  | timedWoken d timeout =>
    simp only [hpc] at hst
    split_ifs at hst <;> cases hst <;> exact h.goto (by rw [hpc]; rfl)
  | extract =>
    simp only [hpc, Option.some.injEq] at hst
    subst hst
    exact h.extract hpc
  | callbacks rest =>
    cases rest with
    | nil =>
      simp only [hpc, Option.some.injEq] at hst
      subst hst
      exact h.goto (by rw [hpc]; rfl)
    | cons c rest =>
      simp only [hpc, Option.some.injEq] at hst
      subst hst
      have hpend : s.pc.pending = c.entry :: rest.map Expired.entry := by rw [hpc]; rfl
      split_ifs
      · -- the first callback that was moved out is started
        have hhist : history { s with
            pc := .callbacks rest, started := s.started ++ [c.entry] } = history s := by
          rw [history, history, hpend]
          simp [ThreadPc.pending]
        refine h.of_sublist (by rw [hhist]) ?_ le_rfl rfl rfl rfl rfl rfl
        rw [hpend]
        simp [ThreadPc.pending]
      · -- the rest of the batch is dropped
        refine h.of_sublist ?_ ?_ le_rfl rfl rfl rfl rfl rfl
        · simp [history, ThreadPc.pending]
        · simp [ThreadPc.pending]

/-- A step outside the sections of `add_timer` and `cancel_timer`. -/
theorem other {a : Act κ} (h : Ordered s added) (ha : a ≠ .leave)
    (hst : TimerManager.step s a = some s') : Ordered s' added := by
  cases a with
  | thread =>
    exact h.threadStep hst
  | timeout =>
    simp only [TimerManager.step] at hst
    split at hst
    · rename_i d hpc
      split_ifs at hst
      cases hst
      exact h.goto (by rw [hpc]; rfl)
    · cases hst
  | spurious =>
    simp only [TimerManager.step] at hst
    split at hst
    · rename_i hpc
      cases hst
      exact h.goto (by rw [hpc]; rfl)
    · rename_i d hpc
      cases hst
      exact h.goto (by rw [hpc]; rfl)
    · cases hst
  | enter c =>
    simp only [TimerManager.step] at hst
    split_ifs at hst
    · cases hst
      exact h.move rfl rfl le_rfl rfl rfl rfl rfl rfl
    · cases hst
      exact h
  | leave => exact absurd rfl ha
  | exchange =>
    cases hst
    split_ifs
    · exact h.move rfl rfl le_rfl rfl rfl rfl rfl rfl
    · exact h
  | notifyAll =>
    simp only [TimerManager.step] at hst
    split_ifs at hst
    cases hst
    exact h.move (pending_woken _) rfl le_rfl rfl rfl rfl rfl rfl
  | join =>
    simp only [TimerManager.step] at hst
    split_ifs at hst
    cases hst
    exact h.move rfl rfl le_rfl rfl rfl rfl rfl rfl
  | clear =>
    simp only [TimerManager.step] at hst
    split_ifs at hst
    cases hst
    have hsub : (s.started ++ s.pc.pending ++ []).Sublist (history s) :=
      (List.Sublist.refl _).append (List.nil_sublist _)
    refine ⟨h.pairwise.sublist hsub, fun e he => h.mem e (hsub.subset he), h.ids, h.fresh, h.due,
      fun id hid => ?_, by simp, by simp, by simp⟩
    exact ⟨(h.cancelled id hid).1, fun hm => (h.cancelled id hid).2 ((hsub.map _).subset hm)⟩
  | tick n =>
    cases hst
    exact h.move rfl rfl (Nat.le_add_right ..) rfl rfl rfl rfl rfl

/-- **One step** keeps the order. -/
theorem step {a : Act κ} (h : Ordered s added) (hst : step s a = some s') :
    Ordered s' (added ++ additions s a) := by
  by_cases ha : a = .leave
  · subst ha
    simp only [TimerManager.step] at hst
    split at hst
    · cases hst
    · rename_i delayMs cb hc
      cases hst
      simp only [additions, hc]
      exact (h.addTimer delayMs cb).move rfl rfl le_rfl rfl rfl rfl rfl rfl
    · rename_i id hc
      cases hst
      simp only [additions, hc, List.append_nil]
      exact (h.cancelTimer id).move rfl rfl le_rfl rfl rfl rfl rfl rfl
  · rw [additions_of_ne ha, List.append_nil]
    exact h.other ha hst

end Ordered

/-! ### Whole runs -/

variable {s : St κ} {added : List Entry}

theorem ordered_init : Ordered (init κ) [] := by
  constructor <;> simp [init, history, ThreadPc.pending]

/-- **The history stays in order.** -/
theorem ordered_of_reach (h : (recorded κ).Reach (init κ, []) (s, added)) : Ordered s added := by
  refine h.invariant (I := fun x => Ordered x.1 x.2) ordered_init fun x a y hx _ hst => ?_
  obtain ⟨s', hs', rfl⟩ := Option.map_eq_some_iff.1 hst
  exact hx.step hs'

/-- **The timer manager over whole runs.**  In every state of every run the containers agree;
every callback that was started belongs to a timer that was added, was not started twice, not before
its deadline, and was not cancelled; and the callbacks were started in the order of their deadlines,
those with equal deadlines in the order in which their timers were added. -/
theorem timers_correct (h : (recorded κ).Reach (init κ, []) (s, added)) :
    InStep s ∧
    (s.started.map Prod.snd).Nodup ∧
    (∀ e ∈ s.started, e ∈ added ∧ e.1 ≤ s.now ∧ e.2 ∉ s.cancelled) ∧
    s.started.Pairwise fun a b => a.1 < b.1 ∨ a.1 = b.1 ∧ [a, b].Sublist added := by
  have ho := ordered_of_reach h
  have hsub : s.started.Sublist (history s) := by
    rw [history, List.append_assoc]
    exact List.sublist_append_left _ _
  refine ⟨ho.inStep, ho.nodup.sublist (hsub.map _), fun e he => ⟨ho.mem e (hsub.subset he),
    ho.due e (List.mem_append_left _ he), fun hc => ?_⟩, ?_⟩
  · exact (ho.cancelled _ hc).2 (List.mem_map_of_mem (hsub.subset he))
  · refine (ho.pairwise.sublist hsub).imp_of_mem fun {a b} ha hb hab => ?_
    refine hab.imp_right fun ⟨h1, h2⟩ => ⟨h1, ?_⟩
    exact sublist_of_id ho.ids (ho.mem a (hsub.subset ha)) (ho.mem b (hsub.subset hb)) h2

/-- Three timers, two of them with the same deadline; the third is cancelled while the thread
waits, and one that is due at once is added before the first batch runs. -/
def threeTimers : List (Act ℕ) :=
  [.enter (.addTimer 5 10), .leave, .enter (.addTimer 5 20), .leave, .enter (.addTimer 9 30),
    .leave, .thread, .thread, .thread, .thread, .thread, .thread, .enter (.cancelTimer 3), .leave,
    .tick 5, .thread, .thread, .thread, .timeout, .thread, .thread, .thread,
    .enter (.addTimer 0 40), .leave, .thread, .thread, .thread, .thread, .thread, .thread,
    .thread, .thread, .thread, .timeout, .thread, .thread, .thread, .thread]

theorem timers_correct_threeTimers : ∃ (s : St ℕ) (added : List Entry),
    s.started = [(5, 1), (5, 2), (5, 4)] ∧ s.cancelled = [3] ∧ InStep s ∧
    s.started.Pairwise fun a b => a.1 < b.1 ∨ a.1 = b.1 ∧ [a, b].Sublist added := by
  obtain ⟨⟨s, added⟩, hs, hp⟩ := Machine.Reach.of_endsIn (M := recorded ℕ) (s := (init ℕ, []))
    (p := fun x => x.1.started = [(5, 1), (5, 2), (5, 4)] ∧ x.1.cancelled = [3])
    threeTimers (by decide +kernel)
  obtain ⟨h1, h2⟩ := of_decide_eq_true hp
  obtain ⟨hstep, -, -, horder⟩ := timers_correct hs
  exact ⟨s, added, h1, h2, hstep, horder⟩

end TimerManager

end CxpNet
