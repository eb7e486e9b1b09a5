import CxpNet.Net.Platform
import CxpNet.Poller.Registry
import Mathlib.Data.List.AList
import Mathlib.Data.List.ProdSigma

/-!
# What a poll delivers

`poll` and `fill_active_channels` of the two pollers.  `epoll_wait` reports a descriptor once and
hands back the pointer that was registered with it; `kevent` reports every filter of a descriptor
by itself, and the poller merges them in a map whose order is unspecified.  The channels that the
event loop is given, and the events each of them is told about, are the same.

* `Poller.poll_delivers` : whatever the channels did before, a poll delivers exactly the channels
  that something was reported for, each once, with all that was reported for it and nothing it did
  not ask for;
* `Poller.polls_agree` : two event loops, one over each poller, that are told the same deliver the
  same;
* `Poller.size_bounded` : the array for the reports grows with the number of descriptors at most,
  so that its size fits the `int` it is passed as.
-/

namespace CxpNet

/-- `events::kNone` -/
def Events.kNone : Events := ⟨false, false, false, false⟩

/-- `a | b` -/
def Events.or (a b : Events) : Events :=
  ⟨a.read || b.read, a.write || b.write, a.error || b.error, a.hup || b.hup⟩

namespace Poller

variable {ι π ρ : Type} [DecidableEq ι]

/-! ### The event loop's side -/

/-- A poller with its array, and what it leaves for the event loop. -/
structure Loop (ι π : Type) where
  poll : Poll ι π
  /-- `events_.size()` -/
  size : ℕ
  /-- `result_events_` of every channel. -/
  result : ι → Events
  /-- `active_channels_` -/
  active : List ι

/-- `kMaxPollEventCount` -/
def kMaxPollEventCount : ℕ := 64

namespace Loop

/-- `channel->set_result_events(revents); active_channels.push_back(channel);` -/
def report (c : ι) (ev : Events) (s : Loop ι π) : Loop ι π :=
  { s with result := Function.update s.result c ev, active := s.active ++ [c] }

/-- `if (n == events_.size()) { events_.resize(events_.size() * 2); }` -/
def grow (n : ℕ) (s : Loop ι π) : Loop ι π :=
  if n = s.size then { s with size := s.size * 2 } else s

/-- The events every channel asks for. -/
def masks (s : Loop ι π) (c : ι) : Mask := (s.poll.chan c).events

/-- An event loop that has just been constructed. -/
def init (p : π) : Loop ι π := ⟨.init p, kMaxPollEventCount, fun _ => .kNone, []⟩

end Loop

/-! ### epoll -/

namespace Epoll

/-- The events that are reported are among those asked for; errors and hangups always are. -/
def within (ev : EpollEvents) (m : EpollMask) : Bool :=
  (!ev.epollIn || m.epollIn) && (!ev.epollOut || m.epollOut) && (!ev.epollRdhup || m.epollRdhup)

/-- What the kernel writes into the array for a descriptor that is ready. -/
def entry (e : Epoll ι) (x : ℕ × EpollEvents) : Option (EpollEvents × ι) :=
  match e.set x.1 with
  | none => none
  | some (m, c) => if within x.2 m then some (x.2, c) else none

/-- `epoll_wait`, of which each descriptor in `r` is ready: it reports a descriptor at most once. -/
def epollWait (maxevents : ℤ) (r : List (ℕ × EpollEvents)) (e : Epoll ι) :
    Option (List (EpollEvents × ι)) :=
  if (r.length : ℤ) ≤ maxevents ∧ (r.map Prod.fst).Nodup ∧ r.all fun x => (e.entry x).isSome then
    some (r.filterMap e.entry)
  else none

variable (fd : ι → ℕ)

/-- `EpollPoller::fill_active_channels` -/
def fillActiveChannels : List (EpollEvents × ι) → Loop ι (Epoll ι) → Loop ι (Epoll ι)
  | [], s => s
  | (ev, c) :: es, s =>
    if (s.poll.poller.channels (fd c)).isNone then fillActiveChannels es s
    else fillActiveChannels es (s.report c ev.toEvents)

/-- `EpollPoller::poll`; `none` if `epoll_wait` fails. -/
def poll (r : Option (List (ℕ × EpollEvents))) (s : Loop ι (Epoll ι)) :
    Option (Loop ι (Epoll ι)) :=
  match r with
  | none => some s
  | some r =>
    (epollWait (toInt s.size) r s.poll.poller).map fun es =>
      if 0 < es.length then (fillActiveChannels fd es s).grow es.length else s

end Epoll

/-! ### kqueue -/

namespace Kqueue

/-- What `kevent` reports, and the order in which the map of `fill_active_channels` is traversed. -/
structure Ret where
  events : List (ℕ × Kevent)
  order : List (Σ _ : ℕ, Events)
  deriving DecidableEq

/-- The filter of a report is one of those the kernel has. -/
def registered (k : Kqueue ι) (x : ℕ × Kevent) : Bool :=
  match x.2.filter with
  | .read => k.readFilter x.1
  | .write => k.writeFilter x.1

/-- `kevent`: it reports a filter at most once. -/
def keventWait (nevents : ℤ) (r : List (ℕ × Kevent)) (k : Kqueue ι) : Bool :=
  (r.length : ℤ) ≤ nevents ∧ (r.map fun x => (x.1, x.2.filter)).Nodup ∧ r.all k.registered

/-- The map `fd_events`, after the first loop. -/
def fdEvents (k : Kqueue ι) (es : List (ℕ × Kevent)) : AList fun _ : ℕ => Events :=
  es.foldl (fun m x =>
    if (k.channels x.1).isNone then m
    else m.insert x.1 (((m.lookup x.1).getD .kNone).or x.2.toEvents)) ∅

/-- The second loop. -/
def reportMerged : List (Σ _ : ℕ, Events) → Loop ι (Kqueue ι) → Loop ι (Kqueue ι)
  | [], s => s
  | x :: xs, s =>
    match s.poll.poller.channels x.1 with
    | none => reportMerged xs s
    | some c => reportMerged xs (s.report c x.2)

/-- `KqueuePoller::fill_active_channels` -/
def fillActiveChannels (r : Ret) (s : Loop ι (Kqueue ι)) : Option (Loop ι (Kqueue ι)) :=
  if r.order.Perm (s.poll.poller.fdEvents r.events).entries then some (reportMerged r.order s)
  else none

/-- `KqueuePoller::poll`; `none` if `kevent` fails. -/
def poll (r : Option Ret) (s : Loop ι (Kqueue ι)) : Option (Loop ι (Kqueue ι)) :=
  match r with
  | none => some s
  | some r =>
    if s.poll.poller.keventWait (toInt s.size) r.events then
      if 0 < r.events.length then
        (fillActiveChannels r s).map fun s => s.grow r.events.length
      else some s
    else none

end Kqueue

/-! ### The loop -/

/-- What the thread of the event loop does with its poller. -/
inductive LoopAct (ι ρ : Type) where
  | op (o : Op ι)
  /-- `active_channels_.clear(); poller_->poll(..);` -/
  | poll (r : ρ)
  deriving DecidableEq

/-- An event loop over a poller with this `poll`. -/
def looped (P : PollerBase ι π) (poll : ρ → Loop ι π → Option (Loop ι π)) :
    Machine (Loop ι π) (LoopAct ι ρ) where
  step s a :=
    match a with
    | .op o => ((machine P).step s.poll o).map fun p => { s with poll := p }
    | .poll r => poll r { s with active := [] }

/-- The event loop of Linux. -/
def epolled (fd : ι → ℕ) :
    Machine (Loop ι (Epoll ι)) (LoopAct ι (Option (List (ℕ × EpollEvents)))) :=
  looped (Epoll.poller fd) (Epoll.poll fd)

/-- The event loop of macOS. -/
def kqueued (fd : ι → ℕ) : Machine (Loop ι (Kqueue ι)) (LoopAct ι (Option Kqueue.Ret)) :=
  looped (Kqueue.poller fd) Kqueue.poll

/-- The operations on the channels are legal. -/
def LegalIn (fd : ι → ℕ) (s : Loop ι π) : LoopAct ι ρ → Prop
  | .op o => Legal fd s.masks o
  | .poll _ => True

instance [Fintype ι] (fd : ι → ℕ) (s : Loop ι π) (a : LoopAct ι ρ) : Decidable (LegalIn fd s a) :=
  match a with
  | .op o => inferInstanceAs (Decidable (Legal fd s.masks o))
  | .poll _ => .isTrue trivial

/-! ### What is to be delivered -/

/-- All that is reported for a descriptor. -/
def reported (r : List (ℕ × Events)) (h : ℕ) : Option Events :=
  r.foldl (fun o x => if x.1 = h then some ((o.getD .kNone).or x.2) else o) none

/-- The reports of `epoll_wait`, in unified events. -/
def Epoll.view (r : Option (List (ℕ × EpollEvents))) : List (ℕ × Events) :=
  (r.getD []).map fun x => (x.1, x.2.toEvents)

/-- The reports of `kevent`, in unified events. -/
def Kqueue.view (r : Option Kqueue.Ret) : List (ℕ × Events) :=
  (r.elim [] Kqueue.Ret.events).map fun x => (x.1, x.2.toEvents)

/-- **A poll has delivered** what was reported, to channels that ask for the events `masks`. -/
structure Delivers (fd : ι → ℕ) (masks : ι → Mask) (report : ℕ → Option Events)
    (s : Loop ι π) : Prop where
  /-- A channel is handled once. -/
  nodup : s.active.Nodup
  /-- Only a channel that asks for events is handled, and only if there is a report for it. -/
  mem_iff : ∀ c, c ∈ s.active ↔ masks c ≠ .kNone ∧ (report (fd c)).isSome
  /-- It is told all that was reported. -/
  result_eq : ∀ c ∈ s.active, report (fd c) = some (s.result c)
  /-- It is told to read or to write only if it asks for it. -/
  asked : ∀ c ∈ s.active,
    ((s.result c).read → (masks c).read) ∧ ((s.result c).write → (masks c).write)
  /-- No report is dropped. -/
  complete : ∀ h, (report h).isSome → ∃ c ∈ s.active, fd c = h

@[simp] theorem kNone_or (ev : Events) : Events.kNone.or ev = ev := by
  cases ev
  simp [Events.or, Events.kNone]

theorem reported_append (r : List (ℕ × Events)) (x : ℕ × Events) (h : ℕ) :
    reported (r ++ [x]) h =
      if x.1 = h then some (((reported r h).getD .kNone).or x.2) else reported r h := by
  rw [reported, List.foldl_append]
  rfl

theorem mem_of_reported {r : List (ℕ × Events)} {h : ℕ} (hr : (reported r h).isSome) :
    ∃ ev, (h, ev) ∈ r := by
  induction r using List.reverseRecOn with
  | nil => cases hr
  | append_singleton r x ih =>
    rw [reported_append] at hr
    split_ifs at hr with hx
    · exact ⟨x.2, by simp [← hx]⟩
    · obtain ⟨ev, hev⟩ := ih hr
      exact ⟨ev, by simp [hev]⟩

/-- A bit that is told was reported. -/
theorem reported_bit {p : Events → Bool} (h0 : p .kNone = false)
    (hor : ∀ a b, p (a.or b) = (p a || p b)) {r : List (ℕ × Events)} {h : ℕ} {ev : Events}
    (hr : reported r h = some ev) (hp : p ev = true) : ∃ ev', (h, ev') ∈ r ∧ p ev' = true := by
  induction r using List.reverseRecOn generalizing ev with
  | nil => cases hr
  | append_singleton r x ih =>
    rw [reported_append] at hr
    split_ifs at hr with hx
    · cases hr
      rw [hor, Bool.or_eq_true] at hp
      rcases hp with hp | hp
      · cases hold : reported r h with
        | none => simp [hold, h0] at hp
        | some old =>
          rw [hold] at hp
          obtain ⟨ev', hmem, hp'⟩ := ih hold hp
          exact ⟨ev', by simp [hmem], hp'⟩
      · exact ⟨x.2, by simp [← hx], hp⟩
    · obtain ⟨ev', hmem, hp'⟩ := ih hr hp
      exact ⟨ev', by simp [hmem], hp'⟩

/-- Where a descriptor is reported once, there is nothing to merge. -/
theorem reported_of_nodup {r : List (ℕ × Events)} (hr : (r.map Prod.fst).Nodup) {h : ℕ}
    {ev : Events} : reported r h = some ev ↔ (h, ev) ∈ r := by
  induction r using List.reverseRecOn with
  | nil => simp [reported]
  | append_singleton r x ih =>
    rw [List.map_append, List.nodup_append] at hr
    obtain ⟨hr, -, hdisj⟩ := hr
    rw [reported_append]
    have hnew : x.1 = h → reported r h = none := by
      rintro rfl
      by_contra hne
      obtain ⟨ev', hev'⟩ := mem_of_reported (Option.ne_none_iff_isSome.1 hne)
      exact hdisj x.1 (List.mem_map.2 ⟨_, hev', rfl⟩) x.1 (by simp) rfl
    split_ifs with hx
    · rw [hnew hx]
      obtain ⟨xh, xev⟩ := x
      subst hx
      have hmem : (xh, ev) ∉ r := fun hmem => by
        simpa [hnew rfl] using (ih hr).2 hmem
      simp [hmem, eq_comm]
    · rw [ih hr]
      have hne : (h, ev) ≠ x := fun he => hx (by rw [← he])
      simp [hne]

/-! ### A list of reports -/

/-- One report after the other. -/
def Loop.reportAll (l : List (ι × Events)) (s : Loop ι π) : Loop ι π :=
  l.foldl (fun s x => s.report x.1 x.2) s

namespace Loop

variable {l : List (ι × Events)} {s : Loop ι π}

theorem reportAll_cons (x : ι × Events) : s.reportAll (x :: l) = (s.report x.1 x.2).reportAll l :=
  rfl

theorem reportAll_fields (l : List (ι × Events)) (s : Loop ι π) :
    (s.reportAll l).poll = s.poll ∧ (s.reportAll l).size = s.size ∧
      (s.reportAll l).active = s.active ++ l.map Prod.fst := by
  induction l generalizing s with
  | nil => exact ⟨rfl, rfl, (List.append_nil _).symm⟩
  | cons x l ih =>
    obtain ⟨h1, h2, h3⟩ := ih (s.report x.1 x.2)
    exact ⟨h1, h2, by rw [reportAll_cons, h3]; simp [report]⟩

/-- A channel without a report keeps its result. -/
theorem reportAll_result_of_notMem {c : ι} (hc : c ∉ l.map Prod.fst) :
    (s.reportAll l).result c = s.result c := by
  induction l generalizing s with
  | nil => rfl
  | cons x l ih =>
    rw [List.map_cons, List.mem_cons, not_or] at hc
    rw [reportAll_cons, ih hc.2]
    exact Function.update_of_ne hc.1 ..

theorem reportAll_result {c : ι} {ev : Events} (hl : (l.map Prod.fst).Nodup) (hc : (c, ev) ∈ l) :
    (s.reportAll l).result c = ev := by
  induction l generalizing s with
  | nil => cases hc
  | cons x l ih =>
    rw [List.map_cons, List.nodup_cons] at hl
    rcases List.mem_cons.1 hc with rfl | hc
    · rw [reportAll_cons, reportAll_result_of_notMem hl.1]
      exact Function.update_self ..
    · exact ih hl.2 hc

omit [DecidableEq ι] in
@[simp] theorem grow_poll (n : ℕ) : (s.grow n).poll = s.poll := by
  unfold grow
  split_ifs <;> rfl

end Loop

namespace Delivers

variable {fd : ι → ℕ} {masks : ι → Mask} {report : ℕ → Option Events} {s s' : Loop ι π}

/-- The lists that a poll may report one after the other. -/
theorem of_reportAll {l : List (ι × Events)} (h0 : s.active = []) (hl : (l.map Prod.fst).Nodup)
    (hmem : ∀ c ev, (c, ev) ∈ l ↔ masks c ≠ .kNone ∧ report (fd c) = some ev)
    (hasked : ∀ c ev, (c, ev) ∈ l → (ev.read → (masks c).read) ∧ (ev.write → (masks c).write))
    (hcomplete : ∀ h, (report h).isSome → ∃ c, masks c ≠ .kNone ∧ fd c = h) :
    Delivers fd masks report (s.reportAll l) := by
  have hactive : (s.reportAll l).active = l.map Prod.fst := by
    rw [(s.reportAll_fields l).2.2, h0, List.nil_append]
  have hin : ∀ c, c ∈ (s.reportAll l).active ↔ ∃ ev, (c, ev) ∈ l := by simp [hactive]
  have hsome : ∀ c, c ∈ (s.reportAll l).active ↔ masks c ≠ .kNone ∧ (report (fd c)).isSome := by
    intro c
    rw [hin]
    simp only [hmem, exists_and_left, Option.isSome_iff_exists]
  refine ⟨hactive ▸ hl, hsome, fun c hc => ?_, fun c hc => ?_, fun h hh => ?_⟩
  · obtain ⟨ev, hev⟩ := (hin c).1 hc
    rw [Loop.reportAll_result hl hev]
    exact ((hmem c ev).1 hev).2
  · obtain ⟨ev, hev⟩ := (hin c).1 hc
    rw [Loop.reportAll_result hl hev]
    exact hasked c ev hev
  · obtain ⟨c, hc, rfl⟩ := hcomplete h hh
    exact ⟨c, (hsome c).2 ⟨hc, hh⟩, rfl⟩

theorem nothing (h0 : s.active = []) (hreport : ∀ h, report h = none) :
    Delivers fd masks report s := by
  refine of_reportAll (l := []) h0 List.nodup_nil (fun c ev => ?_) (by simp) fun h hh => ?_
  · simp [hreport]
  · simp [hreport] at hh

omit [DecidableEq ι] in
theorem grow (h : Delivers fd masks report s) (n : ℕ) : Delivers fd masks report (s.grow n) := by
  unfold Loop.grow
  split_ifs
  · exact ⟨h.nodup, h.mem_iff, h.result_eq, h.asked, h.complete⟩
  · exact h

omit [DecidableEq ι] in
/-- What is delivered is decided by what the channels ask for and what is reported. -/
theorem unique {π' : Type} {t : Loop ι π'} (h : Delivers fd masks report s)
    (h' : Delivers fd masks report t) :
    s.active.Perm t.active ∧ ∀ c ∈ s.active, s.result c = t.result c := by
  refine ⟨(List.perm_ext_iff_of_nodup h.nodup h'.nodup).2 fun c => ?_, fun c hc => ?_⟩
  · rw [h.mem_iff, h'.mem_iff]
  · have hc' : c ∈ t.active := (h'.mem_iff c).2 ((h.mem_iff c).1 hc)
    exact Option.some.inj ((h.result_eq c hc).symm.trans (h'.result_eq c hc'))

end Delivers

/-! ### epoll -/

namespace Epoll

variable {fd : ι → ℕ} {s s' : Loop ι (Epoll ι)}

omit [DecidableEq ι] in
/-- What is written into the array belongs to the channel that is registered. -/
theorem entry_eq {p : Poll ι (Epoll ι)} (h : Rel fd p) {x : ℕ × EpollEvents} {y : EpollEvents × ι}
    (hy : p.poller.entry x = some y) :
    y.1 = x.2 ∧ fd y.2 = x.1 ∧ p.poller.channels x.1 = some y.2 ∧
      within x.2 (toEpollEvents (p.chan y.2).events) = true := by
  unfold entry at hy
  rw [h.set_eq] at hy
  cases hc : p.poller.channels x.1 with
  | none => simp [hc] at hy
  | some c =>
    simp only [hc, Option.map_some] at hy
    split_ifs at hy with hw
    cases hy
    exact ⟨rfl, ((h.registered.channels_iff _ _).1 hc).1, rfl, hw⟩

/-- With all channels registered, the check of `fill_active_channels` drops nothing. -/
theorem fillActiveChannels_eq {es : List (EpollEvents × ι)}
    (hes : ∀ y ∈ es, (s.poll.poller.channels (fd y.2)).isSome) :
    fillActiveChannels fd es s = s.reportAll (es.map fun y => (y.2, y.1.toEvents)) := by
  induction es generalizing s with
  | nil => rfl
  | cons y es ih =>
    have hy : (s.poll.poller.channels (fd y.2)).isNone = false := by
      simpa using hes y List.mem_cons_self
    rw [fillActiveChannels, hy, if_neg Bool.false_ne_true]
    exact ih fun z hz => hes z (List.mem_cons_of_mem _ hz)

omit [DecidableEq ι] in
/-- The descriptors of the entries are those that were reported. -/
theorem entry_fds {p : Poll ι (Epoll ι)} (h : Rel fd p) {r : List (ℕ × EpollEvents)}
    (hr : r.all fun x => (p.poller.entry x).isSome) :
    (r.filterMap p.poller.entry).map (fun y => fd y.2) = r.map Prod.fst := by
  induction r with
  | nil => rfl
  | cons x r ih =>
    rw [List.all_cons, Bool.and_eq_true] at hr
    obtain ⟨y, hy⟩ := Option.isSome_iff_exists.1 hr.1
    rw [List.filterMap_cons_some hy, List.map_cons, List.map_cons, ih hr.2, (entry_eq h hy).2.1]

omit [DecidableEq ι] in
/-- A report is for a channel and one event set. -/
theorem mem_entries {p : Poll ι (Epoll ι)} (h : Rel fd p) {r : List (ℕ × EpollEvents)}
    (hr : r.all fun x => (p.poller.entry x).isSome) {c : ι} {ev : EpollEvents} :
    (ev, c) ∈ r.filterMap p.poller.entry ↔ (p.chan c).events ≠ .kNone ∧ (fd c, ev) ∈ r := by
  rw [List.mem_filterMap]
  constructor
  · rintro ⟨x, hx, hxy⟩
    obtain ⟨h1, h2, h3, -⟩ := entry_eq h hxy
    exact ⟨((h.registered.channels_iff _ _).1 h3).2, (Prod.ext h2 h1 : (fd c, ev) = x) ▸ hx⟩
  · rintro ⟨hc, hmem⟩
    obtain ⟨y, hy⟩ := Option.isSome_iff_exists.1 (List.all_eq_true.1 hr _ hmem)
    obtain ⟨h1, -, h3, -⟩ := entry_eq h hy
    have hy2 : y.2 = c :=
      Option.some.inj (h3.symm.trans ((h.registered.channels_iff _ _).2 ⟨rfl, hc⟩))
    exact ⟨(fd c, ev), hmem, hy.trans (congrArg some (Prod.ext h1 hy2))⟩

/-- **`EpollPoller::fill_active_channels`** -/
theorem fillActiveChannels_spec (h : Rel fd s.poll) (h0 : s.active = [])
    {r : List (ℕ × EpollEvents)} (hnodup : (r.map Prod.fst).Nodup)
    (hr : r.all fun x => (s.poll.poller.entry x).isSome) :
    (fillActiveChannels fd (r.filterMap s.poll.poller.entry) s).poll = s.poll ∧
      Delivers fd s.masks (reported (view (some r)))
        (fillActiveChannels fd (r.filterMap s.poll.poller.entry) s) := by
  have hentry : ∀ y ∈ r.filterMap s.poll.poller.entry, ∃ x ∈ r, s.poll.poller.entry x = some y :=
    fun y hy => List.mem_filterMap.1 hy
  have hopen : ∀ y ∈ r.filterMap s.poll.poller.entry,
      (s.poll.poller.channels (fd y.2)).isSome := fun y hy => by
    obtain ⟨x, -, hx⟩ := hentry y hy
    obtain ⟨-, hfd, hc, -⟩ := entry_eq h hx
    rw [hfd, hc]
    rfl
  rw [fillActiveChannels_eq hopen]
  have hview : ((view (some r)).map Prod.fst).Nodup := by
    simpa [view, Function.comp_def] using hnodup
  refine ⟨(s.reportAll_fields _).1, .of_reportAll h0 ?_ (fun c ev => ?_) (fun c ev hmem => ?_)
    fun k hk => ?_⟩
  · rw [List.map_map]
    -- no channel is reported twice, for no descriptor is
    refine List.Nodup.of_map fd ?_
    rw [List.map_map]
    exact entry_fds h hr ▸ hnodup
  · rw [reported_of_nodup hview]
    simp only [view, Option.getD_some, List.mem_map, Prod.mk.injEq, Prod.exists]
    constructor
    · rintro ⟨e, c', hmem, rfl, rfl⟩
      obtain ⟨hc, hmem⟩ := (mem_entries h hr).1 hmem
      exact ⟨hc, fd c', e, hmem, rfl, rfl⟩
    · rintro ⟨hc, k, e, hmem, rfl, rfl⟩
      exact ⟨e, c, (mem_entries h hr).2 ⟨hc, hmem⟩, rfl, rfl⟩
  · obtain ⟨y, hy, he⟩ := List.mem_map.1 hmem
    cases he
    obtain ⟨x, -, hx⟩ := hentry y hy
    obtain ⟨h1, -, -, hw⟩ := entry_eq h hx
    simp only [within, toEpollEvents, Bool.and_eq_true, Bool.or_eq_true, Bool.not_eq_true'] at hw
    obtain ⟨⟨hread, hwrite⟩, -⟩ := hw
    rw [h1]
    exact ⟨fun hin => hread.resolve_left (by simpa [EpollEvents.toEvents] using hin),
      fun hout => hwrite.resolve_left (by simpa [EpollEvents.toEvents] using hout)⟩
  · obtain ⟨ev, hev⟩ := mem_of_reported hk
    obtain ⟨x, hx, he⟩ := List.mem_map.1 hev
    cases he
    obtain ⟨y, hy⟩ := Option.isSome_iff_exists.1 (List.all_eq_true.1 hr x hx)
    obtain ⟨-, h2, h3, -⟩ := entry_eq h hy
    exact ⟨y.2, ((h.registered.channels_iff _ _).1 h3).2, h2⟩

/-- **`EpollPoller::poll`** -/
theorem poll_spec (h : Rel fd s.poll) (h0 : s.active = []) {r : Option (List (ℕ × EpollEvents))}
    (hst : poll fd r s = some s') :
    s'.poll = s.poll ∧ Delivers fd s.masks (reported (view r)) s' := by
  cases r with
  | none =>
    cases hst
    exact ⟨rfl, .nothing h0 fun _ => rfl⟩
  | some r =>
    obtain ⟨es, hes, rfl⟩ := Option.map_eq_some_iff.1 hst
    unfold epollWait at hes
    split_ifs at hes with hr
    cases hes
    obtain ⟨hpoll, hdeliver⟩ := fillActiveChannels_spec h h0 hr.2.1 hr.2.2
    split_ifs with hpos
    · exact ⟨by rw [Loop.grow_poll, hpoll], hdeliver.grow _⟩
    · have hnil : r.filterMap s.poll.poller.entry = [] :=
        List.eq_nil_of_length_eq_zero (Nat.eq_zero_of_not_pos hpos)
      rw [hnil] at hdeliver
      exact ⟨rfl, hdeliver⟩

end Epoll

/-! ### kqueue -/

namespace Kqueue

variable {fd : ι → ℕ} {s s' : Loop ι (Kqueue ι)}

omit [DecidableEq ι] in
/-- **The map `fd_events`** holds all that was reported for the descriptors of registered
channels. -/
theorem lookup_fdEvents (k : Kqueue ι) (es : List (ℕ × Kevent)) (h : ℕ) :
    (k.fdEvents es).lookup h =
      if (k.channels h).isNone then none
      else reported (es.map fun x => (x.1, x.2.toEvents)) h := by
  induction es using List.reverseRecOn with
  | nil => simp [fdEvents, reported]
  | append_singleton es x ih =>
    have hsnoc : k.fdEvents (es ++ [x]) =
        if (k.channels x.1).isNone then k.fdEvents es
        else (k.fdEvents es).insert x.1
          ((((k.fdEvents es).lookup x.1).getD .kNone).or x.2.toEvents) := by
      rw [fdEvents, List.foldl_append]
      rfl
    rw [hsnoc, List.map_append, List.map_singleton, reported_append]
    by_cases hx : x.1 = h
    · subst hx
      cases hc : (k.channels x.1).isNone with
      | true => simpa [hc] using ih
      | false => simp [hc, ih]
    · rw [if_neg hx, ← ih]
      split_ifs
      · rfl
      · exact AList.lookup_insert_ne (Ne.symm hx)

omit [DecidableEq ι] in
/-- The reports of the second loop. -/
def merged (k : Kqueue ι) (order : List (Σ _ : ℕ, Events)) : List (ι × Events) :=
  order.filterMap fun x => (k.channels x.1).map fun c => (c, x.2)

theorem reportMerged_eq (order : List (Σ _ : ℕ, Events)) :
    reportMerged order s = s.reportAll (s.poll.poller.merged order) := by
  induction order generalizing s with
  | nil => rfl
  | cons x xs ih =>
    rw [reportMerged]
    cases hc : s.poll.poller.channels x.1 with
    | none =>
      have hskip : s.poll.poller.merged (x :: xs) = s.poll.poller.merged xs :=
        List.filterMap_cons_none (by simp [hc])
      rw [hskip]
      exact ih
    | some c =>
      have hhead : s.poll.poller.merged (x :: xs) = (c, x.2) :: s.poll.poller.merged xs :=
        List.filterMap_cons_some (by simp [hc])
      rw [hhead]
      exact ih

omit [DecidableEq ι] in
/-- A filter that is reported belongs to a channel that asks for it. -/
theorem channel_of_registered {p : Poll ι (Kqueue ι)} (h : Rel fd p) {x : ℕ × Kevent}
    (hx : p.poller.registered x = true) : ∃ c, p.poller.channels x.1 = some c ∧
      (x.2.filter = .read → (p.chan c).events.read = true) ∧
      (x.2.filter = .write → (p.chan c).events.write = true) := by
  have hinterest := h.registered.interest_eq x.1
  unfold registered at hx
  cases hc : p.poller.channels x.1 with
  | none =>
    rw [hc] at hinterest
    simp only [recordedFor, interest, Mask.kNone, Mask.mk.injEq] at hinterest
    cases hf : x.2.filter <;> simp [hf, hinterest] at hx
  | some c =>
    rw [hc] at hinterest
    simp only [recordedFor, interest] at hinterest
    refine ⟨c, rfl, fun hf => ?_, fun hf => ?_⟩
    · rw [hf] at hx
      rw [← hinterest]
      exact hx
    · rw [hf] at hx
      rw [← hinterest]
      exact hx

omit [DecidableEq ι] in
/-- The reports of the second loop have different descriptors. -/
theorem merged_fds {p : Poll ι (Kqueue ι)} (h : Rel fd p) (order : List (Σ _ : ℕ, Events)) :
    ((p.poller.merged order).map fun y => fd y.1).Sublist (order.map Sigma.fst) := by
  induction order with
  | nil => exact List.Sublist.slnil
  | cons x xs ih =>
    cases hc : p.poller.channels x.1 with
    | none =>
      have hskip : p.poller.merged (x :: xs) = p.poller.merged xs :=
        List.filterMap_cons_none (by simp [hc])
      rw [hskip]
      exact ih.cons _
    | some c =>
      have hhead : p.poller.merged (x :: xs) = (c, x.2) :: p.poller.merged xs :=
        List.filterMap_cons_some (by simp [hc])
      have hfd : fd c = x.1 := ((h.registered.channels_iff _ _).1 hc).1
      rw [hhead, List.map_cons, List.map_cons, hfd]
      exact ih.cons_cons _

omit [DecidableEq ι] in
/-- A channel is reported with all that was reported for its descriptor. -/
theorem mem_merged {p : Poll ι (Kqueue ι)} (h : Rel fd p) {r : Ret}
    (hperm : r.order.Perm (p.poller.fdEvents r.events).entries) {c : ι} {ev : Events} :
    (c, ev) ∈ p.poller.merged r.order ↔
      (p.chan c).events ≠ .kNone ∧ reported (view (some r)) (fd c) = some ev := by
  have horder : ∀ k ev, (⟨k, ev⟩ : Σ _ : ℕ, Events) ∈ r.order ↔
      (p.poller.fdEvents r.events).lookup k = some ev := fun k ev => by
    rw [hperm.mem_iff, ← AList.mem_lookup_iff, Option.mem_def]
  simp only [merged, List.mem_filterMap, Option.map_eq_some_iff, Prod.mk.injEq]
  constructor
  · rintro ⟨x, hx, c', hc', rfl, rfl⟩
    obtain ⟨hfd, hev⟩ := (h.registered.channels_iff _ _).1 hc'
    have hlook := (horder x.1 x.2).1 hx
    rw [lookup_fdEvents, hc', ← hfd] at hlook
    exact ⟨hev, hlook⟩
  · rintro ⟨hc, hrep⟩
    have hch := (h.registered.channels_iff (fd c) c).2 ⟨rfl, hc⟩
    refine ⟨⟨fd c, ev⟩, (horder _ _).2 ?_, c, hch, rfl, rfl⟩
    rw [lookup_fdEvents, hch]
    exact hrep

omit [DecidableEq ι] in
/-- A bit that a channel is told was reported by one of its filters. -/
theorem filter_of_merged {p : Poll ι (Kqueue ι)} (h : Rel fd p) {r : Ret}
    (hperm : r.order.Perm (p.poller.fdEvents r.events).entries) {b : Events → Bool}
    (h0 : b .kNone = false) (hor : ∀ x y, b (x.or y) = (b x || b y)) {c : ι} {ev : Events}
    (hc : (c, ev) ∈ p.poller.merged r.order) (hb : b ev = true) :
    ∃ x ∈ r.events, p.poller.channels x.1 = some c ∧ b x.2.toEvents = true := by
  obtain ⟨hev, hrep⟩ := (mem_merged h hperm).1 hc
  obtain ⟨ev', hev', hb'⟩ := reported_bit h0 hor hrep hb
  obtain ⟨x, hx, he⟩ := List.mem_map.1 hev'
  obtain ⟨hfd, rfl⟩ := Prod.mk.inj he
  exact ⟨x, hx, (h.registered.channels_iff _ _).2 ⟨hfd.symm, hev⟩, hb'⟩

/-- **`KqueuePoller::fill_active_channels`** -/
theorem fillActiveChannels_spec (h : Rel fd s.poll) (h0 : s.active = []) {r : Ret}
    (hall : r.events.all s.poll.poller.registered) (hst : fillActiveChannels r s = some s') :
    s'.poll = s.poll ∧ Delivers fd s.masks (reported (view (some r))) s' := by
  unfold fillActiveChannels at hst
  split_ifs at hst with hperm
  cases hst
  have hfilter := fun x hx => channel_of_registered h (List.all_eq_true.1 hall x hx)
  rw [reportMerged_eq]
  refine ⟨(s.reportAll_fields _).1, .of_reportAll h0 ?_ (fun c ev => mem_merged h hperm)
    (fun c ev hc => ⟨fun hread => ?_, fun hwrite => ?_⟩) fun k hk => ?_⟩
  · refine List.Nodup.of_map fd ?_
    have hkeys : (r.order.map Sigma.fst).Nodup :=
      (hperm.map _).nodup_iff.2 (s.poll.poller.fdEvents r.events).nodupKeys
    rw [List.map_map]
    exact hkeys.sublist (merged_fds h r.order)
  · obtain ⟨x, hx, hc, hb⟩ := filter_of_merged h hperm (b := Events.read) rfl (fun _ _ => rfl) hc
      hread
    obtain ⟨c', hc', hread, -⟩ := hfilter x hx
    cases hc.symm.trans hc'
    exact hread (by simpa [Kevent.toEvents] using hb)
  · obtain ⟨x, hx, hc, hb⟩ := filter_of_merged h hperm (b := Events.write) rfl (fun _ _ => rfl) hc
      hwrite
    obtain ⟨c', hc', -, hwrite⟩ := hfilter x hx
    cases hc.symm.trans hc'
    exact hwrite (by simpa [Kevent.toEvents] using hb)
  · obtain ⟨ev, hev⟩ := mem_of_reported hk
    obtain ⟨x, hx, he⟩ := List.mem_map.1 hev
    cases he
    obtain ⟨c, hc, -⟩ := hfilter x hx
    obtain ⟨hfd, hne⟩ := (h.registered.channels_iff _ _).1 hc
    exact ⟨c, hne, hfd⟩

/-- **`KqueuePoller::poll`** -/
theorem poll_spec (h : Rel fd s.poll) (h0 : s.active = []) {r : Option Ret}
    (hst : poll r s = some s') :
    s'.poll = s.poll ∧ Delivers fd s.masks (reported (view r)) s' := by
  cases r with
  | none =>
    cases hst
    exact ⟨rfl, .nothing h0 fun _ => rfl⟩
  | some r =>
    simp only [poll] at hst
    split_ifs at hst with hwait hpos
    · obtain ⟨t, ht, rfl⟩ := Option.map_eq_some_iff.1 hst
      simp only [keventWait, decide_eq_true_eq] at hwait
      obtain ⟨hpoll, hdeliver⟩ := fillActiveChannels_spec h h0 hwait.2.2 ht
      exact ⟨by rw [Loop.grow_poll, hpoll], hdeliver.grow _⟩
    · cases hst
      have hnil : r.events = [] := List.eq_nil_of_length_eq_zero (Nat.eq_zero_of_not_pos hpos)
      exact ⟨rfl, .nothing h0 fun _ => by simp [view, hnil, reported]⟩

end Kqueue

/-! ### Whole runs -/

section

variable {fd : ι → ℕ} {P : PollerBase ι π} {R : Poll ι π → Prop}
  {poll : ρ → Loop ι π → Option (Loop ι π)} {s s' : Loop ι π}

/-- A legal operation keeps the invariant of the poller, and changes the events of its channel as
in the registry. -/
theorem Implements.step (h : Implements fd P R) (hR : R s.poll) {o : Op ι}
    (hlegal : Legal fd s.masks o) (hst : (looped P poll).step s (.op o) = some s') :
    R s'.poll ∧ (∀ c, s'.masks c = Function.update s.masks o.chan (o.apply (s.masks o.chan)) c) ∧
      s'.size = s.size ∧ s'.result = s.result ∧ s'.active = s.active := by
  obtain ⟨p, hp, rfl⟩ := Option.map_eq_some_iff.1 hst
  obtain ⟨p', hp', hR', hmasks⟩ :=
    h.simulation.step s.masks s.poll o _ ⟨hR, fun _ => rfl⟩ hlegal rfl
  cases hp.symm.trans hp'
  exact ⟨hR', hmasks, rfl, rfl, rfl⟩

/-- A poll with a specification. -/
def Polls (fd : ι → ℕ) (R : Poll ι π → Prop) (poll : ρ → Loop ι π → Option (Loop ι π))
    (view : ρ → List (ℕ × Events)) : Prop :=
  ∀ s r s', R s.poll → s.active = [] → poll r s = some s' →
    s'.poll = s.poll ∧ Delivers fd s.masks (reported (view r)) s'

/-- **The invariant of the poller** holds in every state of a legal run. -/
theorem rel_of_reach {view : ρ → List (ℕ × Events)} (h : Implements fd P R)
    (hpoll : Polls fd R poll view) {s₀ : Loop ι π} (h₀ : R s₀.poll)
    (hr : (looped P poll).ReachIf (LegalIn fd) s₀ s) : R s.poll := by
  refine hr.invariant (I := fun s => R s.poll) h₀ fun s a s' hR hlegal hst => ?_
  cases a with
  | op o => exact (h.step hR hlegal hst).1
  | poll r =>
    obtain ⟨hp, -⟩ := hpoll { s with active := [] } r s' hR rfl hst
    rw [hp]
    exact hR

end

omit [DecidableEq ι] in
theorem registered_init (fd : ι → ℕ) :
    Registered fd (fun _ => ⟨.kNone, false⟩) (fun _ => none) fun _ => .kNone :=
  ⟨by simp, by simp, fun _ => rfl⟩

omit [DecidableEq ι] in
theorem Epoll.rel_init (fd : ι → ℕ) : Rel fd (Loop.init (.init : Epoll ι)).poll :=
  ⟨registered_init fd, fun _ => rfl, by simp [Loop.init, Poll.init, Epoll.init]⟩

omit [DecidableEq ι] in
theorem Kqueue.rel_init (fd : ι → ℕ) : Rel fd (Loop.init (.init : Kqueue ι)).poll :=
  ⟨registered_init fd, fun _ => rfl⟩

theorem Epoll.polls (fd : ι → ℕ) : Polls fd (Rel fd) (poll fd) view :=
  fun _ _ _ hR h0 => poll_spec hR h0

theorem Kqueue.polls (fd : ι → ℕ) : Polls fd (Rel fd) (ρ := Option Ret) (ι := ι) poll view :=
  fun _ _ _ hR h0 => poll_spec hR h0

theorem Epoll.rel_of_reach {fd : ι → ℕ} {s : Loop ι (Epoll ι)}
    (h : (epolled fd).ReachIf (LegalIn fd) (.init .init) s) : Rel fd s.poll :=
  Poller.rel_of_reach (implements fd) (polls fd) (rel_init fd) h

theorem Kqueue.rel_of_reach {fd : ι → ℕ} {s : Loop ι (Kqueue ι)}
    (h : (kqueued fd).ReachIf (LegalIn fd) (.init .init) s) : Rel fd s.poll :=
  Poller.rel_of_reach (implements fd) (polls fd) (rel_init fd) h

/-- **A poll delivers what was reported.**  In every run of an event loop in which the channels in
use have different descriptors, each poll, of either poller, leaves in `active_channels_` exactly
the channels that ask for events and that something was reported for, each of them once; such a
channel is told all that was reported for its descriptor, and to read or to write only if it asks
for it; and no report is dropped. -/
theorem poll_delivers (fd : ι → ℕ) :
    (∀ s r s', (epolled fd).ReachIf (LegalIn fd) (.init .init) s →
      (epolled fd).step s (.poll r) = some s' →
      Delivers fd s.masks (reported (Epoll.view r)) s') ∧
    (∀ s r s', (kqueued fd).ReachIf (LegalIn fd) (.init .init) s →
      (kqueued fd).step s (.poll r) = some s' →
      Delivers fd s.masks (reported (Kqueue.view r)) s') := by
  refine ⟨fun s r s' hs hst => ?_, fun s r s' hs hst => ?_⟩
  · have hR : Epoll.Rel fd s.poll := Epoll.rel_of_reach hs
    exact (Epoll.polls fd { s with active := [] } r s' hR rfl hst).2
  · have hR : Kqueue.Rel fd s.poll := Kqueue.rel_of_reach hs
    exact (Kqueue.polls fd { s with active := [] } r s' hR rfl hst).2

/-- Two channels are opened. -/
def opens (c d : ι) : List (LoopAct ι ρ) :=
  [.op (.addReadEvent c), .op (.addWriteEvent c), .op (.addReadEvent d)]

/-- The peer of the first one has hung up; both have data. -/
def hangup : Option (List (ℕ × EpollEvents)) × Option Kqueue.Ret :=
  (some [(8, ⟨true, false, false, false, false⟩), (7, ⟨true, true, false, false, true⟩)],
    some ⟨[(7, ⟨.read, false, true⟩), (8, ⟨.read, false, false⟩), (7, ⟨.write, false, false⟩)],
      [⟨7, true, true, false, true⟩, ⟨8, true, false, false, false⟩]⟩)

theorem poll_delivers_hangup :
    (∃ s s', (epolled twoDescriptors).exec (.init .init) (opens 0 2) = some s ∧
      (epolled twoDescriptors).step s (.poll hangup.1) = some s' ∧ s'.active = [2, 0] ∧
      Delivers twoDescriptors s.masks (reported (Epoll.view hangup.1)) s') ∧
    ∃ s s', (kqueued twoDescriptors).exec (.init .init) (opens 0 2) = some s ∧
      (kqueued twoDescriptors).step s (.poll hangup.2) = some s' ∧ s'.active = [0, 2] ∧
      Delivers twoDescriptors s.masks (reported (Kqueue.view hangup.2)) s' := by
  constructor
  · obtain ⟨s, hs⟩ : ∃ s, (epolled twoDescriptors).exec (.init .init) (opens 0 2) = some s :=
      ⟨_, rfl⟩
    have hreach := Machine.ReachIf.of_exec (opens 0 2) hs
      (show (epolled twoDescriptors).Meets (LegalIn twoDescriptors) _ _ by decide)
    cases hs
    exact ⟨_, _, rfl, rfl, by decide, (poll_delivers twoDescriptors).1 _ _ _ hreach rfl⟩
  · obtain ⟨s, hs⟩ : ∃ s, (kqueued twoDescriptors).exec (.init .init) (opens 0 2) = some s :=
      ⟨_, rfl⟩
    have hreach := Machine.ReachIf.of_exec (opens 0 2) hs
      (show (kqueued twoDescriptors).Meets (LegalIn twoDescriptors) _ _ by decide)
    cases hs
    exact ⟨_, _, rfl, rfl, by decide, (poll_delivers twoDescriptors).2 _ _ _ hreach rfl⟩

/-! ### The two loops in step -/

/-- The same action with another report. -/
def LoopAct.map {σ : Type} (f : ρ → σ) : LoopAct ι ρ → LoopAct ι σ
  | .op o => .op o
  | .poll r => .poll (f r)

/-- The two loops have delivered the same. -/
structure Agree (fd : ι → ℕ) (e : Loop ι (Epoll ι)) (k : Loop ι (Kqueue ι)) : Prop where
  epoll : Epoll.Rel fd e.poll
  kqueue : Kqueue.Rel fd k.poll
  masks : e.masks = k.masks
  active : e.active.Perm k.active
  result : ∀ c ∈ e.active, e.result c = k.result c

theorem Agree.step {fd : ι → ℕ} {e e' : Loop ι (Epoll ι)} {k k' : Loop ι (Kqueue ι)}
    {a : LoopAct ι (Option (List (ℕ × EpollEvents)) × Option Kqueue.Ret)} (h : Agree fd e k)
    (hsame : ∀ r, a = .poll r → reported (Epoll.view r.1) = reported (Kqueue.view r.2))
    (hlegal : LegalIn fd e (a.map Prod.fst)) (he : (epolled fd).step e (a.map Prod.fst) = some e')
    (hk : (kqueued fd).step k (a.map Prod.snd) = some k') : Agree fd e' k' := by
  cases a with
  | op o =>
    obtain ⟨hRe, hme, -, hre, hae⟩ := (Epoll.implements fd).step h.epoll hlegal he
    have hlegal' : Legal fd k.masks o := h.masks ▸ hlegal
    obtain ⟨hRk, hmk, -, hrk, hak⟩ := (Kqueue.implements fd).step h.kqueue hlegal' hk
    refine ⟨hRe, hRk, funext fun c => ?_, ?_, ?_⟩
    · rw [hme, hmk, h.masks]
    · rw [hae, hak]
      exact h.active
    · rw [hae, hre, hrk]
      exact h.result
  | poll r =>
    obtain ⟨hpe, hde⟩ := Epoll.polls fd { e with active := [] } r.1 e' h.epoll rfl he
    obtain ⟨hpk, hdk⟩ := Kqueue.polls fd { k with active := [] } r.2 k' h.kqueue rfl hk
    have hmasks : ({ e with active := [] } : Loop ι (Epoll ι)).masks =
        ({ k with active := [] } : Loop ι (Kqueue ι)).masks := h.masks
    rw [hmasks, hsame r rfl] at hde
    obtain ⟨hactive, hresult⟩ := hde.unique hdk
    refine ⟨?_, ?_, ?_, hactive, hresult⟩
    · rw [hpe]
      exact h.epoll
    · rw [hpk]
      exact h.kqueue
    · unfold Loop.masks
      rw [hpe, hpk]
      exact h.masks

/-- **The two event loops agree.**  Take the same operations on the channels, with polls in between
in which `epoll_wait` and `kevent` report, each in its own way, the same events for the same
descriptors.  At the end of every such run, so after every poll in it, the same channels are active
and each of them has the same result events. -/
theorem polls_agree (fd : ι → ℕ)
    {acts : List (LoopAct ι (Option (List (ℕ × EpollEvents)) × Option Kqueue.Ret))}
    {e : Loop ι (Epoll ι)} {k : Loop ι (Kqueue ι)}
    (hsame : ∀ r, .poll r ∈ acts → reported (Epoll.view r.1) = reported (Kqueue.view r.2))
    (hlegal : (epolled fd).Meets (LegalIn fd) (.init .init) (acts.map (.map Prod.fst)))
    (he : (epolled fd).exec (.init .init) (acts.map (.map Prod.fst)) = some e)
    (hk : (kqueued fd).exec (.init .init) (acts.map (.map Prod.snd)) = some k) :
    e.masks = k.masks ∧ e.active.Perm k.active ∧ ∀ c ∈ e.active, e.result c = k.result c := by
  have hrun : ∀ {e₀ k₀}, Agree fd e₀ k₀ →
      (epolled fd).Meets (LegalIn fd) e₀ (acts.map (.map Prod.fst)) →
      (epolled fd).exec e₀ (acts.map (.map Prod.fst)) = some e →
      (kqueued fd).exec k₀ (acts.map (.map Prod.snd)) = some k → Agree fd e k := by
    clear hlegal he hk
    induction acts with
    | nil =>
      intro e₀ k₀ h _ he hk
      cases he
      cases hk
      exact h
    | cons a acts ih =>
      intro e₀ k₀ h hlegal he hk
      obtain ⟨e₁, he₁, he⟩ := Option.bind_eq_some_iff.1 he
      obtain ⟨k₁, hk₁, hk⟩ := Option.bind_eq_some_iff.1 hk
      rw [List.map_cons, Machine.meets_cons he₁] at hlegal
      have h₁ : Agree fd e₁ k₁ :=
        h.step (fun r hr => hsame r (hr ▸ List.mem_cons_self)) hlegal.1 he₁ hk₁
      exact ih (fun r hr => hsame r (List.mem_cons_of_mem _ hr)) h₁ hlegal.2 he hk
  have h₀ : Agree fd (.init .init) (.init .init) :=
    ⟨Epoll.rel_init fd, Kqueue.rel_init fd, rfl, .refl _, by simp [Loop.init]⟩
  have h := hrun h₀ hlegal he hk
  exact ⟨h.masks, h.active, h.result⟩

theorem polls_agree_hangup : ∃ e k,
    (epolled twoDescriptors).exec (.init .init) (opens 0 2 ++ [LoopAct.poll hangup.1]) = some e ∧
      (kqueued twoDescriptors).exec (.init .init) (opens 0 2 ++ [LoopAct.poll hangup.2]) = some k ∧
      e.active = [2, 0] ∧ k.active = [0, 2] ∧ ∀ c ∈ e.active, e.result c = k.result c := by
  obtain ⟨e, he⟩ : ∃ e, (epolled twoDescriptors).exec (.init .init)
      ((opens (0 : Fin 3) 2 ++ [LoopAct.poll hangup]).map (.map Prod.fst)) = some e := ⟨_, rfl⟩
  obtain ⟨k, hk⟩ : ∃ k, (kqueued twoDescriptors).exec (.init .init)
      ((opens (0 : Fin 3) 2 ++ [LoopAct.poll hangup]).map (.map Prod.snd)) = some k := ⟨_, rfl⟩
  have hsame : ∀ r, LoopAct.poll r ∈ opens (0 : Fin 3) 2 ++ [LoopAct.poll hangup] →
      reported (Epoll.view r.1) = reported (Kqueue.view r.2) := by
    intro r hr
    have hr' : r = hangup := by simpa [opens] using hr
    subst hr'
    funext h
    simp only [hangup, Epoll.view, Kqueue.view, reported, Option.getD_some, Option.elim_some,
      List.map_cons, List.map_nil, List.foldl_cons, List.foldl_nil]
    by_cases h7 : 7 = h
    · subst h7
      decide
    · by_cases h8 : 8 = h
      · subst h8
        decide
      · simp [h7, h8]
  obtain ⟨-, -, hresult⟩ := polls_agree twoDescriptors hsame (by decide) he hk
  cases he
  cases hk
  exact ⟨_, _, rfl, rfl, by decide, by decide, hresult⟩

/-! ### The size of the array -/

omit [DecidableEq ι] in
theorem Loop.grow_size (n : ℕ) (s : Loop ι π) :
    s.size ≤ (s.grow n).size ∧ (s.grow n).size ≤ max s.size (2 * n) := by
  unfold grow
  split_ifs with h
  · exact ⟨by simp; omega, by simp; omega⟩
  · exact ⟨le_rfl, le_max_left _ _⟩

theorem Epoll.fillActiveChannels_size {fd : ι → ℕ} {es : List (EpollEvents × ι)}
    {s : Loop ι (Epoll ι)} : (fillActiveChannels fd es s).size = s.size := by
  induction es generalizing s with
  | nil => rfl
  | cons y es ih =>
    rw [fillActiveChannels]
    split_ifs
    · exact ih
    · exact ih

/-- `epoll_wait` reports at most one event for a descriptor. -/
theorem Epoll.poll_size {fd : ι → ℕ} {s s' : Loop ι (Epoll ι)} {n : ℕ} (hn : ∀ c, fd c < n)
    (h : Rel fd s.poll) {r : Option (List (ℕ × EpollEvents))} (hst : poll fd r s = some s') :
    s.size ≤ s'.size ∧ s'.size ≤ max s.size (4 * n) := by
  cases r with
  | none =>
    cases hst
    exact ⟨le_rfl, le_max_left _ _⟩
  | some r =>
    obtain ⟨es, hes, rfl⟩ := Option.map_eq_some_iff.1 hst
    unfold epollWait at hes
    split_ifs at hes with hr
    cases hes
    obtain ⟨-, hnodup, hall⟩ := hr
    have hlen : (r.filterMap s.poll.poller.entry).length ≤ n := by
      have hsub : (r.filterMap s.poll.poller.entry).map (fun y => fd y.2) ⊆ List.range n := by
        intro k hk
        obtain ⟨y, -, rfl⟩ := List.mem_map.1 hk
        exact List.mem_range.2 (hn _)
      simpa using (List.Nodup.subperm (entry_fds h hall ▸ hnodup) hsub).length_le
    split_ifs with hpos
    · obtain ⟨h1, h2⟩ := (fillActiveChannels fd (r.filterMap s.poll.poller.entry) s).grow_size
        (r.filterMap s.poll.poller.entry).length
      rw [fillActiveChannels_size] at h1 h2
      exact ⟨h1, h2.trans (max_le_max le_rfl (by omega))⟩
    · exact ⟨le_rfl, le_max_left _ _⟩

/-- `kevent` reports at most two events for a descriptor. -/
theorem Kqueue.poll_size {fd : ι → ℕ} {s s' : Loop ι (Kqueue ι)} {n : ℕ} (hn : ∀ c, fd c < n)
    (h : Rel fd s.poll) {r : Option Ret} (hst : poll r s = some s') :
    s.size ≤ s'.size ∧ s'.size ≤ max s.size (4 * n) := by
  cases r with
  | none =>
    cases hst
    exact ⟨le_rfl, le_max_left _ _⟩
  | some r =>
    simp only [poll] at hst
    split_ifs at hst with hwait hpos
    · obtain ⟨t, ht, rfl⟩ := Option.map_eq_some_iff.1 hst
      unfold fillActiveChannels at ht
      split_ifs at ht
      cases ht
      simp only [keventWait, decide_eq_true_eq] at hwait
      obtain ⟨-, hnodup, hall⟩ := hwait
      have hlen : r.events.length ≤ 2 * n := by
        have hsub : r.events.map (fun x => (x.1, x.2.filter)) ⊆
            List.range n ×ˢ [Filter.read, Filter.write] := by
          intro k hk
          obtain ⟨x, hx, rfl⟩ := List.mem_map.1 hk
          obtain ⟨c, hc, -⟩ := channel_of_registered h (List.all_eq_true.1 hall x hx)
          have hfd : fd c = x.1 := ((h.registered.channels_iff _ _).1 hc).1
          refine List.pair_mem_product.2 ⟨List.mem_range.2 (hfd ▸ hn c), ?_⟩
          cases x.2.filter <;> simp
        have hle := (hnodup.subperm hsub).length_le
        rw [List.length_map, List.length_product, List.length_range] at hle
        simpa [mul_comm] using hle
      obtain ⟨h1, h2⟩ := (reportMerged r.order s).grow_size r.events.length
      rw [reportMerged_eq, (s.reportAll_fields _).2.1] at h1 h2
      rw [reportMerged_eq]
      exact ⟨h1, h2.trans (max_le_max le_rfl (by omega))⟩
    · cases hst
      exact ⟨le_rfl, le_max_left _ _⟩

/-- The size of the array stays between its first size and a bound. -/
def Sized (n : ℕ) (s : Loop ι π) : Prop :=
  kMaxPollEventCount ≤ s.size ∧ s.size ≤ max kMaxPollEventCount (4 * n)

theorem sized_of_reach {fd : ι → ℕ} {P : PollerBase ι π} {R : Poll ι π → Prop}
    {poll : ρ → Loop ι π → Option (Loop ι π)} {n : ℕ} {s : Loop ι π} {p : π}
    (hR : ∀ s, (looped P poll).ReachIf (LegalIn fd) (.init p) s → R s.poll)
    (hpoll : ∀ s r s', R s.poll → poll r s = some s' →
      s.size ≤ s'.size ∧ s'.size ≤ max s.size (4 * n))
    (h : (looped P poll).ReachIf (LegalIn fd) (.init p) s) : Sized n s := by
  refine h.invariant_of hR ⟨le_rfl, le_max_left _ _⟩ fun s a s' hR hs _ hst => ?_
  cases a with
  | op o =>
    obtain ⟨p, -, rfl⟩ := Option.map_eq_some_iff.1 hst
    exact hs
  | poll r =>
    obtain ⟨h1, h2⟩ := hpoll { s with active := [] } r s' hR hst
    exact ⟨hs.1.trans h1, h2.trans (max_le hs.2 (le_max_right _ _))⟩

/-- **The array for the reports.**  In every run of either event loop over fewer than `2 ^ 29`
descriptors the array never has fewer than 64 elements, nor more than four for a descriptor; so its
size is passed to the system call unchanged by the cast to `int`. -/
theorem size_bounded (fd : ι → ℕ) {n : ℕ} (hn : ∀ c, fd c < n) (hlt : n < 2 ^ 29) :
    (∀ s, (epolled fd).ReachIf (LegalIn fd) (.init .init) s →
      Sized n s ∧ toInt s.size = s.size) ∧
    ∀ s, (kqueued fd).ReachIf (LegalIn fd) (.init .init) s → Sized n s ∧ toInt s.size = s.size := by
  have hint : ∀ {k : ℕ}, k ≤ max kMaxPollEventCount (4 * n) → toInt k = k := fun hk =>
    toInt_of_lt (lt_of_le_of_lt hk (by rw [kMaxPollEventCount]; omega))
  refine ⟨fun s hs => ?_, fun s hs => ?_⟩
  · have hsized := sized_of_reach (R := Epoll.Rel fd) (fun s h => Epoll.rel_of_reach h)
      (fun s r s' hR hst => Epoll.poll_size hn hR hst) hs
    exact ⟨hsized, hint hsized.2⟩
  · have hsized := sized_of_reach (R := Kqueue.Rel fd) (fun s h => Kqueue.rel_of_reach h)
      (fun s r s' hR hst => Kqueue.poll_size hn hR hst) hs
    exact ⟨hsized, hint hsized.2⟩

/-- One descriptor, and a poll that reports it. -/
theorem size_bounded_one : ∃ s, (epolled fun _ : Unit => 7).exec (.init .init)
    [.op (.addReadEvent ()), .poll (some [(7, ⟨true, false, false, false, false⟩)])] = some s ∧
      Sized 8 s ∧ toInt s.size = s.size := by
  obtain ⟨s, hs⟩ : ∃ s, (epolled fun _ : Unit => 7).exec (.init .init)
      [.op (.addReadEvent ()), .poll (some [(7, ⟨true, false, false, false, false⟩)])] = some s :=
    ⟨_, rfl⟩
  have hreach := Machine.ReachIf.of_exec _ hs
    (show (epolled fun _ : Unit => 7).Meets (LegalIn fun _ => 7) _ _ by decide)
  exact ⟨s, hs, (size_bounded (fun _ : Unit => 7) (n := 8) (by decide) (by decide)).1 s hreach⟩

end Poller

end CxpNet
