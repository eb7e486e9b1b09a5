import CxpNet.Poller.Basic
import Mathlib.Data.Fintype.Basic
import Mathlib.Tactic.SplitIfs

/-!
# Both pollers implement one registry

What a poller is for: it keeps, for every channel, the events it asks for (`registry`).
`EpollPoller` finds out what to do from the `registered_` flag of the channel, `KqueuePoller` from
the difference to a second map.  As long as the channels in use have different descriptors, both do
the same (`Poller.pollers_agree`), and no `epoll_ctl` that adds or modifies can fail.
-/

namespace CxpNet

namespace Poller

variable {ι : Type} [DecidableEq ι]

/-! ### The registry -/

/-- The channel of an operation. -/
def Op.chan : Op ι → ι
  | .addReadEvent c | .addWriteEvent c | .removeWriteEvent c | .clearEvent c | .remove c => c

/-- The events a channel asks for after an operation on it. -/
def Op.apply : Op ι → Mask → Mask
  | .addReadEvent _, m => { m with read := true }
  | .addWriteEvent _, m => { m with write := true }
  | .removeWriteEvent _, m => { m with write := false }
  | .clearEvent _, _ => .kNone
  | .remove _, m => m

/-- **The registry**: the events every channel asks for. -/
def registry (ι : Type) [DecidableEq ι] : Machine (ι → Mask) (Op ι) where
  step masks op := some (Function.update masks op.chan (op.apply (masks op.chan)))

/-- No other channel with the same descriptor is in use, and `remove` comes after `clear_event`. -/
def Legal (fd : ι → ℕ) (masks : ι → Mask) (op : Op ι) : Prop :=
  (∀ c, c ≠ op.chan → fd c = fd op.chan → masks c = .kNone) ∧
    ∀ c, op = .remove c → masks c = .kNone

instance [Fintype ι] (fd : ι → ℕ) (masks : ι → Mask) (op : Op ι) : Decidable (Legal fd masks op) :=
  inferInstanceAs (Decidable ((∀ c, c ≠ op.chan → fd c = fd op.chan → masks c = .kNone) ∧
    ∀ c, op = .remove c → masks c = .kNone))

/-- The events recorded under a descriptor, given the map from descriptors to channels. -/
def recordedFor (chan : ι → Channel) (c : Option ι) : Mask :=
  match c with
  | none => .kNone
  | some c => (chan c).events

/-- **A faithful registration**: the map holds exactly the channels that ask for events, these are
the ones marked as registered, and the kernel has recorded exactly the events they ask for. -/
structure Registered (fd : ι → ℕ) (chan : ι → Channel) (channels : ℕ → Option ι)
    (interest : ℕ → Mask) : Prop where
  channels_iff : ∀ h c, channels h = some c ↔ fd c = h ∧ (chan c).events ≠ .kNone
  registered_iff : ∀ c, (chan c).registered = true ↔ (chan c).events ≠ .kNone
  interest_eq : ∀ h, interest h = recordedFor chan (channels h)

variable {fd : ι → ℕ}

/-- The channel of the operation is the only one of its descriptor that may be in use. -/
def Alone (fd : ι → ℕ) (chan : ι → Channel) (c : ι) : Prop :=
  ∀ c', c' ≠ c → fd c' = fd c → (chan c').events = .kNone

namespace Registered

variable {chan : ι → Channel} {channels : ℕ → Option ι} {interest : ℕ → Mask} {c : ι}

theorem channels_fd (h : Registered fd chan channels interest) (ha : Alone fd chan c) :
    channels (fd c) = if (chan c).events = .kNone then none else some c := by
  split_ifs with hc
  · by_contra hne
    obtain ⟨c', hc'⟩ := Option.ne_none_iff_exists'.1 hne
    obtain ⟨hfd, hev⟩ := (h.channels_iff _ _).1 hc'
    by_cases he : c' = c
    · exact hev (he ▸ hc)
    · exact hev (ha c' he hfd)
  · exact (h.channels_iff _ _).2 ⟨rfl, hc⟩

theorem interest_fd (h : Registered fd chan channels interest) (ha : Alone fd chan c) :
    interest (fd c) = (chan c).events := by
  rw [h.interest_eq, h.channels_fd ha]
  split_ifs with hc
  · exact hc.symm
  · rfl

/-- One channel asks for other events. -/
theorem set (h : Registered fd chan channels interest) (ha : Alone fd chan c) (m : Mask) :
    Registered fd (Function.update chan c ⟨m, m ≠ .kNone⟩)
      (Function.update channels (fd c) (if m = .kNone then none else some c))
      (Function.update interest (fd c) m) := by
  refine ⟨fun x c' => ?_, fun c' => ?_, fun x => ?_⟩
  · by_cases hx : x = fd c
    · subst hx
      rw [Function.update_self]
      by_cases hc : c' = c
      · subst hc
        rw [Function.update_self]
        split_ifs with hm <;> simp [hm]
      · rw [Function.update_of_ne hc]
        split_ifs
        · -- no other channel of the descriptor is registered
          simp only [false_iff, not_and, not_not]
          exact ha c' hc
        · simp only [Option.some.injEq]
          exact ⟨fun he => absurd he.symm hc, fun he => absurd (ha c' hc he.1) he.2⟩
    · rw [Function.update_of_ne hx, h.channels_iff]
      by_cases hc : c' = c
      · subst hc
        exact ⟨fun he => absurd he.1.symm hx, fun he => absurd he.1.symm hx⟩
      · rw [Function.update_of_ne hc]
  · by_cases hc : c' = c
    · subst hc
      simp
    · rw [Function.update_of_ne hc]
      exact h.registered_iff c'
  · by_cases hx : x = fd c
    · subst hx
      rw [Function.update_self, Function.update_self]
      split_ifs with hm
      · exact hm
      · simp [recordedFor]
    · rw [Function.update_of_ne hx, Function.update_of_ne hx, h.interest_eq]
      cases hch : channels x with
      | none => rfl
      | some c' =>
        have hc : c' ≠ c := by
          rintro rfl
          exact hx ((h.channels_iff _ _).1 hch).1.symm
        simp [recordedFor, Function.update_of_ne hc]

end Registered

/-! ### epoll -/

namespace Epoll

/-- `EPOLL_CTL_ADD` finds the descriptor absent, `EPOLL_CTL_MOD` finds it present. -/
def CallOk (call : EpollOp × ℕ × Bool) : Prop :=
  (call.1 = .add → call.2.2 = false) ∧ (call.1 = .mod → call.2.2 = true)

/-- The state of an `EpollPoller`. -/
structure Rel (fd : ι → ℕ) (s : Poll ι (Epoll ι)) : Prop where
  registered : Registered fd s.chan s.poller.channels s.poller.interest
  set_eq : ∀ h, s.poller.set h =
    (s.poller.channels h).map fun c => (toEpollEvents (s.chan c).events, c)
  calls : ∀ call ∈ s.poller.calls, CallOk call

variable {s : Poll ι (Epoll ι)} {c : ι}

theorem isSome_set (h : Rel fd s) (ha : Alone fd s.chan c) :
    (s.poller.set (fd c)).isSome = (s.chan c).registered := by
  rw [h.set_eq, Option.isSome_map, h.registered.channels_fd ha, Bool.eq_iff_iff,
    h.registered.registered_iff]
  split_ifs with hm <;> simp [hm]

/-- What `update_channel` leaves when the channel asks for the events `m`. -/
structure Updated (fd : ι → ℕ) (c : ι) (m : Mask) (s s' : Poll ι (Epoll ι)) : Prop where
  chan : s'.chan = Function.update s.chan c ⟨m, m ≠ .kNone⟩
  channels : s'.poller.channels =
    Function.update s.poller.channels (fd c) (if m = .kNone then none else some c)
  set : s'.poller.set = Function.update s.poller.set (fd c)
    (if m = .kNone then none else some (toEpollEvents m, c))
  calls : ∃ l, s'.poller.calls = s.poller.calls ++ l ∧ ∀ call ∈ l, CallOk call

/-- **`EpollPoller::update_channel`** after the events of a channel were set. -/
theorem updateChannel_eq (h : Rel fd s) (ha : Alone fd s.chan c) (m : Mask) :
    ∃ s', updateChannel fd c (s.setEvents c m) = some s' ∧ Updated fd c m s s' := by
  have hset := isSome_set h ha
  have hchan := h.registered.channels_fd ha
  have hreg := h.registered.registered_iff c
  cases hr : (s.chan c).registered with
  | false =>
    have hev : (s.chan c).events = .kNone := by simpa [hr] using hreg
    have habsent : s.poller.set (fd c) = none := by simpa [hr] using hset
    by_cases hm : m = .kNone
    · -- nothing was asked for and nothing is
      refine ⟨s.setEvents c m, by simp [updateChannel, Poll.setEvents, hr, hm], ?_, ?_, ?_, ?_⟩
      · simp [Poll.setEvents, hr, hm]
      · rw [if_pos hev] at hchan
        rw [if_pos hm, ← hchan, Function.update_eq_self]
        rfl
      · rw [if_pos hm, ← habsent, Function.update_eq_self]
        rfl
      · exact ⟨[], by simp [Poll.setEvents], by simp⟩
    · -- `EPOLL_CTL_ADD`
      refine ⟨⟨Function.update s.chan c ⟨m, true⟩,
        ⟨Function.update s.poller.channels (fd c) (some c),
          Function.update s.poller.set (fd c) (some (toEpollEvents m, c)),
          s.poller.calls ++ [(.add, fd c, false)]⟩⟩, ?_, ?_, ?_, ?_, _, rfl, by simp [CallOk]⟩
      · simp [updateChannel, update, epollCtl, setChannel, Poll.setEvents, Poll.setRegistered, hr,
          hm, habsent]
      all_goals simp [hm]
  | true =>
    have hpresent : (s.poller.set (fd c)).isSome = true := hset.trans hr
    by_cases hm : m = .kNone
    · -- `EPOLL_CTL_DEL`
      refine ⟨⟨Function.update s.chan c ⟨m, false⟩,
        ⟨Function.update s.poller.channels (fd c) none, Function.update s.poller.set (fd c) none,
          s.poller.calls ++ [(.del, fd c, true)]⟩⟩, ?_, ?_, ?_, ?_, _, rfl, by simp [CallOk]⟩
      · simp [updateChannel, update, epollCtl, setChannel, Poll.setEvents, Poll.setRegistered, hr,
          hm, hpresent]
      all_goals simp [hm]
    · have hev : (s.chan c).events ≠ .kNone := hreg.1 hr
      rw [if_neg hev] at hchan
      -- `EPOLL_CTL_MOD`
      refine ⟨⟨Function.update s.chan c ⟨m, true⟩,
        ⟨s.poller.channels, Function.update s.poller.set (fd c) (some (toEpollEvents m, c)),
          s.poller.calls ++ [(.mod, fd c, true)]⟩⟩, ?_, ?_, ?_, ?_, _, rfl, by simp [CallOk]⟩
      · simp [updateChannel, update, epollCtl, Poll.setEvents, hr, hm, hpresent]
      · simp [hm]
      · rw [if_neg hm, ← hchan, Function.update_eq_self]
      · simp [hm]

omit [DecidableEq ι] in
theorem interest_update {e e' : Epoll ι} {h : ℕ} {m : Mask} (he : e'.set = Function.update e.set h
    (if m = .kNone then none else some (toEpollEvents m, c))) :
    e'.interest = Function.update e.interest h m := by
  funext x
  by_cases hx : x = h
  · subst hx
    rw [Function.update_self, interest, he, Function.update_self]
    split_ifs with hm
    · exact hm.symm
    · rfl
  · rw [Function.update_of_ne hx, interest, interest, he, Function.update_of_ne hx]

theorem Updated.rel {s' : Poll ι (Epoll ι)} {m : Mask} (hu : Updated fd c m s s') (h : Rel fd s)
    (ha : Alone fd s.chan c) : Rel fd s' := by
  refine ⟨?_, fun x => ?_, ?_⟩
  · rw [hu.chan, hu.channels, interest_update hu.set]
    exact h.registered.set ha m
  · rw [hu.set, hu.channels, hu.chan]
    by_cases hx : x = fd c
    · subst hx
      rw [Function.update_self, Function.update_self]
      split_ifs <;> simp
    · rw [Function.update_of_ne hx, Function.update_of_ne hx, h.set_eq]
      cases hch : s.poller.channels x with
      | none => rfl
      | some c' =>
        have hc : c' ≠ c := by
          rintro rfl
          exact hx ((h.registered.channels_iff _ _).1 hch).1.symm
        simp [Function.update_of_ne hc]
  · obtain ⟨l, hl, hok⟩ := hu.calls
    rw [hl]
    exact List.forall_mem_append.2 ⟨h.calls, hok⟩

end Epoll

/-! ### kqueue -/

namespace Kqueue

/-- The state of a `KqueuePoller`: the second map agrees with the kernel, up to empty entries. -/
structure Rel (fd : ι → ℕ) (s : Poll ι (Kqueue ι)) : Prop where
  registered : Registered fd s.chan s.poller.channels s.poller.interest
  events_eq : ∀ h, (s.poller.registeredEvents h).getD .kNone = s.poller.interest h

variable {s : Poll ι (Kqueue ι)} {c : ι}

omit [DecidableEq ι] in
theorem touch_eq (h : ℕ) (k : Kqueue ι) : ∃ r, k.touch h =
    ((k.registeredEvents h).getD .kNone, { k with registeredEvents := r }) ∧
    ∀ x, (r x).getD .kNone = (k.registeredEvents x).getD .kNone := by
  unfold touch
  cases hr : k.registeredEvents h with
  | some m => exact ⟨k.registeredEvents, rfl, fun _ => rfl⟩
  | none =>
    refine ⟨_, rfl, fun x => ?_⟩
    by_cases hx : x = h
    · subst hx
      simp [hr]
    · rw [Function.update_of_ne hx]

omit [DecidableEq ι] in
/-- The filters end up as the new events ask for, if the old ones are what the kernel has. -/
theorem changeFilters_eq (h : ℕ) (m old : Mask) (k : Kqueue ι) (hold : k.interest h = old) :
    k.changeFilters h m old =
      { k with
        readFilter := Function.update k.readFilter h m.read
        writeFilter := Function.update k.writeFilter h m.write } := by
  obtain ⟨mr, mw⟩ := m
  subst hold
  have hr : Function.update k.readFilter h (k.readFilter h) = k.readFilter :=
    Function.update_eq_self ..
  have hw : Function.update k.writeFilter h (k.writeFilter h) = k.writeFilter :=
    Function.update_eq_self ..
  unfold changeFilters interest
  cases h1 : k.readFilter h <;> cases h2 : k.writeFilter h <;> rw [h1] at hr <;> rw [h2] at hw <;>
    cases mr <;> cases mw <;> simp [setRead, setWrite, hr, hw]

/-- What `update_channel` leaves when the channel asks for the events `m`. -/
structure Updated (fd : ι → ℕ) (c : ι) (m : Mask) (s s' : Poll ι (Kqueue ι)) : Prop where
  chan : s'.chan = Function.update s.chan c ⟨m, m ≠ .kNone⟩
  channels : s'.poller.channels =
    Function.update s.poller.channels (fd c) (if m = .kNone then none else some c)
  interest : s'.poller.interest = Function.update s.poller.interest (fd c) m
  events : ∀ h, (s'.poller.registeredEvents h).getD .kNone =
    Function.update (fun h => (s.poller.registeredEvents h).getD .kNone) (fd c) m h

/-- **`KqueuePoller::update_channel`** after the events of a channel were set. -/
theorem updateChannel_eq (h : Rel fd s) (ha : Alone fd s.chan c) (m : Mask) :
    ∃ s', updateChannel fd c (s.setEvents c m) = some s' ∧ Updated fd c m s s' := by
  obtain ⟨r, htouch, hr⟩ := touch_eq (fd c) s.poller
  have hchan := h.registered.channels_fd ha
  have hreg := h.registered.registered_iff c
  have hfilters := changeFilters_eq (fd c) m ((s.poller.registeredEvents (fd c)).getD .kNone)
    { s.poller with registeredEvents := r } (h.events_eq (fd c)).symm
  have hinterest : ∀ ch re, Kqueue.interest (⟨ch, re,
      Function.update s.poller.readFilter (fd c) m.read,
      Function.update s.poller.writeFilter (fd c) m.write⟩ : Kqueue ι) =
      Function.update s.poller.interest (fd c) m := fun ch re => by
    funext x
    by_cases hx : x = fd c
    · subst hx
      simp [interest]
    · simp [interest, Function.update_of_ne hx]
  -- the entries of the second map, up to empty ones
  have hevents : ∀ o : Option Mask, o.getD .kNone = m → ∀ x,
      (Function.update r (fd c) o x).getD .kNone =
        Function.update (fun h => (s.poller.registeredEvents h).getD .kNone) (fd c) m x :=
    fun o ho x => by
      by_cases hx : x = fd c
      · subst hx
        simp [ho]
      · rw [Function.update_of_ne hx, Function.update_of_ne hx, hr x]
  unfold updateChannel
  simp only [Poll.setEvents, Function.update_self, htouch, hfilters]
  by_cases hm : m = .kNone
  · rw [if_pos hm]
    by_cases hev : (s.chan c).events = .kNone
    · -- the entry made by reading the map stays
      have hold : (r (fd c)).getD .kNone = m := by
        rw [hr, h.events_eq, h.registered.interest_fd ha, hev, hm]
      rw [if_pos hev] at hchan
      have hfalse : (s.chan c).registered = false := by simpa [hev] using hreg
      refine ⟨_, if_neg (by simp [hchan]), ?_, ?_, hinterest _ _, fun x => ?_⟩
      · simp [hm, hfalse]
      · rw [if_pos hm, ← hchan, Function.update_eq_self]
      · have := hevents _ hold x
        rwa [Function.update_eq_self] at this
    · rw [if_neg hev] at hchan
      refine ⟨_, if_pos (by simp [hchan]), ?_, ?_, hinterest _ _, hevents none hm.symm⟩
      · simp [Poll.setRegistered, hm]
      · simp [Poll.setRegistered, erase, hm]
  · rw [if_neg hm]
    refine ⟨_, rfl, ?_, ?_, ?_, ?_⟩
    all_goals by_cases hev : (s.chan c).events = .kNone
    all_goals simp only [hev, if_true, if_false] at hchan
    · simp [hchan, Poll.setRegistered, hm]
    · have htrue : (s.chan c).registered = true := hreg.2 hev
      simp [hchan, htrue, hm]
    · simp [hchan, Poll.setRegistered, hm]
    · simp only [hchan, Option.isNone_some, Bool.false_eq_true, if_false, hm]
      rw [← hchan, Function.update_eq_self]
    · simp only [hchan, Option.isNone_none, if_true, Poll.setRegistered]
      exact hinterest _ _
    · simp only [hchan, Option.isNone_some, Bool.false_eq_true, if_false]
      exact hinterest _ _
    · simp only [hchan, Option.isNone_none, if_true, Poll.setRegistered]
      exact hevents (some m) rfl
    · simp only [hchan, Option.isNone_some, Bool.false_eq_true, if_false]
      exact hevents (some m) rfl

theorem Updated.rel {s' : Poll ι (Kqueue ι)} {m : Mask} (hu : Updated fd c m s s') (h : Rel fd s)
    (ha : Alone fd s.chan c) : Rel fd s' := by
  refine ⟨?_, fun x => ?_⟩
  · rw [hu.chan, hu.channels, hu.interest]
    exact h.registered.set ha m
  · rw [hu.events, hu.interest]
    by_cases hx : x = fd c
    · subst hx
      simp
    · rw [Function.update_of_ne hx, Function.update_of_ne hx]
      exact h.events_eq x

end Kqueue

/-! ### Both implement the registry -/

/-- A poller implements the registry, with the invariant `R`: it never throws, and the channel ends
up with the events it was given. -/
structure Implements {π : Type} (fd : ι → ℕ) (P : PollerBase ι π) (R : Poll ι π → Prop) :
    Prop where
  update : ∀ s c m, R s → Alone fd s.chan c → ∃ s', P.updateChannel c (s.setEvents c m) = some s' ∧
    R s' ∧ s'.chan = Function.update s.chan c ⟨m, m ≠ .kNone⟩
  remove : ∀ s c, R s → Alone fd s.chan c → (s.chan c).events = .kNone →
    P.removeChannel c s = some s

/-- The channels ask for the events of the registry. -/
def AsksFor {π : Type} (R : Poll ι π → Prop) (masks : ι → Mask) (s : Poll ι π) : Prop :=
  R s ∧ ∀ c, (s.chan c).events = masks c

/-- **A poller that implements the registry simulates it.** -/
theorem Implements.simulation {π : Type} {P : PollerBase ι π} {R : Poll ι π → Prop}
    (h : Implements fd P R) :
    Machine.Simulation (registry ι) (machine P) (Legal fd) (AsksFor R) := by
  refine ⟨fun masks s op masks' ⟨hR, hmask⟩ hlegal hst => ?_⟩
  cases hst
  have ha : Alone fd s.chan op.chan := fun c hc he => (hmask c).trans (hlegal.1 c hc he)
  -- the operation sets the events of its channel to `m`
  have hset : ∀ c m, op.chan = c → op.apply (masks c) = m → ∃ s',
      P.updateChannel c (s.setEvents c m) = some s' ∧
        AsksFor R (Function.update masks op.chan (op.apply (masks op.chan))) s' := by
    rintro c m rfl rfl
    obtain ⟨s', hs', hR', hchan⟩ := h.update s op.chan (op.apply (masks op.chan)) hR ha
    refine ⟨s', hs', hR', fun c => ?_⟩
    rw [hchan]
    by_cases hc : c = op.chan
    · subst hc
      simp
    · rw [Function.update_of_ne hc, Function.update_of_ne hc, hmask c]
  -- the operation leaves the events of its channel as they are
  have hsame : op.apply (masks op.chan) = masks op.chan →
      AsksFor R (Function.update masks op.chan (op.apply (masks op.chan))) s := by
    intro he
    rw [he, Function.update_eq_self]
    exact ⟨hR, hmask⟩
  cases op with
  | addReadEvent c =>
    simp only [machine, addReadEvent]
    split_ifs with hc
    · rw [hmask c] at hc
      exact ⟨s, rfl, hsame (by simp only [Op.apply, Op.chan, ← hc])⟩
    · exact hset c _ rfl (by simp only [Op.apply, hmask c])
  | addWriteEvent c =>
    simp only [machine, addWriteEvent]
    split_ifs with hc
    · rw [hmask c] at hc
      exact ⟨s, rfl, hsame (by simp only [Op.apply, Op.chan, ← hc])⟩
    · exact hset c _ rfl (by simp only [Op.apply, hmask c])
  | removeWriteEvent c =>
    simp only [machine, removeWriteEvent]
    split_ifs with hc
    · exact hset c _ rfl (by simp only [Op.apply, hmask c])
    · rw [hmask c, Bool.not_eq_true] at hc
      exact ⟨s, rfl, hsame (by simp only [Op.apply, Op.chan, ← hc])⟩
  | clearEvent c => exact hset c _ rfl rfl
  | remove c =>
    have hnone : (s.chan c).events = .kNone := (hmask c).trans (hlegal.2 c rfl)
    exact ⟨s, h.remove s c hR ha hnone, hsame rfl⟩

theorem Epoll.implements (fd : ι → ℕ) : Implements fd (Epoll.poller fd) (Epoll.Rel fd) := by
  refine ⟨fun s c m hR ha => ?_, fun s c hR ha hnone => ?_⟩
  · obtain ⟨s', hs', hu⟩ := Epoll.updateChannel_eq hR ha m
    exact ⟨s', hs', hu.rel hR ha, hu.chan⟩
  · have hfalse : (s.chan c).registered = false := by
      simpa [hnone] using hR.registered.registered_iff c
    exact if_pos hfalse

theorem Kqueue.implements (fd : ι → ℕ) : Implements fd (Kqueue.poller fd) (Kqueue.Rel fd) := by
  refine ⟨fun s c m hR ha => ?_, fun s c hR ha hnone => ?_⟩
  · obtain ⟨s', hs', hu⟩ := Kqueue.updateChannel_eq hR ha m
    exact ⟨s', hs', hu.rel hR ha, hu.chan⟩
  · have hch : s.poller.channels (fd c) = none := by
      rw [hR.registered.channels_fd ha, if_pos hnone]
    exact if_pos (by simp [hch])

omit [DecidableEq ι] in
/-- What a faithful registration says is decided by the events of the channels. -/
theorem Registered.unique {chan chan' : ι → Channel} {channels channels' : ℕ → Option ι}
    {interest interest' : ℕ → Mask} (h : Registered fd chan channels interest)
    (h' : Registered fd chan' channels' interest') (he : ∀ c, (chan c).events = (chan' c).events) :
    chan = chan' ∧ channels = channels' ∧ interest = interest' := by
  have h1 : chan = chan' := by
    funext c
    have hreg : (chan c).registered = (chan' c).registered := by
      rw [Bool.eq_iff_iff, h.registered_iff, h'.registered_iff, he]
    exact Channel.mk.injEq .. ▸ ⟨he c, hreg⟩
  subst h1
  have h2 : channels = channels' := by
    funext x
    refine Option.ext fun c => ?_
    rw [h.channels_iff, h'.channels_iff]
  subst h2
  exact ⟨rfl, rfl, funext fun x => (h.interest_eq x).trans (h'.interest_eq x).symm⟩

/-- **The two pollers agree.**  For every sequence of operations in which the channels in use have
different descriptors, both pollers execute it without throwing; they end with the same events and
flags of the channels, the same map from descriptors to channels and the same interest in the
kernel, in each of them faithfully registered; and every `EPOLL_CTL_ADD` has found its descriptor
absent, every `EPOLL_CTL_MOD` has found it present. -/
theorem pollers_agree (fd : ι → ℕ) (ops : List (Op ι))
    (h : (registry ι).Meets (Legal fd) (fun _ => .kNone) ops) :
    ∃ e k, (machine (Epoll.poller fd)).exec (.init .init) ops = some e ∧
      (machine (Kqueue.poller fd)).exec (.init .init) ops = some k ∧
      e.chan = k.chan ∧ e.poller.channels = k.poller.channels ∧
      e.poller.interest = k.poller.interest ∧
      Registered fd e.chan e.poller.channels e.poller.interest ∧
      Registered fd k.chan k.poller.channels k.poller.interest ∧
      ∀ call ∈ e.poller.calls, Epoll.CallOk call := by
  have htotal : ∀ (masks : ι → Mask) (ops : List (Op ι)),
      ∃ masks', (registry ι).exec masks ops = some masks' := by
    intro masks ops
    induction ops generalizing masks with
    | nil => exact ⟨masks, rfl⟩
    | cons op ops ih => exact ih _
  have hempty : Registered fd (fun _ => ⟨.kNone, false⟩) (fun _ => none) fun _ => .kNone :=
    ⟨by simp, by simp, fun _ => rfl⟩
  obtain ⟨masks, hmasks⟩ := htotal (fun _ => .kNone) ops
  obtain ⟨e, he, hRe, hme⟩ := (Epoll.implements fd).simulation.exec (t := .init .init)
    ⟨⟨hempty, fun _ => rfl, by simp [Poll.init, Epoll.init]⟩, fun _ => rfl⟩ hmasks h
  obtain ⟨k, hk, hRk, hmk⟩ := (Kqueue.implements fd).simulation.exec (t := .init .init)
    ⟨⟨hempty, fun _ => rfl⟩, fun _ => rfl⟩ hmasks h
  obtain ⟨h1, h2, h3⟩ := hRe.registered.unique hRk.registered fun c => (hme c).trans (hmk c).symm
  exact ⟨e, k, he, hk, h1, h2, h3, hRe.registered, hRk.registered, hRe.calls⟩

/-- Three channels, of which the first two have the same descriptor. -/
def twoDescriptors (c : Fin 3) : ℕ := if c = 2 then 8 else 7

/-- The second channel is used after the first was cleared and removed, and passes through the empty
mask. -/
def reuse : List (Op (Fin 3)) :=
  [.addReadEvent 0, .addWriteEvent 0, .removeWriteEvent 0, .clearEvent 0, .remove 0,
    .addWriteEvent 1, .addReadEvent 2, .removeWriteEvent 1, .addReadEvent 1]

theorem pollers_agree_reuse : ∃ e k,
    (machine (Epoll.poller twoDescriptors)).exec (.init .init) reuse = some e ∧
      (machine (Kqueue.poller twoDescriptors)).exec (.init .init) reuse = some k ∧
      e.poller.channels = k.poller.channels ∧ e.poller.interest = k.poller.interest := by
  obtain ⟨e, k, he, hk, -, h1, h2, -⟩ := pollers_agree twoDescriptors reuse (by decide)
  exact ⟨e, k, he, hk, h1, h2⟩

/-! ### A registry inside another -/

section

variable {α β : Type} [DecidableEq α] [DecidableEq β]

/-- The same operation on another channel. -/
def Op.map (f : α → β) : Op α → Op β
  | .addReadEvent c => .addReadEvent (f c)
  | .addWriteEvent c => .addWriteEvent (f c)
  | .removeWriteEvent c => .removeWriteEvent (f c)
  | .clearEvent c => .clearEvent (f c)
  | .remove c => .remove (f c)

omit [DecidableEq α] [DecidableEq β] in
@[simp] theorem Op.chan_map (f : α → β) (o : Op α) : (o.map f).chan = f o.chan := by
  cases o <;> rfl

omit [DecidableEq α] [DecidableEq β] in
@[simp] theorem Op.apply_map (f : α → β) (o : Op α) : (o.map f).apply = o.apply := by
  cases o <;> rfl

/-- **Embedding.**  Operations that are legal on some channels are legal among others, if no other
channel with one of their descriptors is in use; and they leave the others alone. -/
theorem registry_embed (fd : β → ℕ) {f : α → β} (hf : f.Injective) {m m' : α → Mask}
    {M : β → Mask} {os : List (Op α)} (hM : ∀ a, M (f a) = m a)
    (hfree : ∀ a b, (∀ a', f a' ≠ b) → fd b = fd (f a) → M b = .kNone)
    (hlegal : (registry α).Meets (Legal fun a => fd (f a)) m os)
    (hexec : (registry α).exec m os = some m') :
    ∃ M', (registry β).exec M (os.map (Op.map f)) = some M' ∧
      (registry β).Meets (Legal fd) M (os.map (Op.map f)) ∧
      (∀ a, M' (f a) = m' a) ∧ ∀ b, (∀ a, f a ≠ b) → M' b = M b := by
  induction os generalizing m M with
  | nil =>
    cases hexec
    exact ⟨M, rfl, trivial, hM, fun _ _ => rfl⟩
  | cons o os ih =>
    -- the masks after the first operation
    have h1 : ∀ a, Function.update M (f o.chan) (o.apply (M (f o.chan))) (f a) =
        Function.update m o.chan (o.apply (m o.chan)) a := by
      intro a
      by_cases ha : a = o.chan
      · subst ha
        rw [Function.update_self, Function.update_self, hM]
      · rw [Function.update_of_ne ha, Function.update_of_ne (hf.ne ha), hM]
    have h2 : ∀ b, (∀ a, f a ≠ b) →
        Function.update M (f o.chan) (o.apply (M (f o.chan))) b = M b :=
      fun b hb => Function.update_of_ne (Ne.symm (hb o.chan)) ..
    rw [Machine.meets_cons rfl] at hlegal
    obtain ⟨M', hM', hmeets, hin, hout⟩ := ih h1
      (fun a b hb he => (h2 b hb).trans (hfree a b hb he)) hlegal.2 hexec
    refine ⟨M', ?_, ?_, hin, fun b hb => (hout b hb).trans (h2 b hb)⟩
    · rw [List.map_cons, Machine.exec]
      simp only [registry, Op.chan_map, Op.apply_map, Option.bind_some]
      exact hM'
    · have hst : (registry β).step M (o.map f) =
          some (Function.update M (f o.chan) (o.apply (M (f o.chan)))) := by simp [registry]
      rw [List.map_cons, Machine.meets_cons hst]
      refine ⟨⟨fun b hb he => ?_, fun b hb => ?_⟩, hmeets⟩
      · rw [Op.chan_map] at hb he
        by_cases hr : ∃ a, f a = b
        · obtain ⟨a, rfl⟩ := hr
          rw [hM]
          exact hlegal.1.1 a (fun ha => hb (congrArg f ha)) he
        · exact hfree o.chan b (fun a ha => hr ⟨a, ha⟩) he
      · cases o with
        | remove c =>
          cases hb
          rw [hM]
          exact hlegal.1.2 c rfl
        | _ => cases hb

omit [DecidableEq β] in
/-- Operations on one channel, none of which is `remove`. -/
theorem registry_one (fd : α → ℕ) {c : α} {os : List (Op α)} {masks : α → Mask}
    (hc : ∀ o ∈ os, o.chan = c) (hr : .remove c ∉ os)
    (hothers : ∀ c', c' ≠ c → fd c' = fd c → masks c' = .kNone) :
    (registry α).exec masks os =
        some (Function.update masks c (os.foldl (fun m o => o.apply m) (masks c))) ∧
      (registry α).Meets (Legal fd) masks os := by
  induction os generalizing masks with
  | nil => exact ⟨by simp [Machine.exec], trivial⟩
  | cons o os ih =>
    rw [List.forall_mem_cons] at hc
    rw [List.mem_cons, not_or] at hr
    obtain ⟨rfl, hc⟩ := hc
    have hothers' : ∀ c', c' ≠ o.chan → fd c' = fd o.chan →
        Function.update masks o.chan (o.apply (masks o.chan)) c' = .kNone := fun c' hne he => by
      rw [Function.update_of_ne hne]
      exact hothers c' hne he
    obtain ⟨h1, h2⟩ := ih hc hr.2 hothers'
    refine ⟨?_, ?_⟩
    · rw [Machine.exec]
      simp only [registry, Option.bind_some]
      refine h1.trans ?_
      rw [Function.update_self, Function.update_idem, List.foldl_cons]
    · rw [Machine.meets_cons rfl]
      refine ⟨⟨hothers, fun c' he => ?_⟩, h2⟩
      subst he
      exact absurd rfl hr.1

end

end Poller

end CxpNet
