import CxpNet.Server.Loop

/-!
# No connection outlives its server

When `close()` or `~Server` returns, every connection that was ever admitted should have been
closed.  `close()` closes them all by force.  `~Server` only calls `shutdown()`: in mode
`kAllOneThread` that returns without waiting if connections are open and the deadline lies ahead,
and nobody calls `poll()` any more.  A connection is kept alive by its own channel, so it is never
closed.

* `Loop.no_connection_outlives` : the runs in which all connections are closed;
* `Loop.connection_outlives` : `~Server` on a started server with one connection.
-/

namespace CxpNet

namespace Server

namespace Loop

/-! ### Where the connections are -/

/-- The socket was closed once, and so was the callback called, if one was set. -/
def Peer.Done (p : Peer) : Prop := p.closes = 1 ∧ p.calls = if p.wanted then 1 else 0

/-- A connection is untouched before its cleanup and done after it. -/
structure Peer.Ok (p : Peer) : Prop where
  before : p.cleanupDone = false → p.isOpen = true ∧ p.closes = 0 ∧ p.calls = 0
  after : p.cleanupDone = true → p.Done

/-- The connections that the frame is going to close. -/
def Frame.rest : Frame → List ℕ
  | force _ rest => rest
  | _ => []

/-- A frame of a stop that has cleared `conns_`, or the return of a stop. -/
def Frame.pastClear : Frame → Bool
  | force _ _ | polls _ | store _ | storeStarted | returning _ => true
  | user | locked | handler _ | closing | clear _ | setValue => false

/-- The frame has no part in a stop. -/
def Frame.neutral : Frame → Bool
  | user | locked | handler _ | closing | setValue => true
  | clear _ | force _ _ | polls _ | store _ | storeStarted | returning _ => false

/-- The handles that the acceptor has accepted and not yet passed on. -/
def St.inFlight (s : St) : List ℕ := s.pending ++ s.accepted

/-- Connection `i`, made for `h`, is in `conns_` or about to be closed by force. -/
def St.Held (s : St) (h i : ℕ) : Prop := (h, i) ∈ s.conns ∨ ∃ f ∈ s.ctl, i ∈ f.rest

/-- The section that clears `conns_` is behind the stop or right ahead. -/
def St.Settled (s : St) : Prop := s.conns = [] ∨ ∃ k, .clear k ∈ s.ctl

/-- Every open connection is accounted for, except perhaps those in `except`. -/
structure Tracked (except : ℕ → Prop) (s : St) : Prop where
  ok : ∀ p ∈ s.peers, p.Ok
  held : ∀ (i : ℕ) (p : Peer), s.peers[i]? = some p → p.cleanupDone = false → ¬ except i →
    s.Held p.handle i
  nodup : s.inFlight.Nodup
  fresh : ∀ p ∈ s.peers, p.cleanupDone = false → p.handle ∉ s.inFlight
  inj : ∀ (i j : ℕ) (p q : Peer), s.peers[i]? = some p → s.peers[j]? = some q →
    p.cleanupDone = false → q.cleanupDone = false → p.handle = q.handle → i = j
  settled : (s.started = false ∨ ∃ f ∈ s.ctl, f.pastClear = true) → s.Settled

variable {cfg : Config} {s s' : St} {a : Act} {e : ℕ → Prop}

theorem Peer.Ok.new (h : ℕ) : (Peer.new h).Ok := ⟨fun _ => ⟨rfl, rfl, rfl⟩, nofun⟩

theorem Peer.Ok.cleanup {p : Peer} (h : p.Ok) (hp : p.cleanupDone = false) : p.cleanup.Ok := by
  obtain ⟨h1, h2, h3⟩ := h.before hp
  refine ⟨nofun, fun _ => ⟨?_, ?_⟩⟩
  · simp [Peer.cleanup, h1, h2]
  · simp [Peer.cleanup, h3]

namespace Tracked

/-- Steps that concern neither connections nor stops. -/
theorem congr (h : Tracked e s) (hpeers : s'.peers = s.peers) (hconns : s'.conns = s.conns)
    (hf : s'.inFlight = s.inFlight) (hst : s'.started = s.started)
    (hctl : ∀ f, f.neutral = false → (f ∈ s'.ctl ↔ f ∈ s.ctl)) : Tracked e s' := by
  have hheld : ∀ {k i : ℕ}, s.Held k i → s'.Held k i := by
    rintro k i (hm | ⟨f, hm, hi⟩)
    · exact .inl (hconns ▸ hm)
    · refine .inr ⟨f, (hctl f ?_).2 hm, hi⟩
      cases f <;> first | rfl | cases hi
  refine ⟨hpeers ▸ h.ok, fun i p hp hd hn => ?_, hf ▸ h.nodup, ?_, ?_, fun hs => ?_⟩
  · rw [hpeers] at hp
    exact hheld (h.held i p hp hd hn)
  · rw [hpeers, hf]
    exact h.fresh
  · rw [hpeers]
    exact h.inj
  · have hs' : s.started = false ∨ ∃ f ∈ s.ctl, f.pastClear = true := by
      rcases hs with hs | ⟨f, hm, hp⟩
      · exact .inl (hst ▸ hs)
      · refine .inr ⟨f, (hctl f ?_).1 hm, hp⟩
        cases f <;> first | rfl | cases hp
    rcases h.settled hs' with hc | ⟨k, hk⟩
    · exact .inl (hconns.trans hc)
    · exact .inr ⟨k, (hctl _ rfl).2 hk⟩

/-- The stack is unchanged. -/
theorem congr_ctl (h : Tracked e s) (hpeers : s'.peers = s.peers) (hconns : s'.conns = s.conns)
    (hf : s'.inFlight = s.inFlight) (hst : s'.started = s.started) (hctl : s'.ctl = s.ctl) :
    Tracked e s' :=
  h.congr hpeers hconns hf hst fun f _ => by rw [hctl]

theorem pushCall {fs : List Frame} (h : Tracked e s) (hfs : fs.all Frame.neutral = true) :
    Tracked e (push fs s) :=
  h.congr rfl rfl rfl rfl fun f hf => by
    simp only [push, List.mem_append, or_iff_right_iff_imp]
    intro hm
    simp [List.all_eq_true.1 hfs f hm] at hf

theorem pop {f : Frame} {fs : List Frame} (h : Tracked e s) (hctl : s.ctl = f :: fs)
    (hf : f.neutral = true) : Tracked e { s with ctl := fs } :=
  h.congr rfl rfl rfl rfl fun g hg => by
    simp only [hctl, List.mem_cons, iff_or_self]
    rintro rfl
    simp [hf] at hg

/-- Everything that was excepted is accounted for. -/
theorem strengthen (h : Tracked e s) (he : ∀ (i : ℕ) (p : Peer), s.peers[i]? = some p →
    p.cleanupDone = false → e i → s.Held p.handle i) : Tracked (fun _ => False) s where
  ok := h.ok
  held i p hp hd _ := by
    by_cases hi : e i
    · exact he i p hp hd hi
    · exact h.held i p hp hd hi
  nodup := h.nodup
  fresh := h.fresh
  inj := h.inj
  settled := h.settled

theorem weaken {e' : ℕ → Prop} (h : Tracked e s) (he : ∀ i, e i → e' i) : Tracked e' s where
  ok := h.ok
  held i p hp hd hn := h.held i p hp hd fun hi => hn (he i hi)
  nodup := h.nodup
  fresh := h.fresh
  inj := h.inj
  settled := h.settled

/-- A connection of the new list is cleaned up, or it was there before. -/
theorem getElem?_tearDown {i j : ℕ} {p q : Peer} (hp : s.peers[i]? = some p)
    (hq : (tearDown i p s).peers[j]? = some q) (hd : q.cleanupDone = false) :
    j ≠ i ∧ s.peers[j]? = some q := by
  have hlt := (List.getElem?_eq_some_iff.1 hp).1
  simp only [tearDown, List.getElem?_set] at hq
  split_ifs at hq with hij
  · cases hq
    cases hd
  · exact ⟨fun he => hij he.symm, hq⟩

theorem mem_tearDown {i : ℕ} {p q : Peer}
    (hq : q ∈ (tearDown i p s).peers) : q ∈ s.peers ∨ q = p.cleanup :=
  List.mem_or_eq_of_mem_set hq

/-- **A cleanup.**  The connection need not be accounted for before. -/
theorem of_cleanup {i : ℕ} (h : Tracked (· = i) s) (hc : cleanup i s = some s') :
    Tracked (fun _ => False) s' := by
  obtain ⟨rfl, p, hp, hd⟩ | ⟨p, fs, hp, hd, hfs, rfl⟩ := cleanup_cases hc
  · -- it is already cleaned up, so nothing is excepted
    refine h.strengthen fun j q hq hqd hji => ?_
    subst hji
    rw [hp] at hq
    cases hq
    simp [hd] at hqd
  · have hpm : p ∈ s.peers := List.mem_of_getElem? hp
    suffices h₁ : Tracked (fun _ => False) (tearDown i p s) by
      refine h₁.pushCall ?_
      rcases hfs with rfl | rfl <;> rfl
    refine ⟨fun q hq => ?_, fun j q hq hqd _ => ?_, h.nodup, fun q hq hqd => ?_,
      fun j k q r hq hr hqd hrd he => ?_, fun hs => ?_⟩
    · rcases mem_tearDown hq with hq | rfl
      · exact h.ok q hq
      · exact (h.ok p hpm).cleanup hd
    · obtain ⟨hji, hq⟩ := getElem?_tearDown hp hq hqd
      rcases h.held j q hq hqd hji with hm | hf
      · -- the erase takes away only the entry of `i`
        refine .inl (List.mem_filter.2 ⟨hm, ?_⟩)
        have hne : q.handle ≠ p.handle := fun he => hji (h.inj j i q p hq hp hqd hd he)
        simpa using hne
      · exact .inr hf
    · rcases mem_tearDown hq with hq | rfl
      · exact h.fresh q hq hqd
      · cases hqd
    · exact h.inj j k q r (getElem?_tearDown hp hq hqd).2 (getElem?_tearDown hp hr hrd).2 hqd hrd he
    · rcases h.settled hs with hc | hk
      · exact .inl (by simp [tearDown, eraseHandle, hc])
      · exact .inr hk

/-- A call that is past the clearing of `conns_` goes on or returns; the connections that it
drops are excepted. -/
theorem unwind {f : Frame} {fs : List Frame} (gs : List Frame) (h : Tracked (fun _ => False) s)
    (hctl : s.ctl = f :: fs) (hf : f.pastClear = true)
    (hrest : ∀ i ∈ f.rest, (∃ g ∈ gs, i ∈ g.rest) ∨ e i) (hctl' : s'.ctl = gs ++ fs)
    (hpeers : s'.peers = s.peers) (hconns : s'.conns = s.conns)
    (hflight : s'.inFlight = s.inFlight) : Tracked e s' where
  ok := hpeers ▸ h.ok
  held i p hp hd hn := by
    rw [hpeers] at hp
    rcases h.held i p hp hd id with hm | ⟨g, hg, hi⟩
    · exact .inl (hconns ▸ hm)
    · rw [hctl, List.mem_cons] at hg
      rcases hg with rfl | hg
      · obtain ⟨g', hg', hi'⟩ := (hrest i hi).resolve_right hn
        exact .inr ⟨g', by rw [hctl']; exact List.mem_append_left _ hg', hi'⟩
      · exact .inr ⟨g, by rw [hctl']; exact List.mem_append_right _ hg, hi⟩
  nodup := hflight ▸ h.nodup
  fresh := by
    rw [hpeers, hflight]
    exact h.fresh
  inj := by
    rw [hpeers]
    exact h.inj
  settled _ := by
    rcases h.settled (.inr ⟨f, by rw [hctl]; exact List.mem_cons_self, hf⟩) with hc | ⟨k, hk⟩
    · exact .inl (hconns.trans hc)
    · rw [hctl, List.mem_cons] at hk
      rcases hk with rfl | hk
      · cases hf
      · exact .inr ⟨k, by rw [hctl']; exact List.mem_append_right _ hk⟩

/-- `conns_` is going to be cleared. -/
theorem pushClear {k : Tail} (h : Tracked e s) (hctl : s'.ctl = .clear k :: s.ctl)
    (hpeers : s'.peers = s.peers) (hconns : s'.conns = s.conns)
    (hflight : s'.inFlight = s.inFlight) : Tracked e s' where
  ok := hpeers ▸ h.ok
  held i p hp hd hn := by
    rw [hpeers] at hp
    refine (h.held i p hp hd hn).imp (fun hm => hconns ▸ hm) ?_
    rintro ⟨f, hf, hi⟩
    exact ⟨f, by rw [hctl]; exact List.mem_cons_of_mem _ hf, hi⟩
  nodup := hflight ▸ h.nodup
  fresh := by
    rw [hpeers, hflight]
    exact h.fresh
  inj := by
    rw [hpeers]
    exact h.inj
  settled _ := .inr ⟨k, by rw [hctl]; exact List.mem_cons_self⟩

/-- The section that clears `conns_`: its connections are going to be closed by force. -/
theorem clear {k : Tail} {fs : List Frame} {b : Bool} (h : Tracked e s)
    (hctl : s.ctl = .clear k :: fs) :
    Tracked e { s with
      ctl := .force k (s.conns.map (·.2)) :: fs, conns := [], cleared := b } where
  ok := h.ok
  held i p hp hd hn := by
    refine .inr ?_
    rcases h.held i p hp hd hn with hm | ⟨f, hf, hi⟩
    · exact ⟨_, List.mem_cons_self, List.mem_map.2 ⟨_, hm, rfl⟩⟩
    · rw [hctl, List.mem_cons] at hf
      rcases hf with rfl | hf
      · cases hi
      · exact ⟨f, List.mem_cons_of_mem _ hf, hi⟩
  nodup := h.nodup
  fresh := h.fresh
  inj := h.inj
  settled _ := .inl rfl

theorem of_finish (h : Tracked e s) : Tracked e (finishShutdownAllOneThread cfg s) := by
  rcases finishShutdown_cases cfg s with he | ⟨-, -, -, he⟩
  · rwa [he]
  · rw [he]
    exact h.pushClear rfl rfl rfl rfl

theorem of_shutdown {dt : ℕ} (h : Tracked e s)
    (hs : shutdownAllOneThread cfg dt s = some s') : Tracked e s' := by
  obtain ⟨-, rfl⟩ | ⟨-, -, rfl⟩ := shutdown_cases hs
  · exact h
  · exact of_finish (h.congr_ctl rfl rfl rfl rfl rfl)

theorem of_close (h : Tracked e s) (hc : closeAllOneThread s = some s') : Tracked e s' := by
  obtain ⟨-, -, rfl⟩ | ⟨-, rfl⟩ := close_cases hc
  · exact h
  · exact h.pushClear rfl rfl rfl rfl

/-- A stop that was called outside any callback is going to return. -/
theorem returns {d : Bool} (h : Tracked e s) (hs : s.Settled) : Tracked e (s.returns d) where
  ok := h.ok
  held i p hp hd hn := by
    refine (h.held i p hp hd hn).imp id ?_
    rintro ⟨f, hf, hi⟩
    exact ⟨f, List.mem_append_left _ hf, hi⟩
  nodup := h.nodup
  fresh := h.fresh
  inj := h.inj
  settled _ := hs.imp id fun ⟨k, hk⟩ => ⟨k, List.mem_append_left _ hk⟩

/-- A handle that was accepted becomes a connection. -/
theorem newConn {k : ℕ} {rest : List ℕ} {l : ℕ} (h : Tracked (fun _ => False) s)
    (hph : s.phase = .batch (k :: rest)) (hctl : s.ctl = []) (hs : s.started = true) :
    Tracked (fun _ => False) { s with
      phase := .batch rest
      conns := (k, s.peers.length) :: eraseHandle k s.conns
      peers := s.peers ++ [.new k]
      late := l } := by
  have hflight : s.inFlight = k :: (rest ++ s.accepted) := by simp [St.inFlight, St.pending, hph]
  have hnew : ∀ {i : ℕ} {p : Peer}, (s.peers ++ [Peer.new k])[i]? = some p →
      s.peers[i]? = some p ∨ (i = s.peers.length ∧ p = .new k) := by
    intro i p hp
    rw [List.getElem?_append] at hp
    split_ifs at hp with hi
    · exact .inl hp
    · have : i - s.peers.length = 0 := by
        by_contra hne
        rw [List.getElem?_eq_none (by simp; omega)] at hp
        cases hp
      rw [this] at hp
      cases hp
      exact .inr ⟨by omega, rfl⟩
  -- the kernel does not hand out the number of an open socket
  have hother : ∀ p ∈ s.peers, p.cleanupDone = false → p.handle ≠ k := fun p hp hd he =>
    h.fresh p hp hd (by rw [hflight, he]; exact List.mem_cons_self)
  have hnodup := h.nodup
  rw [hflight, List.nodup_cons] at hnodup
  refine ⟨fun p hp => ?_, fun i p hp hd _ => .inl ?_, hnodup.2, fun p hp hd => ?_,
    fun i j p q hp hq hpd hqd he => ?_, fun hst => ?_⟩
  · rw [List.mem_append, List.mem_singleton] at hp
    rcases hp with hp | rfl
    · exact h.ok p hp
    · exact .new k
  · rcases hnew hp with hp | ⟨rfl, rfl⟩
    · refine List.mem_cons_of_mem _ (List.mem_filter.2 ⟨?_, ?_⟩)
      · rcases h.held i p hp hd id with hm | ⟨f, hf, -⟩
        · exact hm
        · simp [hctl] at hf
      · simpa using hother p (List.mem_of_getElem? hp) hd
    · exact List.mem_cons_self
  · rw [List.mem_append, List.mem_singleton] at hp
    rcases hp with hp | rfl
    · have := h.fresh p hp hd
      rw [hflight, List.mem_cons, not_or] at this
      exact this.2
    · exact hnodup.1
  · rcases hnew hp with hp | ⟨rfl, rfl⟩ <;> rcases hnew hq with hq | ⟨rfl, rfl⟩
    · exact h.inj i j p q hp hq hpd hqd he
    · exact absurd he (hother p (List.mem_of_getElem? hp) hpd)
    · exact absurd he.symm (hother q (List.mem_of_getElem? hq) hqd)
    · rfl
  · rcases hst with hst | ⟨f, hf, -⟩
    · have hst : s.started = false := hst
      simp [hs] at hst
    · simp [hctl] at hf

/-- The acceptor takes handles from the kernel. -/
theorem accept {hs : List ℕ} (h : Tracked e s) (hfresh : s.fresh hs = true)
    (hp : s.pending = []) (hpeers : s'.peers = s.peers) (hconns : s'.conns = s.conns)
    (hst : s'.started = s.started) (hctl : s'.ctl = s.ctl)
    (hflight : s'.inFlight = s.accepted ++ hs) : Tracked e s' := by
  simp only [St.fresh, decide_eq_true_eq] at hfresh
  have hold : s.inFlight = s.accepted := by simp [St.inFlight, hp]
  refine ⟨hpeers ▸ h.ok, fun i p hp hd hn => ?_, ?_, fun p hp hd => ?_, ?_, fun hs => ?_⟩
  · rw [hpeers] at hp
    have := h.held i p hp hd hn
    rwa [St.Held, ← hconns, ← hctl] at this
  · rw [hflight, List.nodup_append]
    refine ⟨hold ▸ h.nodup, hfresh.1, fun x hx y hy he => ?_⟩
    exact (hfresh.2 y hy).1 (he ▸ hx)
  · rw [hpeers] at hp
    rw [hflight, List.mem_append, not_or]
    refine ⟨hold ▸ h.fresh p hp hd, fun hm => ?_⟩
    exact (hfresh.2 _ hm).2 p hp ((h.ok p hp).before hd).1 rfl
  · rw [hpeers]
    exact h.inj
  · rw [hst, hctl] at hs
    have := h.settled hs
    rwa [St.Settled, ← hconns, ← hctl] at this

/-- A handle is closed without becoming a connection. -/
theorem shrink (h : Tracked e s) (hpeers : s'.peers = s.peers) (hconns : s'.conns = s.conns)
    (hst : s'.started = s.started) (hctl : s'.ctl = s.ctl)
    (hsub : s'.inFlight.Sublist s.inFlight) : Tracked e s' := by
  refine ⟨hpeers ▸ h.ok, fun i p hp hd hn => ?_, h.nodup.sublist hsub, fun p hp hd hm => ?_, ?_,
    fun hs => ?_⟩
  · rw [hpeers] at hp
    have := h.held i p hp hd hn
    rwa [St.Held, ← hconns, ← hctl] at this
  · rw [hpeers] at hp
    exact h.fresh p hp hd (hsub.subset hm)
  · rw [hpeers]
    exact h.inj
  · rw [hst, hctl] at hs
    have := h.settled hs
    rwa [St.Settled, ← hconns, ← hctl] at this

theorem setOnClose {i : ℕ} {p : Peer} {b : Bool} (h : Tracked e s) (hp : s.peers[i]? = some p) :
    Tracked e { s with peers := s.peers.set i { p with onClose := b } } := by
  have hpm : p ∈ s.peers := List.mem_of_getElem? hp
  have hget : ∀ {j : ℕ} {q : Peer}, (s.peers.set i { p with onClose := b })[j]? = some q →
      ∃ q', s.peers[j]? = some q' ∧ q'.handle = q.handle ∧ q'.cleanupDone = q.cleanupDone := by
    intro j q hq
    have hlt := (List.getElem?_eq_some_iff.1 hp).1
    rw [List.getElem?_set] at hq
    split_ifs at hq with hij
    · cases hq
      exact ⟨p, hij ▸ hp, rfl, rfl⟩
    · exact ⟨q, hq, rfl, rfl⟩
  refine ⟨fun q hq => ?_, fun j q hq hd hn => ?_, h.nodup, fun q hq hd => ?_,
    fun j k q r hq hr hqd hrd he => ?_, h.settled⟩
  · rcases List.mem_or_eq_of_mem_set hq with hq | rfl
    · exact h.ok q hq
    · exact ⟨(h.ok p hpm).before, (h.ok p hpm).after⟩
  · obtain ⟨q', hq', hh, hd'⟩ := hget hq
    have := h.held j q' hq' (hd'.trans hd) hn
    rwa [hh] at this
  · rcases List.mem_or_eq_of_mem_set hq with hq | rfl
    · exact h.fresh q hq hd
    · exact h.fresh p hpm hd
  · obtain ⟨q', hq', hqh, hqd'⟩ := hget hq
    obtain ⟨r', hr', hrh, hrd'⟩ := hget hr
    exact h.inj j k q' r' hq' hr' (hqd'.trans hqd) (hrd'.trans hrd) (by rw [hqh, hrh, he])

theorem of_nextFrame {f : Frame} {fs : List Frame} (h : Tracked (fun _ => False) s)
    (hctl : s.ctl = f :: fs) (hst : nextFrame fs s f = some s') :
    Tracked (fun _ => False) s' := by
  cases f with
  | user => cases hst
  | locked | handler i =>
    cases hst
    exact h.pop hctl rfl
  | closing | setValue =>
    cases hst
    exact (h.pop hctl rfl).congr_ctl rfl rfl rfl rfl rfl
  | clear k =>
    cases hst
    exact h.clear hctl
  | force k rest =>
    cases rest with
    | nil =>
      cases hst
      exact h.unwind [.polls k] hctl rfl nofun rfl rfl rfl rfl
    | cons i rest =>
      -- `i` has left the list and is not closed yet
      have h₁ : Tracked (· = i) { s with ctl := .force k rest :: fs } := by
        refine h.unwind [.force k rest] hctl rfl (fun j hj => ?_) rfl rfl rfl rfl
        rcases List.mem_cons.1 hj with rfl | hj
        · exact .inr rfl
        · exact .inl ⟨_, List.mem_singleton_self _, hj⟩
      exact h₁.of_cleanup hst
  | polls k =>
    cases hst
    exact h.unwind [.store k] hctl rfl nofun rfl rfl rfl rfl
  | store k =>
    cases k with
    | close =>
      cases hst
      exact h.unwind [] hctl rfl nofun rfl rfl rfl rfl
    | finish =>
      cases hst
      exact h.unwind [.storeStarted] hctl rfl nofun rfl rfl rfl rfl
  | storeStarted | returning d =>
    cases hst
    exact h.unwind [] hctl rfl nofun rfl rfl rfl rfl

theorem of_nextPhase (h : Tracked (fun _ => False) s) (hst : nextPhase cfg s = some s') :
    Tracked (fun _ => False) s' := by
  have hcl : ∀ {t t' : St} {i : ℕ}, Tracked (fun _ => False) t → cleanup i t = some t' →
      Tracked (fun _ => False) t' := fun ht hc => (ht.weaken nofun).of_cleanup hc
  unfold nextPhase at hst
  split at hst
  · rename_i hph
    cases hst
    exact h.congr_ctl rfl rfl (by simp [St.inFlight, St.pending, hph]) rfl rfl
  · rename_i hph
    cases hst
    exact h.congr_ctl rfl rfl (by simp [St.inFlight, St.pending, hph]) rfl rfl
  · rename_i t rest hph
    have h₁ : Tracked (fun _ => False) { s with phase := .tasks rest } :=
      h.congr_ctl rfl rfl (by simp [St.inFlight, St.pending, hph]) rfl rfl
    cases t with
    | release =>
      cases hst
      exact h₁
    | send i =>
      cases hst
      exact h₁.pushCall rfl
    | cleanup i => exact hcl h₁ hst
    | acceptorShutdown =>
      cases hst
      exact h₁.congr_ctl rfl rfl rfl rfl rfl
    | cleanupAndSet i => exact hcl (h₁.pushCall rfl) hst
  · rename_i hph
    cases hst
    exact of_finish (h.congr_ctl rfl rfl (by simp [St.inFlight, St.pending, hph]) rfl rfl)
  · rename_i hph
    cases hst
    exact h.congr_ctl rfl rfl (by simp [St.inFlight, St.pending, hph]) rfl rfl
  all_goals cases hst

end Tracked

/-! ### Results -/

/-- The server is stopped on the poll thread only; no handle of a batch is passed on after
`started_` was cleared; and `~Server` is entered without connections, or on a server that nobody
has stopped, when the shutdown timeout is positive and runs out inside the call. -/
def OutliveOk (cfg : Config) (s : St) : Act → Prop
  | .newConn _ => s.started = true
  | .destroy dt => s.conns = [] ∨ (s.started = true ∧ s.shuttingDown = false ∧
      0 < cfg.shutdownTimeoutMs ∧ cfg.shutdownTimeoutMs ≤ dt)
  | .uClose | .uShutdown | .uNext | .vShutdown | .vExchange | .subCleanup _ | .subServe => False
  | _ => True

instance (cfg : Config) (s : St) : ∀ a, Decidable (OutliveOk cfg s a)
  | .newConn _ => inferInstanceAs (Decidable (s.started = true))
  | .destroy dt => inferInstanceAs (Decidable (s.conns = [] ∨ (s.started = true ∧
      s.shuttingDown = false ∧ 0 < cfg.shutdownTimeoutMs ∧ cfg.shutdownTimeoutMs ≤ dt)))
  | .uClose | .uShutdown | .uNext | .vShutdown | .vExchange | .subCleanup _ | .subServe =>
    .isFalse id
  | .poll | .accept _ | .acceptError _ _ | .event _ | .dispatchDone | .pollError | .callback
  | .fail | .endUser | .next | .send _ | .connClose _ | .setOnClose _ _ | .close | .shutdown _
  | .postSend _ | .postCleanup _ | .tick _ => .isTrue trivial

/-- `~Server` within the conditions clears `conns_` or finds it empty. -/
theorem settled_of_destroy {dt : ℕ} (hm : cfg.mode = .kAllOneThread)
    (hG : OutliveOk cfg s (.destroy dt))
    (hs : shutdownAllOneThread cfg dt s = some s') : s'.Settled := by
  obtain ⟨hstop, rfl⟩ | ⟨hst, hsd, rfl⟩ := shutdown_cases hs
  · obtain hc | ⟨h1, h2, -⟩ := hG
    · exact .inl hc
    · simp [h1, h2] at hstop
  · -- `finish_shutdown_all_one_thread_` does not return early
    have hfin : ¬ ((beginShutdown cfg dt s).conns ≠ [] ∧
        (beginShutdown cfg dt s).early = true) := by
      rintro ⟨hne, he⟩
      obtain ⟨-, -, h1, h2⟩ := Or.resolve_left hG hne
      simp only [St.early, beginShutdown, h1, if_true, decide_eq_true_eq] at he
      omega
    refine .inr ⟨.finish, ?_⟩
    have : finishShutdownAllOneThread cfg (beginShutdown cfg dt s) =
        push [.clear .finish] (beginShutdown cfg dt s) := by
      rw [finishShutdownAllOneThread, if_neg (by simp [hm]), if_neg (by simp [beginShutdown]),
        if_neg hfin]
    rw [this]
    exact List.mem_cons_self

theorem tracked_step (h : Tracked (fun _ => False) s) (hm : cfg.mode = .kAllOneThread)
    (hG : OutliveOk cfg s a) (hst : step cfg s a = some s') : Tracked (fun _ => False) s' := by
  cases step_cases hst with
  | poll hi he =>
    have hf : s.inFlight = s.accepted := by simp [St.inFlight, St.pending, (idle_iff.1 hi).2.2]
    obtain rfl | rfl | rfl | rfl := he
    · exact h
    all_goals exact h.congr_ctl rfl rfl hf.symm rfl rfl
  | accept hctl hph hl hf =>
    exact h.accept hf (by simp [St.pending, hph]) rfl rfl rfl rfl
      (by simp [St.inFlight, St.pending])
  | acceptError hctl hph hf =>
    refine Tracked.pushCall (h.accept hf (by simp [St.pending, hph]) rfl rfl rfl rfl ?_) ?_
    · simp [St.inFlight, St.pending, hph]
    · split <;> rfl
  | event hctl | callback hctl | send hu => exact h.pushCall rfl
  | dispatchDone hph =>
    exact h.congr_ctl rfl rfl (by simp [St.inFlight, St.pending, hph]) rfl rfl
  | refused hctl hph =>
    refine Tracked.pushCall (h.shrink rfl rfl rfl rfl ?_) ?_
    · simp [St.inFlight, St.pending, hph]
    · split <;> rfl
  | admitted hctl hph =>
    refine Tracked.pushCall (h.newConn hph hctl hG) ?_
    split <;> rfl
  | dropped hctl hph => exact h.shrink rfl rfl rfl rfl (by simp [St.inFlight, St.pending, hph])
  | pollError hctl hph =>
    have h₁ : Tracked (fun _ => False) { s with phase := .finish } :=
      h.congr_ctl rfl rfl (by simp [St.inFlight, St.pending, hph]) rfl rfl
    exact h₁.pushCall rfl
  | fail hctl hc | connClose hu hc => exact (h.weaken nofun).of_cleanup hc
  | endUser hctl => exact h.pop hctl rfl
  | phase hctl hn => exact h.of_nextPhase hn
  | frame hctl hn => exact h.of_nextFrame hctl hn
  | setOnClose hp => exact h.setOnClose hp
  | close hmode hu hc =>
    split
    · refine (h.of_close hc).returns ?_
      obtain ⟨hs, -, rfl⟩ | ⟨-, rfl⟩ := close_cases hc
      · exact h.settled (.inl hs)
      · exact .inr ⟨.close, List.mem_cons_self⟩
    · exact h.of_close hc
  | shutdown hu hs => exact h.of_shutdown hs
  | destroy hi hs => exact (h.of_shutdown hs).returns (settled_of_destroy hm hG hs)
  | postSend | postCleanup | tick => exact h.congr_ctl rfl rfl rfl rfl rfl
  -- no other thread stops the server here
  | uCloseStarted | uCloseStopping | uCloseStopped | uShutdown | uShutdownStopped | uNext
  | vShutdown | vIgnored | vThrows | subCleanup | subServe => exact hG.elim

theorem tracked_init (now : ℕ) : Tracked (fun _ => False) (init now) := by
  constructor <;> simp [init, St.inFlight, St.pending]

/-- **No connection outlives its server.**  In every run, in mode `kAllOneThread`, that keeps to the
conditions: when a `close()` or a `~Server` that was called outside any callback is about to
return, every connection that was ever admitted has had its socket closed exactly once and its
close callback, if one was set, called exactly once. -/
theorem no_connection_outlives {now : ℕ} {dtor : Bool} (hm : cfg.mode = .kAllOneThread)
    (h : (machine cfg).ReachIf (OutliveOk cfg) (init now) s) (hret : s.ctl = [.returning dtor]) :
    ∀ p ∈ s.peers, p.closes = 1 ∧ p.calls = if p.wanted then 1 else 0 := by
  have ht : Tracked (fun _ => False) s :=
    h.invariant (tracked_init now) fun _ _ _ ht hG hst => tracked_step ht hm hG hst
  intro p hp
  refine (ht.ok p hp).after ?_
  by_contra hd
  obtain ⟨i, hi⟩ := List.mem_iff_getElem?.1 hp
  rcases ht.held i p hi (by simpa using hd) id with hc | ⟨f, hf, hr⟩
  · -- the stop has cleared `conns_`, and no other call is left on the stack
    have hset := ht.settled (.inr ⟨.returning dtor, by simp [hret], rfl⟩)
    rcases hset with he | ⟨k, hk⟩
    · simp [he] at hc
    · simp [hret] at hk
  · rw [hret, List.mem_singleton] at hf
    subst hf
    cases hr

/-- Connection 0 has a close callback and connection 1 has none; both are open when `poll()`
returns. -/
def twoOpen : List Act :=
  [.poll, .accept [5, 6], .newConn true, .setOnClose 0 true, .endUser, .newConn true, .endUser,
    .next, .dispatchDone, .next, .next, .next]

/-- The graceful stop is in progress when `close()` closes both connections. -/
def closeStopping : List Act :=
  twoOpen ++ [.shutdown 0, .close] ++ .replicate 4 .next ++ [.endUser] ++ .replicate 4 .next

theorem no_connection_outlives_twoOpen : ∃ s,
    (machine (.default .kAllOneThread)).ReachIf (OutliveOk (.default .kAllOneThread)) (init 0) s ∧
    s.ctl = [.returning false] ∧ s.peers.length = 2 ∧
    ∀ p ∈ s.peers, p.closes = 1 ∧ p.calls = if p.wanted then 1 else 0 := by
  obtain ⟨s, hr, hp⟩ := Machine.ReachIf.of_endsIn (M := machine (.default .kAllOneThread))
    (G := OutliveOk (.default .kAllOneThread)) (s := init 0)
    (p := fun s => s.ctl = [.returning false] && s.peers.length = 2) closeStopping
    (by decide +kernel) (by decide +kernel)
  simp only [Bool.and_eq_true, decide_eq_true_eq] at hp
  exact ⟨s, hr, hp.1, hp.2, no_connection_outlives rfl hr hp.1⟩

/-- `~Server` on a started server with two connections is about to return: both are open, and the
callback of the first one was not called. -/
theorem connection_outlives : ∃ s, (machine (.default .kAllOneThread)).Reach (init 0) s ∧
    s.ctl = [.returning true] ∧
    s.peers = [⟨5, true, false, true, 0, false, 0⟩, ⟨6, true, false, false, 0, false, 0⟩] := by
  obtain ⟨s, hr, hp⟩ := Machine.Reach.of_endsIn (M := machine (.default .kAllOneThread))
    (s := init 0) (p := fun s => s.ctl = [.returning true] &&
      s.peers = [⟨5, true, false, true, 0, false, 0⟩, ⟨6, true, false, false, 0, false, 0⟩])
    (twoOpen ++ [Act.destroy 0]) (by decide +kernel)
  simp only [Bool.and_eq_true, decide_eq_true_eq] at hp
  exact ⟨s, hr, hp.1, hp.2⟩

end Loop

end Server

end CxpNet
