import CxpNet.Machine.Basic
import Mathlib.Data.List.AList
import Mathlib.Tactic.SplitIfs

/-!
# The connection table

`Server::conns_` in mode `kOnePollPerThread`: the thread of `main_poll_` accepts handles
(`Acceptor::handle_read_`) and admits them (`Server::on_new_connection_`), the threads of the
sub-polls start connections and clean them up (`Conn::cleanup_`, `Conn::do_cleanup_`), and a stop
of the server clears the table.  The table is keyed by the number of the handle.

One action of `Table.machine` is one `conns_mutex_` section, one call into the kernel, or one step
from a queue to the next.  `do_cleanup_` gives the handle back to the kernel (`closeHandle`) and
removes the entry (`onConnClose`) in two actions, and `accept` may return any number that is
closed at that moment.

* `Table.exact_of_admitOk` : the table is exact along every run in which no handle is admitted
  while the entry of an older connection under the same number is still to be erased;
* `Table.not_exact_of_reuse` : a run in which it is not.
-/

namespace CxpNet

namespace Server

namespace Table

/-- How far the life of an admitted connection has got. -/
inductive Phase where
  /-- In the table; its `start_` is not queued yet. -/
  | created
  /-- Its `start_` is queued on its sub-poll. -/
  | queued
  /-- `start_` was executed. -/
  | started
  /-- `cleanup_` has set `cleanup_done_`. -/
  | cleaning
  /-- `do_cleanup_` has closed the handle; the internal close callback is still to come. -/
  | closed
  /-- The internal close callback has returned. -/
  | erased
  deriving DecidableEq, Repr

/-- The connection owns an open handle. -/
def Phase.holds : Phase → Bool
  | created | queued | started | cleaning => true
  | closed | erased => false

/-- The cleanup of the connection has not begun. -/
def Phase.beforeCleanup : Phase → Bool
  | created | queued | started => true
  | cleaning | closed | erased => false

/-- A connection made by `on_new_connection_`: the handle it was made for, which its internal
close callback has captured, and its phase. -/
structure Admitted where
  handle : ℕ
  phase : Phase
  deriving DecidableEq, Repr

/-- Where the thread of `main_poll_` stands. -/
inductive MainPc where
  | idle
  /-- In the loop of `Platform::accept`. -/
  | accepting
  /-- In the loop of `handle_read_`, with these handles still to pass to `on_new_connection_`. -/
  | dispatch (rest : List ℕ)
  /-- In `on_new_connection_`, past the section that checks the cap. -/
  | checked (h : ℕ) (rest : List ℕ)
  /-- In `on_new_connection_`, past the section that inserts connection `i`. -/
  | inserted (i : ℕ) (rest : List ℕ)
  deriving DecidableEq, Repr

/-- What `on_new_connection_` did with a handle. -/
inductive Disposal where
  /-- Refused by the cap, at this size of the table, and closed. -/
  | refused (h size : ℕ)
  /-- Closed because the address could not be read. -/
  | badAddress (h : ℕ)
  /-- Given to the new connection `i`. -/
  | owned (h i : ℕ)
  deriving DecidableEq, Repr

/-- The table, the descriptors of the process, and the connections. -/
structure St where
  /-- The descriptor is open. -/
  fds : ℕ → Bool
  /-- `accepted_handles_` -/
  accepted : List ℕ
  pc : MainPc
  /-- `conns_`; a connection is named by its index in `objs`. -/
  conns : AList fun _ : ℕ => ℕ
  /-- The connections made so far. -/
  objs : List Admitted
  /-- History: a stop has cleared the table. -/
  cleared : Bool
  /-- History: what became of the handles passed to `on_new_connection_`. -/
  disposals : List Disposal

/-- The handles that are accepted and not yet passed on. -/
def St.pending (s : St) : List ℕ :=
  match s.pc with
  | .idle | .accepting => s.accepted
  | .dispatch rest | .inserted _ rest => rest
  | .checked h rest => h :: rest

/-- The server owns the descriptor. -/
def St.owns (s : St) (h : ℕ) : Prop :=
  h ∈ s.pending ∨ ∃ c ∈ s.objs, c.phase.holds = true ∧ c.handle = h

instance (s : St) (h : ℕ) : Decidable (s.owns h) :=
  inferInstanceAs (Decidable (h ∈ s.pending ∨ ∃ c ∈ s.objs, c.phase.holds = true ∧ c.handle = h))

/-- The atomic steps. -/
inductive Act where
  /-- `handle_read_` enters `Platform::accept`. -/
  | handleRead
  /-- `accept4` returns `h`. -/
  | accept (h : ℕ)
  /-- `accept4` reports `EAGAIN`. -/
  | acceptDone
  /-- `accept4` reports a fatal error: `handle_read_` returns, keeping `accepted_handles_`. -/
  | acceptError
  /-- The section of `on_new_connection_` that checks the cap. -/
  | checkCap
  /-- The rest of `on_new_connection_` up to and including the section that inserts; `addrOk` if
  the remote address could be read. -/
  | newConn (addrOk : Bool)
  /-- `on_new_connection_` queues `start_`. -/
  | runInPoll
  /-- The loop of `handle_read_` ends. -/
  | dispatchDone
  /-- The sub-poll of connection `i` executes its `start_`. -/
  | start (i : ℕ)
  /-- `cleanup_` of connection `i` begins. -/
  | cleanup (i : ℕ)
  /-- `do_cleanup_` of connection `i` closes its handle. -/
  | closeHandle (i : ℕ)
  /-- The internal close callback of connection `i`. -/
  | onConnClose (i : ℕ)
  /-- The section of `shutdown_impl_` that only copies the table. -/
  | stopSnapshot
  /-- The section of `shutdown_impl_` or `close_impl_` that clears the table. -/
  | stopClear
  /-- Other code of the process opens or closes a descriptor of its own. -/
  | openOther (h : ℕ)
  | closeOther (h : ℕ)
  deriving DecidableEq, Repr

/-- Connection `i` goes from phase `p` to phase `q`; also its handle. -/
def advance (s : St) (i : ℕ) (p q : Phase) : Option (St × ℕ) :=
  match s.objs[i]? with
  | some c =>
    if c.phase = p then some ({ s with objs := s.objs.set i { c with phase := q } }, c.handle)
    else none
  | none => none

/-- `Platform::close_handle(h)` -/
def closeFd (h : ℕ) (s : St) : St := { s with fds := Function.update s.fds h false }

variable (maxConnections : ℕ)

/-- One step of a server with this `max_connections_`. -/
def step (s : St) : Act → Option St
  | .handleRead => if s.pc = .idle then some { s with pc := .accepting } else none
  | .accept h =>
    if s.pc = .accepting ∧ s.fds h = false then
      some { s with fds := Function.update s.fds h true, accepted := s.accepted ++ [h] }
    else none
  | .acceptDone =>
    if s.pc = .accepting then some { s with pc := .dispatch s.accepted } else none
  | .acceptError => if s.pc = .accepting then some { s with pc := .idle } else none
  | .checkCap =>
    match s.pc with
    | .dispatch (h :: rest) =>
      if 0 < maxConnections ∧ maxConnections ≤ s.conns.entries.length then
        some (closeFd h { s with
          pc := .dispatch rest, disposals := .refused h s.conns.entries.length :: s.disposals })
      else some { s with pc := .checked h rest }
    | _ => none
  | .newConn addrOk =>
    match s.pc with
    | .checked h rest =>
      if addrOk then
        some { s with
          pc := .inserted s.objs.length rest
          objs := s.objs ++ [⟨h, .created⟩]
          conns := s.conns.insert h s.objs.length
          disposals := .owned h s.objs.length :: s.disposals }
      else some (closeFd h { s with
        pc := .dispatch rest, disposals := .badAddress h :: s.disposals })
    | _ => none
  | .runInPoll =>
    match s.pc with
    | .inserted i rest =>
      (advance s i .created .queued).map fun r => { r.1 with pc := .dispatch rest }
    | _ => none
  | .dispatchDone =>
    if s.pc = .dispatch [] then some { s with pc := .idle, accepted := [] } else none
  | .start i => (advance s i .queued .started).map (·.1)
  | .cleanup i => (advance s i .started .cleaning).map (·.1)
  | .closeHandle i => (advance s i .cleaning .closed).map fun r => closeFd r.2 r.1
  | .onConnClose i =>
    (advance s i .closed .erased).map fun r => { r.1 with conns := r.1.conns.erase r.2 }
  | .stopSnapshot => some s
  | .stopClear => some { s with conns := ∅, cleared := true }
  | .openOther h =>
    if s.fds h = false then some { s with fds := Function.update s.fds h true } else none
  | .closeOther h => if s.owns h then none else some (closeFd h s)

/-- The table as a machine. -/
def machine : Machine St Act := ⟨step maxConnections⟩

/-- A server that has just started, in a process with these open descriptors. -/
def init (fds : ℕ → Bool) : St := ⟨fds, [], .idle, ∅, [], false, []⟩

/-! ### What a step does -/

/-- The steps, case by case, with what was checked before each of them. -/
inductive Moves (s : St) : Act → St → Prop
  | handleRead (hpc : s.pc = .idle) : Moves s .handleRead { s with pc := .accepting }
  | accept {h : ℕ} (hpc : s.pc = .accepting) (hf : s.fds h = false) :
    Moves s (.accept h)
      { s with fds := Function.update s.fds h true, accepted := s.accepted ++ [h] }
  | acceptDone (hpc : s.pc = .accepting) :
    Moves s .acceptDone { s with pc := .dispatch s.accepted }
  | acceptError (hpc : s.pc = .accepting) : Moves s .acceptError { s with pc := .idle }
  /-- The cap is reached, -/
  | refused {h : ℕ} {rest : List ℕ} (hpc : s.pc = .dispatch (h :: rest)) :
    Moves s .checkCap (closeFd h { s with
      pc := .dispatch rest, disposals := .refused h s.conns.entries.length :: s.disposals })
  /-- or it is not. -/
  | checked {h : ℕ} {rest : List ℕ} (hpc : s.pc = .dispatch (h :: rest))
      (hcap : ¬ (0 < maxConnections ∧ maxConnections ≤ s.conns.entries.length)) :
    Moves s .checkCap { s with pc := .checked h rest }
  | admitted {h : ℕ} {rest : List ℕ} (hpc : s.pc = .checked h rest) :
    Moves s (.newConn true) { s with
      pc := .inserted s.objs.length rest
      objs := s.objs ++ [⟨h, .created⟩]
      conns := s.conns.insert h s.objs.length
      disposals := .owned h s.objs.length :: s.disposals }
  | badAddress {h : ℕ} {rest : List ℕ} (hpc : s.pc = .checked h rest) :
    Moves s (.newConn false) (closeFd h { s with
      pc := .dispatch rest, disposals := .badAddress h :: s.disposals })
  | runInPoll {i : ℕ} {rest : List ℕ} {r : St × ℕ} (hpc : s.pc = .inserted i rest)
      (hr : advance s i .created .queued = some r) :
    Moves s .runInPoll { r.1 with pc := .dispatch rest }
  | dispatchDone (hpc : s.pc = .dispatch []) :
    Moves s .dispatchDone { s with pc := .idle, accepted := [] }
  | start {i : ℕ} {r : St × ℕ} (hr : advance s i .queued .started = some r) :
    Moves s (.start i) r.1
  | cleanup {i : ℕ} {r : St × ℕ} (hr : advance s i .started .cleaning = some r) :
    Moves s (.cleanup i) r.1
  | closeHandle {i : ℕ} {r : St × ℕ} (hr : advance s i .cleaning .closed = some r) :
    Moves s (.closeHandle i) (closeFd r.2 r.1)
  | onConnClose {i : ℕ} {r : St × ℕ} (hr : advance s i .closed .erased = some r) :
    Moves s (.onConnClose i) { r.1 with conns := r.1.conns.erase r.2 }
  | stopSnapshot : Moves s .stopSnapshot s
  | stopClear : Moves s .stopClear { s with conns := ∅, cleared := true }
  | openOther {h : ℕ} (hf : s.fds h = false) :
    Moves s (.openOther h) { s with fds := Function.update s.fds h true }
  | closeOther {h : ℕ} (ho : ¬ s.owns h) : Moves s (.closeOther h) (closeFd h s)

variable {maxConnections} {fds : ℕ → Bool} {s s' : St}

/-- **What one step can do.** -/
theorem step_cases {a : Act} (hst : step maxConnections s a = some s') :
    Moves maxConnections s a s' := by
  cases a with
  | handleRead =>
    simp only [step] at hst
    split_ifs at hst with hpc
    cases hst
    exact .handleRead hpc
  | accept h =>
    simp only [step] at hst
    split_ifs at hst with hc
    cases hst
    exact .accept hc.1 hc.2
  | acceptDone =>
    simp only [step] at hst
    split_ifs at hst with hpc
    cases hst
    exact .acceptDone hpc
  | acceptError =>
    simp only [step] at hst
    split_ifs at hst with hpc
    cases hst
    exact .acceptError hpc
  | checkCap =>
    simp only [step] at hst
    split at hst
    · rename_i hpc
      split_ifs at hst with hcap
      · cases hst
        exact .refused hpc
      · cases hst
        exact .checked hpc hcap
    · cases hst
  | newConn addrOk =>
    simp only [step] at hst
    split at hst
    · rename_i hpc
      cases addrOk with
      | true =>
        cases hst
        exact .admitted hpc
      | false =>
        cases hst
        exact .badAddress hpc
    · cases hst
  | runInPoll =>
    simp only [step] at hst
    split at hst
    · rename_i hpc
      obtain ⟨r, hr, rfl⟩ := Option.map_eq_some_iff.1 hst
      exact .runInPoll hpc hr
    · cases hst
  | dispatchDone =>
    simp only [step] at hst
    split_ifs at hst with hpc
    cases hst
    exact .dispatchDone hpc
  | start i =>
    obtain ⟨r, hr, rfl⟩ := Option.map_eq_some_iff.1 hst
    exact .start hr
  | cleanup i =>
    obtain ⟨r, hr, rfl⟩ := Option.map_eq_some_iff.1 hst
    exact .cleanup hr
  | closeHandle i =>
    obtain ⟨r, hr, rfl⟩ := Option.map_eq_some_iff.1 hst
    exact .closeHandle hr
  | onConnClose i =>
    obtain ⟨r, hr, rfl⟩ := Option.map_eq_some_iff.1 hst
    exact .onConnClose hr
  | stopSnapshot =>
    cases hst
    exact .stopSnapshot
  | stopClear =>
    cases hst
    exact .stopClear
  | openOther h =>
    simp only [step] at hst
    split_ifs at hst with hf
    cases hst
    exact .openOther hf
  | closeOther h =>
    simp only [step] at hst
    split_ifs at hst with ho
    cases hst
    exact .closeOther ho

/-! ### Who owns a descriptor -/

/-- Every accepted handle and every handle of a connection is open and has one owner. -/
structure Owned (s : St) : Prop where
  nodup : s.pending.Nodup
  pending : ∀ h ∈ s.pending, s.fds h = true
  held : ∀ (i : ℕ) (c : Admitted), s.objs[i]? = some c → c.phase.holds = true →
    s.fds c.handle = true ∧ c.handle ∉ s.pending
  inj : ∀ (i j : ℕ) (c d : Admitted), s.objs[i]? = some c → s.objs[j]? = some d →
    c.phase.holds = true → d.phase.holds = true → c.handle = d.handle → i = j

theorem Phase.holds_of_beforeCleanup {p : Phase} (h : p.beforeCleanup = true) :
    p.holds = true := by
  cases p <;> simp_all [beforeCleanup, holds]

theorem getElem?_concat {l : List Admitted} {i : ℕ} {c d : Admitted}
    (h : (l ++ [d])[i]? = some c) : l[i]? = some c ∨ (i = l.length ∧ c = d) := by
  rw [List.getElem?_append] at h
  split_ifs at h with hi
  · exact .inl h
  · rw [List.getElem?_singleton] at h
    split_ifs at h with h0
    cases h
    exact .inr ⟨by omega, rfl⟩

/-- What `advance` leaves in the list of connections. -/
theorem advance_objs {i : ℕ} {p q : Phase} {r : St × ℕ} (h : advance s i p q = some r) :
    (∃ c, s.objs[i]? = some c ∧ c.phase = p ∧ c.handle = r.2) ∧
      r.1 = { s with objs := r.1.objs } ∧
      ∀ (j : ℕ) (d : Admitted), r.1.objs[j]? = some d →
        (j ≠ i ∧ s.objs[j]? = some d) ∨
          (j = i ∧ s.objs[j]? = some ⟨d.handle, p⟩ ∧ d.phase = q) := by
  unfold advance at h
  cases hc : s.objs[i]? with
  | none => simp [hc] at h
  | some c =>
    simp only [hc] at h
    split_ifs at h with hp
    cases h
    refine ⟨⟨c, rfl, hp, rfl⟩, rfl, fun j d hd => ?_⟩
    by_cases hj : j = i
    · subst hj
      right
      rw [List.getElem?_set_self', hc] at hd
      cases hd
      exact ⟨rfl, by rw [hc, ← hp]; rfl, rfl⟩
    · left
      rw [List.getElem?_set_ne (Ne.symm hj)] at hd
      exact ⟨hj, hd⟩

/-- A connection after `advance` was there before, with the same handle. -/
theorem advance_prev {i : ℕ} {p q : Phase} {r : St × ℕ} (h : advance s i p q = some r) {j : ℕ}
    {d : Admitted} (hd : r.1.objs[j]? = some d) :
    ∃ d', s.objs[j]? = some d' ∧ d'.handle = d.handle ∧
      (d'.phase = d.phase ∧ j ≠ i ∨ j = i ∧ d'.phase = p ∧ d.phase = q) := by
  rcases (advance_objs h).2.2 j d hd with ⟨hj, hd'⟩ | ⟨hj, hd', hq⟩
  · exact ⟨d, hd', rfl, .inl ⟨rfl, hj⟩⟩
  · exact ⟨_, hd', rfl, .inr ⟨hj, rfl, hq⟩⟩

namespace Owned

/-- A connection that does not lose its handle changes nothing about who owns what. -/
theorem advance {i : ℕ} {p q : Phase} {r : St × ℕ} (h : Owned s)
    (hadv : advance s i p q = some r) (hpq : q.holds = true → p.holds = true) : Owned r.1 := by
  have hprev : ∀ {j : ℕ} {d : Admitted}, r.1.objs[j]? = some d → d.phase.holds = true →
      ∃ d', s.objs[j]? = some d' ∧ d'.handle = d.handle ∧ d'.phase.holds = true := by
    intro j d hd hh
    obtain ⟨d', hd', heq, ⟨hp, -⟩ | ⟨-, hp, hq⟩⟩ := advance_prev hadv hd
    · exact ⟨d', hd', heq, hp ▸ hh⟩
    · exact ⟨d', hd', heq, by rw [hp]; exact hpq (hq ▸ hh)⟩
  have heq := (advance_objs hadv).2.1
  have hfds : r.1.fds = s.fds := by rw [heq]
  have hpend : r.1.pending = s.pending := by rw [heq]; rfl
  refine ⟨hpend ▸ h.nodup, ?_, fun j d hd hh => ?_, fun j k c d hc hd hch hdh he => ?_⟩
  · rw [hpend, hfds]
    exact h.pending
  · obtain ⟨d', hd', he, hh'⟩ := hprev hd hh
    rw [hfds, hpend, ← he]
    exact h.held j d' hd' hh'
  · obtain ⟨c', hc', hce, hch'⟩ := hprev hc hch
    obtain ⟨d', hd', hde, hdh'⟩ := hprev hd hdh
    exact h.inj j k c' d' hc' hd' hch' hdh' (by rw [hce, hde, he])

/-- A descriptor that nothing owns may be opened or closed. -/
theorem update {h : ℕ} {b : Bool} (ho : Owned s) (hfree : ¬ s.owns h) :
    Owned { s with fds := Function.update s.fds h b } := by
  have hne : ∀ k, s.owns k → Function.update s.fds h b k = s.fds k := fun k hk =>
    Function.update_of_ne (fun he : k = h => hfree (he ▸ hk)) _ _
  refine ⟨ho.nodup, fun k hk => ?_, fun i c hc hh => ?_, ho.inj⟩
  · exact (hne k (.inl hk)).trans (ho.pending k hk)
  · obtain ⟨h1, h2⟩ := ho.held i c hc hh
    exact ⟨(hne _ (.inr ⟨c, List.mem_of_getElem? hc, hh, rfl⟩)).trans h1, h2⟩

/-- Nothing owns a closed descriptor. -/
theorem not_owns_of_closed {h : ℕ} (ho : Owned s) (hf : s.fds h = false) : ¬ s.owns h := by
  rintro (hp | ⟨c, hc, hh, rfl⟩)
  · simp [ho.pending h hp] at hf
  · obtain ⟨i, hi⟩ := List.mem_iff_getElem?.1 hc
    simp [(ho.held i c hi hh).1] at hf

/-- Only the connections, the descriptors and the pending handles matter, and pending handles
may be dropped. -/
theorem of_sublist {t : St} (ho : Owned s) (hfds : t.fds = s.fds) (hobjs : t.objs = s.objs)
    (hsub : t.pending.Sublist s.pending) : Owned t where
  nodup := ho.nodup.sublist hsub
  pending h hh := hfds ▸ ho.pending h (hsub.subset hh)
  held i c hc hh := by
    rw [hobjs] at hc
    obtain ⟨h1, h2⟩ := ho.held i c hc hh
    exact ⟨hfds ▸ h1, fun hm => h2 (hsub.subset hm)⟩
  inj i j c d hc hd := by
    rw [hobjs] at hc hd
    exact ho.inj i j c d hc hd

/-- The pending handle `h` is dropped and closed. -/
theorem drop_close {h : ℕ} {rest : List ℕ} {t : St} (ho : Owned s) (hs : s.pending = h :: rest)
    (ht : t.pending = rest) (hfds : t.fds = s.fds) (hobjs : t.objs = s.objs) :
    Owned (closeFd h t) := by
  have hn := ho.nodup
  rw [hs, List.nodup_cons] at hn
  have hot : Owned t :=
    ho.of_sublist hfds hobjs (by rw [ht, hs]; exact List.sublist_cons_self h rest)
  refine hot.update ?_
  rintro (hp | ⟨c, hc, hh, he⟩)
  · exact hn.1 (ht ▸ hp)
  · rw [hobjs] at hc
    obtain ⟨i, hi⟩ := List.mem_iff_getElem?.1 hc
    exact (ho.held i c hi hh).2 (by rw [hs, he]; exact List.mem_cons_self)

/-- A descriptor that was closed becomes the last pending handle. -/
theorem accept {h : ℕ} {t : St} (ho : Owned s) (hf : s.fds h = false)
    (ht : t.pending = s.pending ++ [h]) (hfds : t.fds = Function.update s.fds h true)
    (hobjs : t.objs = s.objs) : Owned t := by
  have hfree := ho.not_owns_of_closed hf
  have hu := ho.update (b := true) hfree
  refine ⟨?_, fun k hk => ?_, fun i c hc hh => ?_, hobjs ▸ ho.inj⟩
  · rw [ht, List.nodup_append]
    refine ⟨ho.nodup, by simp, fun a ha b hb he => hfree (.inl ?_)⟩
    rw [List.mem_singleton] at hb
    exact hb ▸ he ▸ ha
  · rw [ht, List.mem_append, List.mem_singleton] at hk
    rw [hfds]
    rcases hk with hk | rfl
    · exact hu.pending k hk
    · exact Function.update_self ..
  · rw [hobjs] at hc
    rw [ht, hfds]
    obtain ⟨h1, h2⟩ := hu.held i c hc hh
    refine ⟨h1, fun hm => ?_⟩
    rcases List.mem_append.1 hm with hm | hm
    · exact h2 hm
    · rw [List.mem_singleton] at hm
      exact hfree (.inr ⟨c, List.mem_of_getElem? hc, hh, hm⟩)

/-- The pending handle `h` goes to a new connection. -/
theorem newConn {h : ℕ} {rest : List ℕ} {t : St} (ho : Owned s) (hs : s.pending = h :: rest)
    (ht : t.pending = rest) (hfds : t.fds = s.fds)
    (hobjs : t.objs = s.objs ++ [⟨h, .created⟩]) : Owned t := by
  have hn := ho.nodup
  rw [hs, List.nodup_cons] at hn
  have hnew : ∀ {i : ℕ} {c : Admitted}, t.objs[i]? = some c →
      s.objs[i]? = some c ∨ (i = s.objs.length ∧ c = ⟨h, .created⟩) := by
    intro i c hc
    rw [hobjs] at hc
    exact getElem?_concat hc
  have hother : ∀ {i : ℕ} {c : Admitted}, s.objs[i]? = some c → c.phase.holds = true →
      c.handle ≠ h := fun hc hh he =>
    (ho.held _ _ hc hh).2 (by rw [hs, he]; exact List.mem_cons_self)
  refine ⟨ht ▸ hn.2, fun k hk => ?_, fun i c hc hh => ?_, fun i j c d hc hd hch hdh he => ?_⟩
  · rw [ht] at hk
    exact hfds ▸ ho.pending k (by rw [hs]; exact List.mem_cons_of_mem _ hk)
  · rw [ht, hfds]
    rcases hnew hc with hc | ⟨-, rfl⟩
    · obtain ⟨h1, h2⟩ := ho.held i c hc hh
      rw [hs] at h2
      exact ⟨h1, fun hm => h2 (List.mem_cons_of_mem _ hm)⟩
    · exact ⟨ho.pending h (by rw [hs]; exact List.mem_cons_self), hn.1⟩
  · rcases hnew hc with hc | ⟨rfl, rfl⟩ <;> rcases hnew hd with hd | ⟨rfl, rfl⟩
    · exact ho.inj i j c d hc hd hch hdh he
    · exact absurd he (hother hc hch)
    · exact absurd he.symm (hother hd hdh)
    · rfl

/-- A connection closes its handle, which no other connection has. -/
theorem closeHandle {i : ℕ} {r : St × ℕ} (ho : Owned s)
    (hr : Table.advance s i .cleaning .closed = some r) : Owned (closeFd r.2 r.1) := by
  refine (ho.advance hr (by decide)).update ?_
  obtain ⟨⟨c, hc, hp, he⟩, hsame, -⟩ := advance_objs hr
  have hch : c.phase.holds = true := by rw [hp]; rfl
  rintro (hm | ⟨d, hd, hdh, hde⟩)
  · have hpend : r.1.pending = s.pending := by rw [hsame]; rfl
    exact (ho.held i c hc hch).2 (by rw [he, ← hpend]; exact hm)
  · -- another connection with this handle would share it with `c`
    obtain ⟨j, hj⟩ := List.mem_iff_getElem?.1 hd
    obtain ⟨d', hd', hde', ⟨hdp, hji⟩ | ⟨-, -, hq⟩⟩ := advance_prev hr hj
    · exact hji (ho.inj j i d' c hd' hc (hdp ▸ hdh) hch (by rw [hde', hde, he]))
    · simp [hq, Phase.holds] at hdh

end Owned

theorem owned_step {a : Act} (ho : Owned s) (hst : step maxConnections s a = some s') :
    Owned s' := by
  cases step_cases hst with
  | handleRead hpc | acceptError hpc | acceptDone hpc | checked hpc =>
    exact ho.of_sublist rfl rfl (by simp [St.pending, hpc])
  | dispatchDone hpc => exact ho.of_sublist rfl rfl (by simp [St.pending])
  | accept hpc hf => exact ho.accept hf (by simp [St.pending, hpc]) rfl rfl
  | refused hpc | badAddress hpc =>
    exact ho.drop_close (by simp only [St.pending, hpc]) rfl rfl rfl
  | admitted hpc => exact ho.newConn (by simp only [St.pending, hpc]) rfl rfl rfl
  | runInPoll hpc hr =>
    refine (ho.advance hr (by decide)).of_sublist rfl rfl ?_
    rw [(advance_objs hr).2.1]
    simp [St.pending, hpc]
  | start hr | cleanup hr => exact ho.advance hr (by decide)
  | closeHandle hr => exact ho.closeHandle hr
  | onConnClose hr => exact (ho.advance hr (by decide)).of_sublist rfl rfl (.refl _)
  | stopSnapshot => exact ho
  | stopClear => exact ho.of_sublist rfl rfl (.refl _)
  | openOther hf => exact ho.update (ho.not_owns_of_closed hf)
  | closeOther hfree => exact ho.update hfree

/-! ### Exactness -/

/-- The table holds every connection whose cleanup has not begun, under its own handle. -/
def Exact (s : St) : Prop :=
  ∀ (i : ℕ) (c : Admitted), s.objs[i]? = some c → c.phase.beforeCleanup = true →
    s.conns.lookup c.handle = some i

/-- No connection whose cleanup has not begun has the number of a handle that was closed and is
still to be erased. -/
def NoStale (s : St) : Prop :=
  ∀ (i j : ℕ) (c d : Admitted), s.objs[i]? = some c → s.objs[j]? = some d →
    c.phase = .closed → d.phase.beforeCleanup = true → c.handle ≠ d.handle

/-- An older connection with the number of the handle in `on_new_connection_` is between its
`close_handle` and its `on_conn_close_`. -/
def St.eraseDue (s : St) : Bool :=
  match s.pc with
  | .checked h _ => s.objs.any fun c => c.phase = .closed && c.handle = h
  | _ => false

/-- No handle is admitted while the entry of an older connection of its number is due to be
erased. -/
def AdmitOk (s : St) (a : Act) : Prop := a = .newConn true → s.eraseDue = false

instance (s : St) (a : Act) : Decidable (AdmitOk s a) :=
  inferInstanceAs (Decidable (a = .newConn true → s.eraseDue = false))

/-- What the guard keeps. -/
structure Kept (s : St) : Prop where
  noStale : NoStale s
  exact : s.cleared = false → Exact s

namespace Kept

theorem of_eq {t : St} (h : Kept s) (hobjs : t.objs = s.objs) (hconns : t.conns = s.conns)
    (hcl : t.cleared = s.cleared) : Kept t := by
  refine ⟨?_, fun hc => ?_⟩
  · have := h.noStale
    rwa [NoStale, hobjs]
  · have := h.exact (hcl ▸ hc)
    rwa [Exact, hobjs, hconns]

/-- A step of a connection that keeps its handle or loses it to a number nobody else has. -/
theorem advance {i : ℕ} {p q : Phase} {r : St × ℕ} (h : Kept s)
    (hadv : Table.advance s i p q = some r)
    (hpq : q.beforeCleanup = true → p.beforeCleanup = true)
    (hq : q = .closed → ∀ (j : ℕ) (d : Admitted), s.objs[j]? = some d →
      d.phase.beforeCleanup = true → r.2 ≠ d.handle) : Kept r.1 := by
  have hprev : ∀ {j : ℕ} {d : Admitted}, r.1.objs[j]? = some d → d.phase.beforeCleanup = true →
      ∃ d', s.objs[j]? = some d' ∧ d'.handle = d.handle ∧ d'.phase.beforeCleanup = true := by
    intro j d hd hh
    obtain ⟨d', hd', heq, ⟨hp, -⟩ | ⟨-, hp, hq⟩⟩ := advance_prev hadv hd
    · exact ⟨d', hd', heq, hp ▸ hh⟩
    · exact ⟨d', hd', heq, by rw [hp]; exact hpq (hq ▸ hh)⟩
  obtain ⟨⟨c₀, hc₀, -, he₀⟩, hsame, -⟩ := advance_objs hadv
  refine ⟨fun j k c d hc hd hcl hdb => ?_, fun hcl j d hd hdb => ?_⟩
  · obtain ⟨d', hd', hde, hdb'⟩ := hprev hd hdb
    rw [← hde]
    obtain ⟨c', hc', hce, ⟨hp, -⟩ | ⟨rfl, -, hcq⟩⟩ := advance_prev hadv hc
    · rw [← hce]
      exact h.noStale j k c' d' hc' hd' (hp ▸ hcl) hdb'
    · rw [hc'] at hc₀
      cases hc₀
      rw [← hce, he₀]
      exact hq (hcq ▸ hcl) k d' hd' hdb'
  · obtain ⟨d', hd', hde, hdb'⟩ := hprev hd hdb
    rw [hsame] at hcl ⊢
    rw [← hde]
    exact h.exact hcl j d' hd' hdb'

/-- A new connection, under a number that no entry still to be erased has. -/
theorem newConn {h : ℕ} {t : St} (hk : Kept s) (ho : Owned s) (hm : h ∈ s.pending)
    (hdue : ∀ c ∈ s.objs, c.phase = .closed → c.handle ≠ h)
    (hobjs : t.objs = s.objs ++ [⟨h, .created⟩]) (hcl : t.cleared = s.cleared)
    (hconns : t.conns = s.conns.insert h s.objs.length) : Kept t := by
  refine ⟨fun i j c d hc hd hcc hdb => ?_, fun hc i d hd hdb => ?_⟩
  · rw [hobjs] at hc hd
    rcases getElem?_concat hc with hc | ⟨-, rfl⟩
    · rcases getElem?_concat hd with hd | ⟨-, rfl⟩
      · exact hk.noStale i j c d hc hd hcc hdb
      · exact hdue c (List.mem_of_getElem? hc) hcc
    · cases hcc
  · rw [hobjs] at hd
    rw [hconns]
    rcases getElem?_concat hd with hd | ⟨rfl, rfl⟩
    · have hne : d.handle ≠ h := fun he =>
        (ho.held i d hd (Phase.holds_of_beforeCleanup hdb)).2 (he ▸ hm)
      rw [AList.lookup_insert_ne hne]
      exact hk.exact (hcl ▸ hc) i d hd hdb
    · exact AList.lookup_insert s.conns

theorem closeHandle {i : ℕ} {r : St × ℕ} (hk : Kept s) (ho : Owned s)
    (hr : Table.advance s i .cleaning .closed = some r) : Kept (closeFd r.2 r.1) := by
  refine (hk.advance hr (by decide) fun _ j d hd hdb he => ?_).of_eq rfl rfl rfl
  obtain ⟨⟨c, hc, hp, hce⟩, -, -⟩ := advance_objs hr
  -- the closing connection still owns its handle
  have hij : i = j := ho.inj i j c d hc hd (by rw [hp]; rfl)
    (Phase.holds_of_beforeCleanup hdb) (hce.trans he)
  subst hij
  rw [hc] at hd
  cases hd
  rw [hp] at hdb
  cases hdb

/-- The erase takes away no entry of a connection that is not cleaned up yet. -/
theorem onConnClose {i : ℕ} {r : St × ℕ} (hk : Kept s)
    (hr : Table.advance s i .closed .erased = some r) :
    Kept { r.1 with conns := r.1.conns.erase r.2 } := by
  have hk' := hk.advance hr (by decide) nofun
  obtain ⟨⟨c, hc, hp, hce⟩, -, -⟩ := advance_objs hr
  refine ⟨hk'.noStale, fun hcl j d hd hdb => ?_⟩
  obtain ⟨d', hd', hde, ⟨hdp, -⟩ | ⟨-, -, hq⟩⟩ := advance_prev hr hd
  · have hne : d.handle ≠ r.2 := by
      rw [← hde, ← hce]
      exact (hk.noStale i j c d' hc hd' hp (hdp ▸ hdb)).symm
    exact (AList.lookup_erase_ne hne).trans (hk'.exact hcl j d hd hdb)
  · rw [hq] at hdb
    cases hdb

end Kept

theorem kept_step {a : Act} (hk : Kept s) (ho : Owned s) (hG : AdmitOk s a)
    (hst : step maxConnections s a = some s') : Kept s' := by
  cases step_cases hst with
  | handleRead | acceptError | acceptDone | dispatchDone | accept | openOther | closeOther
  | refused | checked | badAddress => exact hk.of_eq rfl rfl rfl
  | admitted hpc =>
    have hdue := hG rfl
    simp only [St.eraseDue, hpc, List.any_eq_false, Bool.and_eq_true, decide_eq_true_eq,
      not_and] at hdue
    exact hk.newConn ho (by simp [St.pending, hpc]) hdue rfl rfl rfl
  | runInPoll hpc hr => exact (hk.advance hr (by decide) nofun).of_eq rfl rfl rfl
  | start hr | cleanup hr => exact hk.advance hr (by decide) nofun
  | closeHandle hr => exact hk.closeHandle ho hr
  | onConnClose hr => exact hk.onConnClose hr
  | stopSnapshot => exact hk
  | stopClear => exact ⟨hk.noStale, fun hc => by cases hc⟩

theorem owned_init : Owned (init fds) := by
  constructor <;> simp [init, St.pending]

theorem kept_init : Kept (init fds) := by
  constructor <;> simp [init, NoStale, Exact]

theorem owned_of_reach (h : (machine maxConnections).Reach (init fds) s) : Owned s :=
  h.invariant owned_init fun _ _ _ ho _ hst => owned_step ho hst

/-! ### Results -/

/-- **The table is exact** in every state, before a stop clears it, of every run in which no
handle is admitted while the entry of an older connection of the same number is still to be
erased: every connection that was admitted and whose cleanup has not begun is stored under its
own handle. -/
theorem exact_of_admitOk (h : (machine maxConnections).ReachIf AdmitOk (init fds) s)
    (hcl : s.cleared = false) : Exact s := by
  have hk : Kept s := h.invariant_of (fun _ hr => owned_of_reach hr.reach) kept_init
    fun _ _ _ ho hk hG hst => kept_step hk ho hG hst
  exact hk.exact hcl

/-- Handle 5 is accepted, admitted as connection 0, and cleaned up to its `close_handle`. -/
def firstLife : List Act :=
  [.handleRead, .accept 5, .acceptDone, .checkCap, .newConn true, .runInPoll, .dispatchDone,
    .start 0, .cleanup 0, .closeHandle 0]

/-- Handle 5 is accepted again, up to the check of the cap. -/
def secondAccept : List Act := [.handleRead, .accept 5, .acceptDone, .checkCap]

/-- The number is used again after the first connection was erased: the second one is stored. -/
theorem exact_of_admitOk_reuse : ∃ s, (machine 0).ReachIf AdmitOk (init fun _ => false) s ∧
    s.objs = [⟨5, .erased⟩, ⟨5, .created⟩] ∧ s.conns.lookup 5 = some 1 := by
  have hr : (machine 0).ReachIf AdmitOk (init fun _ => false) _ :=
    .of_exec (firstLife ++ [Act.onConnClose 0] ++ secondAccept ++ [Act.newConn true]) rfl
      (by decide)
  exact ⟨_, hr, rfl, exact_of_admitOk hr rfl 1 ⟨5, .created⟩ rfl rfl⟩

/-- The number is used again before the first connection is erased: its erase removes the second
connection, which is neither closed nor being cleaned up. -/
theorem not_exact_of_reuse : ∃ s, (machine 0).Reach (init fun _ => false) s ∧
    s.cleared = false ∧ s.objs = [⟨5, .erased⟩, ⟨5, .created⟩] ∧ s.conns.lookup 5 = none ∧
    ¬ Exact s := by
  have hr : (machine 0).Reach (init fun _ => false) _ :=
    .of_exec (firstLife ++ secondAccept ++ [Act.newConn true, .onConnClose 0]) rfl
  refine ⟨_, hr, rfl, rfl, by decide, fun he => ?_⟩
  exact absurd (he 1 ⟨5, .created⟩ rfl rfl) (by decide)

end Table

end Server

end CxpNet
