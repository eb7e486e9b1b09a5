import CxpNet.Machine.Basic
import Mathlib.Data.List.Basic
import Mathlib.Logic.Function.Basic
import Mathlib.Tactic.SplitIfs

/-!
# The wakeup pipes of macOS

An event loop knows its wakeup pipe by the writing end.  `create_wakeup_fd` records the reading end
in `g_wakeup_fd_map`, a map of the process that all loops share; `get_wakeup_read_fd` looks it up
and `destroy_wakeup_fd` takes it out and closes both ends (`platform_api_for_macos.cc`).  Loops are
constructed and destroyed on any threads, and the kernel gives out a descriptor again as soon as it
was closed.

One step is one critical section of `g_wakeup_fd_map_mutex` or one system call.

* `Ends.ends_matched` : in every interleaving each loop gets the reading end of its own pipe, nobody
  closes a descriptor that is not his, the map has no entries of loops that are gone, and no end of
  a pipe stays open when its loop is gone.
-/

namespace CxpNet

namespace Ends

/-- What a descriptor of the process refers to. -/
inductive Obj (P : Type) where
  /-- An end of the pipe of the loop `p`. -/
  | pipe (p : P) (write : Bool)
  | other
  deriving DecidableEq, Repr

/-- Where an `IOEventPoll` stands with its wakeup descriptors; `none` is `invalid_socket`. -/
inductive Pc where
  /-- There is no such object. -/
  | absent
  /-- `create_wakeup_fd`, after `pipe`. -/
  | piped (r w : ℕ)
  /-- `create_wakeup_fd` has returned `w`.  History: the reading end that it has recorded. -/
  | created (w r : Option ℕ)
  /-- Constructed: `wakeup_handle_` and `wakeup_read_fd_`. -/
  | live (w r : Option ℕ)
  /-- `destroy_wakeup_fd`, after its critical section. -/
  | erased (w : ℕ) (r : Option ℕ)
  /-- `destroy_wakeup_fd`, before `close_handle(write_fd)`. -/
  | closing (w : ℕ)
  deriving DecidableEq, Repr

/-- A call of `close`: the descriptor, who has closed it as which end, and what it referred to. -/
structure Close (P : Type) where
  handle : ℕ
  poll : P
  write : Bool
  found : Option (Obj P)
  deriving DecidableEq, Repr

/-- The process. -/
structure St (P : Type) where
  /-- The open descriptors. -/
  table : ℕ → Option (Obj P)
  /-- `g_wakeup_fd_map` -/
  map : ℕ → Option ℕ
  pc : P → Pc
  /-- History: the calls of `close` in `destroy_wakeup_fd`. -/
  closed : List (Close P)

inductive Act (P : Type) where
  /-- `pipe(fds)`; `none` if it fails. -/
  | pipe (p : P) (fds : Option (ℕ × ℕ))
  /-- The critical section of `create_wakeup_fd`. -/
  | insert (p : P)
  /-- `get_wakeup_read_fd` -/
  | get (p : P)
  /-- The beginning of `destroy_wakeup_fd`, with its critical section. -/
  | erase (p : P)
  /-- `if (read_fd >= 0) { close_handle(read_fd); }` -/
  | closeRead (p : P)
  /-- `close_handle(write_fd)` -/
  | closeWrite (p : P)
  /-- The rest of the process opens and closes descriptors of its own. -/
  | openOther (h : ℕ)
  | closeOther (h : ℕ)
  deriving DecidableEq, Repr

variable {P : Type} [DecidableEq P]

namespace St

def setPc (p : P) (c : Pc) (s : St P) : St P := { s with pc := Function.update s.pc p c }

/-- The kernel makes a descriptor refer to something, or to nothing. -/
def setTable (h : ℕ) (o : Option (Obj P)) (s : St P) : St P :=
  { s with table := Function.update s.table h o }

/-- `close_handle(h)` in `destroy_wakeup_fd` of the loop `p`. -/
def closeHandle (h : ℕ) (p : P) (write : Bool) (s : St P) : St P :=
  { s.setTable h none with closed := s.closed ++ [⟨h, p, write, s.table h⟩] }

@[simp] theorem setPc_table (p : P) (c : Pc) (s : St P) : (s.setPc p c).table = s.table := rfl

@[simp] theorem setPc_map (p : P) (c : Pc) (s : St P) : (s.setPc p c).map = s.map := rfl

omit [DecidableEq P] in
@[simp] theorem setTable_pc (h : ℕ) (o : Option (Obj P)) (s : St P) :
    (s.setTable h o).pc = s.pc := rfl

omit [DecidableEq P] in
@[simp] theorem setTable_map (h : ℕ) (o : Option (Obj P)) (s : St P) :
    (s.setTable h o).map = s.map := rfl

omit [DecidableEq P] in
@[simp] theorem closeHandle_table (h : ℕ) (p : P) (write : Bool) (s : St P) :
    (s.closeHandle h p write).table = Function.update s.table h none := rfl

omit [DecidableEq P] in
@[simp] theorem closeHandle_map (h : ℕ) (p : P) (write : Bool) (s : St P) :
    (s.closeHandle h p write).map = s.map := rfl

end St

/-- One step. -/
def step (s : St P) : Act P → Option (St P)
  | .pipe p none => if s.pc p = .absent then some (s.setPc p (.created none none)) else none
  | .pipe p (some (r, w)) =>
    if s.pc p = .absent ∧ s.table r = none ∧ s.table w = none ∧ r ≠ w then
      some (((s.setTable r (some (.pipe p false))).setTable w (some (.pipe p true))).setPc p
        (.piped r w))
    else none
  | .insert p =>
    match s.pc p with
    | .piped r w =>
      some ({ s with map := Function.update s.map w (some r) }.setPc p (.created (some w) (some r)))
    | _ => none
  | .get p =>
    match s.pc p with
    | .created w _ => some (s.setPc p (.live w (w.bind s.map)))
    | _ => none
  | .erase p =>
    match s.pc p with
    | .live none _ => some (s.setPc p .absent)
    | .live (some w) _ =>
      some ({ s with map := Function.update s.map w none }.setPc p (.erased w (s.map w)))
    | _ => none
  | .closeRead p =>
    match s.pc p with
    | .erased w none => some (s.setPc p (.closing w))
    | .erased w (some r) => some ((s.closeHandle r p false).setPc p (.closing w))
    | _ => none
  | .closeWrite p =>
    match s.pc p with
    | .closing w => some ((s.closeHandle w p true).setPc p .absent)
    | _ => none
  | .openOther h => if s.table h = none then some (s.setTable h (some .other)) else none
  | .closeOther h => if s.table h = some .other then some (s.setTable h none) else none

/-- The process as a machine. -/
def machine (P : Type) [DecidableEq P] : Machine (St P) (Act P) := ⟨step⟩

/-- A process without event loops. -/
def init : St P := ⟨fun _ => none, fun _ => none, fun _ => .absent, []⟩

/-! ### Partial maps -/

section

variable {α β : Type} [DecidableEq α] {f : α → Option β} {a x : α} {y : β}

theorem update_none : Function.update f a none x = some y ↔ x ≠ a ∧ f x = some y := by
  by_cases hx : x = a
  · subst hx
    simp
  · simp [hx]

theorem update_some {b : β} : Function.update f a (some b) x = some y ↔
    x = a ∧ b = y ∨ x ≠ a ∧ f x = some y := by
  by_cases hx : x = a
  · subst hx
    simp
  · simp [hx]

end

/-! ### The invariant -/

namespace Pc

/-- The ends that the loop is responsible for. -/
def ends : Pc → List (ℕ × Bool)
  | absent => []
  | piped r w => [(r, false), (w, true)]
  | created w r | live w r => r.toList.map (·, false) ++ w.toList.map (·, true)
  | erased w r => r.toList.map (·, false) ++ [(w, true)]
  | closing w => [(w, true)]

/-- Its entry in the map. -/
def entry : Pc → Option (ℕ × ℕ)
  | created (some w) (some r) | live (some w) (some r) => some (w, r)
  | _ => none

/-- It has both ends or none. -/
def whole : Pc → Bool
  | created w r | live w r => w.isSome = r.isSome
  | erased _ r => r.isSome
  | _ => true

theorem mem_ends_of_entry {c : Pc} {w r : ℕ} (h : c.entry = some (w, r)) : (w, true) ∈ c.ends := by
  unfold entry at h
  split at h <;> cases h <;> simp [ends]

end Pc

/-- **The invariant.** -/
structure Inv (s : St P) : Prop where
  /-- The open ends of pipes are those that some loop is responsible for. -/
  table : ∀ h p b, s.table h = some (.pipe p b) ↔ (h, b) ∈ (s.pc p).ends
  map : ∀ w r, s.map w = some r ↔ ∃ p, (s.pc p).entry = some (w, r)
  whole : ∀ p, (s.pc p).whole
  closed : ∀ c ∈ s.closed, c.found = some (.pipe c.poll c.write)

namespace Inv

variable {s s' : St P} {p : P}

omit [DecidableEq P] in
/-- The loops whose entry has the same key are the same. -/
theorem entry_unique (h : Inv s) {q : P} {w r r' : ℕ} (hp : (s.pc p).entry = some (w, r))
    (hq : (s.pc q).entry = some (w, r')) : p = q := by
  have h1 := (h.table w p true).2 (Pc.mem_ends_of_entry hp)
  have h2 := (h.table w q true).2 (Pc.mem_ends_of_entry hq)
  rw [h1] at h2
  cases h2
  rfl

/-- One loop goes on: the ends of the others stay as they are, and so do their entries. -/
theorem advance (h : Inv s) (c : Pc) (hpc : s'.pc = Function.update s.pc p c)
    (htable : ∀ k b, s'.table k = some (.pipe p b) ↔ (k, b) ∈ c.ends)
    (hother : ∀ k q b, q ≠ p → (s'.table k = some (.pipe q b) ↔ s.table k = some (.pipe q b)))
    (hmap : ∀ w r, s'.map w = some r ↔
      c.entry = some (w, r) ∨ ∃ q, q ≠ p ∧ (s.pc q).entry = some (w, r))
    (hwhole : c.whole) (hclosed : ∀ x ∈ s'.closed, x.found = some (.pipe x.poll x.write)) :
    Inv s' := by
  refine ⟨fun k q b => ?_, fun w r => ?_, fun q => ?_, hclosed⟩
  · by_cases hq : q = p
    · subst hq
      rw [hpc, Function.update_self]
      exact htable k b
    · rw [hpc, Function.update_of_ne hq, hother k q b hq]
      exact h.table k q b
  · rw [hmap, hpc]
    constructor
    · rintro (he | ⟨q, hq, he⟩)
      · exact ⟨p, by rw [Function.update_self]; exact he⟩
      · exact ⟨q, by rw [Function.update_of_ne hq]; exact he⟩
    · rintro ⟨q, he⟩
      by_cases hq : q = p
      · subst hq
        rw [Function.update_self] at he
        exact .inl he
      · rw [Function.update_of_ne hq] at he
        exact .inr ⟨q, hq, he⟩
  · rw [hpc]
    by_cases hq : q = p
    · subst hq
      rw [Function.update_self]
      exact hwhole
    · rw [Function.update_of_ne hq]
      exact h.whole q

/-- The map, where the loop keeps its entry or its lack of one. -/
theorem map_same (h : Inv s) {c : Pc} (hc : c.entry = (s.pc p).entry) (w r : ℕ) :
    s.map w = some r ↔ c.entry = some (w, r) ∨ ∃ q, q ≠ p ∧ (s.pc q).entry = some (w, r) := by
  rw [h.map, hc]
  constructor
  · rintro ⟨q, hq⟩
    by_cases hqp : q = p
    · exact .inl (hqp ▸ hq)
    · exact .inr ⟨q, hqp, hq⟩
  · rintro (hp | ⟨q, -, hq⟩)
    · exact ⟨p, hp⟩
    · exact ⟨q, hq⟩

/-- `pipe` returns two descriptors that were not in use. -/
theorem pipe (h : Inv s) {r w : ℕ} (hpc : s.pc p = .absent) (hr : s.table r = none)
    (hw : s.table w = none) (hne : r ≠ w) :
    Inv (((s.setTable r (some (.pipe p false))).setTable w (some (.pipe p true))).setPc p
      (.piped r w)) := by
  have hnone : ∀ k b, s.table k ≠ some (.pipe p b) := fun k b hk => by
    simpa [hpc, Pc.ends] using (h.table k p b).1 hk
  refine h.advance (p := p) (.piped r w) rfl (fun k b => ?_) (fun k q b hq => ?_)
    (h.map_same (by rw [hpc]; rfl)) rfl h.closed
  · simp only [St.setPc, St.setTable, update_some, hnone, and_false, or_false, Pc.ends,
      List.mem_cons, List.not_mem_nil, Prod.mk.injEq, Obj.pipe.injEq, true_and]
    constructor
    · rintro (⟨rfl, rfl⟩ | ⟨-, rfl, rfl⟩)
      · exact .inr ⟨rfl, rfl⟩
      · exact .inl ⟨rfl, rfl⟩
    · rintro (⟨rfl, rfl⟩ | ⟨rfl, rfl⟩)
      · exact .inr ⟨hne, rfl, rfl⟩
      · exact .inl ⟨rfl, rfl⟩
  · simp only [St.setPc, St.setTable, update_some]
    constructor
    · rintro (⟨-, he⟩ | ⟨-, ⟨-, he⟩ | ⟨-, he⟩⟩)
      · cases he
        exact absurd rfl hq
      · cases he
        exact absurd rfl hq
      · exact he
    · intro hk
      have hkw : k ≠ w := fun he => by simp [he, hw] at hk
      have hkr : k ≠ r := fun he => by simp [he, hr] at hk
      exact .inr ⟨hkw, .inr ⟨hkr, hk⟩⟩

/-- `create_wakeup_fd` records the reading end. -/
theorem insert (h : Inv s) {r w : ℕ} (hpc : s.pc p = .piped r w) :
    Inv ({ s with map := Function.update s.map w (some r) }.setPc p
      (.created (some w) (some r))) := by
  have hw : s.table w = some (.pipe p true) := (h.table _ _ _).2 (by simp [hpc, Pc.ends])
  refine h.advance (p := p) (.created (some w) (some r)) rfl (fun k b => ?_)
    (fun _ _ _ _ => Iff.rfl) (fun x y => ?_) rfl h.closed
  · exact (h.table k p b).trans (by rw [hpc]; rfl)
  · have hothers := h.map_same (p := p) (c := .piped r w) (by rw [hpc]) x y
    simp only [St.setPc_map, update_some, Pc.entry, Option.some.injEq, Prod.mk.injEq, reduceCtorEq,
      false_or] at hothers ⊢
    rw [hothers]
    constructor
    · rintro (⟨rfl, rfl⟩ | ⟨-, hq⟩)
      · exact .inl ⟨rfl, rfl⟩
      · exact .inr hq
    · rintro (⟨rfl, rfl⟩ | ⟨q, hq, he⟩)
      · exact .inl ⟨rfl, rfl⟩
      · refine .inr ⟨?_, q, hq, he⟩
        -- no other loop has this writing end
        rintro rfl
        have hq' := (h.table x q true).2 (Pc.mem_ends_of_entry he)
        rw [hw] at hq'
        cases hq'
        exact hq rfl

omit [DecidableEq P] in
/-- The map says which reading end belongs to a writing end. -/
theorem lookup (h : Inv s) {w r : Option ℕ} (hpc : s.pc p = .created w r ∨ s.pc p = .live w r) :
    w.bind s.map = r := by
  have hwhole := h.whole p
  cases w with
  | none =>
    cases r with
    | none => rfl
    | some r => rcases hpc with hpc | hpc <;> simp [hpc, Pc.whole] at hwhole
  | some w =>
    cases r with
    | none => rcases hpc with hpc | hpc <;> simp [hpc, Pc.whole] at hwhole
    | some r => exact (h.map w r).2 ⟨p, by rcases hpc with hpc | hpc <;> rw [hpc] <;> rfl⟩

/-- `destroy_wakeup_fd` takes the reading end out. -/
theorem erase (h : Inv s) {w : ℕ} (hpc : s.pc p = .live (some w) (s.map w)) :
    Inv ({ s with map := Function.update s.map w none }.setPc p (.erased w (s.map w))) := by
  have hwhole := h.whole p
  rw [hpc] at hwhole
  obtain ⟨r, hr⟩ : ∃ r, s.map w = some r :=
    Option.isSome_iff_exists.1 (by simpa [Pc.whole] using hwhole)
  rw [hr] at hpc ⊢
  have hentry : (s.pc p).entry = some (w, r) := by rw [hpc]; rfl
  refine h.advance (p := p) (.erased w (some r)) rfl
    (fun k b => (h.table k p b).trans (by rw [hpc]; rfl)) (fun _ _ _ _ => Iff.rfl)
    (fun x y => ?_) rfl h.closed
  have hnone : (Pc.erased w (some r)).entry ≠ some (x, y) := nofun
  rw [St.setPc_map, update_none, h.map, or_iff_right hnone]
  constructor
  · rintro ⟨hx, q, hq⟩
    refine ⟨q, ?_, hq⟩
    rintro rfl
    rw [hentry] at hq
    cases hq
    exact hx rfl
  · rintro ⟨q, hq, he⟩
    refine ⟨?_, q, he⟩
    rintro rfl
    exact hq (h.entry_unique he hentry)

/-- A loop closes an end of its own. -/
theorem closeHandle (h : Inv s) {k : ℕ} {b : Bool} {c : Pc} (hk : (k, b) ∈ (s.pc p).ends)
    (hends : ∀ x, x ∈ c.ends ↔ x ∈ (s.pc p).ends ∧ x ≠ (k, b)) (hentry : (s.pc p).entry = none)
    (hentry' : c.entry = none) (hwhole : c.whole) :
    Inv ((s.closeHandle k p b).setPc p c) := by
  have htable := (h.table k p b).2 hk
  refine h.advance c rfl (fun x b' => ?_) (fun x q b' hq => ?_)
    (h.map_same (hentry'.trans hentry.symm)) hwhole ?_
  · simp only [St.setPc_table, St.closeHandle_table, update_none]
    rw [hends, h.table, and_comm]
    refine and_congr_right fun hmem => not_congr ⟨?_, fun he => (Prod.mk.inj he).1⟩
    rintro rfl
    have hx := (h.table x p b').2 hmem
    rw [htable] at hx
    cases hx
    rfl
  · simp only [St.setPc_table, St.closeHandle_table, update_none]
    refine and_iff_right_of_imp fun hx he => ?_
    subst he
    rw [htable] at hx
    cases hx
    exact hq rfl
  · intro x hx
    rcases List.mem_append.1 hx with hx | hx
    · exact h.closed x hx
    · rw [List.mem_singleton] at hx
      subst hx
      exact htable

omit [DecidableEq P] in
/-- The rest of the process changes a descriptor that is not an end of a pipe. -/
theorem setTable (h : Inv s) {k : ℕ} {o : Option (Obj P)} (hk : ∀ p b, s.table k ≠ some (.pipe p b))
    (ho : ∀ p b, o ≠ some (.pipe p b)) : Inv (s.setTable k o) := by
  refine ⟨fun x p b => ?_, h.map, h.whole, h.closed⟩
  rw [St.setTable_pc, ← h.table]
  by_cases hx : x = k
  · subst hx
    simp [St.setTable, hk p b, ho p b]
  · simp [St.setTable, Function.update_of_ne hx]

theorem step (h : Inv s) {a : Act P} (hst : step s a = some s') : Inv s' := by
  cases a with
  | pipe p fds =>
    cases fds with
    | none =>
      simp only [Ends.step] at hst
      split_ifs at hst with hpc
      cases hst
      exact h.advance (p := p) (.created none none) rfl
        (fun k b => (h.table k p b).trans (by rw [hpc]; rfl)) (fun _ _ _ _ => Iff.rfl)
        (h.map_same (by rw [hpc]; rfl)) rfl h.closed
    | some fds =>
      obtain ⟨r, w⟩ := fds
      simp only [Ends.step] at hst
      split_ifs at hst with hcond
      cases hst
      exact h.pipe hcond.1 hcond.2.1 hcond.2.2.1 hcond.2.2.2
  | insert p =>
    simp only [Ends.step] at hst
    split at hst
    · rename_i r w hpc
      cases hst
      exact h.insert hpc
    · cases hst
  | get p =>
    simp only [Ends.step] at hst
    split at hst
    · rename_i w r hpc
      cases hst
      rw [h.lookup (.inl hpc)]
      exact h.advance (p := p) (.live w r) rfl
        (fun k b => (h.table k p b).trans (by rw [hpc]; rfl)) (fun _ _ _ _ => Iff.rfl)
        (h.map_same (by rw [hpc]; cases w <;> cases r <;> rfl))
        (by simpa [hpc, Pc.whole] using h.whole p) h.closed
    · cases hst
  | erase p =>
    simp only [Ends.step] at hst
    split at hst
    · rename_i r hpc
      cases hst
      have hr : none = r := h.lookup (.inr hpc)
      subst hr
      exact h.advance (p := p) .absent rfl
        (fun k b => (h.table k p b).trans (by rw [hpc]; rfl)) (fun _ _ _ _ => Iff.rfl)
        (h.map_same (by rw [hpc]; rfl)) rfl h.closed
    · rename_i w r hpc
      cases hst
      have hr : s.map w = r := h.lookup (.inr hpc)
      subst hr
      exact h.erase hpc
    · cases hst
  | closeRead p =>
    simp only [Ends.step] at hst
    split at hst
    · rename_i w hpc
      simpa [hpc, Pc.whole] using h.whole p
    · rename_i w r hpc
      cases hst
      refine h.closeHandle (by simp [hpc, Pc.ends]) (fun x => ?_) (by simp [hpc, Pc.entry]) rfl rfl
      rw [hpc]
      simp only [Pc.ends, Option.toList_some, List.map_cons, List.map_nil, List.cons_append,
        List.nil_append, List.mem_cons, List.not_mem_nil, or_false]
      constructor
      · rintro rfl
        exact ⟨.inr rfl, by simp⟩
      · rintro ⟨rfl | rfl, hne⟩
        · exact absurd rfl hne
        · rfl
    · cases hst
  | closeWrite p =>
    simp only [Ends.step] at hst
    split at hst
    · rename_i w hpc
      cases hst
      refine h.closeHandle (by simp [hpc, Pc.ends]) (fun x => ?_) (by simp [hpc, Pc.entry]) rfl rfl
      simp [hpc, Pc.ends]
    · cases hst
  | openOther k =>
    simp only [Ends.step] at hst
    split_ifs at hst with hk
    cases hst
    exact h.setTable (by simp [hk]) (by simp)
  | closeOther k =>
    simp only [Ends.step] at hst
    split_ifs at hst with hk
    cases hst
    exact h.setTable (by simp [hk]) (by simp)

end Inv

theorem inv_of_reach {s : St P} (h : (machine P).Reach init s) : Inv s := by
  refine h.invariant ⟨by simp [init, Pc.ends], by simp [init, Pc.entry], fun _ => rfl,
    by simp [init]⟩ fun s a s' hI _ hst => ?_
  exact hI.step hst

/-- **The ends of the wakeup pipes.**  In every interleaving of the threads that construct and
destroy event loops with each other and with the rest of the process: a loop that was constructed
has both ends of its own pipe, open, or none if `pipe` has failed; `destroy_wakeup_fd` closes the
ends of its own loop's pipe and nothing else; every entry of `g_wakeup_fd_map` is of a loop that
exists; and an end that is open is of a loop that exists. -/
theorem ends_matched {s : St P} (h : (machine P).Reach init s) :
    (∀ p w r, s.pc p = .live w r → (w = none ∧ r = none) ∨ ∃ w' r', w = some w' ∧ r = some r' ∧
      s.table w' = some (.pipe p true) ∧ s.table r' = some (.pipe p false)) ∧
    (∀ c ∈ s.closed, c.found = some (.pipe c.poll c.write)) ∧
    (∀ w, (s.map w).isSome → ∃ p r, s.pc p = .live (some w) r ∨ s.pc p = .created (some w) r) ∧
    ∀ k p b, s.table k = some (.pipe p b) → s.pc p ≠ .absent := by
  have hI := inv_of_reach h
  refine ⟨fun p w r hpc => ?_, hI.closed, fun w hw => ?_, fun k p b hk hpc => ?_⟩
  · have hr := hI.lookup (.inr hpc)
    cases w with
    | none => exact .inl ⟨rfl, hr.symm⟩
    | some w =>
      cases r with
      | none => simpa [hpc, Pc.whole] using hI.whole p
      | some r =>
        exact .inr ⟨w, r, rfl, rfl, (hI.table _ _ _).2 (by simp [hpc, Pc.ends]),
          (hI.table _ _ _).2 (by simp [hpc, Pc.ends])⟩
  · obtain ⟨r, hr⟩ := Option.isSome_iff_exists.1 hw
    obtain ⟨p, hp⟩ := (hI.map w r).1 hr
    refine ⟨p, some r, ?_⟩
    unfold Pc.entry at hp
    split at hp <;> cases hp
    · rename_i hpc
      exact .inr hpc
    · rename_i hpc
      exact .inl hpc
  · have hmem := (hI.table k p b).1 hk
    simp [hpc, Pc.ends] at hmem

/-- One loop is destroyed while another one is constructed; the second gets the descriptor that the
first has just closed. -/
theorem ends_matched_reuse : ∃ s, (machine Bool).Reach init s ∧
    s.pc true = .live (some 4) (some 3) ∧ s.table 4 = some (.pipe true true) ∧
    s.table 3 = some (.pipe true false) := by
  obtain ⟨s, hs⟩ : ∃ s, (machine Bool).exec init [.pipe false (some (3, 5)), .insert false,
    .get false, .erase false, .closeRead false, .pipe true (some (3, 4)), .insert true,
    .closeWrite false, .get true] = some s := ⟨_, rfl⟩
  have hreach := Machine.Reach.of_exec _ hs
  obtain ⟨hlive, -⟩ := ends_matched hreach
  cases hs
  obtain ⟨hw, -⟩ | ⟨w, r, hw, hr, h1, h2⟩ := hlive true (some 4) (some 3) rfl
  · cases hw
  · cases hw
    cases hr
    exact ⟨_, hreach, rfl, h1, h2⟩

end Ends

end CxpNet
