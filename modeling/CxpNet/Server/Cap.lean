import CxpNet.Server.Table

/-!
# The connection cap

`on_new_connection_` checks `max_connections_` in one `conns_mutex_` section and inserts in
another.  In between the table can only shrink, since the thread of `main_poll_` is the only one
that inserts; so the cap holds in every state, whatever the other threads do
(`Table.connection_cap`).

The history of the handles (`Table.Ledger`) shows what becomes of each: it is closed by
`on_new_connection_`, once, or given to one new connection.
-/

namespace CxpNet

namespace Server

namespace Table

/-! ### The history of the handles -/

/-- The table with the handles passed to `on_new_connection_` and those it has closed. -/
structure Ledger where
  st : St
  passed : List ℕ
  closed : List ℕ

/-- The handle that this step passes to `on_new_connection_`. -/
def passes (s : St) (a : Act) : List ℕ :=
  match s.pc, a with
  | .dispatch (h :: _), .checkCap => [h]
  | _, _ => []

/-- The handle that `on_new_connection_` works on in this step. -/
def current (s : St) (a : Act) : Option ℕ :=
  match s.pc, a with
  | .dispatch (h :: _), .checkCap => some h
  | .checked h _, .newConn _ => some h
  | _, _ => none

theorem current_of_ne {s : St} {a : Act} (h : a ≠ .checkCap) (h' : ∀ b, a ≠ .newConn b) :
    current s a = none := by
  unfold current
  split
  · exact absurd rfl h
  · exact absurd rfl (h' _)
  · rfl

/-- The handle that `on_new_connection_` closes in this step: it was open and is not any more. -/
def closes (s : St) (a : Act) (s' : St) : List ℕ :=
  (current s a).toList.filter fun h => s.fds h && !s'.fds h

/-- The table as a machine that keeps the history of the handles. -/
def ledger (maxConnections : ℕ) : Machine Ledger Act where
  step x a := (step maxConnections x.st a).map fun s =>
    ⟨s, x.passed ++ passes x.st a, x.closed ++ closes x.st a s⟩

def Ledger.init (fds : ℕ → Bool) : Ledger := ⟨Table.init fds, [], []⟩

/-- The handle that was disposed of. -/
def Disposal.handle : Disposal → ℕ
  | refused h _ | badAddress h | owned h _ => h

/-- The handle that was closed. -/
def Disposal.closedHandle : Disposal → Option ℕ
  | refused h _ | badAddress h => some h
  | owned _ _ => none

/-- The handle that was given to a connection, and the connection. -/
def Disposal.owner : Disposal → Option (ℕ × ℕ)
  | owned h i => some (h, i)
  | _ => none

/-- The handle that `on_new_connection_` has in hand. -/
def MainPc.inHand : MainPc → List ℕ
  | checked h _ => [h]
  | _ => []

/-! ### The invariant -/

/-- The invariant of a server with a cap. -/
structure Capped (maxConnections : ℕ) (x : Ledger) : Prop where
  size : x.st.conns.entries.length ≤ maxConnections
  room : x.st.pc.inHand ≠ [] → x.st.conns.entries.length < maxConnections
  passed : x.passed = x.st.disposals.reverse.map Disposal.handle ++ x.st.pc.inHand
  closed : x.closed = x.st.disposals.reverse.filterMap Disposal.closedHandle
  owners : x.st.disposals.reverse.filterMap Disposal.owner =
    (x.st.objs.map Admitted.handle).zipIdx

variable {maxConnections : ℕ} {fds : ℕ → Bool} {s s' : St} {p c : List ℕ} {a : Act}

theorem advance_handles {i : ℕ} {q r : Phase} {t : St × ℕ} (h : advance s i q r = some t) :
    t.1.objs.map Admitted.handle = s.objs.map Admitted.handle := by
  unfold advance at h
  cases hc : s.objs[i]? with
  | none => simp [hc] at h
  | some c =>
    simp only [hc] at h
    split_ifs at h
    cases h
    obtain ⟨hlt, rfl⟩ := List.getElem?_eq_some_iff.1 hc
    simp only [List.map_set]
    exact List.ext_getElem (by simp) fun j h1 h2 => by
      rw [List.getElem_set]
      split_ifs with hj
      · subst hj
        simp
      · rfl

namespace Capped

/-- A step outside `on_new_connection_`: the table does not grow. -/
theorem other (h : Capped maxConnections ⟨s, p, c⟩)
    (hconns : s'.conns.entries.length ≤ s.conns.entries.length)
    (hpc : s'.pc.inHand = s.pc.inHand) (hdis : s'.disposals = s.disposals)
    (hobjs : s'.objs.map Admitted.handle = s.objs.map Admitted.handle) :
    Capped maxConnections ⟨s', p, c⟩ := by
  refine ⟨Nat.le_trans hconns h.size, fun hne => ?_, ?_, ?_, ?_⟩
  · exact Nat.lt_of_le_of_lt hconns (h.room (hpc ▸ hne))
  · rw [hdis, hpc]
    exact h.passed
  · rw [hdis]
    exact h.closed
  · rw [hdis, hobjs]
    exact h.owners

/-- The handle in hand is closed. -/
theorem dispose {h : ℕ} {d : Disposal} (hc : Capped maxConnections ⟨s, p, c⟩) (hd : d.handle = h)
    (hclosed : d.closedHandle = some h) (howner : d.owner = none)
    (hp : p ++ passes s a = s.disposals.reverse.map Disposal.handle ++ [h])
    (hcloses : closes s a s' = [h]) (hconns : s'.conns = s.conns) (hpc : s'.pc.inHand = [])
    (hdis : s'.disposals = d :: s.disposals) (hobjs : s'.objs = s.objs) :
    Capped maxConnections ⟨s', p ++ passes s a, c ++ closes s a s'⟩ := by
  refine ⟨hconns ▸ hc.size, fun hne => absurd hpc hne, ?_, ?_, ?_⟩
  · rw [hp, hpc, hdis]
    simp [hd]
  · have := hc.closed
    simp only at this
    rw [hcloses, hdis, this]
    simp [List.filterMap_append, hclosed]
  · have := hc.owners
    simp only at this
    rw [hdis, hobjs, ← this]
    simp [List.filterMap_append, howner]

/-- The handle in hand is given to a new connection. -/
theorem newConn {h : ℕ} {rest : List ℕ} (hc : Capped maxConnections ⟨s, p, c⟩)
    (hs : s.pc = .checked h rest) :
    Capped maxConnections ⟨{ s with
      pc := .inserted s.objs.length rest
      objs := s.objs ++ [⟨h, .created⟩]
      conns := s.conns.insert h s.objs.length
      disposals := .owned h s.objs.length :: s.disposals }, p, c⟩ := by
  have hroom : s.conns.entries.length < maxConnections := hc.room (by simp [hs, MainPc.inHand])
  have hinsert : (s.conns.insert h s.objs.length).entries.length ≤ s.conns.entries.length + 1 := by
    rw [AList.entries_insert, List.length_cons]
    exact Nat.succ_le_succ (List.kerase_sublist _ _).length_le
  refine ⟨by simp only; omega, fun hne => absurd rfl hne, ?_, ?_, ?_⟩
  · have := hc.passed
    simp only [hs, MainPc.inHand] at this
    simp [this, Disposal.handle, MainPc.inHand]
  · have := hc.closed
    simp only at this
    simp [this, Disposal.closedHandle]
  · have := hc.owners
    simp only at this
    simp [this, Disposal.owner, List.filterMap_append, List.zipIdx_append]

/-- A step that disposes of nothing. -/
theorem keep (h : Capped maxConnections ⟨s, p, c⟩) (hcur : current s a = none)
    (hconns : s'.conns.entries.length ≤ s.conns.entries.length)
    (hpc : s'.pc.inHand = s.pc.inHand) (hdis : s'.disposals = s.disposals)
    (hobjs : s'.objs.map Admitted.handle = s.objs.map Admitted.handle) :
    Capped maxConnections ⟨s', p ++ passes s a, c ++ closes s a s'⟩ := by
  have hp : passes s a = [] := by
    unfold passes
    split
    · rename_i hs
      simp [current, hs] at hcur
    · rfl
  have hcl : closes s a s' = [] := by simp [closes, hcur]
  rw [hp, hcl, List.append_nil, List.append_nil]
  exact h.other hconns hpc hdis hobjs

/-- The next handle is passed to `on_new_connection_`. -/
theorem passed_checkCap {h : ℕ} {rest : List ℕ} (hc : Capped maxConnections ⟨s, p, c⟩)
    (hpc : s.pc = .dispatch (h :: rest)) :
    p ++ passes s .checkCap = s.disposals.reverse.map Disposal.handle ++ [h] := by
  have := hc.passed
  simp only [hpc, MainPc.inHand, List.append_nil] at this
  simp only [this, passes, hpc]

/-- **One step** keeps the cap and the history. -/
theorem step (hN : 0 < maxConnections) (h : Capped maxConnections ⟨s, p, c⟩) (ho : Owned s)
    (hst : step maxConnections s a = some s') :
    Capped maxConnections ⟨s', p ++ passes s a, c ++ closes s a s'⟩ := by
  cases step_cases hst with
  | handleRead hpc | acceptDone hpc | acceptError hpc | dispatchDone hpc =>
    exact h.keep (by simp [current, hpc]) le_rfl (by simp [hpc, MainPc.inHand]) rfl rfl
  | accept hpc hf => exact h.keep (by simp [current, hpc]) le_rfl rfl rfl rfl
  | refused hpc =>
    rename_i k rest
    have hopen : s.fds k = true := ho.pending k (by simp [St.pending, hpc])
    refine h.dispose (h := k) (d := .refused k s.conns.entries.length) rfl rfl rfl
      (h.passed_checkCap hpc) ?_ rfl rfl rfl rfl
    simp [closes, current, hpc, closeFd, hopen]
  | checked hpc hcap =>
    rename_i k rest
    have hcl : closes s .checkCap { s with pc := .checked k rest } = [] := by
      simp [closes, current, hpc]
    rw [hcl, List.append_nil]
    -- there is room, and nobody but this thread inserts
    refine ⟨h.size, fun _ => ?_, h.passed_checkCap hpc, h.closed, h.owners⟩
    simp only
    omega
  | admitted hpc =>
    rename_i k rest
    have hp : passes s (.newConn true) = [] := by simp [passes, hpc]
    have hcl : closes s (.newConn true) { s with
        pc := .inserted s.objs.length rest
        objs := s.objs ++ [⟨k, .created⟩]
        conns := s.conns.insert k s.objs.length
        disposals := .owned k s.objs.length :: s.disposals } = [] := by
      simp [closes, current, hpc]
    rw [hp, hcl, List.append_nil, List.append_nil]
    exact h.newConn hpc
  | badAddress hpc =>
    rename_i k rest
    have hp : passes s (.newConn false) = [] := by simp [passes, hpc]
    have hopen : s.fds k = true := ho.pending k (by simp [St.pending, hpc])
    refine h.dispose (h := k) (d := .badAddress k) rfl rfl rfl ?_ ?_ rfl rfl rfl rfl
    · have := h.passed
      simp only [hpc, MainPc.inHand] at this
      rw [hp, List.append_nil, this]
    · simp [closes, current, hpc, closeFd, hopen]
  | runInPoll hpc hr =>
    have he := (advance_objs hr).2.1
    refine h.keep (by simp [current, hpc]) ?_ (by simp [hpc, MainPc.inHand]) ?_
      (advance_handles hr)
    · rw [he]
    · rw [he]
  | start hr | cleanup hr | closeHandle hr =>
    have he := (advance_objs hr).2.1
    refine h.keep (current_of_ne (by simp) (by simp)) ?_ ?_ ?_ (advance_handles hr)
    all_goals rw [he]
    all_goals rfl
  | onConnClose hr =>
    have he := (advance_objs hr).2.1
    refine h.keep (current_of_ne (by simp) (by simp)) ?_ ?_ ?_ (advance_handles hr)
    all_goals rw [he]
    · -- the erase makes the table no larger
      exact (List.kerase_sublist _ _).length_le
  | stopSnapshot => exact h.keep (current_of_ne (by simp) (by simp)) le_rfl rfl rfl rfl
  | stopClear => exact h.keep (current_of_ne (by simp) (by simp)) (Nat.zero_le _) rfl rfl rfl
  | openOther hf => exact h.keep (current_of_ne (by simp) (by simp)) le_rfl rfl rfl rfl
  | closeOther hfree => exact h.keep (current_of_ne (by simp) (by simp)) le_rfl rfl rfl rfl

end Capped

/-! ### Results -/

variable {N : ℕ} {x : Ledger}

theorem capped_init : Capped N (.init fds) := by
  constructor <;> simp [Ledger.init, Table.init, MainPc.inHand]

theorem capped_of_reach (hN : 0 < N) (h : (ledger N).Reach (.init fds) x) :
    Capped N x ∧ Owned x.st := by
  refine h.invariant (I := fun x => Capped N x ∧ Owned x.st) ⟨capped_init, owned_init⟩
    fun x a y ⟨hx, ho⟩ _ hst => ?_
  obtain ⟨s', hs', rfl⟩ := Option.map_eq_some_iff.1 hst
  exact ⟨hx.step hN ho hs', owned_step ho hs'⟩

/-- **The connection cap.**  In every state of every run of a server with the cap `N`:

* the table holds at most `N` connections;
* the next handle is refused by the cap iff the table holds at least `N` at its check;
* the handles passed to `on_new_connection_` are, in order, those it has disposed of and the one it
  has in hand; those it has closed are exactly the refused ones and those with a bad address, each
  closed once; the others are owned, each by one new connection. -/
theorem connection_cap (hN : 0 < N) (h : (ledger N).Reach (.init fds) x) :
    x.st.conns.entries.length ≤ N ∧
    (∀ h rest s', x.st.pc = .dispatch (h :: rest) → step N x.st .checkCap = some s' →
      ((∃ n, s'.disposals = .refused h n :: x.st.disposals) ↔
        N ≤ x.st.conns.entries.length)) ∧
    x.passed = x.st.disposals.reverse.map Disposal.handle ++ x.st.pc.inHand ∧
    x.closed = x.st.disposals.reverse.filterMap Disposal.closedHandle ∧
    x.st.disposals.reverse.filterMap Disposal.owner =
      (x.st.objs.map Admitted.handle).zipIdx := by
  obtain ⟨hc, -⟩ := capped_of_reach hN h
  refine ⟨hc.size, fun k rest s' hpc hst => ?_, hc.passed, hc.closed, hc.owners⟩
  simp only [step, hpc] at hst
  split_ifs at hst with hfull
  · cases hst
    exact ⟨fun _ => hfull.2, fun _ => ⟨_, rfl⟩⟩
  · cases hst
    refine ⟨fun hr => ?_, fun hle => absurd ⟨hN, hle⟩ hfull⟩
    obtain ⟨n, hn⟩ := hr
    exact absurd (congrArg List.length hn) (by simp)

/-- A cap of one: the second handle of a batch is refused, the third has no address; after the first
connection is erased its number is accepted again and admitted. -/
def capOfOne : List Act :=
  [.handleRead, .accept 5, .accept 6, .acceptDone, .checkCap, .newConn true, .runInPoll, .checkCap,
    .dispatchDone, .start 0, .cleanup 0, .closeHandle 0, .onConnClose 0, .handleRead, .accept 7,
    .accept 5, .acceptDone, .checkCap, .newConn false, .checkCap, .newConn true]

theorem connection_cap_capOfOne : ∃ x : Ledger, x.passed = [5, 6, 7, 5] ∧ x.closed = [6, 7] ∧
    x.st.conns.entries.length ≤ 1 ∧
    x.st.disposals.reverse.filterMap Disposal.owner = (x.st.objs.map Admitted.handle).zipIdx := by
  obtain ⟨x, hx, hp⟩ := Machine.Reach.of_endsIn (M := ledger 1) (s := .init fun _ => false)
    (p := fun x => x.passed = [5, 6, 7, 5] ∧ x.closed = [6, 7]) capOfOne (by decide +kernel)
  obtain ⟨h1, h2⟩ := of_decide_eq_true hp
  obtain ⟨hsize, -, -, -, howners⟩ := connection_cap Nat.one_pos hx
  exact ⟨x, h1, h2, hsize, howners⟩

end Table

end Server

end CxpNet
