import CxpNet.Conn.Registration
import CxpNet.Poller.Report

/-!
# Connections that share a poller

Any number of connections share one `EpollPoller` or `KqueuePoller`, and the kernel gives a
descriptor again once it was closed.

* `Conn.registered_exactly` : in every run, no call of the poller throws, and the poller and the
  kernel have recorded for every descriptor what the connection that has it open asks for, and
  nothing for a descriptor that no connection has open;
* `Conn.reported_to_owner` : so what is reported for a descriptor is delivered to that connection.

That no poller is asked to add a descriptor twice, and none told to remove a channel that is in use,
is what the pollers rely on; here it is a fact about the connections.
-/

namespace CxpNet

namespace Conn

open Poller (Mask Op Legal registry)

/-! ### Connections on one poll -/

/-- A `Channel` object: the connection that owns it, what it was made for, and its `handle_`. -/
structure Chan (κ : Type) where
  conn : κ
  role : Role
  handle : ℕ
  deriving DecidableEq

/-- The connections of a poll, as far as they were made, and the poll with its channels. -/
structure Shared (κ π : Type) where
  conns : κ → Option St
  poll : Poller.Poll (Chan κ) π

/-- A connection is made by a server for a descriptor that was accepted, or by a client; or one of
the connections makes a step. -/
inductive SharedAct (κ : Type) where
  | accept (i : κ) (h : ℕ) (onConn : Bool)
  | create (i : κ)
  | conn (i : κ) (a : Act)
  deriving DecidableEq

section

variable {κ π : Type} [DecidableEq κ]

/-- The calls of a step, on the channels that were made for the descriptor of the connection. -/
def St.opsOf (i : κ) (s s' : St) : List (Op (Chan κ)) :=
  match s.handle.or s'.handle with
  | none => []
  | some h => (s.calls s').map (Op.map fun role => ⟨i, role, h⟩)

/-- One connection has changed, and the poll. -/
def Shared.set (x : Shared κ π) (i : κ) (s : St) (p : Poller.Poll (Chan κ) π) : Shared κ π :=
  ⟨Function.update x.conns i (some s), p⟩

/-- The connections and their poller; a connection that crashes and a poller that throws end the
run. -/
def shared (A : Allocator) (K : Kernel) (P : Poller.PollerBase (Chan κ) π) :
    Machine (Shared κ π) (SharedAct κ) where
  step x b :=
    match b with
    | .accept i h onConn =>
      if (x.conns i).isNone then some (x.set i (accepted h onConn) x.poll) else none
    | .create i =>
      if (x.conns i).isNone then some (x.set i (new none) x.poll) else none
    | .conn i a =>
      match x.conns i with
      | none => none
      | some s =>
        match (machine A K).step (.ok s) a with
        | some (.ok s') => ((Poller.machine P).exec x.poll (s.opsOf i s')).map (x.set i s')
        | _ => none

namespace Shared

/-- There are no connections yet. -/
def init (p : π) : Shared κ π := ⟨fun _ => none, .init p⟩

/-- The descriptor that a connection has open. -/
def handle (x : Shared κ π) (i : κ) : Option ℕ := (x.conns i).bind St.handle

/-- No connection has the descriptor open. -/
def Free (x : Shared κ π) (h : ℕ) : Prop := ∀ i, x.handle i ≠ some h

instance [Fintype κ] (x : Shared κ π) (h : ℕ) : Decidable (x.Free h) :=
  inferInstanceAs (Decidable (∀ i, x.handle i ≠ some h))

/-- What is asked for on a channel. -/
def mask (x : Shared κ π) (k : Chan κ) : Mask :=
  match x.conns k.conn with
  | none => .kNone
  | some s => if s.handle = some k.handle then s.asks k.role else .kNone

end Shared

/-- The kernel gives a descriptor that is not open, and attempts to connect are made where they may
be. -/
def Fits (x : Shared κ π) : SharedAct κ → Prop
  | .accept _ h _ => x.Free h
  | .create _ => True
  | .conn i a => (∀ s ∈ x.conns i, Afresh (.ok s) a) ∧ ∀ h ∈ a.given, x.Free h

instance [Fintype κ] (x : Shared κ π) : ∀ b, Decidable (Fits x b)
  | .accept _ h _ => inferInstanceAs (Decidable (x.Free h))
  | .create _ => .isTrue trivial
  | .conn i a => inferInstanceAs
      (Decidable ((∀ s ∈ x.conns i, Afresh (.ok s) a) ∧ ∀ h ∈ a.given, x.Free h))

/-- What holds of connections that share a poller with the invariant `R`. -/
structure Sharing (A : Allocator) (K : Kernel) (R : Poller.Poll (Chan κ) π → Prop)
    (x : Shared κ π) : Prop where
  reach : ∀ i s, x.conns i = some s →
    ∃ s₀, Init s₀ ∧ (machine A K).ReachIf Afresh (.ok s₀) (.ok s)
  distinct : ∀ i j h, x.handle i = some h → x.handle j = some h → i = j
  asks : Poller.AsksFor R x.mask x.poll

variable {A : Allocator} {K : Kernel} {P : Poller.PollerBase (Chan κ) π}
  {R : Poller.Poll (Chan κ) π → Prop} {x x' : Shared κ π} {i : κ} {s s' : St} {a : Act}

omit [DecidableEq κ] in
theorem handle_eq (h : x.conns i = some s) : x.handle i = s.handle := by
  simp [Shared.handle, h]

theorem Enrolled.asks_none (h : Enrolled s) (hn : s.handle = none) (role : Role) :
    s.asks role = .kNone :=
  asks_of_idle (fun c hc => (h.owned c hc).resolve_right fun hne => hne hn) role

@[simp] theorem conns_set (p : Poller.Poll (Chan κ) π) : (x.set i s p).conns i = some s :=
  Function.update_self ..

theorem conns_set_of_ne {j : κ} (hj : j ≠ i) (p : Poller.Poll (Chan κ) π) :
    (x.set i s p).conns j = x.conns j :=
  Function.update_of_ne hj ..

theorem handle_set_of_ne {j : κ} (hj : j ≠ i) (p : Poller.Poll (Chan κ) π) :
    (x.set i s p).handle j = x.handle j := by
  rw [Shared.handle, conns_set_of_ne hj]
  rfl

theorem mask_set_of_ne {k : Chan κ} (hk : k.conn ≠ i) (p : Poller.Poll (Chan κ) π) :
    (x.set i s p).mask k = x.mask k := by
  simp only [Shared.mask, conns_set_of_ne hk]

omit [DecidableEq κ] in
theorem mask_eq {k : Chan κ} (h : x.conns k.conn = some s) :
    x.mask k = if s.handle = some k.handle then s.asks k.role else .kNone := by
  simp [Shared.mask, h]

/-- The descriptor that the calls of a step are made for is the only one the connection has, before
and after. -/
theorem Turn.handle_or {d : ℕ} (h : Turn s a s') (hd : s.handle.or s'.handle = some d) :
    (s.handle = some d ∨ s.handle = none ∧ a.given = some d) ∧
      (s'.handle = some d ∨ s'.handle = none) := by
  cases hs : s.handle with
  | none =>
    rw [hs, Option.none_or] at hd
    refine ⟨.inr ⟨rfl, ?_⟩, .inl hd⟩
    rcases h.handle with he | he | ⟨-, k, hk, he⟩
    · simp [he, hs] at hd
    · simp [he] at hd
    · rw [hk]
      exact he.symm.trans hd
  | some d' =>
    rw [hs, Option.some_or, Option.some.injEq] at hd
    subst hd
    refine ⟨.inl rfl, ?_⟩
    rcases h.handle with he | he | ⟨he, -⟩
    · exact .inl (he.trans hs)
    · exact .inr he
    · simp [hs] at he

/-- A descriptor that a connection has after a step it had before, or the kernel has given it. -/
theorem Turn.handle_of {d : ℕ} (h : Turn s a s') (hd : s'.handle = some d) :
    s.handle = some d ∨ a.given = some d := by
  rcases h.handle with he | he | ⟨-, k, hk, he⟩
  · exact .inl (he.symm.trans hd)
  · simp [he] at hd
  · exact .inr (hk.trans (he.symm.trans hd))

/-- **The calls of a step on the shared poller.**  They are legal among all the channels, and lead
to what the connections ask for then. -/
theorem Sharing.exec (h : Sharing A K R x) (hs : x.conns i = some s) (hE : Enrolled s)
    (hfree : ∀ d ∈ a.given, x.Free d) (hT : Turn s a s') (p : Poller.Poll (Chan κ) π) :
    (registry (Chan κ)).exec x.mask (s.opsOf i s') =
        some (x.set i s' p).mask ∧
      (registry (Chan κ)).Meets (Legal Chan.handle) x.mask (s.opsOf i s') := by
  have hnew : ∀ k : Chan κ, k.conn = i → (x.set i s' p).mask k =
      if s'.handle = some k.handle then s'.asks k.role else .kNone := by
    rintro k rfl
    exact mask_eq (conns_set p)
  unfold St.opsOf
  cases hd : s.handle.or s'.handle with
  | none =>
    -- without a descriptor nothing is asked for, before and after
    obtain ⟨h1, h2⟩ := Option.or_eq_none_iff.1 hd
    refine ⟨congrArg some (funext fun k => ?_), trivial⟩
    by_cases hk : k.conn = i
    · rw [hnew k hk, mask_eq (hk ▸ hs), h1, h2]
      rfl
    · exact (mask_set_of_ne hk p).symm
  | some d =>
    obtain ⟨hbefore, hafter⟩ := hT.handle_or hd
    obtain ⟨hexec, hlegal⟩ := hT.alters.exec d
    -- the channels of this connection that were made for `d`, and the others
    have hown : ∀ role, x.mask ⟨i, role, d⟩ = s.asks role := fun role => by
      rw [mask_eq hs]
      rcases hbefore with he | ⟨he, -⟩
      · rw [if_pos he]
      · rw [if_neg (by simp [he]), hE.asks_none he]
    have hothers : ∀ k : Chan κ, (∀ role, (⟨i, role, d⟩ : Chan κ) ≠ k) → k.handle = d →
        x.mask k = .kNone := fun k hk hkd => by
      have hki : k.conn ≠ i := by
        rintro rfl
        exact hk k.role (by rw [← hkd])
      by_contra hmask
      unfold Shared.mask at hmask
      split at hmask
      · exact hmask rfl
      · rename_i t ht
        split_ifs at hmask with htd
        · have hopen : x.handle k.conn = some d :=
            (handle_eq ht).trans (htd.trans (congrArg some hkd))
          rcases hbefore with he | ⟨-, he⟩
          · exact hki (h.distinct _ _ _ hopen ((handle_eq hs).trans he))
          · exact hfree d he _ hopen
        · exact hmask rfl
    obtain ⟨M, hM, hmeets, hin, hout⟩ := Poller.registry_embed Chan.handle
      (f := fun role => (⟨i, role, d⟩ : Chan κ)) (M := x.mask)
      (fun r₁ r₂ he => by simpa using he) hown (fun _ => hothers) hlegal hexec
    refine ⟨hM.trans (congrArg some (funext fun k => ?_)), hmeets⟩
    by_cases hk : k.conn = i
    · rw [hnew k hk]
      by_cases hkd : k.handle = d
      · have hkey : (⟨i, k.role, d⟩ : Chan κ) = k := by
          rw [← hk, ← hkd]
        rw [(congrArg M hkey).symm.trans (hin k.role), hkd]
        rcases hafter with he | he
        · rw [if_pos he]
        · rw [if_neg (by simp [he]), hT.enrolled.asks_none he]
      · have hne : ∀ role, (⟨i, role, d⟩ : Chan κ) ≠ k := by
          rintro role rfl
          exact hkd rfl
        rw [hout k hne, mask_eq (hk ▸ hs), if_neg, if_neg]
        · rcases hafter with he | he <;> simp [he, Ne.symm hkd]
        · rcases hbefore with he | ⟨he, -⟩ <;> simp [he, Ne.symm hkd]
    · rw [mask_set_of_ne hk]
      refine hout k ?_
      rintro role rfl
      exact hk rfl

omit [DecidableEq κ] in
theorem Sharing.enrolled (h : Sharing A K R x) (hs : x.conns i = some s) : Enrolled s := by
  obtain ⟨s₀, h₀, hr⟩ := h.reach i s hs
  exact enrolled_of_reach h₀ hr

/-- A connection has changed, and has a descriptor that it had before or that no connection had. -/
theorem Sharing.set {p : Poller.Poll (Chan κ) π} (h : Sharing A K R x)
    (hr : ∃ s₀, Init s₀ ∧ (machine A K).ReachIf Afresh (.ok s₀) (.ok s))
    (hd : ∀ d, s.handle = some d → x.handle i = some d ∨ x.Free d)
    (hasks : Poller.AsksFor R (x.set i s p).mask p) : Sharing A K R (x.set i s p) := by
  -- no other connection has the descriptor
  have hother : ∀ j d, j ≠ i → x.handle j = some d → s.handle ≠ some d := fun j d hj hjd he => by
    rcases hd d he with hi | hfree
    · exact hj (h.distinct _ _ _ hjd hi)
    · exact hfree j hjd
  refine ⟨fun j t ht => ?_, fun j k d hj hk => ?_, hasks⟩
  · by_cases hj : j = i
    · subst hj
      rw [conns_set] at ht
      cases ht
      exact hr
    · rw [conns_set_of_ne hj] at ht
      exact h.reach j t ht
  · by_cases hji : j = i <;> by_cases hki : k = i
    · rw [hji, hki]
    · rw [hji, handle_eq (conns_set p)] at hj
      rw [handle_set_of_ne hki] at hk
      exact absurd hj (hother k d hki hk)
    · rw [hki, handle_eq (conns_set p)] at hk
      rw [handle_set_of_ne hji] at hj
      exact absurd hk (hother j d hji hj)
    · rw [handle_set_of_ne hji] at hj
      rw [handle_set_of_ne hki] at hk
      exact h.distinct j k d hj hk

/-- **A step of one connection** is carried out by the shared poller. -/
theorem Sharing.conn (hP : Poller.Implements Chan.handle P R) (h : Sharing A K R x)
    (hs : x.conns i = some s) (hG : Fits x (.conn i a))
    (hst : (machine A K).step (.ok s) a = some (.ok s')) :
    ∃ p, (Poller.machine P).exec x.poll (s.opsOf i s') = some p ∧
      Sharing A K R (x.set i s' p) := by
  obtain ⟨s₀, h₀, hr⟩ := h.reach i s hs
  have hG' : Afresh (.ok s) a := hG.1 s hs
  have hE := enrolled_of_reach h₀ hr
  have hT : Turn s a s' := hE.step (single_of_reach h₀ (hr.mono fun _ _ hG => hG.1))
    (sendsConnected_of_reach h₀ hr.reach) hG' (step_cases (machine_step hst))
  obtain ⟨hexec, hmeets⟩ := h.exec hs hE hG.2 hT x.poll
  obtain ⟨p, hp, hasks⟩ := hP.simulation.exec h.asks hexec hmeets
  refine ⟨p, hp, h.set ⟨s₀, h₀, .tail hr hG' hst⟩ (fun d hd => ?_) hasks⟩
  rcases hT.handle_of hd with he | he
  · exact .inl ((handle_eq hs).trans he)
  · exact .inr (hG.2 d he)

/-- A new connection asks for nothing. -/
theorem Sharing.make (h : Sharing A K R x) (hnone : x.conns i = none) (h₀ : Init s)
    (hfree : ∀ d, s.handle = some d → x.Free d) : Sharing A K R (x.set i s x.poll) := by
  have hch : s.channel = none := by
    cases h₀ with
    | server | client => rfl
  have hmask : (x.set i s x.poll).mask = x.mask := by
    funext k
    by_cases hk : k.conn = i
    · subst hk
      rw [mask_eq (conns_set x.poll), asks_none hch, ite_self, Shared.mask, hnone]
    · exact mask_set_of_ne hk x.poll
  refine h.set ⟨s, h₀, .refl⟩ (fun d hd => .inr (hfree d hd)) ?_
  rw [hmask]
  exact h.asks

/-- **The invariant holds in every run.** -/
theorem sharing_of_reach (hP : Poller.Implements Chan.handle P R) {p : π}
    (h₀ : R (.init p)) (h : (shared A K P).ReachIf Fits (.init p) x) : Sharing A K R x := by
  refine h.invariant (I := Sharing A K R) ?_ fun x b x' hx hG hst => ?_
  · exact ⟨by simp [Shared.init], by simp [Shared.init, Shared.handle], h₀, fun _ => rfl⟩
  · cases b with
    | accept i d onConn =>
      simp only [shared] at hst
      split_ifs at hst with hn
      cases hst
      refine hx.make (by simpa using hn) (.server d onConn) fun k hk => ?_
      cases hk
      exact hG
    | create i =>
      simp only [shared] at hst
      split_ifs at hst with hn
      cases hst
      exact hx.make (by simpa using hn) .client (by simp [new])
    | conn i a =>
      simp only [shared] at hst
      split at hst
      · cases hst
      · rename_i s hs
        split at hst
        · rename_i s' hs'
          obtain ⟨p, hp, hx'⟩ := hx.conn hP hs hG hs'
          rw [hp] at hst
          cases hst
          exact hx'
        · cases hst

/-! ### What the poller has recorded -/

/-- The channel belongs to a connection that has its descriptor open, and is registered. -/
def Shared.Serves (x : Shared κ π) (k : Chan κ) : Prop :=
  ∃ s c, x.conns k.conn = some s ∧ s.handle = some k.handle ∧ s.channel = some c ∧
    c.role = k.role ∧ c.registered = true

/-- **The poller knows the connections**: it has for every descriptor the channel of the connection
that has it open, if that is registered, and the kernel watches it for the events this channel asks
for; it has nothing for the other descriptors. -/
structure Registers (x : Shared κ π) (channels : ℕ → Option (Chan κ)) (interest : ℕ → Mask) :
    Prop where
  channels_iff : ∀ h k, channels h = some k ↔ k.handle = h ∧ x.Serves k
  interest_eq : ∀ i s h c, x.conns i = some s → s.handle = some h → s.channel = some c →
    interest h = c.mask
  free : ∀ h, x.Free h → channels h = none ∧ interest h = .kNone

omit [DecidableEq κ] in
theorem Sharing.mask_ne_iff (h : Sharing A K R x) (k : Chan κ) :
    x.mask k ≠ .kNone ↔ x.Serves k := by
  have hmask : ∀ c : Channel, c.registered = (c.reading || c.writing) →
      (c.mask ≠ .kNone ↔ c.registered = true) := fun c hc => by
    rw [hc, Bool.or_eq_true]
    cases hr : c.reading <;> cases hw : c.writing <;> simp [Channel.mask, Mask.kNone, hr, hw]
  constructor
  · intro hne
    unfold Shared.mask at hne
    split at hne
    · exact absurd rfl hne
    · rename_i s hs
      split_ifs at hne with hd
      · cases hc : s.channel with
        | none => exact absurd (asks_none hc _) hne
        | some c =>
          rw [asks_some hc] at hne
          split_ifs at hne with hrole
          · exact ⟨s, c, hs, hd, hc, hrole, (hmask c ((h.enrolled hs).registered c hc)).1 hne⟩
          · exact absurd rfl hne
      · exact absurd rfl hne
  · rintro ⟨s, c, hs, hd, hc, hrole, hreg⟩
    rw [mask_eq hs, if_pos hd, asks_some hc, if_pos hrole]
    exact (hmask c ((h.enrolled hs).registered c hc)).2 hreg

omit [DecidableEq κ] in
/-- A faithful registration of what the connections ask for is one of the connections. -/
theorem Sharing.registers {channels : ℕ → Option (Chan κ)} {interest : ℕ → Mask}
    (h : Sharing A K R x)
    (hr : Poller.Registered Chan.handle x.poll.chan channels interest) :
    Registers x channels interest := by
  have hiff : ∀ d k, channels d = some k ↔ k.handle = d ∧ x.Serves k := fun d k => by
    rw [hr.channels_iff, h.asks.2, h.mask_ne_iff]
  -- where no channel is recorded, the kernel watches for nothing
  have hmissing : ∀ d, channels d = none → interest d = .kNone := fun d hd => by
    rw [hr.interest_eq, hd]
    rfl
  refine ⟨hiff, fun i s d c hs hd hc => ?_, fun d hfree => ?_⟩
  · by_cases hreg : c.registered = true
    · have hk : channels d = some ⟨i, c.role, d⟩ :=
        (hiff _ _).2 ⟨rfl, s, c, hs, hd, hc, rfl, hreg⟩
      rw [hr.interest_eq, hk, Poller.recordedFor, h.asks.2, mask_eq hs, if_pos hd, asks_some hc,
        if_pos rfl]
    · -- the descriptor is that of no other connection
      have hk : channels d = none := by
        by_contra hne
        obtain ⟨k, hk⟩ := Option.ne_none_iff_exists'.1 hne
        obtain ⟨hkd, t, c', ht, htd, htc, -, hreg'⟩ := (hiff _ _).1 hk
        have hki : k.conn = i := h.distinct _ _ d ((handle_eq ht).trans (htd.trans (by rw [hkd])))
          ((handle_eq hs).trans hd)
        rw [hki, hs, Option.some.injEq] at ht
        subst ht
        rw [hc, Option.some.injEq] at htc
        subst htc
        exact hreg hreg'
      rw [hmissing d hk]
      have hsound := (h.enrolled hs).registered c hc
      rw [Bool.not_eq_true] at hreg
      rw [hreg, Eq.comm, Bool.or_eq_false_iff] at hsound
      simp [Channel.mask, hsound, Mask.kNone]
  · have hk : channels d = none := by
      by_contra hne
      obtain ⟨k, hk⟩ := Option.ne_none_iff_exists'.1 hne
      obtain ⟨hkd, t, c, ht, htd, -⟩ := (hiff _ _).1 hk
      exact hfree k.conn ((handle_eq ht).trans (htd.trans (by rw [hkd])))
    exact ⟨hk, hmissing d hk⟩

/-- The poller throws in no step that one of the connections can make. -/
def NeverThrows (A : Allocator) (K : Kernel) (P : Poller.PollerBase (Chan κ) π)
    (x : Shared κ π) : Prop :=
  ∀ i s a s', x.conns i = some s → Fits x (.conn i a) →
    (machine A K).step (.ok s) a = some (.ok s') →
    ∃ x', (shared A K P).step x (.conn i a) = some x' ∧ x'.conns i = some s'

theorem Sharing.neverThrows (hP : Poller.Implements Chan.handle P R) (h : Sharing A K R x) :
    NeverThrows A K P x := by
  intro i s a s' hs hG hst
  obtain ⟨p, hp, -⟩ := h.conn hP hs hG hst
  refine ⟨x.set i s' p, ?_, conns_set p⟩
  simp only [shared, hs, hst, hp, Option.map_some]

/-- **What is registered is what the connections ask for.**  In every run of any number of
connections on one event loop, over either poller, in which the kernel gives only descriptors that
are not open, but gives them again and again, and connections are closed and may be connected anew:
no call of the poller throws, and what the poller and the kernel have recorded for a descriptor is
what the connection that has it open asks for, and nothing if no connection has it open. -/
theorem registered_exactly :
    (∀ x, (shared A K (Poller.Epoll.poller Chan.handle)).ReachIf Fits (.init (κ := κ) .init) x →
      Registers x x.poll.poller.channels x.poll.poller.interest ∧
        NeverThrows A K (Poller.Epoll.poller Chan.handle) x) ∧
    (∀ x, (shared A K (Poller.Kqueue.poller Chan.handle)).ReachIf Fits (.init (κ := κ) .init) x →
      Registers x x.poll.poller.channels x.poll.poller.interest ∧
        NeverThrows A K (Poller.Kqueue.poller Chan.handle) x) := by
  refine ⟨fun x hx => ?_, fun x hx => ?_⟩
  · have hP := Poller.Epoll.implements (Chan.handle (κ := κ))
    have hS := sharing_of_reach hP (Poller.Epoll.rel_init _) hx
    exact ⟨hS.registers hS.asks.1.registered, hS.neverThrows hP⟩
  · have hP := Poller.Kqueue.implements (Chan.handle (κ := κ))
    have hS := sharing_of_reach hP (Poller.Kqueue.rel_init _) hx
    exact ⟨hS.registers hS.asks.1.registered, hS.neverThrows hP⟩

/-- The run of the connections ends in a state that passes a test. -/
def Shared.passes (x : Shared κ π) (i : κ) (p : St → Bool) : Bool := (x.conns i).any p

omit [DecidableEq κ] in
theorem of_passes {p : St → Bool} (h : x.passes i p = true) :
    ∃ s, x.conns i = some s ∧ p s = true :=
  (Option.any_eq_true ..).1 h

/-- A connection is closed while it connects on descriptor 5, and another one gets this
descriptor. -/
def fiveAgain : List (SharedAct Bool) :=
  [.create false, .conn false (.connect false false (.inProgress 5)), .conn false .close,
    .conn false (.runTask .badAddress), .accept true 5 false, .conn true (.runTask .badAddress)]

/-- The connection has descriptor 5 open, and asks to read. -/
def readsFive (s : St) : Bool :=
  s.handle = some 5 && s.channel = some ⟨.established, true, false, true⟩

omit [DecidableEq κ] in
theorem of_readsFive (h : x.passes i readsFive = true) :
    ∃ s, x.conns i = some s ∧ s.handle = some 5 ∧
      s.channel = some ⟨.established, true, false, true⟩ := by
  obtain ⟨s, hs, hp⟩ := of_passes h
  obtain ⟨hd, hc⟩ := Bool.and_eq_true_iff.1 hp
  exact ⟨s, hs, of_decide_eq_true hd, of_decide_eq_true hc⟩

theorem registered_exactly_fiveAgain :
    (∃ x : Shared Bool (Poller.Epoll (Chan Bool)),
      x.poll.poller.channels 5 = some ⟨true, .established, 5⟩ ∧
        x.poll.poller.interest 5 = ⟨true, false⟩) ∧
    ∃ x : Shared Bool (Poller.Kqueue (Chan Bool)),
      x.poll.poller.channels 5 = some ⟨true, .established, 5⟩ ∧
        x.poll.poller.interest 5 = ⟨true, false⟩ := by
  constructor
  · obtain ⟨x, hx, hp⟩ := Machine.ReachIf.of_endsIn
      (M := shared .zeroed .linux (Poller.Epoll.poller (Chan.handle (κ := Bool)))) (G := Fits)
      (s := .init .init) (p := fun x => x.passes true readsFive) fiveAgain (by decide +kernel)
      (by decide +kernel)
    obtain ⟨s, hs, hd, hc⟩ := of_readsFive hp
    obtain ⟨hR, -⟩ := registered_exactly.1 x hx
    exact ⟨x, (hR.channels_iff _ _).2 ⟨rfl, s, _, hs, hd, hc, rfl, rfl⟩,
      hR.interest_eq _ s _ _ hs hd hc⟩
  · obtain ⟨x, hx, hp⟩ := Machine.ReachIf.of_endsIn
      (M := shared .zeroed .linux (Poller.Kqueue.poller (Chan.handle (κ := Bool)))) (G := Fits)
      (s := .init .init) (p := fun x => x.passes true readsFive) fiveAgain (by decide +kernel)
      (by decide +kernel)
    obtain ⟨s, hs, hd, hc⟩ := of_readsFive hp
    obtain ⟨hR, -⟩ := registered_exactly.2 x hx
    exact ⟨x, (hR.channels_iff _ _).2 ⟨rfl, s, _, hs, hd, hc, rfl, rfl⟩,
      hR.interest_eq _ s _ _ hs hd hc⟩

/-- The close callback connects the connection anew. -/
def reconnects : List (SharedAct Unit) :=
  [.accept () 5 false, .conn () (.runTask .badAddress), .conn () (.setCallbacks false true),
    .conn () .close, .conn () (.connect true true (.inProgress 6)), .conn () .ret, .conn () .tau]

/-- An attempt inside the close callback is where the guard is needed: `do_cleanup_` gives the new
channel away instead of the old one, and the poller is left with a channel that is going to be
destroyed. -/
theorem lost_registration : ∃ x : Shared Unit (Poller.Epoll (Chan Unit)),
    (shared .zeroed .linux (Poller.Epoll.poller Chan.handle)).Reach (.init .init) x ∧
      x.passes () (fun s => s.handle = some 6 && s.channel = none) = true ∧
      x.poll.poller.channels 6 = some ⟨(), .connecting, 6⟩ := by
  obtain ⟨x, hx, hp⟩ := Machine.Reach.of_endsIn
    (M := shared .zeroed .linux (Poller.Epoll.poller (Chan.handle (κ := Unit))))
    (s := .init .init) (p := fun x =>
      x.passes () (fun s => s.handle = some 6 && s.channel = none) &&
        x.poll.poller.channels 6 = some ⟨(), .connecting, 6⟩) reconnects (by decide +kernel)
  obtain ⟨h1, h2⟩ := Bool.and_eq_true_iff.1 hp
  exact ⟨x, hx, h1, of_decide_eq_true h2⟩

/-! ### What is reported -/

/-- **What is reported reaches the connection that has the descriptor open.** -/
structure ReachesOwner (A : Allocator) (K : Kernel) (x : Shared κ π)
    (report : ℕ → Option Events) (l : Poller.Loop (Chan κ) π) : Prop where
  /-- An active channel is the registered channel of a connection that has its descriptor open; it
  is told all that was reported for the descriptor and to read or to write only if it asks for
  it. -/
  owner : ∀ k ∈ l.active, ∃ s c, x.conns k.conn = some s ∧ s.handle = some k.handle ∧
    s.channel = some c ∧ c.role = k.role ∧ c.registered = true ∧
    report k.handle = some (l.result k) ∧ ((l.result k).read = true → c.reading = true) ∧
    ((l.result k).write = true → c.writing = true)
  /-- A connection has one active channel at most. -/
  once : ∀ k ∈ l.active, ∀ k' ∈ l.active, k.conn = k'.conn → k = k'
  /-- A connection that is registered is told what was reported for its descriptor. -/
  heard : ∀ i s h c, x.conns i = some s → s.handle = some h → s.channel = some c →
    c.registered = true → (report h).isSome → ⟨i, c.role, h⟩ ∈ l.active
  /-- Nothing is reported for a descriptor that no connection has open. -/
  free : ∀ h, x.Free h → report h = none
  /-- The poll's thread can take the events to the connection. -/
  deliver : ∀ k ∈ l.active, ∀ s, x.conns k.conn = some s → s.alive = true → s.ctl = [] →
    s.delivered = none → ∃ s', (machine A K).step (.ok s) (.deliver (l.result k)) = some (.ok s') ∧
      s'.delivered = some (k.role, l.result k)

omit [DecidableEq κ] in
theorem Sharing.reachesOwner {report : ℕ → Option Events} {l l' : Poller.Loop (Chan κ) π}
    (h : Sharing A K R x) (hl : l.poll = x.poll)
    (hd : Poller.Delivers Chan.handle l.masks report l') : ReachesOwner A K x report l' := by
  have hmasks : ∀ k, l.masks k = x.mask k := fun k => by
    rw [Poller.Loop.masks, hl, h.asks.2]
  -- an active channel asks for something, so its connection is there and has the descriptor open
  have howner : ∀ k ∈ l'.active, ∃ s c, x.conns k.conn = some s ∧ s.handle = some k.handle ∧
      s.channel = some c ∧ c.role = k.role ∧ c.registered = true := fun k hk => by
    have hne := ((hd.mem_iff k).1 hk).1
    rw [hmasks] at hne
    exact (h.mask_ne_iff k).1 hne
  refine ⟨fun k hk => ?_, fun k hk k' hk' he => ?_, fun i s d c hs hsd hc hreg hrep => ?_,
    fun d hfree => ?_, fun k hk s hs halive hctl hdel => ?_⟩
  · obtain ⟨s, c, hs, hsd, hc, hrole, hreg⟩ := howner k hk
    obtain ⟨hr, hw⟩ := hd.asked k hk
    rw [hmasks, mask_eq hs, if_pos hsd, asks_some hc, if_pos hrole] at hr hw
    exact ⟨s, c, hs, hsd, hc, hrole, hreg, hd.result_eq k hk, hr, hw⟩
  · obtain ⟨s, c, hs, hsd, hc, hrole, -⟩ := howner k hk
    obtain ⟨s', c', hs', hsd', hc', hrole', -⟩ := howner k' hk'
    rw [← he, hs, Option.some.injEq] at hs'
    subst hs'
    rw [hc, Option.some.injEq] at hc'
    subst hc'
    have hhandle : k.handle = k'.handle := Option.some.inj (hsd.symm.trans hsd')
    have hr : k.role = k'.role := hrole.symm.trans hrole'
    cases k
    cases k'
    simp_all
  · rw [hd.mem_iff, hmasks, h.mask_ne_iff]
    exact ⟨⟨s, c, hs, hsd, hc, rfl, hreg⟩, hrep⟩
  · by_contra hne
    obtain ⟨k, hk, rfl⟩ := hd.complete d (Option.isSome_iff_ne_none.2 hne)
    obtain ⟨s, c, hs, hsd, -⟩ := howner k hk
    exact hfree k.conn ((handle_eq hs).trans hsd)
  · obtain ⟨t, c, ht, -, hc, hrole, hreg⟩ := howner k hk
    rw [hs, Option.some.injEq] at ht
    subst ht
    have hst : (machine A K).step (.ok s) (.deliver (l'.result k)) = some (.ok { s with
        delivered := some (c.role, l'.result k)
        writeReady := !(l'.result k).write && s.writeReady && s.writable }) := by
      simp only [machine, halive, St.step, St.otherStep, hctl, hdel, hc, hreg, if_true]
    exact ⟨_, hst, by rw [← hrole]⟩

/-- **Events reach the connection they are about.**  In every such run, after a poll of either
poller the active channels are those of the connections that have a reported descriptor open and are
registered, each connection once, with all that was reported for its descriptor and nothing it does
not ask for; nothing that was reported is dropped, and nothing meant for a connection that is closed
reaches another one that was given its descriptor. -/
theorem reported_to_owner :
    (∀ x l r l', (shared A K (Poller.Epoll.poller Chan.handle)).ReachIf Fits
      (.init (κ := κ) .init) x → l.poll = x.poll → l.active = [] →
      Poller.Epoll.poll Chan.handle r l = some l' →
      ReachesOwner A K x (Poller.reported (Poller.Epoll.view r)) l') ∧
    (∀ x l r l', (shared A K (Poller.Kqueue.poller Chan.handle)).ReachIf Fits
      (.init (κ := κ) .init) x → l.poll = x.poll → l.active = [] →
      Poller.Kqueue.poll r l = some l' →
      ReachesOwner A K x (Poller.reported (Poller.Kqueue.view r)) l') := by
  refine ⟨fun x l r l' hx hl h0 hst => ?_, fun x l r l' hx hl h0 hst => ?_⟩
  · have hS := sharing_of_reach (Poller.Epoll.implements (Chan.handle (κ := κ)))
      (Poller.Epoll.rel_init _) hx
    have hR : Poller.Epoll.Rel Chan.handle l.poll := by
      rw [hl]
      exact hS.asks.1
    exact hS.reachesOwner hl (Poller.Epoll.poll_spec hR h0 hst).2
  · have hS := sharing_of_reach (Poller.Kqueue.implements (Chan.handle (κ := κ)))
      (Poller.Kqueue.rel_init _) hx
    have hR : Poller.Kqueue.Rel Chan.handle l.poll := by
      rw [hl]
      exact hS.asks.1
    exact hS.reachesOwner hl (Poller.Kqueue.poll_spec hR h0 hst).2

/-- The event loop of the connections, between two polls. -/
def Shared.loop (x : Shared κ π) : Poller.Loop (Chan κ) π :=
  ⟨x.poll, Poller.kMaxPollEventCount, fun _ => .kNone, []⟩

/-- Descriptor 5 has data. -/
def fiveReports : Option (List (ℕ × EpollEvents)) × Option Poller.Kqueue.Ret :=
  (some [(5, ⟨true, false, false, false, false⟩)],
    some ⟨[(5, ⟨.read, false, false⟩)], [⟨5, true, false, false, false⟩]⟩)

theorem reported_to_owner_fiveAgain :
    (∃ (x : Shared Bool (Poller.Epoll (Chan Bool))) (l : Poller.Loop (Chan Bool) _),
      Poller.Epoll.poll Chan.handle fiveReports.1 x.loop = some l ∧
        ⟨true, .established, 5⟩ ∈ l.active) ∧
    ∃ (x : Shared Bool (Poller.Kqueue (Chan Bool))) (l : Poller.Loop (Chan Bool) _),
      Poller.Kqueue.poll fiveReports.2 x.loop = some l ∧ ⟨true, .established, 5⟩ ∈ l.active := by
  constructor
  · obtain ⟨x, hx, hp⟩ := Machine.ReachIf.of_endsIn
      (M := shared .zeroed .linux (Poller.Epoll.poller (Chan.handle (κ := Bool)))) (G := Fits)
      (s := .init .init) (p := fun x => x.passes true readsFive &&
        (Poller.Epoll.poll Chan.handle fiveReports.1 x.loop).isSome) fiveAgain (by decide +kernel)
      (by decide +kernel)
    obtain ⟨hp, hsome⟩ := Bool.and_eq_true_iff.1 hp
    obtain ⟨s, hs, hd, hc⟩ := of_readsFive hp
    obtain ⟨l, hl⟩ := Option.isSome_iff_exists.1 hsome
    exact ⟨x, l, hl, (reported_to_owner.1 x _ _ _ hx rfl rfl hl).heard _ s _ _ hs hd hc rfl
      (by decide)⟩
  · obtain ⟨x, hx, hp⟩ := Machine.ReachIf.of_endsIn
      (M := shared .zeroed .linux (Poller.Kqueue.poller (Chan.handle (κ := Bool)))) (G := Fits)
      (s := .init .init) (p := fun x => x.passes true readsFive &&
        (Poller.Kqueue.poll fiveReports.2 x.loop).isSome) fiveAgain (by decide +kernel)
      (by decide +kernel)
    obtain ⟨hp, hsome⟩ := Bool.and_eq_true_iff.1 hp
    obtain ⟨s, hs, hd, hc⟩ := of_readsFive hp
    obtain ⟨l, hl⟩ := Option.isSome_iff_exists.1 hsome
    exact ⟨x, l, hl, (reported_to_owner.2 x _ _ _ hx rfl rfl hl).heard _ s _ _ hs hd hc rfl
      (by decide)⟩

end

end Conn

end CxpNet
