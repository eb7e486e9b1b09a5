import CxpNet.Machine.Basic
import CxpNet.Net.Platform

/-!
# The acceptor

`Acceptor::handle_read_` calls `Platform::accept`, which accepts connections until there are none
or an error is fatal, and appends them to `accepted_handles_`; the handles are dispatched, and the
list cleared, only if no error was fatal.

* `Acceptor.prompt_iff` : in a run of the acceptor every call dispatches exactly the handles it has
  accepted, in order, and leaves the list empty, iff no call that has accepted a handle ends in a
  fatal error.

What `::accept4` reports in one call is a list of outcomes; addresses are of any type.
-/

namespace CxpNet

namespace Acceptor

variable {α : Type}

/-- What `::accept4` reports: a connection and its address, or an error code, never `0`. -/
inductive AcceptRet (α : Type) where
  | handle (h : ℕ) (addr : α)
  | error (e : ℕ) (pos : 0 < e)
  deriving DecidableEq

/-- The callbacks of the acceptor that were called. -/
inductive Ev (α : Type) where
  | conn (h : ℕ) (addr : α)
  | err (e : ℤ)
  deriving DecidableEq

/-- `Acceptor`, as far as `handle_read_` goes. -/
structure St (α : Type) where
  /-- `listen_handle_`; `none` is `invalid_socket`. -/
  listenHandle : Option ℕ
  /-- `on_conn_func_` and `on_err_func_` are set. -/
  onConn : Bool
  onErr : Bool
  acceptedHandles : List (ℕ × α)
  log : List (Ev α)
  deriving DecidableEq

/-- The loop of `Platform::accept`: what it returns, and the handles it leaves; `none` unless the
outcomes are exactly those of one call. -/
def acceptLoop : List (AcceptRet α) → List (ℕ × α) → Option (ℤ × List (ℕ × α))
  | [], _ => none
  | .handle h addr :: rs, hs => acceptLoop rs (hs ++ [(h, addr)])
  | .error e _ :: rs, hs =>
    match handleErrorAction e with
    | .kBreak => if rs.isEmpty then some (0, hs) else none
    | .kContinue => acceptLoop rs hs
    | .kClose => if rs.isEmpty then some (e, hs) else none

/-- `Platform::accept` -/
def accept (listenHandle : Option ℕ) (rs : List (AcceptRet α)) (hs : List (ℕ × α)) :
    Option (ℤ × List (ℕ × α)) :=
  match listenHandle with
  | none => if rs.isEmpty then some (-1, hs) else none
  | some _ => acceptLoop rs hs

namespace St

/-- `handle_read_`, after `Platform::accept` has returned `err`. -/
def dispatch (err : ℤ) (s : St α) : St α :=
  if err ≠ 0 then if s.onErr then { s with log := s.log ++ [.err err] } else s
  else
    { s with
      log := s.log ++ if s.onConn then s.acceptedHandles.map fun p => .conn p.1 p.2 else []
      acceptedHandles := [] }

/-- `handle_read_`, with the outcomes of `::accept4` -/
def handleRead (rs : List (AcceptRet α)) (s : St α) : Option (St α) :=
  (accept s.listenHandle rs s.acceptedHandles).map fun x =>
    { s with acceptedHandles := x.2 }.dispatch x.1

end St

/-- The steps of the acceptor. -/
inductive Act (α : Type) where
  | handleRead (rs : List (AcceptRet α))
  /-- `listen`; `none` if `Platform::listen` fails. -/
  | listen (h : Option ℕ)
  | shutdown
  deriving DecidableEq

/-- The acceptor as a machine. -/
def machine (α : Type) : Machine (St α) (Act α) where
  step s a :=
    match a with
    | .handleRead rs => s.handleRead rs
    | .listen h => some { s with listenHandle := h }
    | .shutdown => some { s with listenHandle := none }

/-- The acceptor that the constructor of `Server` makes, with both callbacks set. -/
def init : St α := ⟨none, true, true, [], []⟩

/-! ### What is asked of a call -/

/-- The handles that are accepted in a call, in order. -/
def taken (rs : List (AcceptRet α)) : List (ℕ × α) :=
  rs.filterMap fun r => match r with
    | .handle h addr => some (h, addr)
    | .error _ _ => none

/-- The handles that were passed to `on_conn_func_`, in order. -/
def passed (l : List (Ev α)) : List (ℕ × α) :=
  l.filterMap fun e => match e with
    | .conn h addr => some (h, addr)
    | .err _ => none

/-- The call ends in a fatal error. -/
def endsFatally (rs : List (AcceptRet α)) : Bool :=
  rs.getLast?.any fun r => match r with
    | .handle _ _ => false
    | .error e _ => handleErrorAction e = .kClose

/-- The call from `s` to `s'` has passed the handles it has accepted to `on_conn_func_`, each once
and in order, and left none in the list. -/
def Prompt (s : St α) (rs : List (AcceptRet α)) (s' : St α) : Prop :=
  passed s'.log = passed s.log ++ taken rs ∧ s'.acceptedHandles = []

/-- Every call of the run `as` is prompt. -/
def AllPrompt (as : List (Act α)) : Prop :=
  ∀ pre rs post s s', as = pre ++ .handleRead rs :: post → (machine α).exec init pre = some s →
    (machine α).step s (.handleRead rs) = some s' → Prompt s rs s'

/-! ### One call -/

@[simp] theorem passed_append (l l' : List (Ev α)) : passed (l ++ l') = passed l ++ passed l' :=
  List.filterMap_append

theorem passed_conns (hs : List (ℕ × α)) :
    passed (hs.map fun p => Ev.conn p.1 p.2) = hs := by
  induction hs with
  | nil => rfl
  | cons p hs ih =>
    rw [List.map_cons, passed, List.filterMap_cons]
    exact congrArg (p :: ·) ih

theorem endsFatally_cons {r r' : AcceptRet α} {rs : List (AcceptRet α)} :
    endsFatally (r :: r' :: rs) = endsFatally (r' :: rs) := by
  rw [endsFatally, List.getLast?_cons_cons]
  rfl

/-- **The loop of `Platform::accept`** appends what it accepts, and returns `0` unless the error
that has ended it is fatal. -/
theorem acceptLoop_eq {rs : List (AcceptRet α)} {hs : List (ℕ × α)} {x : ℤ × List (ℕ × α)}
    (h : acceptLoop rs hs = some x) :
    x.2 = hs ++ taken rs ∧ (x.1 = 0 ↔ endsFatally rs = false) := by
  induction rs generalizing hs with
  | nil => cases h
  | cons r rs ih =>
    -- an outcome that does not end the loop is followed by another one
    have hlast : acceptLoop rs hs = some x ∨ (∃ p, acceptLoop rs (hs ++ [p]) = some x) →
        endsFatally (r :: rs) = endsFatally rs := by
      cases rs with
      | nil => rintro (h | ⟨p, h⟩) <;> cases h
      | cons r' rs => exact fun _ => endsFatally_cons
    cases r with
    | handle k addr =>
      have h' : acceptLoop rs (hs ++ [(k, addr)]) = some x := h
      obtain ⟨h1, h2⟩ := ih h'
      rw [hlast (.inr ⟨_, h'⟩), h1]
      exact ⟨by simp [taken], h2⟩
    | error e pos =>
      simp only [acceptLoop] at h
      split at h
      · rename_i hact
        split_ifs at h with hrs
        cases h
        rw [List.isEmpty_iff] at hrs
        subst hrs
        simp [taken, endsFatally, hact]
      · obtain ⟨h1, h2⟩ := ih h
        rw [hlast (.inl h), h1]
        exact ⟨by simp [taken], h2⟩
      · rename_i hact
        split_ifs at h with hrs
        cases h
        rw [List.isEmpty_iff] at hrs
        subst hrs
        have hne : e ≠ 0 := pos.ne'
        simp [taken, endsFatally, hact, hne]

/-- **`Platform::accept`** -/
theorem accept_eq {k : Option ℕ} {rs : List (AcceptRet α)} {hs : List (ℕ × α)}
    {x : ℤ × List (ℕ × α)} (h : accept k rs hs = some x) : x.2 = hs ++ taken rs ∧
      (x.1 = 0 → endsFatally rs = false) ∧ (x.1 ≠ 0 → endsFatally rs = true ∨ rs = []) := by
  cases k with
  | none =>
    simp only [accept] at h
    split_ifs at h with hrs
    cases h
    rw [List.isEmpty_iff] at hrs
    subst hrs
    simp [taken]
  | some k =>
    obtain ⟨h1, h2⟩ := acceptLoop_eq h
    refine ⟨h1, h2.1, fun hne => .inl ?_⟩
    by_contra hf
    exact hne (h2.2 (by simpa using hf))

/-- **`handle_read_`** with the callback set: the list is passed on and cleared, unless the call
ends in a fatal error; then it keeps what was accepted. -/
theorem handleRead_cases {rs : List (AcceptRet α)} {s s' : St α} (hc : s.onConn = true)
    (h : s.handleRead rs = some s') : s'.onConn = true ∧
      ((endsFatally rs = false ∧ s'.acceptedHandles = [] ∧
          passed s'.log = passed s.log ++ s.acceptedHandles ++ taken rs) ∨
        ((endsFatally rs = true ∨ rs = []) ∧ passed s'.log = passed s.log ∧
          s'.acceptedHandles = s.acceptedHandles ++ taken rs)) := by
  obtain ⟨x, hx, rfl⟩ := Option.map_eq_some_iff.1 h
  obtain ⟨h1, h2, h3⟩ := accept_eq hx
  unfold St.dispatch
  by_cases hz : x.1 = 0
  · rw [if_neg (by simpa using hz)]
    refine ⟨hc, .inl ⟨h2 hz, rfl, ?_⟩⟩
    simp only [hc, if_true, passed_append, passed_conns, h1, List.append_assoc]
  · rw [if_pos hz]
    refine ⟨by split_ifs <;> exact hc, .inr ⟨h3 hz, ?_, ?_⟩⟩
    · split_ifs
      · simp [passed]
      · rfl
    · split_ifs <;> exact h1

/-! ### Whole runs -/

/-- No call of the run that has accepted a handle ends in a fatal error. -/
def NoFatalAfterAccept (as : List (Act α)) : Prop :=
  ∀ rs, .handleRead rs ∈ as → endsFatally rs = true → taken rs = []

theorem onConn_of_exec {as : List (Act α)} {s s' : St α} (hc : s.onConn = true)
    (h : (machine α).exec s as = some s') : s'.onConn = true := by
  induction as generalizing s with
  | nil =>
    cases h
    exact hc
  | cons a as ih =>
    obtain ⟨t, hst, hrun⟩ := Option.bind_eq_some_iff.1 h
    refine ih ?_ hrun
    cases a with
    | handleRead rs => exact (handleRead_cases hc hst).1
    | listen k | shutdown =>
      cases hst
      exact hc

/-- A call that does not end in a fatal error after it has accepted a handle is prompt if nothing
was left by the calls before. -/
theorem prompt_of_nil {rs : List (AcceptRet α)} {s s' : St α} (hc : s.onConn = true)
    (h0 : s.acceptedHandles = []) (hrs : endsFatally rs = true → taken rs = [])
    (h : s.handleRead rs = some s') : Prompt s rs s' := by
  obtain ⟨-, ⟨-, h1, h2⟩ | ⟨hf, h1, h2⟩⟩ := handleRead_cases hc h
  · exact ⟨by rw [h2, h0, List.append_nil], h1⟩
  · have htaken : taken rs = [] := by
      rcases hf with hf | rfl
      · exact hrs hf
      · rfl
    exact ⟨by rw [h1, htaken, List.append_nil], by rw [h2, h0, htaken, List.append_nil]⟩

/-- In a run without such a call nothing is left in the list between the calls. -/
theorem acceptedHandles_eq_nil {as : List (Act α)} {s s' : St α} (hc : s.onConn = true)
    (h0 : s.acceptedHandles = []) (has : NoFatalAfterAccept as)
    (h : (machine α).exec s as = some s') : s'.acceptedHandles = [] := by
  induction as generalizing s with
  | nil =>
    cases h
    exact h0
  | cons a as ih =>
    obtain ⟨t, hst, hrun⟩ := Option.bind_eq_some_iff.1 h
    have hrest : NoFatalAfterAccept as := fun rs hrs => has rs (List.mem_cons_of_mem a hrs)
    have hone : (machine α).exec s [a] = some t := by simpa [Machine.exec] using hst
    have hct : t.onConn = true := onConn_of_exec hc hone
    refine ih hct ?_ hrest hrun
    cases a with
    | handleRead rs => exact (prompt_of_nil hc h0 (has rs (by simp)) hst).2
    | listen k | shutdown =>
      cases hst
      exact h0

/-- **Accepted handles are dispatched promptly and once.**  In every run of the acceptor each call
of `handle_read_` has, when it returns, passed exactly the handles it has accepted to
`on_conn_func_`, in order, and left `accepted_handles_` empty, iff no call that has accepted a
handle ends in a fatal error. -/
theorem prompt_iff {as : List (Act α)} {s : St α} (h : (machine α).exec init as = some s) :
    AllPrompt as ↔ NoFatalAfterAccept as := by
  constructor
  · intro hall rs hrs hf
    obtain ⟨pre, post, rfl⟩ := List.append_of_mem hrs
    obtain ⟨t, hpre, hcall⟩ := Machine.exec_append.1 h
    obtain ⟨u, hu, -⟩ := Option.bind_eq_some_iff.1 hcall
    obtain ⟨-, hnil⟩ := hall pre rs post t u rfl hpre hu
    have hc : t.onConn = true := onConn_of_exec rfl hpre
    obtain ⟨-, ⟨hf', -⟩ | ⟨-, -, h1⟩⟩ := handleRead_cases hc hu
    · simp [hf] at hf'
    · rw [hnil] at h1
      exact (List.append_eq_nil_iff.1 h1.symm).2
  · rintro has pre rs post t u rfl hpre hu
    have hpre' : NoFatalAfterAccept pre := fun rs' hrs => has rs' (by simp [hrs])
    exact prompt_of_nil (onConn_of_exec rfl hpre) (acceptedHandles_eq_nil rfl rfl hpre' hpre)
      (has rs (by simp)) hu

/-- Two connections are accepted and `EINTR` comes in between. -/
theorem prompt_twoConns : AllPrompt (α := Unit)
    [.listen (some 3), .handleRead [.handle 7 (), .error EINTR (by decide), .handle 8 (),
      .error EAGAIN (by decide)]] := by
  have hrun : ∃ s, (machine Unit).exec init [.listen (some 3), .handleRead [.handle 7 (),
      .error EINTR (by decide), .handle 8 (), .error EAGAIN (by decide)]] = some s := ⟨_, rfl⟩
  obtain ⟨s, hs⟩ := hrun
  refine (prompt_iff hs).2 fun rs hrs hf => ?_
  rcases List.mem_cons.1 hrs with h | h
  · cases h
  · rw [List.mem_singleton] at h
    cases h
    exact absurd hf (by decide)

/-- The process is out of descriptors (`EMFILE` is 24) after one connection was accepted: the call
returns without having passed it on. -/
theorem not_prompt_emfile : ¬ AllPrompt (α := Unit)
    [.listen (some 3), .handleRead [.handle 7 (), .error 24 (by decide)]] := by
  intro hall
  have h := hall [.listen (some 3)] [.handle 7 (), .error 24 (by decide)] []
    ⟨some 3, true, true, [], []⟩ ⟨some 3, true, true, [(7, ())], [.err 24]⟩ rfl rfl (by decide)
  exact absurd h.2 (by simp)

end Acceptor

end CxpNet
