import CxpNet.Conn.Lifecycle

/-!
# The outcome of an asynchronous connect

* `Conn.outcomes_le_one` : at most one of the two callbacks of a connect is ever called;
* `Conn.connect_outcome` : a dispatch to a connecting connection settles the connect, that is, the
  state is not `kConnecting` any more and exactly the callback that `SO_ERROR` calls for was
  called, iff the event set has neither an error nor a hang-up and that callback is set.

`Channel::handle_event_` looks at errors and hang-ups first and then calls only the read and close
callbacks, and the channel of a connect has neither.
-/

namespace CxpNet

namespace Conn

variable {A : Allocator} {K : Kernel} {s₀ s s' : St}

/-- Neither callback of a connect is called twice, nor both. -/
theorem outcomes_le_one (h₀ : Init s₀) (h : (machine A K).ReachIf OneShot (.ok s₀) (.ok s)) :
    (outcomes s.log).length ≤ 1 := by
  cases (inv_of_reach h₀ h).life with
  | fresh hp | queued _ _ hp => simp [hp.outcomes]
  | connecting _ _ _ _ _ _ _ _ _ _ _ _ h11 => simp [h11]
  | dead _ _ _ _ _ _ h6 => exact h6
  | up _ ho | closing _ ho => exact ho.outcomes
  | down _ _ _ _ _ _ _ _ _ _ _ h11 => exact h11

/-- Events with an error or a hang-up are dispatched to a connecting connection. -/
def dispatchesBad (c : Except Crash St) (a : Act) : Bool :=
  match c, a with
  | .ok s, .dispatch => s.state = .kConnecting && s.delivered.any fun x => x.2.error || x.2.hup
  | _, _ => false

/-- A step of a one-shot run that does not do so. -/
def CleanConnect (c : Except Crash St) (a : Act) : Prop :=
  OneShot c a ∧ dispatchesBad c a = false

instance (c : Except Crash St) (a : Act) : Decidable (CleanConnect c a) :=
  inferInstanceAs (Decidable (OneShot c a ∧ dispatchesBad c a = false))

/-- The callback that the pending error of the socket calls for. -/
def dueOutcome (s : St) : Ev :=
  if s.soError = 0 then .called .connected else .called (.connectError s.soError)

/-- What a dispatch is to do: the connection is not connecting any more, and exactly the callback
that was due has been called. -/
def Settled (s : St) (c : Except Crash St) : Prop :=
  ∃ s', c = .ok s' ∧ s'.state ≠ .kConnecting ∧ outcomes s'.log = [dueOutcome s]

/-- The events have neither an error nor a hang-up, and the callback that is due is set; `start_`
also needs memory for the buffers. -/
def CanSettle (A : Allocator) (s : St) (ev : Events) : Prop :=
  ev.error = false ∧ ev.hup = false ∧
    if s.soError = 0 then
      s.onConnected = true ∧ (∃ r, St.newBuffer A s.readBuffer = .ok r) ∧
        ∃ w, St.newBuffer A s.writeBuffer = .ok w
    else s.onConnectError = true

/-! ### One dispatch -/

theorem start_isOk (hr : ∃ r, St.newBuffer A s.readBuffer = .ok r)
    (hw : ∃ w, St.newBuffer A s.writeBuffer = .ok w) : ∃ t, s.start A = .ok t := by
  obtain ⟨r, hr⟩ := hr
  obtain ⟨w, hw⟩ := hw
  unfold St.start
  split_ifs
  · exact ⟨_, rfl⟩
  · exact ⟨_, rfl⟩
  · rw [hr, hw]
    exact ⟨_, rfl⟩

theorem handleConnectEvent_isOk
    (h : s.takeSoError.1.getD EBADF = 0 → (∃ r, St.newBuffer A s.readBuffer = .ok r) ∧
      ∃ w, St.newBuffer A s.writeBuffer = .ok w) : ∃ t, s.handleConnectEvent A = .ok t := by
  unfold St.handleConnectEvent
  dsimp only
  split_ifs with h1 h2
  · exact ⟨_, rfl⟩
  · exact ⟨_, rfl⟩
  · obtain ⟨e, he⟩ := s.takeSoError_snd
    obtain ⟨w, hd⟩ := { s with soError := e }.dropChannel_eq
    obtain ⟨hr, hw⟩ := h (not_not.1 h2)
    obtain ⟨t, ht⟩ := start_isOk (s := { s with
      soError := e, channel := none, writeReady := w
      log := s.log ++ St.deregisterLog { s with soError := e } }) hr hw
    rw [he, hd, ht]
    exact ⟨_, rfl⟩

theorem outcomes_callLog_connected (b : Bool) :
    outcomes (St.callLog b .connected) = [.called .connected] ↔ b = true := by
  cases b <;> simp [St.callLog, outcomes, Ev.isOutcome]

theorem outcomes_callLog_connectError (b : Bool) (e : ℕ) :
    outcomes (St.callLog b (.connectError e)) = [.called (.connectError e)] ↔ b = true := by
  cases b <;> simp [St.callLog, outcomes, Ev.isOutcome]

/-- **`handle_connect_event_`** of a connecting connection settles the connect iff the callback
that is due is set. -/
theorem handleConnectEvent_settles {t : St} (hs : t.state = .kConnecting)
    (hh : t.handle ≠ none) (ho : outcomes t.log = []) :
    Settled t (t.handleConnectEvent A) ↔
      if t.soError = 0 then
        t.onConnected = true ∧ (∃ r, St.newBuffer A t.readBuffer = .ok r) ∧
          ∃ w, St.newBuffer A t.writeBuffer = .ok w
      else t.onConnectError = true := by
  obtain ⟨k, hk⟩ := Option.ne_none_iff_exists'.1 hh
  have herr : t.takeSoError.1.getD EBADF = t.soError := by simp [St.takeSoError, hk]
  have hdl : outcomes t.deregisterLog = [] := by
    unfold St.deregisterLog
    split <;> rfl
  have hcl : outcomes t.closeLog = [] := by
    unfold St.closeLog
    split <;> rfl
  cases hc : t.handleConnectEvent A with
  | error e =>
    -- it crashes only if a buffer cannot be made
    refine iff_of_false (fun ⟨_, h, _⟩ => by cases h) fun hr => ?_
    obtain ⟨u, hu⟩ : ∃ u, t.handleConnectEvent A = .ok u := by
      refine handleConnectEvent_isOk fun h0 => ?_
      rw [if_pos (herr ▸ h0)] at hr
      exact hr.2
    simp [hu] at hc
  | ok u =>
    have hset : Settled t (.ok u) ↔ u.state ≠ .kConnecting ∧ outcomes u.log = [dueOutcome t] :=
      ⟨fun ⟨v, hv, h⟩ => by cases hv; exact h, fun h => ⟨u, rfl, h⟩⟩
    rw [hset]
    rcases St.handleConnectEvent_ok hc with ⟨hn, -⟩ | ⟨-, he, w, e, rfl⟩ | ⟨-, he, w, e, v, hv, rfl⟩
    · exact absurd hs hn
    · rw [herr] at he
      rw [if_neg he, dueOutcome, if_neg he]
      simp only [outcomes_append, ho, hdl, hcl, herr]
      refine Iff.trans ⟨fun h => ?_, fun h => ⟨by simp, ?_⟩⟩
        (outcomes_callLog_connectError t.onConnectError t.soError)
      · exact h.2
      · exact h
    · rw [herr] at he
      rw [if_pos he, dueOutcome, if_pos he]
      rcases St.start_ok hv with ⟨-, hn | hn⟩ | ⟨-, r, w', wr, hr, hw, rfl⟩
      · exact absurd hn hh
      · simp [hs] at hn
      · have hm : outcomes (St.moveLog .kConnected
            { t with soError := e, channel := none, writeReady := w }) = [] := by
          unfold St.moveLog
          split_ifs <;> rfl
        have hlog : outcomes (t.log ++ t.deregisterLog ++ St.moveLog .kConnected
            { t with soError := e, channel := none, writeReady := w } ++
              St.callLog t.onConnected .connected) =
            outcomes (St.callLog t.onConnected .connected) := by
          simp only [outcomes_append, ho, hdl, hm, List.nil_append]
        constructor
        · exact fun h => ⟨(outcomes_callLog_connected _).1 (hlog ▸ h.2), ⟨r, hr⟩, ⟨w', hw⟩⟩
        · exact fun h => ⟨nofun, hlog.trans ((outcomes_callLog_connected _).2 h.1)⟩

/-! ### Results -/

/-- **The outcome of an asynchronous connect.**  In every one-shot run at most one of the two
callbacks has been called; and when events with a write, an error or a hang-up are dispatched to a
connection that is connecting (in a run in which no earlier dispatch has taken its error away),
this settles the connect iff there is neither an error nor a hang-up among them and the callback
that is due is set. -/
theorem connect_outcome (h₀ : Init s₀) :
    (∀ s, (machine A K).ReachIf OneShot (.ok s₀) (.ok s) → (outcomes s.log).length ≤ 1) ∧
      ∀ s role ev c, (machine A K).ReachIf CleanConnect (.ok s₀) (.ok s) →
        s.state = .kConnecting → s.delivered = some (role, ev) →
        ev.write = true ∨ ev.error = true ∨ ev.hup = true →
        (machine A K).step (.ok s) .dispatch = some c → (Settled s c ↔ CanSettle A s ev) := by
  refine ⟨fun s h => outcomes_le_one h₀ h, fun s role ev c h hs hd hev hst => ?_⟩
  have hlife := (inv_of_reach h₀ (h.mono fun _ _ hG => hG.1)).life
  cases hlife with
  | fresh hp | queued _ _ hp => simp [hp.state] at hs
  | dead _ _ _ h3 => exact absurd hs h3
  | up _ _ h1 | closing _ _ h1 | down _ _ h1 => simp [h1] at hs
  | connecting ch hwt h1 h2 h3 h4 h5 h6 h7 h8 h9 h10 h11 =>
    obtain rfl : role = .connecting := hwt.delivered _ hd
    have hc := machine_step hst
    simp only [St.step, St.otherStep, hd] at hc
    split at hc
    swap
    · cases hc
    rename_i hx
    cases hx
    cases hc
    unfold St.handleEvent
    by_cases hbad : (ev.error || ev.hup) = true
    · -- the channel has no close callback: only `SO_ERROR` may have been taken
      rw [if_pos hbad]
      refine iff_of_false ?_ fun hcan => by simp [hcan.1, hcan.2.1] at hbad
      rintro ⟨u, hu, hne, -⟩
      cases hu
      refine hne ?_
      split_ifs
      · obtain ⟨e, he⟩ := St.takeSoError_snd { s with delivered := none }
        rw [he]
        exact h2
      · exact h2
    · obtain ⟨he, hh⟩ : ev.error = false ∧ ev.hup = false := by simpa using hbad
      have hw : ev.write = true := by simpa [he, hh] using hev
      rw [if_neg hbad]
      simp only [hw, if_true]
      refine (handleConnectEvent_settles (t := { s with delivered := none }) h2 h3 h11).trans ?_
      exact ⟨fun h => ⟨he, hh, h⟩, fun h => h.2.2⟩


/-- A connect that succeeds: the poller reports that the socket is writable. -/
theorem connect_outcome_accepted : ∃ s c, s.state = .kConnecting ∧
    (machine .zeroed .linux).step (.ok s) .dispatch = some c ∧ Settled s c := by
  obtain ⟨s, hs, hp⟩ := reachIf_of_endsIn (A := .zeroed) (K := .linux) (G := CleanConnect)
    (new none)
    [.connect true true (.inProgress 7), .setWritable true,
      .deliver (EpollEvents.toEvents ⟨false, true, false, false, false⟩)]
    (p := fun s => s.state = .kConnecting ∧
      s.delivered = some (.connecting, ⟨false, true, false, false⟩) ∧ s.soError = 0 ∧
      s.onConnected = true ∧ s.readBuffer.isNone ∧ s.writeBuffer.isNone ∧
      ((machine .zeroed .linux).step (.ok s) .dispatch).isSome)
    (by decide +kernel) (by decide +kernel)
  obtain ⟨h1, h2, h3, h4, h5, h6, h7⟩ := of_decide_eq_true hp
  obtain ⟨c, hc⟩ := Option.isSome_iff_exists.1 h7
  refine ⟨s, c, h1, hc, ((connect_outcome .client).2 s _ _ c hs h1 h2 (.inl rfl) hc).2 ?_⟩
  have hnew : ∃ b, St.newBuffer .zeroed none = .ok b := ⟨_, rfl⟩
  rw [Option.isNone_iff_eq_none] at h5 h6
  refine ⟨rfl, rfl, ?_⟩
  rw [if_pos h3, h5, h6]
  exact ⟨h4, hnew, hnew⟩

/-- A connect that is refused (`ECONNREFUSED` is 111): `epoll` reports `EPOLLOUT`, `EPOLLERR` and
`EPOLLHUP`, and the connection stays `kConnecting`, with no callback called and `SO_ERROR` gone. -/
theorem connect_refused_unnoticed : ∃ s c,
    (machine .zeroed .linux).ReachIf CleanConnect (.ok (new none)) (.ok s) ∧
      s.state = .kConnecting ∧ s.soError = 111 ∧ s.onConnectError = true ∧
      s.delivered = some (.connecting, EpollEvents.toEvents ⟨false, true, true, true, false⟩) ∧
      (machine .zeroed .linux).step (.ok s) .dispatch = some c ∧ ¬ Settled s c := by
  obtain ⟨s, hs, hp⟩ := reachIf_of_endsIn (A := .zeroed) (K := .linux) (G := CleanConnect)
    (new none)
    [.connect true true (.inProgress 7), .sockError 111,
      .deliver (EpollEvents.toEvents ⟨false, true, true, true, false⟩)]
    (p := fun s => s.state = .kConnecting ∧ s.soError = 111 ∧ s.onConnectError = true ∧
      s.delivered = some (.connecting, EpollEvents.toEvents ⟨false, true, true, true, false⟩) ∧
      endsIn .zeroed .linux s [.dispatch] fun s' => s'.state = .kConnecting)
    (by decide +kernel) (by decide +kernel)
  obtain ⟨h1, h2, h3, h4, h5⟩ := of_decide_eq_true hp
  unfold endsIn at h5
  split at h5
  · rename_i s' hst
    obtain ⟨c, hc, hret⟩ := Option.bind_eq_some_iff.1 hst
    cases hret
    refine ⟨s, _, hs, h1, h2, h3, h4, hc, ?_⟩
    rintro ⟨u, hu, hne, -⟩
    cases hu
    exact hne (of_decide_eq_true h5)
  · cases h5

end Conn

end CxpNet
