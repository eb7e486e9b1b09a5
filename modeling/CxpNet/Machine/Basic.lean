import Mathlib.Logic.Relation

/-!
# Machines: executable transition systems with guarded runs

A `Machine S A` is a partial step function on states `S`, driven by actions `A`: an action is
one atomic step of some thread, of the environment, or of both.  Everything the development
proves about whole runs is stated with one of two relations:

* `Machine.Reach s₀ s` : some sequence of actions leads from `s₀` to `s`;
* `Machine.ReachIf G s₀ s` : some sequence of actions, each of which meets the guard `G` in the
  state it is taken in, leads from `s₀` to `s`.

`Machine.Simulation` relates two machines that are driven by the same actions, and
`Machine.history` adds a variable that records what happens and has no influence on it.

A guard says what a caller promises (no second `connect`), or when a race does not happen (no
notification inside a window).  `Machine.exec` runs a list of actions, so that a concrete run is
checked by evaluation (`ReachIf.of_exec`).
-/

namespace CxpNet

/-- An executable transition system with states `S` and actions `A`. -/
structure Machine (S : Type*) (A : Type*) where
  /-- `step s a` is the state after `a`, or `none` if `a` is not enabled in `s`. -/
  step : S → A → Option S

namespace Machine

variable {S A : Type*} (M : Machine S A)

/-- Run a list of actions; `none` as soon as one of them is not enabled. -/
def exec : S → List A → Option S
  | s, [] => some s
  | s, a :: as => (M.step s a).bind fun s' => exec s' as

/-- Reachability by actions that meet the guard `G` in the state they are taken in. -/
inductive ReachIf (G : S → A → Prop) (s₀ : S) : S → Prop
  | refl : ReachIf G s₀ s₀
  | tail {s s' : S} {a : A} : ReachIf G s₀ s → G s a → M.step s a = some s' → ReachIf G s₀ s'

/-- Reachability by any actions. -/
abbrev Reach (s₀ s : S) : Prop := M.ReachIf (fun _ _ => True) s₀ s

/-- Every action of the list meets `G` in the state it is taken in. -/
def Meets (G : S → A → Prop) : S → List A → Prop
  | _, [] => True
  | s, a :: as => G s a ∧ match M.step s a with
    | some s' => Meets G s' as
    | none => True

/-- Whether a run meets a decidable guard is decided by running it. -/
instance decidableMeets (G : S → A → Prop) [∀ s a, Decidable (G s a)] :
    ∀ (s : S) (as : List A), Decidable (M.Meets G s as)
  | _, [] => .isTrue trivial
  | s, a :: as =>
    have : Decidable (match M.step s a with
        | some s' => M.Meets G s' as
        | none => True) :=
      match M.step s a with
      | some s' => decidableMeets G s' as
      | none => .isTrue trivial
    inferInstanceAs (Decidable (G s a ∧ _))

variable {M}

/-- A run in two parts. -/
theorem exec_append {s s' : S} {as bs : List A} : M.exec s (as ++ bs) = some s' ↔
    ∃ t, M.exec s as = some t ∧ M.exec t bs = some s' := by
  induction as generalizing s with
  | nil => simp [exec]
  | cons a as ih =>
    simp only [List.cons_append, exec, Option.bind_eq_some_iff, ih]
    constructor
    · rintro ⟨u, hu, t, h1, h2⟩
      exact ⟨t, ⟨u, hu, h1⟩, h2⟩
    · rintro ⟨t, ⟨u, hu, h1⟩, h2⟩
      exact ⟨u, hu, t, h1, h2⟩

theorem meets_cons {G : S → A → Prop} {s s' : S} {a : A} {as : List A}
    (hst : M.step s a = some s') : M.Meets G s (a :: as) ↔ G s a ∧ M.Meets G s' as := by
  simp only [Meets, hst]

namespace ReachIf

variable {G G' : S → A → Prop} {s₀ s s' : S}

theorem mono (hG : ∀ s a, G s a → G' s a) (h : M.ReachIf G s₀ s) : M.ReachIf G' s₀ s := by
  induction h with
  | refl => exact .refl
  | tail _ hg hst ih => exact .tail ih (hG _ _ hg) hst

theorem reach (h : M.ReachIf G s₀ s) : M.Reach s₀ s := h.mono fun _ _ _ => trivial

theorem trans {s₁ s₂ s₃ : S} (h₁ : M.ReachIf G s₁ s₂) (h₂ : M.ReachIf G s₂ s₃) :
    M.ReachIf G s₁ s₃ := by
  induction h₂ with
  | refl => exact h₁
  | tail _ hg hst ih => exact .tail ih hg hst

theorem head {s₁ s₂ s₃ : S} {a : A} (hg : G s₁ a) (hst : M.step s₁ a = some s₂)
    (h : M.ReachIf G s₂ s₃) : M.ReachIf G s₁ s₃ :=
  trans (.tail .refl hg hst) h

/-- **The invariant rule.**  What holds initially and is kept by every guarded step holds in
every state of a guarded run. -/
theorem invariant {I : S → Prop} (h : M.ReachIf G s₀ s) (h₀ : I s₀)
    (hstep : ∀ s a s', I s → G s a → M.step s a = some s' → I s') : I s := by
  induction h with
  | refl => exact h₀
  | tail _ hg hst ih => exact hstep _ _ _ ih hg hst

/-- The invariant rule relative to an invariant `J` that is already known. -/
theorem invariant_of {I J : S → Prop} (h : M.ReachIf G s₀ s)
    (hJ : ∀ s, M.ReachIf G s₀ s → J s) (h₀ : I s₀)
    (hstep : ∀ s a s', J s → I s → G s a → M.step s a = some s' → I s') : I s := by
  induction h with
  | refl => exact h₀
  | tail hr hg hst ih => exact hstep _ _ _ (hJ _ hr) ih hg hst

/-- A concrete run, checked by evaluation. -/
theorem of_exec (as : List A) (h : M.exec s as = some s') (hG : M.Meets G s as) :
    M.ReachIf G s s' := by
  induction as generalizing s with
  | nil => cases h; exact .refl
  | cons a as ih =>
    obtain ⟨t, hst, h⟩ := Option.bind_eq_some_iff.1 h
    rw [meets_cons hst] at hG
    exact head hG.1 hst (ih h hG.2)

/-- A concrete run that ends in a state with a property that is checked by evaluation. -/
theorem of_endsIn {p : S → Bool} (as : List A) (h : (M.exec s as).any p = true)
    (hG : M.Meets G s as) : ∃ s', M.ReachIf G s s' ∧ p s' = true := by
  obtain ⟨s', hs', hp⟩ := (Option.any_eq_true ..).1 h
  exact ⟨s', of_exec as hs' hG, hp⟩

end ReachIf

/-- A concrete run without a guard. -/
theorem Reach.of_exec {s s' : S} (as : List A) (h : M.exec s as = some s') : M.Reach s s' := by
  induction as generalizing s with
  | nil => cases h; exact .refl
  | cons a as ih =>
    obtain ⟨t, hst, h⟩ := Option.bind_eq_some_iff.1 h
    exact .head trivial hst (ih h)

theorem Reach.of_endsIn {s : S} {p : S → Bool} (as : List A) (h : (M.exec s as).any p = true) :
    ∃ s', M.Reach s s' ∧ p s' = true := by
  obtain ⟨s', hs', hp⟩ := (Option.any_eq_true ..).1 h
  exact ⟨s', .of_exec as hs', hp⟩

/-! ### Simulations -/

/-- `N` simulates `M`: what `M` does under the guard `G`, `N` does by the same action. -/
structure Simulation {T : Type*} (M : Machine S A) (N : Machine T A) (G : S → A → Prop)
    (R : S → T → Prop) : Prop where
  step : ∀ s t a s', R s t → G s a → M.step s a = some s' → ∃ t', N.step t a = some t' ∧ R s' t'

/-- **The simulation rule.**  A run of `M` is a run of `N`. -/
theorem Simulation.exec {T : Type*} {N : Machine T A} {G : S → A → Prop} {R : S → T → Prop}
    (h : Simulation M N G R) {s s' : S} {t : T} {as : List A} (hR : R s t)
    (hM : M.exec s as = some s') (hG : M.Meets G s as) :
    ∃ t', N.exec t as = some t' ∧ R s' t' := by
  induction as generalizing s t with
  | nil =>
    cases hM
    exact ⟨t, rfl, hR⟩
  | cons a as ih =>
    obtain ⟨s₁, hst, hM⟩ := Option.bind_eq_some_iff.1 hM
    rw [meets_cons hst] at hG
    obtain ⟨t₁, ht, hR₁⟩ := h.step s t a s₁ hR hG.1 hst
    obtain ⟨t', ht', hR'⟩ := ih hR₁ hM hG.2
    exact ⟨t', Option.bind_eq_some_iff.2 ⟨t₁, ht, ht'⟩, hR'⟩

/-- **The projection rule.**  Where every guarded step is a guarded step of `N` or none at all, as
far as `f` shows, a run of `M` shows a run of `N`. -/
theorem ReachIf.project {T B : Type*} {N : Machine T B} {G : S → A → Prop} {G' : T → B → Prop}
    {f : S → T}
    (hf : ∀ s a s', G s a → M.step s a = some s' →
      f s' = f s ∨ ∃ b, G' (f s) b ∧ N.step (f s) b = some (f s'))
    {s₀ s : S} (h : M.ReachIf G s₀ s) : N.ReachIf G' (f s₀) (f s) := by
  induction h with
  | refl => exact .refl
  | tail _ hg hst ih =>
    rcases hf _ _ _ hg hst with heq | ⟨b, hb, hN⟩
    · rw [heq]
      exact ih
    · exact .tail ih hb hN

/-! ### History variables -/

/-- The machine with a history variable; `f` says what becomes of it in a step. -/
def history {H : Type*} (M : Machine S A) (f : H → S → A → S → H) : Machine (S × H) A where
  step x a := (M.step x.1 a).map fun s' => (s', f x.2 x.1 a s')

section

variable {H : Type*} {f : H → S → A → S → H} {G : S → A → Prop}

theorem history_step {x x' : S × H} {a : A} (h : (M.history f).step x a = some x') :
    M.step x.1 a = some x'.1 ∧ x'.2 = f x.2 x.1 a x'.1 := by
  obtain ⟨s', hs', rfl⟩ := Option.map_eq_some_iff.1 h
  exact ⟨hs', rfl⟩

/-- A run with the history variable is a run of the machine. -/
theorem ReachIf.of_history {x₀ x : S × H} (h : (M.history f).ReachIf (fun x => G x.1) x₀ x) :
    M.ReachIf G x₀.1 x.1 := by
  induction h with
  | refl => exact .refl
  | tail _ hg hst ih => exact .tail ih hg (history_step hst).1

/-- And every run of the machine can be recorded. -/
theorem ReachIf.recorded {s₀ s : S} (h : M.ReachIf G s₀ s) (h₀ : H) :
    ∃ x, (M.history f).ReachIf (fun x => G x.1) (s₀, h₀) (s, x) := by
  induction h with
  | refl => exact ⟨h₀, .refl⟩
  | @tail s s' a _ hg hst ih =>
    obtain ⟨x, hx⟩ := ih
    have hstep : (M.history f).step (s, x) a = some (s', f x s a s') := by simp [history, hst]
    exact ⟨_, .tail hx hg hstep⟩

end

end Machine

end CxpNet
