import CxpNet.Machine.Basic

/-!
# Two parties

`Machine.pair f` is the system of two parties of the same kind whose steps interleave; a step of
one party changes only that party, but it may look at the other one (what the other has sent, and
whether it has stopped).

* `Machine.pair_swap` : the two parties may change places;
* `Machine.pair_left` : what one party does in a run of the pair is a run of its own machine;
* `Machine.pair_invariant` : the invariant rule for relations between the parties.
-/

namespace CxpNet

namespace Machine

variable {P W : Type*}

/-- Which party takes a step. -/
inductive Turn (W : Type*) where
  | left (w : W)
  | right (w : W)
  deriving DecidableEq

/-- Two parties; `f p q w` is party `p` after its step `w`, taken in front of `q`. -/
def pair (f : P → P → W → Option P) : Machine (P × P) (Turn W) where
  step x w :=
    match w with
    | .left w => (f x.1 x.2 w).map fun p => (p, x.2)
    | .right w => (f x.2 x.1 w).map fun q => (x.1, q)

/-- Each party keeps to a guard of its own. -/
def Each (G₁ G₂ : P → W → Prop) (x : P × P) (w : Turn W) : Prop :=
  match w with
  | .left w => G₁ x.1 w
  | .right w => G₂ x.2 w

instance (G₁ G₂ : P → W → Prop) [∀ p w, Decidable (G₁ p w)] [∀ p w, Decidable (G₂ p w)] :
    ∀ x w, Decidable (Each G₁ G₂ x w)
  | x, .left w => inferInstanceAs (Decidable (G₁ x.1 w))
  | x, .right w => inferInstanceAs (Decidable (G₂ x.2 w))

variable {f : P → P → W → Option P} {G₁ G₂ : P → W → Prop} {x y : P × P}

/-- The parties may change places. -/
theorem pair_swap (h : (pair f).ReachIf (Each G₁ G₂) x y) :
    (pair f).ReachIf (Each G₂ G₁) x.swap y.swap := by
  induction h with
  | refl => exact .refl
  | @tail y z w _ hG hst ih =>
    cases w with
    | left w =>
      obtain ⟨p, hp, rfl⟩ := Option.map_eq_some_iff.1 hst
      have hstep : (pair f).step y.swap (.right w) = some (y.2, p) := by simp [pair, hp]
      exact .tail (a := .right w) ih hG hstep
    | right w =>
      obtain ⟨q, hq, rfl⟩ := Option.map_eq_some_iff.1 hst
      have hstep : (pair f).step y.swap (.left w) = some (q, y.1) := by simp [pair, hq]
      exact .tail (a := .left w) ih hG hstep

/-- What the left party does is a run of its own machine `N`. -/
theorem pair_left {T B : Type*} {N : Machine T B} {G : T → B → Prop} {π : P → T}
    (h : (pair f).ReachIf (Each G₁ G₂) x y)
    (hstep : ∀ p q w p', G₁ p w → f p q w = some p' →
      ∃ b, G (π p) b ∧ N.step (π p) b = some (π p')) :
    N.ReachIf G (π x.1) (π y.1) := by
  induction h with
  | refl => exact .refl
  | @tail y z w _ hG hst ih =>
    cases w with
    | left w =>
      obtain ⟨p, hp, rfl⟩ := Option.map_eq_some_iff.1 hst
      obtain ⟨b, hb, hN⟩ := hstep _ _ _ _ hG hp
      exact .tail ih hb hN
    | right w =>
      obtain ⟨q, -, rfl⟩ := Option.map_eq_some_iff.1 hst
      exact ih

/-- **The invariant rule** for a relation between the parties, relative to what is already known of
the reachable pairs. -/
theorem pair_invariant {R J : P → P → Prop} (h : (pair f).ReachIf (Each G₁ G₂) x y)
    (hJ : ∀ p q, (pair f).ReachIf (Each G₁ G₂) x (p, q) → J p q) (h₀ : R x.1 x.2)
    (hleft : ∀ p q w p', J p q → R p q → G₁ p w → f p q w = some p' → R p' q)
    (hright : ∀ p q w q', J p q → R p q → G₂ q w → f q p w = some q' → R p q') : R y.1 y.2 := by
  refine h.invariant_of (I := fun z => R z.1 z.2) (J := fun z => J z.1 z.2)
    (fun z hz => hJ z.1 z.2 hz) h₀ fun z w z' hj hi hG hst => ?_
  cases w with
  | left w =>
    obtain ⟨p, hp, rfl⟩ := Option.map_eq_some_iff.1 hst
    exact hleft _ _ _ _ hj hi hG hp
  | right w =>
    obtain ⟨q, hq, rfl⟩ := Option.map_eq_some_iff.1 hst
    exact hright _ _ _ _ hj hi hG hq

end Machine

end CxpNet
