import CxpNet.Machine.Basic
import Mathlib.Logic.Function.Basic
import Mathlib.Tactic.SplitIfs

/-!
# Programs over one mutex

A small language for what a program does with one mutex that is not recursive: it locks and
unlocks it, calls functions, invokes callbacks, and branches on questions `Q` whose answers are
left open.  A callback is user code, which may call any function.  Any number of threads run such
code (`Mutex.machine`).

`Mutex.effect` computes whether code keeps to the discipline: it locks only when it does not hold
the mutex, unlocks only when it does, and does not hold it when it invokes a callback, calls a
function or returns.  The check may leave out answers that are not possible.

* `Mutex.disciplined_of_reach` : if every function passes the check, every thread keeps to the
  discipline in every run in which only possible answers are given;
* `Mutex.not_held_of_callback`, `Mutex.not_held_of_lock` : what this means for a thread that is
  about to invoke a callback, or to lock.
-/

namespace CxpNet

namespace Mutex

variable (T F K Q : Type)

/-- What a function does, as far as the mutex and the callbacks are concerned. -/
inductive Code where
  | skip
  | lock
  | unlock
  /-- A callback is invoked. -/
  | callback (k : K)
  /-- User code is running. -/
  | user
  | call (f : F)
  | seq (c d : Code)
  | branch (q : Q) (yes no : Code)
  /-- `c` is executed any number of times. -/
  | loop (c : Code)
  deriving DecidableEq, Repr

/-- The threads and the mutex. -/
structure St where
  /-- What each thread has still to do. -/
  code : T → List (Code F K Q)
  holder : Option T

/-- The atomic steps. -/
inductive Act where
  /-- Thread `t` goes on. -/
  | next (t : T)
  /-- Thread `t` goes on at a branch or at the head of a loop. -/
  | choose (t : T) (yes : Bool)
  /-- The user code of thread `t` calls `f`. -/
  | enter (t : T) (f : F)
  /-- The user code of thread `t` returns. -/
  | leave (t : T)
  deriving DecidableEq, Repr

variable {T F K Q} [DecidableEq T]

/-- Thread `t` has `cs` still to do. -/
def goto (t : T) (cs : List (Code F K Q)) (s : St T F K Q) : St T F K Q :=
  { s with code := Function.update s.code t cs }

variable (body : F → Code F K Q)

/-- One step of a program with these functions. -/
def step (s : St T F K Q) : Act T F → Option (St T F K Q)
  | .next t =>
    match s.code t with
    | .skip :: cs => some (goto t cs s)
    | .lock :: cs => if s.holder = none then some (goto t cs { s with holder := some t }) else none
    | .unlock :: cs =>
      if s.holder = some t then some (goto t cs { s with holder := none }) else none
    | .callback _ :: cs => some (goto t (.user :: cs) s)
    | .call f :: cs => some (goto t (body f :: cs) s)
    | .seq c d :: cs => some (goto t (c :: d :: cs) s)
    | [] | .user :: _ | .branch .. :: _ | .loop _ :: _ => none
  | .choose t yes =>
    match s.code t with
    | .branch _ c d :: cs => some (goto t ((if yes then c else d) :: cs) s)
    | .loop c :: cs => some (goto t (if yes then c :: .loop c :: cs else cs) s)
    | _ => none
  | .enter t f =>
    match s.code t with
    | .user :: cs => some (goto t (body f :: .user :: cs) s)
    | _ => none
  | .leave t =>
    match s.code t with
    | .user :: cs => some (goto t cs s)
    | _ => none

/-- The threads as a machine. -/
def machine : Machine (St T F K Q) (Act T F) := ⟨step body⟩

/-- Every thread is in user code. -/
def init : St T F K Q := ⟨fun _ => [.user], none⟩

/-! ### The discipline -/

variable (possible : Q → Bool → Bool)

/-- Whether the code keeps to the discipline if the thread holds the mutex (`held`) when it
begins, and then whether it holds it at the end. -/
def effect : Code F K Q → Bool → Option Bool
  | .skip, held => some held
  | .lock, held => if held then none else some true
  | .unlock, held => if held then some false else none
  | .callback _, held | .user, held | .call _, held => if held then none else some false
  | .seq c d, held => (effect c held).bind (effect d)
  | .branch q c d, held =>
    match possible q true, possible q false with
    | true, true => if effect c held = effect d held then effect c held else none
    | true, false => effect c held
    | false, true => effect d held
    | false, false => some held
  | .loop c, held => if effect c held = some held then some held else none

/-- All the code keeps to the discipline, and the thread does not hold the mutex at the end. -/
def passes : List (Code F K Q) → Bool → Bool
  | [], held => !held
  | c :: cs, held =>
    match effect possible c held with
    | some held' => passes cs held'
    | none => false

/-- Every thread keeps to the discipline. -/
def Disciplined (s : St T F K Q) : Prop :=
  ∀ t, passes possible (s.code t) (s.holder = some t) = true

/-- The answer that is given in this step. -/
def answer (s : St T F K Q) : Act T F → Option (Q × Bool)
  | .choose t yes =>
    match s.code t with
    | .branch q _ _ :: _ => some (q, yes)
    | _ => none
  | _ => none

/-- Only possible answers are given. -/
def AnswersIn (s : St T F K Q) (a : Act T F) : Prop :=
  (answer s a).all (fun o => possible o.1 o.2) = true

instance (s : St T F K Q) (a : Act T F) : Decidable (AnswersIn possible s a) :=
  inferInstanceAs (Decidable (_ = true))

variable {body possible} {s s' : St T F K Q} {a : Act T F} {t : T} {c d : Code F K Q}
  {cs : List (Code F K Q)} {held : Bool}

/-! ### Equations of the check -/

@[simp] theorem effect_lock : effect possible (.lock : Code F K Q) held =
    if held then none else some true := rfl

@[simp] theorem effect_unlock : effect possible (.unlock : Code F K Q) held =
    if held then some false else none := rfl

@[simp] theorem effect_callback {k : K} : effect possible (.callback k : Code F K Q) held =
    if held then none else some false := rfl

@[simp] theorem effect_user : effect possible (.user : Code F K Q) held =
    if held then none else some false := rfl

@[simp] theorem effect_call {f : F} : effect possible (.call f : Code F K Q) held =
    if held then none else some false := rfl

theorem effect_seq : effect possible (.seq c d) held =
    (effect possible c held).bind (effect possible d) := rfl

theorem effect_branch {q : Q} : effect possible (.branch q c d) held =
    match possible q true, possible q false with
    | true, true =>
      if effect possible c held = effect possible d held then effect possible c held else none
    | true, false => effect possible c held
    | false, true => effect possible d held
    | false, false => some held := rfl

theorem effect_loop : effect possible (.loop c) held =
    if effect possible c held = some held then some held else none := rfl

@[simp] theorem passes_nil : passes possible ([] : List (Code F K Q)) held = !held := rfl

theorem passes_cons : passes possible (c :: cs) held = true ↔
    ∃ held', effect possible c held = some held' ∧ passes possible cs held' = true := by
  rw [passes]
  split
  · rename_i held' he
    simp [he]
  · rename_i he
    simp [he]

theorem passes_seq :
    passes possible (.seq c d :: cs) held = passes possible (c :: d :: cs) held := by
  rw [Bool.eq_iff_iff, passes_cons, passes_cons, effect_seq]
  cases effect possible c held with
  | none => simp
  | some held' => simp [passes_cons]

/-- A function is called without the mutex. -/
theorem passes_call {f : F} : passes possible (.call f :: cs) held = true ↔
    held = false ∧ passes possible cs false = true := by
  cases held <;> simp [passes_cons]

theorem passes_user : passes possible (.user :: cs) held = true ↔
    held = false ∧ passes possible cs false = true := by
  cases held <;> simp [passes_cons]

/-- A possible branch of code that passes does too. -/
theorem passes_branch {q : Q} {yes : Bool} (hq : possible q yes = true)
    (h : passes possible (.branch q c d :: cs) held = true) :
    passes possible ((if yes then c else d) :: cs) held = true := by
  rw [passes_cons] at h ⊢
  obtain ⟨held', he, hp⟩ := h
  refine ⟨held', ?_, hp⟩
  rw [effect_branch] at he
  -- either both answers are possible and both sides agree, or the other side does not count
  cases yes with
  | true =>
    rw [hq] at he
    cases hf : possible q false with
    | true =>
      simp only [hf] at he
      split_ifs at he with hcd
      exact he
    | false =>
      rw [hf] at he
      exact he
  | false =>
    rw [hq] at he
    cases ht : possible q true with
    | true =>
      simp only [ht] at he
      split_ifs at he with hcd
      exact hcd ▸ he
    | false =>
      rw [ht] at he
      exact he

theorem passes_loop {yes : Bool} (h : passes possible (.loop c :: cs) held = true) :
    passes possible (if yes then c :: .loop c :: cs else cs) held = true := by
  obtain ⟨held', he, hp⟩ := passes_cons.1 h
  rw [effect_loop] at he
  split_ifs at he with hc
  cases he
  -- one more round leads back to the head of the loop, with the mutex as it was
  cases yes with
  | true => exact passes_cons.2 ⟨_, hc, h⟩
  | false => exact hp

namespace Disciplined

/-- A thread goes on without touching the mutex. -/
theorem goto (h : Disciplined possible s)
    (hcs : passes possible cs (s.holder = some t) = true) :
    Disciplined possible (goto t cs s) := by
  intro u
  simp only [Mutex.goto, Function.update_apply]
  split_ifs with hu
  · subst hu
    exact hcs
  · exact h u

/-- The mutex changes hands between thread `t` and nobody. -/
theorem setHolder {o : Option T} (h : Disciplined possible s) (ho : ∀ u, u ≠ t → o ≠ some u)
    (hs : ∀ u, u ≠ t → s.holder ≠ some u) (hcs : passes possible cs (o = some t) = true) :
    Disciplined possible (Mutex.goto t cs { s with holder := o }) := by
  intro u
  simp only [Mutex.goto, Function.update_apply]
  split_ifs with hu
  · subst hu
    exact hcs
  · have := h u
    simpa [ho u hu, hs u hu] using this

/-- The body of a function is entered, by a thread that does not hold the mutex. -/
theorem enter (hbody : ∀ f, effect possible (body f) false = some false)
    (h : Disciplined possible s) (f : F) (hh : decide (s.holder = some t) = false)
    (hcs : passes possible cs false = true) :
    Disciplined possible (Mutex.goto t (body f :: cs) s) := by
  refine h.goto (passes_cons.2 ⟨false, ?_, hcs⟩)
  rw [hh]
  exact hbody f

theorem step (hbody : ∀ f, effect possible (body f) false = some false)
    (h : Disciplined possible s) (hG : AnswersIn possible s a)
    (hst : Mutex.step body s a = some s') : Disciplined possible s' := by
  cases a with
  | next t =>
    have ht := h t
    simp only [Mutex.step] at hst
    split at hst
    · rename_i cs hc
      cases hst
      rw [hc] at ht
      exact h.goto ht
    · -- `lock`: nobody holds the mutex, so the thread does not either
      rename_i cs hc
      split_ifs at hst with hn
      cases hst
      rw [hc, passes_cons] at ht
      obtain ⟨held', he, hp⟩ := ht
      simp only [hn, effect_lock] at he
      cases he
      exact h.setHolder (fun u hu he => hu (Option.some.inj he).symm) (by simp [hn])
        (by simpa using hp)
    · -- `unlock`: the check of every other thread does not mention this one
      rename_i cs hc
      split_ifs at hst with hn
      cases hst
      rw [hc, passes_cons] at ht
      obtain ⟨held', he, hp⟩ := ht
      simp only [hn, effect_unlock, decide_true, if_true, Option.some.injEq] at he
      subst he
      exact h.setHolder nofun (fun u hu => by rw [hn]; simpa using fun he => hu he.symm)
        (by simpa using hp)
    · rename_i k cs hc
      cases hst
      rw [hc] at ht
      exact h.goto ht
    · -- a call: the body passes the check from "not held" to "not held"
      rename_i f cs hc
      cases hst
      rw [hc, passes_call] at ht
      exact h.enter hbody f ht.1 ht.2
    · rename_i c d cs hc
      cases hst
      rw [hc, passes_seq] at ht
      exact h.goto ht
    all_goals cases hst
  | choose t yes =>
    have ht := h t
    simp only [Mutex.step] at hst
    split at hst
    · rename_i q c d cs hc
      cases hst
      rw [hc] at ht
      refine h.goto (passes_branch ?_ ht)
      simpa [AnswersIn, answer, hc] using hG
    · rename_i c cs hc
      cases hst
      rw [hc] at ht
      exact h.goto (passes_loop ht)
    · cases hst
  | enter t f =>
    have ht := h t
    simp only [Mutex.step] at hst
    split at hst
    · rename_i cs hc
      cases hst
      rw [hc] at ht
      have hh := (passes_user.1 ht).1
      rw [hh] at ht
      exact h.enter hbody f hh ht
    · cases hst
  | leave t =>
    have ht := h t
    simp only [Mutex.step] at hst
    split at hst
    · rename_i cs hc
      cases hst
      rw [hc, passes_user] at ht
      refine h.goto ?_
      rw [ht.1]
      exact ht.2
    · cases hst

end Disciplined

/-- **The discipline holds in every run.** -/
theorem disciplined_of_reach (hbody : ∀ f, effect possible (body f) false = some false)
    (h : (machine body).ReachIf (AnswersIn possible) init s) : Disciplined possible s :=
  h.invariant (fun t => by simp [init, passes_cons])
    fun _ _ _ hd hG hst => hd.step hbody hG hst

theorem not_held_of_callback {k : K} (h : Disciplined possible s)
    (ht : s.code t = .callback k :: cs) : s.holder ≠ some t := by
  intro hh
  have := h t
  simp [ht, hh, passes_cons] at this

theorem not_held_of_lock (h : Disciplined possible s) (ht : s.code t = .lock :: cs) :
    s.holder ≠ some t := by
  intro hh
  have := h t
  simp [ht, hh, passes_cons] at this

end Mutex

end CxpNet
