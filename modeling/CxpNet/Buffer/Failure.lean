import CxpNet.Buffer.Interface

/-!
# When memory runs out

Three places of `Buffer` ask for memory: `ensure_writable_size` when it grows, and
`shrink_if_needed_` twice.  Two of them ask before they change anything; the third, for an emptied
buffer of more than `4 * kInitialCapacity` bytes, gives the old block back and sets `capacity_`
first.  If `operator new` throws there, the object is left with a pointer to no block, and with
indices that may lie behind `capacity_`.

`Buffer.alloc_failure_iff` : for every object that a program can have and every call, an
allocation that fails leaves a usable object exactly if it is not that one.
-/

namespace CxpNet

namespace Buffer

variable {A : Allocator} {b b' : Buffer}

/-- The object owns a live block of exactly `capacity_` bytes, its indices are ordered and `bs` is
readable. -/
structure Usable (b : Buffer) (bs : List UInt8) : Prop where
  live : ∃ blk, b.data = .live blk ∧ blk.size = b.capacity
  read_le : b.readIndex ≤ b.writeIndex
  write_le : b.writeIndex ≤ b.capacity
  readable : b.readable = bs

theorem WF.usable (h : b.WF) : b.Usable b.readable := ⟨h.live, h.read_le, h.write_le, rfl⟩

namespace Call

/-- The argument that says how many bytes. -/
def size : Call → ℕ
  | op (.append data) => data.length
  | op (.ensureWritableSize len) => len
  | op (.fill bs) => bs.length
  | op (.beenRead len) => len
  | op .beenReadAll => 0
  | op .clear => 0
  | beenWritten len => len
  | store _ bs => bs.length

/-- What is left of the readable bytes `bs` if the call fails: all, or all but those consumed. -/
def leaves (bs : List UInt8) : Call → List UInt8
  | op (.beenRead len) => bs.drop len
  | op .beenReadAll => []
  | _ => bs

end Call

/-! ### Calls that ask for no memory -/

theorem store_ne_badAlloc (off : ℕ) (bs : List UInt8) :
    b.store off bs ≠ .throw .badAlloc b' := by
  unfold store
  intro h
  split at h
  · split_ifs at h
    cases h
  · split_ifs at h
    cases h

theorem beenWritten_ne_badAlloc (len : ℕ) : b.beenWritten len ≠ .throw .badAlloc b' := by
  unfold beenWritten
  intro h
  split_ifs at h
  cases h

theorem fill_ne_badAlloc (bs : List UInt8) : b.fill bs ≠ .throw .badAlloc b' := by
  unfold fill
  intro h
  cases hs : b.store b.writeIndex bs with
  | done b₁ =>
    rw [hs, Res.andThen_done] at h
    exact beenWritten_ne_badAlloc _ h
  | throw f b₁ =>
    rw [hs] at h
    cases h
    exact store_ne_badAlloc _ _ hs

/-! ### Growing -/

/-- From no capacity at all the loop does not end. -/
theorem growCapacity_zero {r : ℕ} (hr : 0 < r) (n : ℕ) : growCapacity n 0 r = none := by
  have hmul : SizeT.mul 0 2 = 0 := SizeT.mul_of_lt (Nat.two_pow_pos 64)
  induction n with
  | zero => rw [growCapacity, if_pos hr]
  | succ n ih => rw [growCapacity, if_pos hr, hmul, ih]

/-- A refused request for a larger block leaves the object as it was. -/
theorem Sound.ensureWritableSize_refused (h : b.Sound) {len : ℕ} (hlt : len < 2 ^ 64)
    (he : b.ensureWritableSize A len = .throw .badAlloc b') : b' = b ∧ b.WF := by
  have hmakes := h.makes (A := A) len
  rw [he] at hmakes
  cases hmakes with
  | refused hlen hg =>
    refine ⟨rfl, h.wf (Nat.pos_of_ne_zero fun h0 => ?_)⟩
    obtain ⟨-, -, hr, -⟩ := h.sizes_of_zero h0
    rw [h0, hr, SizeT.add_of_lt (by omega), growCapacity_zero (by omega)] at hg
    cases hg

theorem Sound.append_refused (h : b.Sound) {data : List UInt8} (hlt : data.length < 2 ^ 64)
    (he : b.append A data = .throw .badAlloc b') : b' = b ∧ b.WF := by
  unfold Buffer.append at he
  split_ifs at he with h0
  · cases he
  · cases hr : b.ensureWritableSize A data.length with
    | done b₁ =>
      rw [hr, Res.andThen_done] at he
      exact absurd he (fill_ne_badAlloc data)
    | throw f b₁ =>
      rw [hr] at he
      cases he
      exact h.ensureWritableSize_refused hlt hr

/-! ### Consuming -/

/-- The block that `shrink_if_needed_` has given back for nothing. -/
def lost (b : Buffer) : Buffer := { b with data := .dangling, capacity := kInitialCapacity }

/-- A refused request of `been_read`: the bytes are consumed and the object is valid, or it has
lost its block. -/
theorem Sound.beenRead_refused (h : b.Sound) {len : ℕ}
    (he : b.beenRead A len = .throw .badAlloc b') :
    (b' = b.advance len ∧ b'.WF ∧ b'.readable = b.readable.drop len) ∨
      (len ≠ 0 ∧ len = b.readableSize ∧ 4 * kInitialCapacity < b.capacity ∧
        A.new kInitialCapacity = none) := by
  rcases h.beenRead_cases (A := A) len with ⟨-, e⟩ | ⟨-, e⟩ | ⟨-, -, e⟩ | ⟨h0, hle, hsh⟩
  · rw [e] at he
    cases he
  · rw [e] at he
    cases he
  · rw [e] at he
    cases he
  · obtain ⟨hadv, hread, hsize⟩ := h.advance hle
    rw [he] at hsh
    cases hsh with
    | lost hz hcap hn => exact .inr ⟨h0, by omega, hcap, hn⟩
    | refused hne => exact .inl ⟨rfl, hadv.wf_of_readable hne, hread⟩

/-- The emptied buffer whose block is given back before the new one is refused. -/
theorem Sound.beenRead_lost (h : b.Sound) (h0 : b.readableSize ≠ 0)
    (hcap : 4 * kInitialCapacity < b.capacity) (hn : A.new kInitialCapacity = none) :
    b.beenRead A b.readableSize = .throw .badAlloc (b.advance b.readableSize).lost := by
  rcases h.beenRead_cases (A := A) b.readableSize with
    ⟨hlt, -⟩ | ⟨hz, -⟩ | ⟨-, hlt, -⟩ | ⟨-, hle, hsh⟩
  · exact absurd hlt (lt_irrefl _)
  · exact absurd hz h0
  · exact absurd hlt (lt_irrefl _)
  · have hz : (b.advance b.readableSize).readableSize = 0 := by
      rw [(h.advance hle).2.2, Nat.sub_self]
    have hcap' : ¬ (b.advance b.readableSize).capacity ≤ 4 * kInitialCapacity := by
      rw [capacity_advance]
      omega
    generalize b.beenRead A b.readableSize = r at hsh ⊢
    cases hsh with
    | clear _ hsmall => exact absurd hsmall hcap'
    | lost => rfl
    | fresh _ _ hnew =>
      rw [hn] at hnew
      cases hnew
    | keep hne | refused hne | moved hne => exact absurd hz hne

/-! ### The result -/

/-- A refused request that spares the block leaves a usable object. -/
theorem Sound.usable_of_refused (h : b.Sound) {c : Call} (hc : c.size < 2 ^ 64)
    (hs : c.Spares A b) (he : c.exec A b = .throw .badAlloc b') :
    b'.Usable (c.leaves b.readable) := by
  cases c with
  | beenWritten len => exact absurd he (beenWritten_ne_badAlloc len)
  | store off bs => exact absurd he (store_ne_badAlloc off bs)
  | op o =>
    cases o with
    | append data =>
      obtain ⟨rfl, hwf⟩ := h.append_refused hc he
      exact hwf.usable
    | ensureWritableSize len =>
      obtain ⟨rfl, hwf⟩ := h.ensureWritableSize_refused hc he
      exact hwf.usable
    | fill bs => exact absurd he (fill_ne_badAlloc bs)
    | beenRead len =>
      rcases h.beenRead_refused he with ⟨rfl, hwf, hread⟩ | ⟨h0, hlen, hlost⟩
      · have husable := hwf.usable
        rwa [hread] at husable
      · exact absurd ⟨by simpa [Call.drains] using ⟨hlen, h0⟩, hlost⟩ hs
    | beenReadAll =>
      rcases h.beenRead_refused he with ⟨rfl, hwf, hread⟩ | ⟨h0, -, hlost⟩
      · -- with nothing left to read, no request is refused
        have hsize := (h.advance (le_refl b.readableSize)).2.2
        rw [Nat.sub_self] at hsize
        have husable := hwf.usable
        rwa [readable_eq_nil hsize] at husable
      · exact absurd ⟨by simpa [Call.drains] using h0, hlost⟩ hs
    | clear => cases he

theorem Sound.lost_of_not_spares (h : b.Sound) {c : Call} (hs : ¬ c.Spares A b) :
    c.exec A b = .throw .badAlloc (b.advance b.readableSize).lost := by
  obtain ⟨hd, hcap, hn⟩ := not_not.1 hs
  cases c with
  | beenWritten | store => cases hd
  | op o =>
    cases o with
    | append | ensureWritableSize | fill | clear => cases hd
    | beenRead len =>
      obtain ⟨rfl, h0⟩ := of_decide_eq_true hd
      exact h.beenRead_lost h0 hcap hn
    | beenReadAll => exact h.beenRead_lost (of_decide_eq_true hd) hcap hn

/-- **A failed allocation leaves a usable buffer, except one.**  Every object that a program can
have as long as no emptied buffer loses its block is valid, and for every call on it: if an
allocation in the call fails, the object is left with a live block of exactly `capacity_` bytes,
ordered indices and the readable bytes of before, less those consumed, exactly if the call does not
consume all readable bytes of a buffer of more than `4 * kInitialCapacity` bytes with no memory for
a smaller block. -/
theorem alloc_failure_iff (h : Reach b) {c : Call} (hc : c.size < 2 ^ 64) :
    b.Sound ∧ ((∀ b', c.exec A b = .throw .badAlloc b' → b'.Usable (c.leaves b.readable)) ↔
      c.Spares A b) := by
  have hb := h.sound
  refine ⟨hb, fun hu => ?_, fun hs b' he => hb.usable_of_refused hc hs he⟩
  by_contra hs
  obtain ⟨blk, hd, -⟩ := (hu _ (hb.lost_of_not_spares hs)).live
  cases hd

/-- `Buffer(40000)`, all of it written. -/
def filled : Buffer := ⟨.live ⟨40000, fun _ => 0⟩, 40000, 0, 40000⟩

theorem reach_filled : Reach filled := by
  have h₀ : Reach ⟨.live ⟨40000, fun _ => 0⟩, 0, 0, 40000⟩ :=
    .new (A := .zeroed) (n := 40000) (by simp [Buffer.new, Allocator.zeroed, kInitialCapacity])
  have hw := h₀.sound.writableSize_eq
  simp only at hw
  have h₁ := h₀.call (A := .zeroed) (c := .beenWritten 40000) fun hlost => by cases hlost.1
  rwa [Call.exec, beenWritten_of_le (by omega), SizeT.add_of_lt (by simp)] at h₁

theorem readableSize_filled : filled.readableSize = 40000 := reach_filled.sound.readableSize_eq

/-- No memory for the larger block: the buffer keeps the one it has. -/
theorem alloc_failure_iff_filled : ∃ b',
    (Call.op (.ensureWritableSize 1)).exec .exhausted filled = .throw .badAlloc b' ∧
      b'.Usable filled.readable := by
  have hs : (Call.op (.ensureWritableSize 1)).Spares .exhausted filled := fun h => by cases h.1
  have hw : filled.writableSize = 0 := reach_filled.sound.writableSize_eq
  obtain ⟨b', he⟩ : ∃ b', filled.ensureWritableSize .exhausted 1 = .throw .badAlloc b' := by
    have hg : growCapacity 64 40000 40001 = some (40000 * 2 ^ 1) :=
      Doubling.growCapacity ⟨by decide, by decide⟩ (by decide) (by decide)
    have hmakes := reach_filled.sound.makes (A := .exhausted) 1
    generalize filled.ensureWritableSize .exhausted 1 = r at hmakes ⊢
    cases hmakes with
    | fits hfits => omega
    | compacts _ _ hhead =>
      rw [hw] at hhead
      exact absurd hhead (by decide)
    | refused => exact ⟨_, rfl⟩
    | diverges _ hnone =>
      rw [readableSize_filled, SizeT.add_of_lt (by decide)] at hnone
      have hsome := hg.symm.trans hnone
      cases hsome
    | overrun hk hlt =>
      have hle := le_of_growCapacity hk
      rw [readableSize_filled, SizeT.add_of_lt (by decide)] at hle
      rw [readableSize_filled] at hlt
      omega
    | grows _ _ hnew => cases hnew
  exact ⟨b', he, (alloc_failure_iff reach_filled (by decide)).2.2 hs b' he⟩

/-- All bytes are consumed and there is no memory for the smaller block: the object has no block,
and its indices lie behind `capacity_`. -/
theorem alloc_failure_lost : Reach filled ∧ ∃ b',
    (Call.op .beenReadAll).exec .exhausted filled = .throw .badAlloc b' ∧
      b'.data = .dangling ∧ b'.capacity < b'.writeIndex ∧
      ¬ b'.Usable ((Call.op .beenReadAll).leaves filled.readable) := by
  have hr := readableSize_filled
  have hlost := reach_filled.sound.beenRead_lost (A := .exhausted) (by omega) (by decide) rfl
  refine ⟨reach_filled, _, hlost, rfl, by decide, fun hu => ?_⟩
  obtain ⟨blk, hd, -⟩ := hu.live
  cases hd

end Buffer

end CxpNet
