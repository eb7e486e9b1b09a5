import CxpNet.Buffer.Basic
import Mathlib.Tactic.NormNum
import Mathlib.Order.Lattice
import Mathlib.Logic.Function.Iterate
import Mathlib.Data.Nat.Find
import Mathlib.Tactic.Ring

/-!
# What the buffer operations do

`Buffer.WF` is the representation invariant: a live block of exactly `capacity_` bytes, not none of
them, and ordered indices; `Buffer.Sound` also allows a buffer without capacity.  What the two
functions that move the bytes do is said once, with every outcome: `Buffer.Shrinks` for
`shrink_if_needed_` and `Buffer.Makes` for `ensure_writable_size`.

For a well-formed buffer every operation either ends with `std::bad_alloc` (or never ends, if the
doubling loop wraps around), or leaves a well-formed buffer whose readable bytes are the expected
ones.  The lemmas are stated for every allocator, so that code that may run out of memory can use
them; they add that below `2 ^ 62` bytes an allocator that succeeds leaves no other outcome.
-/

namespace CxpNet

namespace Buffer

/-- The representation invariant. -/
structure WF (b : Buffer) : Prop where
  live : ∃ blk, b.data = .live blk ∧ blk.size = b.capacity
  read_le : b.readIndex ≤ b.writeIndex
  write_le : b.writeIndex ≤ b.capacity
  pos : 0 < b.capacity
  lt : b.capacity < 2 ^ 63

/-- The object is valid: ordered indices in a live block of exactly `capacity_` bytes, which may be
none, or no block at all, as in a buffer that was moved from. -/
structure Sound (b : Buffer) : Prop where
  block : (∃ blk, b.data = .live blk ∧ blk.size = b.capacity) ∨ (b.data = .null ∧ b.capacity = 0)
  read_le : b.readIndex ≤ b.writeIndex
  write_le : b.writeIndex ≤ b.capacity
  lt : b.capacity < 2 ^ 63

variable {A : Allocator} {b b' : Buffer}

theorem WF.sound (h : b.WF) : b.Sound := ⟨.inl h.live, h.read_le, h.write_le, h.lt⟩

namespace Sound

theorem wf (h : b.Sound) (hpos : 0 < b.capacity) : b.WF where
  live := h.block.resolve_right fun hnull => by omega
  read_le := h.read_le
  write_le := h.write_le
  pos := hpos
  lt := h.lt

theorem readableSize_eq (h : b.Sound) : b.readableSize = b.writeIndex - b.readIndex :=
  SizeT.sub_of_le h.read_le (by have := h.write_le; have := h.lt; omega)

theorem writableSize_eq (h : b.Sound) : b.writableSize = b.capacity - b.writeIndex :=
  SizeT.sub_of_le h.write_le (by have := h.lt; omega)

/-- A buffer without a single byte of capacity. -/
theorem sizes_of_zero (h : b.Sound) (h0 : b.capacity = 0) :
    b.readIndex = 0 ∧ b.writeIndex = 0 ∧ b.readableSize = 0 ∧ b.writableSize = 0 := by
  have hr := h.readableSize_eq
  have hw := h.writableSize_eq
  have h1 := h.read_le; have h2 := h.write_le
  omega

theorem wf_of_readable (h : b.Sound) (h0 : b.readableSize ≠ 0) : b.WF := by
  refine h.wf (Nat.pos_of_ne_zero fun hz => h0 ?_)
  exact (h.sizes_of_zero hz).2.2.1

theorem clear (h : b.Sound) : b.clear.Sound := ⟨h.block, le_refl _, Nat.zero_le _, h.lt⟩

end Sound

namespace WF

theorem readableSize_eq (h : b.WF) : b.readableSize = b.writeIndex - b.readIndex :=
  h.sound.readableSize_eq

theorem writableSize_eq (h : b.WF) : b.writableSize = b.capacity - b.writeIndex :=
  h.sound.writableSize_eq

theorem length_readable (h : b.WF) : b.readable.length = b.readableSize := by
  obtain ⟨blk, hd, -⟩ := h.live
  simp [readable, hd]

theorem readableSize_lt (h : b.WF) : b.readableSize < 2 ^ 63 := by
  have := h.readableSize_eq; have := h.write_le; have := h.lt; omega

theorem readable_eq_nil_iff (h : b.WF) : b.readable = [] ↔ b.readableSize = 0 := by
  rw [← h.length_readable, List.length_eq_zero_iff]

theorem clear (h : b.WF) : b.clear.WF := h.sound.clear.wf h.pos

end WF

theorem readable_of_live {blk : Block} (h : b.data = .live blk) :
    b.readable = blk.slice b.readIndex b.readableSize := by simp [readable, h]

theorem readable_eq_nil (h0 : b.readableSize = 0) : b.readable = [] := by
  rw [readable]
  split <;> simp [h0]

theorem readableSize_clear (b : Buffer) : b.clear.readableSize = 0 :=
  SizeT.sub_of_le (le_refl 0) (Nat.two_pow_pos 64)

@[simp] theorem readable_clear : b.clear.readable = [] := readable_eq_nil (readableSize_clear b)

/-- A fresh block of `cap` bytes that holds exactly `bs`. -/
theorem WF.fresh {blk : Block} {cap : ℕ} (bs : List UInt8) (hs : blk.size = cap)
    (hle : bs.length ≤ cap) (hpos : 0 < cap) (hlt : cap < 2 ^ 63) :
    (⟨.live (blk.write 0 bs), bs.length, 0, cap⟩ : Buffer).WF ∧
      (⟨.live (blk.write 0 bs), bs.length, 0, cap⟩ : Buffer).readable = bs := by
  have hwf : (⟨.live (blk.write 0 bs), bs.length, 0, cap⟩ : Buffer).WF :=
    ⟨⟨_, rfl, hs⟩, Nat.zero_le _, hle, hpos, hlt⟩
  refine ⟨hwf, ?_⟩
  rw [readable_of_live rfl, hwf.readableSize_eq]
  exact blk.slice_write_self 0 bs

/-! ### Raw memory -/

theorem Sound.load (h : b.Sound) : b.load b.readIndex b.readableSize = some b.readable := by
  rcases h.block with ⟨blk, hd, hs⟩ | ⟨hd, h0⟩
  · have hr := h.readableSize_eq
    have := h.read_le; have := h.write_le
    rw [readable_of_live hd]
    simp only [Buffer.load, hd]
    rw [if_pos (by omega)]
  · have hr := (h.sizes_of_zero h0).2.2.1
    rw [readable_eq_nil hr, hr]
    simp [Buffer.load, hd]

theorem WF.free (h : b.WF) : b.free = .done { b with data := .dangling } := by
  obtain ⟨blk, hd, -⟩ := h.live
  simp [Buffer.free, hd]

/-- Whatever there was to give back, the new block and its indices replace everything. -/
theorem Sound.free_andThen (h : b.Sound) (p : Ptr) (w r c : ℕ) :
    (b.free.andThen fun _ => .done ⟨p, w, r, c⟩) = .done ⟨p, w, r, c⟩ := by
  rcases h.block with ⟨blk, hd, -⟩ | ⟨hd, -⟩
  · simp [Buffer.free, hd]
  · simp [Buffer.free, hd]

theorem beenWritten_of_le {len : ℕ} (h : len ≤ b.writableSize) :
    b.beenWritten len = .done { b with writeIndex := SizeT.add b.writeIndex len } := by
  unfold beenWritten
  rw [if_neg (by omega)]

/-- Bytes stored behind the write index and reported become readable at the back. -/
theorem WF.fill (h : b.WF) {bs : List UInt8} (hle : bs.length ≤ b.writableSize) :
    ∃ b', b.fill bs = .done b' ∧ b'.WF ∧ b'.readable = b.readable ++ bs := by
  obtain ⟨blk, hd, hs⟩ := h.live
  have hw := h.writableSize_eq
  have hr := h.readableSize_eq
  have h1 := h.read_le; have h2 := h.write_le; have h3 := h.lt
  have hadd : SizeT.add b.writeIndex bs.length = b.writeIndex + bs.length :=
    SizeT.add_of_lt (by omega)
  have hwf : (⟨.live (blk.write b.writeIndex bs), b.writeIndex + bs.length, b.readIndex,
      b.capacity⟩ : Buffer).WF :=
    ⟨⟨_, rfl, hs⟩, by simp only; omega, by simp only; omega, h.pos, h.lt⟩
  refine ⟨_, ?_, hwf, ?_⟩
  · simp only [Buffer.fill, store, hd]
    rw [if_pos (by omega), Res.andThen_done]
    have e := beenWritten_of_le
      (b := ⟨.live (blk.write b.writeIndex bs), b.writeIndex, b.readIndex, b.capacity⟩) hle
    rw [hadd] at e
    exact e
  · have hlen : b.writeIndex + bs.length - b.readIndex = b.readableSize + bs.length := by omega
    have hoff : b.readIndex + b.readableSize = b.writeIndex := by omega
    rw [readable_of_live rfl, readable_of_live hd, hwf.readableSize_eq]
    simp only
    rw [hlen, Block.slice_add, hoff, Block.slice_write_self,
      Block.slice_write_of_disjoint _ _ _ _ _ (by omega)]

/-! ### `shrink_if_needed_` and `been_read` -/

theorem kInitialCapacity_pos : 0 < kInitialCapacity := by norm_num [kInitialCapacity]

theorem kInitialCapacity_lt : kInitialCapacity < 2 ^ 62 := by norm_num [kInitialCapacity]

/-- What may come of a read: all goes well and `bs` stays readable, or the allocator refused. -/
def ReadOutcome (A : Allocator) (bs : List UInt8) (r : Res) : Prop :=
  (∃ b', r = .done b' ∧ b'.WF ∧ b'.readable = bs) ∨
    ((∃ b', r = .throw .badAlloc b') ∧ (A.Succeeds → 2 ^ 62 ≤ bs.length))

/-- An allocator that succeeds does not refuse a request that fits. -/
theorem not_succeeds_of_new {n : ℕ} (hn : A.new n = none) (h : n < 2 ^ 63) : ¬ A.Succeeds := by
  intro hA
  obtain ⟨blk, hb⟩ := hA n h
  rw [hn] at hb
  cases hb

/-- The capacity that `shrink_if_needed_` asks for when bytes are readable. -/
def shrinkTarget (b : Buffer) : ℕ :=
  SizeT.add (max b.readableSize kInitialCapacity) (max b.readableSize kInitialCapacity / 2)

/-- Too little of the block is idle for `shrink_if_needed_` to give it back. -/
def Busy (b : Buffer) : Prop :=
  SizeT.mul (SizeT.sub b.capacity b.readableSize) 4 ≤ SizeT.mul b.capacity 3 ∨
    SizeT.sub b.capacity b.readableSize < kShrinkThreshold

theorem mul_kInitialCapacity : SizeT.mul kInitialCapacity 4 = 4 * kInitialCapacity := by
  rw [SizeT.mul_of_lt (by norm_num [kInitialCapacity]), Nat.mul_comm]

theorem shrinkIfNeeded_clear (h0 : b.readableSize = 0) (hcap : b.capacity ≤ 4 * kInitialCapacity) :
    b.shrinkIfNeeded A = .done b.clear := by
  unfold shrinkIfNeeded
  simp only [h0, ↓reduceIte]
  rw [mul_kInitialCapacity, if_neg (by omega)]

theorem shrinkIfNeeded_keep (h0 : b.readableSize ≠ 0) (hbusy : b.Busy) :
    b.shrinkIfNeeded A = .done b := by
  unfold shrinkIfNeeded
  simp only [h0, ↓reduceIte]
  exact if_pos hbusy

/-- **What `shrink_if_needed_` does** to a well-formed buffer. -/
inductive Shrinks (A : Allocator) (b : Buffer) : Res → Prop
  /-- Nothing is readable and the block is small: the indices go back. -/
  | clear : b.readableSize = 0 → b.capacity ≤ 4 * kInitialCapacity → Shrinks A b (.done b.clear)
  /-- Nothing is readable and the block is large: it is replaced, the old one given back first. -/
  | lost : b.readableSize = 0 → 4 * kInitialCapacity < b.capacity →
      A.new kInitialCapacity = none →
      Shrinks A b (.throw .badAlloc { b with data := .dangling, capacity := kInitialCapacity })
  | fresh {blk : Block} : b.readableSize = 0 → 4 * kInitialCapacity < b.capacity →
      A.new kInitialCapacity = some blk → Shrinks A b (.done ⟨.live blk, 0, 0, kInitialCapacity⟩)
  /-- Bytes are readable and little is idle. -/
  | keep : b.readableSize ≠ 0 → b.Busy → Shrinks A b (.done b)
  /-- Bytes are readable and much is idle: they move to a smaller block, requested first. -/
  | refused : b.readableSize ≠ 0 → ¬ b.Busy → A.new b.shrinkTarget = none →
      Shrinks A b (.throw .badAlloc b)
  | moved {blk : Block} : b.readableSize ≠ 0 → ¬ b.Busy → A.new b.shrinkTarget = some blk →
      Shrinks A b (.done ⟨.live (blk.write 0 b.readable), b.readableSize, 0, b.shrinkTarget⟩)

theorem WF.shrinkTarget_eq (h : b.WF) :
    b.shrinkTarget = max b.readableSize kInitialCapacity +
      max b.readableSize kInitialCapacity / 2 := by
  have hlt := h.readableSize_lt
  have hI := kInitialCapacity_lt
  exact SizeT.add_of_lt (by omega)

theorem WF.le_shrinkTarget (h : b.WF) :
    b.readableSize ≤ b.shrinkTarget ∧ kInitialCapacity ≤ b.shrinkTarget := by
  rw [h.shrinkTarget_eq]
  omega

theorem WF.shrinks (h : b.WF) : Shrinks A b (b.shrinkIfNeeded A) := by
  by_cases h0 : b.readableSize = 0
  · by_cases hcap : b.capacity ≤ 4 * kInitialCapacity
    · rw [shrinkIfNeeded_clear h0 hcap]
      exact .clear h0 hcap
    · unfold shrinkIfNeeded
      simp only [h0, ↓reduceIte]
      rw [mul_kInitialCapacity, if_pos (by omega), h.free, Res.andThen_done]
      cases hn : A.new kInitialCapacity with
      | none => exact .lost h0 (by omega) hn
      | some blk => exact .fresh h0 (by omega) hn
  · by_cases hbusy : b.Busy
    · rw [shrinkIfNeeded_keep h0 hbusy]
      exact .keep h0 hbusy
    · have hle := h.le_shrinkTarget
      unfold shrinkIfNeeded
      simp only [h0, ↓reduceIte, h.sound.load]
      rw [if_neg (show ¬ (_ ∨ _) from hbusy), ← shrinkTarget]
      cases hn : A.new b.shrinkTarget with
      | none => exact .refused h0 hbusy hn
      | some blk =>
        simp only
        rw [if_neg (by omega), h.free, Res.andThen_done]
        exact .moved h0 hbusy hn

theorem Sound.shrinks (h : b.Sound) : Shrinks A b (b.shrinkIfNeeded A) := by
  rcases Nat.eq_zero_or_pos b.capacity with h0 | hpos
  · have hr := (h.sizes_of_zero h0).2.2.1
    rw [shrinkIfNeeded_clear hr (by omega)]
    exact .clear hr (by omega)
  · exact (h.wf hpos).shrinks

theorem Shrinks.outcome {r : Res} (hs : Shrinks A b r) (h : b.WF) : ReadOutcome A b.readable r := by
  have hlen := h.length_readable
  have hlt := h.readableSize_lt
  have hI := kInitialCapacity_lt
  have hle := h.le_shrinkTarget
  cases hs with
  | clear h0 =>
    rw [h.readable_eq_nil_iff.2 h0]
    exact .inl ⟨_, rfl, h.clear, readable_clear⟩
  | lost h0 hcap hn =>
    exact .inr ⟨⟨_, rfl⟩, fun hA => absurd hA (not_succeeds_of_new hn (by omega))⟩
  | @fresh blk h0 hcap hn =>
    rw [h.readable_eq_nil_iff.2 h0]
    refine .inl ⟨_, rfl, ?_, readable_clear (b := ⟨.live blk, 0, 0, kInitialCapacity⟩)⟩
    exact ⟨⟨blk, rfl, A.size_eq hn⟩, le_refl _, Nat.zero_le _, kInitialCapacity_pos,
      lt_trans hI (by norm_num)⟩
  | keep => exact .inl ⟨b, rfl, h, rfl⟩
  | refused h0 hbusy hn =>
    refine .inr ⟨⟨_, rfl⟩, fun hA => ?_⟩
    by_contra hsmall
    have hT := h.shrinkTarget_eq
    exact not_succeeds_of_new hn (by omega) hA
  | moved h0 hbusy hn =>
    obtain ⟨hwf, hread⟩ := WF.fresh b.readable (A.size_eq hn) (by omega) (by omega)
      (A.lt_of_new hn)
    rw [hlen] at hwf hread
    exact .inl ⟨_, rfl, hwf, hread⟩

/-- The object after the read index has moved forward by `len`. -/
def advance (len : ℕ) (b : Buffer) : Buffer := { b with readIndex := b.readIndex + len }

@[simp] theorem capacity_advance (len : ℕ) (b : Buffer) :
    (b.advance len).capacity = b.capacity := rfl

/-- Moving the read index forward by `len` drops `len` bytes from the front. -/
theorem Sound.advance (h : b.Sound) {len : ℕ} (hle : len ≤ b.readableSize) :
    (b.advance len).Sound ∧ (b.advance len).readable = b.readable.drop len ∧
      (b.advance len).readableSize = b.readableSize - len := by
  have hr := h.readableSize_eq
  have h1 := h.read_le
  have hs : (b.advance len).Sound :=
    ⟨h.block, by simp only [Buffer.advance]; omega, h.write_le, h.lt⟩
  have hsize : (b.advance len).readableSize = b.readableSize - len := by
    have e := hs.readableSize_eq
    simp only [Buffer.advance] at e ⊢
    omega
  refine ⟨hs, ?_, hsize⟩
  rcases h.block with ⟨blk, hd, -⟩ | ⟨hd, h0⟩
  · rw [readable_of_live hd, ← Block.slice_drop _ _ _ _ hle, ← hsize]
    exact readable_of_live hd
  · have hr0 := (h.sizes_of_zero h0).2.2.1
    rw [readable_eq_nil (hs.sizes_of_zero h0).2.2.1, readable_eq_nil hr0, List.drop_nil]

/-- **What `been_read(len)` does** to a valid buffer. -/
theorem Sound.beenRead_cases (h : b.Sound) (len : ℕ) :
    (b.readableSize < len ∧
        b.beenRead A len = .throw (.ensure "been_read: len exceeds readable size") b) ∨
      (len = 0 ∧ b.beenRead A len = .done b) ∨
      (len ≠ 0 ∧ len < b.readableSize ∧ b.beenRead A len = .done (b.advance len)) ∨
      (len ≠ 0 ∧ len ≤ b.readableSize ∧ Shrinks A (b.advance len) (b.beenRead A len)) := by
  have hr := h.readableSize_eq
  have h1 := h.read_le; have h2 := h.write_le; have h3 := h.lt
  unfold beenRead
  by_cases hle : b.readableSize < len
  · rw [if_pos hle]
    exact .inl ⟨hle, rfl⟩
  have hadv := (h.advance (show len ≤ b.readableSize by omega)).1
  rw [if_neg hle]
  by_cases h0 : len = 0
  · rw [if_pos h0]
    exact .inr (.inl ⟨h0, rfl⟩)
  rw [if_neg h0]
  by_cases hall : len = b.readableSize
  · have hidx : b.advance len = { b with readIndex := b.writeIndex } := by
      simp only [Buffer.advance]
      rw [show b.readIndex + len = b.writeIndex by omega]
    rw [if_pos hall, ← hidx]
    exact .inr (.inr (.inr ⟨h0, by omega, hadv.shrinks⟩))
  · rw [if_neg hall, SizeT.add_of_lt (by omega)]
    simp only
    by_cases hhalf : b.capacity / 2 ≤ b.readIndex + len
    · rw [if_pos hhalf]
      exact .inr (.inr (.inr ⟨h0, by omega, hadv.shrinks⟩))
    · rw [if_neg hhalf]
      exact .inr (.inr (.inl ⟨h0, by omega, rfl⟩))

/-- **`been_read`** drops `len` bytes from the front, or the allocator refused. -/
theorem beenRead_outcome (h : b.WF) {len : ℕ} (hle : len ≤ b.readableSize) :
    ReadOutcome A (b.readable.drop len) (b.beenRead A len) := by
  obtain ⟨hs, hread, -⟩ := h.sound.advance hle
  have hwf : (b.advance len).WF := hs.wf h.pos
  rcases h.sound.beenRead_cases (A := A) len with ⟨hlt, -⟩ | ⟨rfl, e⟩ | ⟨-, -, e⟩ | ⟨-, -, hsh⟩
  · omega
  · rw [e]
    exact .inl ⟨b, rfl, h, by simp⟩
  · rw [e]
    exact .inl ⟨_, rfl, hwf, hread⟩
  · rw [← hread]
    exact hsh.outcome hwf

/-! ### `ensure_writable_size` and `append` -/

/-- `n` doublings of a capacity. -/
theorem iterate_double (n c : ℕ) :
    (fun x => SizeT.mul x 2)^[n + 1] c = c * 2 ^ (n + 1) % 2 ^ 64 := by
  induction n with
  | zero => simp [SizeT.mul, SizeT.modulus]
  | succ n ih =>
    rw [Function.iterate_succ_apply', ih, SizeT.mul, SizeT.modulus, Nat.mod_mul_mod, Nat.mul_assoc,
      ← Nat.pow_succ]

theorem growCapacity_add {n c r : ℕ} (m : ℕ) (h : growCapacity n c r = none) :
    growCapacity (n + m) c r = growCapacity m ((fun x => SizeT.mul x 2)^[n] c) r := by
  induction n generalizing c with
  | zero => rw [Nat.zero_add, Function.iterate_zero_apply]
  | succ n ih =>
    simp only [growCapacity] at h
    split_ifs at h with hc
    rw [Nat.add_right_comm, growCapacity, if_pos hc, ih h, Function.iterate_succ_apply]

/-- **64 rounds decide the doubling loop**: one that has not ended by then never ends. -/
theorem growCapacity_fuel {c r : ℕ} (m : ℕ) (h : growCapacity 64 c r = none) :
    growCapacity (64 + m) c r = none := by
  have hr : 0 < r := by
    by_contra hr
    have h0 : ¬ c < r := by omega
    rw [growCapacity, if_neg h0] at h
    cases h
  rw [growCapacity_add m h, iterate_double 63, Nat.mul_mod_left]
  induction m with
  | zero => rw [growCapacity, if_pos hr]
  | succ m ih => rw [growCapacity, if_pos hr, SizeT.mul, Nat.zero_mul, Nat.zero_mod]; exact ih

theorem le_of_growCapacity {n c r k : ℕ} (h : growCapacity n c r = some k) : r ≤ k := by
  induction n generalizing c with
  | zero =>
    simp only [growCapacity] at h
    split_ifs at h with hc
    cases h
    omega
  | succ n ih =>
    simp only [growCapacity] at h
    split_ifs at h with hc
    · exact ih h
    · cases h
      omega

/-- On unbounded numbers, the loop that doubles `c` up to `r` would go through `n` rounds. -/
structure Doubling (c r n : ℕ) : Prop where
  rounds : ∀ i < n, c * 2 ^ i < r
  enough : r ≤ c * 2 ^ n

namespace Doubling

variable {c r n : ℕ}

theorem exists_of_pos (hc : 0 < c) (r : ℕ) : ∃ n, Doubling c r n := by
  have hex : ∃ n, r ≤ c * 2 ^ n :=
    ⟨r, le_trans (le_of_lt r.lt_two_pow_self) (Nat.le_mul_of_pos_left _ hc)⟩
  refine ⟨Nat.find hex, fun i hi => ?_, Nat.find_spec hex⟩
  exact Nat.lt_of_not_le (Nat.find_min hex hi)

/-- The last round doubles less than the requirement. -/
theorem lt_two_mul (h : Doubling c r n) : c * 2 ^ n = c ∨ c * 2 ^ n < 2 * r := by
  cases n with
  | zero => exact .inl (by simp)
  | succ n =>
    have hlast := h.rounds n (Nat.lt_succ_self n)
    have e : c * 2 ^ (n + 1) = 2 * (c * 2 ^ n) := by rw [Nat.pow_succ]; ring
    exact .inr (by omega)

theorem le_64 (h : Doubling c r n) (hc : 0 < c) (hr : r ≤ 2 ^ 63) : n ≤ 64 := by
  by_contra hn
  have hlast := h.rounds 63 (by omega)
  have hle : 2 ^ 63 ≤ c * 2 ^ 63 := Nat.le_mul_of_pos_left _ hc
  omega

/-- Up to `2 ^ 63` the loop on `size_t` goes through the same rounds. -/
theorem growCapacity (h : Doubling c r n) (hr : r ≤ 2 ^ 63) {m : ℕ} (hm : n ≤ m) :
    Buffer.growCapacity m c r = some (c * 2 ^ n) := by
  induction n generalizing c m with
  | zero =>
    have hc : ¬ c < r := by simpa using h.enough
    cases m with
    | zero => simp [Buffer.growCapacity, hc]
    | succ m => simp [Buffer.growCapacity, hc]
  | succ n ih =>
    obtain ⟨m, rfl⟩ : ∃ k, m = k + 1 := ⟨m - 1, by omega⟩
    have hc : c < r := by simpa using h.rounds 0 (Nat.succ_pos n)
    have e : ∀ i, c * 2 * 2 ^ i = c * 2 ^ (i + 1) := fun i => by rw [Nat.pow_succ']; ring
    have hnext : Doubling (c * 2) r n := by
      refine ⟨fun i hi => ?_, ?_⟩
      · rw [e]
        exact h.rounds (i + 1) (by omega)
      · rw [e]
        exact h.enough
    rw [Buffer.growCapacity, if_pos hc, SizeT.mul_of_lt (by omega), ← e]
    exact ih hnext (by omega)

end Doubling

/-- The doubling from a well-formed buffer: it ends at or above the requirement, and below
`2 ^ 62` it does end, within the size of an object. -/
theorem WF.grow (h : b.WF) (len : ℕ) :
    (∀ k, growCapacity 64 b.capacity (b.readableSize + len) = some k → b.readableSize + len ≤ k) ∧
      (b.readableSize + len ≤ 2 ^ 62 →
        ∃ k, growCapacity 64 b.capacity (b.readableSize + len) = some k ∧ k < 2 ^ 63) := by
  refine ⟨fun k hk => le_of_growCapacity hk, fun hsmall => ?_⟩
  obtain ⟨n, hn⟩ := Doubling.exists_of_pos h.pos (b.readableSize + len)
  have hr : b.readableSize + len ≤ 2 ^ 63 := by omega
  refine ⟨_, hn.growCapacity hr (hn.le_64 h.pos hr), ?_⟩
  have hlt := h.lt
  rcases hn.lt_two_mul with hk | hk
  · omega
  · omega

/-- **What `ensure_writable_size(len)` does** to a valid buffer. -/
inductive Makes (A : Allocator) (b : Buffer) (len : ℕ) : Res → Prop
  /-- There is room behind the readable bytes. -/
  | fits : len ≤ b.writableSize → Makes A b len (.done b)
  /-- There is room if the readable bytes move to the front. -/
  | compacts {blk : Block} : b.data = .live blk → ¬ len ≤ b.writableSize →
      len ≤ b.readIndex + b.writableSize →
      Makes A b len (.done ⟨.live (blk.write 0 b.readable), b.readableSize, 0, b.capacity⟩)
  | diverges : b.readIndex + b.writableSize < len →
      growCapacity 64 b.capacity (SizeT.add b.readableSize len) = none →
      Makes A b len (.throw .diverges b)
  | refused {k : ℕ} : b.readIndex + b.writableSize < len →
      growCapacity 64 b.capacity (SizeT.add b.readableSize len) = some k → A.new k = none →
      Makes A b len (.throw .badAlloc b)
  /-- The sum of the sizes has wrapped around. -/
  | overrun {k : ℕ} : growCapacity 64 b.capacity (SizeT.add b.readableSize len) = some k →
      k < b.readableSize → Makes A b len (.throw .outOfBounds b)
  /-- The readable bytes move to a larger block, requested first. -/
  | grows {k : ℕ} {blk : Block} : b.readIndex + b.writableSize < len →
      growCapacity 64 b.capacity (SizeT.add b.readableSize len) = some k → A.new k = some blk →
      b.readableSize ≤ k →
      Makes A b len (.done ⟨.live (blk.write 0 b.readable), b.readableSize, 0, k⟩)

/-- The buffer compacted in place. -/
theorem WF.compacted {blk : Block} (h : b.WF) (hd : b.data = .live blk) :
    (⟨.live (blk.write 0 b.readable), b.readableSize, 0, b.capacity⟩ : Buffer).WF ∧
      (⟨.live (blk.write 0 b.readable), b.readableSize, 0, b.capacity⟩ : Buffer).readable =
        b.readable := by
  obtain ⟨blk', hd', hs⟩ := h.live
  obtain rfl : blk' = blk := by rw [hd] at hd'; cases hd'; rfl
  have hlen := h.length_readable
  have hr := h.readableSize_eq
  have h2 := h.write_le
  have hfresh := WF.fresh b.readable hs (by omega) h.pos h.lt
  rwa [hlen] at hfresh

theorem Sound.makes (h : b.Sound) (len : ℕ) : Makes A b len (b.ensureWritableSize A len) := by
  have hr := h.readableSize_eq
  have hw := h.writableSize_eq
  have h1 := h.read_le; have h2 := h.write_le; have h3 := h.lt
  unfold ensureWritableSize
  simp only [h.load]
  by_cases htail : len ≤ b.writableSize
  · rw [if_pos htail]
    exact .fits htail
  rw [if_neg htail, SizeT.add_of_lt (show b.readIndex + b.writableSize < 2 ^ 64 by omega)]
  by_cases hhead : len ≤ b.readIndex + b.writableSize
  · have hwf := h.wf (by omega)
    have hlen := hwf.length_readable
    obtain ⟨blk, hd, hs⟩ := hwf.live
    rw [if_pos hhead]
    simp only [store, hd]
    rw [if_pos (by omega), Res.andThen_done]
    exact .compacts hd htail hhead
  rw [if_neg hhead]
  generalize hg : growCapacity 64 b.capacity (SizeT.add b.readableSize len) = g
  cases g with
  | none => exact .diverges (by omega) hg
  | some k =>
    simp only
    cases hn : A.new k with
    | none => exact .refused (by omega) hg hn
    | some blk =>
      simp only
      by_cases hk : k < b.readableSize
      · rw [if_pos hk]
        exact .overrun hg hk
      · rw [if_neg hk, h.free_andThen]
        exact .grows (by omega) hg hn (by omega)

/-- A request for space that is met keeps the contents and does not shrink the block. -/
theorem WF.of_makes_done (h : b.WF) {len : ℕ} (hlt : b.readableSize + len < 2 ^ 64)
    (hm : Makes A b len (.done b')) :
    b'.WF ∧ b'.readable = b.readable ∧ len ≤ b'.writableSize ∧ b.capacity ≤ b'.capacity := by
  have hr := h.readableSize_eq
  have hw := h.writableSize_eq
  have hlen := h.length_readable
  have h1 := h.read_le; have h2 := h.write_le
  cases hm with
  | fits htail => exact ⟨h, rfl, htail, le_refl _⟩
  | compacts hd _ hhead =>
    obtain ⟨hwf, hread⟩ := h.compacted hd
    refine ⟨hwf, hread, ?_, le_refl _⟩
    rw [hwf.writableSize_eq]
    simp only
    omega
  | @grows k blk hmore hg hn hk =>
    rw [SizeT.add_of_lt hlt] at hg
    have hroom := le_of_growCapacity hg
    obtain ⟨hwf, hread⟩ := WF.fresh b.readable (A.size_eq hn) (by omega) (by omega)
      (A.lt_of_new hn)
    rw [hlen] at hwf hread
    refine ⟨hwf, hread, ?_, by simp only; omega⟩
    rw [hwf.writableSize_eq]
    simp only
    omega

/-- What may come of a request for space: the contents are unchanged and `len` bytes can be
written, or the buffer is unchanged because the allocator refused or the doubling never ends. -/
def SpaceOutcome (A : Allocator) (b : Buffer) (len : ℕ) (r : Res) : Prop :=
  (∃ b', r = .done b' ∧ b'.WF ∧ b'.readable = b.readable ∧ len ≤ b'.writableSize) ∨
    ((r = .throw .badAlloc b ∨ r = .throw .diverges b) ∧
      (A.Succeeds → 2 ^ 62 < b.readable.length + len))

/-- **`ensure_writable_size`** keeps the contents and makes room, or reports that it cannot. -/
theorem ensureWritableSize_outcome (h : b.WF) {len : ℕ} (hlt : len < 2 ^ 63) :
    SpaceOutcome A b len (b.ensureWritableSize A len) := by
  have hsize := h.readableSize_lt
  have hlen := h.length_readable
  have hadd : SizeT.add b.readableSize len = b.readableSize + len := SizeT.add_of_lt (by omega)
  have hmakes := h.sound.makes (A := A) len
  generalize b.ensureWritableSize A len = r at hmakes ⊢
  cases r with
  | done b' =>
    obtain ⟨hwf, hread, hroom, -⟩ := h.of_makes_done (by omega) hmakes
    exact .inl ⟨b', rfl, hwf, hread, hroom⟩
  | throw f b' =>
    cases hmakes with
    | diverges _ hg =>
      rw [hadd] at hg
      refine .inr ⟨.inr rfl, fun _ => ?_⟩
      by_contra hsmall
      -- below 2^62 the doubling ends
      obtain ⟨k, hk, -⟩ := (h.grow len).2 (by omega)
      rw [hg] at hk
      cases hk
    | refused _ hg hn =>
      rw [hadd] at hg
      refine .inr ⟨.inl rfl, fun hA => ?_⟩
      by_contra hsmall
      obtain ⟨k, hk, hbound⟩ := (h.grow len).2 (by omega)
      rw [hg] at hk
      cases hk
      exact not_succeeds_of_new hn hbound hA
    | overrun hg hk =>
      rw [hadd] at hg
      -- the sum of the sizes has not wrapped around, so the new block is large enough
      have := (h.grow len).1 _ hg
      omega

/-- **`append`** puts the bytes at the back, or the buffer is unchanged because the allocator
refused or the doubling never ends. -/
theorem append_outcome (h : b.WF) {data : List UInt8} (h0 : data ≠ [])
    (hlt : data.length < 2 ^ 63) :
    (∃ b', b.append A data = .done b' ∧ b'.WF ∧ b'.readable = b.readable ++ data) ∨
      ((b.append A data = .throw .badAlloc b ∨ b.append A data = .throw .diverges b) ∧
        (A.Succeeds → 2 ^ 62 < b.readable.length + data.length)) := by
  have hpos : data.length ≠ 0 := by simpa using h0
  unfold append
  rw [if_neg hpos]
  rcases ensureWritableSize_outcome (A := A) h hlt with ⟨b', he, hwf, hread, hroom⟩ | ⟨he, hbig⟩
  · obtain ⟨b'', hf, hwf', hread'⟩ := hwf.fill hroom
    left
    rw [he, Res.andThen_done]
    exact ⟨b'', hf, hwf', by rw [hread', hread]⟩
  · right
    refine ⟨?_, hbig⟩
    rcases he with he | he
    · exact .inl (by rw [he]; rfl)
    · exact .inr (by rw [he]; rfl)

end Buffer

end CxpNet
