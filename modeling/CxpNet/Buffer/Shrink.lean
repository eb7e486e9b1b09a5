import CxpNet.Buffer.Spec

/-!
# Giving memory back

`shrink_if_needed_` is called by `been_read` after the read index has moved.  An empty buffer of
more than `4 * kInitialCapacity` bytes gets a new block of `kInitialCapacity` bytes; a buffer whose
block is idle by more than three quarters and by at least `kShrinkThreshold` bytes moves to one with
half as much room again as it uses.

* `Buffer.Shrunk` : what a call leaves when it returns;
* `Buffer.shrinkIfNeeded_shrunk` : every call on a buffer below `2 ^ 61` bytes computes without
  wrap-around and leaves that, or the allocator has refused.
-/

namespace CxpNet

namespace Buffer

variable {A : Allocator} {b b' : Buffer}

/-- The three products and sums of `shrink_if_needed_` are computed without wrap-around. -/
def NoWrap (b : Buffer) : Prop :=
  SizeT.mul (SizeT.sub b.capacity b.readableSize) 4 = (b.capacity - b.readableSize) * 4 ∧
    SizeT.mul b.capacity 3 = b.capacity * 3 ∧
    SizeT.add (max b.readableSize kInitialCapacity) (max b.readableSize kInitialCapacity / 2) =
      max b.readableSize kInitialCapacity + max b.readableSize kInitialCapacity / 2

/-- What a call of `shrink_if_needed_` that returns has made of `b`. -/
structure Shrunk (A : Allocator) (b b' : Buffer) : Prop where
  sound : b'.Sound
  readable : b'.readable = b.readable
  capacity_le : b'.capacity ≤ b.capacity
  /-- It asked for no memory and kept the block, or it has a new and smaller one. -/
  block : (b'.data = b.data ∧ b'.capacity = b.capacity ∧ ∀ A', b.shrinkIfNeeded A' = .done b') ∨
    (∃ blk, A.new b'.capacity = some blk ∧ b'.data = .live (blk.write 0 b.readable) ∧
      b'.capacity < b.capacity ∧ kInitialCapacity ≤ b'.capacity ∧
      b.readableSize ≤ b'.capacity)
  empty : b.readableSize = 0 →
    b'.readIndex = 0 ∧ b'.writeIndex = 0 ∧ b'.capacity ≤ 4 * kInitialCapacity
  /-- A second call changes nothing. -/
  again : ∀ A', b'.shrinkIfNeeded A' = .done b'

theorem Sound.sub_readableSize (h : b.Sound) :
    SizeT.sub b.capacity b.readableSize = b.capacity - b.readableSize := by
  have hr := h.readableSize_eq
  have h2 := h.write_le; have h3 := h.lt
  exact SizeT.sub_of_le (by omega) (by omega)

theorem Sound.noWrap (h : b.Sound) (hlt : b.capacity < 2 ^ 61) : b.NoWrap := by
  have hr := h.readableSize_eq
  have h2 := h.write_le
  have hI := kInitialCapacity_lt
  refine ⟨?_, SizeT.mul_of_lt (by omega), SizeT.add_of_lt (by omega)⟩
  rw [h.sub_readableSize]
  exact SizeT.mul_of_lt (by omega)

/-- The test of `shrink_if_needed_`, in plain arithmetic. -/
theorem NoWrap.busy_iff (hn : b.NoWrap) (h : b.Sound) :
    b.Busy ↔ (b.capacity - b.readableSize) * 4 ≤ b.capacity * 3 ∨
      b.capacity - b.readableSize < kShrinkThreshold := by
  rw [Busy, hn.1, hn.2.1, h.sub_readableSize]

/-! ### The outcomes -/

theorem shrunk_clear (h : b.Sound) (h0 : b.readableSize = 0)
    (hcap : b.capacity ≤ 4 * kInitialCapacity) : Shrunk A b b.clear where
  sound := h.clear
  readable := by rw [readable_clear, readable_eq_nil h0]
  capacity_le := le_refl _
  block := .inl ⟨rfl, rfl, fun _ => shrinkIfNeeded_clear h0 hcap⟩
  empty _ := ⟨rfl, rfl, hcap⟩
  again _ := shrinkIfNeeded_clear (readableSize_clear b) hcap

theorem shrunk_fresh {blk : Block} (h0 : b.readableSize = 0)
    (hcap : 4 * kInitialCapacity < b.capacity) (hn : A.new kInitialCapacity = some blk) :
    Shrunk A b ⟨.live blk, 0, 0, kInitialCapacity⟩ where
  sound := ⟨.inl ⟨blk, rfl, A.size_eq hn⟩, le_refl _, Nat.zero_le _, A.lt_of_new hn⟩
  readable := by
    rw [readable_eq_nil h0]
    exact readable_clear (b := ⟨.live blk, 0, 0, kInitialCapacity⟩)
  capacity_le := by simp only; omega
  block := by
    refine .inr ⟨blk, hn, by rw [readable_eq_nil h0, Block.write_nil], ?_, le_refl _, ?_⟩
    · simp only
      omega
    · omega
  empty _ := ⟨rfl, rfl, by simp only; omega⟩
  again _ := by
    refine shrinkIfNeeded_clear ?_ (by simp only; omega)
    exact readableSize_clear ⟨.live blk, 0, 0, kInitialCapacity⟩

theorem shrunk_keep (h : b.Sound) (h0 : b.readableSize ≠ 0) (hbusy : b.Busy) : Shrunk A b b where
  sound := h
  readable := rfl
  capacity_le := le_refl _
  block := .inl ⟨rfl, rfl, fun _ => shrinkIfNeeded_keep h0 hbusy⟩
  empty he := absurd he h0
  again _ := shrinkIfNeeded_keep h0 hbusy

/-- The new block is smaller: more than three quarters of the old one were idle, and the room of
one half more than is used comes to less than half of it. -/
theorem shrinkTarget_lt (h : b.WF) (hn : b.NoWrap) (hbusy : ¬ b.Busy) :
    b.shrinkTarget < b.capacity := by
  rw [hn.busy_iff h.sound, not_or] at hbusy
  obtain ⟨hratio, hidle⟩ := hbusy
  rw [h.shrinkTarget_eq]
  simp only [kShrinkThreshold, kInitialCapacity] at *
  omega

theorem shrunk_moved {blk : Block} (h : b.WF) (hn : b.NoWrap) (h0 : b.readableSize ≠ 0)
    (hlt : b.capacity < 2 ^ 61) (hbusy : ¬ b.Busy) (hnew : A.new b.shrinkTarget = some blk) :
    Shrunk A b
      ⟨.live (blk.write 0 b.readable), b.readableSize, 0, b.shrinkTarget⟩ := by
  have hlen := h.length_readable
  have hle := h.le_shrinkTarget
  have hsmaller := shrinkTarget_lt h hn hbusy
  obtain ⟨hwf, hread⟩ := WF.fresh b.readable (A.size_eq hnew) (by omega) (by omega)
    (A.lt_of_new hnew)
  rw [hlen] at hwf hread
  have hsize := hwf.readableSize_eq
  refine ⟨hwf.sound, hread, le_of_lt hsmaller, .inr ⟨blk, hnew, rfl, hsmaller, hle.2, hle.1⟩,
    fun he => absurd he h0, fun A' => ?_⟩
  -- half of what is used, or less than `kShrinkThreshold`, is idle now
  refine shrinkIfNeeded_keep (by simp only at hsize; omega) ?_
  rw [(hwf.sound.noWrap (lt_trans hsmaller hlt)).busy_iff hwf.sound, hsize]
  simp only [h.shrinkTarget_eq, kShrinkThreshold, kInitialCapacity]
  omega

/-- **Shrinking is sound, monotone and idempotent.**  In every valid buffer below `2 ^ 61` bytes,
`shrink_if_needed_` computes without wrap-around.  If it returns, it has kept the readable bytes and
not enlarged the block; if it has a new block, that is strictly smaller and holds at least
`kInitialCapacity` bytes and the readable ones; an empty buffer ends with both indices 0 and at most
`4 * kInitialCapacity` bytes; and a second call changes nothing.  Otherwise the allocator has
refused a request for fewer bytes than the buffer had. -/
theorem shrinkIfNeeded_shrunk (h : b.Sound) (hlt : b.capacity < 2 ^ 61) :
    b.NoWrap ∧ ((∃ b', b.shrinkIfNeeded A = .done b' ∧ Shrunk A b b') ∨
      ∃ b' n, b.shrinkIfNeeded A = .throw .badAlloc b' ∧ A.new n = none ∧ n < b.capacity) := by
  have hn := h.noWrap hlt
  refine ⟨hn, ?_⟩
  have hshrinks := h.shrinks (A := A)
  generalize b.shrinkIfNeeded A = r at hshrinks ⊢
  cases hshrinks with
  | clear h0 hcap => exact .inl ⟨_, rfl, shrunk_clear h h0 hcap⟩
  | lost _ hcap hnew => exact .inr ⟨_, _, rfl, hnew, by omega⟩
  | fresh h0 hcap hnew => exact .inl ⟨_, rfl, shrunk_fresh h0 hcap hnew⟩
  | keep h0 hbusy => exact .inl ⟨_, rfl, shrunk_keep h h0 hbusy⟩
  | refused h0 hbusy hnew =>
    exact .inr ⟨_, _, rfl, hnew, shrinkTarget_lt (h.wf_of_readable h0) hn hbusy⟩
  | moved h0 hbusy hnew =>
    exact .inl ⟨_, rfl, shrunk_moved (h.wf_of_readable h0) hn h0 hlt hbusy hnew⟩

/-- Bytes 300 to 400 of a block of 65536 are readable. -/
def mostlyIdle : Buffer := ⟨.live ⟨65536, fun _ => 0⟩, 400, 300, 65536⟩

theorem shrinkIfNeeded_shrunk_mostlyIdle : mostlyIdle.Sound ∧ mostlyIdle.capacity < 2 ^ 61 ∧
    ∃ b', mostlyIdle.shrinkIfNeeded .zeroed = .done b' ∧ Shrunk .zeroed mostlyIdle b' := by
  have hs : mostlyIdle.Sound := ⟨.inl ⟨_, rfl, rfl⟩, by decide, by decide, by decide⟩
  have hlt : mostlyIdle.capacity < 2 ^ 61 := by decide
  refine ⟨hs, hlt, ?_⟩
  rcases (shrinkIfNeeded_shrunk (A := .zeroed) hs hlt).2 with hdone | ⟨_, n, _, hnew, hn⟩
  · exact hdone
  · have hn' : n < 2 ^ 63 := lt_trans hn (by decide)
    exact absurd Allocator.zeroed_succeeds (not_succeeds_of_new hnew hn')

end Buffer

end CxpNet
