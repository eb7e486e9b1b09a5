import CxpNet.Buffer.Failure
import CxpNet.Conn.Step

/-!
# Growing a buffer

`ensure_writable_size` finds the new capacity by doubling the old one until it is large enough.
`append` calls it, and so does `handle_read_event_` when the read buffer is full.  The doubling ends
if there is something to double: up to a requirement of `2 ^ 63` bytes it goes through the same
rounds as on unbounded numbers (`Buffer.Doubling`).  A buffer of capacity 0, as `Buffer(data, 0)`
makes one and a move leaves one behind, is doubled forever.

`Conn.growth_ends_iff` : for every object that a program can have and every requirement up to
`2 ^ 63`, growing ends exactly if the capacity is not 0 or nothing is asked for.
-/

namespace CxpNet

namespace Conn

open Buffer

variable {A : Allocator} {b b' : Buffer}

/-- The request for a block of the doubled capacity was refused, and the buffer is as before. -/
def OutOfMemory (A : Allocator) (b : Buffer) (len : ℕ) (r : Res) : Prop :=
  r = .throw .badAlloc b ∧
    ∃ n, Doubling b.capacity (b.readableSize + len) n ∧ A.new (b.capacity * 2 ^ n) = none

/-- Growing `b` for `len` bytes ends. -/
structure Grows (A : Allocator) (b : Buffer) (len : ℕ) : Prop where
  /-- The loop of `ensure_writable_size` ends after `n` rounds, without wrap-around. -/
  loop : ∃ n, Doubling b.capacity (b.readableSize + len) n ∧ b.capacity * 2 ^ n < 2 ^ 64 ∧
    growCapacity n b.capacity (b.readableSize + len) = some (b.capacity * 2 ^ n)
  /-- `ensure_writable_size(len)` makes room. -/
  space : (∃ b', b.ensureWritableSize A len = .done b' ∧ len ≤ b'.writableSize ∧
      b.capacity ≤ b'.capacity) ∨ OutOfMemory A b len (b.ensureWritableSize A len)
  /-- `append` of `len` bytes puts them at the back. -/
  append : ∀ data : List UInt8, data ≠ [] → data.length = len →
    (∃ b', b.append A data = .done b' ∧ b'.readable = b.readable ++ data ∧
      b.capacity ≤ b'.capacity) ∨ OutOfMemory A b len (b.append A data)

/-- The growth step of `handle_read_event_` ends, with room for `::recv`. -/
def ReadGrows (A : Allocator) (b : Buffer) : Prop :=
  (∃ b', St.makeRoom A b = .done b' ∧ 0 < b'.writableSize ∧ b.capacity ≤ b'.capacity) ∨
    OutOfMemory A b (1024 * 2) (St.makeRoom A b)

/-! ### From a positive capacity -/

theorem loop_of_pos (h : b.WF) {r : ℕ} (hr : r ≤ 2 ^ 63) :
    ∃ n, Doubling b.capacity r n ∧ b.capacity * 2 ^ n < 2 ^ 64 ∧
      ∀ m, n ≤ m → growCapacity m b.capacity r = some (b.capacity * 2 ^ n) := by
  obtain ⟨n, hn⟩ := Doubling.exists_of_pos h.pos r
  have hlt := h.lt
  refine ⟨n, hn, ?_, fun m hm => hn.growCapacity hr hm⟩
  rcases hn.lt_two_mul with hk | hk
  · omega
  · omega

/-- `ensure_writable_size` of a buffer with a capacity. -/
theorem space_of_pos (h : b.WF) {len : ℕ} (hlen : b.readableSize + len ≤ 2 ^ 63) :
    (∃ b', b.ensureWritableSize A len = .done b' ∧ b'.WF ∧ b'.readable = b.readable ∧
      len ≤ b'.writableSize ∧ b.capacity ≤ b'.capacity) ∨
      OutOfMemory A b len (b.ensureWritableSize A len) := by
  have hlt : b.readableSize + len < 2 ^ 64 := by omega
  obtain ⟨n, hn, -, hloop⟩ := loop_of_pos h hlen
  have h64 := hloop 64 (hn.le_64 h.pos hlen)
  rw [← SizeT.add_of_lt hlt] at h64
  have hmakes := h.sound.makes (A := A) len
  generalize b.ensureWritableSize A len = r at hmakes ⊢
  cases r with
  | done b' => exact .inl ⟨b', rfl, h.of_makes_done hlt hmakes⟩
  | throw f b' =>
    cases hmakes with
    | diverges _ hg =>
      rw [h64] at hg
      cases hg
    | refused _ hg hnew =>
      rw [h64] at hg
      cases hg
      exact .inr ⟨rfl, n, hn, hnew⟩
    | overrun hg hk =>
      rw [h64] at hg
      cases hg
      have henough := hn.enough
      omega

theorem fill_capacity {bs : List UInt8} (h : b.fill bs = .done b') : b'.capacity = b.capacity := by
  unfold fill store at h
  split at h
  · split_ifs at h
    · rw [Res.andThen_done, beenWritten] at h
      split_ifs at h
      cases h
      rfl
    · cases h
  · split_ifs at h
    · rw [Res.andThen_done, beenWritten] at h
      split_ifs at h
      cases h
      rfl
    · cases h

theorem append_of_pos (h : b.WF) {data : List UInt8} (h0 : data ≠ [])
    (hlen : b.readableSize + data.length ≤ 2 ^ 63) :
    (∃ b', b.append A data = .done b' ∧ b'.readable = b.readable ++ data ∧
      b.capacity ≤ b'.capacity) ∨ OutOfMemory A b data.length (b.append A data) := by
  have hne : data.length ≠ 0 := by simpa using h0
  unfold Buffer.append
  rw [if_neg hne]
  rcases space_of_pos (A := A) h hlen with ⟨b₁, he, hwf, hread, hroom, hcap⟩ | ⟨he, hout⟩
  · obtain ⟨b₂, hfill, -, hread₂⟩ := hwf.fill hroom
    rw [he, Res.andThen_done]
    refine .inl ⟨b₂, hfill, by rw [hread₂, hread], ?_⟩
    rw [fill_capacity hfill]
    exact hcap
  · rw [he]
    exact .inr ⟨rfl, hout⟩

theorem grows_of_pos (h : b.WF) {len : ℕ} (hlen : b.readableSize + len ≤ 2 ^ 63) :
    Grows A b len where
  loop := by
    obtain ⟨n, hn, hlt, hloop⟩ := loop_of_pos h hlen
    exact ⟨n, hn, hlt, hloop n (le_refl n)⟩
  space := by
    rcases space_of_pos (A := A) h hlen with ⟨b', he, -, -, hroom, hcap⟩ | hout
    · exact .inl ⟨b', he, hroom, hcap⟩
    · exact .inr hout
  append data h0 hdata := by
    subst hdata
    exact append_of_pos h h0 hlen

theorem readGrows_of_pos (h : b.WF) (hlen : b.readableSize + 1024 * 2 ≤ 2 ^ 63) :
    ReadGrows A b := by
  unfold ReadGrows St.makeRoom
  split_ifs with hfull
  · rcases space_of_pos (A := A) h hlen with ⟨b', he, -, -, hroom, hcap⟩ | hout
    · exact .inl ⟨b', he, by omega, hcap⟩
    · exact .inr hout
  · exact .inl ⟨b, rfl, by omega, le_refl _⟩

/-! ### From no capacity -/

/-- Nothing is asked of a buffer without capacity. -/
theorem grows_of_zero (h : b.Sound) (h0 : b.capacity = 0) : Grows A b 0 where
  loop := by
    obtain ⟨-, -, hr, -⟩ := h.sizes_of_zero h0
    rw [h0, hr]
    exact ⟨0, ⟨by simp, by simp⟩, by simp, by simp [growCapacity]⟩
  space := by
    refine .inl ⟨b, ?_, Nat.zero_le _, le_refl _⟩
    unfold ensureWritableSize
    exact if_pos (Nat.zero_le _)
  append data hne hdata := absurd (List.length_eq_zero_iff.1 hdata) hne

/-- However many rounds it makes, the loop of a buffer without capacity does not end. -/
theorem not_grows_of_zero (h0 : b.capacity = 0) {len : ℕ} (hlen : len ≠ 0) :
    ¬ Grows A b len := by
  intro hg
  obtain ⟨n, -, -, hloop⟩ := hg.loop
  rw [h0, growCapacity_zero (by omega)] at hloop
  cases hloop

theorem diverges_of_zero (h : b.Sound) (h0 : b.capacity = 0) {len : ℕ} (hlen : 0 < len)
    (hlt : len < 2 ^ 64) : b.ensureWritableSize A len = .throw .diverges b := by
  obtain ⟨hidx, -, hr, hw⟩ := h.sizes_of_zero h0
  have hg : growCapacity 64 b.capacity (SizeT.add b.readableSize len) = none := by
    rw [h0, hr, SizeT.add_of_lt (by omega)]
    exact growCapacity_zero (by omega) 64
  have hmakes := h.makes (A := A) len
  generalize b.ensureWritableSize A len = r at hmakes ⊢
  cases hmakes with
  | fits htail => omega
  | compacts _ _ hhead => omega
  | diverges => rfl
  | refused _ hk | overrun hk | grows _ hk =>
    rw [hg] at hk
    cases hk

/-- **Growing a buffer ends unless it has no capacity.**  For every object that a program can have
as long as no emptied buffer loses its block, and every `len` with at most `2 ^ 63` bytes in all:
`ensure_writable_size(len)` and `append` of `len` bytes end, the doubling without wrap-around and
with a capacity not below the old one, exactly if the capacity is not 0 or `len` is 0; and the
growth step of `handle_read_event_` ends exactly if the capacity is not 0. -/
theorem growth_ends_iff (h : Reach b) {len : ℕ} (hlen : b.readableSize + len ≤ 2 ^ 63) :
    (Grows A b len ↔ 0 < b.capacity ∨ len = 0) ∧
      (b.readableSize + 1024 * 2 ≤ 2 ^ 63 → (ReadGrows A b ↔ 0 < b.capacity)) := by
  have hb := h.sound
  refine ⟨⟨fun hg => ?_, fun hor => ?_⟩, fun hread => ⟨fun hg => ?_, fun hpos => ?_⟩⟩
  · by_contra hz
    exact not_grows_of_zero (by omega) (by omega) hg
  · rcases Nat.eq_zero_or_pos b.capacity with h0 | hpos
    · obtain rfl : len = 0 := by omega
      exact grows_of_zero hb h0
    · exact grows_of_pos (hb.wf hpos) hlen
  · by_contra hz
    have h0 : b.capacity = 0 := by omega
    have hw := (hb.sizes_of_zero h0).2.2.2
    unfold ReadGrows St.makeRoom at hg
    rw [if_pos hw, diverges_of_zero hb h0 (by decide) (by decide)] at hg
    rcases hg with ⟨b', he, -⟩ | ⟨he, -⟩
    · cases he
    · cases he
  · exact readGrows_of_pos (hb.wf hpos) hread

/-- One byte more for a full buffer of 40000 bytes. -/
theorem growth_ends_iff_filled : Reach filled ∧ Grows .zeroed filled 1 := by
  have hr := readableSize_filled
  exact ⟨reach_filled, (growth_ends_iff reach_filled (by omega)).1.2 (.inl (by decide))⟩

/-- One byte for a buffer that was moved from, or for `Buffer(data, 0)`: the loop does not end. -/
theorem growth_diverges :
    (Reach movedFrom ∧ movedFrom.readableSize + 1 ≤ 2 ^ 63 ∧
      movedFrom.ensureWritableSize .zeroed 1 = .throw .diverges movedFrom ∧
      ¬ Grows .zeroed movedFrom 1) ∧
    ∃ b, Buffer.ofData .zeroed [] = some b ∧ Reach b ∧ b.readableSize + 1 ≤ 2 ^ 63 ∧
      b.ensureWritableSize .zeroed 1 = .throw .diverges b ∧ ¬ Grows .zeroed b 1 := by
  have stuck : ∀ b : Buffer, Reach b → b.capacity = 0 → b.readableSize + 1 ≤ 2 ^ 63 ∧
      b.ensureWritableSize .zeroed 1 = .throw .diverges b ∧ ¬ Grows .zeroed b 1 := by
    intro b hb h0
    have hr := (hb.sound.sizes_of_zero h0).2.2.1
    refine ⟨by omega, ?_, not_grows_of_zero h0 (by decide)⟩
    exact diverges_of_zero hb.sound h0 (by decide) (by decide)
  have hmoved : Reach movedFrom := reach_filled.constructedFrom
  obtain ⟨b, hb⟩ : ∃ b, Buffer.ofData .zeroed [] = some b := ⟨_, rfl⟩
  refine ⟨⟨hmoved, stuck movedFrom hmoved rfl⟩, b, hb, .ofData hb, stuck b (.ofData hb) ?_⟩
  obtain ⟨blk, -, rfl⟩ := Option.map_eq_some_iff.1 hb
  rfl

end Conn

end CxpNet
