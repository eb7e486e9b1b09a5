import Mathlib.Algebra.Group.Nat.Defs
import Mathlib.Data.List.Basic
import Mathlib.Tactic.SplitIfs

/-!
# 64-bit sizes and heap blocks

Two small libraries under the byte buffer:

* `SizeT.add`, `SizeT.sub`, `SizeT.mul` : `size_t` arithmetic on natural numbers, with the
  wrap-around at `2 ^ 64` written out, and the lemmas that remove it below the bound;
* `Block` : a heap block of `size` bytes.  `Block.slice` reads a range and `Block.write`
  overwrites one, so that `memcpy` and `memmove` are a `write` of a `slice`.

An `Allocator` is `operator new[]`: it may refuse (`none`, the exception `std::bad_alloc`), and
the block it returns has the requested size and arbitrary contents.
-/

namespace CxpNet

/-! ### `size_t` arithmetic -/

namespace SizeT

/-- The number of values of `size_t`. -/
def modulus : ℕ := 2 ^ 64

/-- `a + b` on `size_t`. -/
def add (a b : ℕ) : ℕ := (a + b) % modulus

/-- `a - b` on `size_t`. -/
def sub (a b : ℕ) : ℕ := (a + modulus - b) % modulus

/-- `a * b` on `size_t`. -/
def mul (a b : ℕ) : ℕ := (a * b) % modulus

theorem add_of_lt {a b : ℕ} (h : a + b < 2 ^ 64) : add a b = a + b := Nat.mod_eq_of_lt h

theorem mul_of_lt {a b : ℕ} (h : a * b < 2 ^ 64) : mul a b = a * b := Nat.mod_eq_of_lt h

theorem sub_of_le {a b : ℕ} (h : b ≤ a) (ha : a < 2 ^ 64) : sub a b = a - b := by
  have e : a + 2 ^ 64 - b = a - b + 2 ^ 64 := by omega
  simp only [sub, modulus]
  rw [e, Nat.add_mod_right]
  exact Nat.mod_eq_of_lt (by omega)

-- comparing two sizes must not unfold the modulus
attribute [irreducible] add sub mul

end SizeT

/-! ### Blocks -/

/-- A heap block: its size and its bytes (only the offsets below `size` exist). -/
structure Block where
  /-- Number of bytes. -/
  size : ℕ
  /-- The byte at an offset. -/
  byte : ℕ → UInt8

namespace Block

/-- The bytes in `[off, off + len)`. -/
def slice (b : Block) (off len : ℕ) : List UInt8 := (List.range len).map fun i => b.byte (off + i)

/-- Overwrite `[off, off + bs.length)` with `bs`. -/
def write (b : Block) (off : ℕ) (bs : List UInt8) : Block :=
  { b with
    byte := fun i => if off ≤ i ∧ i < off + bs.length then bs.getD (i - off) 0 else b.byte i }

@[simp] theorem length_slice (b : Block) (off len : ℕ) : (b.slice off len).length = len := by
  simp [slice]

@[simp] theorem size_write (b : Block) (off : ℕ) (bs : List UInt8) :
    (b.write off bs).size = b.size := rfl

@[simp] theorem write_nil (b : Block) (off : ℕ) : b.write off [] = b := by
  have e : ∀ i, ¬ (off ≤ i ∧ i < off + ([] : List UInt8).length) := by
    intro i h
    simp only [List.length_nil] at h
    omega
  simp only [write, e, ↓reduceIte]

@[simp] theorem slice_zero (b : Block) (off : ℕ) : b.slice off 0 = [] := rfl

theorem slice_add (b : Block) (off m n : ℕ) :
    b.slice off (m + n) = b.slice off m ++ b.slice (off + m) n := by
  simp only [slice, List.range_add, List.map_append, List.map_map]
  congr 1
  exact List.map_congr_left fun i _ => by simp [Nat.add_assoc]

/-- Dropping from the front of a range is starting it later. -/
theorem slice_drop (b : Block) (off len k : ℕ) (h : k ≤ len) :
    b.slice (off + k) (len - k) = (b.slice off len).drop k := by
  obtain ⟨n, rfl⟩ := Nat.exists_eq_add_of_le h
  rw [slice_add, List.drop_append_of_le_length (by simp), Nat.add_sub_cancel_left]
  simp

/-- The bytes just written are read back. -/
theorem slice_write_self (b : Block) (off : ℕ) (bs : List UInt8) :
    (b.write off bs).slice off bs.length = bs := by
  apply List.ext_getElem
  · simp
  · intro i h1 h2
    simp [slice, write, h2, List.getD_eq_getElem?_getD]

/-- A range that a write does not touch is unchanged. -/
theorem slice_write_of_disjoint (b : Block) (off : ℕ) (bs : List UInt8) (o len : ℕ)
    (h : o + len ≤ off ∨ off + bs.length ≤ o) : (b.write off bs).slice o len = b.slice o len := by
  apply List.map_congr_left
  intro i hi
  have hi' := List.mem_range.1 hi
  simp only [write]
  rw [if_neg (by omega)]

end Block

/-! ### Allocation -/

/-- `operator new[]`: `none` is `std::bad_alloc`; a block it returns has the requested size. -/
structure Allocator where
  /-- The block for a request of `n` bytes. -/
  new : ℕ → Option Block
  /-- A returned block has the requested size. -/
  size_eq : ∀ {n : ℕ} {b : Block}, new n = some b → b.size = n
  /-- No object is larger than `PTRDIFF_MAX` bytes. -/
  lt_of_new : ∀ {n : ℕ} {b : Block}, new n = some b → n < 2 ^ 63

namespace Allocator

/-- The allocator serves every request that a single object can have. -/
def Succeeds (A : Allocator) : Prop := ∀ n, n < 2 ^ 63 → ∃ b, A.new n = some b

/-- An allocator that serves every possible request with zeroed memory. -/
def zeroed : Allocator where
  new n := if n < 2 ^ 63 then some ⟨n, fun _ => 0⟩ else none
  size_eq h := by split_ifs at h; cases h; rfl
  lt_of_new h := by split_ifs at h with hn; exact hn

/-- An allocator that refuses every request. -/
def exhausted : Allocator where
  new _ := none
  size_eq h := by cases h
  lt_of_new h := by cases h

theorem zeroed_succeeds : zeroed.Succeeds := fun n hn => ⟨⟨n, fun _ => 0⟩, if_pos hn⟩

end Allocator

end CxpNet
