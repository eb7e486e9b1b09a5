import CxpNet.Memory.Basic

/-!
# The byte buffer

`Buffer` of `buffer.h`: one heap block of `capacity_` bytes with a read and a write index; the
readable bytes are those in `[read_index_, write_index_)`.  The buffer compacts in place, grows
by doubling, and gives memory back when most of it is idle.

Every operation returns a `Res`: the object after it, or the fault that ended it together with
the object as the fault left it (an exception does not undo what was already assigned).  The
faults are the failed `ENSURE`s, `std::bad_alloc`, and the two kinds of undefined behaviour the
code could run into: a copy outside a live block and a `delete[]` of something that is not one.
`size_t` expressions are computed with the wrap-around of `SizeT`.
-/

namespace CxpNet

/-- A `char*` that owns a block: null, a block already given back, or a live block. -/
inductive Ptr where
  | null
  | dangling
  | live (b : Block)

/-- What can end an operation early. -/
inductive Fault where
  /-- An `ENSURE` with this message failed. -/
  | ensure (msg : String)
  /-- `operator new[]` threw. -/
  | badAlloc
  /-- A copy left its block, or used a pointer to no block. -/
  | outOfBounds
  /-- `delete[]` of a block that was given back before. -/
  | badFree
  /-- A loop that does not end. -/
  | diverges
  deriving DecidableEq, Repr

/-- The object of `buffer.h`. -/
structure Buffer where
  /-- `data_` -/
  data : Ptr
  /-- `write_index_` -/
  writeIndex : ℕ
  /-- `read_index_` -/
  readIndex : ℕ
  /-- `capacity_` -/
  capacity : ℕ

namespace Buffer

/-- The result of an operation: the object after it, or a fault and the object it left. -/
inductive Res where
  | done (b : Buffer)
  | throw (f : Fault) (b : Buffer)

namespace Res

/-- Continue after a successful operation. -/
def andThen : Res → (Buffer → Res) → Res
  | done b, k => k b
  | throw f b, _ => throw f b

/-- The object after the operation, whether it succeeded or not. -/
def obj : Res → Buffer
  | done b => b
  | throw _ b => b

@[simp] theorem andThen_done (b : Buffer) (k : Buffer → Res) : (done b).andThen k = k b := rfl

end Res

/-- `kInitialCapacity` -/
def kInitialCapacity : ℕ := 8192

/-- `kShrinkThreshold` -/
def kShrinkThreshold : ℕ := 16384

/-- `readable_size()` -/
def readableSize (b : Buffer) : ℕ := SizeT.sub b.writeIndex b.readIndex

/-- `writable_size()` -/
def writableSize (b : Buffer) : ℕ := SizeT.sub b.capacity b.writeIndex

/-- The bytes at `peek()`: those between the two indices. -/
def readable (b : Buffer) : List UInt8 :=
  match b.data with
  | .live blk => blk.slice b.readIndex b.readableSize
  | _ => []

/-- `clear()` -/
def clear (b : Buffer) : Buffer := { b with readIndex := 0, writeIndex := 0 }

/-! ### Raw memory -/

/-- `memcpy(data_ + off, bs, bs.length)`. -/
def store (off : ℕ) (bs : List UInt8) (b : Buffer) : Res :=
  match b.data with
  | .live blk =>
    if off + bs.length ≤ blk.size then .done { b with data := .live (blk.write off bs) }
    else .throw .outOfBounds b
  | _ => if bs.length = 0 then .done b else .throw .outOfBounds b

/-- The bytes `memcpy` and `memmove` read from `data_ + off`; `none` outside the block. -/
def load (off len : ℕ) (b : Buffer) : Option (List UInt8) :=
  match b.data with
  | .live blk => if off + len ≤ blk.size then some (blk.slice off len) else none
  | _ => if len = 0 then some [] else none

/-- `delete[] data_`. -/
def free (b : Buffer) : Res :=
  match b.data with
  | .live _ => .done { b with data := .dangling }
  | .null => .done b
  | .dangling => .throw .badFree b

/-! ### Construction -/

section

variable (A : Allocator)

/-- `Buffer(initial_capacity)`; `none` when `new` throws. -/
def new (initialCapacity : ℕ) : Option Buffer :=
  let capacity := max initialCapacity kInitialCapacity
  (A.new capacity).map fun blk => ⟨.live blk, 0, 0, capacity⟩

/-- `Buffer(data, size)`; `none` when `new` throws. -/
def ofData (data : List UInt8) : Option Buffer :=
  (A.new data.length).map fun blk => ⟨.live (blk.write 0 data), data.length, 0, data.length⟩

/-! ### Operations -/

/-- `shrink_if_needed_()` -/
def shrinkIfNeeded (b : Buffer) : Res :=
  let used := b.readableSize
  let idle := SizeT.sub b.capacity used
  if used = 0 then
    if SizeT.mul kInitialCapacity 4 < b.capacity then
      -- the old block is given back before the new one is requested
      b.free.andThen fun b =>
        let b := { b with capacity := kInitialCapacity }
        match A.new b.capacity with
        | none => .throw .badAlloc b
        | some blk => .done { b with data := .live blk }.clear
    else .done b.clear
  else if SizeT.mul idle 4 ≤ SizeT.mul b.capacity 3 ∨ idle < kShrinkThreshold then .done b
  else
    let target := max used kInitialCapacity
    let target := SizeT.add target (target / 2)
    match A.new target with
    | none => .throw .badAlloc b
    | some blk =>
      match b.load b.readIndex used with
      | none => .throw .outOfBounds b
      | some bs =>
        if target < used then .throw .outOfBounds b
        else b.free.andThen fun b =>
          .done { b with data := .live (blk.write 0 bs), capacity := target, readIndex := 0,
                         writeIndex := used }

/-- `been_read(len)` -/
def beenRead (len : ℕ) (b : Buffer) : Res :=
  if b.readableSize < len then .throw (.ensure "been_read: len exceeds readable size") b
  else if len = 0 then .done b
  else if len = b.readableSize then { b with readIndex := b.writeIndex }.shrinkIfNeeded A
  else
    let b := { b with readIndex := SizeT.add b.readIndex len }
    if b.capacity / 2 ≤ b.readIndex then b.shrinkIfNeeded A else .done b

/-- `been_read_all()` -/
def beenReadAll (b : Buffer) : Res := b.beenRead A b.readableSize

/-- `been_written(len)` -/
def beenWritten (len : ℕ) (b : Buffer) : Res :=
  if b.writableSize < len then .throw (.ensure "been_written: len exceeds writable size") b
  else .done { b with writeIndex := SizeT.add b.writeIndex len }

/-- Bytes written at `to_write()` and reported with `been_written`. -/
def fill (bs : List UInt8) (b : Buffer) : Res :=
  (b.store b.writeIndex bs).andThen fun b => b.beenWritten bs.length

/-- The loop `while (new_capacity < required) new_capacity *= 2`; `none` when it has not ended
after `n` rounds.  After 64 doublings the capacity is `0` and stays `0`, so a loop that has not
ended by then never ends (`growCapacity_fuel`). -/
def growCapacity : ℕ → ℕ → ℕ → Option ℕ
  | 0, newCapacity, required => if newCapacity < required then none else some newCapacity
  | n + 1, newCapacity, required =>
    if newCapacity < required then growCapacity n (SizeT.mul newCapacity 2) required
    else some newCapacity

/-- `ensure_writable_size(len)` -/
def ensureWritableSize (len : ℕ) (b : Buffer) : Res :=
  let headSize := b.readIndex
  let tailSize := b.writableSize
  if len ≤ tailSize then .done b
  else if len ≤ SizeT.add headSize tailSize then
    let writtenSize := b.readableSize
    match b.load b.readIndex writtenSize with
    | none => .throw .outOfBounds b
    | some bs => (b.store 0 bs).andThen fun b =>
        .done { b with readIndex := 0, writeIndex := writtenSize }
  else
    let writtenSize := b.readableSize
    let required := SizeT.add writtenSize len
    match growCapacity 64 b.capacity required with
    | none => .throw .diverges b
    | some newCapacity =>
      match A.new newCapacity with
      | none => .throw .badAlloc b
      | some blk =>
        match b.load b.readIndex writtenSize with
        | none => .throw .outOfBounds b
        | some bs =>
          if newCapacity < writtenSize then .throw .outOfBounds b
          else b.free.andThen fun b =>
            .done { b with data := .live (blk.write 0 bs), capacity := newCapacity,
                           readIndex := 0, writeIndex := writtenSize }

/-- `append(data, len)` -/
def append (data : List UInt8) (b : Buffer) : Res :=
  if data.length = 0 then .throw (.ensure "append size must > 0") b
  else (b.ensureWritableSize A data.length).andThen fun b => b.fill data

end

end Buffer

end CxpNet
