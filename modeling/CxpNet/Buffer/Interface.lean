import CxpNet.Buffer.Fifo

/-!
# The objects a program can have

The public interface of `Buffer` as a whole: the two constructors, which may make a buffer of no
bytes, move construction and move assignment with the side that was moved from, and every member
function, called with any argument and any allocator.  A call that fails does not end the story:
the object it left can be used further.

`Buffer.Reach` are the objects that such a program can have, as long as no allocation fails in one
place: `shrink_if_needed_` gives the block of an emptied buffer back before it asks for a smaller
one.  All of them are valid (`Buffer.Reach.sound`).
-/

namespace CxpNet

namespace Buffer

/-! ### Moves -/

/-- What a move leaves behind. -/
def movedFrom : Buffer := ⟨.null, 0, 0, 0⟩

/-- `Buffer(Buffer&& other)`: the new object, and what is left of `other`. -/
def moveConstruct (other : Buffer) : Buffer × Buffer :=
  (⟨other.data, other.writeIndex, other.readIndex, other.capacity⟩, movedFrom)

/-- `data_ == other.data_`, of two objects: each owns its block, so the pointers are equal only if
there is no block. -/
def samePtr : Ptr → Ptr → Bool
  | .null, .null => true
  | _, _ => false

/-- `operator=(Buffer&& other)`, with `other` a different object (assigned to itself, a buffer stays
as it is): the object assigned to, and what is left of `other`. -/
def moveAssign (b other : Buffer) : Res × Buffer :=
  if samePtr b.data other.data then (.done b, other)
  else
    match b.free with
    | .done b =>
      (.done { b with data := other.data, readIndex := other.readIndex,
                      writeIndex := other.writeIndex, capacity := other.capacity }, movedFrom)
    | .throw f b => (.throw f b, other)

/-! ### Calls -/

/-- The member functions that change the object, with what a caller does through `to_write()` and
`to_read()`. -/
inductive Call where
  | op (o : Op)
  | beenWritten (len : ℕ)
  /-- The caller writes into the block. -/
  | store (off : ℕ) (bs : List UInt8)
  deriving DecidableEq, Repr

namespace Call

/-- The call on the object. -/
def exec (A : Allocator) : Call → Buffer → Res
  | op o, b => o.exec A b
  | beenWritten len, b => b.beenWritten len
  | store off bs, b => b.store off bs

/-- The call consumes all readable bytes, and there are some. -/
def drains (b : Buffer) : Call → Bool
  | op (.beenRead len) => len = b.readableSize ∧ len ≠ 0
  | op .beenReadAll => b.readableSize ≠ 0
  | _ => false

/-- The block of an emptied buffer is not given back for one that cannot be had. -/
def Spares (A : Allocator) (b : Buffer) (c : Call) : Prop :=
  ¬ (c.drains b = true ∧ 4 * kInitialCapacity < b.capacity ∧ A.new kInitialCapacity = none)

end Call

/-- The objects that a program can have. -/
inductive Reach : Buffer → Prop
  | new {A : Allocator} {n : ℕ} {b : Buffer} : Buffer.new A n = some b → Reach b
  | ofData {A : Allocator} {data : List UInt8} {b : Buffer} :
      Buffer.ofData A data = some b → Reach b
  | constructed {b : Buffer} : Reach b → Reach b.moveConstruct.1
  | constructedFrom {b : Buffer} : Reach b → Reach b.moveConstruct.2
  | assigned {b c : Buffer} : Reach b → Reach c → Reach (b.moveAssign c).1.obj
  | assignedFrom {b c : Buffer} : Reach b → Reach c → Reach (b.moveAssign c).2
  | call {A : Allocator} {b : Buffer} {c : Call} :
      Reach b → c.Spares A b → Reach (c.exec A b).obj

variable {A : Allocator} {b c : Buffer}

/-! ### Every object is valid -/

theorem Res.andThen_sound {r : Res} {k : Buffer → Res} (hr : r.obj.Sound)
    (hk : ∀ b : Buffer, b.Sound → (k b).obj.Sound) : (r.andThen k).obj.Sound := by
  cases r with
  | done b => exact hk b hr
  | throw f b => exact hr

/-- A new block with `n` bytes at its front. -/
theorem Sound.fresh {blk : Block} {n k : ℕ} (bs : List UInt8) (hn : A.new k = some blk)
    (hle : n ≤ k) : (⟨.live (blk.write 0 bs), n, 0, k⟩ : Buffer).Sound := by
  have hs := A.size_eq hn
  exact ⟨.inl ⟨_, rfl, hs⟩, Nat.zero_le _, hle, A.lt_of_new hn⟩

theorem movedFrom_sound : movedFrom.Sound :=
  ⟨.inr ⟨rfl, rfl⟩, le_refl _, le_refl _, Nat.two_pow_pos 63⟩

theorem Sound.moveAssign (hb : b.Sound) (hc : c.Sound) :
    (b.moveAssign c).1.obj.Sound ∧ (b.moveAssign c).2.Sound := by
  unfold Buffer.moveAssign
  split_ifs
  · exact ⟨hb, hc⟩
  · cases hfree : b.free with
    | done b' => exact ⟨⟨hc.block, hc.read_le, hc.write_le, hc.lt⟩, movedFrom_sound⟩
    | throw f b' =>
      rcases hb.block with ⟨blk, hd, -⟩ | ⟨hd, -⟩
      · simp [Buffer.free, hd] at hfree
      · simp [Buffer.free, hd] at hfree

theorem Sound.store (h : b.Sound) (off : ℕ) (bs : List UInt8) : (b.store off bs).obj.Sound := by
  rcases h.block with ⟨blk, hd, hs⟩ | ⟨hd, h0⟩
  · simp only [Buffer.store, hd]
    split_ifs
    · exact ⟨.inl ⟨_, rfl, hs⟩, h.read_le, h.write_le, h.lt⟩
    · exact h
  · simp only [Buffer.store, hd]
    split_ifs
    · exact h
    · exact h

theorem Sound.beenWritten (h : b.Sound) (len : ℕ) : (b.beenWritten len).obj.Sound := by
  have hw := h.writableSize_eq
  have h1 := h.read_le; have h2 := h.write_le; have h3 := h.lt
  unfold Buffer.beenWritten
  split_ifs with hlen
  · exact h
  · rw [SizeT.add_of_lt (by omega)]
    exact ⟨h.block, by simp only [Res.obj]; omega, by simp only [Res.obj]; omega, h.lt⟩

theorem Sound.fill (h : b.Sound) (bs : List UInt8) : (b.fill bs).obj.Sound :=
  Res.andThen_sound (h.store b.writeIndex bs) fun _ hb => hb.beenWritten bs.length

theorem Sound.ensureWritableSize (h : b.Sound) (len : ℕ) :
    (b.ensureWritableSize A len).obj.Sound := by
  have hr := h.readableSize_eq
  have h2 := h.write_le
  have hmakes := h.makes (A := A) len
  generalize b.ensureWritableSize A len = r at hmakes ⊢
  cases hmakes with
  | fits | diverges | refused | overrun => exact h
  | compacts hd htail hhead =>
    have hw := h.writableSize_eq
    have h1 := h.read_le
    exact ((h.wf (by omega)).compacted hd).1.sound
  | grows _ _ hn hk => exact .fresh b.readable hn hk

theorem Sound.append (h : b.Sound) (data : List UInt8) : (b.append A data).obj.Sound := by
  unfold Buffer.append
  split_ifs
  · exact h
  · exact Res.andThen_sound (h.ensureWritableSize data.length) fun _ hb => hb.fill data

/-! ### `been_read` -/

/-- A shrink that does not lose the block leaves a valid object. -/
theorem Shrinks.sound {r : Res} (hs : Shrinks A b r) (h : b.Sound)
    (hkept : b.readableSize = 0 → 4 * kInitialCapacity < b.capacity →
      A.new kInitialCapacity ≠ none) : r.obj.Sound := by
  cases hs with
  | clear => exact h.clear
  | lost h0 hcap hn => exact absurd hn (hkept h0 hcap)
  | fresh _ _ hn =>
    exact ⟨.inl ⟨_, rfl, A.size_eq hn⟩, le_refl _, Nat.zero_le _, A.lt_of_new hn⟩
  | keep | refused => exact h
  | moved h0 hbusy hn =>
    have hle := (h.wf_of_readable h0).le_shrinkTarget
    exact .fresh b.readable hn hle.1

theorem Sound.beenRead (h : b.Sound) {len : ℕ} (hs : (Call.op (.beenRead len)).Spares A b) :
    (b.beenRead A len).obj.Sound := by
  rcases h.beenRead_cases (A := A) len with ⟨-, e⟩ | ⟨-, e⟩ | ⟨-, hlt, e⟩ | ⟨h0, hle, hsh⟩
  · rw [e]
    exact h
  · rw [e]
    exact h
  · rw [e]
    exact (h.advance (le_of_lt hlt)).1
  · obtain ⟨hadv, -, hsize⟩ := h.advance hle
    refine hsh.sound hadv fun hz hcap hn => hs ⟨?_, hcap, hn⟩
    simp only [Call.drains, decide_eq_true_eq]
    omega

theorem Sound.call (h : b.Sound) {k : Call} (hs : k.Spares A b) : (k.exec A b).obj.Sound := by
  cases k with
  | beenWritten len => exact h.beenWritten len
  | store off bs => exact h.store off bs
  | op o =>
    cases o with
    | append data => exact h.append data
    | ensureWritableSize len => exact h.ensureWritableSize len
    | fill bs => exact h.fill bs
    | beenRead len => exact h.beenRead hs
    | beenReadAll =>
      refine h.beenRead fun hlost => hs ⟨?_, hlost.2⟩
      simpa [Call.drains] using hlost.1
    | clear => exact h.clear

/-- **Every object that a program can have is valid.** -/
theorem Reach.sound (h : Reach b) : b.Sound := by
  induction h with
  | new hb => exact (new_sound hb).1.sound
  | @ofData A data b hb =>
    obtain ⟨blk, hn, rfl⟩ := Option.map_eq_some_iff.1 hb
    exact .fresh data hn (le_refl _)
  | constructed _ ih => exact ⟨ih.block, ih.read_le, ih.write_le, ih.lt⟩
  | constructedFrom => exact movedFrom_sound
  | assigned _ _ ihb ihc => exact (ihb.moveAssign ihc).1
  | assignedFrom _ _ ihb ihc => exact (ihb.moveAssign ihc).2
  | call _ hs ih => exact ih.call hs

end Buffer

end CxpNet
