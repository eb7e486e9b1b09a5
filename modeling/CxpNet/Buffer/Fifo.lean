import CxpNet.Buffer.Spec

/-!
# The buffer is a FIFO queue

The abstract buffer is a list of bytes: `append` and `been_written` push at the back,
`been_read(k)` drops `k` bytes from the front, `clear` empties it.  `Buffer.Run b q` says that
some sequence of constructions and operations, each within its precondition, has led to the
object `b` while the same sequence leads to the queue `q`; every operation may use its own
allocator, as long as that allocator succeeds.

* `Buffer.Run.sound` : along every such run the object is well formed and its readable bytes
  are exactly the queue;
* `Buffer.run_refines_fifo` : moreover no `ENSURE` fails and no copy leaves its block.
-/

namespace CxpNet

namespace Buffer

/-- The operations of the interface.  `fill bs` is a caller writing `bs` at `to_write()` and then
calling `been_written`. -/
inductive Op where
  | append (data : List UInt8)
  | ensureWritableSize (len : ℕ)
  | fill (bs : List UInt8)
  | beenRead (len : ℕ)
  | beenReadAll
  | clear
  deriving DecidableEq, Repr

namespace Op

/-- The operation on the object. -/
def exec (A : Allocator) : Op → Buffer → Res
  | append data, b => b.append A data
  | ensureWritableSize len, b => b.ensureWritableSize A len
  | fill bs, b => b.fill bs
  | beenRead len, b => b.beenRead A len
  | beenReadAll, b => b.beenReadAll A
  | clear, b => .done b.clear

/-- The operation on the queue. -/
def spec : Op → List UInt8 → List UInt8
  | append data, q => q ++ data
  | ensureWritableSize _, q => q
  | fill bs, q => q ++ bs
  | beenRead len, q => q.drop len
  | beenReadAll, _ => []
  | clear, _ => []

/-- What the caller promises: appended data is not empty, reported bytes were written into free
space, no more is consumed than is there, and no size reaches `2 ^ 62`. -/
def Pre (b : Buffer) (q : List UInt8) : Op → Prop
  | append data => data ≠ [] ∧ q.length + data.length < 2 ^ 62
  | ensureWritableSize len => q.length + len < 2 ^ 62
  | fill bs => bs.length ≤ b.writableSize ∧ q.length + bs.length < 2 ^ 62
  | beenRead len => len ≤ b.readableSize
  | beenReadAll => True
  | clear => True

end Op

/-- The pairs of an object and a queue that a sequence of operations leads to.  A fault does not
end a run: the object it left is carried on, so a run without faults is a result and not an
assumption. -/
inductive Run : Buffer → List UInt8 → Prop
  | new {A : Allocator} {n : ℕ} {b : Buffer} :
      A.Succeeds → n < 2 ^ 62 → new A n = some b → Run b []
  | ofData {A : Allocator} {data : List UInt8} {b : Buffer} :
      A.Succeeds → data ≠ [] → data.length < 2 ^ 62 → ofData A data = some b → Run b data
  | op {A : Allocator} {op : Op} {b : Buffer} {q : List UInt8} :
      Run b q → A.Succeeds → op.Pre b q → Run (op.exec A b).obj (op.spec q)

variable {A : Allocator} {b : Buffer} {q : List UInt8}

theorem new_sound {n : ℕ} (h : new A n = some b) : b.WF ∧ b.readable = [] := by
  obtain ⟨blk, hn, rfl⟩ := Option.map_eq_some_iff.1 h
  have hpos := kInitialCapacity_pos
  have hwf : (⟨.live blk, 0, 0, max n kInitialCapacity⟩ : Buffer).WF :=
    ⟨⟨blk, rfl, A.size_eq hn⟩, le_refl _, Nat.zero_le _, by simp only; omega, A.lt_of_new hn⟩
  exact ⟨hwf, hwf.readable_eq_nil_iff.2 hwf.readableSize_eq⟩

theorem ofData_sound {data : List UInt8} (h0 : data ≠ []) (h : ofData A data = some b) :
    b.WF ∧ b.readable = data := by
  obtain ⟨blk, hn, rfl⟩ := Option.map_eq_some_iff.1 h
  exact WF.fresh data (A.size_eq hn) (le_refl _) (List.length_pos_iff.2 h0) (A.lt_of_new hn)

/-- One operation of a well-formed buffer: it returns, keeps the invariant and does to the
readable bytes what its specification does to the queue. -/
theorem exec_sound (hwf : b.WF) (hA : A.Succeeds) (hlt : b.readable.length < 2 ^ 62) {op : Op}
    (hpre : op.Pre b b.readable) :
    ∃ b', op.exec A b = .done b' ∧ b'.WF ∧ b'.readable = op.spec b.readable ∧
      ∀ len, op = .ensureWritableSize len → len ≤ b'.writableSize := by
  have hlen := hwf.length_readable
  cases op with
  | append data =>
    obtain ⟨h0, hsum⟩ := hpre
    rcases append_outcome (A := A) hwf h0 (by omega) with ⟨b', he, hwf', hr⟩ | ⟨-, hbig⟩
    · exact ⟨b', he, hwf', hr, by simp⟩
    · have := hbig hA; omega
  | ensureWritableSize len =>
    have hsum : b.readable.length + len < 2 ^ 62 := hpre
    rcases ensureWritableSize_outcome (A := A) hwf (show len < 2 ^ 63 by omega) with
      ⟨b', he, hwf', hr, hroom⟩ | ⟨-, hbig⟩
    · refine ⟨b', he, hwf', hr, fun l hl => ?_⟩
      cases hl
      exact hroom
    · have := hbig hA; omega
  | fill bs =>
    obtain ⟨b', he, hwf', hr⟩ := hwf.fill hpre.1
    exact ⟨b', he, hwf', hr, by simp⟩
  | beenRead len =>
    rcases beenRead_outcome (A := A) hwf hpre with ⟨b', he, hwf', hr⟩ | ⟨-, hbig⟩
    · exact ⟨b', he, hwf', hr, by simp⟩
    · have := hbig hA
      rw [List.length_drop] at this
      omega
  | beenReadAll =>
    rcases beenRead_outcome (A := A) hwf (le_refl _) with ⟨b', he, hwf', hr⟩ | ⟨-, hbig⟩
    · refine ⟨b', he, hwf', ?_, by simp⟩
      rw [hr, ← hlen, List.drop_length]
      rfl
    · have := hbig hA
      rw [← hlen, List.drop_length] at this
      simp at this
  | clear => exact ⟨b.clear, rfl, hwf.clear, readable_clear, by simp⟩

/-- No operation within its precondition makes the queue reach `2 ^ 62` bytes. -/
theorem length_spec_lt {op : Op} (hlt : q.length < 2 ^ 62) (hpre : op.Pre b q) :
    (op.spec q).length < 2 ^ 62 := by
  cases op with
  | append data => rw [Op.spec, List.length_append]; exact hpre.2
  | ensureWritableSize len => exact hlt
  | fill bs => rw [Op.spec, List.length_append]; exact hpre.2
  | beenRead len => rw [Op.spec, List.length_drop]; omega
  | beenReadAll | clear => exact Nat.two_pow_pos 62

/-- Along every run the object is well formed and holds exactly the queue. -/
theorem Run.sound (h : Run b q) : b.WF ∧ b.readable = q ∧ q.length < 2 ^ 62 := by
  induction h with
  | new _ _ hb =>
    obtain ⟨hwf, hr⟩ := new_sound hb
    exact ⟨hwf, hr, Nat.two_pow_pos 62⟩
  | ofData _ h0 hlt hb =>
    obtain ⟨hwf, hr⟩ := ofData_sound h0 hb
    exact ⟨hwf, hr, hlt⟩
  | op _ hA hpre ih =>
    obtain ⟨hwf, rfl, hlt⟩ := ih
    obtain ⟨b', he, hwf', hr', -⟩ := exec_sound hwf hA hlt hpre
    rw [he]
    exact ⟨hwf', hr', length_spec_lt hlt hpre⟩

/-- **The byte buffer refines a FIFO queue.**  Along every run of operations within their
preconditions, the indices are ordered inside a live block of exactly `capacity_ > 0` bytes and
the bytes between them are those of the queue; and the next operation returns (no `ENSURE`
fails, every copy stays inside its block), again at the queue of its specification, an
`ensure_writable_size(len)` leaving room for `len` bytes. -/
theorem run_refines_fifo (h : Run b q) :
    (b.readIndex ≤ b.writeIndex ∧ b.writeIndex ≤ b.capacity ∧ 0 < b.capacity) ∧
      (∃ blk, b.data = .live blk ∧ blk.size = b.capacity ∧
        blk.slice b.readIndex (b.writeIndex - b.readIndex) = q) ∧
      ∀ (A : Allocator) (op : Op), A.Succeeds → op.Pre b q →
        ∃ b', op.exec A b = .done b' ∧ Run b' (op.spec q) ∧
          ∀ len, op = .ensureWritableSize len → len ≤ b'.writableSize := by
  obtain ⟨hwf, hr, hlt⟩ := h.sound
  refine ⟨⟨hwf.read_le, hwf.write_le, hwf.pos⟩, ?_, fun A op hA hpre => ?_⟩
  · obtain ⟨blk, hd, hs⟩ := hwf.live
    refine ⟨blk, hd, hs, ?_⟩
    rw [← hr, readable_of_live hd, hwf.readableSize_eq]
  · subst hr
    obtain ⟨b', he, -, -, hroom⟩ := exec_sound hwf hA hlt hpre
    refine ⟨b', he, ?_, hroom⟩
    have hrun := Run.op h hA hpre
    rwa [he] at hrun

/-- `Buffer(10)`, `append` of three bytes, `been_read(1)`. -/
theorem run_refines_fifo_partialRead :
    ∃ b blk, Run b [2, 3] ∧ b.data = .live blk ∧
      blk.slice b.readIndex (b.writeIndex - b.readIndex) = [2, 3] := by
  have hA := Allocator.zeroed_succeeds
  obtain ⟨b₀, hb₀⟩ : ∃ b₀, new .zeroed 10 = some b₀ := by
    obtain ⟨blk, hblk⟩ := hA (max 10 kInitialCapacity) (by norm_num [kInitialCapacity])
    exact ⟨_, by rw [new, hblk]; rfl⟩
  have h₀ : Run b₀ [] := .new hA (by norm_num) hb₀
  have h₁ := h₀.op hA (show (Op.append [1, 2, 3]).Pre b₀ [] from ⟨by simp, by simp⟩)
  have hlen := h₁.sound.1.length_readable
  rw [h₁.sound.2.1] at hlen
  have hone : (Op.beenRead 1).Pre _ (Op.spec (.append [1, 2, 3]) []) :=
    show 1 ≤ _ by rw [← hlen]; decide
  have h₂ := h₁.op hA hone
  obtain ⟨-, ⟨blk, hd, -, hs⟩, -⟩ := run_refines_fifo h₂
  exact ⟨_, blk, h₂, hd, hs⟩

end Buffer

end CxpNet
