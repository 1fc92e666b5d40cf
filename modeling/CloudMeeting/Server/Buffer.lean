/-
The byte buffer of the server's network layer.

A `Buffer` is a vector with a read and a write position; the bytes between the two
are the ones not used yet.  Writing appends behind the write position, making room
first by moving the unread bytes to the front and then, if that is not enough, by
growing the vector.

The component has one purpose: to be a queue of bytes.  `readable` is that queue,
and the results say that writing appends to it, consuming drops from its front, and
compacting or growing leaves it alone.  They hold of a buffer whose positions are
in order (`WF`), which every operation used here preserves.

The two sizes are differences of `size_t`, which wrap.  In order they are the true
differences (`WF.readableSize_eq`, `WF.writableSize_eq`); otherwise they are huge.
-/
import CloudMeeting.Lib.Endian

namespace CloudMeeting.Server

/-- `InitBufferSize`, the capacity a buffer starts with. -/
def initBufferSize : Nat := 4096

/-- Subtraction of `size_t`, which has 64 bits: below zero it starts again at the top. -/
def sizeSub (a b : Nat) : Nat := if b ≤ a then a - b else 2 ^ 64 - (b - a)

theorem sizeSub_of_le {a b : Nat} (h : b ≤ a) : sizeSub a b = a - b := if_pos h

theorem sizeSub_of_lt {a b : Nat} (h : a < b) : sizeSub a b = 2 ^ 64 - (b - a) :=
  if_neg (Nat.not_le.mpr h)

structure Buffer where
  buffer : Bytes
  readPos : Nat
  writePos : Nat
deriving DecidableEq, Repr

namespace Buffer

/-- `Buffer(size)`: a zeroed vector of that size, nothing readable. -/
def new (size : Nat) : Buffer := ⟨List.replicate size 0, 0, 0⟩

def reset (b : Buffer) : Buffer := { b with readPos := 0, writePos := 0 }

def resize (b : Buffer) (size : Nat) : Buffer :=
  { b with buffer := b.buffer.take size ++ List.replicate (size - b.buffer.length) 0 }

def size (b : Buffer) : Nat := b.buffer.length

/-- `read_begin()`: the storage from the read position on. -/
def readBegin (b : Buffer) : Bytes := b.buffer.drop b.readPos

def readableSize (b : Buffer) : Nat := sizeSub b.writePos b.readPos

def writableSize (b : Buffer) : Nat := sizeSub b.buffer.length b.writePos

def moveReadPos (b : Buffer) (size : Nat) : Buffer := { b with readPos := b.readPos + size }

def moveWritePos (b : Buffer) (size : Nat) : Buffer := { b with writePos := b.writePos + size }

/-- Move the unread bytes to the front; the bytes behind them keep what they held. -/
def normalize (b : Buffer) : Buffer :=
  if b.readPos ≠ 0 then
    let moved :=
      if b.readPos ≠ b.writePos then
        b.readBegin.take b.readableSize ++ b.buffer.drop b.readableSize
      else b.buffer
    { buffer := moved, readPos := 0, writePos := sizeSub b.writePos b.readPos }
  else b

def expandIfNeed (b : Buffer) (size : Nat) : Buffer :=
  if b.writableSize < size then
    let b := b.normalize
    if b.writableSize < size then b.resize (max (2 * b.buffer.length) (b.writePos + size))
    else b
  else b

/-- Copy `data` over the storage at the write position. -/
def copyAtWrite (b : Buffer) (data : Bytes) : Buffer :=
  { b with buffer := b.buffer.take b.writePos ++ data
      ++ b.buffer.drop (b.writePos + data.length) }

def write (b : Buffer) (data : Bytes) : Buffer :=
  if data.length = 0 then b
  else ((b.expandIfNeed data.length).copyAtWrite data).moveWritePos data.length

/-! ### The queue of bytes a buffer stands for -/

/-- Positions in order and inside the storage. -/
structure WF (b : Buffer) : Prop where
  order : b.readPos ≤ b.writePos
  inside : b.writePos ≤ b.buffer.length

/-- The bytes written and not yet consumed. -/
def readable (b : Buffer) : Bytes := b.readBegin.take b.readableSize

theorem WF.readableSize_eq {b : Buffer} (h : b.WF) : b.readableSize = b.writePos - b.readPos :=
  sizeSub_of_le h.order

theorem WF.writableSize_eq {b : Buffer} (h : b.WF) :
    b.writableSize = b.buffer.length - b.writePos :=
  sizeSub_of_le h.inside

theorem new_wf (n : Nat) : (new n).WF := ⟨Nat.le_refl _, Nat.zero_le _⟩

theorem WF.readable_eq {b : Buffer} (h : b.WF) :
    b.readable = (b.buffer.drop b.readPos).take (b.writePos - b.readPos) := by
  rw [readable, readBegin, h.readableSize_eq]

@[simp] theorem readable_new (n : Nat) : (new n).readable = [] := by
  rw [(new_wf n).readable_eq]
  exact List.take_zero

theorem length_readable {b : Buffer} (h : b.WF) : b.readable.length = b.readableSize := by
  have hinside := h.inside
  have horder := h.order
  rw [h.readable_eq, h.readableSize_eq, List.length_take, List.length_drop]
  omega

/-! ### Consuming -/

theorem moveReadPos_wf {b : Buffer} (h : b.WF) {n : Nat} (hn : n ≤ b.readableSize) :
    (b.moveReadPos n).WF := by
  have horder := h.order
  rw [h.readableSize_eq] at hn
  exact ⟨by simp only [moveReadPos]; omega, by simpa only [moveReadPos] using h.inside⟩

theorem readable_moveReadPos {b : Buffer} (h : b.WF) {n : Nat} (hn : n ≤ b.readableSize) :
    (b.moveReadPos n).readable = b.readable.drop n := by
  rw [(moveReadPos_wf h hn).readable_eq, h.readable_eq]
  simp only [moveReadPos]
  rw [List.drop_take, List.drop_drop, Nat.sub_sub]

/-! ### Making room -/

/-- In order, `normalize` puts the write position behind what is readable. -/
theorem writePos_normalize {b : Buffer} (h : b.WF) : b.normalize.writePos = b.readableSize := by
  have horder := h.order
  rw [h.readableSize_eq]
  unfold normalize
  split
  · exact sizeSub_of_le horder
  · rename_i hzero
    omega

theorem readPos_normalize (b : Buffer) : b.normalize.readPos = 0 := by
  unfold normalize
  split
  · rfl
  · rename_i hzero
    exact not_not.mp hzero

theorem length_normalize {b : Buffer} (h : b.WF) :
    b.normalize.buffer.length = b.buffer.length := by
  have horder := h.order
  have hinside := h.inside
  unfold normalize
  split
  · simp only []
    split
    · rw [List.length_append, List.length_take, List.length_drop, readBegin, List.length_drop,
        h.readableSize_eq]
      omega
    · rfl
  · rfl

theorem normalize_wf {b : Buffer} (h : b.WF) : b.normalize.WF := by
  have hinside := h.inside
  constructor
  · rw [readPos_normalize]
    exact Nat.zero_le _
  · rw [writePos_normalize h, length_normalize h, h.readableSize_eq]
    omega

theorem readable_normalize {b : Buffer} (h : b.WF) : b.normalize.readable = b.readable := by
  have hlen := length_readable h
  rw [(normalize_wf h).readable_eq, readPos_normalize, writePos_normalize h, Nat.sub_zero,
    List.drop_zero]
  unfold normalize
  split
  · simp only []
    split
    · exact List.take_left' hlen
    · rename_i heq
      have hnone : b.readableSize = 0 := by
        rw [h.readableSize_eq]
        omega
      rw [readable, hnone, List.take_zero, List.take_zero]
  · rename_i hzero
    rw [readable, readBegin, not_not.mp hzero, List.drop_zero]

theorem expandIfNeed_wf {b : Buffer} (h : b.WF) (n : Nat) : (b.expandIfNeed n).WF := by
  unfold expandIfNeed
  split
  · have hn := normalize_wf h
    have hinside := hn.inside
    simp only []
    split
    · refine ⟨hn.order, ?_⟩
      simp only [resize, List.length_append, List.length_take, List.length_replicate]
      omega
    · exact hn
  · exact h

theorem length_resize (b : Buffer) (n : Nat) : (b.resize n).buffer.length = n := by
  simp only [resize, List.length_append, List.length_take, List.length_replicate]
  omega

theorem readable_resize {b : Buffer} (h : b.WF) {n : Nat} (hn : b.writePos ≤ n) :
    (b.resize n).readable = b.readable := by
  have hinside := h.inside
  have hwf : (b.resize n).WF := ⟨h.order, (length_resize b n).symm ▸ hn⟩
  rw [hwf.readable_eq, h.readable_eq]
  simp only [resize]
  -- only the storage past the write position can change
  have hcut : ∀ l : Bytes, (l.drop b.readPos).take (b.writePos - b.readPos)
      = (l.take b.writePos).drop b.readPos := by
    intro l
    rw [List.drop_take]
  rw [hcut, hcut, List.take_append_of_le_length (by rw [List.length_take]; omega),
    List.take_take, Nat.min_eq_left hn]

theorem readable_expandIfNeed {b : Buffer} (h : b.WF) (n : Nat) :
    (b.expandIfNeed n).readable = b.readable := by
  unfold expandIfNeed
  split
  · have hn := normalize_wf h
    have hinside := hn.inside
    simp only []
    split
    · rw [readable_resize hn (by omega), readable_normalize h]
    · exact readable_normalize h
  · rfl

/-- The room asked for is there afterwards, so the copy stays inside the storage. -/
theorem le_writableSize_expandIfNeed {b : Buffer} (h : b.WF) (n : Nat) :
    n ≤ (b.expandIfNeed n).writableSize := by
  rw [(expandIfNeed_wf h n).writableSize_eq]
  unfold expandIfNeed
  split
  · have hn := normalize_wf h
    simp only []
    split
    · have hlength := length_resize b.normalize
      show n ≤ (b.normalize.resize _).buffer.length - b.normalize.writePos
      rw [hlength]
      omega
    · rename_i hroom
      rw [hn.writableSize_eq] at hroom
      omega
  · rename_i hroom
    rw [h.writableSize_eq] at hroom
    omega

/-! ### Writing -/

/-- A copy that has room stays inside the storage and becomes readable behind the rest. -/
theorem copy_spec {b : Buffer} (h : b.WF) {data : Bytes} (hroom : data.length ≤ b.writableSize) :
    ((b.copyAtWrite data).moveWritePos data.length).WF ∧
      (b.copyAtWrite data).size = b.size ∧
      ((b.copyAtWrite data).moveWritePos data.length).readable = b.readable ++ data := by
  have horder := h.order
  have hinside := h.inside
  rw [h.writableSize_eq] at hroom
  have hsize : (b.copyAtWrite data).buffer.length = b.buffer.length := by
    simp only [copyAtWrite, List.length_append, List.length_take, List.length_drop]
    omega
  have hwf : ((b.copyAtWrite data).moveWritePos data.length).WF := by
    refine ⟨?_, ?_⟩
    · simp only [copyAtWrite, moveWritePos]
      omega
    · show (b.copyAtWrite data).writePos + data.length ≤ (b.copyAtWrite data).buffer.length
      rw [hsize]
      simp only [copyAtWrite]
      omega
  refine ⟨hwf, hsize, ?_⟩
  rw [hwf.readable_eq, h.readable_eq]
  simp only [copyAtWrite, moveWritePos]
  have htake : (b.buffer.take b.writePos).length = b.writePos := by
    rw [List.length_take]; omega
  rw [List.append_assoc, List.drop_append_of_le_length (by omega), ← List.append_assoc,
    List.drop_take]
  apply List.take_left'
  simp only [List.length_append, List.length_take, List.length_drop]
  omega

/-- **Writing appends to the queue.** -/
theorem write_spec {b : Buffer} (h : b.WF) (data : Bytes) :
    (b.write data).WF ∧ (b.write data).readable = b.readable ++ data := by
  unfold write
  split
  · rename_i hlen
    rw [List.length_eq_zero_iff.mp hlen, List.append_nil]
    exact ⟨h, rfl⟩
  · have hwf := expandIfNeed_wf h data.length
    obtain ⟨h1, -, h2⟩ := copy_spec hwf (le_writableSize_expandIfNeed h data.length)
    exact ⟨h1, by rw [h2, readable_expandIfNeed h]⟩

end Buffer

end CloudMeeting.Server
