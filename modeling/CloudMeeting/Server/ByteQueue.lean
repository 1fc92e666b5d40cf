/-
The byte buffer as a queue, over whole runs and over transfers.

`Buffer` says what each operation does to the readable bytes of a buffer whose
positions are in order.  Here the operations are taken in any sequence, with the checks
the code makes on the way: an `assert` that fails, or a `memcpy` past the storage, is a
step that cannot be taken.  `refinesQueue` says that from `Buffer(n)` none of that
happens, and that the buffer is a queue of bytes.

A buffer can also be moved, resized, or have its storage taken.  `transfers_iff` says
when the positions of every object involved are in order afterwards: moving takes the
storage and leaves the positions of the other object where they were, and resizing leaves
them too, so neither is safe for a buffer that has something written in it.  The room such
a buffer thinks it has is what is left of 2^64 (`writableSize_of_lt`): it does not grow, and
the next write goes past its storage (`writeChecked_of_lt`).
-/
import CloudMeeting.Lib.Run
import CloudMeeting.Server.Buffer

namespace CloudMeeting.Server.Buffer

open Run

/-! ### Operations, with their checks -/

inductive Op where
  | write (data : Bytes)
  | moveReadPos (size : Nat)
  | normalize
  | expandIfNeed (size : Nat)
  | reset
deriving DecidableEq, Repr

/-- `move_read_pos` with its `assert`. -/
def moveReadPosChecked (b : Buffer) (size : Nat) : Option Buffer :=
  if size ≤ b.readableSize then some (b.moveReadPos size) else none

/-- `move_write_pos` with its `assert`. -/
def moveWritePosChecked (b : Buffer) (size : Nat) : Option Buffer :=
  if size ≤ b.writableSize then some (b.moveWritePos size) else none

/-- The `memcpy` of `write`, which must not leave the storage. -/
def copyAtWriteChecked (b : Buffer) (data : Bytes) : Option Buffer :=
  if b.writePos + data.length ≤ b.size then some (b.copyAtWrite data) else none

def writeChecked (b : Buffer) (data : Bytes) : Option Buffer :=
  if data.length = 0 then some b
  else
    (copyAtWriteChecked (b.expandIfNeed data.length) data).bind fun b =>
      b.moveWritePosChecked data.length

def step (b : Buffer) : Op → Option Buffer
  | .write data => b.writeChecked data
  | .moveReadPos size => b.moveReadPosChecked size
  | .normalize => some b.normalize
  | .expandIfNeed size => some (b.expandIfNeed size)
  | .reset => some b.reset

/-- Only bytes that are there are consumed; the other operations may always be called. -/
def Consumes (b : Buffer) : Op → Prop
  | .moveReadPos size => size ≤ b.readableSize
  | _ => True

instance (b : Buffer) : ∀ op, Decidable (Consumes b op)
  | .write _ => isTrue trivial
  | .moveReadPos size => inferInstanceAs (Decidable (size ≤ b.readableSize))
  | .normalize => isTrue trivial
  | .expandIfNeed _ => isTrue trivial
  | .reset => isTrue trivial

/-- The same operations on a queue of bytes. -/
def Op.onQueue (queue : Bytes) : Op → Bytes
  | .write data => queue ++ data
  | .moveReadPos size => queue.drop size
  | .normalize => queue
  | .expandIfNeed _ => queue
  | .reset => []

/-! ### The queue refined -/

theorem reset_wf (b : Buffer) : b.reset.WF := ⟨Nat.le_refl _, Nat.zero_le _⟩

@[simp] theorem readable_reset (b : Buffer) : b.reset.readable = [] := by
  rw [(reset_wf b).readable_eq]
  exact List.take_zero

/-- Where the room asked for is there, the copy stays inside the storage. -/
theorem inside_of_writableSize {b : Buffer} (h : b.WF) {n : Nat} (hn : n ≤ b.writableSize) :
    b.writePos + n ≤ b.size := by
  have hinside := h.inside
  rw [h.writableSize_eq] at hn
  rw [size]
  omega

/-- Writing meets neither of its checks. -/
theorem writeChecked_eq {b : Buffer} (h : b.WF) (data : Bytes) :
    b.writeChecked data = some (b.write data) := by
  unfold writeChecked write
  by_cases hempty : data.length = 0
  · rw [if_pos hempty, if_pos hempty]
  · rw [if_neg hempty, if_neg hempty]
    have hwf := expandIfNeed_wf h data.length
    have hroom := le_writableSize_expandIfNeed h data.length
    obtain ⟨-, hsize, -⟩ := copy_spec hwf hroom
    rw [copyAtWriteChecked, if_pos (inside_of_writableSize hwf hroom), Option.bind_some,
      moveWritePosChecked, if_pos]
    simp only [size] at hsize
    simp only [writableSize, hsize]
    exact hroom

/-- A buffer in order that holds these bytes. -/
def Holds (b : Buffer) (queue : Bytes) : Prop := b.WF ∧ b.readable = queue

/-- One operation does to the buffer what it does to the queue. -/
theorem step_holds (b : Buffer) (queue : Bytes) (op : Op) (h : b.Holds queue)
    (hop : Consumes b op) : ∃ b', step b op = some b' ∧ b'.Holds (op.onQueue queue) := by
  obtain ⟨hwf, rfl⟩ := h
  cases op with
  | write data => exact ⟨b.write data, writeChecked_eq hwf data, write_spec hwf data⟩
  | moveReadPos size =>
      exact ⟨b.moveReadPos size, if_pos hop, moveReadPos_wf hwf hop,
        readable_moveReadPos hwf hop⟩
  | normalize => exact ⟨b.normalize, rfl, normalize_wf hwf, readable_normalize hwf⟩
  | expandIfNeed size =>
      exact ⟨b.expandIfNeed size, rfl, expandIfNeed_wf hwf size, readable_expandIfNeed hwf size⟩
  | reset => exact ⟨b.reset, rfl, reset_wf b, readable_reset b⟩

/-- **A buffer is a queue of bytes.**  No `assert` fails, no copy leaves the storage, the
positions are in order throughout, and what is readable is what the queue holds. -/
theorem refinesQueue (n : Nat) (ops : List Op) (h : Steps step Consumes (new n) ops) :
    ∃ b, run step (new n) ops = some b ∧ Throughout step WF (new n) ops ∧
      b.readable = ops.foldl Op.onQueue [] := by
  have hnew : (new n).Holds [] := ⟨new_wf n, readable_new n⟩
  obtain ⟨b, hrun, hholds, hthroughout⟩ := run_simulates step_holds hnew h
  refine ⟨b, hrun, hthroughout.mono ?_, hholds.2⟩
  intro b' hb'
  obtain ⟨queue, hwf, -⟩ := hb'
  exact hwf

/-- Into an empty buffer, over its capacity, past a fully consumed prefix. -/
def sampleOps : List Op :=
  [.write [1, 2, 3], .moveReadPos 3, .normalize, .write [4, 5], .moveReadPos 1, .expandIfNeed 6,
    .write [6], .write []]

theorem refinesQueue_sample :
    ∃ b, run step (new 0) sampleOps = some b ∧ Throughout step WF (new 0) sampleOps ∧
      b.readable = [5, 6] :=
  refinesQueue 0 sampleOps (by decide)

/-! ### Moving, resizing and taking the storage -/

/-- `Buffer(Buffer&& other)`: the new buffer, and what is left of `other`. -/
def moveConstruct (other : Buffer) : Buffer × Buffer :=
  (⟨other.buffer, other.readPos, other.writePos⟩, { other with buffer := [] })

/-- `operator=(Buffer&& other)` for another object: both, as they are afterwards. -/
def moveAssign (b other : Buffer) : Buffer × Buffer :=
  ({ b with buffer := other.buffer, readPos := other.readPos, writePos := other.writePos },
    { other with buffer := [] })

/-- `move()`: the positions are put back to the start, and the storage may be taken. -/
def move (b : Buffer) : Buffer := { b with readPos := 0, writePos := 0 }

/-- The storage that `move()` gives out has been moved from. -/
def taken (b : Buffer) : Buffer := { b.move with buffer := [] }

inductive Transfer where
  | moveConstruct
  /-- Assigned to another buffer. -/
  | moveAssign (target : Buffer)
  | selfAssign
  | resize (size : Nat)
  /-- `move()`, of which the result is not used. -/
  | move
  /-- `move()`, into another vector. -/
  | take
deriving DecidableEq, Repr

/-- Every buffer involved, as it is afterwards. -/
def Transfer.objects (b : Buffer) : Transfer → List Buffer
  | .moveConstruct => [b.moveConstruct.1, b.moveConstruct.2]
  | .moveAssign target => [(target.moveAssign b).1, (target.moveAssign b).2]
  | .selfAssign => [b]
  | .resize size => [b.resize size]
  | .move => [b.move]
  | .take => [b.taken]

/-- In order, so that neither size has wrapped, and a write stays inside the storage. -/
structure Sound (b : Buffer) : Prop where
  wf : b.WF
  readable : b.readPos + b.readableSize = b.writePos
  writable : b.writePos + b.writableSize = b.size
  inside : ∀ data : Bytes, data ≠ [] →
    (b.expandIfNeed data.length).writePos + data.length ≤ (b.expandIfNeed data.length).size

theorem sound_iff (b : Buffer) : b.Sound ↔ b.WF := by
  constructor
  · exact Sound.wf
  · intro h
    have horder := h.order
    have hinside := h.inside
    refine ⟨h, ?_, ?_, fun data _ => ?_⟩
    · rw [h.readableSize_eq]
      omega
    · rw [h.writableSize_eq, size]
      omega
    · exact inside_of_writableSize (expandIfNeed_wf h _) (le_writableSize_expandIfNeed h _)

/-- Behind the end of the storage the room left wraps. -/
theorem writableSize_of_lt {b : Buffer} (h : b.size < b.writePos) :
    b.writableSize = 2 ^ 64 - (b.writePos - b.size) :=
  sizeSub_of_lt h

/-- There a write does not make the storage grow, and goes past it. -/
theorem writeChecked_of_lt {b : Buffer} (h : b.size < b.writePos) {data : Bytes}
    (hdata : data ≠ []) (hroom : data.length ≤ b.writableSize) : b.writeChecked data = none := by
  have hkept : b.expandIfNeed data.length = b := if_neg (Nat.not_lt.mpr hroom)
  have hpast : ¬ b.writePos + data.length ≤ b.size := by omega
  rw [writeChecked, if_neg (mt List.length_eq_zero_iff.mp hdata), hkept, copyAtWriteChecked,
    if_neg hpast, Option.bind_none]

/-- Nothing has been written into a buffer that is moved, nor past the new size. -/
def Transfer.Harmless (b : Buffer) : Transfer → Prop
  | .moveConstruct => b.writePos = 0
  | .moveAssign _ => b.writePos = 0
  | .resize size => b.writePos ≤ size
  | _ => True

/-- What is left of a buffer that has been moved from is in order only if it was at the start. -/
theorem wf_emptied {b : Buffer} (h : b.WF) : ({ b with buffer := [] } : Buffer).WF ↔
    b.writePos = 0 := by
  constructor
  · intro hwf
    exact Nat.le_zero.mp hwf.inside
  · intro hzero
    exact ⟨h.order, Nat.le_of_eq hzero⟩

theorem resize_wf {b : Buffer} (h : b.WF) (n : Nat) : (b.resize n).WF ↔ b.writePos ≤ n := by
  have hlength := length_resize b n
  constructor
  · intro hwf
    have hle := hwf.inside
    rwa [hlength] at hle
  · intro hn
    exact ⟨h.order, by rw [hlength]; exact hn⟩

/-- **When a transfer leaves every buffer in order.** -/
theorem transfers_iff {b : Buffer} (h : b.WF) (t : Transfer) :
    (∀ object ∈ t.objects b, object.Sound) ↔ t.Harmless b := by
  simp only [sound_iff]
  cases t with
  | moveConstruct =>
      simp only [Transfer.objects, moveConstruct, Transfer.Harmless, List.forall_mem_cons,
        List.not_mem_nil, false_imp_iff, implies_true, and_true]
      rw [wf_emptied h]
      exact and_iff_right h
  | moveAssign target =>
      simp only [Transfer.objects, moveAssign, Transfer.Harmless, List.forall_mem_cons,
        List.not_mem_nil, false_imp_iff, implies_true, and_true]
      rw [wf_emptied h]
      exact and_iff_right h
  | selfAssign => simpa [Transfer.objects, Transfer.Harmless] using h
  | resize size =>
      simp only [Transfer.objects, Transfer.Harmless, List.forall_mem_singleton]
      exact resize_wf h size
  | move =>
      simp only [Transfer.objects, Transfer.Harmless, List.forall_mem_singleton, iff_true]
      exact ⟨Nat.le_refl _, Nat.zero_le _⟩
  | take =>
      simp only [Transfer.objects, Transfer.Harmless, List.forall_mem_singleton, iff_true]
      exact ⟨Nat.le_refl _, Nat.zero_le _⟩

theorem transfers_iff_sample :
    (∀ object ∈ (Transfer.resize 2).objects ((new 4).write [7]), object.Sound) ↔
      (Transfer.resize 2).Harmless ((new 4).write [7]) :=
  transfers_iff (write_spec (new_wf 4) [7]).1 (.resize 2)

/-- **A buffer with one byte in it is moved**: what is left of it has its write position behind
the end of its storage, room for nearly 2^64 bytes, and no room for one. -/
theorem movedFrom :
    ((new 4).write [7]).WF ∧
      ((new 4).write [7]).moveConstruct.2.writableSize = 2 ^ 64 - 1 ∧
      ((new 4).write [7]).moveConstruct.2.writeChecked [8] = none ∧
      ¬ ∀ object ∈ Transfer.moveConstruct.objects ((new 4).write [7]), object.Sound := by
  have hbehind : ((new 4).write [7]).moveConstruct.2.size
      < ((new 4).write [7]).moveConstruct.2.writePos := by decide
  have hroom : ((new 4).write [7]).moveConstruct.2.writableSize = 2 ^ 64 - 1 :=
    writableSize_of_lt hbehind
  refine ⟨(write_spec (new_wf 4) [7]).1, hroom, ?_, fun hsound => ?_⟩
  · exact writeChecked_of_lt hbehind (List.cons_ne_nil 8 []) (by rw [hroom]; decide)
  · have hleft := hsound ((new 4).write [7]).moveConstruct.2 (by simp [Transfer.objects])
    exact absurd hleft.wf.inside (by decide)

end CloudMeeting.Server.Buffer
