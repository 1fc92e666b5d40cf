/-
Queues that refuse new entries.

A queue of a capacity takes an entry as long as it has room, and leaves out what comes
while it is full.  Its operations are those of a queue that drops its oldest entries.

What comes out and what is held are among the entries put in, in their order
(`run_sublist`).  They are all of them where each found room (`run_eq`), and where nothing
is taken out, they are the first ones there is room for (`run_pushes`).
-/
import CloudMeeting.Lib.DropOldest

namespace CloudMeeting.Refusing

open DropOldest

variable {α : Type}

def push (capacity : Nat) (held : List α) (x : α) : List α :=
  if held.length < capacity then held ++ [x] else held

/-- What comes out in one operation, and what is held after it. -/
def step (capacity : Nat) (held : List α) : Op α → Option α × List α
  | .push x => (none, push capacity held x)
  | .pop => (held.head?, held.tail)
  | .clear => (none, [])

/-- What comes out under a list of operations, and what is held after them. -/
def run (capacity : Nat) : List α → List (Op α) → List α × List α
  | held, [] => ([], held)
  | held, op :: ops =>
      let (out, rest) := step capacity held op
      (out.toList ++ (run capacity rest ops).1, (run capacity rest ops).2)

/-- Every entry finds room, and nothing is cleared. -/
def Taken (capacity : Nat) : List α → List (Op α) → Prop
  | _, [] => True
  | held, op :: ops =>
      (match op with
        | .push _ => held.length < capacity
        | .pop => True
        | .clear => False) ∧ Taken capacity (step capacity held op).2 ops

variable {capacity : Nat} {held : List α}

theorem run_append (held : List α) (ops ops' : List (Op α)) :
    run capacity held (ops ++ ops') =
      ((run capacity held ops).1 ++ (run capacity (run capacity held ops).2 ops').1,
        (run capacity (run capacity held ops).2 ops').2) := by
  induction ops generalizing held with
  | nil => rfl
  | cons op ops ih => simp [run, ih]

theorem length_push_le (h : held.length ≤ capacity) (x : α) :
    (push capacity held x).length ≤ capacity := by
  unfold push
  split
  · rw [List.length_append, List.length_singleton]
    omega
  · exact h

theorem length_run_le (h : held.length ≤ capacity) (ops : List (Op α)) :
    (run capacity held ops).2.length ≤ capacity := by
  induction ops generalizing held with
  | nil => exact h
  | cons op ops ih =>
      refine ih ?_
      cases op with
      | push x => exact length_push_le h x
      | pop =>
          show held.tail.length ≤ capacity
          rw [List.length_tail]
          omega
      | clear => exact Nat.zero_le capacity

theorem push_sublist (held : List α) (x : α) : (push capacity held x).Sublist (held ++ [x]) := by
  unfold push
  split
  · exact List.Sublist.refl _
  · exact List.sublist_append_left held [x]

variable (capacity) in
/-- What an operation gives out and leaves was held before it or is put in by it. -/
theorem step_sublist (held : List α) (op : Op α) :
    ((step capacity held op).1.toList ++ (step capacity held op).2).Sublist
      (held ++ pushes [op]) := by
  cases op with
  | push x => exact push_sublist held x
  | pop =>
      cases held with
      | nil => exact List.Sublist.refl []
      | cons y held => simp [step, pushes]
  | clear => exact List.nil_sublist _

variable (capacity) in
/-- What comes out and what is held was put in, in this order and as often. -/
theorem run_sublist (held : List α) (ops : List (Op α)) :
    ((run capacity held ops).1 ++ (run capacity held ops).2).Sublist (held ++ pushes ops) := by
  induction ops generalizing held with
  | nil => simp [run, pushes]
  | cons op ops ih =>
      have hsplit : pushes (op :: ops) = pushes [op] ++ pushes ops := pushes_append [op] ops
      rw [hsplit, ← List.append_assoc]
      refine List.Sublist.trans ?_ ((step_sublist capacity held op).append_right (pushes ops))
      show ((step capacity held op).1.toList ++ _ ++ _).Sublist _
      rw [List.append_assoc, List.append_assoc]
      exact (ih (step capacity held op).2).append_left _

theorem Taken.append {ops ops' : List (Op α)} (h : Taken capacity held ops)
    (h' : Taken capacity (run capacity held ops).2 ops') : Taken capacity held (ops ++ ops') := by
  induction ops generalizing held with
  | nil => exact h'
  | cons op ops ih => exact ⟨h.1, ih h.2 h'⟩

/-- Nothing is lost where everything found room. -/
theorem run_eq {ops : List (Op α)} (h : Taken capacity held ops) :
    (run capacity held ops).1 ++ (run capacity held ops).2 = held ++ pushes ops := by
  induction ops generalizing held with
  | nil => simp [run, pushes]
  | cons op ops ih =>
      have hrest := ih h.2
      cases op with
      | push x =>
          have hroom : held.length < capacity := h.1
          simp only [run, step, push, if_pos hroom, Option.toList_none, List.nil_append] at hrest ⊢
          rw [hrest, List.append_assoc]
          rfl
      | pop =>
          cases held with
          | nil => simpa [run, step, pushes] using hrest
          | cons y held => simpa [run, step, pushes] using hrest
      | clear => exact h.1.elim

/-- Where nothing is taken out, the first entries are held, as many as there is room for. -/
theorem run_pushes (h : held.length ≤ capacity) (xs : List α) :
    run capacity held (xs.map .push) = ([], (held ++ xs).take capacity) := by
  induction xs generalizing held with
  | nil => simp [run, List.take_of_length_le h]
  | cons x xs ih =>
      have hrest := ih (length_push_le h x)
      by_cases hroom : held.length < capacity
      · rw [push, if_pos hroom, List.append_assoc, List.singleton_append] at hrest
        simp [run, step, push, hroom, hrest]
      · rw [push, if_neg hroom, List.take_append_of_le_length (by omega)] at hrest
        have htake : (held ++ x :: xs).take capacity = held.take capacity :=
          List.take_append_of_le_length (by omega)
        simp [run, step, push, hroom, hrest, htake]

end CloudMeeting.Refusing
