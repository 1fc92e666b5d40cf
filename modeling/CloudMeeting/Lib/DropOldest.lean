/-
Queues that drop their oldest entries.

A queue of a capacity takes every entry it is given, and keeps the last ones it has room for.
`run` is what a queue gives out under a list of operations, and what it holds afterwards.

Nothing is said about when an entry is dropped, and nothing has to be: `run_sublist` says that
what comes out and what is held are among the entries put in, in their order and each no more
often than it was put in, and `run_keeps` that the entries behind which fewer have come than
the queue has room for are all still there, or have come out.
-/
import Mathlib.Tactic.Common
import Mathlib.Data.List.Basic

namespace CloudMeeting.DropOldest

variable {α : Type}

inductive Op (α : Type) where
  | push (x : α)
  | pop
  | clear

/-- The last `capacity` of the entries held and the new one. -/
def push (capacity : Nat) (held : List α) (x : α) : List α :=
  (held ++ [x]).drop (held.length + 1 - capacity)

/-- What comes out in one operation, and what is held after it. -/
def step (capacity : Nat) (held : List α) : Op α → Option α × List α
  | .push x => (none, push capacity held x)
  | .pop => (held.head?, held.tail)
  | .clear => (none, [])

/-- What comes out under a list of operations, and what is held after them. -/
def run (capacity : Nat) : List α → List (Op α) → List α × List α
  | held, [] => ([], held)
  | held, op :: ops =>
      let (out, rest) := step capacity held op
      (out.toList ++ (run capacity rest ops).1, (run capacity rest ops).2)

/-- The entries put in. -/
def pushes : List (Op α) → List α
  | [] => []
  | .push x :: ops => x :: pushes ops
  | _ :: ops => pushes ops

variable {capacity : Nat}

theorem pushes_append (ops ops' : List (Op α)) :
    pushes (ops ++ ops') = pushes ops ++ pushes ops' := by
  induction ops with
  | nil => rfl
  | cons op ops ih => cases op <;> simp [pushes, ih]

theorem run_append (held : List α) (ops ops' : List (Op α)) :
    run capacity held (ops ++ ops') =
      ((run capacity held ops).1 ++ (run capacity (run capacity held ops).2 ops').1,
        (run capacity (run capacity held ops).2 ops').2) := by
  induction ops generalizing held with
  | nil => rfl
  | cons op ops ih => simp [run, ih]

theorem length_push_le (held : List α) (x : α) : (push capacity held x).length ≤ capacity := by
  unfold push
  rw [List.length_drop, List.length_append, List.length_singleton]
  omega

theorem length_step_le {held : List α} (h : held.length ≤ capacity) (op : Op α) :
    (step capacity held op).2.length ≤ capacity := by
  cases op with
  | push x => exact length_push_le held x
  | pop =>
      show held.tail.length ≤ capacity
      rw [List.length_tail]
      omega
  | clear => exact Nat.zero_le capacity

theorem length_run_le {held : List α} (h : held.length ≤ capacity) (ops : List (Op α)) :
    (run capacity held ops).2.length ≤ capacity := by
  induction ops generalizing held with
  | nil => exact h
  | cons op ops ih => exact ih (length_step_le h op)

variable (capacity) in
/-- What an operation gives out and leaves was held before it or is put in by it. -/
theorem step_sublist (held : List α) (op : Op α) :
    ((step capacity held op).1.toList ++ (step capacity held op).2).Sublist
      (held ++ pushes [op]) := by
  cases op with
  | push x => exact List.drop_sublist _ _
  | pop =>
      cases held with
      | nil => exact List.Sublist.refl []
      | cons y held => simp [step, pushes]
  | clear => exact List.nil_sublist _

/-- What comes out and what is held was put in, in this order and as often. -/
theorem run_sublist (held : List α) (ops : List (Op α)) :
    ((run capacity held ops).1 ++ (run capacity held ops).2).Sublist (held ++ pushes ops) := by
  induction ops generalizing held with
  | nil => simp [run, pushes]
  | cons op ops ih =>
      have hstep := step_sublist capacity held op
      have hrest := ih (step capacity held op).2
      have hsplit : pushes (op :: ops) = pushes [op] ++ pushes ops := pushes_append [op] ops
      rw [hsplit, ← List.append_assoc]
      refine List.Sublist.trans ?_ (hstep.append_right (pushes ops))
      show ((step capacity held op).1.toList ++ _ ++ _).Sublist _
      rw [List.append_assoc, List.append_assoc]
      exact hrest.append_left _

/-- The entries behind which there is room are not dropped. -/
theorem push_keeps (older : List α) {kept : List α} (x : α) (h : kept.length < capacity) :
    ∃ left, left.Sublist older ∧ push capacity (older ++ kept) x = left ++ (kept ++ [x]) := by
  refine ⟨older.drop (older.length + kept.length + 1 - capacity), List.drop_sublist _ _, ?_⟩
  unfold push
  have hlength : (older ++ kept).length = older.length + kept.length := List.length_append
  rw [hlength, List.append_assoc, List.drop_append_of_le_length (by omega)]

/-- Entries that stay within the capacity together with all that come behind them are not lost:
they come out or are held, and so do those that come behind them. -/
theorem run_keeps (older : List α) {kept : List α} {ops : List (Op α)} (hclear : .clear ∉ ops)
    (hroom : kept.length + (pushes ops).length ≤ capacity) :
    ∃ left, left.Sublist older ∧
      (run capacity (older ++ kept) ops).1 ++ (run capacity (older ++ kept) ops).2 =
        left ++ (kept ++ pushes ops) := by
  induction ops generalizing older kept with
  | nil => exact ⟨older, List.Sublist.refl older, by simp [run, pushes]⟩
  | cons op ops ih =>
      have hrest : .clear ∉ ops := fun h => hclear (List.mem_cons_of_mem op h)
      cases op with
      | push x =>
          have hroom : kept.length + ((pushes ops).length + 1) ≤ capacity := hroom
          obtain ⟨left, hleft, hpush⟩ := push_keeps older x
            (show kept.length < capacity by omega)
          have hroom' : (kept ++ [x]).length + (pushes ops).length ≤ capacity := by
            rw [List.length_append, List.length_singleton]
            omega
          obtain ⟨last, hlast, hrun⟩ := ih left hrest hroom'
          refine ⟨last, hlast.trans hleft, ?_⟩
          simpa [pushes, run, step, hpush] using hrun
      | pop =>
          cases older with
          | cons y older =>
              obtain ⟨left, hleft, hrun⟩ := ih older hrest hroom
              exact ⟨y :: left, hleft.cons_cons y, by simpa [run, step, pushes] using hrun⟩
          | nil =>
              cases kept with
              | nil =>
                  obtain ⟨left, hleft, hrun⟩ := @ih [] [] hrest hroom
                  exact ⟨left, hleft, by simpa [run, step, pushes] using hrun⟩
              | cons y kept =>
                  have hroom : kept.length + 1 + (pushes ops).length ≤ capacity := hroom
                  obtain ⟨left, hleft, hrun⟩ := @ih [] kept hrest (by omega)
                  obtain rfl := List.sublist_nil.mp hleft
                  exact ⟨[], hleft, by simpa [run, step, pushes] using hrun⟩
      | clear => exact absurd List.mem_cons_self hclear

end CloudMeeting.DropOldest
