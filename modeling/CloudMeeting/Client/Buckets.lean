/-
What the send queue is for.

Under its lock, `PriorityMessageQueue` is four queues that drop their oldest entries, one for
each priority: `seen` is what an operation on the whole is to the queue of one priority.  A
push or a clearing of the videos concerns one of them, a clearing all of them, and a pop the
most urgent one that holds anything.
-/
import CloudMeeting.Lib.DropOldest
import CloudMeeting.Client.SendQueue
import Mathlib.Data.List.Perm.Subperm

namespace CloudMeeting.Client

open CloudMeeting.DropOldest (Op pushes)

variable {Image : Type}

/-- An operation on the queue by a thread that gets the lock. -/
inductive QueueOp (Image : Type) where
  | push (msg : MessagePtr Image)
  | pop
  | clearVideo
  | clear

namespace QueueOp

def pushed : QueueOp Image → List (MessagePtr Image)
  | .push msg => [msg]
  | _ => []

/-- The operation empties the bucket of a priority. -/
def Clears (priority : MessagePriority) : QueueOp Image → Prop
  | .clear => True
  | .clearVideo => priority = .video
  | _ => False

end QueueOp

/-- The messages of a priority, in their order. -/
def ofPriority (priority : MessagePriority) (msgs : List (MessagePtr Image)) :
    List (MessagePtr Image) :=
  msgs.filter fun msg => msg.message.sendPriority = priority

/-- The messages of a priority that are pushed. -/
def pushedTo (priority : MessagePriority) (ops : List (QueueOp Image)) :
    List (MessagePtr Image) :=
  ofPriority priority (ops.flatMap QueueOp.pushed)

namespace PriorityMessageQueue

def apply (q : PriorityMessageQueue Image) :
    QueueOp Image → Option (MessagePtr Image) × PriorityMessageQueue Image
  | .push msg => (none, q.push msg true)
  | .pop => q.pop
  | .clearVideo => (none, q.clearVideo true)
  | .clear => (none, q.clear true)

/-- What is popped in a sequence of operations, and the queue after them. -/
def serve : PriorityMessageQueue Image → List (QueueOp Image) →
    List (MessagePtr Image) × PriorityMessageQueue Image
  | q, [] => ([], q)
  | q, op :: ops =>
      let (out, q) := q.apply op
      (out.toList ++ (serve q ops).1, (serve q ops).2)

/-- What an operation is to the bucket of one priority. -/
def seen (priority : MessagePriority) (q : PriorityMessageQueue Image) :
    QueueOp Image → List (Op (MessagePtr Image))
  | .push msg => (ofPriority priority [msg]).map .push
  | .pop => (ofPriority priority q.pop.1.toList).map fun _ => .pop
  | .clearVideo => if priority = .video then [.clear] else []
  | .clear => [.clear]

def seenAll (priority : MessagePriority) : PriorityMessageQueue Image → List (QueueOp Image) →
    List (Op (MessagePtr Image))
  | _, [] => []
  | q, op :: ops => q.seen priority op ++ seenAll priority (q.apply op).2 ops

variable {q : PriorityMessageQueue Image}

/-! ### Making room is keeping the last -/

theorem popExcess_eq_drop {α : Type} (maxSize : Nat) (bucket : List α) :
    popExcess maxSize bucket = bucket.drop (bucket.length + 1 - maxSize) := by
  induction bucket with
  | nil => simp [popExcess]
  | cons x bucket ih =>
      unfold popExcess
      split
      · rename_i hfull
        rw [List.length_cons] at hfull
        have hone : (x :: bucket).length + 1 - maxSize = bucket.length + 1 - maxSize + 1 := by
          rw [List.length_cons]
          omega
        rw [ih, hone, List.drop_succ_cons]
      · rename_i hfull
        have hzero : (x :: bucket).length + 1 - maxSize = 0 := by omega
        rw [hzero, List.drop_zero]

theorem pushBounded_eq_push {α : Type} {maxSize : Nat} (h : 0 < maxSize) (bucket : List α)
    (msg : α) : pushBounded bucket msg maxSize = DropOldest.push maxSize bucket msg := by
  unfold pushBounded DropOldest.push
  rw [if_neg (Nat.ne_of_gt h), popExcess_eq_drop, List.drop_append_of_le_length (by omega)]

theorem maxsize_pos (priority : MessagePriority) : 0 < priority.maxsize := by
  cases priority <;> decide

/-! ### Four queues -/

theorem Sorted.apply (h : q.Sorted) (op : QueueOp Image) : (q.apply op).2.Sorted := by
  cases op with
  | push msg => exact h.push msg true
  | pop => exact h.pop
  | clearVideo => exact h.clearVideo true
  | clear => exact h.clear true

theorem Sorted.serve (h : q.Sorted) (ops : List (QueueOp Image)) : (q.serve ops).2.Sorted := by
  induction ops generalizing q with
  | nil => exact h
  | cons op ops ih => exact ih (h.apply op)

theorem ofPriority_append (priority : MessagePriority) (msgs msgs' : List (MessagePtr Image)) :
    ofPriority priority (msgs ++ msgs') = ofPriority priority msgs ++ ofPriority priority msgs' :=
  List.filter_append ..

theorem ofPriority_self (msg : MessagePtr Image) :
    ofPriority msg.message.sendPriority [msg] = [msg] := by
  simp [ofPriority]

theorem ofPriority_of_ne {priority : MessagePriority} {msg : MessagePtr Image}
    (h : msg.message.sendPriority ≠ priority) : ofPriority priority [msg] = [] := by
  simp [ofPriority, h]

theorem buckets_push (q : PriorityMessageQueue Image) (msg : MessagePtr Image) :
    (q.push msg true).buckets msg.message.sendPriority =
      DropOldest.push msg.message.sendPriority.maxsize (q.buckets msg.message.sendPriority)
        msg := by
  unfold push
  rw [if_pos rfl, setBucket_self]
  exact pushBounded_eq_push (maxsize_pos _) _ msg

/-- One operation is, to each bucket, what it is seen as there. -/
theorem apply_eq (h : q.Sorted) (priority : MessagePriority) (op : QueueOp Image) :
    (ofPriority priority (q.apply op).1.toList, (q.apply op).2.buckets priority) =
      DropOldest.run priority.maxsize (q.buckets priority) (q.seen priority op) := by
  cases op with
  | push msg =>
      by_cases hpriority : msg.message.sendPriority = priority
      · subst hpriority
        simp only [apply, buckets_push, seen, ofPriority_self]
        rfl
      · have hother := Ne.symm hpriority
        simp only [apply, push, seen, ofPriority_of_ne hpriority, if_true, setBucket_of_ne hother]
        rfl
  | pop =>
      rcases q.pop_cases with ⟨_, hpop⟩ | ⟨first, msg, bucket, hbucket, _, hpop⟩
      · simp only [apply, seen, hpop]
        rfl
      · have hmsg : msg.message.sendPriority = first := h first msg (by simp [hbucket])
        by_cases hpriority : first = priority
        · subst hpriority
          have hself : ofPriority first [msg] = [msg] := hmsg ▸ ofPriority_self msg
          simp only [apply, seen, hpop, Option.toList_some, hself, setBucket_self, hbucket]
          rfl
        · have hnone : ofPriority priority [msg] = [] := ofPriority_of_ne (hmsg ▸ hpriority)
          have hother := Ne.symm hpriority
          simp only [apply, seen, hpop, Option.toList_some, hnone, setBucket_of_ne hother]
          rfl
  | clearVideo =>
      by_cases hpriority : priority = .video
      · subst hpriority
        simp only [apply, seen, clearVideo, if_true, setBucket_self]
        rfl
      · simp only [apply, seen, clearVideo, if_true, if_neg hpriority, setBucket_of_ne hpriority]
        rfl
  | clear => rfl

/-- **The queue is four queues that drop their oldest entries.** -/
theorem serve_eq (h : q.Sorted) (priority : MessagePriority) (ops : List (QueueOp Image)) :
    (ofPriority priority (q.serve ops).1, (q.serve ops).2.buckets priority) =
      DropOldest.run priority.maxsize (q.buckets priority) (q.seenAll priority ops) := by
  induction ops generalizing q with
  | nil => rfl
  | cons op ops ih =>
      have hstep := apply_eq h priority op
      have hrest := ih (h.apply op)
      rw [Prod.ext_iff] at hstep hrest
      show (ofPriority priority ((q.apply op).1.toList ++ ((q.apply op).2.serve ops).1), _) = _
      rw [seenAll, DropOldest.run_append, ← hstep.1, ← hstep.2, ← hrest.1, ← hrest.2,
        ofPriority_append]
      rfl

theorem ofPriority_serve (h : q.Sorted) (priority : MessagePriority)
    (ops : List (QueueOp Image)) :
    ofPriority priority (q.serve ops).1 =
      (DropOldest.run priority.maxsize (q.buckets priority) (q.seenAll priority ops)).1 :=
  (Prod.ext_iff.mp (serve_eq h priority ops)).1

theorem buckets_serve (h : q.Sorted) (priority : MessagePriority) (ops : List (QueueOp Image)) :
    (q.serve ops).2.buckets priority =
      (DropOldest.run priority.maxsize (q.buckets priority) (q.seenAll priority ops)).2 :=
  (Prod.ext_iff.mp (serve_eq h priority ops)).2

/-! ### What the four queues are given -/

theorem pushes_seen (priority : MessagePriority) (q : PriorityMessageQueue Image)
    (op : QueueOp Image) : pushes (q.seen priority op) = ofPriority priority op.pushed := by
  cases op with
  | push msg =>
      by_cases hpriority : msg.message.sendPriority = priority
      · subst hpriority
        simp only [seen, QueueOp.pushed, ofPriority_self]
        rfl
      · simp only [seen, QueueOp.pushed, ofPriority_of_ne hpriority]
        rfl
  | pop =>
      have hpops : ∀ msgs : List (MessagePtr Image),
          pushes (msgs.map fun _ => (Op.pop : Op (MessagePtr Image))) = [] := by
        intro msgs
        induction msgs with
        | nil => rfl
        | cons msg msgs ih => exact ih
      exact hpops _
  | clearVideo =>
      by_cases hpriority : priority = .video
      · simp only [seen, if_pos hpriority]
        rfl
      · simp only [seen, if_neg hpriority]
        rfl
  | clear => rfl

theorem pushes_seenAll (priority : MessagePriority) (q : PriorityMessageQueue Image)
    (ops : List (QueueOp Image)) :
    pushes (q.seenAll priority ops) = pushedTo priority ops := by
  induction ops generalizing q with
  | nil => rfl
  | cons op ops ih =>
      rw [seenAll, DropOldest.pushes_append, pushes_seen, ih, pushedTo, pushedTo,
        List.flatMap_cons, ofPriority_append]

theorem clear_mem_seen {priority : MessagePriority} {op : QueueOp Image}
    (h : .clear ∈ q.seen priority op) : op.Clears priority := by
  cases op with
  | push msg => simp [seen] at h
  | pop => simp [seen] at h
  | clearVideo =>
      by_contra hpriority
      simp [seen, if_neg (show ¬ priority = .video from hpriority)] at h
  | clear => exact trivial

theorem clear_mem_seenAll {priority : MessagePriority} {ops : List (QueueOp Image)}
    (h : .clear ∈ q.seenAll priority ops) : ∃ op ∈ ops, op.Clears priority := by
  induction ops generalizing q with
  | nil => simp [seenAll] at h
  | cons op ops ih =>
      rcases List.mem_append.mp h with hfirst | hrest
      · exact ⟨op, List.mem_cons_self, clear_mem_seen hfirst⟩
      · obtain ⟨other, hother, hclears⟩ := ih hrest
        exact ⟨other, List.mem_cons_of_mem op hother, hclears⟩

/-! ### What is promised -/

theorem serve_append (q : PriorityMessageQueue Image) (ops ops' : List (QueueOp Image)) :
    q.serve (ops ++ ops') =
      ((q.serve ops).1 ++ ((q.serve ops).2.serve ops').1, ((q.serve ops).2.serve ops').2) := by
  induction ops generalizing q with
  | nil => rfl
  | cons op ops ih => simp [serve, ih]

/-- What is promised of a queue that has been through `ops`. -/
structure Refines (ops : List (QueueOp Image)) : Prop where
  /-- It has given out, and holds, what four queues that drop their oldest entries would. -/
  fifos : ∀ priority,
    (ofPriority priority (serve {} ops).1, (serve {} ops).2.buckets priority) =
      DropOldest.run priority.maxsize [] (seenAll priority {} ops)
  bounded : ∀ priority, ((serve {} ops).2.buckets priority).length ≤ priority.maxsize
  /-- The next message is the first one of the most urgent bucket that holds any. -/
  urgent : ∀ msg, (serve {} ops).2.pop.1 = some msg → ∃ priority bucket,
    (serve {} ops).2.buckets priority = msg :: bucket ∧
      ∀ other : MessagePriority, other.index < priority.index →
        (serve {} ops).2.buckets other = []
  nothing : (serve {} ops).2.pop.1 = none ↔ ∀ priority, (serve {} ops).2.buckets priority = []
  once : (serve {} ops).1.Subperm (ops.flatMap QueueOp.pushed)
  /-- What came out of a priority and then what it holds are in the order they were pushed in. -/
  order : ∀ priority,
    (ofPriority priority (serve {} ops).1 ++ (serve {} ops).2.buckets priority).Sublist
      (pushedTo priority ops)
  /-- A message behind which fewer have been pushed than its bucket has room for, and whose
  bucket has not been cleared since, has come out or is held; only older ones can be missing. -/
  kept : ∀ before msg since, ops = before ++ .push msg :: since →
    (∀ op ∈ since, ¬ op.Clears msg.message.sendPriority) →
    (pushedTo msg.message.sendPriority since).length < msg.message.sendPriority.maxsize →
    ∃ older, older.Sublist ((serve {} before).2.buckets msg.message.sendPriority) ∧
      ofPriority msg.message.sendPriority
          (((serve {} before).2.push msg true).serve since).1 ++
        (serve {} ops).2.buckets msg.message.sendPriority =
      older ++ msg :: pushedTo msg.message.sendPriority since

/-- What has come out of each priority as often as it was pushed has come out of the whole so. -/
theorem subperm_of_ofPriority {msgs msgs' : List (MessagePtr Image)}
    (h : ∀ priority, (ofPriority priority msgs).Sublist (ofPriority priority msgs')) :
    msgs.Subperm msgs' := by
  classical
  apply List.subperm_ext_iff.mpr
  intro msg _
  have hcount : ∀ l : List (MessagePtr Image),
      (ofPriority msg.message.sendPriority l).count msg = l.count msg := fun l =>
    List.count_filter (by simp)
  rw [← hcount msgs, ← hcount msgs']
  exact (h msg.message.sendPriority).count_le msg

theorem keeps {before since : List (QueueOp Image)} {msg : MessagePtr Image}
    (hclear : ∀ op ∈ since, ¬ op.Clears msg.message.sendPriority)
    (hroom : (pushedTo msg.message.sendPriority since).length
      < msg.message.sendPriority.maxsize) :
    ∃ older, older.Sublist ((serve {} before).2.buckets msg.message.sendPriority) ∧
      ofPriority msg.message.sendPriority
          (((serve {} before).2.push msg true).serve since).1 ++
        (serve {} (before ++ .push msg :: since)).2.buckets msg.message.sendPriority =
      older ++ msg :: pushedTo msg.message.sendPriority since := by
  have hserve : (serve {} (before ++ .push msg :: since)).2 =
      (((serve {} before).2.push msg true).serve since).2 := by
    rw [serve_append]
    rfl
  have hsorted : ((serve {} before).2.push msg true).Sorted :=
    (Sorted.init.serve before).push msg true
  generalize (serve {} before).2 = q at *
  -- The push leaves the message behind some of those that were there.
  obtain ⟨left, hleft, hpush⟩ := @DropOldest.push_keeps _ _
    (q.buckets msg.message.sendPriority) [] msg (maxsize_pos _)
  rw [List.append_nil, List.nil_append, ← buckets_push] at hpush
  have hnone : .clear ∉ (q.push msg true).seenAll msg.message.sendPriority since := by
    intro hmem
    obtain ⟨op, hop, hclears⟩ := clear_mem_seenAll hmem
    exact hclear op hop hclears
  have hsince : [msg].length +
      (pushes ((q.push msg true).seenAll msg.message.sendPriority since)).length
        ≤ msg.message.sendPriority.maxsize := by
    rw [pushes_seenAll, List.length_singleton]
    omega
  obtain ⟨older, holder, hkeeps⟩ := DropOldest.run_keeps left hnone hsince
  refine ⟨older, holder.trans hleft, ?_⟩
  rw [hserve, ofPriority_serve hsorted, buckets_serve hsorted, hpush, hkeeps, pushes_seenAll]
  rfl

/-- **Under its lock, the queue is four queues that drop their oldest entries.** -/
theorem refines (ops : List (QueueOp Image)) : Refines ops := by
  have horder : ∀ priority,
      (ofPriority priority (serve {} ops).1 ++ (serve {} ops).2.buckets priority).Sublist
        (pushedTo priority ops) := by
    intro priority
    rw [ofPriority_serve Sorted.init, buckets_serve Sorted.init, ← pushes_seenAll priority {} ops]
    exact DropOldest.run_sublist [] _
  refine
    { fifos := fun priority => serve_eq Sorted.init priority ops
      bounded := fun priority => ?_
      urgent := fun msg hmsg => ?_
      nothing := ?_
      once := subperm_of_ofPriority fun priority =>
        (List.sublist_append_left _ _).trans (horder priority)
      order := horder
      kept := fun before msg since hops hclear hroom => hops ▸ keeps hclear hroom }
  · rw [buckets_serve Sorted.init]
    exact DropOldest.length_run_le (Nat.zero_le _) _
  · rcases (serve {} ops).2.pop_cases with
      ⟨_, hpop⟩ | ⟨first, front, bucket, hbucket, hurgent, hpop⟩
    · simp [hpop] at hmsg
    · rw [hpop, Option.some.injEq] at hmsg
      exact ⟨first, bucket, hmsg ▸ hbucket, hurgent⟩
  · rcases (serve {} ops).2.pop_cases with
      ⟨hempty, hpop⟩ | ⟨first, front, bucket, hbucket, _, hpop⟩
    · simp [hpop, hempty]
    · rw [hpop]
      refine ⟨fun h => by simp at h, fun hempty => ?_⟩
      simp [hempty first] at hbucket

end PriorityMessageQueue

end CloudMeeting.Client
