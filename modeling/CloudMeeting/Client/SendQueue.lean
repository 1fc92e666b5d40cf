/-
The queue of messages to be sent.

`PriorityMessageQueue` keeps one bucket for each priority.  A bucket that is full gives up
its oldest message for a new one, and the next message out is the oldest one of the most
urgent bucket that holds any.

Messages are passed as pointers, so two equal messages are still two; a `MessagePtr` has the
number under which its message was handed in.  Every operation runs under the queue's lock
and is one step here.  Where the source may give up on the lock, whether it got it is an
argument.  Null pointers are not pushed, and there are none here.
-/
import CloudMeeting.Client.Message
import Mathlib.Logic.Function.Basic

namespace CloudMeeting.Client

inductive MessagePriority where
  | control
  | audio
  | text
  | video
deriving DecidableEq, Repr

/-- The number of a priority: the lower it is, the more urgent. -/
def MessagePriority.index : MessagePriority → Nat
  | .control => 0
  | .audio => 1
  | .text => 2
  | .video => 3

structure MessagePtr (Image : Type) where
  serial : Nat
  message : Message Image
deriving DecidableEq

variable {Image : Type}

def Message.sendPriority : Message Image → MessagePriority
  | .sendText _ => .text
  | .sendImage _ => .video
  | .sendAudio _ => .audio
  | _ => .control

def queueMaxsize : Nat := 1500

def videoQueueMaxsize : Nat := 3

def audioQueueMaxsize : Nat := 64

/-- How many messages the bucket of a priority can hold. -/
def MessagePriority.maxsize : MessagePriority → Nat
  | .video => videoQueueMaxsize
  | .audio => audioQueueMaxsize
  | .text => queueMaxsize
  | .control => queueMaxsize

/-! ### Buckets -/

section Bucket

variable {α : Type}

/-- Take messages off the front while there are `maxSize` or more. -/
def popExcess (maxSize : Nat) : List α → List α
  | [] => []
  | x :: bucket => if maxSize ≤ (x :: bucket).length then popExcess maxSize bucket else x :: bucket

def pushBounded (bucket : List α) (msg : α) (maxSize : Nat) : List α :=
  if maxSize = 0 then bucket else popExcess maxSize bucket ++ [msg]

theorem popExcess_sublist (maxSize : Nat) (bucket : List α) :
    (popExcess maxSize bucket).Sublist bucket := by
  induction bucket with
  | nil => exact List.Sublist.refl []
  | cons x bucket ih =>
      unfold popExcess
      split
      · exact ih.cons x
      · exact List.Sublist.refl _

theorem pushBounded_sublist (bucket : List α) (msg : α) (maxSize : Nat) :
    (pushBounded bucket msg maxSize).Sublist (bucket ++ [msg]) := by
  unfold pushBounded
  split
  · exact List.sublist_append_left bucket [msg]
  · exact (popExcess_sublist maxSize bucket).append_right [msg]

end Bucket

/-! ### The queue -/

structure PriorityMessageQueue (Image : Type) where
  buckets : MessagePriority → List (MessagePtr Image) := fun _ => []

namespace PriorityMessageQueue

def setBucket (q : PriorityMessageQueue Image) (priority : MessagePriority)
    (bucket : List (MessagePtr Image)) : PriorityMessageQueue Image :=
  { q with buckets := Function.update q.buckets priority bucket }

/-- Nothing is pushed by a thread that does not get the lock in two seconds. -/
def push (q : PriorityMessageQueue Image) (msg : MessagePtr Image) (locked : Bool) :
    PriorityMessageQueue Image :=
  let priority := msg.message.sendPriority
  if locked then
    q.setBucket priority (pushBounded (q.buckets priority) msg priority.maxsize)
  else q

/-- Take the front of the first bucket that is not empty. -/
def popFrom (q : PriorityMessageQueue Image) :
    List MessagePriority → Option (MessagePtr Image) × PriorityMessageQueue Image
  | [] => (none, q)
  | priority :: priorities =>
      match q.buckets priority with
      | [] => q.popFrom priorities
      | msg :: bucket => (some msg, q.setBucket priority bucket)

/-- What a thread gets that waits for a message, nothing when its time is over first. -/
def pop (q : PriorityMessageQueue Image) :
    Option (MessagePtr Image) × PriorityMessageQueue Image :=
  q.popFrom [.control, .audio, .text, .video]

/-- Nothing is cleared when eight attempts to get the lock fail. -/
def clear (q : PriorityMessageQueue Image) (locked : Bool) : PriorityMessageQueue Image :=
  if locked then { buckets := fun _ => [] } else q

def clearVideo (q : PriorityMessageQueue Image) (locked : Bool) : PriorityMessageQueue Image :=
  if locked then q.setBucket .video [] else q

variable {q : PriorityMessageQueue Image}

@[simp] theorem setBucket_self (priority : MessagePriority) (bucket : List (MessagePtr Image)) :
    (q.setBucket priority bucket).buckets priority = bucket := by
  unfold setBucket
  exact Function.update_self ..

theorem setBucket_of_ne {priority other : MessagePriority} (h : other ≠ priority)
    (bucket : List (MessagePtr Image)) :
    (q.setBucket priority bucket).buckets other = q.buckets other := by
  unfold setBucket
  exact Function.update_of_ne h ..

/-- Every message is in the bucket of its priority. -/
def Sorted (q : PriorityMessageQueue Image) : Prop :=
  ∀ priority, ∀ msg ∈ q.buckets priority, msg.message.sendPriority = priority

theorem Sorted.init : ({} : PriorityMessageQueue Image).Sorted :=
  fun _ _ hmsg => absurd hmsg List.not_mem_nil

theorem Sorted.setBucket (h : q.Sorted) {priority : MessagePriority}
    {bucket : List (MessagePtr Image)}
    (hbucket : ∀ msg ∈ bucket, msg.message.sendPriority = priority) :
    (q.setBucket priority bucket).Sorted := by
  intro other msg hmsg
  by_cases hother : other = priority
  · subst hother
    rw [setBucket_self] at hmsg
    exact hbucket msg hmsg
  · rw [setBucket_of_ne hother] at hmsg
    exact h other msg hmsg

theorem Sorted.push (h : q.Sorted) (msg : MessagePtr Image) (locked : Bool) :
    (q.push msg locked).Sorted := by
  unfold PriorityMessageQueue.push
  split
  · apply h.setBucket
    intro m hm
    have hmem := (pushBounded_sublist _ _ _).subset hm
    rcases List.mem_append.mp hmem with hold | hnew
    · exact h _ m hold
    · rw [List.mem_singleton.mp hnew]
  · exact h

theorem Sorted.clear (h : q.Sorted) (locked : Bool) : (q.clear locked).Sorted := by
  unfold PriorityMessageQueue.clear
  split
  · intro priority msg hmsg
    simp at hmsg
  · exact h

theorem Sorted.clearVideo (h : q.Sorted) (locked : Bool) : (q.clearVideo locked).Sorted := by
  unfold PriorityMessageQueue.clearVideo
  split
  · exact h.setBucket (by simp)
  · exact h

/-- What a pop does: it finds every bucket empty, or takes the front of the first that is not. -/
theorem pop_cases (q : PriorityMessageQueue Image) :
    ((∀ priority, q.buckets priority = []) ∧ q.pop = (none, q)) ∨
    ∃ priority msg bucket, q.buckets priority = msg :: bucket ∧
      (∀ other : MessagePriority, other.index < priority.index → q.buckets other = []) ∧
      q.pop = (some msg, q.setBucket priority bucket) := by
  have hfrom : ∀ priorities : List MessagePriority,
      priorities.Pairwise (fun first second => first.index < second.index) →
      ((∀ priority ∈ priorities, q.buckets priority = []) ∧ q.popFrom priorities = (none, q)) ∨
      ∃ priority msg bucket, q.buckets priority = msg :: bucket ∧
        (∀ other ∈ priorities, other.index < priority.index → q.buckets other = []) ∧
        q.popFrom priorities = (some msg, q.setBucket priority bucket) := by
    intro priorities hpriorities
    induction priorities with
    | nil => exact .inl ⟨by simp, rfl⟩
    | cons priority priorities ih =>
        obtain ⟨hfirst, hrest⟩ := List.pairwise_cons.mp hpriorities
        unfold popFrom
        cases hbucket : q.buckets priority with
        | nil =>
            rcases ih hrest with ⟨hempty, hpop⟩ | ⟨found, msg, bucket, hfound, hurgent, hpop⟩
            · exact .inl ⟨by simpa [hbucket] using hempty, hpop⟩
            · refine .inr ⟨found, msg, bucket, hfound, fun other hother hlt => ?_, hpop⟩
              rcases List.mem_cons.mp hother with rfl | hother
              · exact hbucket
              · exact hurgent other hother hlt
        | cons msg bucket =>
            refine .inr ⟨priority, msg, bucket, hbucket, fun other hother hlt => ?_, rfl⟩
            rcases List.mem_cons.mp hother with rfl | hother
            · exact absurd hlt (Nat.lt_irrefl _)
            · exact absurd hlt (Nat.lt_asymm (hfirst other hother))
  have hall : ∀ priority : MessagePriority, priority ∈ [.control, .audio, .text, .video] := by
    intro priority
    cases priority <;> simp
  rcases hfrom [.control, .audio, .text, .video] (by decide) with
    ⟨hempty, hpop⟩ | ⟨priority, msg, bucket, hbucket, hurgent, hpop⟩
  · exact .inl ⟨fun priority => hempty priority (hall priority), hpop⟩
  · exact .inr ⟨priority, msg, bucket, hbucket, fun other => hurgent other (hall other), hpop⟩

theorem Sorted.pop (h : q.Sorted) : q.pop.2.Sorted := by
  rcases q.pop_cases with ⟨_, hpop⟩ | ⟨priority, msg, bucket, hbucket, _, hpop⟩
  · rw [hpop]
    exact h
  · rw [hpop]
    apply h.setBucket
    intro m hm
    apply h priority m
    rw [hbucket]
    exact List.mem_cons_of_mem msg hm

end PriorityMessageQueue

end CloudMeeting.Client
