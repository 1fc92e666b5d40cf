/-
Switching the camera off.

The button that switches the camera off throws away the pictures that wait to be sent and
hands in a notice for the others, who then put the avatar up.  Notices are more urgent than
pictures, so a picture that still waits would come out behind the notice and be seen until
the next one, which never comes.  Throwing the pictures away gives up at once where the
queue is locked by another thread.

`noPictureBehind_iff` says when that is all there is to it: no picture ever waits behind a
notice that came later, across workers that stop and give notices back, exactly when no
switching off finds the queue locked with a picture in it.  Then whoever has heard all that
was posted sees the avatar (`unseen`).
-/
import CloudMeeting.Client.Handover
import CloudMeeting.Client.Pictures

namespace CloudMeeting.Client

open Run

variable {Image : Type}

/-! ### What is in a hub -/

theorem PriorityMessageQueue.mem_push {q : PriorityMessageQueue Image} {m msg : MessagePtr Image}
    {locked : Bool} {priority : MessagePriority} (h : m ∈ (q.push msg locked).buckets priority) :
    m ∈ q.buckets priority ∨ m = msg ∧ priority = msg.message.sendPriority := by
  unfold PriorityMessageQueue.push at h
  split at h
  · by_cases hpriority : priority = msg.message.sendPriority
    · subst hpriority
      rw [setBucket_self] at h
      rcases List.mem_append.mp ((pushBounded_sublist _ _ _).subset h) with hold | hnew
      · exact Or.inl hold
      · exact Or.inr ⟨List.mem_singleton.mp hnew, rfl⟩
    · rw [setBucket_of_ne hpriority] at h
      exact Or.inl h
  · exact Or.inl h

theorem PriorityMessageQueue.mem_setBucket {q : PriorityMessageQueue Image} {m : MessagePtr Image}
    {priority other : MessagePriority} {bucket : List (MessagePtr Image)}
    (hbucket : ∀ msg ∈ bucket, msg ∈ q.buckets priority)
    (h : m ∈ (q.setBucket priority bucket).buckets other) : m ∈ q.buckets other := by
  by_cases hother : other = priority
  · subst hother
    rw [setBucket_self] at h
    exact hbucket m h
  · rw [setBucket_of_ne hother] at h
    exact h

namespace MessageHub

variable {qt : Qt Image} {hub hub' : MessageHub Image}

/-- Every message that is queued, in the hand of a worker or posted. -/
structure Everywhere (P : MessagePtr Image → Prop) (hub : MessageHub Image) : Prop where
  sent : ∀ msg ∈ hub.sent, P msg
  hands : ∀ msg ∈ hub.hands, P msg
  queued : ∀ priority, ∀ msg ∈ hub.sendQueue.buckets priority, P msg

namespace Everywhere

variable {P : MessagePtr Image → Prop}

theorem mono {Q : MessagePtr Image → Prop} (h : Everywhere P hub) (hPQ : ∀ msg, P msg → Q msg) :
    Everywhere Q hub :=
  ⟨fun m hm => hPQ m (h.sent m hm), fun m hm => hPQ m (h.hands m hm),
    fun p m hm => hPQ m (h.queued p m hm)⟩

/-- The worker moves what is there. -/
theorem work (h : Everywhere P hub) (halone : hub.Alone) {worker : Nat} {localIp : UInt32}
    {locked : Bool} (hstep : stepWorker qt hub worker localIp locked = some hub') :
    Everywhere P hub' := by
  obtain ⟨w, after, stage, rfl, hworkers, hworks, rfl⟩ := halone.work hstep
  have hhand : ∀ msg, w.stage.hand = some msg → P msg := by
    intro msg hmsg
    apply h.hands
    rw [hands_worker hworkers, hmsg]
    exact List.mem_singleton_self msg
  have hnew : (∀ msg, stage.hand = some msg → P msg) →
      ∀ msg ∈ MessageHub.hands { after with workers := [{ w with stage := stage }] }, P msg := by
    intro hstage msg hmsg
    rw [hands_worker rfl] at hmsg
    exact hstage msg (Option.mem_toList.mp hmsg)
  cases hworks with
  | ahead _ hnext =>
      exact ⟨h.sent, hnew fun msg hmsg => by simp [hnext] at hmsg, h.queued⟩
  | @took msg queue hstage hpop =>
      rcases hub.sendQueue.pop_cases with ⟨-, hnone⟩ | ⟨first, found, bucket, hbucket, -, hsome⟩
      · rw [hnone, Prod.mk.injEq] at hpop
        obtain ⟨rfl, rfl⟩ := hpop
        exact ⟨h.sent, hnew fun msg hmsg => by simp [SendStage.hand] at hmsg, h.queued⟩
      · rw [hsome, Prod.mk.injEq] at hpop
        obtain ⟨rfl, rfl⟩ := hpop
        have hmem : ∀ m ∈ found :: bucket, m ∈ hub.sendQueue.buckets first := fun m hm =>
          hbucket ▸ hm
        refine ⟨h.sent, hnew fun msg hmsg => ?_, fun p m hm => h.queued p m ?_⟩
        · have hfound : found = msg := Option.some.inj hmsg
          exact h.queued first msg (hmem msg (hfound ▸ List.mem_cons_self))
        · exact PriorityMessageQueue.mem_setBucket
            (fun x hx => hmem x (List.mem_cons_of_mem found hx)) hm
  | returning hstage _ _ =>
      exact ⟨h.sent, hnew fun msg hmsg => hhand msg (by rw [hstage]; exact hmsg), h.queued⟩
  | forwarding hstage _ _ =>
      exact ⟨h.sent, hnew fun msg hmsg => hhand msg (by rw [hstage]; exact hmsg), h.queued⟩
  | dropped _ hnext _ =>
      exact ⟨h.sent, hnew fun msg hmsg => by simp [hnext] at hmsg, h.queued⟩
  | @gaveBack msg hstage =>
      refine ⟨h.sent, hnew fun msg hmsg => by simp [SendStage.hand] at hmsg, fun p m hm => ?_⟩
      rcases PriorityMessageQueue.mem_push hm with hold | ⟨rfl, -⟩
      · exact h.queued p m hold
      · exact hhand m (by rw [hstage]; rfl)
  | @forwarded msg frame hstage _ =>
      refine ⟨fun m hm => ?_, hnew fun msg hmsg => by simp [SendStage.hand] at hmsg, h.queued⟩
      have hsent : m ∈ hub.sent ++ [msg] := by simpa [MessageHub.sent] using hm
      rcases List.mem_append.mp hsent with hold | hlast
      · exact h.sent m hold
      · rw [List.mem_singleton.mp hlast]
        exact hhand msg (by rw [hstage]; rfl)

/-- A step brings in no message but the one it hands in. -/
theorem step (h : Everywhere P hub) (halone : hub.Alone) {e : HubEvent Image}
    (hnew : ∀ msg ∈ hub.handedIn e, P msg) (hstep : hub.step qt e = some hub') :
    Everywhere P hub' := by
  cases e with
  | enqueueSend msg locked =>
      refine Option.some.inj hstep ▸ ⟨h.sent, h.hands, fun p m hm => ?_⟩
      rcases PriorityMessageQueue.mem_push hm with hold | ⟨rfl, -⟩
      · exact h.queued p m hold
      · exact hnew _ (List.mem_singleton_self _)
  | clearPendingVideo locked =>
      refine Option.some.inj hstep ▸ ⟨h.sent, h.hands, fun p m hm => h.queued p m ?_⟩
      simp only [PriorityMessageQueue.clearVideo] at hm
      split at hm
      · exact PriorityMessageQueue.mem_setBucket (fun _ hx => absurd hx List.not_mem_nil) hm
      · exact hm
  | clearAll locked =>
      refine Option.some.inj hstep ▸ ⟨h.sent, h.hands, fun p m hm => h.queued p m ?_⟩
      simp only [PriorityMessageQueue.clear] at hm
      split at hm
      · exact absurd hm List.not_mem_nil
      · exact hm
  | attach connection => exact Option.some.inj hstep ▸ ⟨h.sent, h.hands, h.queued⟩
  | stopRunning => exact Option.some.inj hstep ▸ ⟨h.sent, h.hands, h.queued⟩
  | stopEpoch =>
      simp only [MessageHub.step] at hstep
      split at hstep
      · exact Option.some.inj hstep ▸ ⟨h.sent, h.hands, h.queued⟩
      · simp at hstep
  | start =>
      cases starts hstep with
      | join _ _ => exact ⟨h.sent, fun m hm => absurd hm List.not_mem_nil, h.queued⟩
      | spawn _ =>
          refine ⟨h.sent, fun m hm => h.hands m ?_, h.queued⟩
          simpa [MessageHub.hands, SendStage.hand] using hm
      | _ => exact ⟨h.sent, h.hands, h.queued⟩
  | work worker localIp locked => exact h.work halone hstep

end Everywhere

/-! ### Pictures and notices -/

/-- If a notice comes before a picture, the picture was handed in after it. -/
def Before (notice image : MessagePtr Image) : Prop :=
  notice.message.kind = .closeCamera → image.message.kind = .sendImage →
    notice.serial < image.serial

/-- No picture is behind a notice that was handed in after it, wherever the two are. -/
structure NoPictureBehind (hub : MessageHub Image) : Prop where
  sent : hub.sent.Pairwise Before
  hands : ∀ notice ∈ hub.sent, ∀ image ∈ hub.hands, Before notice image
  waiting : ∀ notice, notice ∈ hub.sent ∨ notice ∈ hub.hands ∨
    notice ∈ hub.sendQueue.buckets .control →
      ∀ image ∈ hub.sendQueue.buckets .video, Before notice image

theorem Before.of_image {notice image : MessagePtr Image}
    (h : image.message.kind ≠ .sendImage) : Before notice image := fun _ hkind => absurd hkind h

/-- Of the four kinds of messages to be sent only pictures are the last to go. -/
theorem kind_of_priority {msg : MessagePtr Image} {priority : MessagePriority}
    (h : msg.message.sendPriority = priority) :
    (msg.message.kind = .sendImage → priority = .video) ∧
      (msg.message.kind = .closeCamera → priority = .control) := by
  subst h
  cases hmsg : msg.message <;> simp [Message.kind, Message.sendPriority]

/-- Workers give no pictures back. -/
def ReturnsNotices (hub : MessageHub Image) : Prop :=
  ∀ w ∈ hub.workers, ∀ msg, w.stage = .giveBack msg → msg.message.kind.givenBack = true

namespace NoPictureBehind

theorem init : NoPictureBehind ({} : MessageHub Image) where
  sent := List.Pairwise.nil
  hands _ h := absurd h List.not_mem_nil
  waiting _ _ _ h := absurd h List.not_mem_nil

/-- The queue loses messages, or gets a picture with a number of its own. -/
theorem requeue (h : NoPictureBehind hub) (hfresh : Everywhere (·.serial < hub.serial) hub)
    {queue : PriorityMessageQueue Image}
    (hcontrol : ∀ m ∈ queue.buckets .control,
      m ∈ hub.sendQueue.buckets .control ∨ m.message.kind ≠ .closeCamera)
    (hvideo : ∀ m ∈ queue.buckets .video,
      m ∈ hub.sendQueue.buckets .video ∨ hub.serial ≤ m.serial) (serial : Nat) :
    NoPictureBehind { hub with sendQueue := queue, serial := serial } := by
  refine ⟨h.sent, h.hands, fun notice hnotice image himage => ?_⟩
  have hplace : notice.message.kind = .closeCamera → notice ∈ hub.sent ∨ notice ∈ hub.hands ∨
      notice ∈ hub.sendQueue.buckets .control := by
    intro hkind
    rcases hnotice with hsent | hhand | hqueued
    · exact Or.inl hsent
    · exact Or.inr (Or.inl hhand)
    · exact Or.inr (Or.inr ((hcontrol notice hqueued).resolve_right (not_not.mpr hkind)))
  intro hkind himagekind
  rcases hvideo image himage with hold | hnew
  · exact h.waiting notice (hplace hkind) image hold hkind himagekind
  · rcases hplace hkind with hsent | hhand | hqueued
    · exact Nat.lt_of_lt_of_le (hfresh.sent notice hsent) hnew
    · exact Nat.lt_of_lt_of_le (hfresh.hands notice hhand) hnew
    · exact Nat.lt_of_lt_of_le (hfresh.queued _ notice hqueued) hnew

section Work

variable {w : SendWorker Image}

/-- The worker keeps what it holds, or lets it go. -/
theorem holds (h : NoPictureBehind hub) (hhand : ∀ msg, w.stage.hand = some msg → msg ∈ hub.hands) :
    NoPictureBehind { hub with workers := [w] } := by
  have hhands : MessageHub.hands { hub with workers := [w] } = w.stage.hand.toList := by
    rw [hands_worker rfl]
  have hmem : ∀ m ∈ w.stage.hand.toList, m ∈ hub.hands := fun m hm =>
    hhand m (Option.mem_toList.mp hm)
  refine ⟨h.sent, fun notice hnotice image himage => ?_, fun notice hnotice => ?_⟩
  · rw [hhands] at himage
    exact h.hands notice hnotice image (hmem image himage)
  · rw [hhands] at hnotice
    exact h.waiting notice (hnotice.imp_right (Or.imp_left (hmem notice)))

/-- A worker takes notices before pictures. -/
theorem took (h : NoPictureBehind hub) (hsorted : hub.sendQueue.Sorted) {first : MessagePriority}
    {found : MessagePtr Image} {bucket : List (MessagePtr Image)}
    (hbucket : hub.sendQueue.buckets first = found :: bucket)
    (hhand : w.stage.hand = some found) :
    NoPictureBehind { hub with
      sendQueue := hub.sendQueue.setBucket first bucket
      workers := [w] } := by
  have hhands : MessageHub.hands { hub with
      sendQueue := hub.sendQueue.setBucket first bucket
      workers := [w] } = [found] := by
    rw [hands_worker rfl, hhand]
    rfl
  have hfound : found ∈ hub.sendQueue.buckets first := by
    rw [hbucket]
    exact List.mem_cons_self
  have hleft : ∀ {p m}, m ∈ (hub.sendQueue.setBucket first bucket).buckets p →
      m ∈ hub.sendQueue.buckets p := fun hm =>
    PriorityMessageQueue.mem_setBucket (fun x hx => hbucket ▸ List.mem_cons_of_mem found hx) hm
  obtain ⟨himagekind, hnoticekind⟩ := kind_of_priority (hsorted first found hfound)
  refine ⟨h.sent, fun notice hnotice image himage => ?_, fun notice hnotice image himage => ?_⟩
  · rw [hhands] at himage
    rw [List.mem_singleton.mp himage]
    intro hkind hpicture
    have hvideo := himagekind hpicture
    exact h.waiting notice (Or.inl hnotice) found (hvideo ▸ hfound) hkind hpicture
  · rw [hhands] at hnotice
    rcases hnotice with hsent | hhand | hqueued
    · exact h.waiting notice (Or.inl hsent) image (hleft himage)
    · rw [List.mem_singleton.mp hhand]
      intro hkind
      have hcontrol := hnoticekind hkind
      exact h.waiting found (Or.inr (Or.inr (hcontrol ▸ hfound))) image (hleft himage) hkind
    · exact h.waiting notice (Or.inr (Or.inr (hleft hqueued))) image (hleft himage)

/-- A message goes back into the queue, which no picture does. -/
theorem gaveBack (h : NoPictureBehind hub) {msg : MessagePtr Image} (hmsg : msg ∈ hub.hands)
    (hkind : msg.message.kind ≠ .sendImage) (hhand : w.stage.hand = none) (locked : Bool) :
    NoPictureBehind { hub with
      sendQueue := hub.sendQueue.push msg locked
      workers := [w] } := by
  have hhands : MessageHub.hands { hub with
      sendQueue := hub.sendQueue.push msg locked
      workers := [w] } = [] := by
    rw [hands_worker rfl, hhand]
    rfl
  refine ⟨h.sent, fun notice _ image himage => ?_, fun notice hnotice image himage => ?_⟩
  · rw [hhands] at himage
    exact absurd himage List.not_mem_nil
  · rw [hhands] at hnotice
    have hplace : notice ∈ hub.sent ∨ notice ∈ hub.hands ∨
        notice ∈ hub.sendQueue.buckets .control := by
      rcases hnotice with hsent | hhand | hqueued
      · exact Or.inl hsent
      · exact absurd hhand List.not_mem_nil
      · rcases PriorityMessageQueue.mem_push hqueued with hold | ⟨rfl, -⟩
        · exact Or.inr (Or.inr hold)
        · exact Or.inr (Or.inl hmsg)
    rcases PriorityMessageQueue.mem_push himage with hold | ⟨rfl, -⟩
    · exact h.waiting notice hplace image hold
    · exact .of_image hkind

/-- What the worker holds is posted before it takes more. -/
theorem forwarded (h : NoPictureBehind hub) {msg : MessagePtr Image} (hmsg : msg ∈ hub.hands)
    (hhand : w.stage.hand = none) (frame : Bytes) :
    NoPictureBehind { hub with posted := hub.posted ++ [(msg, frame)], workers := [w] } := by
  have hhands : MessageHub.hands { hub with
      posted := hub.posted ++ [(msg, frame)]
      workers := [w] } = [] := by
    rw [hands_worker rfl, hhand]
    rfl
  have hsent : MessageHub.sent { hub with
      posted := hub.posted ++ [(msg, frame)]
      workers := [w] } = hub.sent ++ [msg] := by
    simp [MessageHub.sent]
  refine ⟨?_, fun notice _ image himage => ?_, fun notice hnotice image himage => ?_⟩
  · rw [hsent, List.pairwise_append]
    refine ⟨h.sent, List.pairwise_singleton _ _, fun notice hnotice image himage => ?_⟩
    rw [List.mem_singleton.mp himage]
    exact h.hands notice hnotice msg hmsg
  · rw [hhands] at himage
    exact absurd himage List.not_mem_nil
  · rw [hhands, hsent] at hnotice
    rcases hnotice with hposted | hhand | hqueued
    · rcases List.mem_append.mp hposted with hold | hlast
      · exact h.waiting notice (Or.inl hold) image himage
      · rw [List.mem_singleton.mp hlast]
        exact h.waiting msg (Or.inr (Or.inl hmsg)) image himage
    · exact absurd hhand List.not_mem_nil
    · exact h.waiting notice (Or.inr (Or.inr hqueued)) image himage

end Work

theorem work (h : NoPictureBehind hub) (halone : hub.Alone) (hsorted : hub.sendQueue.Sorted)
    (hreturns : hub.ReturnsNotices) {worker : Nat} {localIp : UInt32} {locked : Bool}
    (hstep : stepWorker qt hub worker localIp locked = some hub') : NoPictureBehind hub' := by
  obtain ⟨w, after, stage, rfl, hworkers, hworks, rfl⟩ := halone.work hstep
  have hheld : ∀ {msg}, w.stage.hand = some msg → msg ∈ hub.hands := by
    intro msg hmsg
    rw [hands_worker hworkers, hmsg]
    exact List.mem_singleton_self msg
  cases hworks with
  | ahead _ hnext => exact h.holds fun msg hmsg => by simp [hnext] at hmsg
  | returning hstage _ _ => exact h.holds fun msg hmsg => hheld (by rw [hstage]; exact hmsg)
  | forwarding hstage _ _ => exact h.holds fun msg hmsg => hheld (by rw [hstage]; exact hmsg)
  | dropped _ hnext _ => exact h.holds fun msg hmsg => by simp [hnext] at hmsg
  | @took msg queue hstage hpop =>
      rcases hub.sendQueue.pop_cases with ⟨-, hnone⟩ | ⟨first, found, bucket, hbucket, -, hsome⟩
      · rw [hnone, Prod.mk.injEq] at hpop
        obtain ⟨rfl, rfl⟩ := hpop
        exact h.holds fun msg hmsg => by simp [SendStage.hand] at hmsg
      · rw [hsome, Prod.mk.injEq] at hpop
        obtain ⟨rfl, rfl⟩ := hpop
        exact h.took hsorted hbucket rfl
  | @gaveBack msg hstage =>
      have hback : msg.message.kind.givenBack = true :=
        hreturns w (by rw [hworkers]; exact List.mem_singleton_self w) msg hstage
      refine h.gaveBack (hheld (by rw [hstage]; rfl)) (fun hpicture => ?_) rfl locked
      rw [hpicture] at hback
      exact Bool.false_ne_true hback
  | @forwarded msg frame hstage _ => exact h.forwarded (hheld (by rw [hstage]; rfl)) rfl frame

/-- Starting and stopping workers moves no message. -/
theorem start (h : NoPictureBehind hub) (hstarts : Starts hub hub') : NoPictureBehind hub' := by
  cases hstarts with
  | join _ _ =>
      refine ⟨h.sent, fun _ _ image himage => absurd himage List.not_mem_nil,
        fun notice hnotice => ?_⟩
      rcases hnotice with hsent | hhand | hqueued
      · exact h.waiting notice (Or.inl hsent)
      · exact absurd hhand List.not_mem_nil
      · exact h.waiting notice (Or.inr (Or.inr hqueued))
  | @spawn epoch _ =>
      have hhands : MessageHub.hands { hub with
          workers := hub.workers ++ [{ epoch := epoch }]
          starting := .idle } = hub.hands := by
        simp [MessageHub.hands, SendStage.hand]
      refine ⟨h.sent, fun notice hnotice image himage => ?_, fun notice hnotice => ?_⟩
      · exact h.hands notice hnotice image (hhands ▸ himage)
      · rw [hhands] at hnotice
        exact h.waiting notice hnotice
  | _ => exact ⟨h.sent, h.hands, h.waiting⟩

end NoPictureBehind

theorem clearVideo_spec (q : PriorityMessageQueue Image) (cleared : Bool) :
    (∀ priority, ∀ m ∈ (q.clearVideo cleared).buckets priority, m ∈ q.buckets priority) ∧
      (cleared = true → (q.clearVideo cleared).buckets .video = []) := by
  cases cleared with
  | true =>
      refine ⟨fun priority m hm => ?_, fun _ => PriorityMessageQueue.setBucket_self _ _⟩
      exact PriorityMessageQueue.mem_setBucket (fun _ hx => absurd hx List.not_mem_nil) hm
  | false => exact ⟨fun _ _ hm => hm, fun h => absurd h Bool.false_ne_true⟩

/-- A step keeps every picture in its place, unless it hands a notice in while pictures wait. -/
theorem NoPictureBehind.step (h : NoPictureBehind hub) (halone : hub.Alone)
    (hsorted : hub.sendQueue.Sorted) (hreturns : hub.ReturnsNotices)
    (hfresh : Everywhere (·.serial < hub.serial) hub) {e : HubEvent Image}
    (hnotice : ∀ msg, e = .enqueueSend msg true → msg.kind = .closeCamera →
      hub.sendQueue.buckets .video = [])
    (hstep : hub.step qt e = some hub') : NoPictureBehind hub' := by
  cases e with
  | enqueueSend msg locked =>
      rw [← Option.some.inj hstep]
      by_cases hkind : locked = true ∧ msg.kind = .closeCamera
      · -- with no picture waiting, none gets behind the notice
        obtain ⟨rfl, hclose⟩ := hkind
        have hnone := hnotice msg rfl hclose
        refine ⟨h.sent, h.hands, fun notice _ image himage => ?_⟩
        have hpushed : image ∈ (hub.sendQueue.push ⟨hub.serial, msg⟩ true).buckets .video := himage
        rcases PriorityMessageQueue.mem_push hpushed with hold | ⟨rfl, -⟩
        · rw [hnone] at hold
          exact absurd hold List.not_mem_nil
        · refine .of_image fun himagekind => ?_
          have hboth : MessageKind.sendImage = .closeCamera := himagekind.symm.trans hclose
          simp at hboth
      · refine h.requeue hfresh (fun m hm => ?_) (fun m hm => ?_) _
        · rcases PriorityMessageQueue.mem_push hm with hold | ⟨rfl, -⟩
          · exact Or.inl hold
          · cases locked with
            | true => exact Or.inr fun hclose => hkind ⟨rfl, hclose⟩
            | false => exact Or.inl hm
        · rcases PriorityMessageQueue.mem_push hm with hold | ⟨rfl, -⟩
          · exact Or.inl hold
          · exact Or.inr (Nat.le_refl _)
  | clearPendingVideo locked =>
      rw [← Option.some.inj hstep]
      have hleft := (clearVideo_spec hub.sendQueue locked).1
      exact h.requeue hfresh (fun m hm => Or.inl (hleft _ m hm))
        (fun m hm => Or.inl (hleft _ m hm)) hub.serial
  | clearAll locked =>
      rw [← Option.some.inj hstep]
      have hleft : ∀ priority, ∀ m ∈ (hub.sendQueue.clear locked).buckets priority,
          m ∈ hub.sendQueue.buckets priority := by
        intro priority m hm
        simp only [PriorityMessageQueue.clear] at hm
        split at hm
        · exact absurd hm List.not_mem_nil
        · exact hm
      exact h.requeue hfresh (fun m hm => Or.inl (hleft _ m hm))
        (fun m hm => Or.inl (hleft _ m hm)) hub.serial
  | attach connection => exact Option.some.inj hstep ▸ ⟨h.sent, h.hands, h.waiting⟩
  | stopRunning => exact Option.some.inj hstep ▸ ⟨h.sent, h.hands, h.waiting⟩
  | stopEpoch =>
      simp only [MessageHub.step] at hstep
      split at hstep
      · exact Option.some.inj hstep ▸ ⟨h.sent, h.hands, h.waiting⟩
      · simp at hstep
  | start => exact h.start (starts hstep)
  | work worker localIp locked => exact h.work halone hsorted hreturns hstep

theorem ReturnsNotices.step (h : hub.ReturnsNotices) {e : HubEvent Image}
    (hstep : hub.step qt e = some hub') : hub'.ReturnsNotices := by
  cases e with
  | work worker localIp locked =>
      obtain ⟨w, after, stage, hw, hworks, rfl⟩ := stepWorker_cases hstep
      intro v hv msg hmsg
      rcases List.mem_or_eq_of_mem_set hv with hold | rfl
      · exact h v hold msg hmsg
      · have hmsg' : stage = .giveBack msg := hmsg
        cases hworks with
        | ahead _ hnext => simp [hmsg', SendStage.hand] at hnext
        | returning _ _ hkind =>
            rw [SendStage.giveBack.injEq] at hmsg'
            exact hmsg' ▸ hkind
        | dropped _ hnext _ => simp [hmsg', SendStage.hand] at hnext
        | _ => simp at hmsg'
  | stopEpoch =>
      simp only [MessageHub.step] at hstep
      split at hstep
      · exact Option.some.inj hstep ▸ h
      · simp at hstep
  | start =>
      cases starts hstep with
      | join _ _ => exact fun v hv => absurd hv List.not_mem_nil
      | spawn _ =>
          intro v hv msg hmsg
          rcases List.mem_append.mp hv with hold | hnew
          · exact h v hold msg hmsg
          · rw [List.mem_singleton.mp hnew] at hmsg
            simp at hmsg
      | _ => exact h
  | _ => exact Option.some.inj hstep ▸ h

end MessageHub

/-! ### The camera -/

/-- The camera, and the hub that its pictures and notices are handed in to. -/
structure Filming (Image : Type) where
  hub : MessageHub Image := {}
  isRunning : Bool := false
  /-- Somebody else is in the meeting. -/
  company : Bool := false
  /-- The number of the notice sent when the camera was last switched off, while it is off. -/
  closedAt : Option Nat := none

inductive FilmingEvent (Image : Type) where
  /-- The camera has taken a picture. -/
  | frame (image : Image) (locked : Bool)
  /-- The button is clicked; `cleared` and `locked` say whether the queue's lock was got for
  throwing the pictures away and for handing the notice in. -/
  | openVideo (cleared locked : Bool)
  /-- The meeting ends. -/
  | ended (cleared : Bool)
  | partners (company : Bool)
  | hub (e : HubEvent Image)

/-- Pictures and notices are handed in, and pictures thrown away, only for the camera. -/
def HubEvent.beside : HubEvent Image → Bool
  | .enqueueSend msg _ => msg.kind ≠ .sendImage ∧ msg.kind ≠ .closeCamera
  | .clearPendingVideo _ => false
  | _ => true

namespace Filming

variable (qt : Qt Image) (isNull : Image → Bool)

def onLocalFrameCaptured (image : Image) (locked : Bool) (f : Filming Image) : Filming Image :=
  if isNull image then f
  else if ¬ f.isRunning then f
  else if ¬ f.company then f
  else { f with hub := f.hub.enqueueSend (.sendImage image) locked }

def onOpenVideoClicked (cleared locked : Bool) (f : Filming Image) : Filming Image :=
  if f.isRunning then
    let hub := { f.hub with sendQueue := f.hub.sendQueue.clearVideo cleared }
    { f with
      isRunning := false
      hub := hub.enqueueSend .closeCamera locked
      closedAt := some f.hub.serial }
  else { f with isRunning := true, closedAt := none }

def endMeetingSession (cleared : Bool) (f : Filming Image) : Filming Image :=
  { f with
    isRunning := false
    hub := { f.hub with sendQueue := f.hub.sendQueue.clearVideo cleared }
    closedAt := none }

def step (f : Filming Image) : FilmingEvent Image → Option (Filming Image)
  | .frame image locked => some (f.onLocalFrameCaptured isNull image locked)
  | .openVideo cleared locked => some (f.onOpenVideoClicked cleared locked)
  | .ended cleared => some (f.endMeetingSession cleared)
  | .partners company => some { f with company := company }
  | .hub e => if e.beside then (f.hub.step qt e).map fun hub => { f with hub := hub } else none

/-- Switching off finds the lock, or no picture to be thrown away, or gives the notice up. -/
def Sound (f : Filming Image) : FilmingEvent Image → Prop
  | .openVideo cleared locked =>
      f.isRunning = true → cleared = true ∨ f.hub.sendQueue.buckets .video = [] ∨ locked = false
  | _ => True

instance (f : Filming Image) : ∀ e : FilmingEvent Image, Decidable (f.Sound e)
  | .openVideo _ _ => inferInstanceAs (Decidable (_ → _))
  | .frame _ _ => isTrue trivial
  | .ended _ => isTrue trivial
  | .partners _ => isTrue trivial
  | .hub _ => isTrue trivial

variable {qt isNull} {f f' : Filming Image}

/-- What holds in every state. -/
structure Kept (f : Filming Image) : Prop where
  alone : f.hub.Alone
  sorted : f.hub.sendQueue.Sorted
  returns : f.hub.ReturnsNotices
  fresh : f.hub.Everywhere (·.serial < f.hub.serial)
  /-- The pictures there are were taken before the camera was switched off. -/
  closed : ∀ n, f.closedAt = some n →
    f.hub.Everywhere fun msg => msg.message.kind = .sendImage → msg.serial < n
  running : f.isRunning = true → f.closedAt = none

namespace Kept

theorem init : Kept ({} : Filming Image) where
  alone := .init
  sorted := .init
  returns _ h := absurd h List.not_mem_nil
  fresh := ⟨fun _ h => absurd h List.not_mem_nil, fun _ h => absurd h List.not_mem_nil,
    fun _ _ h => absurd h List.not_mem_nil⟩
  closed _ h := by simp at h
  running _ := rfl

/-- The hub takes a step, in which a picture is handed in only while the camera is on. -/
theorem hub (h : Kept f) {e : HubEvent Image} {next : MessageHub Image}
    (himage : ∀ msg ∈ f.hub.handedIn e, msg.message.kind = .sendImage → f.closedAt = none)
    (hstep : f.hub.step qt e = some next) : Kept { f with hub := next } := by
  have hserial := MessageHub.serial_step hstep
  refine ⟨h.alone.step hstep, MessageHub.sorted_step h.sorted hstep, h.returns.step hstep, ?_, ?_,
    h.running⟩
  · have hmore : f.hub.Everywhere (·.serial < next.serial) :=
      h.fresh.mono fun msg hmsg => by omega
    refine hmore.step h.alone (fun msg hmsg => ?_) hstep
    cases e with
    | enqueueSend m locked =>
        rw [List.mem_singleton.mp hmsg, hserial]
        exact Nat.lt_succ_self _
    | _ => exact absurd hmsg List.not_mem_nil
  · intro n hn
    refine (h.closed n hn).step h.alone (fun msg hmsg hkind => ?_) hstep
    rw [himage msg hmsg hkind] at hn
    simp at hn

/-- The camera goes off. -/
theorem stopped (h : Kept f) (closedAt : Option Nat)
    (hclosed : ∀ n, closedAt = some n → n = f.hub.serial) :
    Kept { f with isRunning := false, closedAt := closedAt } := by
  refine ⟨h.alone, h.sorted, h.returns, h.fresh, fun n hn => ?_, fun hon => ?_⟩
  · rw [hclosed n hn]
    exact h.fresh.mono fun _ hmsg _ => hmsg
  · exact absurd hon Bool.false_ne_true

/-- In such a step no picture gets behind a notice, if none waits while one is handed in. -/
theorem behind (h : Kept f) (hbehind : f.hub.NoPictureBehind) {e : HubEvent Image}
    {next : MessageHub Image} (hnotice : ∀ msg, e = .enqueueSend msg true →
      msg.kind = .closeCamera → f.hub.sendQueue.buckets .video = [])
    (hstep : f.hub.step qt e = some next) : next.NoPictureBehind :=
  hbehind.step h.alone h.sorted h.returns h.fresh hnotice hstep

/-- A picture is handed in only while the camera is on. -/
theorem onLocalFrameCaptured (qt : Qt Image) (h : Kept f) (image : Image) (locked : Bool) :
    Kept (f.onLocalFrameCaptured isNull image locked) ∧
      (f.hub.NoPictureBehind →
        (f.onLocalFrameCaptured isNull image locked).hub.NoPictureBehind) := by
  unfold Filming.onLocalFrameCaptured
  split
  · exact ⟨h, id⟩
  split
  · exact ⟨h, id⟩
  rename_i hon
  split
  · exact ⟨h, id⟩
  · have hsend : f.hub.step qt (.enqueueSend (.sendImage image) locked) = some _ := rfl
    refine ⟨h.hub (fun _ _ _ => h.running (not_not.mp hon)) hsend, fun hbehind => ?_⟩
    refine h.behind hbehind (fun msg hmsg hkind => ?_) hsend
    rw [HubEvent.enqueueSend.injEq] at hmsg
    rw [← hmsg.1] at hkind
    simp [Message.kind] at hkind

theorem clearPendingVideo (qt : Qt Image) (h : Kept f) (cleared : Bool) :
    Kept { f with hub := { f.hub with sendQueue := f.hub.sendQueue.clearVideo cleared } } ∧
      (f.hub.NoPictureBehind → MessageHub.NoPictureBehind
        { f.hub with sendQueue := f.hub.sendQueue.clearVideo cleared }) := by
  have hclear : f.hub.step qt (.clearPendingVideo cleared) = some _ := rfl
  exact ⟨h.hub (fun _ hmsg => absurd hmsg List.not_mem_nil) hclear,
    fun hbehind => h.behind hbehind (fun msg hmsg => by simp at hmsg) hclear⟩

/-- Where the clearing left no picture, none gets behind the notice. -/
theorem onOpenVideoClicked (qt : Qt Image) (h : Kept f) (cleared locked : Bool) :
    Kept (f.onOpenVideoClicked cleared locked) ∧
      (f.Sound (.openVideo cleared locked) → f.hub.NoPictureBehind →
        (f.onOpenVideoClicked cleared locked).hub.NoPictureBehind) := by
  unfold Filming.onOpenVideoClicked
  split
  · rename_i hon
    obtain ⟨hcleaned, hbetween⟩ := clearPendingVideo qt h cleared
    have hstopped := hcleaned.stopped (some f.hub.serial) fun n hn => (Option.some.inj hn).symm
    have hsend : MessageHub.step qt
        { f.hub with sendQueue := f.hub.sendQueue.clearVideo cleared }
        (.enqueueSend .closeCamera locked) = some _ := rfl
    refine ⟨hstopped.hub (fun msg hmsg hkind => ?_) hsend, fun hsound hbehind => ?_⟩
    · rw [List.mem_singleton.mp hmsg] at hkind
      simp [Message.kind] at hkind
    · refine hcleaned.behind (hbetween hbehind) (fun msg hmsg _ => ?_) hsend
      rw [HubEvent.enqueueSend.injEq] at hmsg
      obtain ⟨hleft, hempty⟩ := MessageHub.clearVideo_spec f.hub.sendQueue cleared
      rcases hsound hon with hcleared | hnone | hlost
      · exact hempty hcleared
      · refine List.eq_nil_iff_forall_not_mem.mpr fun m hm => ?_
        have hold := hleft .video m hm
        rw [hnone] at hold
        exact List.not_mem_nil hold
      · rw [hlost] at hmsg
        exact absurd hmsg.2 Bool.false_ne_true
  · refine ⟨⟨h.alone, h.sorted, h.returns, h.fresh, fun n hn => ?_, fun _ => rfl⟩, fun _ => id⟩
    simp at hn

end Kept

/-- **What an event does**: everything that holds stays so, and no picture gets behind a notice if
the event is sound. -/
theorem kept_step {e : FilmingEvent Image} (h : Kept f) (hstep : f.step qt isNull e = some f') :
    Kept f' ∧ (f.Sound e → f.hub.NoPictureBehind → f'.hub.NoPictureBehind) := by
  cases e with
  | frame image locked =>
      simp only [step, Option.some.injEq] at hstep
      rw [← hstep]
      obtain ⟨hkept, hbehind⟩ := Kept.onLocalFrameCaptured qt h image locked
      exact ⟨hkept, fun _ => hbehind⟩
  | openVideo cleared locked =>
      simp only [step, Option.some.injEq] at hstep
      rw [← hstep]
      exact Kept.onOpenVideoClicked qt h cleared locked
  | ended cleared =>
      simp only [step, Option.some.injEq] at hstep
      rw [← hstep]
      obtain ⟨hcleaned, hbehind⟩ := Kept.clearPendingVideo qt h cleared
      exact ⟨hcleaned.stopped none fun n hn => by simp at hn, fun _ => hbehind⟩
  | partners company =>
      simp only [step, Option.some.injEq] at hstep
      rw [← hstep]
      exact ⟨⟨h.alone, h.sorted, h.returns, h.fresh, h.closed, h.running⟩, fun _ => id⟩
  | hub e =>
      simp only [step, Option.ite_none_right_eq_some, Option.map_eq_some_iff] at hstep
      obtain ⟨hbeside, next, hnext, rfl⟩ := hstep
      have hkind : ∀ msg locked, e = .enqueueSend msg locked →
          msg.kind ≠ .sendImage ∧ msg.kind ≠ .closeCamera := by
        rintro msg locked rfl
        simpa [HubEvent.beside] using hbeside
      refine ⟨h.hub (fun msg hmsg himage => ?_) hnext, fun _ hbehind => ?_⟩
      · cases e with
        | enqueueSend m locked =>
            rw [List.mem_singleton.mp hmsg] at himage
            exact absurd himage (hkind m locked rfl).1
        | _ => exact absurd hmsg List.not_mem_nil
      · exact h.behind hbehind (fun msg hmsg hclose => absurd hclose (hkind msg true hmsg).2) hnext

/-- A picture that waits when the queue is found locked is behind the notice. -/
theorem behind_of_not_sound (h : Kept f) {e : FilmingEvent Image} (hunsound : ¬ f.Sound e) :
    ∃ f', f.step qt isNull e = some f' ∧ ¬ f'.hub.NoPictureBehind := by
  cases e with
  | openVideo cleared locked =>
      have hbroken : ¬ (f.isRunning = true → cleared = true ∨
          f.hub.sendQueue.buckets .video = [] ∨ locked = false) := hunsound
      push Not at hbroken
      obtain ⟨hon, hcleared, hwaiting, hlocked⟩ := hbroken
      have hcleared' : cleared = false := by simpa using hcleared
      have hlocked' : locked = true := by simpa using hlocked
      subst hcleared' hlocked'
      refine ⟨_, rfl, fun hbehind => ?_⟩
      obtain ⟨image, himage⟩ := List.exists_mem_of_ne_nil _ hwaiting
      rw [onOpenVideoClicked, if_pos hon] at hbehind
      let notice : MessagePtr Image := ⟨f.hub.serial, .closeCamera⟩
      have hpushed : notice ∈ (f.hub.sendQueue.push notice true).buckets .control := by
        rw [PriorityMessageQueue.push, if_pos rfl]
        show notice ∈ (f.hub.sendQueue.setBucket .control _).buckets .control
        rw [PriorityMessageQueue.setBucket_self, pushBounded,
          if_neg (show ¬ notice.message.sendPriority.maxsize = 0 from fun hnone => by cases hnone)]
        exact List.mem_append_right _ (List.mem_singleton_self _)
      have hstill : image ∈ (f.hub.sendQueue.push notice true).buckets .video := by
        rw [PriorityMessageQueue.push, if_pos rfl, PriorityMessageQueue.setBucket_of_ne
          (show MessagePriority.video ≠ notice.message.sendPriority from
            MessagePriority.noConfusion)]
        exact himage
      have hkind : image.message.kind = .sendImage := by
        have hpriority := h.sorted .video image himage
        cases hmsg : image.message <;> simp_all [Message.sendPriority, Message.kind]
      have hlt : f.hub.serial < image.serial :=
        hbehind.waiting notice (Or.inr (Or.inr hpushed)) image hstill rfl hkind
      exact Nat.lt_asymm hlt (h.fresh.queued .video image himage)
  | _ => exact absurd trivial hunsound

/-- In a sound run everything stays in its place. -/
theorem throughout_of_sound {es : List (FilmingEvent Image)}
    (h : Steps (step qt isNull) Sound {} es) :
    Throughout (step qt isNull) (fun f => Kept f ∧ f.hub.NoPictureBehind) {} es := by
  refine throughout_of_step (fun f e f' hf he hstep => ?_) ⟨.init, .init⟩ h
  obtain ⟨hnext, hbehind⟩ := kept_step hf.1 hstep
  exact ⟨hnext, hbehind he hf.2⟩

variable (qt isNull) in
/-- **No picture is ever behind a notice that came later exactly when** no switching off of the
camera finds the queue locked with a picture in it. -/
theorem noPictureBehind_iff (es : List (FilmingEvent Image)) :
    Throughout (step qt isNull) (fun f => f.hub.NoPictureBehind) {} es ↔
      Steps (step qt isNull) Sound {} es := by
  constructor
  · intro h
    have hkept := h.and_invariant (fun f e f' hf hstep => (kept_step hf hstep).1) .init
    refine steps_of_throughout (fun f e hf hunsound => ?_) hkept
    obtain ⟨f', hstep, hbehind⟩ := behind_of_not_sound hf.2 hunsound
    exact ⟨f', hstep, fun hafter => hbehind hafter.1⟩
  · intro h
    exact (throughout_of_sound h).mono fun _ hf => hf.2

end Filming

/-! ### What the others see -/

/-- What a message says of a camera. -/
inductive Glimpse where
  | picture
  | off
deriving DecidableEq, Repr

/-- What a message that is sent says of the own camera. -/
def MessagePtr.glimpse (msg : MessagePtr Image) : Option Glimpse :=
  match msg.message with
  | .sendImage _ => some .picture
  | .closeCamera => some .off
  | _ => none

theorem MessagePtr.kind_of_glimpse {msg : MessagePtr Image} (h : msg.glimpse = some .picture) :
    msg.message.kind = .sendImage := by
  unfold glimpse at h
  split at h
  · rename_i hmsg
    rw [hmsg]
    rfl
  · simp at h
  · simp at h

theorem MessagePtr.glimpse_of_kind {msg : MessagePtr Image} (h : msg.message.kind = .closeCamera) :
    msg.glimpse = some .off := by
  cases hmsg : msg.message <;> simp_all [glimpse, Message.kind]

/-- What a message that is received says of the camera of `ip`. -/
def Message.glimpse (ip : UInt32) : Message Image → Option Glimpse
  | .recvImage sender _ => if sender = ip then some .picture else none
  | .closeCameraNotify sender => if sender = ip then some .off else none
  | _ => none

namespace Pictures

/-- What the window of another user hears of the camera of `ip`. -/
def Event.glimpse (ip : UInt32) : Event Image → Option Glimpse
  | .message _ msg => msg.glimpse ip
  | _ => none

/-- The window is that of another user. -/
def Event.Foreign (ip : UInt32) : Event Image → Prop
  | .message localIp _ => localIp ≠ ip
  | .openVideo localIp => localIp ≠ ip
  | _ => True

instance (ip : UInt32) : ∀ e : Event Image, Decidable (e.Foreign ip)
  | .message _ _ => inferInstanceAs (Decidable (_ ≠ _))
  | .openVideo _ => inferInstanceAs (Decidable (_ ≠ _))
  | .clicked _ => isTrue trivial
  | .frame _ => isTrue trivial
  | .close => isTrue trivial
  | .flags _ _ _ => isTrue trivial

variable {isNull : Image → Bool} {a : Album Image} {ip localIp : UInt32}

namespace Album

/-- Of strangers nothing is seen, and `ip` is somebody else. -/
structure Discreet (ip : UInt32) (a : Album Image) : Prop where
  strange : ip ∉ a.members → a.seen ip = none
  other : a.localIp = ip → a.localIp = 0

theorem forget_seen (sender : UInt32) (h : a.seen ip = none) :
    (a.forget sender).seen ip = none := by
  simp only [forget, Function.update_apply]
  split
  · rfl
  · exact h

theorem meet_seen (sender : UInt32) (h : a.seen ip = none) : (a.meet sender).seen ip = none := by
  unfold meet
  split
  · exact h
  · exact forget_seen sender h

theorem look_seen {sender : UInt32} (hne : sender ≠ ip) (image : Image) (a : Album Image) :
    (a.look isNull sender image).seen ip = a.seen ip := by
  unfold look
  split
  · rfl
  · exact Function.update_of_ne hne.symm ..

variable (isNull) in
theorem look_members (sender : UInt32) (image : Image) (a : Album Image) :
    (a.look isNull sender image).members = a.members ∧
      (a.look isNull sender image).localIp = a.localIp := by
  unfold look
  split
  · exact ⟨rfl, rfl⟩
  · exact ⟨rfl, rfl⟩

theorem mem_meet (sender : UInt32) (a : Album Image) : sender ∈ (a.meet sender).members := by
  unfold meet
  split
  · assumption
  · exact Finset.mem_insert_self ..

namespace Discreet

theorem meet (h : a.Discreet ip) (sender : UInt32) : (a.meet sender).Discreet ip := by
  unfold Album.meet
  split
  · exact h
  · exact ⟨fun hout =>
        forget_seen sender (h.strange fun hin => hout (Finset.mem_insert_of_mem hin)),
      h.other⟩

theorem forget (h : a.Discreet ip) (sender : UInt32) : (a.forget sender).Discreet ip :=
  ⟨fun hout => forget_seen sender (h.strange hout), h.other⟩

theorem look (h : a.Discreet ip) {sender : UInt32} (hsender : sender = ip → ip ∈ a.members)
    (image : Image) : (a.look isNull sender image).Discreet ip := by
  obtain ⟨hmembers, hlocal⟩ := look_members isNull sender image a
  refine ⟨fun hout => ?_, fun hip => hlocal.trans (h.other (hlocal.symm.trans hip))⟩
  rw [hmembers] at hout
  exact (look_seen (fun heq => hout (hsender heq)) image a).trans (h.strange hout)

theorem told (h : a.Discreet ip) (hother : localIp ≠ ip) (msg : Message Image) :
    (a.told isNull localIp msg).Discreet ip := by
  have henter : Discreet ip { a.meet localIp with localIp := localIp } :=
    ⟨(h.meet localIp).strange, fun heq => absurd heq hother⟩
  cases msg with
  | createMeetingResponse roomNo =>
      simp only [Album.told]
      split
      · exact henter
      · exact h
  | joinMeetingResponse c =>
      simp only [Album.told]
      split
      · exact henter
      · exact h
  | recvImage sender image =>
      refine (h.meet sender).look (fun heq => ?_) image
      rw [← heq]
      exact mem_meet sender a
  | partnerJoin sender => exact h.meet sender
  | partnerJoin2 partnerIps =>
      simp only [Album.told]
      clear henter
      induction partnerIps generalizing a with
      | nil => exact h
      | cons sender partnerIps ih => exact ih (h.meet sender)
  | partnerExit sender =>
      refine ⟨fun hout => ?_, h.other⟩
      by_cases heq : ip = sender
      · rw [heq]
        exact Function.update_self ..
      · exact forget_seen sender (h.strange fun hin => hout (Finset.mem_erase.mpr ⟨heq, hin⟩))
  | closeCameraNotify sender =>
      simp only [Album.told]
      split
      · exact h.forget sender
      · exact h
  | _ => exact h

end Discreet

/-- Only a picture of `ip` makes it be seen. -/
theorem told_seen {msg : Message Image} (hmsg : msg.glimpse ip ≠ some .picture)
    (h : a.seen ip = none) : (a.told isNull localIp msg).seen ip = none := by
  cases msg with
  | createMeetingResponse roomNo =>
      simp only [told]
      split
      · exact meet_seen localIp h
      · exact h
  | joinMeetingResponse c =>
      simp only [told]
      split
      · exact meet_seen localIp h
      · exact h
  | recvImage sender image =>
      have hne : sender ≠ ip := fun heq => hmsg (if_pos heq)
      exact (look_seen hne image _).trans (meet_seen sender h)
  | partnerJoin sender => exact meet_seen sender h
  | partnerJoin2 partnerIps =>
      clear hmsg
      simp only [told]
      induction partnerIps generalizing a with
      | nil => exact h
      | cons sender partnerIps ih => exact ih (meet_seen sender h)
  | partnerExit sender => exact forget_seen sender h
  | closeCameraNotify sender =>
      simp only [told]
      split
      · exact forget_seen sender h
      · exact h
  | _ => exact h

/-- A notice takes what is seen away. -/
theorem told_off {msg : Message Image} (hmsg : msg.glimpse ip = some .off) (h : a.Discreet ip) :
    (a.told isNull localIp msg).seen ip = none := by
  cases msg with
  | closeCameraNotify sender =>
      have heq : sender = ip := by
        by_contra hne
        simp [Message.glimpse, hne] at hmsg
      rw [heq]
      simp only [told]
      split
      · exact Function.update_self ..
      · rename_i hout
        exact h.strange hout
  | _ => simp [Message.glimpse] at hmsg

end Album

/-- What an event does to what is seen of somebody else. -/
structure Hears (ip : UInt32) (e : Event Image) (a a' : Album Image) : Prop where
  discreet : a'.Discreet ip
  keeps : e.glimpse ip ≠ some .picture → a.seen ip = none → a'.seen ip = none
  off : e.glimpse ip = some .off → a'.seen ip = none

theorem hears_after {e : Event Image} (hforeign : e.Foreign ip) (h : a.Discreet ip) :
    Hears ip e a (a.after isNull e) := by
  cases e with
  | message localIp msg =>
      exact ⟨h.told hforeign msg, fun hmsg hnone => Album.told_seen hmsg hnone,
        fun hmsg => Album.told_off hmsg h⟩
  | openVideo localIp =>
      refine ⟨?_, fun _ hnone => ?_, fun hnone => by simp [Event.glimpse] at hnone⟩
      · simp only [Album.after]
        split
        · split
          · exact ⟨(h.forget localIp).strange, h.other⟩
          · exact ⟨h.strange, h.other⟩
        · exact ⟨h.strange, h.other⟩
      · simp only [Album.after]
        split
        · split
          · exact Album.forget_seen localIp hnone
          · exact hnone
        · exact hnone
  | frame image =>
      simp only [Album.after]
      split
      · exact ⟨h, fun _ => id, fun hnone => by simp [Event.glimpse] at hnone⟩
      · rename_i hlocal
        have hne : a.localIp ≠ ip := fun heq => hlocal (h.other heq)
        exact ⟨h.look (fun heq => absurd heq hne) image,
          fun _ hnone => (Album.look_seen hne image a).trans hnone,
          fun hnone => by simp [Event.glimpse] at hnone⟩
  | _ => exact ⟨h, fun _ => id, fun hnone => by simp [Event.glimpse] at hnone⟩

/-- The end of a session only makes less be seen. -/
theorem hears_step {h h' : Hall Image} {e : Event Image} (hforeign : e.Foreign ip)
    (hdiscreet : h.album.Discreet ip) (hstep : h.step isNull e = some h') :
    Hears ip e h.album h'.album := by
  rw [Hall.step, Option.map_eq_some_iff] at hstep
  obtain ⟨w', -, rfl⟩ := hstep
  show Hears ip e h.album (if h.window.ends e then h.album.ended else h.album.after isNull e)
  split
  · exact ⟨⟨fun _ => rfl, hdiscreet.other⟩, fun _ _ => rfl, fun _ => rfl⟩
  · exact hears_after hforeign hdiscreet

/-- The window's run is one of the window and what should be seen in it. -/
theorem run_hall {es : List (Event Image)} {h : Hall Image} {w : Window Image}
    (hrun : run (Window.step isNull) h.window es = some w) :
    ∃ a, run (Hall.step isNull) h es = some ⟨w, a⟩ := by
  induction es generalizing h with
  | nil =>
      rw [run_nil, Option.some.injEq] at hrun
      subst hrun
      exact ⟨h.album, rfl⟩
  | cons e es ih =>
      obtain ⟨w', hstep, hrest⟩ := run_cons_some hrun
      have hhall : h.step isNull e
          = some ⟨w', if h.window.ends e then h.album.ended else h.album.after isNull e⟩ := by
        rw [Hall.step, hstep]
        rfl
      obtain ⟨a, hlast⟩ := ih (h := ⟨w', _⟩) hrest
      exact ⟨a, by rw [run_cons, hhall]; exact hlast⟩

/-- Who has heard last that a camera is off sees nothing of it. -/
theorem unseen_last {es : List (Event Image)} {h : Hall Image}
    (hrun : run (Hall.step isNull) {} es = some h) (hforeign : ∀ e ∈ es, e.Foreign ip) :
    h.album.Discreet ip ∧
      ((es.filterMap (Event.glimpse ip)).getLast? = some .off → h.album.seen ip = none) := by
  induction es using List.reverseRecOn generalizing h with
  | nil =>
      rw [run_nil, Option.some.injEq] at hrun
      rw [← hrun]
      exact ⟨⟨fun _ => rfl, fun _ => rfl⟩, fun _ => rfl⟩
  | append_singleton es e ih =>
      rw [run_append, Option.bind_eq_some_iff] at hrun
      obtain ⟨h', hbefore, hone⟩ := hrun
      obtain ⟨h'', hstep, hnil⟩ := run_cons_some hone
      obtain rfl : h'' = h := Option.some.inj hnil
      obtain ⟨hdiscreet, hseen⟩ := ih hbefore fun e he => hforeign e (List.mem_append_left _ he)
      have hhears := hears_step (hforeign e (by simp)) hdiscreet hstep
      refine ⟨hhears.discreet, fun hlast => ?_⟩
      rw [List.filterMap_append] at hlast
      cases hglimpse : e.glimpse ip with
      | none =>
          rw [List.filterMap_cons_none hglimpse, List.filterMap_nil, List.append_nil] at hlast
          exact hhears.keeps (by rw [hglimpse]; simp) (hseen hlast)
      | some glimpse =>
          rw [List.filterMap_cons_some hglimpse, List.filterMap_nil, List.getLast?_concat,
            Option.some.injEq] at hlast
          exact hhears.off (hglimpse.trans (congrArg some hlast))

/-- Then the tile shows the avatar. -/
theorem tile_off {es : List (Event Image)} {w : Window Image}
    (hrun : run (Window.step isNull) {} es = some w) (hforeign : ∀ e ∈ es, e.Foreign ip)
    (hlast : (es.filterMap (Event.glimpse ip)).getLast? = some .off) {shown : Shown Image}
    (hshown : w.cameraVideo.partnerDisplays ip = some shown) : shown = .avatar := by
  obtain ⟨a, hhall⟩ := run_hall (h := {}) hrun
  have hfits : Fits isNull w a := run_invariant
    (I := fun h : Hall Image => Fits isNull h.window h.album)
    (fun _ _ _ h hstep => (comes_step h hstep).fits) fits_init hhall
  have hnone : a.seen ip = none := (unseen_last hhall hforeign).2 hlast
  rw [hfits.hangs.displays ip, hnone] at hshown
  split at hshown
  · exact (Option.some.inj hshown).symm
  · simp at hshown

end Pictures

namespace Filming

variable {qt : Qt Image} {isNull : Image → Bool} {f : Filming Image}

/-- Of the camera nothing is posted behind its notice, but maybe notices. -/
theorem posted_behind {es : List (FilmingEvent Image)} (hrun : run (step qt isNull) {} es = some f)
    (hsound : Steps (step qt isNull) Sound {} es) {notice : MessagePtr Image}
    (hclosed : f.closedAt = some notice.serial) (hkind : notice.message.kind = .closeCamera)
    {before after : List (MessagePtr Image)} (hsent : f.hub.sent = before ++ notice :: after) :
    ∀ msg ∈ after, msg.glimpse ≠ some .picture := by
  obtain ⟨hkept, hbehind⟩ := (throughout_of_sound hsound).last hrun
  have hordered := hbehind.sent
  rw [hsent, List.pairwise_append, List.pairwise_cons] at hordered
  intro msg hmsg hpicture
  have himage : msg.message.kind = .sendImage := MessagePtr.kind_of_glimpse hpicture
  have hold : msg.serial < notice.serial :=
    (hkept.closed _ hclosed).sent msg (by rw [hsent]; simp [hmsg]) himage
  exact Nat.lt_asymm hold (hordered.2.1.1 msg hmsg hkind himage)

/-- The last glimpse is that the camera is off, if no picture comes after that. -/
theorem getLast?_off {front back : List Glimpse} (h : .picture ∉ back) :
    (front ++ .off :: back).getLast? = some .off := by
  have hoff : ∀ glimpse ∈ .off :: back, glimpse = .off := by
    intro glimpse hglimpse
    rcases List.mem_cons.mp hglimpse with rfl | hlater
    · rfl
    · cases glimpse with
      | picture => exact absurd hlater h
      | off => rfl
  rw [List.getLast?_append_of_ne_nil _ (List.cons_ne_nil _ _),
    List.getLast?_eq_some_getLast (List.cons_ne_nil _ _), hoff _ (List.getLast_mem _)]

/-- **Once the notice has gone out, the others see the avatar**: where every switching off was
sound, the camera is off and its notice is posted, the window of whoever has heard last of this
camera what was posted last shows the avatar for it, whatever else happened there. -/
theorem unseen {es : List (FilmingEvent Image)} (hrun : run (step qt isNull) {} es = some f)
    (hsound : Steps (step qt isNull) Sound {} es) {notice : MessagePtr Image}
    (hclosed : f.closedAt = some notice.serial) (hkind : notice.message.kind = .closeCamera)
    (hposted : notice ∈ f.hub.sent) {ip : UInt32} {heard : List (Pictures.Event Image)}
    {w : Pictures.Window Image} (hwindow : run (Pictures.Window.step isNull) {} heard = some w)
    (hforeign : ∀ e ∈ heard, e.Foreign ip)
    (hheard : (heard.filterMap (Pictures.Event.glimpse ip)).getLast?
      = (f.hub.sent.filterMap MessagePtr.glimpse).getLast?) :
    ∀ shown, w.cameraVideo.partnerDisplays ip = some shown → shown = .avatar := by
  intro shown hshown
  obtain ⟨before, after, hsent⟩ := List.append_of_mem hposted
  have hquiet := posted_behind hrun hsound hclosed hkind hsent
  have hlast : (f.hub.sent.filterMap MessagePtr.glimpse).getLast? = some .off := by
    rw [hsent, List.filterMap_append, List.filterMap_cons_some (MessagePtr.glimpse_of_kind hkind)]
    refine getLast?_off fun hpicture => ?_
    obtain ⟨msg, hmsg, hsome⟩ := List.mem_filterMap.mp hpicture
    exact hquiet msg hmsg hsome
  exact Pictures.tile_off hwindow hforeign (hheard.trans hlast) hshown

/-- A picture is posted, and another one waits when the camera goes off. -/
def sampleShow : List (FilmingEvent Unit) :=
  [.partners true, .openVideo true true, .frame () true, .hub (.attach true)]
    ++ List.replicate 6 (.hub .start) ++ List.replicate 7 (.hub (.work 0 0 true))
    ++ [.frame () true, .openVideo true true] ++ List.replicate 7 (.hub (.work 0 0 true))

/-- What another user hears of it. -/
def sampleHeard : List (Pictures.Event Unit) :=
  [.message 5 (.joinMeetingResponse 7), .message 5 (.recvImage 9 ()), .clicked 9,
    .message 5 (.closeCameraNotify 9), .message 5 (.partnerJoin 11)]

theorem unseen_sampleShow : ∃ f w,
    run (step MessageCodec.plainQt fun _ => false) {} sampleShow = some f ∧
      run (Pictures.Window.step fun _ => false) {} sampleHeard = some w ∧
      ∀ shown, w.cameraVideo.partnerDisplays 9 = some shown → shown = .avatar := by
  have hrun : (run (step MessageCodec.plainQt fun _ => false) {} sampleShow).map
      (fun f => (f.closedAt, f.hub.sent.map fun msg => (msg.serial, msg.message.kind),
        f.hub.sent.filterMap MessagePtr.glimpse))
      = some (some 2, [(0, .sendImage), (2, .closeCamera)], [.picture, .off]) := by
    decide +kernel
  rw [Option.map_eq_some_iff] at hrun
  obtain ⟨f, hrun, hf⟩ := hrun
  simp only [Prod.mk.injEq] at hf
  obtain ⟨hclosed, hsent, hglimpses⟩ := hf
  obtain ⟨notice, hposted, hnotice⟩ : ∃ notice ∈ f.hub.sent,
      (notice.serial, notice.message.kind) = (2, .closeCamera) := by
    rw [← List.mem_map, hsent]
    decide
  rw [Prod.mk.injEq] at hnotice
  obtain ⟨w, hwindow⟩ : ∃ w, run (Pictures.Window.step fun _ => false) {} sampleHeard = some w :=
    Option.isSome_iff_exists.mp (by decide +kernel)
  refine ⟨f, w, hrun, hwindow, unseen hrun (by decide +kernel) (hnotice.1.symm ▸ hclosed) hnotice.2
    hposted hwindow (by decide) ?_⟩
  rw [hglimpses]
  rfl

end Filming

end CloudMeeting.Client
