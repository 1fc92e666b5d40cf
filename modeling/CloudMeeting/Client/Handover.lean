/-
What becomes of a request or a text on its way to the connection.

It is in the queue, in the hand of a worker or posted, and when the epoch of the worker that
holds it is over, it goes from the hand back into the queue.  Both ways into the queue are a
`push`, and a push that does not get the lock for two seconds gives up, so that there is a
fourth place: `givenUp`.
-/
import CloudMeeting.Client.TextOrder

namespace CloudMeeting.Client

variable {Image : Type}

/-- The message a worker is about to give back. -/
def SendStage.returned : SendStage Image → Option (MessagePtr Image)
  | .giveBack msg => some msg
  | _ => none

/-- How often the request or text of this number is among the messages. -/
def copies (n : Nat) (msgs : List (MessagePtr Image)) : Nat :=
  msgs.countP fun msg => msg.serial = n && msg.message.kind.givenBack

namespace PriorityMessageQueue

/-- Everything queued. -/
def queued (q : PriorityMessageQueue Image) : List (MessagePtr Image) :=
  q.buckets .control ++ (q.buckets .audio ++ (q.buckets .text ++ q.buckets .video))

variable {q : PriorityMessageQueue Image}

theorem copies_append (n : Nat) (msgs msgs' : List (MessagePtr Image)) :
    copies n (msgs ++ msgs') = copies n msgs + copies n msgs' :=
  List.countP_append

theorem copies_setBucket (n : Nat) (q : PriorityMessageQueue Image) (priority : MessagePriority)
    (bucket : List (MessagePtr Image)) :
    copies n (q.setBucket priority bucket).queued + copies n (q.buckets priority) =
      copies n q.queued + copies n bucket := by
  cases priority <;>
    simp only [queued, copies_append, setBucket_self, setBucket_of_ne, ne_eq, reduceCtorEq,
      not_false_eq_true] <;>
    omega

/-- A push into a bucket that is not full keeps everything. -/
theorem copies_push (n : Nat) (msg : MessagePtr Image)
    (h : (q.buckets msg.message.sendPriority).length < msg.message.sendPriority.maxsize) :
    copies n (q.push msg true).queued = copies n q.queued + copies n [msg] := by
  have hroom : pushBounded (q.buckets msg.message.sendPriority) msg
      msg.message.sendPriority.maxsize = q.buckets msg.message.sendPriority ++ [msg] := by
    rw [pushBounded, if_neg (by omega)]
    cases hbucket : q.buckets msg.message.sendPriority with
    | nil => rfl
    | cons first bucket =>
        rw [hbucket] at h
        rw [popExcess, if_neg (by omega)]
  have hset := copies_setBucket n q msg.message.sendPriority
    (q.buckets msg.message.sendPriority ++ [msg])
  rw [copies_append] at hset
  unfold push
  rw [if_pos rfl, hroom]
  omega

theorem copies_pop (n : Nat) (q : PriorityMessageQueue Image) :
    copies n q.pop.2.queued + copies n q.pop.1.toList = copies n q.queued := by
  rcases q.pop_cases with ⟨_, hpop⟩ | ⟨priority, msg, bucket, hbucket, _, hpop⟩
  · rw [hpop]
    rfl
  · have hset := copies_setBucket n q priority bucket
    have hfront : copies n (q.buckets priority) = copies n [msg] + copies n bucket := by
      rw [hbucket, ← copies_append, List.singleton_append]
    simp only [hpop, Option.toList_some]
    omega

/-- There are neither requests nor texts among the videos. -/
theorem copies_clearVideo (n : Nat) (h : q.Sorted) (locked : Bool) :
    copies n (q.clearVideo locked).queued = copies n q.queued := by
  unfold clearVideo
  split
  · have hset := copies_setBucket n q .video []
    have hvideo : copies n (q.buckets .video) = 0 := by
      apply List.countP_eq_zero.mpr
      intro msg hmsg
      have hpriority := h .video msg hmsg
      cases hmessage : msg.message <;>
        simp [hmessage, Message.sendPriority, Message.kind, MessageKind.givenBack] at hpriority ⊢
    have hnil : copies n ([] : List (MessagePtr Image)) = 0 := rfl
    omega
  · rfl

end PriorityMessageQueue

namespace MessageHub

open PriorityMessageQueue

variable {qt : Qt Image} {hub hub' : MessageHub Image}

/-- The message an event hands in. -/
def handedIn (hub : MessageHub Image) : HubEvent Image → List (MessagePtr Image)
  | .enqueueSend msg _ => [⟨hub.serial, msg⟩]
  | _ => []

/-- The message of a push that gives up on the lock. -/
def givesUp (hub : MessageHub Image) : HubEvent Image → List (MessagePtr Image)
  | .enqueueSend msg locked => if locked then [] else [⟨hub.serial, msg⟩]
  | .work worker _ locked =>
      if locked then [] else (hub.workers[worker]?.bind fun w => w.stage.returned).toList
  | _ => []

/-- The messages handed in along a run. -/
def enqueued (qt : Qt Image) (hub : MessageHub Image) (es : List (HubEvent Image)) :
    List (MessagePtr Image) :=
  Run.gathered (step qt) handedIn hub es

/-- The messages of the pushes that gave up along a run. -/
def givenUp (qt : Qt Image) (hub : MessageHub Image) (es : List (HubEvent Image)) :
    List (MessagePtr Image) :=
  Run.gathered (step qt) givesUp hub es

/-- How often a request or text is queued, in a hand or posted. -/
def placed (n : Nat) (hub : MessageHub Image) : Nat :=
  copies n hub.sendQueue.queued + copies n hub.hands + copies n hub.sent

/-- There is a connection, the queue is not cleared, and no bucket is full. -/
def Carries (hub : MessageHub Image) (e : HubEvent Image) : Prop :=
  (∀ priority, (hub.sendQueue.buckets priority).length < priority.maxsize) ∧
    match e with
    | .clearAll _ => False
    | .work _ _ _ => hub.connection = true
    | _ => True

/-! ### What a step moves -/

/-- A worker's step moves what it holds, or what it takes, to one other place. -/
theorem Works.moves {w : SendWorker Image} {localIp : UInt32} {locked : Bool}
    {after : MessageHub Image} {stage : SendStage Image}
    (h : Works qt hub w localIp locked after stage) (n : Nat)
    (hroom : ∀ priority, (hub.sendQueue.buckets priority).length < priority.maxsize)
    (hconnection : hub.connection = true) :
    copies n after.sendQueue.queued + copies n stage.hand.toList + copies n after.sent
        + copies n (if locked then [] else w.stage.returned.toList) =
      copies n hub.sendQueue.queued + copies n w.stage.hand.toList + copies n hub.sent := by
  have hnil : copies n ([] : List (MessagePtr Image)) = 0 := rfl
  have hkept : w.stage.returned = none →
      copies n (if locked then [] else w.stage.returned.toList) = 0 := by
    intro hreturned
    rw [hreturned, Option.toList_none, ite_self]
    rfl
  cases h with
  | ahead hhand hnext =>
      have hreturned : w.stage.returned = none := by
        cases hstage : w.stage <;> simp [hstage, SendStage.hand, SendStage.returned] at hhand ⊢
      rw [hkept hreturned, hhand, hnext]
      rfl
  | took hstage hpop =>
      have hpopped := copies_pop n hub.sendQueue
      have hreturned : w.stage.returned = none := hstage ▸ rfl
      have hhand : w.stage.hand = none := hstage ▸ rfl
      rw [hpop] at hpopped
      rw [hkept hreturned, hhand, ← hpopped]
      rfl
  | returning hstage hepoch hkind =>
      have hreturned : w.stage.returned = none := hstage ▸ rfl
      rw [hkept hreturned, hstage]
      rfl
  | forwarding hstage hepoch hconnection =>
      have hreturned : w.stage.returned = none := hstage ▸ rfl
      rw [hkept hreturned, hstage]
      rfl
  | @dropped msg _ hstage hnext hwhy =>
      have hreturned : w.stage.returned = none := hstage ▸ rfl
      have hhand : w.stage.hand = some msg := hstage ▸ rfl
      have hkind := hwhy.resolve_right (by simp [hconnection])
      have hmsg : copies n [msg] = 0 := by simp [copies, hkind]
      rw [hkept hreturned, hhand, hnext, Option.toList_some, hmsg]
      rfl
  | @gaveBack msg hstage =>
      have hreturned : w.stage.returned = some msg := hstage ▸ rfl
      have hhand : w.stage.hand = some msg := hstage ▸ rfl
      rw [hreturned, hhand]
      cases locked with
      | true =>
          have hpush := copies_push n msg (hroom msg.message.sendPriority)
          simp only [SendStage.hand, Option.toList_some, Option.toList_none, if_true, hnil]
          show copies n (hub.sendQueue.push msg true).queued + 0 + copies n hub.sent + 0 = _
          omega
      | false =>
          simp only [SendStage.hand, Option.toList_some, Option.toList_none, hnil]
          show copies n hub.sendQueue.queued + 0 + copies n hub.sent + copies n [msg] = _
          omega
  | @forwarded msg frame hstage hframe =>
      have hreturned : w.stage.returned = none := hstage ▸ rfl
      have hhand : w.stage.hand = some msg := hstage ▸ rfl
      have hsent : ({ hub with posted := hub.posted ++ [(msg, frame)] } : MessageHub Image).sent
          = hub.sent ++ [msg] := by
        simp [sent]
      rw [hkept hreturned, hhand, hsent, copies_append]
      simp only [SendStage.hand, Option.toList_some, Option.toList_none, hnil]
      omega

theorem placed_work (n : Nat) (h : hub.Alone) {worker : Nat} {localIp : UInt32} {locked : Bool}
    (hcarries : hub.Carries (.work worker localIp locked))
    (hstep : stepWorker qt hub worker localIp locked = some hub') :
    placed n hub' + copies n (hub.givesUp (.work worker localIp locked)) = placed n hub := by
  obtain ⟨w, after, stage, rfl, hworkers, hworks, rfl⟩ := h.work hstep
  obtain ⟨hroom, hconnection⟩ := hcarries
  have hup : hub.givesUp (.work 0 localIp locked)
      = if locked then [] else w.stage.returned.toList := by
    simp [givesUp, hworkers]
  have hbefore : hub.hands = w.stage.hand.toList := hands_worker hworkers
  have hafter : ({ after with workers := [{ w with stage := stage }] } : MessageHub Image).hands
      = stage.hand.toList :=
    hands_worker (w := { w with stage := stage }) rfl
  rw [placed, placed, hup, hbefore, hafter]
  exact hworks.moves n hroom hconnection

theorem placed_start (n : Nat) (h : Starts hub hub') : placed n hub' = placed n hub := by
  cases h with
  | join hstage hdone =>
      rw [placed, placed, hands_of_done hdone]
      rfl
  | spawn hstage => simp [placed, hands, sent, SendStage.hand]
  | _ => rfl

/-- A message is where it was before, or has moved to one other place. -/
theorem placed_step (n : Nat) (halone : hub.Alone) (hsorted : hub.sendQueue.Sorted)
    {e : HubEvent Image} (hcarries : hub.Carries e) (hstep : step qt hub e = some hub') :
    placed n hub' + copies n (hub.givesUp e) = placed n hub + copies n (hub.handedIn e) := by
  cases e with
  | enqueueSend msg locked =>
      rw [← Option.some.inj hstep]
      cases locked with
      | true =>
          have hpush := copies_push n ⟨hub.serial, msg⟩ (hcarries.1 msg.sendPriority)
          show copies n (hub.sendQueue.push ⟨hub.serial, msg⟩ true).queued + copies n hub.hands
            + copies n hub.sent + 0 = placed n hub + copies n [⟨hub.serial, msg⟩]
          rw [placed]
          omega
      | false => rfl
  | clearPendingVideo locked =>
      have hvideo := copies_clearVideo n hsorted locked
      rw [← Option.some.inj hstep]
      show copies n (hub.sendQueue.clearVideo locked).queued + copies n hub.hands
        + copies n hub.sent + 0 = placed n hub + 0
      rw [hvideo]
      rfl
  | clearAll locked => exact hcarries.2.elim
  | attach connection => exact Option.some.inj hstep ▸ rfl
  | stopRunning => exact Option.some.inj hstep ▸ rfl
  | stopEpoch =>
      simp only [step] at hstep
      split at hstep
      · exact Option.some.inj hstep ▸ rfl
      · simp at hstep
  | start => exact placed_start n (starts hstep)
  | work worker localIp locked => exact placed_work n halone hcarries hstep

/-! ### Runs -/

theorem serial_step {e : HubEvent Image} (hstep : step qt hub e = some hub') :
    hub'.serial = hub.serial + (hub.handedIn e).length := by
  cases e with
  | stopEpoch =>
      simp only [step] at hstep
      split at hstep
      · exact Option.some.inj hstep ▸ rfl
      · simp at hstep
  | start => cases starts hstep <;> rfl
  | work worker localIp locked =>
      obtain ⟨w, after, stage, _, hworks, rfl⟩ := stepWorker_cases hstep
      cases hworks <;> rfl
  | _ => exact Option.some.inj hstep ▸ rfl

/-- What is handed in gets the next number. -/
theorem handedIn_serial (hub : MessageHub Image) (e : HubEvent Image) :
    (hub.handedIn e).map (·.serial) = List.range' hub.serial (hub.handedIn e).length := by
  cases e <;> rfl

/-- Messages are numbered in the order in which they are handed in. -/
theorem enqueued_serials {es : List (HubEvent Image)}
    (hrun : Run.run (step qt) hub es = some hub') :
    (enqueued qt hub es).map (·.serial) = List.range' hub.serial (enqueued qt hub es).length := by
  induction es generalizing hub with
  | nil => rfl
  | cons e es ih =>
      obtain ⟨next, hstep, hrest⟩ := Run.run_cons_some hrun
      have hrest := ih hrest
      have hsplit : enqueued qt hub (e :: es) = hub.handedIn e ++ enqueued qt next es :=
        Run.gathered_cons hstep es
      rw [hsplit, List.map_append, List.length_append, handedIn_serial, hrest,
        serial_step hstep, List.range'_append_1]

/-- No two messages have one number. -/
theorem copies_enqueued {es : List (HubEvent Image)} (hrun : Run.run (step qt) hub es = some hub')
    {msg : MessagePtr Image} (hmsg : msg ∈ enqueued qt hub es)
    (hkind : msg.message.kind.givenBack = true) :
    copies msg.serial (enqueued qt hub es) = 1 := by
  have hnodup : ((enqueued qt hub es).map (·.serial)).Nodup := by
    rw [enqueued_serials hrun]
    exact List.nodup_range'
  have hpos : 0 < copies msg.serial (enqueued qt hub es) :=
    List.countP_pos_iff.mpr ⟨msg, hmsg, by simp [hkind]⟩
  have hle : copies msg.serial (enqueued qt hub es)
      ≤ ((enqueued qt hub es).map (·.serial)).count msg.serial := by
    rw [List.count, List.countP_map]
    apply List.countP_mono_left
    intro other _ hother
    simp only [Bool.and_eq_true, decide_eq_true_eq] at hother
    simp [hother.1]
  have hone := List.nodup_iff_count.mp hnodup msg.serial
  omega

/-- **A request or text is never lost on its way, except by a push that gives up on the lock.**
Each one handed in is queued, in one worker's hand or posted, or it was dropped by such a push,
and it is in one of these places only, and once.  One worker at most is of the current epoch. -/
theorem handover (qt : Qt Image) {es : List (HubEvent Image)} {hub : MessageHub Image}
    (h : Run.Steps (step qt) Carries {} es) (hrun : Run.run (step qt) {} es = some hub) :
    (∀ msg ∈ enqueued qt {} es, msg.message.kind.givenBack = true →
      copies msg.serial hub.sendQueue.queued + copies msg.serial hub.hands
        + copies msg.serial hub.sent + copies msg.serial (givenUp qt {} es) = 1) ∧
    hub.workers.countP (·.epoch = hub.sendEpoch) ≤ 1 := by
  constructor
  · intro msg hmsg hkind
    have hbalance := Run.balance (placed msg.serial) handedIn givesUp
      (fun other => other.serial = msg.serial && other.message.kind.givenBack)
      (I := fun hub => hub.Alone ∧ hub.sendQueue.Sorted)
      (fun _ _ _ hinv _ hstep => ⟨hinv.1.step hstep, sorted_step hinv.2 hstep⟩)
      (fun _ _ _ hinv hcarries hstep => placed_step msg.serial hinv.1 hinv.2 hcarries hstep)
      ⟨Alone.init, Sorted.init⟩ h hrun
    have hnone : placed msg.serial ({} : MessageHub Image) = 0 := rfl
    have hone := copies_enqueued hrun hmsg hkind
    rw [hnone, Nat.zero_add] at hbalance
    exact hbalance.trans hone
  · have halone : hub.Alone := Run.run_invariant (fun _ _ _ h hstep => h.step hstep) Alone.init hrun
    exact List.countP_le_length.trans halone.workers

theorem forall_priority_iff {p : MessagePriority → Prop} :
    (p .control ∧ p .audio ∧ p .text ∧ p .video) ↔ ∀ priority, p priority := by
  constructor
  · rintro ⟨hcontrol, haudio, htext, hvideo⟩ priority
    cases priority <;> assumption
  · intro h
    exact ⟨h _, h _, h _, h _⟩

instance {p : MessagePriority → Prop} [DecidablePred p] : Decidable (∀ priority, p priority) :=
  decidable_of_iff _ forall_priority_iff

instance (hub : MessageHub Image) (e : HubEvent Image) : Decidable (hub.Carries e) :=
  match e with
  | .clearAll _ => inferInstanceAs (Decidable (_ ∧ False))
  | .work _ _ _ => inferInstanceAs (Decidable (_ ∧ hub.connection = true))
  | .enqueueSend _ _ | .clearPendingVideo _ | .attach _ | .stopRunning | .stopEpoch | .start =>
      inferInstanceAs (Decidable (_ ∧ True))

/-- A worker takes a text, is stopped, and gives the text back. -/
def sampleReturn (locked : Bool) : List (HubEvent Unit) :=
  [.attach true] ++ sampleStart ++ [sampleText [72]] ++ sampleWork 3 ++ [.stopRunning, .stopEpoch]
    ++ sampleWork 1 ++ [.work 0 0 locked]

theorem handover_sampleReturn : ∃ hub,
    Run.run (step MessageCodec.plainQt) {} (sampleReturn true) = some hub ∧
    copies 0 hub.sendQueue.queued + copies 0 hub.hands + copies 0 hub.sent
      + copies 0 (givenUp MessageCodec.plainQt {} (sampleReturn true)) = 1 := by
  have hrun : (Run.run (step MessageCodec.plainQt) {} (sampleReturn true)).isSome := by
    decide +kernel
  obtain ⟨hub, hrun⟩ := Option.isSome_iff_exists.mp hrun
  exact ⟨hub, hrun, (handover MessageCodec.plainQt (by decide +kernel) hrun).1 ⟨0, .sendText [72]⟩
    (by decide +kernel) rfl⟩

/-- A text that is given back while another thread has the lock for two seconds is nowhere. -/
theorem lostReturn : ¬ ∀ (es : List (HubEvent Unit)) (hub : MessageHub Unit),
    Run.Steps (step MessageCodec.plainQt) Carries {} es →
    Run.run (step MessageCodec.plainQt) {} es = some hub →
    ∀ msg ∈ enqueued MessageCodec.plainQt {} es, msg.message.kind.givenBack = true →
      copies msg.serial hub.sendQueue.queued + copies msg.serial hub.hands
        + copies msg.serial hub.sent = 1 := by
  intro hall
  have hrun : (Run.run (step MessageCodec.plainQt) {} (sampleReturn false)).map (placed 0)
      = some 0 := by
    decide +kernel
  rw [Option.map_eq_some_iff] at hrun
  obtain ⟨hub, hrun, hplaced⟩ := hrun
  have hone := hall (sampleReturn false) hub (by decide +kernel) hrun ⟨0, .sendText [72]⟩
    (by decide +kernel) rfl
  rw [placed] at hplaced
  rw [hplaced] at hone
  exact Nat.zero_ne_one hone

end MessageHub

end CloudMeeting.Client
