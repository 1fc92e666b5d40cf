/-
The order of texts across send workers.

The texts that are not lost stand in one line: those posted, the one in the hand of a worker,
those still queued, each under its number.  All that a step does to this line is to drop texts
from it or to add the newest one at its end, except that a text which is given back goes
behind those that were queued in the meantime.  So texts are posted in the order in which
they were handed in for as long as a text given back finds no other in the queue.

That there is only one hand for the line to pass through is because workers are joined before
the next one starts.
-/
import CloudMeeting.Client.Hub
import CloudMeeting.Client.Stream

namespace CloudMeeting.Client

variable {Image : Type}

def MessagePtr.isText (msg : MessagePtr Image) : Bool := msg.message.kind = .sendText

/-- The numbers of the texts among some messages. -/
def texts (msgs : List (MessagePtr Image)) : List Nat := (msgs.filter (·.isText)).map (·.serial)

theorem texts_append (msgs more : List (MessagePtr Image)) :
    texts (msgs ++ more) = texts msgs ++ texts more := by
  simp [texts]

theorem texts_sublist {msgs more : List (MessagePtr Image)} (h : msgs.Sublist more) :
    (texts msgs).Sublist (texts more) :=
  (h.filter _).map _

theorem texts_single_sublist (msg : MessagePtr Image) :
    (texts [msg]).Sublist [msg.serial] :=
  (List.filter_sublist (l := [msg])).map _

theorem texts_of_not_isText {msg : MessagePtr Image} (h : msg.isText = false) :
    texts [msg] = [] := by
  simp [texts, h]

theorem isText_iff (msg : MessagePtr Image) :
    msg.isText = true ↔ msg.message.sendPriority = .text := by
  cases hmsg : msg.message <;> simp [MessagePtr.isText, Message.sendPriority, Message.kind, hmsg]

namespace PriorityMessageQueue

variable {q : PriorityMessageQueue Image}

/-- The texts queued. -/
def queuedTexts (q : PriorityMessageQueue Image) : List Nat := texts (q.buckets .text)

theorem queuedTexts_push (q : PriorityMessageQueue Image) (msg : MessagePtr Image)
    (locked : Bool) :
    ((q.push msg locked).queuedTexts).Sublist (q.queuedTexts ++ texts [msg]) := by
  unfold push
  split
  · by_cases hpriority : msg.message.sendPriority = .text
    · rw [queuedTexts, hpriority, setBucket_self, queuedTexts, ← texts_append]
      exact texts_sublist (pushBounded_sublist _ _ _)
    · rw [queuedTexts, setBucket_of_ne (Ne.symm hpriority)]
      exact List.sublist_append_left _ _
  · exact List.sublist_append_left _ _

/-- A pop takes the front text, if it takes a text at all. -/
theorem queuedTexts_pop (h : q.Sorted) :
    texts q.pop.1.toList ++ q.pop.2.queuedTexts = q.queuedTexts := by
  rcases q.pop_cases with ⟨_, hpop⟩ | ⟨priority, msg, bucket, hbucket, _, hpop⟩
  · rw [hpop]
    rfl
  · rw [hpop]
    have hmsg : msg.message.sendPriority = priority := h priority msg (by simp [hbucket])
    by_cases hpriority : priority = .text
    · subst hpriority
      rw [queuedTexts, setBucket_self, queuedTexts, hbucket, Option.toList_some, ← texts_append]
      rfl
    · have hnot : msg.isText = false := by
        rw [← Bool.not_eq_true, isText_iff, hmsg]
        exact hpriority
      rw [queuedTexts, setBucket_of_ne (Ne.symm hpriority), Option.toList_some,
        texts_of_not_isText hnot]
      rfl

end PriorityMessageQueue

namespace MessageHub

variable {qt : Qt Image} {hub hub' : MessageHub Image}

/-- The texts that are not lost, in the order in which they go. -/
def textLine (hub : MessageHub Image) : List Nat :=
  texts hub.sent ++ (texts hub.hands ++ hub.sendQueue.queuedTexts)

/-- The texts posted are in the order in which they were handed in. -/
def TextsInOrder (hub : MessageHub Image) : Prop := (texts hub.sent).Pairwise (· < ·)

/-- A text that is given back finds no other in the queue. -/
def ReturnsAlone (hub : MessageHub Image) : HubEvent Image → Prop
  | .work worker _ true =>
      match hub.workers[worker]? with
      | some ⟨_, .giveBack msg⟩ => msg.isText = true → hub.sendQueue.queuedTexts = []
      | _ => True
  | _ => True

/-- What is behind the line of texts and holds in every state. -/
structure Inv (hub : MessageHub Image) : Prop where
  alone : hub.Alone
  sorted : hub.sendQueue.Sorted
  line : hub.textLine.Pairwise (· < ·)
  /-- The next message gets a number no text has had. -/
  fresh : ∀ n ∈ hub.textLine, n < hub.serial

theorem Inv.init : Inv ({} : MessageHub Image) where
  alone := Alone.init
  sorted := PriorityMessageQueue.Sorted.init
  line := List.Pairwise.nil
  fresh := fun _ hn => absurd hn (List.not_mem_nil)

/-! ### What a step does to the line -/

/-- The line loses texts, if it changes at all, or the next message joins its end. -/
inductive Lines (hub hub' : MessageHub Image) : Prop
  | kept (hline : hub'.textLine.Sublist hub.textLine) (hserial : hub'.serial = hub.serial)
  | joined (hline : hub'.textLine.Sublist (hub.textLine ++ [hub.serial]))
      (hserial : hub'.serial = hub.serial + 1)

theorem textLine_sublist_of_queue {queue : PriorityMessageQueue Image}
    (h : queue.queuedTexts.Sublist hub.sendQueue.queuedTexts) :
    ({ hub with sendQueue := queue }.textLine).Sublist hub.textLine :=
  List.Sublist.append_left (List.Sublist.append_left h _) _

theorem lines_enqueueSend (hub : MessageHub Image) (msg : Message Image) (locked : Bool) :
    Lines hub (hub.enqueueSend msg locked) := by
  refine .joined ?_ rfl
  have hqueue := (hub.sendQueue.queuedTexts_push ⟨hub.serial, msg⟩ locked).trans
    (List.Sublist.append_left (texts_single_sublist _) _)
  have hline : hub.textLine ++ [hub.serial] = texts hub.sent ++ (texts hub.hands ++
      (hub.sendQueue.queuedTexts ++ [hub.serial])) := by
    simp [textLine]
  rw [hline]
  exact List.Sublist.append_left (List.Sublist.append_left hqueue _) _

theorem queuedTexts_clear (q : PriorityMessageQueue Image) (locked : Bool) :
    ((q.clear locked).queuedTexts).Sublist q.queuedTexts := by
  unfold PriorityMessageQueue.clear
  split
  · exact List.nil_sublist _
  · exact List.Sublist.refl _

theorem queuedTexts_clearVideo (q : PriorityMessageQueue Image) (locked : Bool) :
    (q.clearVideo locked).queuedTexts = q.queuedTexts := by
  unfold PriorityMessageQueue.clearVideo
  split
  · rw [PriorityMessageQueue.queuedTexts, PriorityMessageQueue.setBucket_of_ne (by simp)]
    rfl
  · rfl

/-- A text that is given back to a queue without texts is still in front of all others. -/
theorem queuedTexts_giveBack {q : PriorityMessageQueue Image} {msg : MessagePtr Image}
    (locked : Bool) (h : locked = true → msg.isText = true → q.queuedTexts = []) :
    ((q.push msg locked).queuedTexts).Sublist (texts [msg] ++ q.queuedTexts) := by
  have hpush := q.queuedTexts_push msg locked
  cases hlocked : locked with
  | false => exact List.sublist_append_right _ _
  | true =>
      rw [hlocked] at hpush
      cases htext : msg.isText with
      | false =>
          rw [texts_of_not_isText htext, List.append_nil] at hpush
          exact hpush.trans (List.sublist_append_right _ _)
      | true =>
          rw [h hlocked htext, List.nil_append] at hpush
          exact hpush.trans (List.sublist_append_left _ _)

theorem textLine_worker {w : SendWorker Image} (h : hub.workers = [w]) :
    hub.textLine = texts hub.sent ++ (texts w.stage.hand.toList ++ hub.sendQueue.queuedTexts) := by
  rw [textLine, hands_worker h]

/-- The line passes through the hand of the only worker there is. -/
theorem lines_work (h : hub.Inv) {worker : Nat} {localIp : UInt32} {locked : Bool}
    (hreturns : hub.ReturnsAlone (.work worker localIp locked))
    (hstep : stepWorker qt hub worker localIp locked = some hub') : Lines hub hub' := by
  obtain ⟨w, after, stage, rfl, hworkers, hworks, rfl⟩ := h.alone.work hstep
  have hbefore := textLine_worker hworkers
  have hafter : ({ after with workers := [{ w with stage := stage }] }.textLine) = _ :=
    textLine_worker rfl
  cases hworks with
  | ahead hhand hnext =>
      refine .kept ?_ rfl
      rw [hbefore, hafter, hhand, hnext]
      exact List.Sublist.refl _
  | took hstage hpop =>
      refine .kept ?_ rfl
      have hpopped := PriorityMessageQueue.queuedTexts_pop h.sorted
      rw [hpop] at hpopped
      rw [hbefore, hafter, hstage, ← hpopped]
      exact List.Sublist.refl _
  | returning hstage hepoch hkind =>
      refine .kept ?_ rfl
      rw [hbefore, hafter, hstage]
      exact List.Sublist.refl _
  | forwarding hstage hepoch hconnection =>
      refine .kept ?_ rfl
      rw [hbefore, hafter, hstage]
      exact List.Sublist.refl _
  | dropped hstage hnext hwhy =>
      refine .kept ?_ rfl
      rw [hbefore, hafter, hnext]
      exact (List.sublist_append_right _ _).append_left _
  | @gaveBack msg hstage =>
      refine .kept ?_ rfl
      rw [hbefore, hafter, hstage]
      refine List.Sublist.append_left (queuedTexts_giveBack locked fun hlocked htext => ?_) _
      subst hlocked
      obtain ⟨epoch, now⟩ := w
      subst hstage
      simpa [ReturnsAlone, hworkers, htext] using hreturns
  | @forwarded msg frame hstage hframe =>
      refine .kept ?_ rfl
      have hsent : ({ hub with posted := hub.posted ++ [(msg, frame)] } : MessageHub Image).sent
          = hub.sent ++ [msg] := by
        simp [sent]
      rw [hbefore, hafter, hstage]
      show (texts (sent { hub with posted := hub.posted ++ [(msg, frame)] }) ++ _).Sublist _
      rw [hsent, texts_append, List.append_assoc]
      exact List.Sublist.refl _

theorem textLine_start (h : Starts hub hub') : hub'.textLine = hub.textLine := by
  cases h with
  | join hstage hdone =>
      rw [textLine, textLine, hands_of_done hdone]
      rfl
  | spawn hstage => simp [textLine, hands, sent, SendStage.hand]
  | _ => rfl

theorem lines_step (h : hub.Inv) {e : HubEvent Image} (hreturns : hub.ReturnsAlone e)
    (hstep : step qt hub e = some hub') : Lines hub hub' := by
  cases e with
  | enqueueSend msg locked =>
      exact Option.some.inj hstep ▸ lines_enqueueSend hub msg locked
  | clearPendingVideo locked =>
      refine Option.some.inj hstep ▸ .kept (textLine_sublist_of_queue ?_) rfl
      rw [queuedTexts_clearVideo]
  | clearAll locked =>
      refine Option.some.inj hstep ▸ .kept (textLine_sublist_of_queue ?_) rfl
      exact queuedTexts_clear _ locked
  | attach connection => exact Option.some.inj hstep ▸ .kept (List.Sublist.refl _) rfl
  | stopRunning => exact Option.some.inj hstep ▸ .kept (List.Sublist.refl _) rfl
  | stopEpoch =>
      simp only [step] at hstep
      split at hstep
      · exact Option.some.inj hstep ▸ .kept (List.Sublist.refl _) rfl
      · simp at hstep
  | start =>
      have hstarts := starts hstep
      refine .kept ?_ ?_
      · rw [textLine_start hstarts]
      · cases hstarts <;> rfl
  | work worker localIp locked => exact lines_work h hreturns hstep

theorem sorted_step (h : hub.sendQueue.Sorted) {e : HubEvent Image}
    (hstep : step qt hub e = some hub') : hub'.sendQueue.Sorted := by
  cases e with
  | enqueueSend msg locked => exact Option.some.inj hstep ▸ h.push _ locked
  | clearPendingVideo locked => exact Option.some.inj hstep ▸ h.clearVideo locked
  | clearAll locked => exact Option.some.inj hstep ▸ h.clear locked
  | attach connection => exact Option.some.inj hstep ▸ h
  | stopRunning => exact Option.some.inj hstep ▸ h
  | stopEpoch =>
      simp only [step] at hstep
      split at hstep
      · exact Option.some.inj hstep ▸ h
      · simp at hstep
  | start => cases starts hstep <;> exact h
  | work worker localIp locked =>
      obtain ⟨w, after, stage, _, hworks, rfl⟩ := stepWorker_cases hstep
      cases hworks with
      | took hstage hpop =>
          have hpopped := h.pop
          rw [hpop] at hpopped
          exact hpopped
      | gaveBack hstage => exact h.push _ locked
      | _ => exact h

theorem Inv.step (h : hub.Inv) {e : HubEvent Image} (hreturns : hub.ReturnsAlone e)
    (hstep : step qt hub e = some hub') : hub'.Inv := by
  have halone := h.alone.step hstep
  have hsorted := sorted_step h.sorted hstep
  cases lines_step h hreturns hstep with
  | kept hline hserial =>
      refine ⟨halone, hsorted, h.line.sublist hline, fun n hn => ?_⟩
      rw [hserial]
      exact h.fresh n (hline.subset hn)
  | joined hline hserial =>
      have hjoined : (hub.textLine ++ [hub.serial]).Pairwise (· < ·) := by
        rw [List.pairwise_append]
        exact ⟨h.line, List.pairwise_singleton _ _, fun n hn m hm =>
          List.mem_singleton.mp hm ▸ h.fresh n hn⟩
      refine ⟨halone, hsorted, hjoined.sublist hline, fun n hn => ?_⟩
      rw [hserial]
      rcases List.mem_append.mp (hline.subset hn) with hold | hnew
      · exact Nat.lt_succ_of_lt (h.fresh n hold)
      · exact List.mem_singleton.mp hnew ▸ Nat.lt_succ_self _

/-! ### Runs -/

/-- **Texts are posted in the order in which they were handed in**, in every run in which a text
that is given back finds no other in the queue. -/
theorem textOrder (qt : Qt Image) {es : List (HubEvent Image)}
    (h : Run.Steps (step qt) ReturnsAlone {} es) : Run.Throughout (step qt) TextsInOrder {} es := by
  have hinv : Run.Throughout (step qt) Inv {} es :=
    Run.throughout_of_step (fun _ _ _ hinv hreturns hstep => hinv.step hreturns hstep) Inv.init h
  exact hinv.mono fun _ hinv => hinv.line.sublist (List.sublist_append_left _ _)

instance (hub : MessageHub Image) (e : HubEvent Image) : Decidable (hub.ReturnsAlone e) := by
  unfold ReturnsAlone
  split
  · split <;> infer_instance
  · infer_instance

/-- A text is handed in, and every push gets the lock. -/
def sampleText (text : Bytes) : HubEvent Unit := .enqueueSend (.sendText text) true

/-- A worker is started. -/
def sampleStart : List (HubEvent Unit) := List.replicate 6 .start

/-- The worker takes some steps. -/
def sampleWork (steps : Nat) : List (HubEvent Unit) := List.replicate steps (.work 0 0 true)

/-- A worker is stopped while it holds a text, which the next worker posts before a later one. -/
def sampleHandover : List (HubEvent Unit) :=
  [.attach true] ++ sampleStart ++ [sampleText [72]] ++ sampleWork 3 ++ [.stopRunning, .stopEpoch]
    ++ sampleWork 2 ++ [sampleText [73]] ++ sampleStart ++ sampleWork 10

theorem textOrder_sampleHandover :
    (Run.run (step MessageCodec.plainQt) {} sampleHandover).map (texts ·.sent) = some [0, 1] ∧
    Run.Throughout (step MessageCodec.plainQt) TextsInOrder {} sampleHandover :=
  ⟨by decide +kernel, textOrder MessageCodec.plainQt (by decide +kernel)⟩

/-- The same, but the later text is handed in while the worker holds the first one. -/
def lateHandover : List (HubEvent Unit) :=
  [.attach true] ++ sampleStart ++ [sampleText [72]] ++ sampleWork 3 ++ [.stopRunning, .stopEpoch]
    ++ [sampleText [73]] ++ sampleWork 2 ++ sampleStart ++ sampleWork 10

/-- Nothing is cleared, and the bucket of the texts is not full. -/
def Spared (hub : MessageHub Image) : HubEvent Image → Prop
  | .clearAll _ => False
  | _ => hub.sendQueue.queuedTexts.length < queueMaxsize

instance (hub : MessageHub Image) (e : HubEvent Image) : Decidable (hub.Spared e) := by
  unfold Spared
  split <;> infer_instance

/-- A text that is given back behind a later one is posted after it. -/
theorem textsSwapped : ∃ es hub, Run.Steps (step MessageCodec.plainQt) Spared {} es ∧
    Run.run (step MessageCodec.plainQt) {} es = some hub ∧ ¬ hub.TextsInOrder := by
  have hrun : (Run.run (step MessageCodec.plainQt) {} lateHandover).map (texts ·.sent)
      = some [1, 0] := by
    decide +kernel
  rw [Option.map_eq_some_iff] at hrun
  obtain ⟨hub, hrun, hsent⟩ := hrun
  refine ⟨lateHandover, hub, by decide +kernel, hrun, ?_⟩
  rw [TextsInOrder, hsent]
  decide

end MessageHub

end CloudMeeting.Client
