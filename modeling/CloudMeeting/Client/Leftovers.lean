/-
What is still in the mail when a session ends.

Messages come to the window as errors do: the IO thread posts them to the hub, the hub posts
them again for the window, and both times they wait in the queue of the user interface behind
everything else.  Meanwhile a slot of the window may end the session, all at once.  An `Inbox` is
the threads together with the messages on their way, each with the number of the connection it
came over.

From the end of a session until a later connection is answered there is nobody to be seen in
the window, unless a message of the ended connection puts someone there.  The handlers of
network errors look at `_sessionEnding` first; the handlers of these messages do not.
-/
import CloudMeeting.Client.Threads

namespace CloudMeeting.Client

open MeetingWidget

variable {Image : Type}

/-- A message on its way to the window. -/
structure Mail (Image : Type) where
  /-- The connection it came over. -/
  connection : Nat
  message : Message Image
  /-- The hub has passed it on. -/
  emitted : Bool := false

structure Inbox (Image : Type) where
  threads : Threads := {}
  /-- The connection of the newest socket. -/
  socket : Nat := 0
  /-- The queue of the user interface; `none` is the next delivery of the threads. -/
  ui : List (Option (Mail Image)) := []
  /-- The last connection of the session that ended, until a later one is answered. -/
  ended : Option Nat := none

inductive InboxEvent (Image : Type) where
  | threads (e : Threads.Event)
  /-- The socket reads a message. -/
  | arrive (message : Message Image)
  /-- The user interface takes the next delivery, a message; the connection has the ip it says. -/
  | mail (localIp : UInt32)

/-- What `emit_incoming` passes on to the window; errors are deliveries of the threads. -/
def MessageKind.forWindow : MessageKind → Bool
  | .createMeetingResponse => true
  | .joinMeetingResponse => true
  | .partnerJoin => true
  | .partnerExit => true
  | .partnerJoin2 => true
  | .closeCameraNotify => true
  | .recvText => true
  | .recvImage => true
  | _ => false

/-- The message lets someone into an empty window, or says that the user is in a meeting. -/
def Message.admits : Message Image → Bool
  | .createMeetingResponse roomNo => int32OfUInt32 roomNo ≠ 0
  | .joinMeetingResponse c => joinBranch c = some .joined
  | .recvImage _ _ => true
  | .partnerJoin _ => true
  | .partnerJoin2 partnerIps => partnerIps ≠ []
  | _ => false

/-- How many deliveries an event takes off the queue of the user interface. -/
def Threads.Event.deliveries : Threads.Event → Nat
  | .ui => 1
  | _ => 0

/-- The event has the window run `end_meeting_session`. -/
def Threads.endsSession (t : Threads) : Threads.Event → Bool
  | .close => !t.widget.sessionEnding
  | .ui =>
      match t.ui with
      | .requestMessage _ :: _ => !t.widget.sessionEnding
      | _ => false
  | _ => false

namespace Inbox

/-- The connection of the newest socket after an event. -/
def nextSocket (inbox : Inbox Image) : Threads.Event → Nat
  | .io true _ =>
      match inbox.threads.io, inbox.threads.dialing with
      | .connectOnIoThread :: _, some dial => dial.serial
      | _, _ => inbox.socket
  | _ => inbox.socket

/-- The threads go on; what they deliver joins the queue of the user interface. -/
def advance (inbox : Inbox Image) (e : Threads.Event) : Option (Inbox Image) :=
  (inbox.threads.step e).map fun t =>
    { threads := t
      socket := inbox.nextSocket e
      ui := inbox.ui.drop e.deliveries
        ++ List.replicate (t.ui.length + e.deliveries - inbox.threads.ui.length) none
      ended := if inbox.threads.endsSession e then some inbox.threads.serial else inbox.ended }

/-- The mail came over the ended connection, or over one before it. -/
def Leftover (inbox : Inbox Image) (mail : Mail Image) : Prop :=
  match inbox.ended with
  | some n => mail.connection ≤ n
  | none => False

instance (inbox : Inbox Image) (mail : Mail Image) : Decidable (inbox.Leftover mail) :=
  match h : inbox.ended with
  | some n => decidable_of_iff (mail.connection ≤ n) (by simp [Leftover, h])
  | none => isFalse (by simp [Leftover, h])

/-- The window gets a message.  The server answers a request before it sends anything else, so
the first message of a later connection that lets someone in is the answer. -/
def deliver (inbox : Inbox Image) (mail : Mail Image) (localIp : UInt32) : Inbox Image :=
  { inbox with
    threads := inbox.threads.slot (onMessage localIp mail.message)
    ended := if mail.message.admits ∧ ¬ inbox.Leftover mail then none else inbox.ended }

def step (inbox : Inbox Image) : InboxEvent Image → Option (Inbox Image)
  | .threads e =>
      match e, inbox.ui with
      | .ui, some _ :: _ => none
      | _, _ => inbox.advance e
  | .arrive message =>
      if inbox.threads.connected = false then none
      else if message.kind.forWindow then
        some { inbox with ui := inbox.ui ++ [some ⟨inbox.socket, message, false⟩] }
      else some inbox
  | .mail localIp =>
      match inbox.ui with
      | some mail :: rest =>
          if mail.emitted then some (deliver { inbox with ui := rest } mail localIp)
          else some { inbox with ui := rest ++ [some { mail with emitted := true }] }
      | _ => none

end Inbox

/-! ### Who is in the window -/

namespace MeetingWidget

variable {w : MeetingWidget}

/-- Nobody is to be seen, and the user is in no meeting. -/
structure Clean (w : MeetingWidget) : Prop where
  partner : w.partner = ∅
  iplist : w.iplist = []
  createmeet : w.createmeet = false
  joinmeet : w.joinmeet = false

theorem clean_endMeetingSession (w : MeetingWidget) : (endMeetingSession w).1.Clean := by
  unfold endMeetingSession
  dsimp only
  split <;> exact ⟨rfl, rfl, rfl, rfl⟩

theorem clean_closeEvent (h : w.sessionEnding = false) : (closeEvent w).1.Clean := by
  unfold closeEvent
  dsimp only
  rw [if_neg (by simp [h])]
  exact clean_endMeetingSession _

theorem clean_netError (error : NetError) (h : w.sessionEnding = false) :
    (error.slot w).1.Clean := by
  cases error <;>
    simpa [NetError.slot, handleRemoteHostClosedError, handleOtherNetError, handleNetError, h]
      using clean_endMeetingSession w

/-! Connecting and disconnecting let nobody in. -/

theorem Clean.closeEvent (h : w.Clean) : (closeEvent w).1.Clean := by
  unfold MeetingWidget.closeEvent
  dsimp only
  split
  · exact ⟨h.partner, h.iplist, h.createmeet, h.joinmeet⟩
  · exact clean_endMeetingSession _

theorem Clean.netError (h : w.Clean) (error : NetError) : (error.slot w).1.Clean := by
  cases hending : w.sessionEnding with
  | false => exact clean_netError error hending
  | true =>
      cases error <;>
        simpa [NetError.slot, handleRemoteHostClosedError, handleOtherNetError, handleNetError,
          hending] using h

theorem Clean.onDisconnectServer (h : w.Clean) : (onDisconnectServer w).1.Clean := by
  unfold MeetingWidget.onDisconnectServer
  split
  · exact ⟨h.partner, h.iplist, h.createmeet, h.joinmeet⟩
  · exact h

theorem Clean.connectServerFinished (h : w.Clean) (ok : Bool) (request : ConnectRequest) :
    (connectServerFinished ok request w).1.Clean := by
  show (onConnectServerFinished ok request w).1.Clean
  unfold onConnectServerFinished
  split
  · exact h.onDisconnectServer
  · split <;> exact h

theorem Clean.requestConnectToServer (h : w.Clean) (request : ConnectRequest) :
    (requestConnectToServer request w).1.Clean := by
  unfold MeetingWidget.requestConnectToServer
  split
  · exact h.connectServerFinished false request
  · split <;> exact ⟨h.partner, h.iplist, h.createmeet, h.joinmeet⟩

theorem Clean.flushPendingConnect (h : w.Clean) : (flushPendingConnect w).1.Clean := by
  unfold MeetingWidget.flushPendingConnect
  split
  · exact h
  · have hcleared : ({ w with pendingConnect := none } : MeetingWidget).Clean :=
      ⟨h.partner, h.iplist, h.createmeet, h.joinmeet⟩
    exact hcleared.requestConnectToServer _

theorem Clean.onNetworkDisconnected (h : w.Clean) : (onNetworkDisconnected w).1.Clean := by
  have hreset : ({ w with sessionActive := false, sessionEnding := false, connecting := false } :
      MeetingWidget).Clean := ⟨h.partner, h.iplist, h.createmeet, h.joinmeet⟩
  exact hreset.flushPendingConnect

theorem Clean.timeout (h : w.Clean) : (timeout w).1.Clean := by
  unfold MeetingWidget.timeout
  split
  · exact h
  · have hreset : ({ w with sessionEnding := false, sessionActive := false, connecting := false } :
        MeetingWidget).Clean := ⟨h.partner, h.iplist, h.createmeet, h.joinmeet⟩
    exact hreset.flushPendingConnect

theorem Clean.onConnectFinished (h : w.Clean) (ok : Bool) (request : ConnectRequest) :
    (onConnectFinished ok request w).1.Clean := by
  unfold MeetingWidget.onConnectFinished
  dsimp only
  split
  · refine Clean.connectServerFinished ?_ false request
    split <;> exact ⟨h.partner, h.iplist, h.createmeet, h.joinmeet⟩
  · refine Clean.connectServerFinished ?_ ok request
    split
    · split <;> exact ⟨h.partner, h.iplist, h.createmeet, h.joinmeet⟩
    · split <;> exact ⟨h.partner, h.iplist, h.createmeet, h.joinmeet⟩

theorem Clean.buttonClicked (h : w.Clean) (request : ConnectRequest) :
    (buttonClicked request w).1.Clean := by
  unfold MeetingWidget.buttonClicked
  split
  · exact h
  · split
    · exact h.requestConnectToServer request
    · have hshown : ({ w with visible := true } : MeetingWidget).Clean :=
        ⟨h.partner, h.iplist, h.createmeet, h.joinmeet⟩
      exact hshown.requestConnectToServer request

/-! Messages: exactly those that admit someone leave a mark on a clean window. -/

theorem not_clean_of_mem (ip : UInt32) (h : ip ∈ w.partner) : ¬ w.Clean := by
  intro hclean
  rw [hclean.partner] at h
  exact absurd h (Finset.notMem_empty ip)

variable (localIp : UInt32)

theorem Clean.createMeetingResponse_iff (h : w.Clean) (roomNo : UInt32) :
    (handleCreateMeetingResponse localIp roomNo w).1.Clean ↔ int32OfUInt32 roomNo = 0 := by
  unfold handleCreateMeetingResponse
  dsimp only
  split
  · rename_i hroom
    refine iff_of_false (fun hclean => ?_) hroom
    have hcreatemeet := hclean.createmeet
    unfold addPartner at hcreatemeet
    split at hcreatemeet <;> simp at hcreatemeet
  · rename_i hroom
    exact iff_of_true ⟨h.partner, h.iplist, rfl, h.joinmeet⟩ (not_not.mp hroom)

theorem Clean.joinMeetingResponse_iff (h : w.Clean) (c : Int) :
    (handleJoinMeetingResponse localIp c w).1.Clean ↔ joinBranch c ≠ some .joined := by
  unfold handleJoinMeetingResponse
  split
  · rename_i hbranch
    exact iff_of_true ⟨h.partner, h.iplist, h.createmeet, rfl⟩ (by simp [hbranch])
  · rename_i hbranch
    exact iff_of_true h (by simp [hbranch])
  · rename_i hbranch
    refine iff_of_false (fun hclean => ?_) (by simp [hbranch])
    simpa using hclean.joinmeet
  · rename_i hbranch
    exact iff_of_true h (by simp [hbranch])

theorem Clean.partnerExit (h : w.Clean) (ip : UInt32) : (handlePartnerExit ip w).1.Clean where
  partner := by simp [handlePartnerExit, removePartner, h.partner]
  iplist := by simp [handlePartnerExit, removePartner, h.iplist]
  createmeet := h.createmeet
  joinmeet := h.joinmeet

theorem Clean.onMessage_iff (h : w.Clean) (message : Message Image) :
    (onMessage localIp message w).1.Clean ↔ message.admits = false := by
  cases message with
  | createMeetingResponse roomNo =>
      simpa [onMessage, Message.admits] using h.createMeetingResponse_iff localIp roomNo
  | joinMeetingResponse c =>
      simpa [onMessage, Message.admits] using h.joinMeetingResponse_iff localIp c
  | recvImage ip image =>
      refine iff_of_false (not_clean_of_mem ip ?_) (by simp [Message.admits])
      rw [onMessage, handleImgRecv, partner_addPartner]
      exact Finset.mem_insert_self ip _
  | partnerJoin ip =>
      refine iff_of_false (not_clean_of_mem ip ?_) (by simp [Message.admits])
      rw [onMessage, partner_handlePartnerJoin]
      exact Finset.mem_insert_self ip _
  | partnerExit ip => exact iff_of_true (h.partnerExit ip) rfl
  | partnerJoin2 partnerIps =>
      cases partnerIps with
      | nil => exact iff_of_true h rfl
      | cons ip partnerIps =>
          refine iff_of_false (not_clean_of_mem ip ?_) (by simp [Message.admits])
          rw [onMessage, partner_handlePartnerJoin2]
          exact Finset.mem_union_right _ (by simp)
  | remoteHostClosedError => exact iff_of_true (h.netError .remoteHostClosed) rfl
  | otherNetError => exact iff_of_true (h.netError .other) rfl
  | _ => exact iff_of_true h rfl

end MeetingWidget

/-! ### Runs -/

namespace Threads

variable {t t' : Threads}

theorem Taken.clean {e : Event} {f : Slot} (h : Taken t e t' f) (hclean : t.widget.Clean) :
    (t'.slot f).widget.Clean := by
  rw [widget_slot]
  cases h with
  | click request => exact hclean.buttonClicked request
  | close => exact hclean.closeEvent
  | connectFinished serial ok request rest hui => exact hclean.onConnectFinished ok request
  | networkDisconnected serial rest hui => exact hclean.onNetworkDisconnected
  | requestMessage error rest hui => exact hclean.netError error
  | timer serial hmem => exact hclean.timeout

/-- Where a step ends the session, the window is clean afterwards whatever was in it. -/
theorem Taken.clean_of_endsSession {e : Event} {f : Slot} (h : Taken t e t' f)
    (hends : t.endsSession e = true) : (t'.slot f).widget.Clean := by
  rw [widget_slot]
  cases h with
  | close => exact clean_closeEvent (by simpa [endsSession] using hends)
  | requestMessage error rest hui =>
      exact clean_netError error (by simpa [endsSession, hui] using hends)
  | connectFinished serial ok request rest hui => simp [endsSession, hui] at hends
  | networkDisconnected serial rest hui => simp [endsSession, hui] at hends
  | click request => simp [endsSession] at hends
  | timer serial hmem => simp [endsSession] at hends

/-- After a step that ends the session the window is clean, and a clean window stays clean. -/
theorem clean_step {e : Event} (hclean : t.endsSession e = true ∨ t.widget.Clean)
    (h : t.step e = some t') : t'.widget.Clean := by
  rw [step] at h
  split at h
  · rename_i hintake
    obtain rfl := Option.some.inj h
    have htaken := taken hintake
    rcases hclean with hends | hclean
    · exact htaken.clean_of_endsSession hends
    · exact htaken.clean hclean
  · rename_i hintake
    rw [(relayed h).spec.1]
    apply hclean.resolve_left
    intro hends
    -- Whatever ends a session runs a slot.
    cases e with
    | close => simp [intake] at hintake
    | ui =>
        simp only [endsSession] at hends
        split at hends
        · rename_i hui
          simp [intake, hui] at hintake
        · simp at hends
    | _ => simp [endsSession] at hends

end Threads

namespace Inbox

variable {inbox inbox' : Inbox Image}

/-- Until a later connection is answered, the session that ended has left nobody behind. -/
def Sealed (inbox : Inbox Image) : Prop := inbox.ended ≠ none → inbox.threads.widget.Clean

/-- A message of the ended connection that reaches the window lets nobody in. -/
def Harmless (inbox : Inbox Image) : InboxEvent Image → Prop
  | .mail _ =>
      match inbox.ui with
      | some mail :: _ => mail.emitted = true → inbox.Leftover mail → mail.message.admits = false
      | _ => True
  | _ => True

theorem sealed_advance (h : inbox.Sealed) {e : Threads.Event}
    (hstep : inbox.advance e = some inbox') : inbox'.Sealed := by
  obtain ⟨t, ht, rfl⟩ := Option.map_eq_some_iff.mp hstep
  intro hended
  cases hends : inbox.threads.endsSession e with
  | true => exact Threads.clean_step (.inl hends) ht
  | false => exact Threads.clean_step (.inr (h (by simpa [hends] using hended))) ht

/-- What a message does to the seal. -/
theorem sealed_deliver_iff (h : inbox.Sealed) (mail : Mail Image) (localIp : UInt32) :
    (inbox.deliver mail localIp).Sealed ↔ (inbox.Leftover mail → mail.message.admits = false) := by
  have hwidget : (inbox.deliver mail localIp).threads.widget
      = (onMessage localIp mail.message inbox.threads.widget).1 := Threads.widget_slot _ _
  by_cases hended : inbox.ended = none
  · refine iff_of_true (fun hnot => absurd ?_ hnot) (fun hleft => ?_)
    · simp [deliver, hended]
    · simp [Leftover, hended] at hleft
  have hclean := (h hended).onMessage_iff localIp mail.message
  by_cases hleft : inbox.Leftover mail
  · have hafter : (inbox.deliver mail localIp).ended = inbox.ended := by simp [deliver, hleft]
    rw [Sealed, hafter, hwidget, hclean]
    exact ⟨fun hall _ => hall hended, fun hall _ => hall hleft⟩
  · refine iff_of_true (fun hnot => ?_) (fun hleft' => absurd hleft' hleft)
    rw [hwidget, hclean]
    cases hadmits : mail.message.admits with
    | false => rfl
    | true => exact absurd (by simp [deliver, hadmits, hleft]) hnot

theorem sealed_step_iff (h : inbox.Sealed) {e : InboxEvent Image}
    (hstep : inbox.step e = some inbox') : inbox'.Sealed ↔ inbox.Harmless e := by
  cases e with
  | threads e =>
      refine iff_of_true ?_ trivial
      simp only [step] at hstep
      split at hstep
      · simp at hstep
      · exact sealed_advance h hstep
  | arrive message =>
      refine iff_of_true ?_ trivial
      simp only [step] at hstep
      split at hstep
      · simp at hstep
      · split at hstep <;> exact Option.some.inj hstep ▸ h
  | mail localIp =>
      simp only [step] at hstep
      split at hstep
      · rename_i mail rest hui
        split at hstep
        · rename_i hemitted
          obtain rfl := Option.some.inj hstep
          have htaken : Sealed { inbox with ui := rest } := h
          rw [sealed_deliver_iff htaken mail localIp]
          simp [Harmless, hui, hemitted, Leftover]
        · rename_i hemitted
          obtain rfl := Option.some.inj hstep
          exact iff_of_true h (by simp [Harmless, hui, hemitted])
      · simp at hstep

/-- **An ended session leaves nobody behind exactly if** none of its messages that still reach
the window is a picture, a join, a list of members or an answer that lets the client in. -/
theorem noLeak_iff (es : List (InboxEvent Image)) :
    Run.Throughout step Sealed {} es ↔ Run.Steps step Harmless {} es := by
  constructor
  · apply Run.steps_of_throughout
    intro inbox e hsealed hharm
    have hpossible : ∃ inbox', inbox.step e = some inbox' := by
      cases e with
      | mail localIp =>
          simp only [Harmless] at hharm
          split at hharm
          · rename_i mail rest hui
            simp only [step, hui]
            split <;> exact ⟨_, rfl⟩
          · exact absurd trivial hharm
      | _ => exact absurd trivial hharm
    obtain ⟨inbox', hstep⟩ := hpossible
    exact ⟨inbox', hstep, mt (sealed_step_iff hsealed hstep).mp hharm⟩
  · refine Run.throughout_of_step (fun inbox e inbox' hsealed hharmless hstep => ?_) ?_
    · exact (sealed_step_iff hsealed hstep).mpr hharmless
    · exact fun hended => absurd rfl hended

/-- A meeting is created, another user joins it, and the window is closed while the news of this
is on its way. -/
def lateJoin : List (InboxEvent Unit) :=
  [.threads (.click Session.sampleRequest), .threads .controller, .threads (.io true none),
    .threads .controller, .threads .ui, .arrive (.createMeetingResponse 1), .mail 5, .mail 5,
    .arrive (.partnerJoin 7), .threads .close, .mail 5, .mail 5]

/-- The user who joined stays in the window behind the ended session. -/
theorem leftBehind : ∃ inbox : Inbox Unit, Run.run step {} lateJoin = some inbox ∧
    inbox.ended = some 1 ∧ inbox.threads.widget.iplist = [7] ∧
    ¬ Run.Throughout step Sealed {} lateJoin := by
  have hrun : (Run.run step {} lateJoin).map (fun inbox : Inbox Unit =>
      (inbox.ended, inbox.threads.widget.iplist)) = some (some 1, [7]) := by decide
  obtain ⟨inbox, hinbox, hafter⟩ := Option.map_eq_some_iff.mp hrun
  simp only [Prod.mk.injEq] at hafter
  obtain ⟨hended, hiplist⟩ := hafter
  refine ⟨inbox, hinbox, hended, hiplist, fun hsealed => ?_⟩
  have hclean := hsealed.last hinbox (by simp [hended])
  exact absurd (hclean.iplist.symm.trans hiplist) (by decide)

end Inbox

end CloudMeeting.Client
