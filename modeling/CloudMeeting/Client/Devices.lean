/-
The microphone and the loudspeaker in a meeting.

The window starts and stops both.  The microphone lives in a thread of its own, so that what
it is told waits there in a queue.  The loudspeaker is started at once, but stopped by an
event that the window posts to itself; members can come and go before it is carried out.

A microphone that is on, or about to be, always has a button that offers to close it, and
other members to be heard by.  The loudspeaker is not as well off: a stop that was posted
when the last other member left also silences those who came since (`devices`).  It may also
fail to start, fail later, or refuse a chunk, which ends the thread that plays; how it fares is
left to the events.
-/
import CloudMeeting.Client.Session
import Mathlib.Data.Finset.Card

namespace CloudMeeting.Client

open Run

def openAudioText : String := "打开音频"

def closeAudioText : String := "关闭音频"

inductive SinkState where
  | stopped
  | idle
  | active
deriving DecidableEq, Repr

/-- `AudioOutput` with its sink. -/
structure Loudspeaker where
  sink : SinkState := .stopped
  /-- `outputdevice` is not null. -/
  outputdevice : Bool := false
  /-- The next start of the sink gets a device. -/
  opens : Bool := true
  /-- The thread that plays has returned. -/
  returned : Bool := false
deriving DecidableEq, Repr

namespace Loudspeaker

def startPlay (o : Loudspeaker) : Loudspeaker :=
  if o.sink = .active then o
  else { o with outputdevice := o.opens, sink := if o.opens then .idle else .stopped }

def stopPlay (o : Loudspeaker) : Loudspeaker := { o with sink := .stopped, outputdevice := false }

/-- `handleStateChanged`: the sink has stopped with an error; the pointer stays. -/
def sinkError (o : Loudspeaker) : Loudspeaker := { o with sink := .stopped }

/-- A chunk is refused, and `run` returns. -/
def refuse (o : Loudspeaker) : Loudspeaker := { o with returned := true }

/-- What comes is played. -/
def Heard (o : Loudspeaker) : Prop :=
  o.returned = false ∧ o.outputdevice = true ∧ o.sink ≠ .stopped

/-- A start is as good as a device. -/
def Ready (o : Loudspeaker) : Prop := o.returned = false ∧ (o.sink = .active ∨ o.opens = true)

/-- A sink that has not stopped has a device. -/
def Sound (o : Loudspeaker) : Prop := o.sink ≠ .stopped → o.outputdevice = true

variable {o : Loudspeaker}

theorem Sound.startPlay (h : o.Sound) : o.startPlay.Sound := by
  unfold Loudspeaker.startPlay
  split
  · exact h
  · cases hopens : o.opens <;> simp [Sound]

/-- After a start there is sound just where it was ready for one. -/
theorem heard_startPlay (h : o.Sound) : o.startPlay.Heard ↔ o.Ready := by
  unfold Loudspeaker.startPlay Heard Ready
  by_cases hactive : o.sink = .active
  · have hdevice : o.outputdevice = true := h (by simp [hactive])
    simp [hactive, hdevice]
  · cases hopens : o.opens <;> simp [hactive]

theorem startPlay_startPlay (o : Loudspeaker) : o.startPlay.startPlay = o.startPlay := by
  unfold Loudspeaker.startPlay
  by_cases hactive : o.sink = .active
  · simp [hactive]
  · cases hopens : o.opens <;> simp [hactive]

end Loudspeaker

/-- The window, its three buttons, and what it has told the devices. -/
structure Devices where
  widget : MeetingWidget := {}
  /-- The text of the button `openAudio`. -/
  audioText : String := openAudioText
  openAudio : Bool := false
  openVedio : Bool := false
  sendmsg : Bool := false
  /-- The signals `start_audio_signal` (true) and `stop_audio_signal` that wait for `AudioInput`. -/
  signals : List Bool := []
  /-- `AudioInput` collects. -/
  collecting : Bool := false
  /-- The calls of `stopPlay` that have been posted. -/
  stops : Nat := 0
  speaker : Loudspeaker := {}

/-- The slots that concern neither members nor devices. -/
inductive QuietSlot where
  | buttonClicked (request : ConnectRequest)
  | requestConnect (request : ConnectRequest)
  | disconnectServer
  | networkDisconnected
  | timeout

def QuietSlot.slot : QuietSlot → Slot
  | .buttonClicked request => MeetingWidget.buttonClicked request
  | .requestConnect request => MeetingWidget.requestConnectToServer request
  | .disconnectServer => MeetingWidget.onDisconnectServer
  | .networkDisconnected => MeetingWidget.onNetworkDisconnected
  | .timeout => MeetingWidget.timeout

inductive DeviceEvent (Image : Type) where
  | message (m : Message Image)
  | quiet (slot : QuietSlot)
  | close
  | connectFinished (ok : Bool) (request : ConnectRequest)
  | openAudioClicked
  /-- `AudioInput` gets its next signal; a start that finds the source `active` leaves it alone,
  and another one may have got no device. -/
  | collect (active opened : Bool)
  /-- The microphone fails. -/
  | audioInputError
  /-- A call of `stopPlay` that was posted is made. -/
  | stopPlay
  /-- The sink has data to play, or has run out of it. -/
  | sinkTurns (active : Bool)
  | sinkError
  /-- The device refuses a chunk. -/
  | refuse
  /-- From now on a start of the sink gets a device, or none. -/
  | outputOpens (opens : Bool)

namespace Devices

def addPartner (ip : UInt32) (d : Devices) : Bool × Devices :=
  match MeetingWidget.addPartner ip d.widget with
  | (true, w) =>
      let d := { d with widget := w }
      (true, if 1 < w.partner.card then
        { d with openAudio := true, sendmsg := true, speaker := d.speaker.startPlay } else d)
  | (false, w) => (false, { d with widget := w })

def removePartner (ip : UInt32) (d : Devices) : Devices :=
  if ip ∈ d.widget.partner then
    let d := { d with widget := d.widget.removePartner ip }
    if d.widget.partner.card ≤ 1 then
      { d with
        signals := d.signals ++ [false]
        stops := d.stops + 1
        audioText := openAudioText
        openAudio := false }
    else d
  else d

def clearPartner (d : Devices) : Devices :=
  if d.widget.partner = ∅ then d
  else
    { d with
      widget := d.widget.clearPartner
      signals := d.signals ++ [false]
      stops := d.stops + 1
      audioText := closeAudioText
      openAudio := false
      openVedio := false }

def resetMeetingUi (d : Devices) : Devices :=
  { d with openAudio := false, openVedio := false, sendmsg := false }

def endMeetingSession (d : Devices) : Devices :=
  let d := { d with signals := d.signals ++ [false] }
  { d.clearPartner.resetMeetingUi with widget := (MeetingWidget.endMeetingSession d.widget).1 }

def closeEvent (d : Devices) : Devices :=
  if d.widget.sessionEnding then { d with widget := (MeetingWidget.closeEvent d.widget).1 }
  else { d.endMeetingSession with widget := (MeetingWidget.closeEvent d.widget).1 }

def onConnectFinished (ok : Bool) (request : ConnectRequest) (d : Devices) : Devices :=
  let w := (MeetingWidget.onConnectFinished ok request d.widget).1
  if ok ∧ ¬ (d.widget.sessionEnding ∨ ¬ d.widget.visible) then
    { d with widget := w, openAudio := false, openVedio := false, sendmsg := false }
  else { d with widget := w }

section Messages

variable (localIp : UInt32)

/-- The part of the handlers of the two responses that lets the user in. -/
def enter (d : Devices) : Devices :=
  let d := (d.addPartner localIp).2
  { d with widget := { d.widget with mainip := localIp } }

def handleCreateMeetingResponse (roomNo : UInt32) (d : Devices) : Devices :=
  let roomno := int32OfUInt32 roomNo
  if roomno ≠ 0 then
    enter localIp { d with
      widget := { d.widget with roomNo := roomno, createmeet := true }
      openVedio := true
      sendmsg := true }
  else { d with widget := { d.widget with createmeet := false } }

def handleJoinMeetingResponse (c : Int) (d : Devices) : Devices :=
  match MeetingWidget.joinBranch c with
  | some .notExist =>
      { d with
        widget := { d.widget with joinmeet := false, roomNo := 0 }
        openVedio := false
        sendmsg := false }
  | some .full => d
  | some .joined =>
      let d := enter localIp d
      { d with widget := { d.widget with joinmeet := true }, sendmsg := true }
  | none => d

def handlePartnerJoin (ip : UInt32) (d : Devices) : Devices :=
  match d.addPartner ip with
  | (true, d) => { d with widget := { d.widget with iplist := d.widget.iplist ++ [ip] } }
  | (false, d) => d

def handlePartnerExit (ip : UInt32) (d : Devices) : Devices :=
  let d := d.removePartner ip
  { d with widget := { d.widget with iplist := d.widget.iplist.erase ip } }

def handlePartnerJoin2 (partnerIps : List UInt32) (d : Devices) : Devices :=
  { partnerIps.foldl (fun d ip => d.handlePartnerJoin ip) d with openVedio := true }

def handleNetError (slot : Slot) (d : Devices) : Devices :=
  if d.widget.sessionEnding then { d with widget := (slot d.widget).1 }
  else { d.endMeetingSession with widget := (slot d.widget).1 }

variable {Image : Type}

def onMessage : Message Image → Devices → Devices
  | .createMeetingResponse roomNo => handleCreateMeetingResponse localIp roomNo
  | .joinMeetingResponse c => handleJoinMeetingResponse localIp c
  | .remoteHostClosedError => handleNetError MeetingWidget.handleRemoteHostClosedError
  | .otherNetError => handleNetError MeetingWidget.handleOtherNetError
  | .recvImage ip _ => fun d => (d.addPartner ip).2
  | .partnerJoin ip => handlePartnerJoin ip
  | .partnerExit ip => handlePartnerExit ip
  | .partnerJoin2 partnerIps => handlePartnerJoin2 partnerIps
  | _ => id

end Messages

def onOpenAudioClicked (d : Devices) : Devices :=
  if ¬ (d.widget.createmeet ∨ d.widget.joinmeet) then d
  else if d.audioText = openAudioText then
    { d with signals := d.signals ++ [true], audioText := closeAudioText }
  else if d.audioText = closeAudioText then
    { d with signals := d.signals ++ [false], audioText := openAudioText }
  else d

variable {Image : Type}

def step (localIp : UInt32) (d : Devices) : DeviceEvent Image → Option Devices
  | .message m => some (d.onMessage localIp m)
  | .quiet slot => some { d with widget := (slot.slot d.widget).1 }
  | .close => some d.closeEvent
  | .connectFinished ok request => some (d.onConnectFinished ok request)
  | .openAudioClicked => if d.openAudio then some d.onOpenAudioClicked else none
  | .collect active opened =>
      match d.signals with
      | [] => none
      | start :: signals =>
          some { d with
            signals := signals
            collecting := start && (active && d.collecting || opened) }
  | .audioInputError => some { d with collecting := false }
  | .stopPlay =>
      if 0 < d.stops then
        some { d with stops := d.stops - 1, speaker := d.speaker.stopPlay }
      else none
  | .sinkTurns active =>
      if d.speaker.sink = .stopped then none
      else some { d with speaker := { d.speaker with sink := if active then .active else .idle } }
  | .sinkError =>
      if d.speaker.sink = .stopped then none
      else some { d with speaker := d.speaker.sinkError }
  | .refuse =>
      if d.speaker.outputdevice ∧ ¬ d.speaker.returned then
        some { d with speaker := d.speaker.refuse }
      else none
  | .outputOpens opens => some { d with speaker := { d.speaker with opens := opens } }

/-- Whether the microphone is to be on once it has got all its signals. -/
def willCollect (d : Devices) : Bool := d.signals.getLast?.getD d.collecting

/-- Two members or more are in the meeting. -/
def Company (d : Devices) : Prop := 2 ≤ d.widget.partner.card

/-! ### What a slot does to the members and the devices -/

variable {d d' : Devices} {localIp : UInt32}

/-- Buttons and devices as far as sound is concerned: the button `openAudio` may be switched off,
and nothing else. -/
structure Same (d d' : Devices) : Prop where
  partner : d'.widget.partner = d.widget.partner
  openAudio : d'.openAudio = true → d.openAudio = true
  audioText : d'.audioText = d.audioText
  signals : d'.signals = d.signals
  collecting : d'.collecting = d.collecting
  stops : d'.stops = d.stops
  speaker : d'.speaker = d.speaker

theorem addPartner_known {ip : UInt32} (h : ip ∈ d.widget.partner) :
    d.addPartner ip = (false, d) := by
  rw [addPartner, MeetingWidget.addPartner, if_pos h]

theorem addPartner_new {ip : UInt32} (h : ip ∉ d.widget.partner) :
    (d.addPartner ip).1 = true ∧
      (d.addPartner ip).2.widget = { d.widget with partner := insert ip d.widget.partner } ∧
      (d.addPartner ip).2.audioText = d.audioText ∧ (d.addPartner ip).2.signals = d.signals ∧
      (d.addPartner ip).2.collecting = d.collecting ∧ (d.addPartner ip).2.stops = d.stops ∧
      (1 < (insert ip d.widget.partner).card ∧ (d.addPartner ip).2.openAudio = true ∧
          (d.addPartner ip).2.speaker = d.speaker.startPlay ∨
        ¬ 1 < (insert ip d.widget.partner).card ∧
          (d.addPartner ip).2.openAudio = d.openAudio ∧
          (d.addPartner ip).2.speaker = d.speaker) := by
  rw [addPartner, MeetingWidget.addPartner, if_neg h]
  by_cases hcompany : 1 < (insert ip d.widget.partner).card
  · simp [hcompany]
  · simp [hcompany]

section Partner

variable (w : MeetingWidget) (request : ConnectRequest)

theorem partner_onDisconnectServer :
    (MeetingWidget.onDisconnectServer w).1.partner = w.partner := by
  unfold MeetingWidget.onDisconnectServer
  split <;> rfl

theorem partner_onConnectServerFinished (ok : Bool) :
    (MeetingWidget.onConnectServerFinished ok request w).1.partner = w.partner := by
  have hdisconnect := partner_onDisconnectServer w
  unfold MeetingWidget.onConnectServerFinished
  split
  · cases hout : MeetingWidget.onDisconnectServer w with
    | mk w' effects =>
        rw [hout] at hdisconnect
        exact hdisconnect
  · split <;> rfl

theorem partner_connectServerFinished (ok : Bool) :
    (MeetingWidget.connectServerFinished ok request w).1.partner = w.partner := by
  have hdone := partner_onConnectServerFinished w request ok
  unfold MeetingWidget.connectServerFinished
  cases hout : MeetingWidget.onConnectServerFinished ok request w with
  | mk w' effects =>
      rw [hout] at hdone
      exact hdone

theorem partner_requestConnectToServer :
    (MeetingWidget.requestConnectToServer request w).1.partner = w.partner := by
  unfold MeetingWidget.requestConnectToServer
  split
  · exact partner_connectServerFinished w request false
  · split <;> rfl

theorem partner_flushPendingConnect :
    (MeetingWidget.flushPendingConnect w).1.partner = w.partner := by
  unfold MeetingWidget.flushPendingConnect
  split
  · rfl
  · exact partner_requestConnectToServer _ _

/-- Slots that concern neither members nor devices keep the members. -/
theorem partner_quiet (slot : QuietSlot) : (slot.slot w).1.partner = w.partner := by
  cases slot with
  | buttonClicked request =>
      show (MeetingWidget.buttonClicked request w).1.partner = _
      unfold MeetingWidget.buttonClicked
      split
      · rfl
      · split <;> exact partner_requestConnectToServer _ request
  | requestConnect request => exact partner_requestConnectToServer w request
  | disconnectServer => exact partner_onDisconnectServer w
  | networkDisconnected => exact partner_flushPendingConnect _
  | timeout =>
      show (MeetingWidget.timeout w).1.partner = _
      unfold MeetingWidget.timeout
      split
      · rfl
      · exact partner_flushPendingConnect _

theorem partner_onConnectFinished (ok : Bool) :
    (MeetingWidget.onConnectFinished ok request w).1.partner = w.partner := by
  unfold MeetingWidget.onConnectFinished
  simp only []
  split
  · split
    · exact partner_connectServerFinished _ request false
    · exact partner_connectServerFinished _ request false
  · split
    · rw [partner_connectServerFinished]
      cases request.action <;> rfl
    · rw [partner_connectServerFinished]
      simp only []
      split <;> rfl

theorem partner_endMeetingSession : (MeetingWidget.endMeetingSession w).1.partner = ∅ := by
  unfold MeetingWidget.endMeetingSession
  simp only []
  split <;> rfl

theorem partner_closeEvent (h : ¬ w.sessionEnding = true) :
    (MeetingWidget.closeEvent w).1.partner = ∅ := by
  unfold MeetingWidget.closeEvent
  simp only [if_neg h]
  exact partner_endMeetingSession _

end Partner

/-! ### What every step keeps -/

structure Tidy (d : Devices) : Prop where
  button : d.openAudio = true → d.Company
  microphone : d.willCollect = true → d.audioText = closeAudioText ∧ d.Company
  speaker : d.speaker.outputdevice = true → d.Company ∨ 0 < d.stops
  sound : d.speaker.Sound

/-- Whoever has company is heard. -/
def Audible (d : Devices) : Prop := d.Company → d.speaker.Heard

theorem Same.tidy (h : Same d d') (hd : d.Tidy) : d'.Tidy where
  button := by
    intro hbutton
    rw [Company, h.partner]
    exact hd.button (h.openAudio hbutton)
  microphone := by
    rw [willCollect, h.signals, h.collecting, h.audioText, Company, h.partner]
    exact hd.microphone
  speaker := by
    rw [h.speaker, h.stops, Company, h.partner]
    exact hd.speaker
  sound := by
    rw [h.speaker]
    exact hd.sound

theorem Company.mono (h : d.Company) (hle : d.widget.partner ⊆ d'.widget.partner) : d'.Company :=
  Nat.le_trans h (Finset.card_le_card hle)

/-- With a new member there is at least as much company. -/
theorem Tidy.addPartner (hd : d.Tidy) (ip : UInt32) : (d.addPartner ip).2.Tidy := by
  by_cases hknown : ip ∈ d.widget.partner
  · rw [addPartner_known hknown]
    exact hd
  obtain ⟨-, hwidget, htext, hsignals, hcollecting, hstops, hrest⟩ := addPartner_new hknown
  have hpartner : (d.addPartner ip).2.widget.partner = insert ip d.widget.partner := by
    rw [hwidget]
  have hmore : d.Company → (d.addPartner ip).2.Company := fun hcompany =>
    hcompany.mono (hpartner ▸ Finset.subset_insert ip d.widget.partner)
  have hcard : 1 < (insert ip d.widget.partner).card → (d.addPartner ip).2.Company := by
    intro hlarge
    rw [Company, hpartner]
    omega
  refine ⟨fun hbutton => ?_, fun hmicrophone => ?_, fun hspeaker => ?_, ?_⟩
  · rcases hrest with ⟨hlarge, -, -⟩ | ⟨-, hbefore, -⟩
    · exact hcard hlarge
    · exact hmore (hd.button (hbefore ▸ hbutton))
  · rw [willCollect, hsignals, hcollecting] at hmicrophone
    obtain ⟨hreads, hcompany⟩ := hd.microphone hmicrophone
    exact ⟨htext.trans hreads, hmore hcompany⟩
  · rw [hstops]
    rcases hrest with ⟨hlarge, -, -⟩ | ⟨-, -, hbefore⟩
    · exact Or.inl (hcard hlarge)
    · exact (hd.speaker (hbefore ▸ hspeaker)).imp_left hmore
  · rcases hrest with ⟨-, -, hstarted⟩ | ⟨-, -, hbefore⟩
    · exact hstarted ▸ hd.sound.startPlay
    · exact hbefore ▸ hd.sound

/-- A member who leaves takes the microphone along, and in time the loudspeaker, where nobody but
one is left. -/
theorem Tidy.removePartner (hd : d.Tidy) (ip : UInt32) : (d.removePartner ip).Tidy := by
  unfold Devices.removePartner
  split
  · simp only []
    by_cases hfew : (d.widget.removePartner ip).partner.card ≤ 1
    · rw [if_pos hfew]
      exact ⟨by simp, by simp [willCollect], fun _ => Or.inr (Nat.succ_pos _), hd.sound⟩
    · rw [if_neg hfew]
      have hcompany : 2 ≤ (d.widget.removePartner ip).partner.card := by omega
      exact ⟨fun _ => hcompany, fun hmicrophone => ⟨(hd.microphone hmicrophone).1, hcompany⟩,
        fun _ => Or.inl hcompany, hd.sound⟩
  · exact hd

/-- A session that has ended leaves nobody, and the microphone off. -/
theorem Tidy.endMeetingSession (hd : d.Tidy) (w : MeetingWidget) :
    { d.endMeetingSession with widget := w }.Tidy := by
  unfold Devices.endMeetingSession clearPartner
  simp only []
  split
  · rename_i hnone
    have halone : ¬ d.Company := by simp [Company, hnone]
    refine ⟨by simp [resetMeetingUi], by simp [willCollect, resetMeetingUi], fun hspeaker => ?_,
      hd.sound⟩
    exact Or.inr ((hd.speaker hspeaker).resolve_left halone)
  · exact ⟨by simp [resetMeetingUi], by simp [willCollect, resetMeetingUi],
      fun _ => Or.inr (Nat.succ_pos _), hd.sound⟩

/-! ### Who is heard -/

/-- Somebody comes, and there is company. -/
def Joined (d d' : Devices) : Prop := d'.Company ∧ ¬ d'.widget.partner ⊆ d.widget.partner

/-- The loudspeaker is started just where somebody comes and there is company. -/
def Starts (d d' : Devices) : Prop :=
  ¬ Joined d d' ∧ d'.speaker = d.speaker ∨ Joined d d' ∧ d'.speaker = d.speaker.startPlay

/-- Nobody comes. -/
theorem Starts.still (hpartner : d'.widget.partner ⊆ d.widget.partner)
    (hspeaker : d'.speaker = d.speaker) : Starts d d' :=
  Or.inl ⟨fun hjoined => hjoined.2 hpartner, hspeaker⟩

/-- One member more after another. -/
theorem Starts.trans {d'' : Devices} (h : Starts d d') (h' : Starts d' d'')
    (hgrows : d.widget.partner ⊆ d'.widget.partner)
    (hgrows' : d'.widget.partner ⊆ d''.widget.partner) : Starts d d'' := by
  rcases h with ⟨hnot, hsame⟩ | ⟨⟨hcompany, hnew⟩, hstarted⟩
  · rcases h' with ⟨hnot', hsame'⟩ | ⟨⟨hcompany', hnew'⟩, hstarted'⟩
    · refine Or.inl ⟨?_, hsame'.trans hsame⟩
      rintro ⟨hcompany, hnew⟩
      by_cases hback : d''.widget.partner ⊆ d'.widget.partner
      · exact hnot ⟨hcompany.mono hback, fun hle => hnew (hback.trans hle)⟩
      · exact hnot' ⟨hcompany, hback⟩
    · exact Or.inr ⟨⟨hcompany', fun hle => hnew' (hle.trans hgrows)⟩, by rw [hstarted', hsame]⟩
  · refine Or.inr ⟨⟨hcompany.mono hgrows', fun hle => hnew (hgrows'.trans hle)⟩, ?_⟩
    rcases h' with ⟨-, hsame'⟩ | ⟨-, hstarted'⟩
    · rw [hsame', hstarted]
    · rw [hstarted', hstarted, Loudspeaker.startPlay_startPlay]

theorem audible_of_empty (h : d.widget.partner = ∅) : d.Audible := by
  intro hcompany
  simp [Company, h] at hcompany

/-- Who comes must find the loudspeaker ready. -/
theorem Starts.audible (h : Starts d d') (hd : d.Audible) (hsound : d.speaker.Sound)
    (hready : Joined d d' → d.speaker.Ready) : d'.Audible := by
  intro hcompany
  rcases h with ⟨hnot, hsame⟩ | ⟨hjoined, hstarted⟩
  · rw [hsame]
    apply hd
    by_contra halone
    exact hnot ⟨hcompany, fun hle => halone (hcompany.mono hle)⟩
  · rw [hstarted]
    exact (Loudspeaker.heard_startPlay hsound).mpr (hready hjoined)

/-- Otherwise there is no sound. -/
theorem Starts.silent (h : Starts d d') (hsound : d.speaker.Sound) (hjoined : Joined d d')
    (hready : ¬ d.speaker.Ready) : ¬ d'.Audible := by
  rcases h with ⟨hnot, -⟩ | ⟨-, hstarted⟩
  · exact absurd hjoined hnot
  · intro hd
    have hheard := hd hjoined.1
    rw [hstarted] at hheard
    exact hready ((Loudspeaker.heard_startPlay hsound).mp hheard)

/-- What holds of a slot, whatever the message. -/
structure Keeps (d d' : Devices) : Prop where
  tidy : d.Tidy → d'.Tidy
  starts : Starts d d'

theorem Keeps.refl (d : Devices) : Keeps d d := ⟨id, .still (Finset.Subset.refl _) rfl⟩

theorem Keeps.trans {d'' : Devices} (h : Keeps d d') (h' : Keeps d' d'')
    (hgrows : d.widget.partner ⊆ d'.widget.partner)
    (hgrows' : d'.widget.partner ⊆ d''.widget.partner) : Keeps d d'' :=
  ⟨h'.tidy ∘ h.tidy, h.starts.trans h'.starts hgrows hgrows'⟩

theorem Same.keeps (h : Same d d') : Keeps d d' :=
  ⟨h.tidy, .still (Finset.subset_of_eq h.partner) h.speaker⟩

/-- Only the members of the window matter. -/
theorem keeps_widget {w : MeetingWidget} (h : w.partner = d.widget.partner) :
    Keeps d { d with widget := w } :=
  Same.keeps ⟨h, id, rfl, rfl, rfl, rfl, rfl⟩

theorem keeps_addPartner (ip : UInt32) (d : Devices) : Keeps d (d.addPartner ip).2 := by
  refine ⟨fun hd => hd.addPartner ip, ?_⟩
  by_cases hknown : ip ∈ d.widget.partner
  · rw [addPartner_known hknown]
    exact .still (Finset.Subset.refl _) rfl
  obtain ⟨-, hwidget, -, -, -, -, hrest⟩ := addPartner_new hknown
  have hpartner : (d.addPartner ip).2.widget.partner = insert ip d.widget.partner := by
    rw [hwidget]
  have hnew : ¬ (d.addPartner ip).2.widget.partner ⊆ d.widget.partner := by
    rw [hpartner]
    exact fun hle => hknown (hle (Finset.mem_insert_self _ _))
  rcases hrest with ⟨hlarge, -, hstarted⟩ | ⟨hsmall, -, hbefore⟩
  · exact Or.inr ⟨⟨by rw [Company, hpartner]; omega, hnew⟩, hstarted⟩
  · refine Or.inl ⟨fun hjoined => hsmall ?_, hbefore⟩
    have hcompany := hjoined.1
    rw [Company, hpartner] at hcompany
    omega

theorem keeps_removePartner (ip : UInt32) (d : Devices) : Keeps d (d.removePartner ip) := by
  refine ⟨fun hd => hd.removePartner ip, ?_⟩
  unfold removePartner
  split
  · simp only []
    split
    · exact .still (Finset.erase_subset ip d.widget.partner) rfl
    · exact .still (Finset.erase_subset ip d.widget.partner) rfl
  · exact .still (Finset.Subset.refl _) rfl

theorem keeps_endMeetingSession {w : MeetingWidget} (h : w.partner = ∅) :
    Keeps d { d.endMeetingSession with widget := w } := by
  refine ⟨fun hd => hd.endMeetingSession w, .still ?_ ?_⟩
  · show w.partner ⊆ d.widget.partner
    rw [h]
    exact Finset.empty_subset _
  · unfold endMeetingSession clearPartner
    simp only []
    split <;> rfl

section Messages

variable {Image : Type}

theorem partner_addPartner (ip : UInt32) (d : Devices) :
    (d.addPartner ip).2.widget.partner = insert ip d.widget.partner := by
  by_cases hknown : ip ∈ d.widget.partner
  · rw [addPartner_known hknown]
    exact (Finset.insert_eq_of_mem hknown).symm
  · rw [(addPartner_new hknown).2.1]

theorem partner_handlePartnerJoin (ip : UInt32) (d : Devices) :
    (d.handlePartnerJoin ip).widget.partner = insert ip d.widget.partner := by
  rw [← partner_addPartner]
  unfold handlePartnerJoin
  cases d.addPartner ip with
  | mk new d' =>
      cases new with
      | true => rfl
      | false => rfl

theorem keeps_handlePartnerJoin (ip : UInt32) (d : Devices) : Keeps d (d.handlePartnerJoin ip) := by
  have hadded := keeps_addPartner ip d
  have hpartner := partner_addPartner ip d
  unfold handlePartnerJoin
  cases hout : d.addPartner ip with
  | mk new d' =>
      rw [hout] at hadded hpartner
      have hpartner : d'.widget.partner = insert ip d.widget.partner := hpartner
      cases new with
      | true =>
          refine hadded.trans (keeps_widget rfl) ?_ (Finset.Subset.refl _)
          show d.widget.partner ⊆ d'.widget.partner
          exact hpartner ▸ Finset.subset_insert ip d.widget.partner
      | false => exact hadded

theorem keeps_handlePartnerJoin2 (ips : List UInt32) (d : Devices) :
    Keeps d (d.handlePartnerJoin2 ips) := by
  have hfold : Keeps d (ips.foldl (fun d ip => d.handlePartnerJoin ip) d) ∧
      d.widget.partner ⊆ (ips.foldl (fun d ip => d.handlePartnerJoin ip) d).widget.partner := by
    induction ips generalizing d with
    | nil => exact ⟨Keeps.refl d, Finset.Subset.refl _⟩
    | cons ip ips ih =>
        have hgrows : d.widget.partner ⊆ (d.handlePartnerJoin ip).widget.partner :=
          partner_handlePartnerJoin ip d ▸ Finset.subset_insert ip d.widget.partner
        obtain ⟨hkeeps, hgrows'⟩ := ih (d.handlePartnerJoin ip)
        exact ⟨(keeps_handlePartnerJoin ip d).trans hkeeps hgrows hgrows', hgrows.trans hgrows'⟩
  exact hfold.1.trans (Same.keeps ⟨rfl, id, rfl, rfl, rfl, rfl, rfl⟩) hfold.2
    (Finset.Subset.refl _)

theorem keeps_enter (localIp : UInt32) (d : Devices) : Keeps d (d.enter localIp) :=
  (keeps_addPartner localIp d).trans (keeps_widget rfl)
    (partner_addPartner localIp d ▸ Finset.subset_insert localIp d.widget.partner)
    (Finset.Subset.refl _)

theorem partner_enter (localIp : UInt32) (d : Devices) :
    (d.enter localIp).widget.partner = insert localIp d.widget.partner :=
  partner_addPartner localIp d

theorem keeps_handleNetError {slot : Slot} (d : Devices)
    (hending : d.widget.sessionEnding = true → (slot d.widget).1 = d.widget)
    (hends : ¬ d.widget.sessionEnding = true → (slot d.widget).1.partner = ∅) :
    Keeps d (d.handleNetError slot) := by
  unfold handleNetError
  by_cases h : d.widget.sessionEnding = true
  · rw [if_pos h]
    exact keeps_widget (by rw [hending h])
  · rw [if_neg h]
    exact keeps_endMeetingSession (hends h)

theorem handleNetError_ending (title text : String) {w : MeetingWidget}
    (h : w.sessionEnding = true) : (MeetingWidget.handleNetError title text w).1 = w := by
  rw [MeetingWidget.handleNetError, if_pos h]

theorem partner_handleNetError (title text : String) {w : MeetingWidget}
    (h : ¬ w.sessionEnding = true) :
    (MeetingWidget.handleNetError title text w).1.partner = ∅ := by
  rw [MeetingWidget.handleNetError, if_neg h]
  exact partner_endMeetingSession w

/-- A message keeps buttons and devices together, and starts the loudspeaker for who comes. -/
theorem keeps_onMessage (m : Message Image) (d : Devices) : Keeps d (d.onMessage localIp m) := by
  cases m with
  | createMeetingResponse roomNo =>
      show Keeps d (d.handleCreateMeetingResponse localIp roomNo)
      unfold handleCreateMeetingResponse
      simp only []
      split
      · have hopened : Keeps d { d with
            widget := { d.widget with roomNo := int32OfUInt32 roomNo, createmeet := true }
            openVedio := true
            sendmsg := true } := Same.keeps ⟨rfl, id, rfl, rfl, rfl, rfl, rfl⟩
        refine hopened.trans (keeps_enter localIp _) (Finset.Subset.refl _) ?_
        rw [partner_enter]
        exact Finset.subset_insert localIp d.widget.partner
      · exact keeps_widget rfl
  | joinMeetingResponse c =>
      show Keeps d (d.handleJoinMeetingResponse localIp c)
      unfold handleJoinMeetingResponse
      cases MeetingWidget.joinBranch c with
      | none => exact Keeps.refl d
      | some branch =>
          cases branch with
          | notExist => exact Same.keeps ⟨rfl, id, rfl, rfl, rfl, rfl, rfl⟩
          | full => exact Keeps.refl d
          | joined =>
              refine (keeps_enter localIp d).trans
                (Same.keeps ⟨rfl, id, rfl, rfl, rfl, rfl, rfl⟩) ?_ (Finset.Subset.refl _)
              rw [partner_enter]
              exact Finset.subset_insert localIp d.widget.partner
  | remoteHostClosedError =>
      exact keeps_handleNetError d (handleNetError_ending _ _) (partner_handleNetError _ _)
  | otherNetError =>
      exact keeps_handleNetError d (handleNetError_ending _ _) (partner_handleNetError _ _)
  | recvImage ip image => exact keeps_addPartner ip d
  | partnerJoin ip => exact keeps_handlePartnerJoin ip d
  | partnerExit ip =>
      have hleft := keeps_removePartner ip d
      have hsame : Same (d.removePartner ip) (d.handlePartnerExit ip) :=
        ⟨rfl, id, rfl, rfl, rfl, rfl, rfl⟩
      refine ⟨hsame.tidy ∘ hleft.tidy, ?_⟩
      exact hleft.starts
  | partnerJoin2 partnerIps => exact keeps_handlePartnerJoin2 partnerIps d
  | _ => exact Keeps.refl d

end Messages

section Runs

variable {Image : Type}

theorem Tidy.onOpenAudioClicked (hd : d.Tidy) (henabled : d.openAudio = true) :
    d.onOpenAudioClicked.Tidy := by
  have hcompany := hd.button henabled
  unfold Devices.onOpenAudioClicked
  split
  · exact hd
  split
  · exact ⟨fun _ => hcompany, fun _ => ⟨rfl, hcompany⟩, fun _ => Or.inl hcompany, hd.sound⟩
  split
  · exact ⟨fun _ => hcompany, by simp [willCollect], fun _ => Or.inl hcompany, hd.sound⟩
  · exact hd

theorem onOpenAudioClicked_kept (d : Devices) : d.onOpenAudioClicked.widget = d.widget ∧
    d.onOpenAudioClicked.speaker = d.speaker := by
  unfold Devices.onOpenAudioClicked
  split_ifs <;> exact ⟨rfl, rfl⟩

/-- A signal that arrives is no news, unless the device cannot be had. -/
theorem willCollect_collect {start on : Bool} {signals : List Bool}
    (h : d.signals = start :: signals) (hon : on = true → start = true)
    (hafter : { d with signals := signals, collecting := on }.willCollect = true) :
    d.willCollect = true := by
  rw [willCollect] at hafter ⊢
  rw [h]
  cases signals with
  | nil => exact hon hafter
  | cons other signals => simpa [List.getLast?_cons] using hafter

variable (localIp) in
/-- No stop is carried out, no error of the sink comes and no chunk is refused while there is
company, and who comes to it finds the loudspeaker ready. -/
def Prompt (d : Devices) : DeviceEvent Image → Prop
  | .stopPlay => ¬ (0 < d.stops ∧ d.Company)
  | .sinkError => ¬ (d.speaker.sink ≠ .stopped ∧ d.Company)
  | .refuse => ¬ (d.speaker.outputdevice = true ∧ ¬ d.speaker.returned = true ∧ d.Company)
  | .message m => Joined d (d.onMessage localIp m) → d.speaker.Ready
  | _ => True

theorem keeps_closeEvent (d : Devices) : Keeps d d.closeEvent := by
  unfold closeEvent
  split
  · rename_i hending
    refine keeps_widget ?_
    rw [MeetingWidget.closeEvent]
    simp [hending]
  · rename_i hending
    exact keeps_endMeetingSession (partner_closeEvent d.widget hending)

theorem keeps_onConnectFinished (ok : Bool) (request : ConnectRequest) (d : Devices) :
    Keeps d (d.onConnectFinished ok request) := by
  have hpartner := partner_onConnectFinished d.widget request ok
  unfold onConnectFinished
  simp only []
  split
  · exact Same.keeps ⟨hpartner, by simp, rfl, rfl, rfl, rfl, rfl⟩
  · exact keeps_widget hpartner

theorem Tidy.step {e : DeviceEvent Image} (hd : d.Tidy) (h : d.step localIp e = some d') :
    d'.Tidy := by
  cases e with
  | message m =>
      obtain rfl := Option.some.inj h
      exact (keeps_onMessage m d).tidy hd
  | quiet slot =>
      obtain rfl := Option.some.inj h
      exact (keeps_widget (partner_quiet d.widget slot)).tidy hd
  | close =>
      obtain rfl := Option.some.inj h
      exact (keeps_closeEvent d).tidy hd
  | connectFinished ok request =>
      obtain rfl := Option.some.inj h
      exact (keeps_onConnectFinished ok request d).tidy hd
  | openAudioClicked =>
      simp only [Devices.step, Option.ite_none_right_eq_some, Option.some.injEq] at h
      obtain ⟨henabled, rfl⟩ := h
      exact hd.onOpenAudioClicked henabled
  | collect active opened =>
      simp only [Devices.step] at h
      cases hsignals : d.signals with
      | nil => simp [hsignals] at h
      | cons start signals =>
          simp only [hsignals, Option.some.injEq] at h
          obtain rfl := h
          refine ⟨hd.button, fun hmicrophone => hd.microphone ?_, hd.speaker, hd.sound⟩
          refine willCollect_collect hsignals (fun hon => ?_) hmicrophone
          exact (Bool.and_eq_true_iff.mp hon).1
  | audioInputError =>
      obtain rfl := Option.some.inj h
      refine ⟨hd.button, fun hmicrophone => hd.microphone ?_, hd.speaker, hd.sound⟩
      rw [willCollect] at hmicrophone ⊢
      cases hlast : d.signals.getLast? with
      | none => simp [hlast] at hmicrophone
      | some last => simpa [hlast] using hmicrophone
  | stopPlay =>
      simp only [Devices.step, Option.ite_none_right_eq_some, Option.some.injEq] at h
      obtain ⟨-, rfl⟩ := h
      refine ⟨hd.button, hd.microphone, fun hspeaker => ?_, fun hstopped => absurd rfl hstopped⟩
      simp [Loudspeaker.stopPlay] at hspeaker
  | sinkTurns active =>
      simp only [Devices.step, Option.ite_none_left_eq_some, Option.some.injEq] at h
      obtain ⟨hgoing, rfl⟩ := h
      exact ⟨hd.button, hd.microphone, hd.speaker, fun _ => hd.sound hgoing⟩
  | sinkError =>
      simp only [Devices.step, Option.ite_none_left_eq_some, Option.some.injEq] at h
      obtain ⟨-, rfl⟩ := h
      exact ⟨hd.button, hd.microphone, hd.speaker, fun hstopped => absurd rfl hstopped⟩
  | refuse =>
      simp only [Devices.step, Option.ite_none_right_eq_some, Option.some.injEq] at h
      obtain ⟨-, rfl⟩ := h
      exact ⟨hd.button, hd.microphone, hd.speaker, hd.sound⟩
  | outputOpens opens =>
      obtain rfl := Option.some.inj h
      exact ⟨hd.button, hd.microphone, hd.speaker, hd.sound⟩

/-- Where nobody comes or goes, whoever is heard stays so. -/
theorem Audible.of_keeps (hd : d.Audible) (hsound : d.speaker.Sound) (hkeeps : Keeps d d')
    (hpartner : d'.widget.partner = d.widget.partner) : d'.Audible :=
  hkeeps.starts.audible hd hsound fun hjoined =>
    absurd (Finset.subset_of_eq hpartner) hjoined.2

theorem Audible.closeEvent (hd : d.Audible) (hsound : d.speaker.Sound) : d.closeEvent.Audible := by
  unfold Devices.closeEvent
  split
  · rename_i hending
    have hpartner : (MeetingWidget.closeEvent d.widget).1.partner = d.widget.partner := by
      rw [MeetingWidget.closeEvent]
      simp [hending]
    exact hd.of_keeps hsound (keeps_widget hpartner) hpartner
  · rename_i hending
    exact audible_of_empty (partner_closeEvent d.widget hending)

theorem Audible.onConnectFinished (hd : d.Audible) (hsound : d.speaker.Sound) (ok : Bool)
    (request : ConnectRequest) : (d.onConnectFinished ok request).Audible := by
  refine hd.of_keeps hsound (keeps_onConnectFinished ok request d) ?_
  have hpartner := partner_onConnectFinished d.widget request ok
  unfold Devices.onConnectFinished
  simp only []
  split
  · exact hpartner
  · exact hpartner

theorem Audible.step {e : DeviceEvent Image} (hd : d.Audible) (hsound : d.speaker.Sound)
    (hprompt : Prompt localIp d e) (h : d.step localIp e = some d') : d'.Audible := by
  cases e with
  | message m =>
      obtain rfl := Option.some.inj h
      exact (keeps_onMessage m d).starts.audible hd hsound hprompt
  | quiet slot =>
      obtain rfl := Option.some.inj h
      have hpartner := partner_quiet d.widget slot
      exact hd.of_keeps hsound (keeps_widget hpartner) hpartner
  | close =>
      obtain rfl := Option.some.inj h
      exact hd.closeEvent hsound
  | connectFinished ok request =>
      obtain rfl := Option.some.inj h
      exact hd.onConnectFinished hsound ok request
  | openAudioClicked =>
      simp only [Devices.step, Option.ite_none_right_eq_some, Option.some.injEq] at h
      obtain ⟨-, rfl⟩ := h
      obtain ⟨hwidget, hspeaker⟩ := onOpenAudioClicked_kept d
      rw [Audible, Company, hwidget, hspeaker]
      exact hd
  | collect active opened =>
      simp only [Devices.step] at h
      cases hsignals : d.signals with
      | nil => simp [hsignals] at h
      | cons start signals =>
          simp only [hsignals, Option.some.injEq] at h
          obtain rfl := h
          exact hd
  | audioInputError =>
      obtain rfl := Option.some.inj h
      exact hd
  | stopPlay =>
      simp only [Devices.step, Option.ite_none_right_eq_some, Option.some.injEq] at h
      obtain ⟨hposted, rfl⟩ := h
      exact fun hcompany => absurd ⟨hposted, hcompany⟩ hprompt
  | sinkTurns active =>
      simp only [Devices.step, Option.ite_none_left_eq_some, Option.some.injEq] at h
      obtain ⟨-, rfl⟩ := h
      intro hcompany
      obtain ⟨hruns, hdevice, -⟩ := hd hcompany
      exact ⟨hruns, hdevice, by cases active <;> simp⟩
  | sinkError =>
      simp only [Devices.step, Option.ite_none_left_eq_some, Option.some.injEq] at h
      obtain ⟨hgoing, rfl⟩ := h
      exact fun hcompany => absurd ⟨hgoing, hcompany⟩ hprompt
  | refuse =>
      simp only [Devices.step, Option.ite_none_right_eq_some, Option.some.injEq] at h
      obtain ⟨⟨hdevice, hruns⟩, rfl⟩ := h
      exact fun hcompany => absurd ⟨hdevice, hruns, hcompany⟩ hprompt
  | outputOpens opens =>
      obtain rfl := Option.some.inj h
      exact hd

theorem Tidy.collecting (hd : d.Tidy) (h : d.collecting = true) :
    d.Company ∨ false ∈ d.signals := by
  cases hlast : d.signals.getLast? with
  | none => exact Or.inl (hd.microphone (by rw [willCollect, hlast]; exact h)).2
  | some start =>
      have hmem := List.mem_of_getLast? hlast
      cases start with
      | false => exact Or.inr hmem
      | true => exact Or.inl (hd.microphone (by rw [willCollect, hlast]; rfl)).2

/-- What is not prompt leaves company without sound. -/
theorem Tidy.silent (hd : d.Tidy) {e : DeviceEvent Image} (hbroken : ¬ Prompt localIp d e) :
    ∃ d', d.step localIp e = some d' ∧ ¬ d'.Audible := by
  cases e with
  | message m =>
      obtain ⟨hjoined, hready⟩ := Classical.not_imp.mp hbroken
      exact ⟨_, rfl, (keeps_onMessage m d).starts.silent hd.sound hjoined hready⟩
  | stopPlay =>
      obtain ⟨hposted, hcompany⟩ := not_not.mp hbroken
      refine ⟨_, if_pos hposted, fun hheard => ?_⟩
      have hdevice := (hheard hcompany).2.1
      simp [Loudspeaker.stopPlay] at hdevice
  | sinkError =>
      obtain ⟨hgoing, hcompany⟩ := not_not.mp hbroken
      exact ⟨_, if_neg hgoing, fun hheard => (hheard hcompany).2.2 rfl⟩
  | refuse =>
      obtain ⟨hdevice, hruns, hcompany⟩ := not_not.mp hbroken
      refine ⟨_, if_pos ⟨hdevice, hruns⟩, fun hheard => ?_⟩
      have hruns' := (hheard hcompany).1
      simp [Loudspeaker.refuse] at hruns'
  | _ => exact absurd trivial hbroken

variable (localIp) in
/-- **Who is heard, and who hears**, in every run: a microphone that stays on has a button that says
so and company, and one that is on without company is about to be stopped.  The company is heard
throughout just where the loudspeaker is neither stopped nor fails while there is any, and is ready
for whoever comes. -/
theorem devices {es : List (DeviceEvent Image)} (h : run (step localIp) {} es = some d) :
    d.Tidy ∧ (d.collecting = true → d.Company ∨ false ∈ d.signals) ∧
      (Throughout (step localIp) Audible {} es ↔ Steps (step localIp) (Prompt localIp) {} es) := by
  have hstart : Tidy {} := ⟨by simp, by simp [willCollect], by simp, by simp [Loudspeaker.Sound]⟩
  have htidy : d.Tidy := run_invariant (fun _ _ _ hd hstep => Tidy.step hd hstep) hstart h
  refine ⟨htidy, htidy.collecting, fun haudible => ?_, fun hprompt => ?_⟩
  · have hboth := haudible.and_invariant (fun _ _ _ hd hstep => Tidy.step hd hstep) hstart
    refine steps_of_throughout (fun d e hd hbroken => ?_) hboth
    obtain ⟨d', hstep, hsilent⟩ := hd.2.silent hbroken
    exact ⟨d', hstep, fun hd' => hsilent hd'.1⟩
  · have hboth := throughout_of_step (I := fun d => Audible d ∧ Tidy d)
      (fun _ _ _ hd hprompt hstep => ⟨hd.1.step hd.2.sound hprompt hstep, hd.2.step hstep⟩)
      ⟨audible_of_empty rfl, hstart⟩ hprompt
    exact hboth.mono fun _ hd => hd.1

end Runs

/-! ### The window on its own -/

section Widget

variable {Image : Type} (localIp : UInt32) (d : Devices)

theorem widget_addPartner (ip : UInt32) :
    (d.addPartner ip).2.widget = (MeetingWidget.addPartner ip d.widget).2 := by
  unfold addPartner
  cases hout : MeetingWidget.addPartner ip d.widget with
  | mk new w =>
      cases new with
      | true =>
          simp only []
          split <;> rfl
      | false => rfl

theorem widget_handlePartnerJoin (ip : UInt32) :
    (d.handlePartnerJoin ip).widget = (MeetingWidget.handlePartnerJoin ip d.widget).1 := by
  by_cases hknown : ip ∈ d.widget.partner
  · rw [handlePartnerJoin, MeetingWidget.handlePartnerJoin, addPartner_known hknown,
      MeetingWidget.addPartner, if_pos hknown]
  · obtain ⟨hnew, hwidget, -⟩ := addPartner_new hknown
    rw [handlePartnerJoin, MeetingWidget.handlePartnerJoin, MeetingWidget.addPartner,
      if_neg hknown]
    cases hout : d.addPartner ip with
    | mk new d' =>
        rw [hout] at hnew hwidget
        obtain rfl : new = true := hnew
        have hwidget : d'.widget = { d.widget with partner := insert ip d.widget.partner } :=
          hwidget
        show { d'.widget with iplist := d'.widget.iplist ++ [ip] } = _
        rw [hwidget]

theorem widget_handlePartnerJoin2 (ips : List UInt32) :
    (d.handlePartnerJoin2 ips).widget = (MeetingWidget.handlePartnerJoin2 ips d.widget).1 := by
  show (ips.foldl (fun d ip => d.handlePartnerJoin ip) d).widget = _
  rw [MeetingWidget.handlePartnerJoin2]
  induction ips generalizing d with
  | nil => rfl
  | cons ip ips ih => rw [List.foldl_cons, List.foldl_cons, ih, widget_handlePartnerJoin]

theorem widget_handlePartnerExit (ip : UInt32) :
    (d.handlePartnerExit ip).widget = (MeetingWidget.handlePartnerExit ip d.widget).1 := by
  have hremoved : (d.removePartner ip).widget = d.widget.removePartner ip := by
    unfold removePartner
    split
    · simp only []
      split <;> rfl
    · rename_i hnot
      rw [MeetingWidget.removePartner, Finset.erase_eq_of_notMem hnot]
  show { (d.removePartner ip).widget with
    iplist := (d.removePartner ip).widget.iplist.erase ip } = _
  rw [hremoved]
  rfl

theorem widget_handleNetError (slot : Slot) :
    (d.handleNetError slot).widget = (slot d.widget).1 := by
  unfold handleNetError
  split <;> rfl

/-- The window with its devices is the window on its own. -/
theorem widget_onMessage (m : Message Image) :
    (d.onMessage localIp m).widget = (MeetingWidget.onMessage localIp m d.widget).1 := by
  cases m with
  | createMeetingResponse roomNo =>
      show (d.handleCreateMeetingResponse localIp roomNo).widget
        = (MeetingWidget.handleCreateMeetingResponse localIp roomNo d.widget).1
      rw [handleCreateMeetingResponse, MeetingWidget.handleCreateMeetingResponse]
      split_ifs
      · simp only [enter, widget_addPartner]
      · rfl
  | joinMeetingResponse c =>
      show (d.handleJoinMeetingResponse localIp c).widget
        = (MeetingWidget.handleJoinMeetingResponse localIp c d.widget).1
      rw [handleJoinMeetingResponse, MeetingWidget.handleJoinMeetingResponse]
      cases MeetingWidget.joinBranch c with
      | none => rfl
      | some branch =>
          cases branch with
          | notExist => rfl
          | full => rfl
          | joined => simp only [enter, widget_addPartner]
  | remoteHostClosedError => exact widget_handleNetError d _
  | otherNetError => exact widget_handleNetError d _
  | recvImage ip image => exact widget_addPartner d ip
  | partnerJoin ip => exact widget_handlePartnerJoin d ip
  | partnerExit ip => exact widget_handlePartnerExit d ip
  | partnerJoin2 partnerIps => exact widget_handlePartnerJoin2 d partnerIps
  | _ => rfl

end Widget

/-- The user creates a room, one member comes, the microphone is opened, the member leaves, and
another one comes before the loudspeaker is stopped. -/
def sampleDeviceEvents : List (DeviceEvent Unit) :=
  [.quiet (.buttonClicked { ip := "10.0.0.9", port := "8888", action := .createMeeting }),
    .connectFinished true { ip := "10.0.0.9", port := "8888", action := .createMeeting },
    .message (.createMeetingResponse 7), .message (.partnerJoin 2), .openAudioClicked,
    .collect false true, .message (.partnerExit 2), .message (.partnerJoin 3), .stopPlay,
    .collect false true]

theorem devices_sample : ∃ d, run (step 1) {} sampleDeviceEvents = some d ∧
    d.Company ∧ ¬ d.speaker.Heard ∧ ¬ Steps (step 1) (Prompt 1) {} sampleDeviceEvents := by
  have hend : (run (step 1) {} sampleDeviceEvents).map
      (fun d => (d.widget.partner.card, d.speaker.outputdevice)) = some (2, false) := by
    decide +kernel
  rw [Option.map_eq_some_iff] at hend
  obtain ⟨d, hrun, hd⟩ := hend
  rw [Prod.mk.injEq] at hd
  have hcompany : d.Company := by
    rw [Company, hd.1]
  have hsilent : ¬ d.speaker.Heard := fun hheard => by
    have hdevice := hheard.2.1
    rw [hd.2] at hdevice
    exact Bool.noConfusion hdevice
  refine ⟨d, hrun, hcompany, hsilent, fun hprompt => ?_⟩
  exact hsilent (((devices 1 hrun).2.2.mpr hprompt).last hrun hcompany)

end Devices
end CloudMeeting.Client
