/-
The members of a meeting on the screen.

The window knows a member in two places: `partner` has its tile, and the completer of the
editor offers its address.  `CameraVideo` knows it in two more: the display its pictures go
to, and the last picture.  A message about a member should change all of them together.

`Coherent` says what together means, and `Sound` which messages keep it.  Two do not.  A
picture makes a member of a sender nobody has announced, without an address in the
completer; and a member who leaves takes its display along but not its last picture, nor,
when it is the user, the place in the middle.
-/
import CloudMeeting.Client.Widget
import CloudMeeting.Lib.Run

namespace CloudMeeting.Client

open Run

/-! ### The displays -/

/-- Where the pictures go. -/
structure CameraVideo where
  localIp : UInt32 := 0
  mainIp : UInt32 := 0
  /-- The keys of `_partnerDisplays`. -/
  partnerDisplays : Finset UInt32 := ∅
  /-- The keys of `_lastImages`. -/
  lastImages : Finset UInt32 := ∅

namespace CameraVideo

def showAvatarForIp (ip : UInt32) (v : CameraVideo) : CameraVideo :=
  { v with lastImages := v.lastImages.erase ip }

def addPartnerDisplay (ip : UInt32) (v : CameraVideo) : CameraVideo :=
  if ip ∈ v.partnerDisplays then v
  else showAvatarForIp ip { v with partnerDisplays := insert ip v.partnerDisplays }

def removePartnerDisplay (ip : UInt32) (v : CameraVideo) : CameraVideo :=
  { v with partnerDisplays := v.partnerDisplays.erase ip }

def clearAllPartnerDisplays (v : CameraVideo) : CameraVideo :=
  { v with partnerDisplays := ∅, lastImages := ∅ }

variable {Image : Type}

def showImageForIp (isNull : Image → Bool) (ip : UInt32) (image : Image) (v : CameraVideo) :
    CameraVideo :=
  if isNull image then v else { v with lastImages := insert ip v.lastImages }

end CameraVideo

/-! ### The window and its displays -/

structure Screen where
  widget : MeetingWidget := {}
  cameraVideo : CameraVideo := {}

namespace Screen

/-- Whether a partner is made for the ip, who then gets a tile with a label to draw on. -/
def addPartner (ip : UInt32) (s : Screen) : Bool × Screen :=
  match MeetingWidget.addPartner ip s.widget with
  | (true, w) => (true, ⟨w, s.cameraVideo.addPartnerDisplay ip⟩)
  | (false, w) => (false, { s with widget := w })

def removePartner (ip : UInt32) (s : Screen) : Screen :=
  if ip ∈ s.widget.partner then
    ⟨s.widget.removePartner ip, s.cameraVideo.removePartnerDisplay ip⟩
  else s

def clearPartner (s : Screen) : Screen :=
  if s.widget.partner = ∅ then s else ⟨s.widget.clearPartner, s.cameraVideo.clearAllPartnerDisplays⟩

/-- The window ends its session; of the displays only `clear_partner` takes any away. -/
def endMeetingSession (s : Screen) : Screen :=
  ⟨(MeetingWidget.endMeetingSession s.widget).1, s.clearPartner.cameraVideo⟩

def closeImg (ip : UInt32) (s : Screen) : Screen :=
  if ip ∈ s.widget.partner then { s with cameraVideo := s.cameraVideo.showAvatarForIp ip } else s

section Messages

variable (localIp : UInt32)

/-- The part of the handlers of the two responses that lets the user in. -/
def enter (s : Screen) : Screen :=
  let s := (s.addPartner localIp).2
  ⟨{ s.widget with mainip := localIp },
    { s.cameraVideo with localIp := localIp, mainIp := localIp }⟩

def handleCreateMeetingResponse (roomNo : UInt32) (s : Screen) : Screen :=
  let roomno := int32OfUInt32 roomNo
  if roomno ≠ 0 then
    enter localIp { s with widget := { s.widget with roomNo := roomno, createmeet := true } }
  else { s with widget := { s.widget with createmeet := false } }

def handleJoinMeetingResponse (c : Int) (s : Screen) : Screen :=
  match MeetingWidget.joinBranch c with
  | some .notExist => { s with widget := { s.widget with joinmeet := false, roomNo := 0 } }
  | some .full => s
  | some .joined =>
      let s := enter localIp s
      { s with widget := { s.widget with joinmeet := true } }
  | none => s

def handlePartnerJoin (ip : UInt32) (s : Screen) : Screen :=
  match s.addPartner ip with
  | (true, s) =>
      ⟨{ s.widget with iplist := s.widget.iplist ++ [ip] }, s.cameraVideo.showAvatarForIp ip⟩
  | (false, s) => s

def handlePartnerExit (ip : UInt32) (s : Screen) : Screen :=
  let s := s.removePartner ip
  { s with widget := { s.widget with iplist := s.widget.iplist.erase ip } }

def handlePartnerJoin2 (partnerIps : List UInt32) (s : Screen) : Screen :=
  partnerIps.foldl (fun s ip => s.handlePartnerJoin ip) s

/-- The handlers of the two kinds of network error. -/
def handleNetError (s : Screen) : Screen :=
  if s.widget.sessionEnding then s else s.endMeetingSession

variable {Image : Type} (isNull : Image → Bool)

def handleImgRecv (ip : UInt32) (image : Image) (s : Screen) : Screen :=
  let s := (s.addPartner ip).2
  { s with cameraVideo := s.cameraVideo.showImageForIp isNull ip image }

def onMessage : Message Image → Screen → Screen
  | .createMeetingResponse roomNo => handleCreateMeetingResponse localIp roomNo
  | .joinMeetingResponse c => handleJoinMeetingResponse localIp c
  | .remoteHostClosedError => handleNetError
  | .otherNetError => handleNetError
  | .recvImage ip image => handleImgRecv isNull ip image
  | .partnerJoin ip => handlePartnerJoin ip
  | .partnerExit ip => handlePartnerExit ip
  | .partnerJoin2 partnerIps => handlePartnerJoin2 partnerIps
  | .closeCameraNotify ip => closeImg ip
  | _ => id

/-! ### The window on its own -/

theorem widget_addPartner (ip : UInt32) (s : Screen) :
    (s.addPartner ip).2.widget = (MeetingWidget.addPartner ip s.widget).2 := by
  unfold addPartner
  split <;> (rename_i heq; rw [heq])

theorem widget_enter (s : Screen) : (enter localIp s).widget
    = { (MeetingWidget.addPartner localIp s.widget).2 with mainip := localIp } := by
  show { (s.addPartner localIp).2.widget with mainip := localIp } = _
  rw [widget_addPartner]

theorem widget_handlePartnerJoin (ip : UInt32) (s : Screen) :
    (s.handlePartnerJoin ip).widget = (MeetingWidget.handlePartnerJoin ip s.widget).1 := by
  rw [handlePartnerJoin, MeetingWidget.handlePartnerJoin, addPartner]
  cases MeetingWidget.addPartner ip s.widget with
  | mk new w =>
      cases new with
      | true => rfl
      | false => rfl

theorem widget_handlePartnerJoin2 (ips : List UInt32) (s : Screen) :
    (s.handlePartnerJoin2 ips).widget = (MeetingWidget.handlePartnerJoin2 ips s.widget).1 := by
  rw [handlePartnerJoin2, MeetingWidget.handlePartnerJoin2]
  induction ips generalizing s with
  | nil => rfl
  | cons ip ips ih => rw [List.foldl_cons, List.foldl_cons, ih, widget_handlePartnerJoin]

theorem widget_handlePartnerExit (ip : UInt32) (s : Screen) :
    (s.handlePartnerExit ip).widget = (MeetingWidget.handlePartnerExit ip s.widget).1 := by
  have hremoved : (s.removePartner ip).widget = s.widget.removePartner ip := by
    unfold removePartner
    split
    · rfl
    · rename_i hnot
      rw [MeetingWidget.removePartner, Finset.erase_eq_of_notMem hnot]
  show { (s.removePartner ip).widget with
    iplist := (s.removePartner ip).widget.iplist.erase ip } = _
  rw [hremoved]
  rfl

/-- What the window has on the screen is what it has on its own. -/
theorem widget_onMessage (m : Message Image) (s : Screen) :
    (onMessage localIp isNull m s).widget = (MeetingWidget.onMessage localIp m s.widget).1 := by
  cases m with
  | createMeetingResponse roomNo =>
      show (handleCreateMeetingResponse localIp roomNo s).widget = _
      rw [handleCreateMeetingResponse]
      show _ = (MeetingWidget.handleCreateMeetingResponse localIp roomNo s.widget).1
      rw [MeetingWidget.handleCreateMeetingResponse]
      split_ifs
      · exact widget_enter localIp _
      · rfl
  | joinMeetingResponse c =>
      show (handleJoinMeetingResponse localIp c s).widget = _
      rw [handleJoinMeetingResponse]
      show _ = (MeetingWidget.handleJoinMeetingResponse localIp c s.widget).1
      rw [MeetingWidget.handleJoinMeetingResponse]
      cases MeetingWidget.joinBranch c with
      | none => rfl
      | some branch =>
          cases branch with
          | notExist => rfl
          | full => rfl
          | joined =>
              show { (enter localIp s).widget with joinmeet := true } = _
              rw [widget_enter]
  | remoteHostClosedError =>
      show (handleNetError s).widget = (MeetingWidget.handleRemoteHostClosedError s.widget).1
      rw [handleNetError, MeetingWidget.handleRemoteHostClosedError, MeetingWidget.handleNetError]
      split_ifs <;> rfl
  | otherNetError =>
      show (handleNetError s).widget = (MeetingWidget.handleOtherNetError s.widget).1
      rw [handleNetError, MeetingWidget.handleOtherNetError, MeetingWidget.handleNetError]
      split_ifs <;> rfl
  | recvImage ip image => exact widget_addPartner ip s
  | partnerJoin ip => exact widget_handlePartnerJoin ip s
  | partnerExit ip => exact widget_handlePartnerExit ip s
  | partnerJoin2 partnerIps => exact widget_handlePartnerJoin2 partnerIps s
  | closeCameraNotify ip =>
      show (closeImg ip s).widget = s.widget
      rw [closeImg]
      split <;> rfl
  | createMeeting => rfl
  | joinMeeting roomNo => rfl
  | exitMeeting => rfl
  | closeCamera => rfl
  | sendText text => rfl
  | sendImage image => rfl
  | sendAudio audio => rfl
  | recvText ip text => rfl
  | recvAudio ip audio => rfl

end Messages

/-! ### Coherence -/

section Coherence

variable {Image : Type} (localIp : UInt32) (isNull : Image → Bool)

/-- A message about the members of the meeting the user is in. -/
def AboutMembers : Message Image → Bool
  | .partnerJoin _ => true
  | .partnerJoin2 _ => true
  | .partnerExit _ => true
  | .closeCameraNotify _ => true
  | .recvImage _ _ => true
  | _ => false

/-- The members are told about. -/
def step (s : Screen) (m : Message Image) : Option Screen :=
  if AboutMembers m then some (s.onMessage localIp isNull m) else none

/-- What the window and the displays know of the members agrees. -/
structure Coherent (s : Screen) : Prop where
  nodup : s.widget.iplist.Nodup
  iplist : ∀ ip, ip ∈ s.widget.iplist ↔ ip ∈ s.widget.partner ∧ ip ≠ localIp
  displays : s.cameraVideo.partnerDisplays = s.widget.partner
  images : s.cameraVideo.lastImages ⊆ s.widget.partner
  main : s.widget.mainip ∈ s.widget.partner

/-- A picture is of a member; and whoever leaves is not the user, and has left no picture. -/
def Sound (s : Screen) : Message Image → Prop
  | .recvImage ip _ => ip ∈ s.widget.partner
  | .partnerExit ip => ip ≠ localIp ∧ ip ∉ s.cameraVideo.lastImages
  | _ => True

instance (s : Screen) : ∀ m : Message Image, Decidable (Sound localIp s m)
  | .recvImage ip _ => inferInstanceAs (Decidable (ip ∈ s.widget.partner))
  | .partnerExit ip => inferInstanceAs (Decidable (ip ≠ localIp ∧ ip ∉ s.cameraVideo.lastImages))
  | .createMeeting | .joinMeeting _ | .exitMeeting | .closeCamera | .sendText _ | .sendImage _
  | .sendAudio _ | .recvText .. | .recvAudio .. | .createMeetingResponse _
  | .joinMeetingResponse _ | .remoteHostClosedError | .otherNetError | .partnerJoin _
  | .partnerJoin2 _ | .closeCameraNotify _ => isTrue trivial

variable {localIp} {s : Screen}

theorem addPartner_known {ip : UInt32} (h : ip ∈ s.widget.partner) :
    s.addPartner ip = (false, s) := by
  rw [addPartner, MeetingWidget.addPartner, if_pos h]

theorem addPartner_new {ip : UInt32} (h : ip ∉ s.widget.partner) : s.addPartner ip
    = (true, ⟨{ s.widget with partner := insert ip s.widget.partner },
        s.cameraVideo.addPartnerDisplay ip⟩) := by
  rw [addPartner, MeetingWidget.addPartner, if_neg h]

theorem addPartnerDisplay_new {v : CameraVideo} {ip : UInt32} (h : ip ∉ v.partnerDisplays) :
    v.addPartnerDisplay ip = { v with partnerDisplays := insert ip v.partnerDisplays
                                      lastImages := v.lastImages.erase ip } := by
  rw [CameraVideo.addPartnerDisplay, if_neg h]
  rfl

/-- The user has been let in, and is in the middle. -/
structure Seated (localIp : UInt32) (s : Screen) : Prop extends Coherent localIp s where
  mainip : s.widget.mainip = localIp

namespace Seated

theorem local_mem (h : Seated localIp s) : localIp ∈ s.widget.partner := by
  rw [← h.mainip]
  exact h.main

/-- Someone who is not known yet is not the user. -/
theorem ne_local (h : Seated localIp s) {ip : UInt32} (hnew : ip ∉ s.widget.partner) :
    ip ≠ localIp := by
  rintro rfl
  exact hnew h.local_mem

theorem partnerJoin (h : Seated localIp s) (ip : UInt32) :
    Seated localIp (s.handlePartnerJoin ip) := by
  by_cases hknown : ip ∈ s.widget.partner
  · rw [handlePartnerJoin, addPartner_known hknown]
    exact h
  have hdisplay : ip ∉ s.cameraVideo.partnerDisplays := by
    rw [h.displays]
    exact hknown
  have hnew : ip ∉ s.widget.iplist := fun hin => hknown ((h.iplist ip).mp hin).1
  rw [handlePartnerJoin, addPartner_new hknown, addPartnerDisplay_new hdisplay]
  refine { nodup := ?_, iplist := ?_, displays := ?_, images := ?_, main := ?_, mainip := h.mainip }
  · exact h.nodup.append (List.nodup_singleton ip) (List.disjoint_singleton.mpr hnew)
  · intro other
    show other ∈ s.widget.iplist ++ [ip] ↔ other ∈ insert ip s.widget.partner ∧ other ≠ localIp
    rw [List.mem_append, List.mem_singleton, h.iplist, Finset.mem_insert]
    constructor
    · rintro (⟨hin, hne⟩ | rfl)
      · exact ⟨Or.inr hin, hne⟩
      · exact ⟨Or.inl rfl, h.ne_local hknown⟩
    · rintro ⟨rfl | hin, hne⟩
      · exact Or.inr rfl
      · exact Or.inl ⟨hin, hne⟩
  · show insert ip s.cameraVideo.partnerDisplays = insert ip s.widget.partner
    rw [h.displays]
  · show (s.cameraVideo.lastImages.erase ip).erase ip ⊆ insert ip s.widget.partner
    intro other hin
    have hlast := Finset.mem_of_mem_erase (Finset.mem_of_mem_erase hin)
    exact Finset.mem_insert_of_mem (h.images hlast)
  · exact Finset.mem_insert_of_mem h.main

theorem partnerJoin2 (h : Seated localIp s) (ips : List UInt32) :
    Seated localIp (s.handlePartnerJoin2 ips) := by
  rw [handlePartnerJoin2]
  induction ips generalizing s with
  | nil => exact h
  | cons ip ips ih => exact ih (h.partnerJoin ip)

theorem closeImg (h : Seated localIp s) (ip : UInt32) : Seated localIp (s.closeImg ip) := by
  unfold Screen.closeImg
  split
  · exact { h with images := fun other hin => h.images (Finset.mem_of_mem_erase hin) }
  · exact h

theorem imgRecv (h : Seated localIp s) {ip : UInt32} (image : Image)
    (hknown : ip ∈ s.widget.partner) : Seated localIp (s.handleImgRecv isNull ip image) := by
  rw [handleImgRecv, addPartner_known hknown]
  unfold CameraVideo.showImageForIp
  split
  · exact h
  · refine { h with images := ?_ }
    intro other hin
    rcases Finset.mem_insert.mp hin with rfl | hin
    · exact hknown
    · exact h.images hin

theorem partnerExit (h : Seated localIp s) {ip : UInt32} (hother : ip ≠ localIp)
    (hplain : ip ∉ s.cameraVideo.lastImages) : Seated localIp (s.handlePartnerExit ip) := by
  by_cases hknown : ip ∈ s.widget.partner
  · rw [handlePartnerExit, Screen.removePartner, if_pos hknown]
    refine { nodup := h.nodup.erase ip, iplist := ?_, displays := ?_, images := ?_, main := ?_,
             mainip := h.mainip }
    · intro other
      show other ∈ s.widget.iplist.erase ip ↔ other ∈ s.widget.partner.erase ip ∧ other ≠ localIp
      rw [h.nodup.mem_erase_iff, h.iplist, Finset.mem_erase, and_assoc]
    · show s.cameraVideo.partnerDisplays.erase ip = s.widget.partner.erase ip
      rw [h.displays]
    · intro other hin
      have hne : other ≠ ip := by
        rintro rfl
        exact hplain hin
      exact Finset.mem_erase_of_ne_of_mem hne (h.images hin)
    · show s.widget.mainip ∈ s.widget.partner.erase ip
      rw [h.mainip]
      exact Finset.mem_erase_of_ne_of_mem hother.symm h.local_mem
  · have habsent : ip ∉ s.widget.iplist := fun hin => hknown ((h.iplist ip).mp hin).1
    rw [handlePartnerExit, Screen.removePartner, if_neg hknown]
    show Seated localIp
      { s with widget := { s.widget with iplist := s.widget.iplist.erase ip } }
    rw [List.erase_of_not_mem habsent]
    exact h

/-- **A sound message keeps the window and the displays in agreement.** -/
theorem step (h : Seated localIp s) {m : Message Image} (hsound : Sound localIp s m) {s' : Screen}
    (hstep : s.step localIp isNull m = some s') : Seated localIp s' := by
  unfold Screen.step at hstep
  simp only [Option.ite_none_right_eq_some, Option.some.injEq] at hstep
  obtain ⟨hmember, rfl⟩ := hstep
  cases m with
  | partnerJoin ip => exact h.partnerJoin ip
  | partnerJoin2 ips => exact h.partnerJoin2 ips
  | partnerExit ip => exact h.partnerExit hsound.1 hsound.2
  | closeCameraNotify ip => exact h.closeImg ip
  | recvImage ip image => exact h.imgRecv isNull image hsound
  | _ => exact absurd hmember (by simp [AboutMembers])

/-- A picture of someone who has not been announced. -/
theorem not_coherent_imgRecv (h : Seated localIp s) {ip : UInt32} (image : Image)
    (hnew : ip ∉ s.widget.partner) : ¬ Coherent localIp (s.handleImgRecv isNull ip image) := by
  intro hafter
  have hlisted := (hafter.iplist ip).mpr
  rw [handleImgRecv, addPartner_new hnew] at hlisted
  have hin : ip ∈ s.widget.iplist := hlisted ⟨Finset.mem_insert_self .., h.ne_local hnew⟩
  exact hnew ((h.iplist ip).mp hin).1

/-- The user is said to leave, or someone who has left a picture. -/
theorem not_coherent_partnerExit (h : Seated localIp s) {ip : UInt32}
    (hleft : ip = localIp ∨ ip ∈ s.cameraVideo.lastImages) :
    ¬ Coherent localIp (s.handlePartnerExit ip) := by
  intro hafter
  have hknown : ip ∈ s.widget.partner := by
    rcases hleft with rfl | hpicture
    · exact h.local_mem
    · exact h.images hpicture
  rw [handlePartnerExit, Screen.removePartner, if_pos hknown] at hafter
  rcases hleft with rfl | hpicture
  · have hmain : s.widget.mainip ∈ s.widget.partner.erase ip := hafter.main
    rw [h.mainip] at hmain
    exact Finset.notMem_erase ip _ hmain
  · have hstill : ip ∈ s.widget.partner.erase ip := hafter.images hpicture
    exact Finset.notMem_erase ip _ hstill

theorem spoiled (h : Seated localIp s) {m : Message Image} (hunsound : ¬ Sound localIp s m) :
    ∃ s', s.step localIp isNull m = some s' ∧ ¬ Coherent localIp s' := by
  cases m with
  | recvImage ip image => exact ⟨_, rfl, h.not_coherent_imgRecv isNull image hunsound⟩
  | partnerExit ip =>
      refine ⟨_, rfl, h.not_coherent_partnerExit ?_⟩
      by_contra hneither
      exact hunsound (not_or.mp hneither)
  | _ => exact absurd trivial hunsound

end Seated

/-- A message about a member leaves the user in the middle. -/
theorem mainip_step {m : Message Image} {s' : Screen}
    (hstep : s.step localIp isNull m = some s') : s'.widget.mainip = s.widget.mainip := by
  unfold Screen.step at hstep
  simp only [Option.ite_none_right_eq_some, Option.some.injEq] at hstep
  obtain ⟨hmember, rfl⟩ := hstep
  have hjoin : ∀ (ip : UInt32) (s : Screen),
      (s.handlePartnerJoin ip).widget.mainip = s.widget.mainip := by
    intro ip s
    rw [widget_handlePartnerJoin, MeetingWidget.handlePartnerJoin, MeetingWidget.addPartner]
    split_ifs <;> rfl
  cases m with
  | partnerJoin ip => exact hjoin ip s
  | partnerJoin2 ips =>
      show (s.handlePartnerJoin2 ips).widget.mainip = _
      rw [handlePartnerJoin2]
      clear hmember
      induction ips generalizing s with
      | nil => rfl
      | cons ip ips ih => rw [List.foldl_cons, ih, hjoin]
  | partnerExit ip =>
      show (s.handlePartnerExit ip).widget.mainip = _
      rw [widget_handlePartnerExit]
      rfl
  | closeCameraNotify ip =>
      show (s.closeImg ip).widget.mainip = _
      rw [Screen.closeImg]
      split <;> rfl
  | recvImage ip image =>
      show (s.addPartner ip).2.widget.mainip = _
      rw [widget_addPartner, MeetingWidget.addPartner]
      split_ifs <;> rfl
  | _ => exact absurd hmember (by simp [AboutMembers])

/-! ### From the response on -/

/-- The response lets the user in. -/
def LetsIn : Message Image → Prop
  | .createMeetingResponse roomNo => int32OfUInt32 roomNo ≠ 0
  | .joinMeetingResponse c => 0 < c
  | _ => False

variable (localIp) in
/-- What the window and the displays know of the others agrees, before the user is let in. -/
structure Settled (s : Screen) : Prop where
  nodup : s.widget.iplist.Nodup
  iplist : ∀ ip, ip ∈ s.widget.iplist ↔ ip ∈ s.widget.partner ∧ ip ≠ localIp
  displays : ∀ ip, ip ≠ localIp →
    (ip ∈ s.cameraVideo.partnerDisplays ↔ ip ∈ s.widget.partner)
  local_display : localIp ∈ s.widget.partner → localIp ∈ s.cameraVideo.partnerDisplays
  images : ∀ ip ∈ s.cameraVideo.lastImages, ip = localIp ∨ ip ∈ s.widget.partner

/-- An empty roster is settled. -/
theorem settled_init : Settled localIp {} where
  nodup := List.nodup_nil
  iplist := by simp
  displays := by simp
  local_display := by simp
  images := by simp

/-- A session that ends in agreement leaves the roster settled for the next one. -/
theorem settled_endMeetingSession {before : UInt32} (h : Coherent before s) :
    Settled localIp s.endMeetingSession := by
  have hcleared : s.clearPartner.cameraVideo = s.cameraVideo.clearAllPartnerDisplays := by
    have hsome : s.widget.partner ≠ ∅ := by
      intro hempty
      have hmain := h.main
      rw [hempty] at hmain
      exact Finset.notMem_empty _ hmain
    rw [Screen.clearPartner, if_neg hsome]
  have hwidget : s.endMeetingSession.widget.partner = ∅ ∧
      s.endMeetingSession.widget.iplist = [] := by
    show (MeetingWidget.endMeetingSession s.widget).1.partner = ∅ ∧
      (MeetingWidget.endMeetingSession s.widget).1.iplist = []
    rw [MeetingWidget.endMeetingSession]
    split_ifs <;> exact ⟨rfl, rfl⟩
  have hvideo : s.endMeetingSession.cameraVideo = s.cameraVideo.clearAllPartnerDisplays := hcleared
  refine ⟨?_, ?_, ?_, ?_, ?_⟩
  · rw [hwidget.2]
    exact List.nodup_nil
  · simp [hwidget.1, hwidget.2]
  · simp [hwidget.1, hvideo, CameraVideo.clearAllPartnerDisplays]
  · simp [hwidget.1]
  · simp [hvideo, CameraVideo.clearAllPartnerDisplays]

/-- A member who is added gets a display; of the others nothing changes. -/
theorem display_addPartner (ip other : UInt32) (s : Screen) :
    other ∈ (s.addPartner ip).2.cameraVideo.partnerDisplays ↔
      other ∈ s.cameraVideo.partnerDisplays ∨ other = ip ∧ ip ∉ s.widget.partner := by
  by_cases hknown : ip ∈ s.widget.partner
  · rw [addPartner_known hknown]
    simp [hknown]
  · rw [addPartner_new hknown]
    show other ∈ (s.cameraVideo.addPartnerDisplay ip).partnerDisplays ↔ _
    by_cases hdisplay : ip ∈ s.cameraVideo.partnerDisplays
    · rw [CameraVideo.addPartnerDisplay, if_pos hdisplay]
      constructor
      · exact Or.inl
      · rintro (hin | ⟨rfl, -⟩)
        · exact hin
        · exact hdisplay
    · rw [addPartnerDisplay_new hdisplay]
      show other ∈ insert ip s.cameraVideo.partnerDisplays ↔ _
      rw [Finset.mem_insert]
      constructor
      · rintro (rfl | hin)
        · exact Or.inr ⟨rfl, hknown⟩
        · exact Or.inl hin
      · rintro (hin | ⟨rfl, -⟩)
        · exact Or.inr hin
        · exact Or.inl rfl

/-- Adding a member takes no picture of anyone else away. -/
theorem image_addPartner {ip other : UInt32} (hne : other ≠ ip) (s : Screen) :
    other ∈ (s.addPartner ip).2.cameraVideo.lastImages ↔ other ∈ s.cameraVideo.lastImages := by
  by_cases hknown : ip ∈ s.widget.partner
  · rw [addPartner_known hknown]
  · rw [addPartner_new hknown]
    show other ∈ (s.cameraVideo.addPartnerDisplay ip).lastImages ↔ _
    by_cases hdisplay : ip ∈ s.cameraVideo.partnerDisplays
    · rw [CameraVideo.addPartnerDisplay, if_pos hdisplay]
    · rw [addPartnerDisplay_new hdisplay]
      show other ∈ s.cameraVideo.lastImages.erase ip ↔ _
      rw [Finset.mem_erase]
      exact ⟨And.right, fun hin => ⟨hne, hin⟩⟩

/-! What letting the user in does to each table. -/

theorem partner_enter (localIp : UInt32) (s : Screen) :
    (enter localIp s).widget.partner = insert localIp s.widget.partner := by
  rw [widget_enter]
  exact MeetingWidget.partner_addPartner localIp s.widget

theorem iplist_enter (localIp : UInt32) (s : Screen) :
    (enter localIp s).widget.iplist = s.widget.iplist := by
  rw [widget_enter, MeetingWidget.addPartner]
  split_ifs <;> rfl

theorem display_enter (localIp ip : UInt32) (s : Screen) :
    ip ∈ (enter localIp s).cameraVideo.partnerDisplays ↔
      ip ∈ s.cameraVideo.partnerDisplays ∨ ip = localIp ∧ localIp ∉ s.widget.partner :=
  display_addPartner localIp ip s

theorem image_enter {ip : UInt32} (hne : ip ≠ localIp) (s : Screen) :
    ip ∈ (enter localIp s).cameraVideo.lastImages ↔ ip ∈ s.cameraVideo.lastImages :=
  image_addPartner hne s

theorem Settled.enter (h : Settled localIp s) : Coherent localIp (Screen.enter localIp s) := by
  refine ⟨iplist_enter localIp s ▸ h.nodup, ?_, ?_, ?_, ?_⟩
  · intro ip
    rw [iplist_enter, h.iplist, partner_enter, Finset.mem_insert]
    constructor
    · rintro ⟨hin, hne⟩
      exact ⟨Or.inr hin, hne⟩
    · rintro ⟨rfl | hin, hne⟩
      · exact absurd rfl hne
      · exact ⟨hin, hne⟩
  · ext ip
    rw [display_enter, partner_enter, Finset.mem_insert]
    by_cases hne : ip = localIp
    · subst hne
      by_cases hin : ip ∈ s.widget.partner
      · simp [hin, h.local_display hin]
      · simp [hin]
    · simp [hne, h.displays ip hne]
  · intro ip hpicture
    rw [partner_enter, Finset.mem_insert]
    by_cases hne : ip = localIp
    · exact Or.inl hne
    · exact h.images ip ((image_enter hne s).mp hpicture)
  · rw [partner_enter, widget_enter]
    exact Finset.mem_insert_self ..

theorem Coherent.settled (h : Coherent localIp (enter localIp s)) : Settled localIp s := by
  refine ⟨iplist_enter localIp s ▸ h.nodup, ?_, ?_, ?_, ?_⟩
  · intro ip
    rw [← iplist_enter localIp s, h.iplist, partner_enter, Finset.mem_insert]
    constructor
    · rintro ⟨rfl | hin, hne⟩
      · exact absurd rfl hne
      · exact ⟨hin, hne⟩
    · rintro ⟨hin, hne⟩
      exact ⟨Or.inr hin, hne⟩
  · intro ip hne
    have hat := display_enter localIp ip s
    rw [h.displays, partner_enter, Finset.mem_insert] at hat
    simpa [hne] using hat.symm
  · intro hin
    have hat := display_enter localIp localIp s
    rw [h.displays, partner_enter] at hat
    simpa [hin] using hat
  · intro ip hpicture
    by_cases hne : ip = localIp
    · exact Or.inl hne
    · have hin := h.images ((image_enter hne s).mpr hpicture)
      rw [partner_enter, Finset.mem_insert] at hin
      exact hin

/-- Letting the user in is coherent exactly when what was there was settled. -/
theorem coherent_enter : Coherent localIp (enter localIp s) ↔ Settled localIp s :=
  ⟨Coherent.settled, Settled.enter⟩

variable (localIp) in
/-- The flags of the session do not matter for coherence. -/
theorem coherent_response {m : Message Image} (hm : LetsIn m) (s : Screen) :
    (Coherent localIp (s.onMessage localIp isNull m) ↔ Settled localIp s) ∧
      (s.onMessage localIp isNull m).widget.mainip = localIp := by
  cases m with
  | createMeetingResponse roomNo =>
      let s₁ : Screen := { s with widget :=
        { s.widget with roomNo := int32OfUInt32 roomNo, createmeet := true } }
      have hresponse : s.onMessage localIp isNull (.createMeetingResponse roomNo : Message Image)
          = enter localIp s₁ := by
        show handleCreateMeetingResponse localIp roomNo s = _
        rw [handleCreateMeetingResponse]
        exact if_pos hm
      have hsettled : Settled localIp s₁ ↔ Settled localIp s :=
        ⟨fun h => ⟨h.nodup, h.iplist, h.displays, h.local_display, h.images⟩,
          fun h => ⟨h.nodup, h.iplist, h.displays, h.local_display, h.images⟩⟩
      rw [hresponse, coherent_enter, hsettled, widget_enter]
      exact ⟨Iff.rfl, rfl⟩
  | joinMeetingResponse c =>
      have hbranch : MeetingWidget.joinBranch c = some .joined := by
        have hpos : 0 < c := hm
        rw [MeetingWidget.joinBranch, if_neg (by omega), if_neg (by omega), if_pos hpos]
      have hresponse : s.onMessage localIp isNull (.joinMeetingResponse c : Message Image)
          = { enter localIp s with
              widget := { (enter localIp s).widget with joinmeet := true } } := by
        show handleJoinMeetingResponse localIp c s = _
        rw [handleJoinMeetingResponse, hbranch]
      rw [hresponse, ← coherent_enter]
      refine ⟨⟨fun h => ⟨h.nodup, h.iplist, h.displays, h.images, h.main⟩,
        fun h => ⟨h.nodup, h.iplist, h.displays, h.images, h.main⟩⟩, ?_⟩
      show (enter localIp s).widget.mainip = localIp
      rw [widget_enter]
  | _ => exact absurd hm id

/-- **The members on the screen agree after every message exactly when** they were settled before
the user was let in and every message since has been sound. -/
theorem coherentThroughout_iff {m : Message Image} (hm : LetsIn m) (s : Screen)
    (es : List (Message Image)) :
    Throughout (step localIp isNull) (Coherent localIp) (s.onMessage localIp isNull m) es ↔
      Settled localIp s ∧
        Steps (step localIp isNull) (Sound localIp) (s.onMessage localIp isNull m) es := by
  obtain ⟨hstart, hmain⟩ := coherent_response localIp isNull hm s
  constructor
  · intro h
    refine ⟨hstart.mp h.head, ?_⟩
    have hseated : Throughout (step localIp isNull) (Seated localIp)
        (s.onMessage localIp isNull m) es :=
      (h.and_invariant (J := fun s => s.widget.mainip = localIp)
        (fun _ _ _ hJ hstep => (mainip_step isNull hstep).trans hJ) hmain).mono
        fun _ hboth => { hboth.1 with mainip := hboth.2 }
    refine steps_of_throughout (fun s m hs hunsound => ?_) hseated
    obtain ⟨s', hstep, hspoiled⟩ := hs.spoiled isNull hunsound
    exact ⟨s', hstep, fun hs' => hspoiled hs'.toCoherent⟩
  · rintro ⟨hsettled, hsteps⟩
    have hseated : Seated localIp (s.onMessage localIp isNull m) :=
      { hstart.mpr hsettled with mainip := hmain }
    exact (throughout_of_step (fun _ _ _ hs hsound hstep => hs.step isNull hsound hstep)
      hseated hsteps).mono fun _ hs => hs.toCoherent

/-- The user, at address 1, has opened room 7. -/
def sampleEntry : Screen :=
  onMessage 1 (fun _ : Unit => false) (.createMeetingResponse 7) {}

/-- Someone comes, shows a picture, switches the camera off and leaves. -/
def sampleVisit : List (Message Unit) :=
  [.partnerJoin 2, .recvImage 2 (), .closeCameraNotify 2, .partnerExit 2]

/-- The visit, and the same visit in a meeting after the first has ended. -/
theorem coherentThroughout_sampleVisit :
    let after := sampleVisit.foldl (fun s m => s.onMessage 1 (fun _ => false) m) sampleEntry
    Throughout (step 1 fun _ => false) (Coherent 1) sampleEntry sampleVisit ∧
      Throughout (step 1 fun _ => false) (Coherent 1)
        (after.endMeetingSession.onMessage 1 (fun _ : Unit => false) (.createMeetingResponse 8))
        sampleVisit := by
  intro after
  have hfirst : Throughout (step 1 fun _ => false) (Coherent 1) sampleEntry sampleVisit :=
    (coherentThroughout_iff (fun _ : Unit => false) (m := .createMeetingResponse 7)
      (show int32OfUInt32 7 ≠ 0 by decide) {} sampleVisit).mpr
      ⟨settled_init, by decide +kernel⟩
  have hcoherent : Coherent 1 after := hfirst.last rfl
  refine ⟨hfirst, ?_⟩
  exact (coherentThroughout_iff (fun _ : Unit => false) (m := .createMeetingResponse 8)
    (show int32OfUInt32 8 ≠ 0 by decide) after.endMeetingSession sampleVisit).mpr
    ⟨settled_endMeetingSession hcoherent, by decide +kernel⟩

/-- Someone not announced shows a picture; or someone leaves with the camera on. -/
theorem pictureLeft :
    ¬ Throughout (step 1 fun _ : Unit => false) (Coherent 1) sampleEntry [.recvImage 2 ()] ∧
      ¬ Throughout (step 1 fun _ : Unit => false) (Coherent 1) sampleEntry
        [.partnerJoin 2, .recvImage 2 (), .partnerExit 2] := by
  constructor
  · intro h
    have hlisted : (2 : UInt32) ∈ ([] : List UInt32) :=
      ((h.2 _ rfl).iplist 2).mpr (by decide)
    exact List.not_mem_nil hlisted
  · intro h
    have himages := (((h.2 _ rfl).2 _ rfl).2 _ rfl).images
    exact absurd (himages (show (2 : UInt32) ∈ _ by decide)) (by decide)

end Coherence

end Screen

end CloudMeeting.Client
