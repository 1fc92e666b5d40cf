/-
The pictures on the screen.

Every member has a tile with a label, and the label in the middle is everybody's in turn:
it follows one member, `mainIp`.  `CameraVideo` draws on all of them.  It draws when a
picture comes, when the own camera takes one, when a camera goes off, when somebody comes
or goes and when a tile is clicked, each time on the labels it thinks concerned, and what
it has drawn before stays where it is.

What should be seen is easily said (`Album`): of every member the last picture since it
came or switched its camera off, and in the middle what the tile of the member there
shows.  The tiles always show it.  For the middle, and for the border around the tile
chosen, it takes that the user is let in as somebody new (`pictures`).
-/
import CloudMeeting.Client.Screen

namespace CloudMeeting.Client.Pictures

open Run

/-- What a label shows. -/
inductive Shown (Image : Type) where
  | blank
  | avatar
  | picture (image : Image)
deriving DecidableEq, Repr

variable {Image : Type}

/-- The last picture, or the avatar for want of one. -/
def Shown.ofLast : Option Image → Shown Image
  | some image => .picture image
  | none => .avatar

/-! ### The displays and what they show -/

structure CameraVideo (Image : Type) where
  localIp : UInt32 := 0
  mainIp : UInt32 := 0
  /-- For every display, what its label shows. -/
  partnerDisplays : UInt32 → Option (Shown Image) := fun _ => none
  lastImages : UInt32 → Option Image := fun _ => none
  /-- What the label in the middle shows. -/
  mainshow : Shown Image := .blank
  isRunning : Bool := false
  /-- Whether the frames of the sink arrive here. -/
  sink : Bool := true

namespace CameraVideo

/-- Show something on the display of `ip`, if there is one. -/
def draw (ip : UInt32) (shown : Shown Image) (v : CameraVideo Image) : CameraVideo Image :=
  { v with partnerDisplays :=
      Function.update v.partnerDisplays ip ((v.partnerDisplays ip).map fun _ => shown) }

variable (isNull : Image → Bool)

def showMainImage (image : Image) (v : CameraVideo Image) : CameraVideo Image :=
  if isNull image then v else { v with mainshow := .picture image }

def showMainAvatar (v : CameraVideo Image) : CameraVideo Image := { v with mainshow := .avatar }

def showImageForIp (ip : UInt32) (image : Image) (v : CameraVideo Image) : CameraVideo Image :=
  if isNull image then v
  else
    let v := { v with lastImages := Function.update v.lastImages ip (some image) }
    let v := v.draw ip (.picture image)
    if ip = v.mainIp then v.showMainImage isNull image else v

def showAvatarForIp (ip : UInt32) (v : CameraVideo Image) : CameraVideo Image :=
  let v := { v with lastImages := Function.update v.lastImages ip none }
  let v := v.draw ip .avatar
  if ip = v.mainIp then v.showMainAvatar else v

/-- A display for a label that shows nothing yet. -/
def addPartnerDisplay (ip : UInt32) (v : CameraVideo Image) : CameraVideo Image :=
  if (v.partnerDisplays ip).isSome then v
  else showAvatarForIp ip
    { v with partnerDisplays := Function.update v.partnerDisplays ip (some .blank) }

def removePartnerDisplay (ip : UInt32) (v : CameraVideo Image) : CameraVideo Image :=
  { v with partnerDisplays := Function.update v.partnerDisplays ip none }

def clearAllPartnerDisplays (v : CameraVideo Image) : CameraVideo Image :=
  { v with partnerDisplays := fun _ => none, lastImages := fun _ => none }

def refreshMainForIp (ip : UInt32) (v : CameraVideo Image) : CameraVideo Image :=
  let v := { v with mainIp := ip }
  match v.lastImages ip with
  | some image => v.showMainImage isNull image
  | none => v.showMainAvatar

def startCamera (v : CameraVideo Image) : CameraVideo Image :=
  if v.isRunning then v else { v with sink := true, isRunning := true }

def stopCamera (v : CameraVideo Image) : CameraVideo Image := { v with isRunning := false }

def endVideo (v : CameraVideo Image) : CameraVideo Image :=
  { v.stopCamera with
    sink := false
    mainshow := .blank
    partnerDisplays := fun ip => (v.partnerDisplays ip).map fun _ => .blank }

def cameraImageCapture (image : Image) (v : CameraVideo Image) : CameraVideo Image :=
  if v.localIp = 0 then v else v.showImageForIp isNull v.localIp image

end CameraVideo

/-! ### The window -/

structure Window (Image : Type) where
  widget : MeetingWidget := {}
  cameraVideo : CameraVideo Image := {}
  /-- The members whose tile has the border of the one chosen. -/
  selected : Finset UInt32 := ∅
  /-- The address above the label in the middle. -/
  title : Option UInt32 := none

namespace Window

def addPartner (ip : UInt32) (w : Window Image) : Bool × Window Image :=
  match MeetingWidget.addPartner ip w.widget with
  | (true, widget) => (true, { w with widget := widget
                                      cameraVideo := w.cameraVideo.addPartnerDisplay ip
                                      selected := w.selected.erase ip })
  | (false, widget) => (false, { w with widget := widget })

def removePartner (ip : UInt32) (w : Window Image) : Window Image :=
  if ip ∈ w.widget.partner then
    { w with widget := w.widget.removePartner ip
             cameraVideo := w.cameraVideo.removePartnerDisplay ip
             selected := w.selected.erase ip }
  else w

def clearPartner (w : Window Image) : Window Image :=
  if w.widget.partner = ∅ then w
  else { w with widget := w.widget.clearPartner
                cameraVideo := w.cameraVideo.clearAllPartnerDisplays
                selected := ∅ }

def endMeetingSession (w : Window Image) : Window Image :=
  let ended := clearPartner { w with cameraVideo := w.cameraVideo.endVideo }
  { ended with widget := (MeetingWidget.endMeetingSession w.widget).1, title := none }

def closeEvent (w : Window Image) : Window Image :=
  if w.widget.sessionEnding then { w with widget := (MeetingWidget.closeEvent w.widget).1 }
  else
    { w.endMeetingSession with widget := (MeetingWidget.closeEvent w.widget).1 }

def closeImg (ip : UInt32) (w : Window Image) : Window Image :=
  if ip ∈ w.widget.partner then { w with cameraVideo := w.cameraVideo.showAvatarForIp ip } else w

/-- A click on the tile of a member. -/
def onRecvIp (isNull : Image → Bool) (ip : UInt32) (w : Window Image) : Window Image :=
  let selected := if w.widget.mainip ∈ w.widget.partner then w.selected.erase w.widget.mainip
    else w.selected
  let selected := if ip ∈ w.widget.partner then insert ip selected else selected
  { widget := { w.widget with mainip := ip }
    cameraVideo := w.cameraVideo.refreshMainForIp isNull ip
    selected := selected
    title := some ip }

def onOpenVideoClicked (localIp : UInt32) (w : Window Image) : Window Image :=
  if w.cameraVideo.isRunning then
    closeImg localIp { w with cameraVideo := w.cameraVideo.stopCamera }
  else { w with cameraVideo := w.cameraVideo.startCamera }

section Messages

variable (localIp : UInt32)

/-- The part of the handlers of the two responses that lets the user in. -/
def enter (w : Window Image) : Window Image :=
  let w := (w.addPartner localIp).2
  { w with
    widget := { w.widget with mainip := localIp }
    cameraVideo := CameraVideo.showMainAvatar
      { w.cameraVideo with localIp := localIp, mainIp := localIp }
    title := some localIp }

def handleCreateMeetingResponse (roomNo : UInt32) (w : Window Image) : Window Image :=
  let roomno := int32OfUInt32 roomNo
  if roomno ≠ 0 then
    enter localIp { w with widget := { w.widget with roomNo := roomno, createmeet := true } }
  else { w with widget := { w.widget with createmeet := false } }

def handleJoinMeetingResponse (c : Int) (w : Window Image) : Window Image :=
  match MeetingWidget.joinBranch c with
  | some .notExist => { w with widget := { w.widget with joinmeet := false, roomNo := 0 } }
  | some .full => w
  | some .joined =>
      let w := enter localIp w
      { w with widget := { w.widget with joinmeet := true } }
  | none => w

def handlePartnerJoin (ip : UInt32) (w : Window Image) : Window Image :=
  match w.addPartner ip with
  | (true, w) => { w with widget := { w.widget with iplist := w.widget.iplist ++ [ip] }
                          cameraVideo := w.cameraVideo.showAvatarForIp ip }
  | (false, w) => w

def handlePartnerExit (ip : UInt32) (w : Window Image) : Window Image :=
  let w := w.removePartner ip
  let w :=
    if w.widget.mainip = ip then { w with cameraVideo := w.cameraVideo.showMainAvatar } else w
  { w with widget := { w.widget with iplist := w.widget.iplist.erase ip } }

def handlePartnerJoin2 (partnerIps : List UInt32) (w : Window Image) : Window Image :=
  partnerIps.foldl (fun w ip => w.handlePartnerJoin ip) w

def handleNetError (w : Window Image) : Window Image :=
  if w.widget.sessionEnding then w else w.endMeetingSession

variable (isNull : Image → Bool)

def handleImgRecv (ip : UInt32) (image : Image) (w : Window Image) : Window Image :=
  let w := (w.addPartner ip).2
  { w with cameraVideo := w.cameraVideo.showImageForIp isNull ip image }

def onMessage : Message Image → Window Image → Window Image
  | .createMeetingResponse roomNo => handleCreateMeetingResponse localIp roomNo
  | .joinMeetingResponse c => handleJoinMeetingResponse localIp c
  | .remoteHostClosedError => handleNetError
  | .otherNetError => handleNetError
  | .recvImage ip image => handleImgRecv isNull ip image
  | .partnerJoin ip => handlePartnerJoin ip
  | .partnerExit ip => handlePartnerExit ip
  | .partnerJoin2 partnerIps => handlePartnerJoin2 partnerIps
  | .closeCameraNotify ip => closeImg ip
  | _ => id

end Messages

end Window

/-- What happens to the window. -/
inductive Event (Image : Type) where
  /-- A message arrives, while the network has this address for the user. -/
  | message (localIp : UInt32) (msg : Message Image)
  /-- The tile of a member is clicked. -/
  | clicked (ip : UInt32)
  /-- The button of the camera is clicked. -/
  | openVideo (localIp : UInt32)
  /-- The camera has taken a picture. -/
  | frame (image : Image)
  /-- The window is closed. -/
  | close
  /-- The slots that connect and disconnect leave these flags. -/
  | flags (connecting sessionActive sessionEnding : Bool)

/-- Only a member has a tile, and frames arrive only through the sink. -/
def Window.step (isNull : Image → Bool) (w : Window Image) : Event Image → Option (Window Image)
  | .message localIp msg => some (w.onMessage localIp isNull msg)
  | .clicked ip => if ip ∈ w.widget.partner then some (w.onRecvIp isNull ip) else none
  | .openVideo localIp => some (w.onOpenVideoClicked localIp)
  | .frame image =>
      if w.cameraVideo.sink then
        some { w with cameraVideo := w.cameraVideo.cameraImageCapture isNull image }
      else none
  | .close => some w.closeEvent
  | .flags connecting sessionActive sessionEnding =>
      some { w with widget := { w.widget with
        connecting := connecting, sessionActive := sessionActive, sessionEnding := sessionEnding } }

/-! ### The screen without its pictures -/

/-- `s` keeps of the displays which there are and who has left a picture. -/
structure Shows (w : Window Image) (s : Screen) : Prop where
  widget : w.widget = s.widget
  localIp : w.cameraVideo.localIp = s.cameraVideo.localIp
  mainIp : w.cameraVideo.mainIp = s.cameraVideo.mainIp
  displays : ∀ ip, (w.cameraVideo.partnerDisplays ip).isSome ↔ ip ∈ s.cameraVideo.partnerDisplays
  images : ∀ ip, (w.cameraVideo.lastImages ip).isSome ↔ ip ∈ s.cameraVideo.lastImages

namespace CameraVideo

variable (v : CameraVideo Image) (isNull : Image → Bool) (ip : UInt32)

@[simp] theorem isSome_draw (shown : Shown Image) (other : UInt32) :
    ((v.draw ip shown).partnerDisplays other).isSome = (v.partnerDisplays other).isSome := by
  simp only [draw, Function.update_apply]
  split
  · rename_i heq
    rw [heq, Option.isSome_map]
  · rfl

@[simp] theorem lastImages_draw (shown : Shown Image) :
    (v.draw ip shown).lastImages = v.lastImages := rfl

@[simp] theorem mainshow_draw (shown : Shown Image) : (v.draw ip shown).mainshow = v.mainshow := rfl

@[simp] theorem mainIp_draw (shown : Shown Image) : (v.draw ip shown).mainIp = v.mainIp := rfl

/-- Showing the avatar of a member changes only what is shown of it, there and in the middle. -/
theorem showAvatarForIp_spec :
    (v.showAvatarForIp ip).partnerDisplays = (v.draw ip .avatar).partnerDisplays ∧
      (v.showAvatarForIp ip).lastImages = Function.update v.lastImages ip none ∧
      (v.showAvatarForIp ip).mainshow = (if ip = v.mainIp then .avatar else v.mainshow) ∧
      (v.showAvatarForIp ip).localIp = v.localIp ∧ (v.showAvatarForIp ip).mainIp = v.mainIp ∧
      (v.showAvatarForIp ip).isRunning = v.isRunning := by
  let drawn := draw ip .avatar { v with lastImages := Function.update v.lastImages ip none }
  by_cases hmain : ip = v.mainIp
  · have hshown : v.showAvatarForIp ip = drawn.showMainAvatar := if_pos hmain
    rw [hshown, if_pos hmain]
    exact ⟨rfl, rfl, rfl, rfl, rfl, rfl⟩
  · have hshown : v.showAvatarForIp ip = drawn := if_neg hmain
    rw [hshown, if_neg hmain]
    exact ⟨rfl, rfl, rfl, rfl, rfl, rfl⟩

/-- So does showing a picture of it, which is remembered. -/
theorem showImageForIp_spec {image : Image} (himage : isNull image = false) :
    (v.showImageForIp isNull ip image).partnerDisplays
        = (v.draw ip (.picture image)).partnerDisplays ∧
      (v.showImageForIp isNull ip image).lastImages = Function.update v.lastImages ip (some image) ∧
      (v.showImageForIp isNull ip image).mainshow
        = (if ip = v.mainIp then .picture image else v.mainshow) ∧
      (v.showImageForIp isNull ip image).localIp = v.localIp ∧
      (v.showImageForIp isNull ip image).mainIp = v.mainIp ∧
      (v.showImageForIp isNull ip image).isRunning = v.isRunning := by
  let drawn := draw ip (.picture image)
    { v with lastImages := Function.update v.lastImages ip (some image) }
  have hshow : v.showImageForIp isNull ip image
      = if ip = v.mainIp then drawn.showMainImage isNull image else drawn :=
    if_neg (by rw [himage]; exact Bool.false_ne_true)
  by_cases hmain : ip = v.mainIp
  · have hshown : v.showImageForIp isNull ip image = { drawn with mainshow := .picture image } := by
      rw [hshow, if_pos hmain, showMainImage, himage]
      rfl
    rw [hshown, if_pos hmain]
    exact ⟨rfl, rfl, rfl, rfl, rfl, rfl⟩
  · have hshown : v.showImageForIp isNull ip image = drawn := hshow.trans (if_neg hmain)
    rw [hshown, if_neg hmain]
    exact ⟨rfl, rfl, rfl, rfl, rfl, rfl⟩

theorem showImageForIp_null {image : Image} (himage : isNull image = true) :
    v.showImageForIp isNull ip image = v := by
  rw [showImageForIp, if_pos himage]

/-- What has a display already keeps it. -/
theorem addPartnerDisplay_known (h : (v.partnerDisplays ip).isSome) :
    v.addPartnerDisplay ip = v := by
  rw [addPartnerDisplay, if_pos h]

theorem addPartnerDisplay_new (h : v.partnerDisplays ip = none) :
    v.addPartnerDisplay ip = showAvatarForIp ip
      { v with partnerDisplays := Function.update v.partnerDisplays ip (some .blank) } := by
  rw [addPartnerDisplay, h]
  rfl

end CameraVideo

namespace Shows

variable {w : Window Image} {s : Screen} (isNull : Image → Bool)

/-- A member is made for the same addresses. -/
theorem addPartner (h : Shows w s) (ip : UInt32) :
    (w.addPartner ip).1 = (s.addPartner ip).1 ∧ Shows (w.addPartner ip).2 (s.addPartner ip).2 := by
  rw [Window.addPartner, Screen.addPartner, ← h.widget]
  cases hadd : MeetingWidget.addPartner ip w.widget with
  | mk new widget =>
      cases new with
      | false => exact ⟨rfl, rfl, h.localIp, h.mainIp, h.displays, h.images⟩
      | true =>
          refine ⟨rfl, ?_⟩
          simp only [Client.CameraVideo.addPartnerDisplay]
          by_cases hdisplay : ip ∈ s.cameraVideo.partnerDisplays
          · have hkey := (h.displays ip).mpr hdisplay
            rw [if_pos hdisplay, w.cameraVideo.addPartnerDisplay_known ip hkey]
            exact ⟨rfl, h.localIp, h.mainIp, h.displays, h.images⟩
          · have hnone : w.cameraVideo.partnerDisplays ip = none := by
              rw [← Option.not_isSome_iff_eq_none, h.displays]
              exact hdisplay
            rw [if_neg hdisplay, w.cameraVideo.addPartnerDisplay_new ip hnone]
            let blank : CameraVideo Image :=
              { w.cameraVideo with
                partnerDisplays := Function.update w.cameraVideo.partnerDisplays ip (some .blank) }
            obtain ⟨h1, h2, -, h4, h5, -⟩ := blank.showAvatarForIp_spec ip
            refine ⟨rfl, h4.trans h.localIp, h5.trans h.mainIp, fun other => ?_, fun other => ?_⟩
            · rw [h1, CameraVideo.isSome_draw]
              simp only [blank, Function.update_apply, Client.CameraVideo.showAvatarForIp,
                Finset.mem_insert]
              split
              · rename_i heq
                simp [heq]
              · rename_i hne
                simp [hne, h.displays]
            · rw [h2]
              simp only [Function.update_apply, Client.CameraVideo.showAvatarForIp,
                Finset.mem_erase]
              split
              · rename_i heq
                simp [heq]
              · rename_i hne
                simp [blank, hne, h.images]

theorem showAvatar (h : Shows w s) (ip : UInt32) :
    Shows { w with cameraVideo := w.cameraVideo.showAvatarForIp ip }
      { s with cameraVideo := s.cameraVideo.showAvatarForIp ip } := by
  obtain ⟨h1, h2, -, h4, h5, -⟩ := w.cameraVideo.showAvatarForIp_spec ip
  refine ⟨h.widget, h4.trans h.localIp, h5.trans h.mainIp, fun other => ?_, fun other => ?_⟩
  · show ((w.cameraVideo.showAvatarForIp ip).partnerDisplays other).isSome ↔ _
    rw [h1, CameraVideo.isSome_draw]
    exact h.displays other
  · show ((w.cameraVideo.showAvatarForIp ip).lastImages other).isSome ↔ _
    rw [h2]
    simp only [Function.update_apply, Client.CameraVideo.showAvatarForIp, Finset.mem_erase]
    split
    · rename_i heq
      simp [heq]
    · rename_i hne
      simp [hne, h.images]

theorem enter (h : Shows w s) (localIp : UInt32) :
    Shows (w.enter localIp) (Screen.enter localIp s) := by
  have hadd := (h.addPartner localIp).2
  refine ⟨?_, rfl, rfl, hadd.displays, hadd.images⟩
  show { (w.addPartner localIp).2.widget with mainip := localIp }
    = { (s.addPartner localIp).2.widget with mainip := localIp }
  rw [hadd.widget]

theorem partnerJoin (h : Shows w s) (ip : UInt32) :
    Shows (w.handlePartnerJoin ip) (s.handlePartnerJoin ip) := by
  obtain ⟨hnew, hadd⟩ := h.addPartner ip
  rw [Window.handlePartnerJoin, Screen.handlePartnerJoin]
  cases hw : w.addPartner ip with
  | mk new w' =>
      cases hs : s.addPartner ip with
      | mk new' s' =>
          rw [hw, hs] at hnew hadd
          have hnew' : new = new' := hnew
          subst hnew'
          cases new with
          | false => exact hadd
          | true =>
              have havatar := hadd.showAvatar ip
              refine ⟨?_, havatar.localIp, havatar.mainIp, havatar.displays, havatar.images⟩
              show { w'.widget with iplist := w'.widget.iplist ++ [ip] }
                = { s'.widget with iplist := s'.widget.iplist ++ [ip] }
              rw [hadd.widget]

theorem partnerExit (h : Shows w s) (ip : UInt32) :
    Shows (w.handlePartnerExit ip) (s.handlePartnerExit ip) := by
  have hremoved : Shows (w.removePartner ip) (s.removePartner ip) := by
    rw [Window.removePartner, Screen.removePartner, ← h.widget]
    split
    · refine ⟨rfl, h.localIp, h.mainIp, fun other => ?_, h.images⟩
      simp only [CameraVideo.removePartnerDisplay, Client.CameraVideo.removePartnerDisplay,
        Function.update_apply, Finset.mem_erase]
      split
      · rename_i heq
        simp [heq]
      · rename_i hne
        simp [hne, h.displays]
    · exact h
  rw [Window.handlePartnerExit, Screen.handlePartnerExit]
  split
  · exact ⟨by simp only [hremoved.widget], hremoved.localIp, hremoved.mainIp, hremoved.displays,
      hremoved.images⟩
  · exact ⟨by simp only [hremoved.widget], hremoved.localIp, hremoved.mainIp, hremoved.displays,
      hremoved.images⟩

theorem endMeetingSession (h : Shows w s) : Shows w.endMeetingSession s.endMeetingSession := by
  rw [Window.endMeetingSession, Screen.endMeetingSession, Window.clearPartner, Screen.clearPartner,
    ← h.widget]
  split
  · refine ⟨rfl, h.localIp, h.mainIp, fun ip => ?_, h.images⟩
    show ((w.cameraVideo.partnerDisplays ip).map _).isSome ↔ _
    rw [Option.isSome_map]
    exact h.displays ip
  · refine ⟨rfl, h.localIp, h.mainIp, fun ip => ?_, fun ip => ?_⟩ <;>
      simp [CameraVideo.clearAllPartnerDisplays, Client.CameraVideo.clearAllPartnerDisplays]

theorem handleCreateMeetingResponse (h : Shows w s) (localIp roomNo : UInt32) :
    Shows (w.handleCreateMeetingResponse localIp roomNo)
      (s.handleCreateMeetingResponse localIp roomNo) := by
  rw [Window.handleCreateMeetingResponse, Screen.handleCreateMeetingResponse]
  split_ifs
  · let created : MeetingWidget :=
      { w.widget with roomNo := int32OfUInt32 roomNo, createmeet := true }
    have hcreated : Shows { w with widget := created } { s with widget := created } :=
      ⟨rfl, h.localIp, h.mainIp, h.displays, h.images⟩
    simp only [created, h.widget] at hcreated ⊢
    exact hcreated.enter localIp
  · exact ⟨by simp only [h.widget], h.localIp, h.mainIp, h.displays, h.images⟩

theorem handleJoinMeetingResponse (h : Shows w s) (localIp : UInt32) (c : Int) :
    Shows (w.handleJoinMeetingResponse localIp c) (s.handleJoinMeetingResponse localIp c) := by
  rw [Window.handleJoinMeetingResponse, Screen.handleJoinMeetingResponse]
  cases MeetingWidget.joinBranch c with
  | none => exact h
  | some branch =>
      cases branch with
      | full => exact h
      | notExist => exact ⟨by simp only [h.widget], h.localIp, h.mainIp, h.displays, h.images⟩
      | joined =>
          have hin := h.enter localIp
          exact ⟨by simp only [hin.widget], hin.localIp, hin.mainIp, hin.displays, hin.images⟩

theorem handleNetError (h : Shows w s) : Shows w.handleNetError s.handleNetError := by
  rw [Window.handleNetError, Screen.handleNetError, ← h.widget]
  split
  · exact h
  · exact h.endMeetingSession

theorem handleImgRecv (h : Shows w s) (ip : UInt32) (image : Image) :
    Shows (w.handleImgRecv isNull ip image) (s.handleImgRecv isNull ip image) := by
  have hadd := (h.addPartner ip).2
  rw [Window.handleImgRecv, Screen.handleImgRecv, Client.CameraVideo.showImageForIp]
  cases hnull : isNull image with
  | true =>
      rw [CameraVideo.showImageForIp_null _ isNull ip hnull]
      exact hadd
  | false =>
      obtain ⟨h1, h2, -, h4, h5, -⟩ :=
        (w.addPartner ip).2.cameraVideo.showImageForIp_spec isNull ip hnull
      refine ⟨hadd.widget, h4.trans hadd.localIp, h5.trans hadd.mainIp, fun other => ?_,
        fun other => ?_⟩
      · simp only [h1, CameraVideo.isSome_draw]
        exact hadd.displays other
      · simp only [h2, Function.update_apply, Bool.false_eq_true, if_false, Finset.mem_insert]
        split
        · rename_i heq
          simp [heq]
        · rename_i hne
          simp [hne, hadd.images]

theorem handlePartnerJoin2 (h : Shows w s) (partnerIps : List UInt32) :
    Shows (w.handlePartnerJoin2 partnerIps) (s.handlePartnerJoin2 partnerIps) := by
  rw [Window.handlePartnerJoin2, Screen.handlePartnerJoin2]
  induction partnerIps generalizing w s with
  | nil => exact h
  | cons ip ips ih => exact ih (h.partnerJoin ip)

theorem closeImg (h : Shows w s) (ip : UInt32) : Shows (w.closeImg ip) (s.closeImg ip) := by
  rw [Window.closeImg, Screen.closeImg, h.widget]
  split
  · exact h.widget ▸ h.showAvatar ip
  · exact h

/-- **Of every message the screen keeps what the window does**, pictures aside. -/
theorem onMessage (h : Shows w s) (localIp : UInt32) (msg : Message Image) :
    Shows (w.onMessage localIp isNull msg) (s.onMessage localIp isNull msg) := by
  cases msg with
  | createMeetingResponse roomNo => exact h.handleCreateMeetingResponse localIp roomNo
  | joinMeetingResponse c => exact h.handleJoinMeetingResponse localIp c
  | remoteHostClosedError => exact h.handleNetError
  | otherNetError => exact h.handleNetError
  | recvImage ip image => exact h.handleImgRecv isNull ip image
  | partnerJoin ip => exact h.partnerJoin ip
  | partnerExit ip => exact h.partnerExit ip
  | partnerJoin2 partnerIps => exact h.handlePartnerJoin2 partnerIps
  | closeCameraNotify ip => exact h.closeImg ip
  | createMeeting => exact h
  | joinMeeting roomNo => exact h
  | exitMeeting => exact h
  | closeCamera => exact h
  | sendText text => exact h
  | sendImage image => exact h
  | sendAudio audio => exact h
  | recvText ip text => exact h
  | recvAudio ip audio => exact h

end Shows

/-! ### What should be seen -/

/-- The members, and of everybody the last picture that is still to be seen. -/
structure Album (Image : Type) where
  members : Finset UInt32 := ∅
  seen : UInt32 → Option Image := fun _ => none
  localIp : UInt32 := 0
  cameraOn : Bool := false

namespace Album

/-- Nothing is seen of somebody any more. -/
def forget (ip : UInt32) (a : Album Image) : Album Image :=
  { a with seen := Function.update a.seen ip none }

/-- Somebody is there, and has shown nothing yet. -/
def meet (ip : UInt32) (a : Album Image) : Album Image :=
  if ip ∈ a.members then a else { a.forget ip with members := insert ip a.members }

variable (isNull : Image → Bool)

def look (ip : UInt32) (image : Image) (a : Album Image) : Album Image :=
  if isNull image then a else { a with seen := Function.update a.seen ip (some image) }

def ended (a : Album Image) : Album Image :=
  { a with members := ∅, seen := fun _ => none, cameraOn := false }

def told (localIp : UInt32) (msg : Message Image) (a : Album Image) : Album Image :=
  match msg with
  | .createMeetingResponse roomNo =>
      if int32OfUInt32 roomNo ≠ 0 then { a.meet localIp with localIp := localIp } else a
  | .joinMeetingResponse c => if 0 < c then { a.meet localIp with localIp := localIp } else a
  | .recvImage ip image => (a.meet ip).look isNull ip image
  | .partnerJoin ip => a.meet ip
  | .partnerJoin2 partnerIps => partnerIps.foldl (fun a ip => a.meet ip) a
  | .partnerExit ip => { a.forget ip with members := a.members.erase ip }
  | .closeCameraNotify ip => if ip ∈ a.members then a.forget ip else a
  | _ => a

def after : Event Image → Album Image → Album Image
  | .message localIp msg => told isNull localIp msg
  | .openVideo localIp => fun a =>
      if a.cameraOn then
        let a := { a with cameraOn := false }
        if localIp ∈ a.members then a.forget localIp else a
      else { a with cameraOn := true }
  | .frame image => fun a => if a.localIp = 0 then a else a.look isNull a.localIp image
  | _ => id

end Album

/-- The session ends. -/
def Window.ends (w : Window Image) : Event Image → Bool
  | .close => !w.widget.sessionEnding
  | .message _ .remoteHostClosedError => !w.widget.sessionEnding
  | .message _ .otherNetError => !w.widget.sessionEnding
  | _ => false

/-- The window, and what should be seen in it. -/
structure Hall (Image : Type) where
  window : Window Image := {}
  album : Album Image := {}

def Hall.step (isNull : Image → Bool) (h : Hall Image) (e : Event Image) : Option (Hall Image) :=
  (h.window.step isNull e).map fun w =>
    ⟨w, if h.window.ends e then h.album.ended else h.album.after isNull e⟩

/-! ### What the displays keep -/

/-- The displays are those of the members, and show what is to be seen of them. -/
structure Hangs (members : Finset UInt32) (seen : UInt32 → Option Image) (v : CameraVideo Image) :
    Prop where
  displays : ∀ ip, v.partnerDisplays ip = if ip ∈ members then some (.ofLast (seen ip)) else none
  images : ∀ ip ∈ members, v.lastImages ip = seen ip

namespace Hangs

variable {members : Finset UInt32} {seen : UInt32 → Option Image} {v : CameraVideo Image}
  {isNull : Image → Bool}

/-- Something is drawn and remembered of `ip`. -/
theorem draw (h : Hangs members seen v) (ip : UInt32) (last : Option Image)
    {v' : CameraVideo Image} (hdisplays : v'.partnerDisplays
      = (v.draw ip (.ofLast last)).partnerDisplays)
    (himages : v'.lastImages = Function.update v.lastImages ip last) :
    Hangs members (Function.update seen ip last) v' := by
  constructor
  · intro other
    rw [hdisplays]
    simp only [CameraVideo.draw, Function.update_apply]
    by_cases heq : other = ip
    · rw [if_pos heq, if_pos heq, h.displays ip, heq]
      split <;> rfl
    · rw [if_neg heq, if_neg heq]
      exact h.displays other
  · intro other hother
    rw [himages]
    simp only [Function.update_apply]
    split
    · rfl
    · exact h.images other hother

theorem avatar (h : Hangs members seen v) (ip : UInt32) :
    Hangs members (Function.update seen ip none) (v.showAvatarForIp ip) := by
  obtain ⟨h1, h2, -⟩ := v.showAvatarForIp_spec ip
  exact h.draw ip none h1 h2

theorem image (h : Hangs members seen v) (ip : UInt32) {image : Image}
    (himage : isNull image = false) :
    Hangs members (Function.update seen ip (some image)) (v.showImageForIp isNull ip image) := by
  obtain ⟨h1, h2, -⟩ := v.showImageForIp_spec isNull ip himage
  exact h.draw ip (some image) h1 h2

/-- Somebody new gets a display. -/
theorem add (h : Hangs members seen v) {ip : UInt32} (hnew : ip ∉ members) :
    Hangs (insert ip members) (Function.update seen ip none) (v.addPartnerDisplay ip) := by
  have hnone : v.partnerDisplays ip = none := by
    rw [h.displays ip, if_neg hnew]
  let blank : CameraVideo Image :=
    { v with partnerDisplays := Function.update v.partnerDisplays ip (some .blank) }
  obtain ⟨h1, h2, -⟩ := blank.showAvatarForIp_spec ip
  rw [v.addPartnerDisplay_new ip hnone]
  constructor
  · intro other
    rw [h1]
    simp only [CameraVideo.draw, blank, Function.update_apply]
    by_cases heq : other = ip
    · rw [if_pos heq, if_pos heq, heq, if_pos (Finset.mem_insert_self ..)]
      rfl
    · rw [if_neg heq, if_neg heq, if_neg heq, h.displays other]
      simp only [Finset.mem_insert, heq, false_or]
  · intro other hother
    rw [h2]
    simp only [blank, Function.update_apply]
    split
    · rfl
    · rename_i hne
      exact h.images other ((Finset.mem_insert.mp hother).resolve_left hne)

/-- Somebody's display is taken away; what is seen of them matters no more. -/
theorem remove (h : Hangs members seen v) (ip : UInt32) (last : Option Image) :
    Hangs (members.erase ip) (Function.update seen ip last) (v.removePartnerDisplay ip) := by
  constructor
  · intro other
    simp only [CameraVideo.removePartnerDisplay, Function.update_apply, Finset.mem_erase]
    by_cases heq : other = ip
    · rw [if_pos heq, if_neg fun hin => hin.1 heq]
    · rw [if_neg heq, if_neg heq, h.displays other]
      simp only [ne_eq, heq, not_false_eq_true, true_and]
  · intro other hother
    obtain ⟨hne, hin⟩ := Finset.mem_erase.mp hother
    rw [Function.update_of_ne hne]
    exact h.images other hin

end Hangs

/-! ### The middle -/

/-- The label in the middle shows what is to be seen of whoever is there. -/
def Centred (seen : UInt32 → Option Image) (v : CameraVideo Image) : Prop :=
  v.mainshow = .ofLast (seen v.mainIp)

namespace Centred

variable {seen : UInt32 → Option Image} {v : CameraVideo Image} {isNull : Image → Bool}

theorem draw (h : Centred seen v) (ip : UInt32) (last : Option Image) {v' : CameraVideo Image}
    (hmainshow : v'.mainshow = if ip = v.mainIp then .ofLast last else v.mainshow)
    (hmainIp : v'.mainIp = v.mainIp) : Centred (Function.update seen ip last) v' := by
  rw [Centred, hmainshow, hmainIp, Function.update_apply]
  split
  · rename_i heq
    rw [if_pos heq.symm]
  · rename_i hne
    rw [if_neg (Ne.symm hne)]
    exact h

theorem avatar (h : Centred seen v) (ip : UInt32) :
    Centred (Function.update seen ip none) (v.showAvatarForIp ip) := by
  obtain ⟨-, -, h3, -, h5, -⟩ := v.showAvatarForIp_spec ip
  exact h.draw ip none h3 h5

theorem image (h : Centred seen v) (ip : UInt32) {image : Image} (himage : isNull image = false) :
    Centred (Function.update seen ip (some image)) (v.showImageForIp isNull ip image) := by
  obtain ⟨-, -, h3, -, h5, -⟩ := v.showImageForIp_spec isNull ip himage
  exact h.draw ip (some image) h3 h5

theorem add (h : Centred seen v) {ip : UInt32} (hnew : v.partnerDisplays ip = none) :
    Centred (Function.update seen ip none) (v.addPartnerDisplay ip) := by
  rw [v.addPartnerDisplay_new ip hnew]
  exact Centred.avatar (v := { v with
    partnerDisplays := Function.update v.partnerDisplays ip (some .blank) }) h ip

end Centred

/-! ### The window and the album -/

def Window.InMeeting (w : Window Image) : Prop :=
  w.widget.createmeet = true ∨ w.widget.joinmeet = true

/-- What window and album agree on, come what may. -/
structure Fits (isNull : Image → Bool) (w : Window Image) (a : Album Image) : Prop where
  members : a.members = w.widget.partner
  hangs : Hangs w.widget.partner a.seen w.cameraVideo
  /-- What is seen is a picture. -/
  real : ∀ ip image, a.seen ip = some image → isNull image = false
  mainIp : w.cameraVideo.mainIp = w.widget.mainip
  localIp : w.cameraVideo.localIp = a.localIp
  running : w.cameraVideo.isRunning = a.cameraOn
  selected : w.selected ⊆ w.widget.partner
  title : w.InMeeting → w.title = some w.widget.mainip

/-- In the middle is seen what should be, and the border is around nobody else. -/
structure Right (w : Window Image) (a : Album Image) : Prop where
  centre : w.InMeeting → Centred a.seen w.cameraVideo
  chosen : ∀ ip ∈ w.selected, ip = w.widget.mainip

/-- One change of both. -/
structure Keeps (isNull : Image → Bool) (w : Window Image) (a : Album Image) (w' : Window Image)
    (a' : Album Image) : Prop where
  fits : Fits isNull w' a'
  right : Right w a → Right w' a'

variable {isNull : Image → Bool} {w : Window Image} {a : Album Image}

theorem Keeps.trans {w' w'' : Window Image} {a' a'' : Album Image} (h : Keeps isNull w a w' a')
    (h' : Keeps isNull w' a' w'' a'') : Keeps isNull w a w'' a'' :=
  ⟨h'.fits, fun hright => h'.right (h.right hright)⟩

namespace Fits

theorem refl (h : Fits isNull w a) : Keeps isNull w a w a := ⟨h, id⟩

/-- The window changes apart from its members, and is in no meeting it was not in. -/
theorem widget (h : Fits isNull w a) {widget : MeetingWidget}
    (hpartner : widget.partner = w.widget.partner) (hmainip : widget.mainip = w.widget.mainip)
    (hmeeting : widget.createmeet = true ∨ widget.joinmeet = true → w.InMeeting) :
    Keeps isNull w a { w with widget := widget } a := by
  refine ⟨⟨h.members.trans hpartner.symm, ?_, h.real, h.mainIp.trans hmainip.symm, h.localIp,
    h.running, ?_, fun hin => ?_⟩, fun hright => ⟨fun hin => hright.centre (hmeeting hin), ?_⟩⟩
  · show Hangs widget.partner a.seen w.cameraVideo
    rw [hpartner]
    exact h.hangs
  · show w.selected ⊆ widget.partner
    rw [hpartner]
    exact h.selected
  · show w.title = some widget.mainip
    rw [hmainip]
    exact h.title (hmeeting hin)
  · intro ip hip
    exact (hright.chosen ip hip).trans hmainip.symm

/-- A camera goes off. -/
theorem avatar (h : Fits isNull w a) (ip : UInt32) :
    Keeps isNull w a { w with cameraVideo := w.cameraVideo.showAvatarForIp ip } (a.forget ip) := by
  obtain ⟨-, -, -, h4, h5, h6⟩ := w.cameraVideo.showAvatarForIp_spec ip
  refine ⟨⟨h.members, h.hangs.avatar ip, fun other image hseen => ?_, h5.trans h.mainIp,
    h4.trans h.localIp, h6.trans h.running, h.selected, h.title⟩,
    fun hright => ⟨fun hin => (hright.centre hin).avatar ip, hright.chosen⟩⟩
  simp only [Album.forget, Function.update_apply] at hseen
  split at hseen
  · simp at hseen
  · exact h.real other image hseen

/-- A picture comes. -/
theorem image (h : Fits isNull w a) (ip : UInt32) (image : Image) :
    Keeps isNull w a { w with cameraVideo := w.cameraVideo.showImageForIp isNull ip image }
      (a.look isNull ip image) := by
  cases hnull : isNull image with
  | true =>
      rw [w.cameraVideo.showImageForIp_null isNull ip hnull, Album.look, if_pos hnull]
      exact h.refl
  | false =>
      obtain ⟨-, -, -, h4, h5, h6⟩ := w.cameraVideo.showImageForIp_spec isNull ip hnull
      rw [Album.look, if_neg (by rw [hnull]; exact Bool.false_ne_true)]
      refine ⟨⟨h.members, h.hangs.image ip hnull, fun other image' hseen => ?_, h5.trans h.mainIp,
        h4.trans h.localIp, h6.trans h.running, h.selected, h.title⟩,
        fun hright => ⟨fun hin => (hright.centre hin).image ip hnull, hright.chosen⟩⟩
      simp only [Function.update_apply] at hseen
      split at hseen
      · obtain rfl : image = image' := Option.some.inj hseen
        exact hnull
      · exact h.real other image' hseen

theorem known (h : Fits isNull w a) {ip : UInt32} (hknown : ip ∈ w.widget.partner) :
    w.addPartner ip = (false, w) ∧ a.meet ip = a := by
  refine ⟨?_, ?_⟩
  · rw [Window.addPartner, MeetingWidget.addPartner, if_pos hknown]
  · rw [Album.meet, if_pos (h.members ▸ hknown)]

theorem add (h : Fits isNull w a) {ip : UInt32} (hnew : ip ∉ w.widget.partner) :
    w.addPartner ip = (true, { w with
        widget := { w.widget with partner := insert ip w.widget.partner }
        cameraVideo := w.cameraVideo.addPartnerDisplay ip
        selected := w.selected.erase ip }) ∧
      a.meet ip = { a.forget ip with members := insert ip a.members } := by
  refine ⟨?_, ?_⟩
  · rw [Window.addPartner, MeetingWidget.addPartner, if_neg hnew]
  · rw [Album.meet, if_neg (h.members ▸ hnew)]

/-- Somebody is made a member. -/
theorem meet (h : Fits isNull w a) (ip : UInt32) :
    Keeps isNull w a (w.addPartner ip).2 (a.meet ip) := by
  by_cases hknown : ip ∈ w.widget.partner
  · rw [(h.known hknown).1, (h.known hknown).2]
    exact h.refl
  · rw [(h.add hknown).1, (h.add hknown).2]
    have hnone : w.cameraVideo.partnerDisplays ip = none := by
      rw [h.hangs.displays ip, if_neg hknown]
    let blank : CameraVideo Image :=
      { w.cameraVideo with
        partnerDisplays := Function.update w.cameraVideo.partnerDisplays ip (some .blank) }
    have hadd : w.cameraVideo.addPartnerDisplay ip = blank.showAvatarForIp ip :=
      w.cameraVideo.addPartnerDisplay_new ip hnone
    obtain ⟨-, -, -, h4, h5, h6⟩ := blank.showAvatarForIp_spec ip
    rw [← hadd] at h4 h5 h6
    have hout : w.selected.erase ip = w.selected :=
      Finset.erase_eq_of_notMem fun hin => hknown (h.selected hin)
    refine ⟨⟨congrArg (insert ip) h.members, h.hangs.add hknown, fun other image hseen => ?_,
      h5.trans h.mainIp, h4.trans h.localIp, h6.trans h.running, ?_, h.title⟩, fun hright =>
      ⟨fun hin => (hright.centre hin).add hnone, ?_⟩⟩
    · simp only [Album.forget, Function.update_apply] at hseen
      split at hseen
      · simp at hseen
      · exact h.real other image hseen
    · show w.selected.erase ip ⊆ insert ip w.widget.partner
      rw [hout]
      exact h.selected.trans (Finset.subset_insert _ _)
    · intro other hother
      exact hright.chosen other (Finset.mem_of_mem_erase hother)

theorem partnerJoin (h : Fits isNull w a) (ip : UInt32) :
    Keeps isNull w a (w.handlePartnerJoin ip) (a.meet ip) := by
  have hmeet := h.meet ip
  by_cases hknown : ip ∈ w.widget.partner
  · rw [Window.handlePartnerJoin, (h.known hknown).1]
    rw [(h.known hknown).1] at hmeet
    exact hmeet
  · rw [Window.handlePartnerJoin, (h.add hknown).1]
    rw [(h.add hknown).1] at hmeet
    -- the avatar is drawn once more
    have hforget : (a.meet ip).forget ip = a.meet ip := by
      rw [(h.add hknown).2]
      simp only [Album.forget, Function.update_idem]
    have hagain := hmeet.trans (hmeet.fits.avatar ip)
    rw [hforget] at hagain
    exact hagain.trans (hagain.fits.widget rfl rfl id)

theorem partnerJoin2 (h : Fits isNull w a) (ips : List UInt32) :
    Keeps isNull w a (w.handlePartnerJoin2 ips) (ips.foldl (fun a ip => a.meet ip) a) := by
  rw [Window.handlePartnerJoin2]
  induction ips generalizing w a with
  | nil => exact h.refl
  | cons ip ips ih =>
      have hjoin := h.partnerJoin ip
      exact hjoin.trans (ih hjoin.fits)

theorem closeImg (h : Fits isNull w a) (ip : UInt32) :
    Keeps isNull w a (w.closeImg ip) (if ip ∈ a.members then a.forget ip else a) := by
  rw [Window.closeImg, h.members]
  split
  · exact h.avatar ip
  · exact h.refl

/-- Whoever leaves takes the display along, and is seen no more. -/
theorem partnerExit (h : Fits isNull w a) (ip : UInt32) :
    Keeps isNull w a (w.handlePartnerExit ip)
      { a.forget ip with members := a.members.erase ip } := by
  have hremoved : w.removePartner ip = { w with
      widget := w.widget.removePartner ip
      cameraVideo := w.cameraVideo.removePartnerDisplay ip
      selected := w.selected.erase ip } := by
    by_cases hknown : ip ∈ w.widget.partner
    · rw [Window.removePartner, if_pos hknown]
    · -- somebody unknown has nothing to take along
      have hnone : w.cameraVideo.partnerDisplays ip = none := by
        rw [h.hangs.displays ip, if_neg hknown]
      have hdisplays : Function.update w.cameraVideo.partnerDisplays ip none
          = w.cameraVideo.partnerDisplays := by
        rw [← hnone, Function.update_eq_self]
      rw [Window.removePartner, if_neg hknown, MeetingWidget.removePartner,
        CameraVideo.removePartnerDisplay, hdisplays, Finset.erase_eq_of_notMem hknown,
        Finset.erase_eq_of_notMem fun hin => hknown (h.selected hin)]
  have hseen : ∀ other image, (a.forget ip).seen other = some image → isNull image = false := by
    intro other image hseen
    simp only [Album.forget, Function.update_apply] at hseen
    split at hseen
    · simp at hseen
    · exact h.real other image hseen
  rw [Window.handlePartnerExit, hremoved]
  split
  · rename_i hmain
    have hmain' : w.widget.mainip = ip := hmain
    refine ⟨⟨congrArg (Finset.erase · ip) h.members, ?_, hseen, h.mainIp, h.localIp, h.running,
      Finset.erase_subset_erase ip h.selected, h.title⟩, fun hright => ⟨fun _ => ?_, ?_⟩⟩
    · have hhangs := h.hangs.remove ip none
      exact ⟨hhangs.displays, hhangs.images⟩
    · show Shown.avatar = .ofLast (Function.update a.seen ip none w.cameraVideo.mainIp)
      rw [h.mainIp, hmain', Function.update_self]
      rfl
    · intro other hother
      exact hright.chosen other (Finset.mem_of_mem_erase hother)
  · rename_i hmain
    have hmain' : w.widget.mainip ≠ ip := hmain
    refine ⟨⟨congrArg (Finset.erase · ip) h.members, h.hangs.remove ip none, hseen, h.mainIp,
      h.localIp, h.running, Finset.erase_subset_erase ip h.selected, h.title⟩,
      fun hright => ⟨fun hin => ?_, ?_⟩⟩
    · show w.cameraVideo.mainshow
        = .ofLast (Function.update a.seen ip none w.cameraVideo.mainIp)
      rw [Function.update_of_ne (by rw [h.mainIp]; exact hmain')]
      exact hright.centre hin
    · intro other hother
      exact hright.chosen other (Finset.mem_of_mem_erase hother)

/-- A click puts a member in the middle and the border around its tile, and around no other. -/
theorem clicked (h : Fits isNull w a) {ip : UInt32} (hknown : ip ∈ w.widget.partner) :
    Keeps isNull w a (w.onRecvIp isNull ip) a := by
  have hshown : w.cameraVideo.refreshMainForIp isNull ip
      = { w.cameraVideo with mainIp := ip, mainshow := .ofLast (a.seen ip) } := by
    rw [CameraVideo.refreshMainForIp]
    simp only [h.hangs.images ip hknown]
    cases hseen : a.seen ip with
    | none => rfl
    | some image =>
        simp only [CameraVideo.showMainImage, h.real ip image hseen, Bool.false_eq_true, if_false]
        rfl
  rw [Window.onRecvIp, if_pos hknown, hshown]
  refine ⟨⟨h.members, ⟨h.hangs.displays, h.hangs.images⟩, h.real, rfl, h.localIp, h.running, ?_,
    fun _ => rfl⟩, fun hright => ⟨fun _ => rfl, fun other hother => ?_⟩⟩
  · refine Finset.insert_subset hknown ?_
    split
    · exact (Finset.erase_subset _ _).trans h.selected
    · exact h.selected
  · rcases Finset.mem_insert.mp hother with heq | hold
    · exact heq
    · -- the border that was there has been reset
      exfalso
      split at hold
      · obtain ⟨hne, hin⟩ := Finset.mem_erase.mp hold
        exact hne (hright.chosen other hin)
      · rename_i hgone
        exact hgone (hright.chosen other hold ▸ h.selected hold)

theorem frame (h : Fits isNull w a) (image : Image) :
    Keeps isNull w a { w with cameraVideo := w.cameraVideo.cameraImageCapture isNull image }
      (if a.localIp = 0 then a else a.look isNull a.localIp image) := by
  rw [CameraVideo.cameraImageCapture, h.localIp]
  split
  · exact h.refl
  · exact h.image a.localIp image

theorem openVideo (h : Fits isNull w a) (localIp : UInt32) :
    Keeps isNull w a (w.onOpenVideoClicked localIp) (a.after isNull (.openVideo localIp)) := by
  rw [Window.onOpenVideoClicked, h.running]
  simp only [Album.after]
  split
  · have hstopped : Keeps isNull w a { w with cameraVideo := w.cameraVideo.stopCamera }
        { a with cameraOn := false } :=
      ⟨⟨h.members, ⟨h.hangs.displays, h.hangs.images⟩, h.real, h.mainIp, h.localIp, rfl,
        h.selected, h.title⟩, fun hright => ⟨hright.centre, hright.chosen⟩⟩
    exact hstopped.trans (hstopped.fits.closeImg localIp)
  · rename_i hoff
    rw [CameraVideo.startCamera, h.running, if_neg hoff]
    exact ⟨⟨h.members, ⟨h.hangs.displays, h.hangs.images⟩, h.real, h.mainIp, h.localIp, rfl,
      h.selected, h.title⟩, fun hright => ⟨hright.centre, hright.chosen⟩⟩

/-- The session ends, whatever else becomes of the window. -/
theorem ended (h : Fits isNull w a) {widget : MeetingWidget} (hpartner : widget.partner = ∅)
    (hmainip : widget.mainip = w.widget.mainip) (hout : ¬ (widget.createmeet ∨ widget.joinmeet)) :
    Keeps isNull w a { w.endMeetingSession with widget := widget } a.ended := by
  rw [Window.endMeetingSession, Window.clearPartner]
  simp only []
  split
  · rename_i hnone
    have hdisplays : ∀ ip, w.cameraVideo.partnerDisplays ip = none := by
      intro ip
      rw [h.hangs.displays ip, if_neg (by rw [hnone]; exact Finset.notMem_empty ip)]
    have hselected : w.selected = ∅ := Finset.subset_empty.mp (hnone ▸ h.selected)
    refine ⟨⟨hpartner.symm, ⟨fun ip => ?_, fun ip hip => ?_⟩, fun _ _ hseen => ?_,
      h.mainIp.trans hmainip.symm, h.localIp, rfl, ?_, fun hin => absurd hin hout⟩,
      fun _ => ⟨fun hin => absurd hin hout, fun ip hip => ?_⟩⟩
    · show (w.cameraVideo.partnerDisplays ip).map _ = _
      rw [hdisplays ip, hpartner, if_neg (Finset.notMem_empty ip)]
      rfl
    · rw [hpartner] at hip
      exact absurd hip (Finset.notMem_empty ip)
    · simp [Album.ended] at hseen
    · show w.selected ⊆ widget.partner
      rw [hselected]
      exact Finset.empty_subset _
    · have hip' : ip ∈ w.selected := hip
      rw [hselected] at hip'
      exact absurd hip' (Finset.notMem_empty ip)
  · refine ⟨⟨hpartner.symm, ⟨fun ip => ?_, fun _ _ => rfl⟩, fun _ _ hseen => ?_,
      h.mainIp.trans hmainip.symm, h.localIp, rfl, Finset.empty_subset _,
      fun hin => absurd hin hout⟩, fun _ => ⟨fun hin => absurd hin hout, fun ip hip => ?_⟩⟩
    · rw [hpartner, if_neg (Finset.notMem_empty ip)]
      rfl
    · simp [Album.ended] at hseen
    · exact absurd hip (Finset.notMem_empty ip)

/-- The user is let in, and the flags of the session are set. -/
theorem enter (h : Fits isNull w a) (localIp : UInt32) {widget : MeetingWidget}
    (hpartner : widget.partner = insert localIp w.widget.partner)
    (hmainip : widget.mainip = localIp) :
    Fits isNull { w.enter localIp with widget := widget }
      { a.meet localIp with localIp := localIp } := by
  have hmeet := (h.meet localIp).fits
  have hmembers : (w.addPartner localIp).2.widget.partner = widget.partner := by
    rw [hpartner]
    by_cases hknown : localIp ∈ w.widget.partner
    · rw [(h.known hknown).1]
      exact (Finset.insert_eq_of_mem hknown).symm
    · rw [(h.add hknown).1]
  refine ⟨hmeet.members.trans hmembers, ?_, hmeet.real, hmainip.symm, rfl, hmeet.running, ?_,
    fun _ => congrArg some hmainip.symm⟩
  · show Hangs widget.partner _ _
    rw [← hmembers]
    exact ⟨hmeet.hangs.displays, hmeet.hangs.images⟩
  · show (w.addPartner localIp).2.selected ⊆ widget.partner
    rw [← hmembers]
    exact hmeet.selected

/-- The avatar drawn for the user is right where nothing of the user has been seen, and no border
is left over where the only one can be the user's. -/
theorem right_enter (h : Fits isNull w a) (localIp : UInt32) {widget : MeetingWidget}
    (hmainip : widget.mainip = localIp) (hin : widget.createmeet ∨ widget.joinmeet) :
    Right { w.enter localIp with widget := widget } { a.meet localIp with localIp := localIp } ↔
      (localIp ∈ w.widget.partner → a.seen localIp = none) ∧ ∀ ip ∈ w.selected, ip = localIp := by
  have hcentre : Centred (a.meet localIp).seen (w.enter localIp).cameraVideo ↔
      (localIp ∈ w.widget.partner → a.seen localIp = none) := by
    show Shown.avatar = .ofLast ((a.meet localIp).seen localIp) ↔ _
    by_cases hknown : localIp ∈ w.widget.partner
    · rw [(h.known hknown).2]
      cases a.seen localIp with
      | none => simp [Shown.ofLast]
      | some image => simp [Shown.ofLast, hknown]
    · rw [(h.add hknown).2]
      simp [Album.forget, Shown.ofLast, hknown]
  have hselected : (w.enter localIp).selected = w.selected := by
    show (w.addPartner localIp).2.selected = w.selected
    by_cases hknown : localIp ∈ w.widget.partner
    · rw [(h.known hknown).1]
    · rw [(h.add hknown).1]
      exact Finset.erase_eq_of_notMem fun hsel => hknown (h.selected hsel)
  constructor
  · intro hright
    refine ⟨hcentre.mp (hright.centre hin), fun ip hip => ?_⟩
    exact (hright.chosen ip (hselected ▸ hip)).trans hmainip
  · rintro ⟨hfresh, hborder⟩
    refine ⟨fun _ => hcentre.mpr hfresh, fun ip hip => ?_⟩
    have hip' : ip ∈ (w.enter localIp).selected := hip
    rw [hselected] at hip'
    exact (hborder ip hip').trans hmainip.symm

end Fits

/-! ### Every event -/

/-- Who is let in has not been seen before, nor has another been chosen. -/
def Hall.Sound (h : Hall Image) : Event Image → Prop
  | .message localIp msg =>
      Screen.LetsIn msg →
        (localIp ∈ h.window.widget.partner → h.album.seen localIp = none) ∧
          ∀ ip ∈ h.window.selected, ip = localIp
  | _ => True

/-- What an event comes to: what should hold does afterwards, if the event was sound. -/
structure Comes (isNull : Image → Bool) (h : Hall Image) (e : Event Image) (w' : Window Image)
    (a' : Album Image) : Prop where
  fits : Fits isNull w' a'
  right : h.Sound e → Right h.window h.album → Right w' a'
  spoiled : ¬ h.Sound e → ¬ Right w' a'

theorem Keeps.comes {h : Hall Image} {e : Event Image} {w' : Window Image} {a' : Album Image}
    (hkeeps : Keeps isNull h.window h.album w' a') (hsound : h.Sound e) :
    Comes isNull h e w' a' :=
  ⟨hkeeps.fits, fun _ => hkeeps.right, fun hnot => absurd hsound hnot⟩

/-- A message that lets nobody in is sound. -/
theorem Keeps.quiet {h : Hall Image} {localIp : UInt32} {msg : Message Image} {w' : Window Image}
    {a' : Album Image} (hkeeps : Keeps isNull h.window h.album w' a')
    (hmsg : ¬ Screen.LetsIn msg) : Comes isNull h (.message localIp msg) w' a' :=
  hkeeps.comes fun hin => absurd hin hmsg

theorem partner_enter (localIp : UInt32) (w : Window Image) :
    (w.enter localIp).widget.partner = insert localIp w.widget.partner := by
  have hadd : (w.addPartner localIp).2.widget = (MeetingWidget.addPartner localIp w.widget).2 := by
    unfold Window.addPartner
    split <;> (rename_i heq; rw [heq])
  show (w.addPartner localIp).2.widget.partner = _
  rw [hadd]
  exact MeetingWidget.partner_addPartner localIp w.widget

/-- The flags of the session make no difference to who is let in. -/
theorem enter_created (localIp : UInt32) (roomNo : Int) (w : Window Image) :
    Window.enter localIp { w with widget := { w.widget with roomNo := roomNo, createmeet := true } }
      = { w.enter localIp with
          widget := { (w.enter localIp).widget with roomNo := roomNo, createmeet := true } } := by
  by_cases hknown : localIp ∈ w.widget.partner
  · simp only [Window.enter, Window.addPartner, MeetingWidget.addPartner, if_pos hknown]
  · simp only [Window.enter, Window.addPartner, MeetingWidget.addPartner, if_neg hknown]

/-- A response lets the user in. -/
theorem comes_enter {h : Hall Image} (hfits : Fits isNull h.window h.album) {localIp : UInt32}
    {msg : Message Image} (hmsg : Screen.LetsIn msg) {widget : MeetingWidget}
    (hpartner : widget.partner = (h.window.enter localIp).widget.partner)
    (hmainip : widget.mainip = localIp) (hin : widget.createmeet ∨ widget.joinmeet) :
    Comes isNull h (.message localIp msg) { h.window.enter localIp with widget := widget }
      { h.album.meet localIp with localIp := localIp } := by
  have hright := hfits.right_enter localIp hmainip hin
  refine ⟨hfits.enter localIp (hpartner.trans (partner_enter localIp h.window)) hmainip, ?_, ?_⟩
  · intro hsound _
    exact hright.mpr (hsound hmsg)
  · intro hunsound hafter
    exact hunsound fun _ => hright.mp hafter

/-- The members are gone when the session has ended. -/
theorem widget_endMeetingSession (widget : MeetingWidget) :
    (MeetingWidget.endMeetingSession widget).1.partner = ∅ ∧
      (MeetingWidget.endMeetingSession widget).1.mainip = widget.mainip ∧
      ¬ ((MeetingWidget.endMeetingSession widget).1.createmeet ∨
        (MeetingWidget.endMeetingSession widget).1.joinmeet) := by
  unfold MeetingWidget.endMeetingSession
  simp only []
  split <;> exact ⟨rfl, rfl, by simp [MeetingWidget.resetMeetingUi, MeetingWidget.clearPartner]⟩

theorem Fits.netError {h : Hall Image} (hfits : Fits isNull h.window h.album) :
    Keeps isNull h.window h.album h.window.handleNetError
      (if !h.window.widget.sessionEnding then h.album.ended else h.album) := by
  rw [Window.handleNetError]
  cases hending : h.window.widget.sessionEnding with
  | true => exact hfits.refl
  | false =>
      obtain ⟨h1, h2, h3⟩ := widget_endMeetingSession h.window.widget
      exact hfits.ended h1 h2 h3

theorem comes_createMeetingResponse {h : Hall Image} (hfits : Fits isNull h.window h.album)
    (localIp roomNo : UInt32) :
    Comes isNull h (.message localIp (.createMeetingResponse roomNo))
      (h.window.handleCreateMeetingResponse localIp roomNo)
      (if int32OfUInt32 roomNo ≠ 0 then { h.album.meet localIp with localIp := localIp }
        else h.album) := by
  rw [Window.handleCreateMeetingResponse]
  by_cases hroom : int32OfUInt32 roomNo ≠ 0
  · simp only [if_pos hroom, enter_created]
    have hin : Screen.LetsIn (.createMeetingResponse roomNo : Message Image) := hroom
    exact comes_enter hfits hin rfl rfl (Or.inl rfl)
  · simp only [if_neg hroom]
    have hout : ¬ Screen.LetsIn (.createMeetingResponse roomNo : Message Image) := hroom
    refine Keeps.quiet (hfits.widget ?_ ?_ ?_) hout
    · rfl
    · rfl
    rintro (hflag | hflag)
    · exact absurd hflag Bool.false_ne_true
    · exact Or.inr hflag

theorem comes_joinMeetingResponse {h : Hall Image} (hfits : Fits isNull h.window h.album)
    (localIp : UInt32) (c : Int) :
    Comes isNull h (.message localIp (.joinMeetingResponse c))
      (h.window.handleJoinMeetingResponse localIp c)
      (if 0 < c then { h.album.meet localIp with localIp := localIp } else h.album) := by
  rw [Window.handleJoinMeetingResponse, MeetingWidget.joinBranch]
  have hin : Screen.LetsIn (.joinMeetingResponse c : Message Image) ↔ 0 < c := Iff.rfl
  by_cases hzero : c = 0
  · rw [if_pos hzero, if_neg (by omega)]
    refine Keeps.quiet (hfits.widget ?_ ?_ ?_) (by rw [hin]; omega)
    · rfl
    · rfl
    rintro (hflag | hflag)
    · exact Or.inl hflag
    · exact absurd hflag Bool.false_ne_true
  · rw [if_neg hzero]
    by_cases hfull : c = -1
    · rw [if_pos hfull, if_neg (by omega)]
      exact hfits.refl.quiet (by rw [hin]; omega)
    · rw [if_neg hfull]
      by_cases hpos : 0 < c
      · rw [if_pos hpos, if_pos hpos]
        exact comes_enter hfits (hin.mpr hpos) rfl rfl (Or.inr rfl)
      · rw [if_neg hpos, if_neg hpos]
        exact hfits.refl.quiet (by rw [hin]; exact hpos)

/-- What becomes of a message. -/
theorem comes_message {h : Hall Image} (hfits : Fits isNull h.window h.album) (localIp : UInt32)
    (msg : Message Image) :
    Comes isNull h (.message localIp msg) (h.window.onMessage localIp isNull msg)
      (if h.window.ends (.message localIp msg) then h.album.ended
        else h.album.told isNull localIp msg) := by
  cases msg with
  | createMeetingResponse roomNo => exact comes_createMeetingResponse hfits localIp roomNo
  | joinMeetingResponse c => exact comes_joinMeetingResponse hfits localIp c
  | remoteHostClosedError => exact hfits.netError.quiet id
  | otherNetError => exact hfits.netError.quiet id
  | recvImage ip image =>
      have hmeet := hfits.meet ip
      exact (hmeet.trans (hmeet.fits.image ip image)).quiet id
  | partnerJoin ip => exact (hfits.partnerJoin ip).quiet id
  | partnerExit ip => exact (hfits.partnerExit ip).quiet id
  | partnerJoin2 partnerIps => exact (hfits.partnerJoin2 partnerIps).quiet id
  | closeCameraNotify ip => exact (hfits.closeImg ip).quiet id
  | createMeeting => exact hfits.refl.quiet id
  | joinMeeting roomNo => exact hfits.refl.quiet id
  | exitMeeting => exact hfits.refl.quiet id
  | closeCamera => exact hfits.refl.quiet id
  | sendText text => exact hfits.refl.quiet id
  | sendImage image => exact hfits.refl.quiet id
  | sendAudio audio => exact hfits.refl.quiet id
  | recvText ip text => exact hfits.refl.quiet id
  | recvAudio ip audio => exact hfits.refl.quiet id

/-- **What an event comes to**, one case per event. -/
theorem comes_step {h h' : Hall Image} {e : Event Image} (hfits : Fits isNull h.window h.album)
    (hstep : h.step isNull e = some h') : Comes isNull h e h'.window h'.album := by
  rw [Hall.step, Option.map_eq_some_iff] at hstep
  obtain ⟨w', hw', rfl⟩ := hstep
  cases e with
  | message localIp msg =>
      simp only [Window.step, Option.some.injEq] at hw'
      subst hw'
      exact comes_message hfits localIp msg
  | clicked ip =>
      simp only [Window.step, Option.ite_none_right_eq_some, Option.some.injEq] at hw'
      obtain ⟨hknown, rfl⟩ := hw'
      exact (hfits.clicked hknown).comes trivial
  | openVideo localIp =>
      simp only [Window.step, Option.some.injEq] at hw'
      subst hw'
      exact (hfits.openVideo localIp).comes trivial
  | frame image =>
      simp only [Window.step, Option.ite_none_right_eq_some, Option.some.injEq] at hw'
      obtain ⟨-, rfl⟩ := hw'
      exact (hfits.frame image).comes trivial
  | close =>
      simp only [Window.step, Option.some.injEq] at hw'
      subst hw'
      rw [Window.closeEvent, Window.ends]
      cases hending : h.window.widget.sessionEnding with
      | true =>
          have hkeeps : Keeps isNull h.window h.album
              { h.window with widget := (MeetingWidget.closeEvent h.window.widget).1 } h.album := by
            rw [MeetingWidget.closeEvent, hending]
            exact hfits.widget rfl rfl id
          exact hkeeps.comes trivial
      | false =>
          have hclosed : (MeetingWidget.closeEvent h.window.widget).1
              = (MeetingWidget.endMeetingSession { h.window.widget with
                  visible := false, pendingConnect := none, sessionEnding := true }).1 := by
            rw [MeetingWidget.closeEvent, hending]
            rfl
          obtain ⟨h1, h2, h3⟩ := widget_endMeetingSession { h.window.widget with
            visible := false, pendingConnect := none, sessionEnding := true }
          rw [hclosed]
          exact (hfits.ended h1 h2 h3).comes trivial
  | flags connecting sessionActive sessionEnding =>
      simp only [Window.step, Option.some.injEq] at hw'
      subst hw'
      have hkeeps : Keeps isNull h.window h.album { h.window with widget := { h.window.widget with
          connecting := connecting, sessionActive := sessionActive,
          sessionEnding := sessionEnding } } h.album := hfits.widget rfl rfl id
      exact hkeeps.comes trivial

/-! ### Every run -/

theorem fits_init : Fits isNull ({} : Window Image) {} where
  members := rfl
  hangs := ⟨fun _ => rfl, fun _ _ => rfl⟩
  real _ _ hseen := by simp at hseen
  mainIp := rfl
  localIp := rfl
  running := rfl
  selected := Finset.Subset.refl _
  title hin := by simp [Window.InMeeting] at hin

theorem right_init : Right ({} : Window Image) {} where
  centre hin := by simp [Window.InMeeting] at hin
  chosen _ hip := absurd hip (Finset.notMem_empty _)

variable (isNull) in
/-- **Every tile shows its member's last picture**, in every run; and the middle shows what the tile
of the member there does, with the border around no other tile, exactly when whoever is let in has
not been seen before and no other tile has been chosen. -/
theorem pictures (es : List (Event Image)) :
    Throughout (Hall.step isNull) (fun h => ∀ ip, h.window.cameraVideo.partnerDisplays ip
        = if ip ∈ h.window.widget.partner then some (.ofLast (h.album.seen ip)) else none) {} es ∧
      (Throughout (Hall.step isNull) (fun h => Right h.window h.album) {} es ↔
        Steps (Hall.step isNull) Hall.Sound {} es) := by
  have hfits : Throughout (Hall.step isNull) (fun h => Fits isNull h.window h.album) {} es := by
    refine throughout_of_step (P := fun _ _ => True) (fun h e h' hh _ hstep => ?_) fits_init
      (Steps.of_forall (fun _ _ => trivial) _ _)
    exact (comes_step hh hstep).fits
  have hstep : ∀ (h : Hall Image) e h', Fits isNull h.window h.album → h.step isNull e = some h' →
      Fits isNull h'.window h'.album := fun h e h' hh hstep => (comes_step hh hstep).fits
  refine ⟨hfits.mono fun h hh => hh.hangs.displays, fun hright => ?_, fun hsound => ?_⟩
  · refine steps_of_throughout (fun h e hh hunsound => ?_) (hright.and_invariant hstep fits_init)
    cases e with
    | message localIp msg =>
        -- the message is handled, and the middle or the border is wrong
        refine ⟨_, rfl, fun hafter => ?_⟩
        exact (comes_step hh.2 rfl).spoiled hunsound hafter.1
    | _ => exact absurd trivial hunsound
  · refine (throughout_of_step (I := fun h : Hall Image =>
      Fits isNull h.window h.album ∧ Right h.window h.album) (fun h e h' hh he hstep => ?_)
      ⟨fits_init, right_init⟩ hsound).mono fun _ hh => hh.2
    have hcomes := comes_step hh.1 hstep
    exact ⟨hcomes.fits, hcomes.right he hh.2⟩

end CloudMeeting.Client.Pictures
