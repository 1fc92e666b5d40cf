/-
The meeting window.

`MeetingWidget` keeps the flags of the session and the members of the meeting.  Its
slots run one at a time, in the thread of the user interface, and none of them waits for
another thread.  What a slot asks of others, of the controller, of the clock or of
whoever sits in front of the screen, it returns as a list of effects, in the order in
which it asks.

Other slots run while a message box is open.  A box is the last thing a slot does, except
where a room is refused as unknown, so what they do they do after the slot.

The network and the controller exist as long as the window does, so the source's tests
for them are left out.  Where the source shows something, only message boxes are kept.
-/
import CloudMeeting.Client.Codec
import Mathlib.Data.Finset.Basic
import Mathlib.Data.Finset.Lattice.Lemmas

namespace CloudMeeting.Client

/-! ### Connecting -/

inductive ConnectAction where
  | none
  | createMeeting
  | joinMeeting
deriving DecidableEq, Repr

/-- The arguments of a request to connect; they come back with its result. -/
structure ConnectRequest where
  ip : String
  port : String
  action : ConnectAction
  roomNo : Bytes := []
deriving DecidableEq, Repr

/-- What a slot of the window asks for. -/
inductive Effect where
  /-- Queue a task to connect for the controller. -/
  | requestConnect (request : ConnectRequest)
  /-- Queue a task to disconnect for the controller. -/
  | disconnectFromHost
  /-- Start the timer that gives up on the notification after 800 ms. -/
  | singleShot
  | createMeetingRequested
  | joinMeetingRequested (roomNo : Bytes)
  /-- Tell the main window how a request came out. -/
  | connectServerFinished (ok : Bool) (request : ConnectRequest)
  | messageBox (title text : String)
deriving DecidableEq, Repr

/-- `QString::toInt` in base ten, 0 where it fails. -/
def toInt (bs : Bytes) : Int :=
  let bs := ((bs.dropWhile isSpace).reverse.dropWhile isSpace).reverse
  let digits := if bs.head? = some 43 ∨ bs.head? = some 45 then bs.drop 1 else bs
  let value : Int := if bs.head? = some 45 then -digitsValue digits else digitsValue digits
  if digits ≠ [] ∧ digits.all isDigit ∧ -2 ^ 31 ≤ value ∧ value < 2 ^ 31 then value else 0

structure MeetingWidget where
  visible : Bool := false
  connecting : Bool := false
  sessionActive : Bool := false
  sessionEnding : Bool := false
  /-- The request put off until the session has ended, while `_hasPendingConnect` is set. -/
  pendingConnect : Option ConnectRequest := none
  createmeet : Bool := false
  joinmeet : Bool := false
  roomNo : Int := 0
  /-- The keys of `partner`. -/
  partner : Finset UInt32 := ∅
  /-- The members that can be addressed, by their ip. -/
  iplist : List UInt32 := []
  mainip : UInt32 := 0

/-- A slot changes the window and asks for effects. -/
abbrev Slot := MeetingWidget → MeetingWidget × List Effect

namespace MeetingWidget

/-! ### The session -/

section Session

def clearPartner (w : MeetingWidget) : MeetingWidget := { w with partner := ∅ }

def resetMeetingUi (w : MeetingWidget) : MeetingWidget := { w with roomNo := 0, iplist := [] }

def endMeetingSession : Slot := fun w =>
  let wasConnecting := w.connecting
  let w := { w with createmeet := false, joinmeet := false, connecting := false }
  let w := w.clearPartner.resetMeetingUi
  if w.sessionActive ∨ wasConnecting then
    ({ w with sessionEnding := true, sessionActive := false }, [.disconnectFromHost, .singleShot])
  else (w, [])

def closeEvent : Slot := fun w =>
  let w := { w with visible := false, pendingConnect := none }
  if w.sessionEnding then (w, []) else endMeetingSession { w with sessionEnding := true }

def onDisconnectServer : Slot := fun w =>
  if w.sessionActive then
    ({ w with sessionEnding := true, sessionActive := false }, [.disconnectFromHost])
  else (w, [])

/-- `main_window::onConnectServerFinished`, which runs when the window says it is done. -/
def onConnectServerFinished (ok : Bool) (request : ConnectRequest) : Slot := fun w =>
  if request.action = .none ∧ ok then
    let (w, effects) := onDisconnectServer w
    (w, effects ++
      [.messageBox "Connection" ("成功连接到 " ++ request.ip ++ ":" ++ request.port)])
  else if ¬ ok then (w, [.messageBox "Connection error" "连接服务器失败"])
  else (w, [])

/-- `connect_server_finished_signal`, and the slot it runs. -/
def connectServerFinished (ok : Bool) (request : ConnectRequest) : Slot := fun w =>
  let (w, effects) := onConnectServerFinished ok request w
  (w, .connectServerFinished ok request :: effects)

def requestConnectToServer (request : ConnectRequest) : Slot := fun w =>
  if w.connecting then connectServerFinished false request w
  else if w.sessionEnding then ({ w with pendingConnect := some request }, [])
  else ({ w with connecting := true }, [.requestConnect request])

def flushPendingConnect : Slot := fun w =>
  match w.pendingConnect with
  | none => (w, [])
  | some request => requestConnectToServer request { w with pendingConnect := none }

def onNetworkDisconnected : Slot := fun w =>
  flushPendingConnect
    { w with sessionActive := false, sessionEnding := false, connecting := false }

/-- What the timer does when it expires. -/
def timeout : Slot := fun w =>
  if ¬ w.sessionEnding then (w, [])
  else
    flushPendingConnect
      { w with sessionEnding := false, sessionActive := false, connecting := false }

def onConnectFinished (ok : Bool) (request : ConnectRequest) : Slot := fun w =>
  let w := { w with connecting := false }
  if w.sessionEnding ∨ ¬ w.visible then
    let (w, effects) :=
      if ok then ({ w with sessionEnding := true, sessionActive := false }, [.disconnectFromHost])
      else (w, ([] : List Effect))
    let (w, done) := connectServerFinished false request w
    (w, effects ++ done)
  else
    let (w, effects) :=
      if ok then
        let w := { w with sessionActive := true, sessionEnding := false }
        match request.action with
        | .createMeeting => (w, [.createMeetingRequested])
        | .joinMeeting =>
            ({ w with roomNo := toInt request.roomNo }, [.joinMeetingRequested request.roomNo])
        | .none => (w, [])
      else (if request.action ≠ .none then { w with visible := false } else w, [])
    let (w, done) := connectServerFinished ok request w
    (w, effects ++ done)

/-- A click on one of the three pages of the main window, once the input there is found to be
well formed; a test of the connection leaves the meeting window hidden. -/
def buttonClicked (request : ConnectRequest) : Slot := fun w =>
  if w.visible then (w, [.messageBox "warning" "目前有一打开的会议"])
  else if request.action = .none then requestConnectToServer request w
  else requestConnectToServer request { w with visible := true }

/-- The handlers of the two kinds of network error differ in what they tell. -/
def handleNetError (title text : String) : Slot := fun w =>
  if w.sessionEnding then (w, [])
  else
    let wasInMeeting := w.createmeet ∨ w.joinmeet
    let (w, effects) := endMeetingSession w
    (w, effects ++ if wasInMeeting then [.messageBox title text] else [])

def handleRemoteHostClosedError : Slot := handleNetError "Meeting Information" "会议结束"

def handleOtherNetError : Slot := handleNetError "Network Error" "网络异常"

end Session

/-! ### The members -/

section Members

/-- Whether a partner is made for the ip: there is none yet. -/
def addPartner (ip : UInt32) (w : MeetingWidget) : Bool × MeetingWidget :=
  if ip ∈ w.partner then (false, w) else (true, { w with partner := insert ip w.partner })

def removePartner (ip : UInt32) (w : MeetingWidget) : MeetingWidget :=
  { w with partner := w.partner.erase ip }

/-- The three branches a response to a join request can take. -/
inductive JoinBranch where
  | notExist
  | full
  | joined
deriving DecidableEq, Repr

/-- The branch for a response code; a negative code other than -1 takes none. -/
def joinBranch (c : Int) : Option JoinBranch :=
  if c = 0 then some .notExist
  else if c = -1 then some .full
  else if c > 0 then some .joined
  else none

variable (localIp : UInt32)

def handleCreateMeetingResponse (roomNo : UInt32) : Slot := fun w =>
  let roomno := int32OfUInt32 roomNo
  if roomno ≠ 0 then
    let w := (addPartner localIp { w with roomNo := roomno, createmeet := true }).2
    ({ w with mainip := localIp }, [.messageBox "Room No" ("房间号：" ++ toString roomno)])
  else ({ w with createmeet := false }, [.messageBox "Room Information" "无可用房间"])

def handleJoinMeetingResponse (c : Int) : Slot := fun w =>
  match joinBranch c with
  | some .notExist =>
      ({ w with joinmeet := false, roomNo := 0 }, [.messageBox "Meeting Error" "会议不存在"])
  | some .full => (w, [.messageBox "Meeting information" "成员已满，无法加入"])
  | some .joined =>
      let w := (addPartner localIp w).2
      ({ w with mainip := localIp, joinmeet := true }, [.messageBox "Meeting information" "加入成功"])
  | none => (w, [])

def handleImgRecv (ip : UInt32) : Slot := fun w => ((addPartner ip w).2, [])

/-- A partner who is new can be addressed from now on. -/
def handlePartnerJoin (ip : UInt32) : Slot := fun w =>
  match addPartner ip w with
  | (true, w) => ({ w with iplist := w.iplist ++ [ip] }, [])
  | (false, w) => (w, [])

def handlePartnerExit (ip : UInt32) : Slot := fun w =>
  let w := removePartner ip w
  ({ w with iplist := w.iplist.erase ip }, [])

def handlePartnerJoin2 (partnerIps : List UInt32) : Slot := fun w =>
  (partnerIps.foldl (fun w ip => (handlePartnerJoin ip w).1) w, [])

variable {Image : Type}

/-- The slots for what arrives from the network; texts and cameras do not touch the members,
and sounds do not come here. -/
def onMessage : Message Image → Slot
  | .createMeetingResponse roomNo => handleCreateMeetingResponse localIp roomNo
  | .joinMeetingResponse c => handleJoinMeetingResponse localIp c
  | .remoteHostClosedError => handleRemoteHostClosedError
  | .otherNetError => handleOtherNetError
  | .recvImage ip _ => handleImgRecv ip
  | .partnerJoin ip => handlePartnerJoin ip
  | .partnerExit ip => handlePartnerExit ip
  | .partnerJoin2 partnerIps => handlePartnerJoin2 partnerIps
  | _ => fun w => (w, [])

section Partners

variable (ip : UInt32) (w : MeetingWidget)

theorem partner_addPartner : (addPartner ip w).2.partner = insert ip w.partner := by
  unfold addPartner
  split
  · rename_i hin
    exact (Finset.insert_eq_of_mem hin).symm
  · rfl

theorem partner_handlePartnerJoin :
    (handlePartnerJoin ip w).1.partner = insert ip w.partner := by
  have h := partner_addPartner ip w
  rw [handlePartnerJoin]
  split
  · rename_i heq
    rw [heq] at h
    exact h
  · rename_i heq
    rw [heq] at h
    exact h

theorem partner_handlePartnerJoin2 (ips : List UInt32) :
    (handlePartnerJoin2 ips w).1.partner = w.partner ∪ ips.toFinset := by
  rw [handlePartnerJoin2]
  induction ips generalizing w with
  | nil => simp
  | cons ip ips ih =>
      rw [List.foldl_cons, ih, partner_handlePartnerJoin, List.toFinset_cons, Finset.insert_union,
        Finset.union_insert]

end Partners

/-- The window after a list of messages. -/
def afterMessages (msgs : List (Message Image)) (w : MeetingWidget) : MeetingWidget :=
  msgs.foldl (fun w msg => (onMessage localIp msg w).1) w

end Members

end MeetingWidget

end CloudMeeting.Client
