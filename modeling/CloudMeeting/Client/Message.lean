/-
The client's messages and their wire types.

A `Message` is one of the subclasses of the source, with the fields its kind uses.
Pictures are opaque: an image type and the Qt functions on it are parameters (`Qt`), and
so are compression and base64, of which only the documented round trips are ever
assumed (`Qt.Lossless`).  How wide an `unsigned long` is depends on the target as well
(`DataModel`); it matters for the room number alone.

A wire type is one byte here, as the source's enumeration is, although the frame has
two bytes for it.
-/
import CloudMeeting.Lib.Endian

namespace CloudMeeting.Client

/-- The targets differ in the width of `unsigned long`: 32 bits with MinGW and MSVC, 64 bits
elsewhere. -/
inductive DataModel where
  | llp64
  | lp64
deriving DecidableEq, Repr

/-- One more than the largest `unsigned long`. -/
def DataModel.ulongSize : DataModel → Nat
  | .llp64 => 2 ^ 32
  | .lp64 => 2 ^ 64

/-- What the codec has from outside: the Qt functions it calls, on byte arrays and on images, and
the target it is compiled for. -/
structure Qt (Image : Type) where
  dataModel : DataModel
  qCompress : Bytes → Bytes
  qUncompress : Bytes → Bytes
  toBase64 : Bytes → Bytes
  fromBase64 : Bytes → Bytes
  /-- `QImage::save` as JPEG, when it succeeds. -/
  save : Image → Option Bytes
  /-- `QImage::loadFromData`, when it gives an image that is not null. -/
  loadFromData : Bytes → Option Image

/-- Decompressing undoes compressing, and base64 can be read back. -/
structure Qt.Lossless {Image : Type} (qt : Qt Image) : Prop where
  qUncompress_qCompress : ∀ data, qt.qUncompress (qt.qCompress data) = data
  fromBase64_toBase64 : ∀ data, qt.fromBase64 (qt.toBase64 data) = data

inductive MessageKind where
  | createMeeting
  | joinMeeting
  | exitMeeting
  | closeCamera
  | sendText
  | sendImage
  | sendAudio
  | createMeetingResponse
  | joinMeetingResponse
  | recvText
  | recvImage
  | recvAudio
  | partnerJoin
  | partnerExit
  | partnerJoin2
  | closeCameraNotify
  | remoteHostClosedError
  | otherNetError
deriving DecidableEq, Repr

/-- A message; `std::string` and `QByteArray` are strings of bytes. -/
inductive Message (Image : Type) where
  | createMeeting
  | joinMeeting (roomNo : Bytes)
  | exitMeeting
  | closeCamera
  | sendText (text : Bytes)
  | sendImage (image : Image)
  | sendAudio (audio : Bytes)
  | createMeetingResponse (roomNo : UInt32)
  | joinMeetingResponse (responseCode : Int)
  | recvText (ip : UInt32) (text : Bytes)
  | recvImage (ip : UInt32) (image : Image)
  | recvAudio (ip : UInt32) (audio : Bytes)
  | partnerJoin (ip : UInt32)
  | partnerExit (ip : UInt32)
  | partnerJoin2 (partnerIps : List UInt32)
  | closeCameraNotify (ip : UInt32)
  | remoteHostClosedError
  | otherNetError
deriving DecidableEq

def Message.kind {Image : Type} : Message Image → MessageKind
  | .createMeeting => .createMeeting
  | .joinMeeting _ => .joinMeeting
  | .exitMeeting => .exitMeeting
  | .closeCamera => .closeCamera
  | .sendText _ => .sendText
  | .sendImage _ => .sendImage
  | .sendAudio _ => .sendAudio
  | .createMeetingResponse _ => .createMeetingResponse
  | .joinMeetingResponse _ => .joinMeetingResponse
  | .recvText _ _ => .recvText
  | .recvImage _ _ => .recvImage
  | .recvAudio _ _ => .recvAudio
  | .partnerJoin _ => .partnerJoin
  | .partnerExit _ => .partnerExit
  | .partnerJoin2 _ => .partnerJoin2
  | .closeCameraNotify _ => .closeCameraNotify
  | .remoteHostClosedError => .remoteHostClosedError
  | .otherNetError => .otherNetError

/-- `MSG_TYPE`, whose underlying type is one byte. -/
structure MsgType where
  code : UInt8
deriving DecidableEq, Repr

namespace MsgType

def imgSend : MsgType := ⟨0⟩
def imgRecv : MsgType := ⟨1⟩
def audioSend : MsgType := ⟨2⟩
def audioRecv : MsgType := ⟨3⟩
def textSend : MsgType := ⟨4⟩
def textRecv : MsgType := ⟨5⟩
def createMeeting : MsgType := ⟨6⟩
def exitMeeting : MsgType := ⟨7⟩
def joinMeeting : MsgType := ⟨8⟩
def closeCamera : MsgType := ⟨9⟩
def createMeetingResponse : MsgType := ⟨20⟩
def partnerExit : MsgType := ⟨21⟩
def partnerJoin : MsgType := ⟨22⟩
def joinMeetingResponse : MsgType := ⟨23⟩
def partnerJoin2 : MsgType := ⟨24⟩
def remoteHostClosedError : MsgType := ⟨40⟩
def otherNetError : MsgType := ⟨41⟩

end MsgType

/-! ### Room numbers

`std::stoul` in base ten: leading white space and one sign are read over, digits are
read as far as they go, and what follows is ignored.  It throws when there is no digit
or the number does not fit an `unsigned long`; a minus sign negates in that type.
-/

def isSpace (b : UInt8) : Bool := b = 32 ∨ (9 ≤ b ∧ b ≤ 13)

def isDigit (b : UInt8) : Bool := 48 ≤ b ∧ b ≤ 57

/-- The number the leading digits stand for. -/
def digitsValue (bs : Bytes) : Nat :=
  (bs.takeWhile isDigit).foldl (fun value b => 10 * value + (b.toNat - 48)) 0

def stoul (model : DataModel) (bs : Bytes) : Option Nat :=
  let bs := bs.dropWhile isSpace
  let negative := bs.head? = some 45
  let digits := if bs.head? = some 43 ∨ bs.head? = some 45 then bs.drop 1 else bs
  if digits.takeWhile isDigit = [] then none
  else if model.ulongSize ≤ digitsValue digits then none
  else if negative then some ((model.ulongSize - digitsValue digits) % model.ulongSize)
  else some (digitsValue digits)

/-- `JoinMeetingMessage::room_no_u32`; an exception gives 0. -/
def roomNoU32 (model : DataModel) (roomNo : Bytes) : UInt32 :=
  if roomNo = [] then 0
  else
    match stoul model roomNo with
    | some n => UInt32.ofNat n
    | none => 0

end CloudMeeting.Client
