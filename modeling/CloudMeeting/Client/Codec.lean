/-
The client's codec.

`encodeWireFrame` writes a message out and `WireStreamParser` reads messages from what
arrives, with one type missing on each side that the other would know.  The parser
keeps what it cannot use yet and, before it appends a chunk that would take it past
`kMaxBuffer`, throws away what it keeps.

Sizes are natural numbers here.  The source casts some of them to `int`, which agrees
as long as a byte array is shorter than 2^31, and no byte array the client handles gets
near that.
-/
import CloudMeeting.Wire.Layout
import CloudMeeting.Client.Message
import Mathlib.Algebra.Group.Int.Defs

namespace CloudMeeting.Client

open Endian

variable {Image : Type}

/-- `MSG_HEADER`. -/
def msgHeader : Nat := 11

def toBigEndian16 (value : UInt16) : Bytes := beBytes 2 value.toNat

def toBigEndian32 (value : UInt32) : Bytes := beBytes 4 value.toNat

def fromBigEndian16 (data : Bytes) : UInt16 := UInt16.ofNat (beNat (data.take 2))

def fromBigEndian32 (data : Bytes) : UInt32 := UInt32.ofNat (beNat (data.take 4))

/-- A `uint32` read as an `int32`. -/
def int32OfUInt32 (value : UInt32) : Int :=
  if value.toNat < 2 ^ 31 then value.toNat else value.toNat - 2 ^ 32

namespace MessageCodec

/-! ### Payloads -/

section Payload

variable (qt : Qt Image)

def compressTextPayload (text : Bytes) : Bytes := qt.qCompress text

def compressAudioPayload (pcm : Bytes) : Bytes := qt.toBase64 (qt.qCompress pcm)

def compressImagePayload (image : Image) : Bytes :=
  match qt.save image with
  | none => []
  | some raw => qt.toBase64 (qt.qCompress raw)

def decodeImageWirePayload (wireBody : Bytes) : Bytes := qt.qUncompress (qt.fromBase64 wireBody)

def decodeTextWirePayload (wireBody : Bytes) : Bytes := qt.qUncompress wireBody

def decodeAudioWirePayload (wireBody : Bytes) : Bytes := qt.qUncompress (qt.fromBase64 wireBody)

end Payload

/-! ### Encoding -/

def toWireType : MessageKind → MsgType
  | .createMeeting => .createMeeting
  | .joinMeeting => .joinMeeting
  | .exitMeeting => .exitMeeting
  | .closeCamera => .closeCamera
  | .sendText => .textSend
  | .sendImage => .imgSend
  | .sendAudio => .audioSend
  | .createMeetingResponse => .createMeetingResponse
  | .joinMeetingResponse => .joinMeetingResponse
  | .recvText => .textRecv
  | .recvImage => .imgRecv
  | .recvAudio => .audioRecv
  | .partnerJoin => .partnerJoin
  | .partnerExit => .partnerExit
  | .partnerJoin2 => .partnerJoin2
  | .closeCameraNotify => .closeCamera
  | .remoteHostClosedError => .remoteHostClosedError
  | .otherNetError => .otherNetError

def wireFrameNeedsLengthField (type : MsgType) : Bool :=
  type = .createMeeting ∨ type = .audioSend ∨ type = .closeCamera ∨ type = .imgSend
    ∨ type = .textSend ∨ type = .joinMeeting

/-- The body of a frame. -/
def wireBody (qt : Qt Image) : Message Image → Bytes
  | .joinMeeting roomNo => toBigEndian32 (roomNoU32 qt.dataModel roomNo)
  | .sendText text => compressTextPayload qt text
  | .sendImage image => compressImagePayload qt image
  | .sendAudio audio => compressAudioPayload qt audio
  | _ => []

def encodeWireFrame (qt : Qt Image) (msg : Message Image) (localIp : UInt32) : Bytes :=
  let wireType := toWireType msg.kind
  let body := wireBody qt msg
  [Wire.magic] ++ toBigEndian16 wireType.code.toUInt16 ++ toBigEndian32 localIp
    ++ (if wireFrameNeedsLengthField wireType then toBigEndian32 (UInt32.ofNat body.length) else [])
    ++ body ++ [Wire.tail]

/-! ### Decoding

A body is passed as the bytes it consists of; in the source it is a pointer and a
length.
-/

def decodeCreateMeetingResponse (body : Bytes) : Message Image :=
  .createMeetingResponse (if 4 ≤ body.length then fromBigEndian32 body else 0)

/-- The code is copied out of the body as it stands there, in the host's own byte order. -/
def decodeJoinMeetingResponse (body : Bytes) : Message Image :=
  .joinMeetingResponse (if 4 ≤ body.length then int32OfUInt32 (load32 body) else 0)

def decodePartnerJoin2 (body : Bytes) : Message Image :=
  .partnerJoin2 ((List.range (body.length / 4)).map fun i => fromBigEndian32 (body.drop (4 * i)))

section Decode

variable (qt : Qt Image)

def decodeImageRecv (body : Bytes) (ip : UInt32) : Option (Message Image) :=
  let decoded := decodeImageWirePayload qt body
  if decoded = [] then none else (qt.loadFromData decoded).map fun image => .recvImage ip image

def decodeTextRecv (body : Bytes) (ip : UInt32) : Option (Message Image) :=
  let decoded := decodeTextWirePayload qt body
  if decoded = [] then none else some (.recvText ip decoded)

def decodeAudioRecv (body : Bytes) (ip : UInt32) : Option (Message Image) :=
  let decoded := decodeAudioWirePayload qt body
  if decoded = [] then none else some (.recvAudio ip decoded)

def partnerKindFromWire (type : MsgType) : MessageKind :=
  if type = .partnerJoin then .partnerJoin
  else if type = .partnerExit then .partnerExit
  else if type = .closeCamera then .closeCameraNotify
  else .partnerJoin

def decodeSimpleIpEvent (kind : MessageKind) (ip : UInt32) : Message Image :=
  match kind with
  | .partnerExit => .partnerExit ip
  | .closeCameraNotify => .closeCameraNotify ip
  | _ => .partnerJoin ip

/-- Decode one frame with a body of `nBody` bytes; unsupported types give nothing. -/
def decodeWirePacket (frame : Bytes) (nBody : Nat) (msgtype : MsgType) : Option (Message Image) :=
  let body := (frame.drop msgHeader).take nBody
  let ip := fromBigEndian32 (frame.drop 3)
  if msgtype = .createMeetingResponse then some (decodeCreateMeetingResponse body)
  else if msgtype = .joinMeetingResponse then some (decodeJoinMeetingResponse body)
  else if msgtype = .partnerJoin2 then some (decodePartnerJoin2 body)
  else if msgtype = .imgRecv then decodeImageRecv qt body ip
  else if msgtype = .textRecv then decodeTextRecv qt body ip
  else if msgtype = .audioRecv then decodeAudioRecv qt body ip
  else if msgtype = .partnerJoin ∨ msgtype = .partnerExit ∨ msgtype = .closeCamera then
    some (decodeSimpleIpEvent (partnerKindFromWire msgtype) ip)
  else none

/-! ### The stream parser -/

/-- `k_max_buffer`, 4 MiB. -/
def kMaxBuffer : Nat := 4 * 1024 * 1024

/-- The loop of `extract_all`, at most `fuel` times. -/
def extractAllFuel : Nat → Bytes → List (Message Image) × Bytes
  | 0, buffer => ([], buffer)
  | fuel + 1, buffer =>
      if buffer.length < msgHeader then ([], buffer)
      else
        let nBody := (fromBigEndian32 (buffer.drop 7)).toNat
        let packetSize := nBody + 1 + msgHeader
        if buffer.length < packetSize then ([], buffer)
        else if buffer.headD 0 ≠ Wire.magic ∨ buffer.getD (msgHeader + nBody) 0 ≠ Wire.tail then
          extractAllFuel fuel (buffer.drop packetSize)
        else
          -- the two bytes of the type are cut to one
          let msgtype : MsgType := ⟨(fromBigEndian16 (buffer.drop 1)).toUInt8⟩
          let rest := extractAllFuel fuel (buffer.drop packetSize)
          match decodeWirePacket qt buffer nBody msgtype with
          | some packet => (packet :: rest.1, rest.2)
          | none => rest

def extractAll (buffer : Bytes) : List (Message Image) × Bytes :=
  extractAllFuel qt buffer.length buffer

/-- What the parser keeps of its buffer when a chunk of `len` bytes arrives. -/
def retain (buffer : Bytes) (len : Nat) : Bytes :=
  if buffer.length + len > kMaxBuffer then [] else buffer

/-- `WireStreamParser::feed`: the messages of a chunk, and the buffer kept. -/
def feed (buffer data : Bytes) : List (Message Image) × Bytes :=
  if data.length = 0 then ([], buffer)
  else extractAll qt (retain buffer data.length ++ data)

/-- The messages and the buffer after a list of chunks. -/
def feedAll : Bytes → List Bytes → List (Message Image) × Bytes
  | buffer, [] => ([], buffer)
  | buffer, chunk :: chunks =>
      let fed := feed qt buffer chunk
      let rest := feedAll fed.2 chunks
      (fed.1 ++ rest.1, rest.2)

end Decode

end MessageCodec

end CloudMeeting.Client
