/-
The server's codec.

`tryDecode` looks at the front of a connection's read buffer and `encode` writes a
packet out.  `encode` produces a wire frame (`encode_eq_frame`).  What `tryDecode`
decides depends on the readable bytes alone; `next` is that decision as a function of
them, `tryDecode_spec` says so, and `cutter` packs it for the framing library: it
waits, rejects or takes, and bytes arriving behind do not change its mind.
-/
import CloudMeeting.Lib.Framing
import CloudMeeting.Wire.Layout
import CloudMeeting.Server.Buffer

namespace CloudMeeting.Server

open Endian Wire

/-- A message type as it stands on the wire; any 16-bit value can arrive. -/
structure MessageType where
  code : UInt16
deriving DecidableEq, Repr

namespace MessageType

def imgSend : MessageType := ⟨0⟩
def imgRecv : MessageType := ⟨1⟩
def audioSend : MessageType := ⟨2⟩
def audioRecv : MessageType := ⟨3⟩
def textSend : MessageType := ⟨4⟩
def textRecv : MessageType := ⟨5⟩
def createMeeting : MessageType := ⟨6⟩
def exitMeeting : MessageType := ⟨7⟩
def joinMeeting : MessageType := ⟨8⟩
def closeCamera : MessageType := ⟨9⟩
def createMeetingResponse : MessageType := ⟨20⟩
def partnerExit : MessageType := ⟨21⟩
def partnerJoin : MessageType := ⟨22⟩
def joinMeetingResponse : MessageType := ⟨23⟩
def partnerJoin2 : MessageType := ⟨24⟩

end MessageType

structure Packet where
  type : MessageType := ⟨0⟩
  ip : UInt32 := 0
  payload : Bytes := []
deriving DecidableEq, Repr

inductive DecodeStatus where
  | needMore
  | ok
  | invalid
deriving DecidableEq, Repr

namespace Codec

def readUint16 (data : Bytes) : UInt16 := ntohs (load16 data)

def readUint32 (data : Bytes) : UInt32 := ntohl (load32 data)

def writeUint16 (value : UInt16) : Bytes := store16 (htons value)

def writeUint32 (value : UInt32) : Bytes := store32 (htonl value)

/-- Decode one packet into `packet`; on success the frame is consumed from the buffer. -/
def tryDecode (buffer : Buffer) (packet : Packet) : DecodeStatus × Buffer × Packet :=
  if buffer.readableSize < headerSize then (.needMore, buffer, packet)
  else
    let head := buffer.readBegin
    if head.headD 0 ≠ magic then (.invalid, buffer, packet)
    else
      let packet := { packet with type := ⟨readUint16 (head.drop 1)⟩
                                  ip := readUint32 (head.drop 3) }
      let payloadSize := (readUint32 (head.drop 7)).toNat
      let frameSize := headerSize + payloadSize + 1
      if buffer.readableSize < frameSize then (.needMore, buffer, packet)
      else if head.getD (frameSize - 1) 0 ≠ tail then (.invalid, buffer, packet)
      else
        (.ok, buffer.moveReadPos frameSize,
          { packet with payload := (head.drop headerSize).take payloadSize })

def headerIncludesIp (type : MessageType) : Bool :=
  if type = .createMeetingResponse ∨ type = .joinMeetingResponse ∨ type = .partnerJoin2 then false
  else true

def encode (packet : Packet) : Bytes :=
  [magic] ++ writeUint16 packet.type.code
    ++ (if headerIncludesIp packet.type then writeUint32 packet.ip else List.replicate 4 0)
    ++ writeUint32 (UInt32.ofNat packet.payload.length)
    ++ packet.payload ++ [tail]

/-! ### Encoding writes a frame -/

/-- The ip a packet shows on the wire. -/
def wireIp (packet : Packet) : UInt32 := if headerIncludesIp packet.type then packet.ip else 0

theorem encode_eq_frame (packet : Packet) :
    encode packet = frame packet.type.code (wireIp packet) packet.payload := by
  have hip : (if headerIncludesIp packet.type then writeUint32 packet.ip else List.replicate 4 0)
      = beBytes 4 (wireIp packet).toNat := by
    rw [wireIp]
    split
    · exact store32_htonl _
    · rfl
  rw [encode, hip, writeUint16, writeUint32, store16_htons, store32_htonl, frame, header]
  simp

theorem typeOf_encode (packet : Packet) : typeOf (encode packet) = packet.type.code := by
  rw [encode_eq_frame, frame, List.append_assoc, typeOf_header]

@[simp] theorem length_encode (packet : Packet) :
    (encode packet).length = headerSize + packet.payload.length + 1 := by
  rw [encode_eq_frame, length_frame]

/-! ### Decoding as a decision about the readable bytes -/

/-- What the bytes in front amount to: no decision yet, a malformed frame, or a packet. -/
def next (bs : Bytes) : Framing.Next Packet :=
  if bs.length < headerSize then .wait
  else if bs.headD 0 ≠ magic then .reject
  else if bs.length < headerSize + (lengthOf bs).toNat + 1 then .wait
  else if bs.getD (headerSize + (lengthOf bs).toNat) 0 ≠ tail then .reject
  else .take ⟨⟨typeOf bs⟩, ipOf bs, dataOf bs (lengthOf bs).toNat⟩
    (headerSize + (lengthOf bs).toNat + 1)

theorem readUint16_drop {bs : Bytes} {i : Nat} (h : i + 2 ≤ bs.length) :
    readUint16 (bs.drop i) = UInt16.ofNat (beNat ((bs.drop i).take 2)) :=
  ntohs_load16 (by rw [List.length_drop]; omega)

theorem readUint32_drop {bs : Bytes} {i : Nat} (h : i + 4 ≤ bs.length) :
    readUint32 (bs.drop i) = UInt32.ofNat (beNat ((bs.drop i).take 4)) :=
  ntohl_load32 (by rw [List.length_drop]; omega)

/-- **`tryDecode` decides as `next` does on the readable bytes**, and consumes what it takes. -/
theorem tryDecode_spec {buffer : Buffer} (h : buffer.WF) (packet : Packet) :
    match next buffer.readable with
    | .wait => ∃ p, tryDecode buffer packet = (.needMore, buffer, p)
    | .reject => ∃ p, tryDecode buffer packet = (.invalid, buffer, p)
    | .take p n => tryDecode buffer packet = (.ok, buffer.moveReadPos n, p) := by
  have hlen := Buffer.length_readable h
  -- the storage goes on behind the readable bytes, but no field reads that far
  obtain ⟨more, hmore⟩ : ∃ more, buffer.readBegin = buffer.readable ++ more :=
    ⟨buffer.readBegin.drop buffer.readableSize, (List.take_append_drop _ _).symm⟩
  unfold next tryDecode
  rw [hlen, hmore]
  by_cases hheader : buffer.readableSize < headerSize
  · simp only [if_pos hheader]
    exact ⟨packet, rfl⟩
  have hle : headerSize ≤ buffer.readable.length := by omega
  have hle' : headerSize ≤ (buffer.readable ++ more).length := by
    rw [List.length_append]; omega
  simp only [if_neg hheader, headD_append hle more]
  by_cases hmagic : buffer.readable.headD 0 ≠ magic
  · simp only [if_pos hmagic]
    exact ⟨packet, rfl⟩
  have htype : readUint16 ((buffer.readable ++ more).drop 1) = typeOf buffer.readable := by
    rw [← typeOf_append hle more]
    exact readUint16_drop (by simp only [headerSize] at hle'; omega)
  have hip : readUint32 ((buffer.readable ++ more).drop 3) = ipOf buffer.readable := by
    rw [← ipOf_append hle more]
    exact readUint32_drop (by simp only [headerSize] at hle'; omega)
  have hsize : readUint32 ((buffer.readable ++ more).drop 7) = lengthOf buffer.readable := by
    rw [← lengthOf_append hle more]
    exact readUint32_drop (by simp only [headerSize] at hle'; omega)
  simp only [if_neg hmagic, htype, hip, hsize]
  by_cases hwhole : buffer.readableSize < headerSize + (lengthOf buffer.readable).toNat + 1
  · simp only [if_pos hwhole]
    exact ⟨_, rfl⟩
  rw [Nat.add_sub_cancel, getD_append (by omega)]
  by_cases htail : buffer.readable.getD (headerSize + (lengthOf buffer.readable).toNat) 0 ≠ tail
  · simp only [if_neg hwhole, if_pos htail]
    exact ⟨_, rfl⟩
  · simp only [if_neg hwhole, if_neg htail]
    have hdata := dataOf_append hle more (n := (lengthOf buffer.readable).toNat) (by omega)
    rw [dataOf] at hdata
    rw [hdata]

/-! ### The codec as a frame recogniser -/

theorem next_wait_or_le {bs : Bytes} (h : next bs ≠ .wait) : headerSize ≤ bs.length := by
  unfold next at h
  by_contra hlt
  rw [if_pos (by omega)] at h
  exact h rfl

/-- What there is to know about a packet that has been taken. -/
theorem next_take_eq {bs : Bytes} {p : Packet} {n : Nat} (h : next bs = .take p n) :
    n ≤ bs.length ∧ n = headerSize + (lengthOf bs).toNat + 1 ∧
      p = ⟨⟨typeOf bs⟩, ipOf bs, dataOf bs (lengthOf bs).toNat⟩ := by
  unfold next at h
  split at h
  · simp at h
  split at h
  · simp at h
  split at h
  · simp at h
  split at h
  · simp at h
  simp only [Framing.Next.take.injEq] at h
  obtain ⟨rfl, rfl⟩ := h
  exact ⟨by omega, rfl, rfl⟩

theorem next_take {bs : Bytes} {p : Packet} {n : Nat} (h : next bs = .take p n) :
    n = headerSize + p.payload.length + 1 ∧ n ≤ bs.length := by
  obtain ⟨hle, rfl, rfl⟩ := next_take_eq h
  simp only [dataOf, List.length_take, List.length_drop]
  omega

/-- What is left when a packet is taken off a buffer. -/
theorem readable_taken {buffer : Buffer} (h : buffer.WF) {p : Packet} {n : Nat}
    (hnext : next buffer.readable = .take p n) :
    (buffer.moveReadPos n).readable = buffer.readable.drop n := by
  apply Buffer.readable_moveReadPos h
  rw [← Buffer.length_readable h]
  exact (next_take_eq hnext).1

/-- A packet is no longer than its length field can say. -/
theorem payload_lt {bs : Bytes} {p : Packet} {n : Nat} (h : next bs = .take p n) :
    p.payload.length < 2 ^ 32 := by
  obtain ⟨-, -, rfl⟩ := next_take_eq h
  have hlt := (lengthOf bs).toNat_lt
  simp only [dataOf, List.length_take, List.length_drop]
  omega

theorem next_append {bs : Bytes} (h : next bs ≠ .wait) (more : Bytes) :
    next (bs ++ more) = next bs := by
  have hle := next_wait_or_le h
  have hshort : ¬ bs.length < headerSize := by omega
  have hshort' : ¬ (bs ++ more).length < headerSize := by rw [List.length_append]; omega
  unfold next at h ⊢
  rw [if_neg hshort] at h ⊢
  rw [if_neg hshort', headD_append hle, lengthOf_append hle, typeOf_append hle, ipOf_append hle]
  by_cases hmagic : bs.headD 0 ≠ magic
  · rw [if_pos hmagic, if_pos hmagic]
  · rw [if_neg hmagic] at h ⊢
    rw [if_neg hmagic]
    by_cases hwhole : bs.length < headerSize + (lengthOf bs).toNat + 1
    · rw [if_pos hwhole] at h
      exact absurd rfl h
    · have hwhole' : ¬ (bs ++ more).length < headerSize + (lengthOf bs).toNat + 1 := by
        rw [List.length_append]; omega
      rw [if_neg hwhole, if_neg hwhole', getD_append (by omega), dataOf_append hle more (by omega)]

/-- The packets of a stream of bytes. -/
def cutter : Framing.Cutter UInt8 Packet where
  next := next
  pos h := by have := (next_take h).1; omega
  le h := (next_take h).2
  stable h more := next_append h more

theorem next_frame (type : UInt16) (ip : UInt32) {data : Bytes} (hdata : data.length < 2 ^ 32)
    (more : Bytes) :
    next (frame type ip data ++ more)
      = .take ⟨⟨type⟩, ip, data⟩ (frame type ip data).length := by
  have hsize : (UInt32.ofNat data.length).toNat = data.length := by
    rw [UInt32.toNat_ofNat', Nat.mod_eq_of_lt hdata]
  have hshape : frame type ip data ++ more
      = header type ip (UInt32.ofNat data.length) ++ (data ++ [tail] ++ more) := by
    simp [frame]
  have hlen : (frame type ip data ++ more).length
      = headerSize + data.length + 1 + more.length := by simp
  have hlengthOf : (lengthOf (frame type ip data ++ more)).toNat = data.length := by
    rw [hshape, lengthOf_header, hsize]
  unfold next
  rw [hlengthOf, head_frame, tail_frame, dataOf_frame, if_neg (by omega), if_neg (by simp),
    if_neg (by omega), if_neg (by simp), length_frame]
  rw [hshape, typeOf_header, ipOf_header]

/-- What a decoder makes of an encoded packet: some types go without their ip. -/
def transmitted (packet : Packet) : Packet := { packet with ip := wireIp packet }

/-- **Encoded packets come back**, whatever follows them. -/
theorem next_encode {packet : Packet} (h : packet.payload.length < 2 ^ 32) (more : Bytes) :
    next (encode packet ++ more) = .take (transmitted packet) (encode packet).length := by
  rw [encode_eq_frame, next_frame _ _ h]
  rfl

/-! ### Both directions -/

/-- A packet that has been taken says what the bytes were, where its type goes with its ip. -/
theorem eq_encode_of_next {bs : Bytes} {packet : Packet} {n : Nat}
    (h : next bs = .take packet n) (hip : headerIncludesIp packet.type = true ∨ packet.ip = 0) :
    bs = encode packet ++ bs.drop n := by
  unfold next at h
  split at h
  · simp at h
  split at h
  · simp at h
  rename_i hmagic
  split at h
  · simp at h
  rename_i hwhole
  split at h
  · simp at h
  rename_i htail
  simp only [Framing.Next.take.injEq] at h
  obtain ⟨rfl, rfl⟩ := h
  have hwire : wireIp ⟨⟨typeOf bs⟩, ipOf bs, dataOf bs (lengthOf bs).toNat⟩ = ipOf bs := by
    unfold wireIp
    split
    · rfl
    · rename_i hnone
      exact (hip.resolve_left hnone).symm
  rw [encode_eq_frame, hwire]
  exact eq_frame (by omega) (not_not.mp hmagic) (not_not.mp htail)

/-- **Decoding undoes encoding and encoding undoes decoding.**  An encoded packet comes back,
without its ip for three types, and leaves what follows it readable; the bytes of a decoded
packet are those it is encoded as, if its ip is among them; and nothing is consumed otherwise. -/
theorem roundTrip {buffer : Buffer} (h : buffer.WF) (last : Packet) :
    (∀ packet rest, packet.payload.length < 2 ^ 32 → buffer.readable = encode packet ++ rest →
      ∃ left, tryDecode buffer last =
          (.ok, left, { packet with
            ip := if packet.type = .createMeetingResponse ∨ packet.type = .joinMeetingResponse
              ∨ packet.type = .partnerJoin2 then 0 else packet.ip }) ∧
        left.readable = rest) ∧
    (∀ left packet, tryDecode buffer last = (.ok, left, packet) →
      headerIncludesIp packet.type = true ∨ packet.ip = 0 →
      buffer.readable = encode packet ++ left.readable) ∧
    ∀ status left packet, tryDecode buffer last = (status, left, packet) → status ≠ .ok →
      left.readable = buffer.readable := by
  have hspec := tryDecode_spec h last
  refine ⟨fun packet rest hsize hreadable => ?_, fun left packet hdecode hip => ?_,
    fun status left packet hdecode hstatus => ?_⟩
  · have hnext := hreadable ▸ next_encode hsize rest
    rw [hnext] at hspec
    have hwire : wireIp packet = if packet.type = .createMeetingResponse
        ∨ packet.type = .joinMeetingResponse ∨ packet.type = .partnerJoin2 then 0
        else packet.ip := by
      unfold wireIp headerIncludesIp
      split <;> simp
    refine ⟨buffer.moveReadPos (encode packet).length, ?_, ?_⟩
    · rw [← hwire]
      exact hspec
    · rw [readable_taken h hnext, hreadable, List.drop_left]
  · cases hnext : next buffer.readable with
    | wait =>
        rw [hnext] at hspec
        obtain ⟨p, hspec⟩ := hspec
        simp [hspec] at hdecode
    | reject =>
        rw [hnext] at hspec
        obtain ⟨p, hspec⟩ := hspec
        simp [hspec] at hdecode
    | take taken n =>
        rw [hnext] at hspec
        simp only [hspec, Prod.mk.injEq, true_and] at hdecode
        obtain ⟨rfl, rfl⟩ := hdecode
        rw [readable_taken h hnext]
        exact eq_encode_of_next hnext hip
  · cases hnext : next buffer.readable with
    | take taken n =>
        rw [hnext] at hspec
        simp only [hspec, Prod.mk.injEq] at hdecode
        exact absurd hdecode.1.symm hstatus
    | _ =>
        rw [hnext] at hspec
        obtain ⟨p, hspec⟩ := hspec
        simp only [hspec, Prod.mk.injEq] at hdecode
        rw [hdecode.2.1]

/-- A response whose payload has the delimiters of a frame in it. -/
def samplePacket : Packet := ⟨.joinMeetingResponse, 5, [36, 35, 36]⟩

/-- The packet as it is encoded, and two bytes more. -/
def sampleBuffer : Buffer := ⟨encode samplePacket ++ [1, 2], 0, 17⟩

theorem roundTrip_sampleBuffer : ∃ left,
    tryDecode sampleBuffer {} = (.ok, left, ⟨.joinMeetingResponse, 0, [36, 35, 36]⟩) ∧
      left.readable = [1, 2] :=
  (@roundTrip sampleBuffer ⟨by decide, by decide⟩ {}).1 samplePacket [1, 2] (by decide) (by decide)

end Codec

end CloudMeeting.Server
