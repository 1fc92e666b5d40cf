/-
What the server itself tells its clients.

A `Notice` is what a room or the service has to say: a room has been created, somebody has
joined or left or closed the camera, these are the others in the room.  Some of it goes
into the header of a frame and some into the body, and each side has functions of its own
to turn numbers into bytes.  The client reads what the server wrote (`noticesRead`).
-/
import CloudMeeting.Link.Roster

namespace CloudMeeting.Link

open Framing Server Client Endian

variable {Image : Type} {qt : Qt Image} {cfg : ServerConfig} {env : Env}

/-- What a room or the service puts into a packet. -/
inductive Notice where
  /-- The answer to a create request: the room, or 0 when there is none. -/
  | created (roomId : UInt32)
  | joined (ip : UInt32)
  | left (ip : UInt32)
  | closedCamera (ip : UInt32)
  /-- The participants a newcomer finds. -/
  | present (entries : Entries)

namespace Notice

/-- The packet as the server builds it. -/
def packet : Notice → Packet
  | .created roomId => createMeetingResponse (htonl roomId)
  | .joined ip => { type := .partnerJoin, ip := ip }
  | .left ip => { type := .partnerExit, ip := ip }
  | .closedCamera ip => { type := .closeCamera, ip := ip }
  | .present entries => partnerList entries

/-- The message the client should get, with the numbers the server put in. -/
def message : Notice → Message Image
  | .created roomId => .createMeetingResponse roomId
  | .joined ip => .partnerJoin ip
  | .left ip => .partnerExit ip
  | .closedCamera ip => .closeCameraNotify ip
  | .present entries => .partnerJoin2 (entries.map fun item => item.2.ipNetwork)

/-- A list has no more entries than a room has seats. -/
def Within (cfg : ServerConfig) : Notice → Prop
  | .present entries => entries.length ≤ cfg.maxParticipantsPerRoom
  | _ => True

theorem payload_packet (n : Notice) (hfew : cfg.maxParticipantsPerRoom < 2 ^ 30)
    (hn : n.Within cfg) : n.packet.payload.length < 2 ^ 32 := by
  cases n with
  | created roomId =>
      rw [packet, createMeetingResponse_length]
      omega
  | present entries =>
      have hlen : (partnerList entries).payload.length = entries.length * 4 := by
        simp [partnerList, List.length_flatMap]
      have hle : entries.length ≤ cfg.maxParticipantsPerRoom := hn
      rw [packet, hlen]
      omega
  | joined ip | left ip | closedCamera ip => exact Nat.two_pow_pos 32

/-- **What the client decodes is what the server said.** -/
theorem decoding_packet (n : Notice) : decoding qt n.packet = some n.message := by
  rw [decoding_eq]
  cases n with
  | created roomId =>
      have hlen : 4 ≤ (store32 (htonl roomId)).length := by rw [length_store32]
      have hbody : fromBigEndian32 (store32 (htonl roomId)) = roomId := by
        have hback := fromBigEndian32_beBytes roomId []
        rwa [List.append_nil, ← store32_htonl] at hback
      show some (MessageCodec.decodeCreateMeetingResponse (store32 (htonl roomId))) = _
      rw [MessageCodec.decodeCreateMeetingResponse, if_pos hlen, hbody, message]
  | joined ip => rfl
  | left ip => rfl
  | closedCamera ip => rfl
  | present entries =>
      have hbody : (partnerList entries).payload
          = (entries.map fun item => item.2.ipNetwork).flatMap fun ip => store32 (htonl ip) := by
        rw [partnerList, List.flatMap_map]
      show some (MessageCodec.decodePartnerJoin2 (partnerList entries).payload) = _
      rw [hbody, decodePartnerJoin2_flatMap, message]

end Notice

/-! ### The packets of the server -/

/-- The types of packets the server has notices in. -/
def isNotice (type : MessageType) : Bool :=
  type = .createMeetingResponse ∨ type = .partnerJoin ∨ type = .partnerExit ∨ type = .partnerJoin2
    ∨ type = .closeCamera

/-- What a record makes the server tell `d`. -/
def recordNotices (d : ConnId) : Record → List Notice
  | .packet c sent present =>
      match present.lookup c with
      | some sender =>
          if sent.type = .closeCamera ∧ d ≠ c ∧ d ∈ present then [.closedCamera sender.ipNetwork]
          else []
      | none => []
  | .answered c response | .hosted _ c response =>
      if c = d ∧ response.type = .createMeetingResponse then
        [.created (ntohl (load32 response.payload))]
      else []
  | .joined _ c _ ip present =>
      if c = d then [.present present]
      else if d ∈ present.map (·.1) then [.joined ip]
      else []
  | .left _ _ participant remaining =>
      if d ∈ remaining then [.left participant.ipNetwork] else []
  | .malformed _ | .dissolved _ => []

theorem decoding_created {response : Packet} (htype : response.type = .createMeetingResponse)
    (hlen : response.payload.length = 4) : (decoding qt response : Option (Message Image))
      = some (Notice.message (.created (ntohl (load32 response.payload)))) := by
  have hge : 4 ≤ response.payload.length := Nat.le_of_eq hlen.symm
  rw [decoding_eq, htype]
  show some (MessageCodec.decodeCreateMeetingResponse response.payload) = _
  rw [MessageCodec.decodeCreateMeetingResponse, if_pos hge, fromBigEndian32, Notice.message,
    ntohl_load32 hge]

theorem filter_packet (n : Notice) :
    (([n.packet].filter fun p => isNotice p.type).map (decoding qt) : List (Option (Message Image)))
      = [some n.message] := by
  have hyes : isNotice n.packet.type = true := by cases n <;> rfl
  simp [hyes, n.decoding_packet]

/-- The answer to a request is a notice if a room has been asked for. -/
theorem filter_answer {response : Packet} (htype : response.type = .createMeetingResponse
      ∨ response.type = .joinMeetingResponse) (hlen : response.payload.length = 4)
    (c d : ConnId) :
    (((if c = d then [response] else []).filter fun p => isNotice p.type).map (decoding qt)
        : List (Option (Message Image)))
      = (if c = d ∧ response.type = .createMeetingResponse then
          [Notice.created (ntohl (load32 response.payload))] else []).map (some ·.message) := by
  by_cases hcd : c = d
  · rcases htype with hcreate | hjoin
    · simp [hcd, hcreate, isNotice, decoding_created hcreate hlen]
    · have hno : isNotice response.type = false := by rw [hjoin]; rfl
      have hne : response.type ≠ .createMeetingResponse := by rw [hjoin]; decide
      simp [hcd, hno, hne]
  · simp [hcd]

/-- What members send each other, other than that a camera is closed, is no notice. -/
theorem not_isNotice_relayed {type type' : MessageType} (hclose : type ≠ .closeCamera)
    (h : relayedType type = some type') : isNotice type' = false := by
  unfold relayedType at h
  split at h
  · cases h; rfl
  split at h
  · cases h; rfl
  split at h
  · cases h; rfl
  simp at h

/-- **What clients decode of the notices a record sends is what it says.** -/
theorem decoding_sends {r : Record} (hr : r.Shaped cfg) (d : ConnId) :
    (((r.sends d).filter fun p => isNotice p.type).map (decoding qt) :
        List (Option (Message Image)))
      = (recordNotices d r).map (some ·.message) := by
  cases r with
  | packet c sent present =>
      simp only [Record.sends, recordNotices]
      cases hseat : present.lookup c with
      | none => rfl
      | some sender =>
          by_cases hin : d ≠ c ∧ d ∈ present
          · by_cases hclose : sent.type = .closeCamera
            · have hout : outbound sender.ipNetwork sent
                  = some (Notice.closedCamera sender.ipNetwork).packet := by
                rw [outbound_eq, hclose]
                rfl
              simp only [if_pos hin, hout, Option.toList_some, if_pos (And.intro hclose hin)]
              exact filter_packet _
            · have hno : ∀ p ∈ outbound sender.ipNetwork sent, isNotice p.type = false := by
                intro p hp
                obtain ⟨type, htype, rfl⟩ := Option.map_eq_some_iff.mp (outbound_eq _ _ ▸ hp)
                exact not_isNotice_relayed hclose htype
              simp only [if_pos hin, if_neg (fun h : _ ∧ _ => hclose h.1)]
              cases hout : outbound sender.ipNetwork sent with
              | none => rfl
              | some p => simp [hno p hout]
          · simp [hin]
  | malformed c => rfl
  | answered c response => exact filter_answer hr.1 hr.2 c d
  | hosted p c response => exact filter_answer (Or.inl hr.1) hr.2 c d
  | joined p c response ip present =>
      simp only [Record.sends, recordNotices]
      by_cases hcd : c = d
      · have hno : isNotice response.type = false := by rw [hr.1]; rfl
        simp only [if_pos hcd]
        rw [List.filter_cons_of_neg (by simp [hno])]
        exact filter_packet (.present present)
      · simp only [if_neg hcd]
        by_cases hin : d ∈ present.map (·.1)
        · rw [if_pos hin, if_pos hin]
          exact filter_packet (.joined ip)
        · rw [if_neg hin, if_neg hin]
          rfl
  | left p c participant remaining =>
      simp only [Record.sends, recordNotices]
      by_cases hin : d ∈ remaining
      · rw [if_pos hin, if_pos hin]
        exact filter_packet (.left participant.ipNetwork)
      · rw [if_neg hin, if_neg hin]
        rfl
  | dissolved p => rfl

/-! ### Lists of notices -/

/-- **Clients read what the server tells them**, one message for each packet and in order. -/
theorem noticesRead (hfew : cfg.maxParticipantsPerRoom < 2 ^ 30) {ns : List Notice}
    (hns : ∀ n ∈ ns, n.Within cfg) {chunks : List Bytes}
    (hcut : chunks.flatten = encodeAll (ns.map Notice.packet))
    (hroom : MessageCodec.NoReset qt [] chunks) :
    MessageCodec.feedAll qt [] chunks = (ns.map Notice.message, []) := by
  have hshort : ∀ p ∈ ns.map Notice.packet, p.payload.length < 2 ^ 32 := by
    intro p hp
    obtain ⟨n, hn, rfl⟩ := List.mem_map.mp hp
    exact n.payload_packet hfew (hns n hn)
  rw [feedAll_encodeAll qt hshort hroom hcut, List.filterMap_map]
  simp [Notice.decoding_packet]

/-- A room is created, two join, one of them closes the camera and leaves. -/
def sampleNotices : List Notice :=
  [.created 129, .joined 0x0A000002, .joined 0x0A000003, .closedCamera 0x0A000002,
    .left 0x0A000002, .present [⟨1, 0x0A000001, true⟩, ⟨3, 0x0A000003, false⟩]]

theorem noticesRead_sampleNotices : MessageCodec.feedAll sampleQt []
      [(encodeAll (sampleNotices.map Notice.packet)).take 30,
        (encodeAll (sampleNotices.map Notice.packet)).drop 30]
    = (sampleNotices.map Notice.message, []) :=
  noticesRead (show ({} : ServerConfig).maxParticipantsPerRoom < 2 ^ 30 by decide)
    (by simp [sampleNotices, Notice.Within]) (by decide +kernel) (by decide +kernel)

end CloudMeeting.Link
