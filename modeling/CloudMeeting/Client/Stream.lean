/-
What the client's parser makes of a stream.

`next` is one round of the loop of `extract_all` as a decision about the buffer, and
`cutter` packs it for the framing library.  Unlike the server's codec it never rejects:
bytes that are no frame are skipped, in pieces as long as the length field among them
says.  What is cut off is therefore a message or nothing.

As long as the parser throws nothing away (`NoReset`), feeding it chunk by chunk is
draining the whole stream (`feedAll_eq_drain`), and a wire frame in front comes back as
`decodeBody` of its fields (`next_frame`).
-/
import CloudMeeting.Lib.Framing
import CloudMeeting.Client.Codec

namespace CloudMeeting.Client

namespace MessageCodec

open Endian Framing

variable {Image : Type} (qt : Qt Image)

/-! ### One round of the loop -/

/-- What a body says, by the type and the ip of its frame. -/
def decodeBody (type : MsgType) (ip : UInt32) (body : Bytes) : Option (Message Image) :=
  if type = .createMeetingResponse then some (decodeCreateMeetingResponse body)
  else if type = .joinMeetingResponse then some (decodeJoinMeetingResponse body)
  else if type = .partnerJoin2 then some (decodePartnerJoin2 body)
  else if type = .imgRecv then decodeImageRecv qt body ip
  else if type = .textRecv then decodeTextRecv qt body ip
  else if type = .audioRecv then decodeAudioRecv qt body ip
  else if type = .partnerJoin ∨ type = .partnerExit ∨ type = .closeCamera then
    some (decodeSimpleIpEvent (partnerKindFromWire type) ip)
  else none

theorem decodeWirePacket_eq (frame : Bytes) (nBody : Nat) (type : MsgType) :
    decodeWirePacket qt frame nBody type
      = decodeBody qt type (Wire.ipOf frame) (Wire.dataOf frame nBody) := rfl

/-- What the front of the buffer amounts to: more is needed, or a piece that says something
or nothing. -/
def next (bs : Bytes) : Next (Option (Message Image)) :=
  let packetSize := (Wire.lengthOf bs).toNat + 1 + msgHeader
  if bs.length < msgHeader then .wait
  else if bs.length < packetSize then .wait
  else if bs.headD 0 ≠ Wire.magic
      ∨ bs.getD (msgHeader + (Wire.lengthOf bs).toNat) 0 ≠ Wire.tail then
    .take none packetSize
  else .take (decodeWirePacket qt bs (Wire.lengthOf bs).toNat ⟨(Wire.typeOf bs).toUInt8⟩) packetSize

variable {qt}

theorem next_take {bs : Bytes} {m : Option (Message Image)} {n : Nat}
    (h : next qt bs = .take m n) : 0 < n ∧ n ≤ bs.length := by
  unfold next at h
  simp only [] at h
  split at h
  · simp at h
  split at h
  · simp at h
  split at h
  · simp only [Next.take.injEq] at h
    omega
  · simp only [Next.take.injEq] at h
    omega

theorem next_append {bs : Bytes} (h : next qt bs ≠ .wait) (more : Bytes) :
    next qt (bs ++ more) = next qt bs := by
  have hle : Wire.headerSize ≤ bs.length := by
    by_contra hlt
    apply h
    unfold next
    exact if_pos (Nat.lt_of_not_le hlt)
  have hsize : msgHeader = Wire.headerSize := rfl
  have hshort : ¬ bs.length < msgHeader := by omega
  have hshort' : ¬ (bs ++ more).length < msgHeader := by rw [List.length_append]; omega
  unfold next at h ⊢
  simp only [decodeWirePacket_eq] at h ⊢
  rw [if_neg hshort] at h ⊢
  rw [if_neg hshort', Wire.headD_append hle, Wire.lengthOf_append hle, Wire.typeOf_append hle,
    Wire.ipOf_append hle]
  by_cases hwhole : bs.length < (Wire.lengthOf bs).toNat + 1 + msgHeader
  · rw [if_pos hwhole] at h
    exact absurd rfl h
  · have hwhole' : ¬ (bs ++ more).length < (Wire.lengthOf bs).toNat + 1 + msgHeader := by
      rw [List.length_append]; omega
    rw [if_neg hwhole, if_neg hwhole', Wire.getD_append (by omega),
      Wire.dataOf_append hle more (by omega)]

variable (qt)

/-- The pieces of a stream of bytes. -/
def cutter : Cutter UInt8 (Option (Message Image)) where
  next := next qt
  pos h := (next_take h).1
  le h := (next_take h).2
  stable h more := next_append h more

@[simp] theorem cutter_next (bs : Bytes) : (cutter qt).next bs = next qt bs := rfl

/-- **A wire frame in front comes back as what its fields say.** -/
theorem next_frame (type : UInt16) (ip : UInt32) {data : Bytes} (hdata : data.length < 2 ^ 32)
    (more : Bytes) :
    next qt (Wire.frame type ip data ++ more)
      = .take (decodeBody qt ⟨type.toUInt8⟩ ip data) (Wire.frame type ip data).length := by
  have hsize : (UInt32.ofNat data.length).toNat = data.length := by
    rw [UInt32.toNat_ofNat', Nat.mod_eq_of_lt hdata]
  have hshape : Wire.frame type ip data ++ more
      = Wire.header type ip (UInt32.ofNat data.length) ++ (data ++ [Wire.tail] ++ more) := by
    simp [Wire.frame]
  have hlen : (Wire.frame type ip data ++ more).length
      = msgHeader + data.length + 1 + more.length := by simp [Wire.headerSize, msgHeader]
  have hlengthOf : (Wire.lengthOf (Wire.frame type ip data ++ more)).toNat = data.length := by
    rw [hshape, Wire.lengthOf_header, hsize]
  have htail : (Wire.frame type ip data ++ more).getD (msgHeader + data.length) 0 = Wire.tail :=
    Wire.tail_frame type ip data more
  unfold next
  simp only [decodeWirePacket_eq]
  rw [hlengthOf, Wire.head_frame, htail, Wire.dataOf_frame, if_neg (by omega),
    if_neg (by omega), if_neg (by simp), Wire.length_frame]
  rw [hshape, Wire.typeOf_header, Wire.ipOf_header]
  simp only [Next.take.injEq, msgHeader, Wire.headerSize, true_and]
  omega

/-! ### The loop -/

theorem extractAllFuel_eq (fuel : Nat) (bs : Bytes) :
    extractAllFuel qt fuel bs
      = ((drainFuel (cutter qt) fuel bs).1.filterMap id, (drainFuel (cutter qt) fuel bs).2) := by
  induction fuel generalizing bs with
  | zero => rfl
  | succ fuel ih =>
      have hlengthOf : fromBigEndian32 (bs.drop 7) = Wire.lengthOf bs := rfl
      have htypeOf : fromBigEndian16 (bs.drop 1) = Wire.typeOf bs := rfl
      rw [extractAllFuel, drainFuel, cutter_next]
      simp only [hlengthOf, htypeOf, ih]
      unfold next
      simp only []
      by_cases hheader : bs.length < msgHeader
      · simp only [if_pos hheader, List.filterMap_nil]
      by_cases hwhole : bs.length < (Wire.lengthOf bs).toNat + 1 + msgHeader
      · simp only [if_neg hheader, if_pos hwhole, List.filterMap_nil]
      by_cases hformat : bs.headD 0 ≠ Wire.magic
          ∨ bs.getD (msgHeader + (Wire.lengthOf bs).toNat) 0 ≠ Wire.tail
      · simp only [if_neg hheader, if_neg hwhole, if_pos hformat]
        rfl
      · simp only [if_neg hheader, if_neg hwhole, if_neg hformat]
        cases decodeWirePacket qt bs (Wire.lengthOf bs).toNat ⟨(Wire.typeOf bs).toUInt8⟩ <;> rfl

/-- **`extract_all` drains the buffer.** -/
theorem extractAll_eq (bs : Bytes) :
    extractAll qt bs = ((drain (cutter qt) bs).1.filterMap id, (drain (cutter qt) bs).2) :=
  extractAllFuel_eq qt bs.length bs

/-! ### Chunks -/

/-- The overflow test is never positive while these chunks are fed. -/
def NoReset : Bytes → List Bytes → Prop
  | _, [] => True
  | buffer, chunk :: chunks =>
      buffer.length + chunk.length ≤ kMaxBuffer ∧ NoReset (feed qt buffer chunk).2 chunks

instance NoReset.decidable : ∀ buffer chunks, Decidable (NoReset qt buffer chunks)
  | _, [] => inferInstanceAs (Decidable True)
  | buffer, chunk :: chunks =>
      have := NoReset.decidable (feed qt buffer chunk).2 chunks
      inferInstanceAs (Decidable (_ ∧ _))

variable {qt}

theorem retain_of_le {buffer : Bytes} {len : Nat} (h : buffer.length + len ≤ kMaxBuffer) :
    retain buffer len = buffer :=
  if_neg (Nat.not_lt_of_le h)

/-- A chunk that fits is drained together with what was kept. -/
theorem feed_eq {buffer chunk : Bytes} (hs : (cutter qt).Stuck buffer)
    (h : buffer.length + chunk.length ≤ kMaxBuffer) :
    feed qt buffer chunk = ((drain (cutter qt) (buffer ++ chunk)).1.filterMap id,
      (drain (cutter qt) (buffer ++ chunk)).2) := by
  unfold feed
  by_cases hnil : chunk.length = 0
  · rw [if_pos hnil, List.length_eq_zero_iff.mp hnil, List.append_nil, drain_of_stuck hs]
    rfl
  · rw [if_neg hnil, retain_of_le h, extractAll_eq]

/-- Without a reset the parser does what its cutter does, chunk by chunk. -/
theorem feedAll_eq_feed {buffer : Bytes} {chunks : List Bytes} (hs : (cutter qt).Stuck buffer)
    (h : NoReset qt buffer chunks) :
    feedAll qt buffer chunks = ((Framing.feed (cutter qt) buffer chunks).1.filterMap id,
      (Framing.feed (cutter qt) buffer chunks).2) := by
  induction chunks generalizing buffer with
  | nil => rfl
  | cons chunk chunks ih =>
      obtain ⟨hfit, hrest⟩ := h
      have hfed := feed_eq hs hfit
      rw [hfed] at hrest
      rw [feedAll, hfed, ih (drain_stuck _) hrest, Framing.feed, List.filterMap_append]

/-- **Without a reset, feeding chunk by chunk is draining the whole stream.** -/
theorem feedAll_eq_drain {buffer : Bytes} {chunks : List Bytes} (hs : (cutter qt).Stuck buffer)
    (h : NoReset qt buffer chunks) :
    feedAll qt buffer chunks = ((drain (cutter qt) (buffer ++ chunks.flatten)).1.filterMap id,
      (drain (cutter qt) (buffer ++ chunks.flatten)).2) := by
  rw [feedAll_eq_feed hs h, feed_eq_drain buffer chunks hs]

theorem feedAll_append (buffer : Bytes) (chunks more : List Bytes) :
    feedAll qt buffer (chunks ++ more)
      = ((feedAll qt buffer chunks).1 ++ (feedAll qt (feedAll qt buffer chunks).2 more).1,
        (feedAll qt (feedAll qt buffer chunks).2 more).2) := by
  induction chunks generalizing buffer with
  | nil => rfl
  | cons chunk chunks ih =>
      rw [List.cons_append, feedAll, ih, feedAll, List.append_assoc]

/-- **How a stream of bytes is cut into chunks makes no difference**, as long as nothing is thrown
away on either cut. -/
theorem chunking {chunks chunks' : List Bytes} (hsame : chunks.flatten = chunks'.flatten)
    (h : NoReset qt [] chunks) (h' : NoReset qt [] chunks') :
    feedAll qt [] chunks = feedAll qt [] chunks' := by
  rw [feedAll_eq_drain (cutter qt).stuck_nil h, feedAll_eq_drain (cutter qt).stuck_nil h', hsame]

/-- Functions of Qt that leave bytes as they are, for streams without pictures, texts and sounds. -/
def plainQt : Qt Unit := ⟨.llp64, id, id, id, id, fun _ => none, fun _ => none⟩

/-- A frame with a wrong tail, a partner that joins and the beginning of a third frame. -/
def sampleStream : Bytes :=
  [36, 0, 22, 10, 0, 0, 9, 0, 0, 0, 1, 7, 8] ++ Wire.frame 22 0x0A000001 [] ++ [36, 0, 24]

theorem chunking_sampleStream :
    feedAll plainQt [] (sampleStream.map fun b => [b])
      = feedAll plainQt [] [sampleStream.take 20, sampleStream.drop 20] :=
  chunking (by decide +kernel) (by decide +kernel) (by decide +kernel)

end MessageCodec

end CloudMeeting.Client
