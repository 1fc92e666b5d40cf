/-
What a client makes of what the server sends.

The server's frames in front of the parser come back one by one (`next_encode`), so
without an overflow reset the messages of a stream are the decodings of its frames.  The
reset is tested before anything is extracted, against the unfinished frame the parser
keeps and the whole chunk that has arrived.  `Fits` is that test, passed at every chunk,
in terms of the frame sizes and the chunks alone.

The parser loses nothing exactly when the chunks fit (`noLoss_iff`).  Each frame being
small is not enough: a few bytes kept and a long chunk are too much together, and after
a reset the parser reads on from the middle of a frame (`lostNotices`).
-/
import CloudMeeting.Client.Stream
import CloudMeeting.Link.Uplink
import Mathlib.Data.List.Induction

namespace CloudMeeting.Link

open Framing Server Client

variable {Image : Type} (qt : Qt Image)

/-! ### One frame -/

/-- What the client makes of a packet the server has encoded. -/
def decoding (packet : Packet) : Option (Message Image) :=
  MessageCodec.decodeWirePacket qt (Codec.encode packet) packet.payload.length
    ⟨packet.type.code.toUInt8⟩

theorem decoding_eq (packet : Packet) :
    decoding qt packet = MessageCodec.decodeBody qt ⟨packet.type.code.toUInt8⟩
      (Codec.wireIp packet) packet.payload := by
  have hip : Wire.ipOf (Codec.encode packet) = Codec.wireIp packet := by
    rw [Codec.encode_eq_frame, Wire.frame, List.append_assoc, Wire.ipOf_header]
  have hdata : Wire.dataOf (Codec.encode packet) packet.payload.length = packet.payload := by
    have h := Wire.dataOf_frame packet.type.code (Codec.wireIp packet) packet.payload []
    rwa [List.append_nil, ← Codec.encode_eq_frame] at h
  rw [decoding, MessageCodec.decodeWirePacket_eq, hip, hdata]

/-- **An encoded packet in front of the parser comes back decoded.** -/
theorem next_encode {packet : Packet} (h : packet.payload.length < 2 ^ 32) (more : Bytes) :
    (MessageCodec.cutter qt).next (Codec.encode packet ++ more)
      = .take (decoding qt packet) (Codec.encode packet).length := by
  rw [decoding_eq, Codec.encode_eq_frame]
  exact MessageCodec.next_frame qt packet.type.code (Codec.wireIp packet) h more

/-- When every frame says something, leaving out the silent ones leaves out nothing. -/
theorem map_some_filterMap {α : Type} {ms : List (Option α)}
    (h : ∀ m ∈ ms, m.isSome = true) : (ms.filterMap id).map some = ms := by
  induction ms with
  | nil => rfl
  | cons m ms ih =>
      obtain ⟨a, rfl⟩ := Option.isSome_iff_exists.mp (h m (by simp))
      rw [List.filterMap_cons_some (f := id) rfl, List.map_cons, ih fun x hx => h x (by simp [hx])]

/-- The bytes of a list of frames, one after the other. -/
def encodeAll (ps : List Packet) : Bytes := (ps.map Codec.encode).flatten

/-- **The server's frames come back decoded**, however they are cut into chunks. -/
theorem feedAll_encodeAll {ps : List Packet} (hshort : ∀ p ∈ ps, p.payload.length < 2 ^ 32)
    {chunks : List Bytes} (hroom : MessageCodec.NoReset qt [] chunks)
    (hcut : chunks.flatten = encodeAll ps) :
    MessageCodec.feedAll qt [] chunks = (ps.filterMap (decoding qt), []) := by
  rw [MessageCodec.feedAll_eq_drain (MessageCodec.cutter qt).stuck_nil hroom, List.nil_append,
    hcut, encodeAll, drain_flatten fun p hp => next_encode qt (hshort p hp), List.filterMap_map]
  rfl

/-! ### The buffer limit -/

/-- How large the frames are. -/
def sizes (ps : List Packet) : List Nat := ps.map fun p => (Codec.encode p).length

/-- Whatever chunk arrives, it fits into the buffer beside the unfinished frame before it. -/
def Fits (ps : List Packet) (chunks : List Bytes) : Prop :=
  ∀ before chunk after, chunks = before ++ chunk :: after →
    pending (sizes ps) before.flatten.length + chunk.length ≤ MessageCodec.kMaxBuffer

/-- The parser returns every frame once and in order, and keeps track of where it is. -/
structure NoLoss (ps : List Packet) (chunks : List Bytes) : Prop where
  messages : (MessageCodec.feedAll qt [] chunks).1.map some = ps.map (decoding qt)
  /-- No byte is thrown away when a chunk arrives. -/
  kept : ∀ before chunk after, chunks = before ++ chunk :: after →
    MessageCodec.retain (MessageCodec.feedAll qt [] before).2 chunk.length
      = (MessageCodec.feedAll qt [] before).2
  /-- What is kept between two chunks begins where a frame begins. -/
  inStep : ∀ before after, chunks = before ++ after →
    (MessageCodec.feedAll qt [] before).2 = unfinished (sizes ps) before.flatten

variable {qt} {ps : List Packet} {chunks : List Bytes}

/-- A stream no longer than the limit fits, whatever its chunks. -/
theorem fits_of_short (h : chunks.flatten.length ≤ MessageCodec.kMaxBuffer) : Fits ps chunks := by
  intro before chunk after hsplit
  have hle := pending_le (sizes ps) before.flatten.length
  rw [hsplit, List.flatten_append, List.flatten_cons, List.length_append, List.length_append] at h
  omega

/-- A parser that throws nothing away only gets chunks that fit. -/
theorem NoLoss.fits (h : NoLoss qt ps chunks)
    (hchunk : ∀ chunk ∈ chunks, chunk.length ≤ MessageCodec.kMaxBuffer) : Fits ps chunks := by
  intro before chunk after hsplit
  have hkept := h.kept before chunk after hsplit
  have hle := hchunk chunk (by rw [hsplit]; simp)
  rw [h.inStep before (chunk :: after) hsplit, MessageCodec.retain, length_unfinished] at hkept
  split at hkept
  · -- a reset that discards nothing: the chunk alone would be over the limit
    have hnone := congrArg List.length hkept
    rw [length_unfinished, List.length_nil] at hnone
    omega
  · omega

section Parse

variable (hsize : ∀ p ∈ ps, (Codec.encode p).length ≤ MessageCodec.kMaxBuffer)
  (hcut : chunks.flatten = encodeAll ps)

include hsize

theorem payload_lt {p : Packet} (hp : p ∈ ps) : p.payload.length < 2 ^ 32 := by
  have h := hsize p hp
  rw [Codec.length_encode, MessageCodec.kMaxBuffer] at h
  omega

include hcut

variable (qt) in
/-- What is left of the first chunks is the frame they do not finish. -/
theorem drain_before {before after : List Bytes} (hsplit : chunks = before ++ after) :
    (drain (MessageCodec.cutter qt) before.flatten).2 = unfinished (sizes ps) before.flatten := by
  apply drain_arrived (fun p hp more => next_encode qt (payload_lt hsize hp) more)
  rw [encodeAll] at hcut
  rw [← hcut, hsplit, List.flatten_append]
  exact List.prefix_append _ _

variable (qt) in
/-- While the chunks fit, the parser drains the stream. -/
theorem Fits.feedAll_eq (hfits : Fits ps chunks) {before after : List Bytes}
    (hsplit : chunks = before ++ after) :
    MessageCodec.feedAll qt [] before
      = ((drain (MessageCodec.cutter qt) before.flatten).1.filterMap id,
        (drain (MessageCodec.cutter qt) before.flatten).2) := by
  induction before using List.reverseRecOn generalizing after with
  | nil =>
      rw [List.flatten_nil, drain_of_stuck (MessageCodec.cutter qt).stuck_nil]
      rfl
  | append_singleton before chunk ih =>
      have hsplit' : chunks = before ++ chunk :: after := by rw [hsplit, List.append_assoc]; rfl
      have hkept := drain_before qt hsize hcut hsplit'
      have hroom := hfits before chunk after hsplit'
      rw [← length_unfinished (sizes ps) before.flatten, ← hkept] at hroom
      have hdrain := (drain_cuts (c := MessageCodec.cutter qt) before.flatten).append chunk
      rw [MessageCodec.feedAll_append, ih hsplit', MessageCodec.feedAll,
        MessageCodec.feed_eq (drain_stuck _) hroom, List.flatten_append, List.flatten_cons,
        List.flatten_nil, List.append_nil, hdrain.drain_append, List.filterMap_append]
      simp [MessageCodec.feedAll]

/-- **The parser loses nothing exactly when the chunks fit.** -/
theorem noLoss_iff (hdecode : ∀ p ∈ ps, (decoding qt p).isSome = true)
    (hchunk : ∀ chunk ∈ chunks, chunk.length ≤ MessageCodec.kMaxBuffer) :
    NoLoss qt ps chunks ↔ Fits ps chunks := by
  refine ⟨fun h => h.fits hchunk, fun hfits => ⟨?_, ?_, ?_⟩⟩
  · have hall := hfits.feedAll_eq qt hsize hcut (List.append_nil chunks).symm
    have henc := fun p (hp : p ∈ ps) more => next_encode qt (payload_lt hsize hp) more
    rw [hall, hcut, encodeAll, drain_flatten henc]
    apply map_some_filterMap
    intro m hm
    obtain ⟨p, hp, rfl⟩ := List.mem_map.mp hm
    exact hdecode p hp
  · intro before chunk after hsplit
    apply MessageCodec.retain_of_le
    rw [hfits.feedAll_eq qt hsize hcut hsplit, drain_before qt hsize hcut hsplit, length_unfinished]
    exact hfits before chunk after hsplit
  · intro before after hsplit
    rw [hfits.feedAll_eq qt hsize hcut hsplit, drain_before qt hsize hcut hsplit]

end Parse

/-! ### A stream that is lost -/

/-- A member behind 10.0.0.5 turns its camera off, again and again. -/
def notice : Packet := { type := .closeCamera, ip := 0x0A000005 }

def notices : List Packet := List.replicate 349526 notice

/-- The stream of these notices from its ninth byte on, which is 4 MiB. -/
def lateChunk : Bytes := (Codec.encode notice).drop 8 ++ encodeAll (List.replicate 349525 notice)

def noticeChunks : List Bytes := [(Codec.encode notice).take 8, lateChunk]

theorem noLoss_notice : NoLoss sampleQt [notice, notice]
    [(Codec.encode notice).take 8, (Codec.encode notice).drop 8 ++ Codec.encode notice] := by
  have hdecode : ∀ p ∈ [notice, notice], (decoding sampleQt p).isSome = true := by decide
  exact (noLoss_iff (by decide) (by decide) hdecode (by decide)).mpr (fits_of_short (by decide))

theorem encodeAll_replicate_succ (n : Nat) : encodeAll (List.replicate (n + 1) notice)
    = Codec.encode notice ++ encodeAll (List.replicate n notice) := by
  rw [encodeAll, List.replicate_succ, List.map_cons, List.flatten_cons]
  rfl

theorem length_encodeAll_replicate (n : Nat) :
    (encodeAll (List.replicate n notice)).length = n * 12 := by
  induction n with
  | zero => rfl
  | succ n ih =>
      have hlen : (Codec.encode notice).length = 12 := by decide
      rw [encodeAll_replicate_succ, List.length_append, hlen, ih]
      omega

/-- After the reset the parser takes the end of a frame for a header, and waits for more bytes
than it has room for. -/
theorem next_lateChunk : MessageCodec.next sampleQt lateChunk = .wait := by
  have hcons : encodeAll (List.replicate 349525 notice)
      = Codec.encode notice ++ encodeAll (List.replicate 349524 notice) :=
    encodeAll_replicate_succ 349524
  have hlen := length_encodeAll_replicate 349524
  rw [lateChunk, hcons, ← List.append_assoc]
  have hlengthOf : Wire.lengthOf ((Codec.encode notice).drop 8 ++ Codec.encode notice
      ++ encodeAll (List.replicate 349524 notice)) = 0x0A000005 := by
    rw [Wire.lengthOf_append (by decide)]
    decide
  have htotal : ((Codec.encode notice).drop 8 ++ Codec.encode notice
      ++ encodeAll (List.replicate 349524 notice)).length = 16 + 349524 * 12 := by
    rw [List.length_append, hlen]
    rfl
  unfold MessageCodec.next
  simp only [hlengthOf, htotal]
  rfl

/-- Every frame has 12 bytes and no chunk is over the limit, yet not one message arrives. -/
theorem lostNotices :
    (∀ p ∈ notices, (Codec.encode p).length ≤ MessageCodec.kMaxBuffer) ∧
    (∀ p ∈ notices, (decoding sampleQt p).isSome = true) ∧
    (∀ chunk ∈ noticeChunks, chunk.length ≤ MessageCodec.kMaxBuffer) ∧
    noticeChunks.flatten = encodeAll notices ∧
    (MessageCodec.feedAll sampleQt [] noticeChunks).1 = [] ∧
    ¬ NoLoss sampleQt notices noticeChunks := by
  have hnotice : ∀ p ∈ notices, p = notice := fun p hp => List.eq_of_mem_replicate hp
  have hlong : lateChunk.length = MessageCodec.kMaxBuffer := by
    rw [lateChunk, List.length_append, length_encodeAll_replicate]
    rfl
  have hlost : (MessageCodec.feedAll sampleQt [] noticeChunks).1 = [] := by
    have hfirst : MessageCodec.feed sampleQt [] ((Codec.encode notice).take 8)
        = ([], (Codec.encode notice).take 8) := by decide
    have hsome : ¬ lateChunk.length = 0 := by
      rw [hlong, MessageCodec.kMaxBuffer]
      omega
    have hover : ((Codec.encode notice).take 8).length + lateChunk.length
        > MessageCodec.kMaxBuffer := by
      have hlen : ((Codec.encode notice).take 8).length = 8 := by decide
      omega
    have hstuck : (MessageCodec.cutter sampleQt).Stuck lateChunk := by
      intro m n htake
      rw [MessageCodec.cutter_next, next_lateChunk] at htake
      simp at htake
    have hsecond : MessageCodec.feed sampleQt ((Codec.encode notice).take 8) lateChunk
        = ([], lateChunk) := by
      rw [MessageCodec.feed, MessageCodec.retain, if_neg hsome, if_pos hover, List.nil_append,
        MessageCodec.extractAll_eq, drain_of_stuck hstuck]
      rfl
    rw [noticeChunks, MessageCodec.feedAll, hfirst, MessageCodec.feedAll, hsecond]
    rfl
  refine ⟨?_, ?_, ?_, ?_, hlost, ?_⟩
  · intro p hp
    rw [hnotice p hp]
    decide
  · intro p hp
    rw [hnotice p hp]
    decide
  · intro chunk hchunk
    simp only [noticeChunks, List.mem_cons, List.not_mem_nil, or_false] at hchunk
    rcases hchunk with rfl | rfl
    · decide
    · exact Nat.le_of_eq hlong
  · have hcons : encodeAll notices
        = Codec.encode notice ++ encodeAll (List.replicate 349525 notice) :=
      encodeAll_replicate_succ 349525
    rw [hcons, noticeChunks, lateChunk, List.flatten_cons, List.flatten_cons, List.flatten_nil,
      List.append_nil, ← List.append_assoc, List.take_append_drop]
  · intro h
    have hlen := congrArg List.length h.messages
    rw [hlost, List.length_map, List.length_map, notices, List.length_replicate] at hlen
    simp at hlen

end CloudMeeting.Link
