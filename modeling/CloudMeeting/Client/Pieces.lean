/-
The pieces the client's parser cuts a stream into.

Where one piece ends and the next begins is a matter of the length fields alone: `layout` cuts
as `extract_all` does, and `read` says what the parser makes of a piece that has been cut off,
whether it skips it or decodes it.  This holds whatever the bytes are, and also where the
buffer is cleared on the way (`feedAll_eq_segments`).

So a piece with a wrong delimiter takes no other one with it, and what is kept is the unfinished
piece at the end.  The type of a piece is read as two bytes and cut to one, however, and a chunk
may end in an unfinished piece of any length.
-/
import CloudMeeting.Client.Stream

namespace CloudMeeting.Client

namespace MessageCodec

open Endian Framing

variable {Image : Type}

/-- How long a piece is: a header, the body its length field announces, and a tail. -/
def layout : Sizing UInt8 where
  header := Wire.headerSize
  size bs := (Wire.lengthOf bs).toNat + 1 + Wire.headerSize
  pos bs := Nat.lt_add_left _ (by decide)
  le bs := Nat.le_add_left ..
  stable h more := by rw [Wire.lengthOf_append h more]

/-- The piece begins and ends as a frame does. -/
def WellDelimited (piece : Bytes) : Prop :=
  piece.headD 0 = Wire.magic ∧
    piece.getD (Wire.headerSize + (Wire.lengthOf piece).toNat) 0 = Wire.tail

instance (piece : Bytes) : Decidable (WellDelimited piece) := inferInstanceAs (Decidable (_ ∧ _))

/-- The body of a piece. -/
def bodyOf (piece : Bytes) : Bytes := Wire.dataOf piece (Wire.lengthOf piece).toNat

/-- The type the parser dispatches on. -/
def readType (piece : Bytes) : MsgType := ⟨(Wire.typeOf piece).toUInt8⟩

variable (qt : Qt Image)

/-- What the parser makes of a piece. -/
def read (piece : Bytes) : Option (Message Image) :=
  if WellDelimited piece then decodeBody qt (readType piece) (Wire.ipOf piece) (bodyOf piece)
  else none

/-- The pieces of what has been fed, and the unfinished one. -/
def segments : Bytes → List Bytes → List Bytes × Bytes
  | buffer, [] => ([], buffer)
  | buffer, chunk :: chunks =>
      let cut := if chunk.length = 0 then ([], buffer)
        else drain layout.cutter (retain buffer chunk.length ++ chunk)
      (cut.1 ++ (segments cut.2 chunks).1, (segments cut.2 chunks).2)

theorem read_of_wellDelimited {piece : Bytes} (h : WellDelimited piece) :
    read qt piece = decodeBody qt (readType piece) (Wire.ipOf piece) (bodyOf piece) :=
  if_pos h

theorem read_of_not_wellDelimited {piece : Bytes} (h : ¬ WellDelimited piece) :
    read qt piece = none :=
  if_neg h

/-! ### Cutting and reading -/

/-- **One round of the loop cuts a piece off and reads it.** -/
theorem next_eq_map (bs : Bytes) :
    (cutter qt).next bs = (layout.cutter.next bs).map (read qt) := by
  have hsize : layout.size bs = (Wire.lengthOf bs).toNat + 1 + Wire.headerSize := rfl
  have hheader : msgHeader = Wire.headerSize := rfl
  rw [cutter_next]
  unfold next
  simp only [Sizing.cutter, hheader, decodeWirePacket_eq]
  show (if bs.length < Wire.headerSize then _ else _) =
    Next.map _ (if bs.length < Wire.headerSize then _ else _)
  by_cases hshort : bs.length < Wire.headerSize
  · rw [if_pos hshort, if_pos hshort]
    rfl
  rw [if_neg hshort, if_neg hshort, hsize]
  by_cases hwhole : bs.length < (Wire.lengthOf bs).toNat + 1 + Wire.headerSize
  · rw [if_pos hwhole, if_pos hwhole]
    rfl
  rw [if_neg hwhole, if_neg hwhole]
  -- the fields of the piece are those in front of the buffer
  obtain ⟨piece, more, hpiece, hlength, rfl⟩ : ∃ piece more,
      bs.take ((Wire.lengthOf bs).toNat + 1 + Wire.headerSize) = piece ∧
      piece.length = (Wire.lengthOf bs).toNat + 1 + Wire.headerSize ∧ bs = piece ++ more :=
    ⟨_, _, rfl, by rw [List.length_take]; omega, (List.take_append_drop _ _).symm⟩
  have hle : Wire.headerSize ≤ piece.length := by omega
  rw [hpiece]
  rw [Wire.lengthOf_append hle] at hlength ⊢
  rw [Wire.headD_append hle, Wire.typeOf_append hle, Wire.ipOf_append hle,
    Wire.getD_append (by omega), Wire.dataOf_append hle more (by omega)]
  by_cases hdelimited : WellDelimited piece
  · rw [if_neg (by simpa [WellDelimited] using hdelimited)]
    show _ = Next.take (read qt piece) _
    rw [read_of_wellDelimited qt hdelimited]
    rfl
  · rw [if_pos (by rwa [WellDelimited, not_and_or] at hdelimited)]
    show _ = Next.take (read qt piece) _
    rw [read_of_not_wellDelimited qt hdelimited]

theorem extractAll_eq_pieces (bs : Bytes) :
    extractAll qt bs
      = ((drain layout.cutter bs).1.filterMap (read qt), (drain layout.cutter bs).2) := by
  rw [extractAll_eq, drain_map (next_eq_map qt), List.filterMap_map]
  rfl

/-- **The messages of what has been fed are those of its pieces**, and the buffer is the
unfinished one. -/
theorem feedAll_eq_segments (buffer : Bytes) (chunks : List Bytes) :
    feedAll qt buffer chunks
      = ((segments buffer chunks).1.filterMap (read qt), (segments buffer chunks).2) := by
  induction chunks generalizing buffer with
  | nil => rfl
  | cons chunk chunks ih =>
      rw [feedAll, segments, feed]
      split
      · simp only [ih, List.filterMap_append, List.filterMap_nil]
      · simp only [ih, extractAll_eq_pieces, List.filterMap_append]

/-! ### Pieces with wrong delimiters -/

/-- A frame as it arrives: the bytes where the delimiters should be may be any. -/
structure Arrival where
  type : UInt16
  ip : UInt32
  data : Bytes
  short : data.length < 2 ^ 32
  first : UInt8 := Wire.magic
  last : UInt8 := Wire.tail

namespace Arrival

def bytes (arrival : Arrival) : Bytes :=
  arrival.first :: ((Wire.header arrival.type arrival.ip
    (UInt32.ofNat arrival.data.length)).tail ++ arrival.data ++ [arrival.last])

/-- Both delimiters are what they should be. -/
def Intact (arrival : Arrival) : Prop :=
  arrival.first = Wire.magic ∧ arrival.last = Wire.tail

instance (arrival : Arrival) : Decidable arrival.Intact := inferInstanceAs (Decidable (_ ∧ _))

/-- The message of a frame that has arrived intact, if it can be decoded. -/
def message (arrival : Arrival) : Option (Message Image) :=
  if arrival.Intact then decodeBody qt ⟨arrival.type.toUInt8⟩ arrival.ip arrival.data else none

variable (arrival : Arrival)

theorem bytes_eq_frame (h : arrival.Intact) :
    arrival.bytes = Wire.frame arrival.type arrival.ip arrival.data := by
  rw [bytes, h.1, h.2]
  rfl

/-- No field lies where a delimiter is. -/
theorem lengthOf_bytes : (Wire.lengthOf arrival.bytes).toNat = arrival.data.length := by
  have hlength : Wire.lengthOf arrival.bytes = UInt32.ofNat arrival.data.length := by
    rw [bytes, List.append_assoc]
    exact Wire.lengthOf_header arrival.type arrival.ip _ (arrival.data ++ [arrival.last])
  rw [hlength, UInt32.toNat_ofNat', Nat.mod_eq_of_lt arrival.short]

theorem length_bytes : arrival.bytes.length = arrival.data.length + 1 + Wire.headerSize := by
  simp only [bytes, List.length_cons, List.length_append, List.length_tail, Wire.length_header,
    Wire.headerSize, List.length_nil]
  omega

theorem whole_bytes : layout.Whole arrival.bytes where
  header := by
    rw [length_bytes]
    exact Nat.le_add_left ..
  size := by
    show _ = (Wire.lengthOf arrival.bytes).toNat + 1 + Wire.headerSize
    rw [lengthOf_bytes, length_bytes]

theorem wellDelimited_iff : WellDelimited arrival.bytes ↔ arrival.Intact := by
  have hlast : arrival.bytes.getD
      (Wire.headerSize + (Wire.lengthOf arrival.bytes).toNat) 0 = arrival.last := by
    have hshape : arrival.bytes = (arrival.first :: ((Wire.header arrival.type arrival.ip
        (UInt32.ofNat arrival.data.length)).tail ++ arrival.data)) ++ [arrival.last] := rfl
    have hlength : (arrival.first :: ((Wire.header arrival.type arrival.ip
        (UInt32.ofNat arrival.data.length)).tail ++ arrival.data)).length
        = Wire.headerSize + (Wire.lengthOf arrival.bytes).toNat := by
      simp only [lengthOf_bytes, List.length_cons, List.length_append, List.length_tail,
        Wire.length_header, Wire.headerSize]
      omega
    rw [← hlength, List.getD_eq_getElem?_getD, hshape, List.getElem?_concat_length,
      Option.getD_some]
  rw [WellDelimited, hlast]
  rfl

theorem read_bytes : read qt arrival.bytes = arrival.message qt := by
  unfold message
  split
  · rename_i hintact
    have hnext := next_frame qt arrival.type arrival.ip arrival.short []
    rw [← bytes_eq_frame arrival hintact, ← cutter_next, next_eq_map,
      Sizing.next_whole (whole_bytes arrival)] at hnext
    exact (Next.take.inj hnext).1
  · rename_i hspoilt
    exact read_of_not_wellDelimited qt ((wellDelimited_iff arrival).not.mpr hspoilt)

end Arrival

/-- **A wrong delimiter costs one frame.**  However the frames are cut into chunks, as long as the
buffer is not cleared, the messages are those of the intact ones, and nothing is left over. -/
theorem recovery {arrivals : List Arrival} {chunks : List Bytes}
    (hstream : chunks.flatten = (arrivals.map Arrival.bytes).flatten)
    (h : NoReset qt [] chunks) :
    feedAll qt [] chunks = (arrivals.filterMap (Arrival.message qt), []) := by
  have hwhole : ∀ piece ∈ arrivals.map Arrival.bytes, layout.Whole piece := by
    intro piece hpiece
    obtain ⟨arrival, -, rfl⟩ := List.mem_map.mp hpiece
    exact arrival.whole_bytes
  have hdrain := Sizing.drain_whole hwhole (Sizing.stuck_iff.mp layout.cutter.stuck_nil)
  rw [List.append_nil] at hdrain
  have hread : ((arrivals.map Arrival.bytes).map (read qt))
      = arrivals.map (Arrival.message qt) := by
    rw [List.map_map]
    exact List.map_congr_left fun arrival _ => arrival.read_bytes qt
  rw [feedAll_eq_drain (cutter qt).stuck_nil h, List.nil_append, hstream,
    drain_map (next_eq_map qt), hdrain, hread, List.filterMap_map]
  rfl

/-- A frame with a wrong tail between two of partners. -/
def sampleArrivals : List Arrival :=
  [{ type := 22, ip := 5, data := [], short := by decide },
    { type := 22, ip := 6, data := [36, 35], short := by decide, last := 36 },
    { type := 21, ip := 5, data := [], short := by decide }]

theorem recovery_sampleArrivals :
    feedAll plainQt [] ((sampleArrivals.map Arrival.bytes).flatten.map fun b => [b])
      = (sampleArrivals.filterMap (Arrival.message plainQt), []) :=
  recovery plainQt (by decide +kernel) (by decide +kernel)

/-! ### Types of two bytes -/

/-- The parser decodes a body of this type: a picture, a text or a sound if it can be uncompressed,
and any body of six other types. -/
def Decodable (type : MsgType) (body : Bytes) : Prop :=
  if type = .imgRecv then decodeImageWirePayload qt body ≠ [] ∧
      (qt.loadFromData (decodeImageWirePayload qt body)).isSome
  else if type = .textRecv then decodeTextWirePayload qt body ≠ []
  else if type = .audioRecv then decodeAudioWirePayload qt body ≠ []
  else type ∈ [.createMeetingResponse, .joinMeetingResponse, .partnerJoin2, .partnerJoin,
    .partnerExit, .closeCamera]

theorem decodeBody_isSome_iff (type : MsgType) (ip : UInt32) (body : Bytes) :
    (decodeBody qt type ip body).isSome ↔ Decodable qt type body := by
  unfold Decodable
  by_cases himage : type = .imgRecv
  · subst himage
    show (decodeImageRecv qt body ip).isSome ↔ _
    by_cases hempty : decodeImageWirePayload qt body = [] <;> simp [decodeImageRecv, hempty]
  by_cases htext : type = .textRecv
  · subst htext
    show (decodeTextRecv qt body ip).isSome ↔ decodeTextWirePayload qt body ≠ []
    by_cases hempty : decodeTextWirePayload qt body = [] <;> simp [decodeTextRecv, hempty]
  by_cases haudio : type = .audioRecv
  · subst haudio
    show (decodeAudioRecv qt body ip).isSome ↔ decodeAudioWirePayload qt body ≠ []
    by_cases hempty : decodeAudioWirePayload qt body = [] <;> simp [decodeAudioRecv, hempty]
  -- the other types that are decoded are decoded whatever the body is
  simp only [decodeBody, if_neg himage, if_neg htext, if_neg haudio, List.mem_cons,
    List.not_mem_nil, or_false]
  repeat' split
  all_goals simp_all

variable {qt} in
/-- A message is of the kind its type is the wire type of. -/
theorem type_of_decodeBody {type : MsgType} {ip : UInt32} {body : Bytes} {msg : Message Image}
    (h : decodeBody qt type ip body = some msg) : toWireType msg.kind = type := by
  by_cases himage : type = .imgRecv
  · subst himage
    replace h : decodeImageRecv qt body ip = some msg := h
    by_cases hempty : decodeImageWirePayload qt body = []
    · simp [decodeImageRecv, hempty] at h
    · simp only [decodeImageRecv, if_neg hempty, Option.map_eq_some_iff] at h
      obtain ⟨image, -, rfl⟩ := h
      rfl
  by_cases htext : type = .textRecv
  · subst htext
    replace h : decodeTextRecv qt body ip = some msg := h
    by_cases hempty : decodeTextWirePayload qt body = []
    · simp [decodeTextRecv, hempty] at h
    · simp only [decodeTextRecv, if_neg hempty, Option.some.injEq] at h
      subst h
      rfl
  by_cases haudio : type = .audioRecv
  · subst haudio
    replace h : decodeAudioRecv qt body ip = some msg := h
    by_cases hempty : decodeAudioWirePayload qt body = []
    · simp [decodeAudioRecv, hempty] at h
    · simp only [decodeAudioRecv, if_neg hempty, Option.some.injEq] at h
      subst h
      rfl
  simp only [decodeBody, if_neg himage, if_neg htext, if_neg haudio] at h
  split at h
  · rename_i htype
    exact htype ▸ Option.some.inj h ▸ rfl
  split at h
  · rename_i htype
    exact htype ▸ Option.some.inj h ▸ rfl
  split at h
  · rename_i htype
    exact htype ▸ Option.some.inj h ▸ rfl
  split at h
  · rename_i htype
    rcases htype with rfl | rfl | rfl <;> exact Option.some.inj h ▸ rfl
  · simp at h

/-- The messages of what has been fed are those of the pieces whose two bytes of type are the wire
type of the message; what other pieces there are says nothing. -/
def ExactTypes (chunks : List Bytes) : Prop :=
  (feedAll qt [] chunks).1 = (segments [] chunks).1.filterMap fun piece =>
    (read qt piece).filter fun msg => Wire.typeOf piece = (toWireType msg.kind).code.toUInt16

/-- Leaving out some results shows, unless there are none to leave out. -/
theorem filterMap_eq_filter_iff {α β : Type} {f : α → Option β} {p : α → β → Bool} {l : List α} :
    l.filterMap f = (l.filterMap fun x => (f x).filter (p x)) ↔
      ∀ x ∈ l, ∀ y ∈ f x, p x y = true := by
  have hle : ∀ l : List α,
      (l.filterMap fun x => (f x).filter (p x)).length ≤ (l.filterMap f).length := by
    intro l
    induction l with
    | nil => exact Nat.le_refl 0
    | cons x l ih =>
        rw [List.filterMap_cons, List.filterMap_cons]
        cases f x with
        | none => exact ih
        | some y =>
            rw [Option.filter_some]
            cases p x y with
            | true => exact Nat.succ_le_succ ih
            | false => exact Nat.le_succ_of_le ih
  induction l with
  | nil => simp
  | cons x l ih =>
      rw [List.filterMap_cons, List.filterMap_cons, List.forall_mem_cons]
      cases f x with
      | none => simpa using ih
      | some y =>
          rw [Option.filter_some]
          cases hp : p x y with
          | true => simpa [hp] using ih
          | false =>
              have hlength := hle l
              refine ⟨fun heq => ?_, fun hall => ?_⟩
              · have heq : y :: l.filterMap f = l.filterMap fun x => (f x).filter (p x) := heq
                have heq := congrArg List.length heq
                rw [List.length_cons] at heq
                omega
              · have htrue := hall.1 y rfl
                simp [hp] at htrue

theorem toUInt16_toUInt8_iff (code : UInt16) :
    code = code.toUInt8.toUInt16 ↔ code.toNat < 256 := by
  rw [← UInt16.toNat_inj, UInt8.toNat_toUInt16, UInt16.toNat_toUInt8]
  omega

/-- **The parser accepts the defined wire types and no others, exactly as long as it meets no whole
frame whose type is over 255 and ends in the byte of a type that decodes the body.** -/
theorem exactTypes_iff (chunks : List Bytes) :
    ExactTypes qt chunks ↔ ∀ piece ∈ (segments [] chunks).1, WellDelimited piece →
      256 ≤ (Wire.typeOf piece).toNat → ¬ Decodable qt (readType piece) (bodyOf piece) := by
  rw [ExactTypes, feedAll_eq_segments, filterMap_eq_filter_iff]
  apply forall₂_congr
  intro piece _
  by_cases hdelimited : WellDelimited piece
  · rw [read_of_wellDelimited qt hdelimited, ← decodeBody_isSome_iff qt _ (Wire.ipOf piece)]
    have htype : ∀ msg, decodeBody qt (readType piece) (Wire.ipOf piece) (bodyOf piece) = some msg →
        (Wire.typeOf piece = (toWireType msg.kind).code.toUInt16
          ↔ (Wire.typeOf piece).toNat < 256) := by
      intro msg hmsg
      rw [type_of_decodeBody hmsg]
      exact toUInt16_toUInt8_iff _
    constructor
    · intro hexact _ hlarge hsome
      obtain ⟨msg, hmsg⟩ := Option.isSome_iff_exists.mp hsome
      have hsmall := (htype msg hmsg).mp (of_decide_eq_true (hexact msg hmsg))
      omega
    · intro hcut msg hmsg
      refine decide_eq_true ((htype msg hmsg).mpr ?_)
      by_contra hlarge
      exact hcut hdelimited (Nat.le_of_not_lt hlarge) (Option.isSome_iff_exists.mpr ⟨msg, hmsg⟩)
  · rw [read_of_not_wellDelimited qt hdelimited]
    simp [hdelimited]

/-- A frame of type 276 is read as a response of type 20. -/
theorem cutType : ¬ ExactTypes plainQt [Wire.frame 276 0 [0, 0, 0, 7]] := by
  have hmessages : (feedAll plainQt [] [Wire.frame 276 0 [0, 0, 0, 7]]).1
      = [.createMeetingResponse 7] := by
    decide +kernel
  have hexact : ((segments [] [Wire.frame 276 0 [0, 0, 0, 7]]).1.filterMap fun piece =>
      (read plainQt piece).filter fun msg =>
        Wire.typeOf piece = (toWireType msg.kind).code.toUInt16) = [] := by
    decide +kernel
  rw [ExactTypes, hmessages, hexact]
  simp

/-! ### What is kept -/

/-- Behind the whole pieces of the chunk there is no unfinished one over the limit. -/
def Modest (chunk : Bytes) : Prop :=
  ∀ (whole : List Bytes) (rest : Bytes), chunk = whole.flatten ++ rest →
    (∀ piece ∈ whole, layout.Whole piece) → layout.Unfinished rest → rest.length ≤ kMaxBuffer

theorem feed_rest {buffer chunk : Bytes} (h : chunk.length ≠ 0) :
    (feed qt buffer chunk).2 = (drain layout.cutter (retain buffer chunk.length ++ chunk)).2 := by
  rw [feed, if_neg h, extractAll_eq_pieces]

theorem length_rest_le (bs : Bytes) : (drain layout.cutter bs).2.length ≤ bs.length := by
  have hsplit := congrArg List.length (Sizing.whole_of_cuts (drain_cuts (c := layout.cutter) bs)).1
  rw [List.length_append] at hsplit
  omega

/-- A call keeps no more than the limit unless its chunk ends in an unfinished piece over it. -/
theorem length_feed_le_iff {buffer : Bytes} (hbuffer : buffer.length ≤ kMaxBuffer) (chunk : Bytes) :
    (feed qt buffer chunk).2.length ≤ kMaxBuffer ↔ Modest chunk := by
  by_cases hnil : chunk.length = 0
  · have hmodest : Modest chunk := by
      intro whole rest hsplit _ _
      have hlength := congrArg List.length hsplit
      rw [List.length_append] at hlength
      omega
    simp only [feed, if_pos hnil, hbuffer, hmodest]
  rw [feed_rest qt hnil]
  by_cases hfits : buffer.length + chunk.length ≤ kMaxBuffer
  · have hrest := length_rest_le (retain buffer chunk.length ++ chunk)
    rw [retain_of_le hfits, List.length_append] at hrest
    rw [retain_of_le hfits]
    refine ⟨fun _ whole rest hsplit _ _ => ?_, fun _ => by omega⟩
    have hlength := congrArg List.length hsplit
    rw [List.length_append] at hlength
    omega
  · have hreset : retain buffer chunk.length = [] := if_pos (Nat.lt_of_not_le hfits)
    rw [hreset, List.nil_append]
    constructor
    · intro hle whole rest hsplit hwhole hrest
      rwa [hsplit, Sizing.drain_whole hwhole hrest] at hle
    · intro hmodest
      obtain ⟨hsplit, hwhole⟩ := Sizing.whole_of_cuts (drain_cuts (c := layout.cutter) chunk)
      exact hmodest _ _ hsplit hwhole (Sizing.stuck_iff.mp (drain_stuck chunk))

/-- **The buffer stays within the limit, after every call, exactly as long as no chunk ends in an
unfinished piece over it.** -/
theorem bounded_iff (chunks : List Bytes) :
    (∀ n, (feedAll qt [] (chunks.take n)).2.length ≤ kMaxBuffer) ↔
      ∀ chunk ∈ chunks, Modest chunk := by
  have hfrom : ∀ (chunks : List Bytes) (buffer : Bytes), buffer.length ≤ kMaxBuffer →
      ((∀ n, (feedAll qt buffer (chunks.take n)).2.length ≤ kMaxBuffer) ↔
        ∀ chunk ∈ chunks, Modest chunk) := by
    intro chunks
    induction chunks with
    | nil => simp [feedAll]
    | cons chunk chunks ih =>
        intro buffer hbuffer
        have hfirst := length_feed_le_iff qt hbuffer chunk
        constructor
        · intro hall other hother
          have hfed : (feed qt buffer chunk).2.length ≤ kMaxBuffer := by
            simpa [feedAll] using hall 1
          rcases List.mem_cons.mp hother with rfl | hother
          · exact hfirst.mp hfed
          · exact (ih _ hfed).mp (fun n => by simpa [feedAll] using hall (n + 1)) other hother
        · intro hmodest n
          cases n with
          | zero => simpa [feedAll] using hbuffer
          | succ n =>
              have hfed := hfirst.mpr (hmodest chunk List.mem_cons_self)
              have hrest := (ih _ hfed).mpr (fun other hother =>
                hmodest other (List.mem_cons_of_mem chunk hother)) n
              simpa [feedAll] using hrest
  exact hfrom chunks [] (Nat.zero_le _)

/-- A chunk that ends early and is over the limit is kept. -/
theorem not_modest {type : UInt16} {ip size : UInt32} {data : Bytes}
    (hlong : kMaxBuffer < Wire.headerSize + data.length) (hshort : data.length ≤ size.toNat) :
    ¬ Modest (Wire.header type ip size ++ data) := by
  intro hmodest
  have hlength : (Wire.header type ip size ++ data).length = Wire.headerSize + data.length := by
    rw [List.length_append, Wire.length_header]
  have hunfinished : layout.Unfinished (Wire.header type ip size ++ data) := by
    refine .inr ?_
    show _ < (Wire.lengthOf (Wire.header type ip size ++ data)).toNat + 1 + Wire.headerSize
    rw [hlength, Wire.lengthOf_header]
    omega
  have hle := hmodest [] (Wire.header type ip size ++ data) rfl (by simp) hunfinished
  omega

/-- The header of a frame with four gigabytes of data, and the first four megabytes of them. -/
def hugeChunk : Bytes := Wire.header 20 0 0xFFFFFFFF ++ List.replicate kMaxBuffer 0

theorem not_modest_hugeChunk : ¬ Modest hugeChunk := by
  have hsize : (0xFFFFFFFF : UInt32).toNat = 4294967295 := rfl
  refine not_modest ?_ ?_
  · rw [List.length_replicate, Wire.headerSize]
    exact Nat.lt_add_of_pos_left (by decide)
  · rw [List.length_replicate, hsize, kMaxBuffer]
    omega

theorem feedAll_take_one (chunk : Bytes) :
    (feedAll qt [] ([chunk].take 1)).2 = (feed qt [] chunk).2 :=
  rfl

/-- A chunk over the limit is kept whole, although the buffer has just been cleared for it. -/
theorem keptWhole : ¬ ∀ (chunks : List Bytes) (n : Nat),
    (feedAll plainQt [] (chunks.take n)).2.length ≤ kMaxBuffer := by
  intro hall
  have hfed := hall [hugeChunk] 1
  rw [feedAll_take_one] at hfed
  have hempty : ([] : Bytes).length ≤ kMaxBuffer := Nat.zero_le _
  exact not_modest_hugeChunk ((length_feed_le_iff plainQt hempty hugeChunk).mp hfed)

end MessageCodec

end CloudMeeting.Client
