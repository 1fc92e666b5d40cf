/-
What the server makes of what a client sends.

For the kinds of message a client queues, `encodeWireFrame` writes a wire frame with a
length field (`encodeWireFrame_eq_frame`), and the server's type of that code is the one
of the same meaning.  The rest is the framing library and what is known about the read
loop: however the frames are cut into chunks, the packets handled are the messages sent.

A frame without a length field is too short to end where its receiver looks for the end
(`selfDelimiting_iff`).
-/
import CloudMeeting.Client.Stream
import CloudMeeting.Server.Guarantees

namespace CloudMeeting.Link

open Framing Server Client

variable {Image : Type} {qt : Qt Image} {localIp : UInt32} {msgs : List (Message Image)}

/-! ### One message -/

/-- The server's type of the same meaning, for the kinds a client puts into its queue. -/
def meaning : MessageKind → Option MessageType
  | .createMeeting => some .createMeeting
  | .joinMeeting => some .joinMeeting
  | .closeCamera => some .closeCamera
  | .sendText => some .textSend
  | .sendImage => some .imgSend
  | .sendAudio => some .audioSend
  | _ => none

/-- The packet a message should arrive as. -/
def asPacket (qt : Qt Image) (localIp : UInt32) (msg : Message Image) : Option Packet :=
  (meaning msg.kind).map fun type => ⟨type, localIp, MessageCodec.wireBody qt msg⟩

/-- The frames of a list of messages, one after the other. -/
def stream (qt : Qt Image) (localIp : UInt32) (msgs : List (Message Image)) : Bytes :=
  (msgs.map fun msg => MessageCodec.encodeWireFrame qt msg localIp).flatten

/-- The two programs number these types alike, and the client writes their length field. -/
theorem toWireType_meaning {kind : MessageKind} {type : MessageType}
    (h : meaning kind = some type) :
    (MessageCodec.toWireType kind).code.toUInt16 = type.code ∧
      MessageCodec.wireFrameNeedsLengthField (MessageCodec.toWireType kind) = true := by
  cases kind <;> simp only [meaning, reduceCtorEq, Option.some.injEq] at h <;> subst h <;> decide

/-- A frame with a length field is a wire frame. -/
theorem encodeWireFrame_of_lengthField {msg : Message Image}
    (h : MessageCodec.wireFrameNeedsLengthField (MessageCodec.toWireType msg.kind) = true) :
    MessageCodec.encodeWireFrame qt msg localIp
      = Wire.frame (MessageCodec.toWireType msg.kind).code.toUInt16 localIp
        (MessageCodec.wireBody qt msg) := by
  simp only [MessageCodec.encodeWireFrame, h, if_true, toBigEndian16, toBigEndian32, Wire.frame,
    Wire.header]
  simp

/-- **The client writes wire frames.** -/
theorem encodeWireFrame_eq_frame {msg : Message Image} {type : MessageType}
    (h : meaning msg.kind = some type) :
    MessageCodec.encodeWireFrame qt msg localIp
      = Wire.frame type.code localIp (MessageCodec.wireBody qt msg) := by
  obtain ⟨hcode, hlength⟩ := toWireType_meaning h
  rw [encodeWireFrame_of_lengthField hlength, hcode]

theorem next_encodeWireFrame {msg : Message Image} {p : Packet}
    (h : asPacket qt localIp msg = some p)
    (hsize : (MessageCodec.wireBody qt msg).length < 2 ^ 32) (more : Bytes) :
    Codec.next (MessageCodec.encodeWireFrame qt msg localIp ++ more)
      = .take p (MessageCodec.encodeWireFrame qt msg localIp).length := by
  obtain ⟨type, htype, rfl⟩ := Option.map_eq_some_iff.mp h
  rw [encodeWireFrame_eq_frame htype, Codec.next_frame _ _ hsize]

/-! ### Where a frame ends -/

/-- The bytes are one frame with this body, and the server takes them and no more. -/
structure SelfDelimiting (out body : Bytes) : Prop where
  magic : out.headD 0 = Wire.magic
  size : (out.drop 7).take 4 = Endian.beBytes 4 body.length
  tail : out[11 + body.length]? = some Wire.tail
  length : out.length = 12 + body.length
  consumed : ∀ (buffer : Buffer) (last : Packet) (rest : Bytes), buffer.WF →
    buffer.readable = out ++ rest →
    ∃ left packet, Codec.tryDecode buffer last = (.ok, left, packet) ∧ left.readable = rest

theorem selfDelimiting_frame (type : UInt16) (ip : UInt32) {body : Bytes}
    (hsize : body.length < 2 ^ 32) : SelfDelimiting (Wire.frame type ip body) body where
  magic := rfl
  size := by
    have hlength : (UInt32.ofNat body.length).toNat = body.length := by
      rw [UInt32.toNat_ofNat', Nat.mod_eq_of_lt hsize]
    have hshape : Wire.frame type ip body
        = (Wire.magic :: (Endian.beBytes 2 type.toNat ++ Endian.beBytes 4 ip.toNat))
          ++ (Endian.beBytes 4 body.length ++ (body ++ [Wire.tail])) := by
      simp [Wire.frame, Wire.header, hlength]
    rw [hshape, List.drop_left' (by simp), List.take_left' (by simp)]
  tail := by
    have hlength : (Wire.header type ip (UInt32.ofNat body.length) ++ body).length
        = 11 + body.length := by
      rw [List.length_append, Wire.length_header, Wire.headerSize]
    rw [Wire.frame, ← hlength]
    exact List.getElem?_concat_length
  length := by
    rw [Wire.length_frame, Wire.headerSize]
    omega
  consumed buffer last rest hbuffer hreadable := by
    have hspec := Codec.tryDecode_spec hbuffer last
    have hnext := hreadable ▸ Codec.next_frame type ip hsize rest
    rw [hnext] at hspec
    refine ⟨_, _, hspec, ?_⟩
    rw [Codec.readable_taken hbuffer hnext, hreadable, List.drop_left]

theorem length_encodeWireFrame (qt : Qt Image) (msg : Message Image) (localIp : UInt32) :
    (MessageCodec.encodeWireFrame qt msg localIp).length
      = (if MessageCodec.wireFrameNeedsLengthField (MessageCodec.toWireType msg.kind) then 12
          else 8) + (MessageCodec.wireBody qt msg).length := by
  simp only [MessageCodec.encodeWireFrame, toBigEndian16, toBigEndian32, List.length_append,
    Endian.length_beBytes, List.length_singleton]
  split
  · rw [Endian.length_beBytes]
    omega
  · rw [List.length_nil]
    omega

/-- The kinds of message whose frames get a length field. -/
theorem needsLengthField_iff (kind : MessageKind) :
    MessageCodec.wireFrameNeedsLengthField (MessageCodec.toWireType kind) = true ↔
      kind ∈ [.createMeeting, .joinMeeting, .closeCamera, .sendText, .sendImage, .sendAudio,
        .closeCameraNotify] := by
  cases kind <;> decide

/-- **A client's frame is self-delimiting exactly for the kinds that get a length field.** -/
theorem selfDelimiting_iff (qt : Qt Image) (localIp : UInt32) {msg : Message Image}
    (hsize : (MessageCodec.wireBody qt msg).length < 2 ^ 32) :
    SelfDelimiting (MessageCodec.encodeWireFrame qt msg localIp) (MessageCodec.wireBody qt msg) ↔
      msg.kind ∈ [.createMeeting, .joinMeeting, .closeCamera, .sendText, .sendImage, .sendAudio,
        .closeCameraNotify] := by
  rw [← needsLengthField_iff]
  constructor
  · intro h
    have hlength := h.length
    rw [length_encodeWireFrame] at hlength
    by_contra hneeds
    rw [if_neg hneeds] at hlength
    omega
  · intro hneeds
    rw [encodeWireFrame_of_lengthField hneeds]
    exact selfDelimiting_frame _ _ hsize

theorem selfDelimiting_iff_joinMeeting :
    SelfDelimiting (MessageCodec.encodeWireFrame MessageCodec.plainQt (.joinMeeting [49, 50]) 7)
      (MessageCodec.wireBody MessageCodec.plainQt (.joinMeeting [49, 50])) :=
  (selfDelimiting_iff MessageCodec.plainQt 7 (by decide)).mpr (by decide)

/-- The frame that ends a meeting is eight bytes long, with no room for a length. -/
theorem shortExit : ¬ ∀ (msg : Message Unit) (localIp : UInt32),
    (MessageCodec.wireBody MessageCodec.plainQt msg).length < 2 ^ 32 →
    SelfDelimiting (MessageCodec.encodeWireFrame MessageCodec.plainQt msg localIp)
      (MessageCodec.wireBody MessageCodec.plainQt msg) := by
  intro hall
  have hlength := (hall .exitMeeting 0 (by decide)).length
  exact absurd hlength (by decide)

/-! ### A library to test the results with -/

def hi : Bytes := [104, 105]

/-- What `qCompress` makes of `hi`. -/
def hiCompressed : Bytes := [0, 0, 0, 2, 120, 156, 203, 200, 4, 0, 1, 59, 0, 210]

/-- Compression of one text as it is, and of any other without compressing it. -/
def sampleQt : Qt Unit where
  dataModel := .llp64
  qCompress data := if data = hi then hiCompressed else Endian.beBytes 4 data.length ++ data
  qUncompress data := if data = hiCompressed then hi else data.drop 4
  toBase64 data := data
  fromBase64 data := data
  save _ := none
  loadFromData _ := none

theorem sampleQt_lossless : sampleQt.Lossless where
  qUncompress_qCompress data := by
    simp only [sampleQt]
    by_cases hdata : data = hi
    · rw [if_pos hdata, if_pos rfl, hdata]
    · rw [if_neg hdata]
      have hne : Endian.beBytes 4 data.length ++ data ≠ hiCompressed := by
        intro heq
        have hlen : data.length = 10 := by
          have := congrArg List.length heq
          simp only [List.length_append, Endian.length_beBytes, hiCompressed, List.length_cons,
            List.length_nil] at this
          omega
        have hfront := congrArg (List.take 4) heq
        rw [hlen, List.take_left' (Endian.length_beBytes _ _)] at hfront
        exact absurd hfront (by decide)
      rw [if_neg hne]
      exact List.drop_left' (Endian.length_beBytes _ _)
  fromBase64_toBase64 _ := rfl

/-! ### A stream of messages -/

variable (qt localIp) in
/-- The packets a list of messages should arrive as. -/
theorem exists_packets (hkinds : ∀ msg ∈ msgs, (meaning msg.kind).isSome = true) :
    ∃ ps : List Packet, msgs.map (asPacket qt localIp) = ps.map some := by
  induction msgs with
  | nil => exact ⟨[], rfl⟩
  | cons msg msgs ih =>
      obtain ⟨ps, hps⟩ := ih fun m hm => hkinds m (by simp [hm])
      obtain ⟨type, htype⟩ := Option.isSome_iff_exists.mp (hkinds msg (by simp))
      exact ⟨⟨type, localIp, MessageCodec.wireBody qt msg⟩ :: ps, by simp [asPacket, htype, hps]⟩

theorem drain_stream {ps : List Packet} (hps : msgs.map (asPacket qt localIp) = ps.map some)
    (hsize : ∀ msg ∈ msgs, (MessageCodec.wireBody qt msg).length < 2 ^ 32) :
    drain Codec.cutter (stream qt localIp msgs) = (ps, []) := by
  have henc : ∀ msg ∈ msgs, ∀ more,
      Codec.cutter.next (MessageCodec.encodeWireFrame qt msg localIp ++ more)
        = .take ((asPacket qt localIp msg).getD {})
          (MessageCodec.encodeWireFrame qt msg localIp).length := by
    intro msg hmsg more
    have hsome : asPacket qt localIp msg ∈ ps.map some := hps ▸ List.mem_map_of_mem hmsg
    obtain ⟨p, -, hp⟩ := List.mem_map.mp hsome
    rw [← hp, Option.getD_some]
    exact next_encodeWireFrame hp.symm (hsize msg hmsg) more
  have hdecoded : msgs.map (fun msg => (asPacket qt localIp msg).getD {}) = ps := by
    have h := congrArg (List.map fun p : Option Packet => p.getD {}) hps
    simpa [List.map_map, Function.comp_def] using h
  rw [stream, drain_flatten henc, hdecoded]

/-! ### The read loop -/

variable {cfg : ServerConfig} {env : Env} {c : ConnId} {s : State}

section ReadLoop

variable (hkinds : ∀ msg ∈ msgs, (meaning msg.kind).isSome = true)
  (hsize : ∀ msg ∈ msgs, (MessageCodec.wireBody qt msg).length < 2 ^ 32)
  {es : List Event} (hrun : Run.run (step cfg env) {} es = some s)
  (hchunks : (es.filterMap (Event.chunkFor c)).flatten <+: stream qt localIp msgs)

include hkinds hsize hrun hchunks

/-- What has been handled and what is still held are together the front of the stream. -/
theorem exists_cuts : ∃ (ps : List Packet) (more : Bytes),
    msgs.map (asPacket qt localIp) = ps.map some ∧
      drain Codec.cutter (stream qt localIp msgs) = (ps, []) ∧
      Cuts Codec.cutter (stream qt localIp msgs) (handled c s.history)
        ((s.conn c).readBuffer.readable ++ more) := by
  have h : Reachable cfg env s := ⟨es, hrun⟩
  obtain ⟨ps, hps⟩ := exists_packets qt localIp hkinds
  rw [← received_eq_chunks hrun c] at hchunks
  obtain ⟨more, hmore⟩ := hchunks
  have hparsed : Cuts Codec.cutter (s.conn c).received (handled c s.history)
      (s.conn c).readBuffer.readable := h.parses.cuts c
  have hwhole := hparsed.append more
  rw [hmore] at hwhole
  exact ⟨ps, more, hps, drain_stream hps hsize, hwhole⟩

/-- The packets handled are the messages, one for one, as far as the server got. -/
theorem handled_stream :
    (handled c s.history).map some <+: msgs.map (asPacket qt localIp) := by
  obtain ⟨ps, more, hps, hdrain, hwhole⟩ := exists_cuts hkinds hsize hrun hchunks
  have hcuts := hwhole.isPrefix (drain_cuts _) (drain_stuck _)
  rw [hdrain] at hcuts
  rw [hps]
  exact hcuts.map some

/-- Nothing a client writes is taken for a malformed frame. -/
theorem not_malformed : .malformed c ∉ s.history := by
  intro hbad
  have h : Reachable cfg env s := ⟨es, hrun⟩
  obtain ⟨ps, more, -, hdrain, hwhole⟩ := exists_cuts hkinds hsize hrun hchunks
  have hreject : Codec.next (s.conn c).readBuffer.readable = .reject := h.parses.rejected hbad
  have hreject' : Codec.cutter.next ((s.conn c).readBuffer.readable ++ more) = .reject := by
    show Codec.next _ = _
    rw [Codec.next_append (by rw [hreject]; simp), hreject]
  -- so nothing can be cut off there, but the stream ends where nothing is left
  have hstuck : Codec.cutter.Stuck ((s.conn c).readBuffer.readable ++ more) := by
    intro p n htake
    rw [hreject'] at htake
    simp at htake
  rw [hwhole.drain_eq hstuck, Prod.mk.injEq] at hdrain
  rw [hdrain.2] at hreject'
  simp [Codec.cutter, Codec.next, Wire.headerSize] at hreject'

end ReadLoop

/-- What the server has made of the messages a client sends on `c`. -/
structure Uplink (qt : Qt Image) (localIp : UInt32) (msgs : List (Message Image)) (c : ConnId)
    (s : State) : Prop where
  /-- The packets handled are the messages, one for one, as far as it got. -/
  packets : (handled c s.history).map some <+: msgs.map (asPacket qt localIp)
  wellFormed : .malformed c ∉ s.history
  /-- When all has arrived and `c` is still open, it got to the end. -/
  complete : (s.conn c).received = stream qt localIp msgs → (s.conn c).closed = false →
    (handled c s.history).map some = msgs.map (asPacket qt localIp) ∧
      (s.conn c).readBuffer.readable = []

/-- **The server reads what the client writes**, however it is cut into chunks. -/
theorem uplink (hkinds : ∀ msg ∈ msgs, (meaning msg.kind).isSome = true)
    (hsize : ∀ msg ∈ msgs, (MessageCodec.wireBody qt msg).length < 2 ^ 32)
    {es : List Event} (hrun : Run.run (step cfg env) {} es = some s)
    (hchunks : (es.filterMap (Event.chunkFor c)).flatten <+: stream qt localIp msgs) :
    Uplink qt localIp msgs c s := by
  have h : Reachable cfg env s := ⟨es, hrun⟩
  refine ⟨handled_stream hkinds hsize hrun hchunks, not_malformed hkinds hsize hrun hchunks, ?_⟩
  intro hall hopen
  obtain ⟨ps, more, hps, hdrain, -⟩ := exists_cuts hkinds hsize hrun hchunks
  have hhandled := (h.handled_drain c).2 hopen
  rw [hall, hdrain, Prod.mk.injEq] at hhandled
  exact ⟨by rw [← hhandled.1, hps], hhandled.2.symm⟩

/-- A meeting is opened and something written; the second chunk starts inside a header. -/
def sampleTalk : List (Message Unit) := [.createMeeting, .sendText hi]

def sampleTalkEvents : List Event :=
  [.accept, .receive 1 ((stream sampleQt 0x0A000001 sampleTalk).take 15),
    .receive 1 ((stream sampleQt 0x0A000001 sampleTalk).drop 15)]

theorem uplink_sampleTalk :
    Uplink sampleQt 0x0A000001 sampleTalk 1 (stateAfter sampleTalkEvents) :=
  uplink (by decide) (by decide) (run_stateAfter (by decide +kernel)) (by decide)

end CloudMeeting.Link
