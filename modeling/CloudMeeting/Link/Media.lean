/-
Media from one client to another.

Four codecs stand between a member who writes and a member who reads: the sender's
client encodes a message, the server decodes the packet, relays it under another type
and the sender's recorded address and encodes it again, and the reader's client decodes
the frame.  Texts are only compressed and sounds are written in base64 as well, but what
was done to the content is undone in the end (`decoding_outbound`), provided that
decompressing undoes compressing and base64 can be read back.

`media` puts this into a run.  The frame stands in the reader's queue after what earlier
records put there, and the parser reaches it however the queue is cut into chunks.
-/
import CloudMeeting.Link.Downlink

namespace CloudMeeting.Link

open Framing Server Client

variable {Image : Type} {qt : Qt Image}

/-- What is heard of a text or a sound that somebody at `ip` has sent. -/
def heard (ip : UInt32) : Message Image → Option (Message Image)
  | .sendText text => if text = [] then none else some (.recvText ip text)
  | .sendAudio audio => if audio = [] then none else some (.recvAudio ip audio)
  | _ => none

/-! ### Four codecs -/

theorem decodeTextRecv_compress (hqt : qt.Lossless) (ip : UInt32) {text : Bytes} (h : text ≠ []) :
    MessageCodec.decodeTextRecv qt (MessageCodec.compressTextPayload qt text) ip
      = some (.recvText ip text) := by
  simp only [MessageCodec.decodeTextRecv, MessageCodec.decodeTextWirePayload,
    MessageCodec.compressTextPayload, hqt.qUncompress_qCompress, if_neg h]

theorem decodeAudioRecv_compress (hqt : qt.Lossless) (ip : UInt32) {audio : Bytes}
    (h : audio ≠ []) :
    MessageCodec.decodeAudioRecv qt (MessageCodec.compressAudioPayload qt audio) ip
      = some (.recvAudio ip audio) := by
  simp only [MessageCodec.decodeAudioRecv, MessageCodec.decodeAudioWirePayload,
    MessageCodec.compressAudioPayload, hqt.fromBase64_toBase64, hqt.qUncompress_qCompress,
    if_neg h]

/-- **What the server relays is decoded to what was sent**, under the address it relays. -/
theorem decoding_outbound (hqt : qt.Lossless) {localIp ip : UInt32} {msg m : Message Image}
    {sent : Packet} (hsent : asPacket qt localIp msg = some sent) (hheard : heard ip msg = some m) :
    ∃ out, outbound ip sent = some out ∧ decoding qt out = some m := by
  cases msg with
  | sendText text =>
      obtain ⟨htext, hm⟩ : text ≠ [] ∧ Message.recvText ip text = m := by
        simpa [heard] using hheard
      simp only [asPacket, Message.kind, meaning, Option.map_some, Option.some.injEq] at hsent
      subst hsent hm
      refine ⟨_, rfl, ?_⟩
      rw [decoding_eq]
      exact decodeTextRecv_compress hqt ip htext
  | sendAudio audio =>
      obtain ⟨haudio, hm⟩ : audio ≠ [] ∧ Message.recvAudio ip audio = m := by
        simpa [heard] using hheard
      simp only [asPacket, Message.kind, meaning, Option.map_some, Option.some.injEq] at hsent
      subst hsent hm
      refine ⟨_, rfl, ?_⟩
      rw [decoding_eq]
      exact decodeAudioRecv_compress hqt ip haudio
  | _ => simp [heard] at hheard

/-! ### The reader's queue -/

variable {cfg : ServerConfig} {env : Env} {s : State} {c d : ConnId}

/-- No packet the server sends is too long for a frame, if rooms are not too large. -/
theorem sends_lt (hfew : cfg.maxParticipantsPerRoom ≤ 2 ^ 30) {r : Record} (hr : r.Shaped cfg) :
    ∀ p ∈ r.sends d, p.payload.length < 2 ^ 32 := by
  intro p hp
  cases r with
  | packet x sent present =>
      have hlt : sent.payload.length < 2 ^ 32 := hr
      simp only [Record.sends, outbound_eq] at hp
      split at hp
      · split at hp
        · obtain ⟨type, -, rfl⟩ := Option.map_eq_some_iff.mp (Option.mem_toList.mp hp)
          show (if type = .closeCamera then ([] : Bytes) else sent.payload).length < _
          split
          · exact Nat.two_pow_pos 32
          · exact hlt
        · simp at hp
      · simp at hp
  | answered x response =>
      simp only [Record.sends] at hp
      split at hp
      · rw [List.mem_singleton.mp hp, hr.2]
        omega
      · simp at hp
  | hosted room x response =>
      simp only [Record.sends] at hp
      split at hp
      · rw [List.mem_singleton.mp hp, hr.2]
        omega
      · simp at hp
  | joined room x response ip present =>
      obtain ⟨-, hresponse, hpresent⟩ := hr
      simp only [Record.sends] at hp
      split at hp
      · rcases List.mem_pair.mp hp with rfl | rfl
        · omega
        · have hlen : (partnerList present).payload.length = present.length * 4 := by
            simp [partnerList, List.length_flatMap]
          omega
      · split at hp
        · rw [List.mem_singleton.mp hp]
          exact Nat.two_pow_pos 32
        · simp at hp
  | left room x participant remaining =>
      simp only [Record.sends] at hp
      split at hp
      · rw [List.mem_singleton.mp hp]
        exact Nat.two_pow_pos 32
      · simp at hp
  | malformed x => simp [Record.sends] at hp
  | dissolved room => simp [Record.sends] at hp

/-- The parser reaches whatever is all there, however it is cut into chunks. -/
theorem filterMap_decoding_feedAll {ps : List Packet} (hshort : ∀ p ∈ ps, p.payload.length < 2 ^ 32)
    {chunks : List Bytes} (hroom : MessageCodec.NoReset qt [] chunks)
    (hthere : encodeAll ps <+: chunks.flatten) :
    ps.filterMap (decoding qt) <+: (MessageCodec.feedAll qt [] chunks).1 := by
  obtain ⟨more, hmore⟩ := hthere
  have hcuts : Cuts (MessageCodec.cutter qt) chunks.flatten (ps.map (decoding qt)) more := by
    rw [← hmore]
    exact Cuts.flatten (fun p hp => next_encode qt (hshort p hp)) more
  have hfront := (hcuts.isPrefix (drain_cuts _) (drain_stuck _)).filterMap id
  rw [List.filterMap_map, Function.id_comp] at hfront
  rw [MessageCodec.feedAll_eq_drain (MessageCodec.cutter qt).stuck_nil hroom]
  exact hfront

/-- `d` hears `m` of the packet on record between `before` and `after`, which `out` relays. -/
structure Transparent (qt : Qt Image) (s : State) (d : ConnId) (before after : List Record)
    (out : Packet) (m : Message Image) : Prop where
  /-- The frame stands in the queue behind those of what was done before. -/
  queue : (s.conn d).outgoing
    = (before.flatMap (·.sends d) ++ out :: after.flatMap (·.sends d)).map Codec.encode
  decoded : decoding qt out = some m
  /-- Once it has arrived, the message has come out of the parser in its turn. -/
  arrives : ∀ chunks, MessageCodec.NoReset qt [] chunks →
    encodeAll (before.flatMap (·.sends d) ++ [out]) <+: chunks.flatten →
    (before.flatMap (·.sends d)).filterMap (decoding qt) ++ [m]
      <+: (MessageCodec.feedAll qt [] chunks).1

/-- **What a member writes, every other member reads**, under the address the server has
recorded for the writer. -/
theorem media (hqt : qt.Lossless) (hfew : cfg.maxParticipantsPerRoom ≤ 2 ^ 30)
    {localIp : UInt32} {msgs : List (Message Image)}
    (hkinds : ∀ msg ∈ msgs, (meaning msg.kind).isSome = true)
    (hsize : ∀ msg ∈ msgs, (MessageCodec.wireBody qt msg).length < 2 ^ 32)
    {es : List Event} (hrun : Run.run (step cfg env) {} es = some s)
    (hchunks : (es.filterMap (Event.chunkFor c)).flatten <+: stream qt localIp msgs)
    {before after : List Record} {sent : Packet} {present : Participants}
    (hhistory : s.history = before ++ .packet c sent present :: after)
    {sender : Participant} (hc : present.lookup c = some sender)
    (hd : d ∈ present) (hne : d ≠ c) {msg m : Message Image}
    (hmsg : msgs[(handled c before).length]? = some msg)
    (hheard : heard sender.ipNetwork msg = some m) :
    ∃ out, Transparent qt s d before after out m := by
  have h : Reachable cfg env s := ⟨es, hrun⟩
  -- the packet is the message of its turn
  have hsent : asPacket qt localIp msg = some sent := by
    obtain ⟨rest, hrest⟩ := handled_stream hkinds hsize hrun hchunks
    have hturn := congrArg (·[(handled c before).length]?) hrest
    simp only [List.getElem?_map, hmsg, Option.map_some] at hturn
    rw [hhistory, handled_append, List.getElem?_append_left (by simp [handled, Record.packetOf]),
      List.getElem?_map, List.getElem?_append_right (Nat.le_refl _), Nat.sub_self] at hturn
    simpa [handled, Record.packetOf] using hturn.symm
  obtain ⟨out, hout, hdecoded⟩ := decoding_outbound hqt hsent hheard
  have hsends : (Record.packet c sent present).sends d = [out] := by
    simp only [Record.sends]
    rw [hc]
    simp only [hne, hd, ne_eq, not_false_eq_true, and_self, if_true, hout, Option.toList_some]
  have hshort : ∀ p ∈ before.flatMap (·.sends d) ++ [out], p.payload.length < 2 ^ 32 := by
    intro p hp
    obtain ⟨r, hr, hpr⟩ : ∃ r ∈ s.history, p ∈ r.sends d := by
      rcases List.mem_append.mp hp with hp | hp
      · obtain ⟨r, hr, hpr⟩ := List.mem_flatMap.mp hp
        exact ⟨r, by rw [hhistory]; exact List.mem_append_left _ hr, hpr⟩
      · exact ⟨.packet c sent present, by rw [hhistory]; simp, by rw [hsends]; exact hp⟩
    exact sends_lt hfew (h.shaped r hr) p hpr
  refine ⟨out, ?_, hdecoded, ?_⟩
  · rw [h.outgoing_eq d, hhistory, List.flatMap_append, List.flatMap_cons, hsends]
    rfl
  · intro chunks hroom hthere
    have hfront := filterMap_decoding_feedAll hshort hroom hthere
    rwa [List.filterMap_append, List.filterMap_cons_some hdecoded] at hfront

/-! ### A run -/

/-- What the client on connection 2 sends: it joins room 1 and writes something. -/
def sampleGuest : List (Message Unit) := [.joinMeeting [49], .sendText hi]

def sampleGuestEvents : List Event :=
  [.accept, .accept, .accept,
    .receive 1 (stream sampleQt 0x0A000001 [.createMeeting]),
    .receive 3 (stream sampleQt 0x0A000003 [.joinMeeting [49]]),
    .receive 2 ((stream sampleQt 0x0A000002 sampleGuest).take 20),
    .receive 2 ((stream sampleQt 0x0A000002 sampleGuest).drop 20)]

/-- The participants a record says were present. -/
def presentOf : Record → Participants
  | .packet _ _ present => present
  | _ => ∅

theorem eq_packet {r : Record} {c : ConnId} {sent : Packet}
    (h : r.packetOf c = some sent) : r = .packet c sent (presentOf r) := by
  cases r with
  | packet d sent' present =>
      simp only [Record.packetOf, Option.ite_none_right_eq_some, Option.some.injEq] at h
      obtain ⟨rfl, rfl⟩ := h
      rfl
  | _ => simp [Record.packetOf] at h

theorem media_sampleGuest : ∃ before after out,
    Transparent sampleQt (stateAfter sampleGuestEvents) 3 before after out
      (.recvText 0x0A000002 hi) := by
  have hrun : Run.run (step {} sampleEnv) {} sampleGuestEvents
      = some (stateAfter sampleGuestEvents) := run_stateAfter (by decide +kernel)
  have hchunks : (sampleGuestEvents.filterMap (Event.chunkFor 2)).flatten
      <+: stream sampleQt 0x0A000002 sampleGuest := by decide
  generalize hhistory : (stateAfter sampleGuestEvents).history = history
  have hpacket : (history[6]?).bind (Record.packetOf 2)
      = some ⟨.textSend, 0x0A000002, hiCompressed⟩ := by
    rw [← hhistory]
    decide +kernel
  have hsender : (history[6]?).bind (fun r => (presentOf r).lookup 2)
      = some ⟨0x0A000002, false⟩ := by
    rw [← hhistory]
    decide +kernel
  have hreader : ((history[6]?).bind fun r => (presentOf r).lookup 3).isSome = true := by
    rw [← hhistory]
    decide +kernel
  have hturn : sampleGuest[(handled 2 (history.take 6)).length]? = some (.sendText hi) := by
    rw [← hhistory]
    decide +kernel
  obtain ⟨r, hr, hr'⟩ := Option.bind_eq_some_iff.mp hpacket
  rw [hr, Option.bind_some] at hsender hreader
  have hsplit : history = history.take 6
      ++ .packet 2 ⟨.textSend, 0x0A000002, hiCompressed⟩ (presentOf r) :: history.drop 7 := by
    obtain ⟨hlen, hget⟩ := List.getElem?_eq_some_iff.mp hr
    rw [← eq_packet hr', ← hget, ← List.drop_eq_getElem_cons, List.take_append_drop]
  exact ⟨_, _, media sampleQt_lossless (by simp) (by decide) (by decide) hrun hchunks
    (hhistory.trans hsplit) hsender (AList.lookup_isSome.mp hreader) (by decide) hturn rfl⟩

end CloudMeeting.Link
