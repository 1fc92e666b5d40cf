/-
Who a client believes is in the meeting.

A client keeps one partner for each ip.  Message by message its handlers do to the set of
these ips what a viewer of the conference does to its view (`partner_onNote`), so a client
that has read its whole queue has exactly the recorded addresses of the room as partners
(`roster`).

That takes two things.  `peer_ip_network` has to stand by what it says about a connection,
and nobody may leave the client behind together with a member of its own address: a farewell
carries an ip and no more, so the client cannot know that somebody else is still there
behind it (`sharedAddress`).
-/
import CloudMeeting.Conference.Presence
import CloudMeeting.Link.Joining
import CloudMeeting.Link.Media

namespace CloudMeeting.Link

open Endian Framing Conference Server Client

variable {Image : Type}

/-! ### One message -/

/-- The message tells its receiver that it is in. -/
def admission : Message Image → Bool
  | .createMeetingResponse roomNo => int32OfUInt32 roomNo ≠ 0
  | .joinMeetingResponse c => 0 < c
  | _ => false

/-- The message is a picture. -/
def picture : Message Image → Bool
  | .recvImage _ _ => true
  | _ => false

section Handlers

variable (ip : UInt32) (w : MeetingWidget)

/-- An answer makes a partner of the client itself if it admits it. -/
theorem partner_answer {m : Message Image} (hkind : m.kind = .createMeetingResponse
      ∨ m.kind = .joinMeetingResponse) : (MeetingWidget.onMessage ip m w).1.partner
    = if admission m then insert ip w.partner else w.partner := by
  cases m with
  | createMeetingResponse roomNo =>
      rw [MeetingWidget.onMessage, MeetingWidget.handleCreateMeetingResponse]
      by_cases hzero : int32OfUInt32 roomNo = 0
      · simp [admission, hzero]
      · simp [admission, hzero, MeetingWidget.partner_addPartner]
  | joinMeetingResponse c =>
      rw [MeetingWidget.onMessage, MeetingWidget.handleJoinMeetingResponse]
      by_cases hpos : 0 < c
      · simp [joinBranch_joined.mpr hpos, admission, hpos, MeetingWidget.partner_addPartner]
      · have hno : MeetingWidget.joinBranch c ≠ some .joined := mt joinBranch_joined.mp hpos
        rw [admission, if_neg (by simpa using hpos)]
        split
        · rfl
        · rfl
        · rename_i hjoined
          exact absurd hjoined hno
        · rfl
  | _ => simp [Message.kind] at hkind

end Handlers

/-! ### One note -/

variable (qt : Qt Image)

/-- The server's packet admits the client that decodes it. -/
def admits (packet : Packet) : Bool := (decoding qt packet).any admission

/-- The client that decodes the server's packet sees a picture. -/
def reveals (packet : Packet) : Bool := (decoding qt packet).any picture

theorem fromBigEndian32_beBytes (value : UInt32) (more : Bytes) :
    fromBigEndian32 (beBytes 4 value.toNat ++ more) = value := by
  have hlt : value.toNat < 256 ^ 4 := value.toNat_lt
  rw [fromBigEndian32, List.take_left' (length_beBytes _ _), beNat_beBytes_of_lt hlt,
    UInt32.ofNat_toNat]

/-- The list a newcomer gets is read as it was written. -/
theorem decodePartnerJoin2_flatMap (ips : List UInt32) :
    (MessageCodec.decodePartnerJoin2 (ips.flatMap fun ip => store32 (htonl ip)) : Message Image)
      = .partnerJoin2 ips := by
  rw [MessageCodec.decodePartnerJoin2, Message.partnerJoin2.injEq]
  have hlen : ∀ ips : List UInt32,
      (ips.flatMap fun ip => store32 (htonl ip)).length = 4 * ips.length := by
    intro ips
    simp [List.length_flatMap, Nat.mul_comm]
  rw [hlen, Nat.mul_div_cancel_left _ (by decide)]
  induction ips with
  | nil => rfl
  | cons ip ips ih =>
      have hback : ∀ i, ((ip :: ips).flatMap fun ip => store32 (htonl ip)).drop (4 * (i + 1))
          = (ips.flatMap fun ip => store32 (htonl ip)).drop (4 * i) := by
        intro i
        have hfront : (store32 (htonl ip)).length = 4 := length_store32 _
        have hsize : 4 * (i + 1) = (store32 (htonl ip)).length + 4 * i := by omega
        rw [List.flatMap_cons, hsize, List.drop_append, List.drop_eq_nil_of_le (by omega),
          List.nil_append]
        congr 1
        omega
      rw [List.length_cons, List.range_succ_eq_map, List.map_cons, List.map_map]
      simp only [Function.comp_def, Nat.succ_eq_add_one, hback]
      rw [ih, Nat.mul_zero, List.drop_zero, List.flatMap_cons, store32_htonl,
        fromBigEndian32_beBytes]

/-- The packet of a note is of one of the types the server writes such notes in. -/
def WellTyped (address : ConnId → UInt32) : Note ConnId Packet → Prop
  | .reply m => m.type = .createMeetingResponse ∨ m.type = .joinMeetingResponse
  | .relayed c m => m.ip = address c ∧
      (m.type = .imgRecv ∨ m.type = .audioRecv ∨ m.type = .textRecv ∨ m.type = .closeCamera)
  | _ => True

variable {address : ConnId → UInt32} {d : ConnId} (w : MeetingWidget)

theorem decoding_reply {m : Packet}
    (h : m.type = .createMeetingResponse ∨ m.type = .joinMeetingResponse) :
    ∃ msg, decoding qt m = some msg ∧
      (msg.kind = .createMeetingResponse ∨ msg.kind = .joinMeetingResponse) := by
  rw [decoding_eq]
  rcases h with h | h <;> rw [h]
  · exact ⟨_, rfl, Or.inl rfl⟩
  · exact ⟨_, rfl, Or.inr rfl⟩

/-- What members send each other decodes to a picture or to nothing that concerns partners. -/
theorem decoding_relayed {m : Packet} (h : m.type = .imgRecv ∨ m.type = .audioRecv
      ∨ m.type = .textRecv ∨ m.type = .closeCamera) {msg : Message Image}
    (hmsg : decoding qt m = some msg) : (∃ image, msg = .recvImage m.ip image) ∨
      admission msg = false ∧ picture msg = false ∧
        ∀ ip w, (MeetingWidget.onMessage ip msg w).1 = w := by
  have hip : Codec.wireIp m = m.ip := by
    rw [Codec.wireIp, Codec.headerIncludesIp]
    rcases h with h | h | h | h <;> rw [h] <;> rfl
  rw [decoding_eq, hip] at hmsg
  rcases h with h | h | h | h <;> rw [h] at hmsg
  · have himage : MessageCodec.decodeImageRecv qt m.payload m.ip = some msg := hmsg
    simp only [MessageCodec.decodeImageRecv] at himage
    split at himage
    · simp at himage
    · obtain ⟨image, -, rfl⟩ := Option.map_eq_some_iff.mp himage
      exact Or.inl ⟨image, rfl⟩
  · have haudio : MessageCodec.decodeAudioRecv qt m.payload m.ip = some msg := hmsg
    simp only [MessageCodec.decodeAudioRecv] at haudio
    split at haudio
    · simp at haudio
    · obtain rfl := Option.some.inj haudio
      exact Or.inr ⟨rfl, rfl, fun _ _ => rfl⟩
  · have htext : MessageCodec.decodeTextRecv qt m.payload m.ip = some msg := hmsg
    simp only [MessageCodec.decodeTextRecv] at htext
    split at htext
    · simp at htext
    · obtain rfl := Option.some.inj htext
      exact Or.inr ⟨rfl, rfl, fun _ _ => rfl⟩
  · obtain rfl : Message.closeCameraNotify m.ip = msg := Option.some.inj hmsg
    exact Or.inr ⟨rfl, rfl, fun _ _ => rfl⟩

/-- Only an answer admits. -/
theorem reply_of_admission {n : Note ConnId Packet} (h : WellTyped address n) {msg : Message Image}
    (hmsg : decoding qt (notePacket address n) = some msg) (hadmission : admission msg = true) :
    ∃ m, n = .reply m ∧ admits qt m = true := by
  cases n with
  | reply m =>
      refine ⟨m, rfl, ?_⟩
      have hm : decoding qt m = some msg := hmsg
      rw [admits, hm]
      exact hadmission
  | relayed c m =>
      rcases decoding_relayed qt h.2 hmsg with ⟨image, rfl⟩ | ⟨hno, -⟩
      · simp [admission] at hadmission
      · simp [hno] at hadmission
  | joined c =>
      rw [decoding_eq] at hmsg
      obtain rfl : Message.partnerJoin (address c) = msg := Option.some.inj hmsg
      simp [admission] at hadmission
  | roster cs =>
      rw [decoding_eq] at hmsg
      obtain rfl := Option.some.inj hmsg
      simp [MessageCodec.decodePartnerJoin2, admission] at hadmission
  | left c =>
      rw [decoding_eq] at hmsg
      obtain rfl : Message.partnerExit (address c) = msg := Option.some.inj hmsg
      simp [admission] at hadmission

/-- **A client reacts to the packet of a note as a viewer does to the note.** -/
theorem partner_onNote {n : Note ConnId Packet} (h : WellTyped address n) :
    (MeetingWidget.afterMessages (address d) (decoding qt (notePacket address n)).toList w).partner
      = react address (admits qt) (reveals qt) d w.partner n := by
  cases n with
  | reply m =>
      obtain ⟨msg, hmsg, hkind⟩ := decoding_reply qt h
      have hadmits : admits qt m = admission msg := by rw [admits, hmsg]; rfl
      rw [notePacket, hmsg, react, hadmits]
      exact partner_answer (address d) w hkind
  | joined c =>
      rw [decoding_eq]
      exact MeetingWidget.partner_handlePartnerJoin (address c) w
  | roster cs =>
      have hbody : (cs.flatMap fun c => store32 (htonl (address c)))
          = (cs.map address).flatMap fun ip => store32 (htonl ip) := by
        rw [List.flatMap_map]
      have hdecoded : decoding qt (notePacket address (.roster cs))
          = some (.partnerJoin2 (cs.map address)) := by
        rw [decoding_eq, notePacket, hbody, ← decodePartnerJoin2_flatMap (cs.map address)]
        rfl
      rw [hdecoded]
      exact MeetingWidget.partner_handlePartnerJoin2 w (cs.map address)
  | relayed c m =>
      obtain ⟨hip, htype⟩ := h
      rw [notePacket, react, ← hip, reveals]
      cases hmsg : decoding qt m with
      | none => rfl
      | some msg =>
          rcases decoding_relayed qt htype hmsg with ⟨image, rfl⟩ | ⟨-, hpicture, hsame⟩
          · exact MeetingWidget.partner_addPartner m.ip w
          · rw [Option.any_some, hpicture]
            exact congrArg MeetingWidget.partner (hsame (address d) w)
  | left c =>
      rw [decoding_eq]
      rfl

/-- A list of notes, one after the other. -/
theorem partner_afterNotes {ns : List (Note ConnId Packet)} (h : ∀ n ∈ ns, WellTyped address n) :
    (MeetingWidget.afterMessages (address d)
        ((ns.map (notePacket address)).filterMap (decoding qt)) w).partner
      = ns.foldl (react address (admits qt) (reveals qt) d) w.partner := by
  induction ns generalizing w with
  | nil => rfl
  | cons n ns ih =>
      have hcons : ((n :: ns).map (notePacket address)).filterMap (decoding qt)
          = (decoding qt (notePacket address n)).toList
            ++ (ns.map (notePacket address)).filterMap (decoding qt) := by
        rw [List.map_cons, List.filterMap_cons]
        cases decoding qt (notePacket address n) <;> rfl
      rw [hcons, MeetingWidget.afterMessages, List.foldl_append, List.foldl_cons,
        ← partner_onNote qt w (h n (by simp))]
      exact ih _ fun x hx => h x (by simp [hx])

/-! ### A whole meeting -/

variable {qt} {w} {cfg : ServerConfig} {env : Env} {s : State} {p : RoomPtr}

theorem outbound_type {ip : UInt32} {sent m : Packet} (h : outbound ip sent = some m) :
    m.ip = ip ∧ (m.type = .imgRecv ∨ m.type = .audioRecv ∨ m.type = .textRecv
      ∨ m.type = .closeCamera) := by
  rw [outbound_eq] at h
  obtain ⟨type, htype, rfl⟩ := Option.map_eq_some_iff.mp h
  have hrelayed := relayedType_isRelayed htype
  simp only [isRelayed, decide_eq_true_eq] at hrelayed
  exact ⟨rfl, hrelayed⟩

/-- The notes of a record are well typed. -/
theorem wellTyped_noteFor (hsteady : Steady env) {r : Record} (hshaped : r.Shaped cfg)
    (hlearnt : r.Learnt env) {e : Happening RoomPtr ConnId Packet} (he : r.happening = some e) :
    ∀ n ∈ noteFor d e, WellTyped env.address n := by
  intro n hn
  cases r with
  | packet c sent present =>
      simp only [Record.happening] at he
      split at he
      · rename_i sender hsender
        obtain ⟨m, hm, rfl⟩ := Option.map_eq_some_iff.mp he
        simp only [noteFor] at hn
        split at hn
        · rw [List.mem_singleton.mp hn]
          obtain ⟨hip, htype⟩ := outbound_type hm
          exact ⟨by rw [hip]; exact Learnt.eq_address hsteady (hlearnt c sender hsender), htype⟩
        · simp at hn
      · simp at he
  | malformed c => simp [Record.happening] at he
  | answered c response =>
      obtain rfl := Option.some.inj he
      simp only [noteFor] at hn
      split at hn
      · rw [List.mem_singleton.mp hn]
        exact hshaped.1
      · simp at hn
  | hosted room c response =>
      obtain rfl := Option.some.inj he
      simp only [noteFor] at hn
      split at hn
      · rw [List.mem_singleton.mp hn]
        exact Or.inl hshaped.1
      · simp at hn
  | joined room c response ip present =>
      obtain rfl := Option.some.inj he
      simp only [noteFor] at hn
      split at hn
      · rcases List.mem_pair.mp hn with rfl | rfl
        · exact Or.inr hshaped.1
        · trivial
      · split at hn
        · rw [List.mem_singleton.mp hn]
          trivial
        · simp at hn
  | left room c participant remaining =>
      obtain rfl := Option.some.inj he
      simp only [noteFor] at hn
      split at hn
      · rw [List.mem_singleton.mp hn]
        trivial
      · simp at hn
  | dissolved room =>
      obtain rfl := Option.some.inj he
      simp [noteFor] at hn

theorem wellTyped_notes (hsteady : Steady env) (h : Reachable cfg env s) :
    ∀ n ∈ notes d (happenings s.history), WellTyped env.address n := by
  intro n hn
  obtain ⟨e, he, hne⟩ := List.mem_flatMap.mp hn
  obtain ⟨r, hr, hre⟩ := List.mem_filterMap.mp he
  exact wellTyped_noteFor hsteady (h.shaped r hr) (h.records.history r hr) hre n hne

/-- Whoever leaves `d` behind, leaves nobody behind with its own address. -/
def Apart (d : ConnId) : Record → Prop
  | .left _ _ participant remaining =>
      d ∈ remaining → ∀ item ∈ remaining.entries, item.2.ipNetwork ≠ participant.ipNetwork
  | _ => True

instance : DecidablePred (Apart d)
  | .left _ _ participant remaining => inferInstanceAs (Decidable (d ∈ remaining →
      ∀ item ∈ remaining.entries, item.2.ipNetwork ≠ participant.ipNetwork))
  | .packet .. | .malformed _ | .answered .. | .hosted .. | .joined .. | .dissolved _ =>
      inferInstanceAs (Decidable True)

theorem exclusive_of_apart (hsteady : Steady env) (h : Reachable cfg env s)
    (hapart : ∀ r ∈ s.history, Apart d r) : Exclusive env.address d (happenings s.history) := by
  intro room c rest he hseen e hremains
  obtain ⟨r, hr, hre⟩ := List.mem_filterMap.mp he
  have hlearnt : r.Learnt env := h.records.history r hr
  cases r with
  | left room' c' participant remaining =>
      obtain ⟨rfl, rfl, rfl⟩ : room' = room ∧ c' = c ∧ remaining.keys = rest := by
        simpa [Record.happening] using hre
      obtain ⟨q, hq⟩ := Option.isSome_iff_exists.mp
        (AList.lookup_isSome.mpr (AList.mem_keys.mpr hremains))
      rw [← hlearnt.1.eq_address hsteady, ← (hlearnt.2 e q hq).eq_address hsteady]
      exact hapart _ hr (AList.mem_keys.mpr hseen) ⟨e, q⟩ (AList.mem_lookup_iff.mp hq)
  | packet c' sent present =>
      simp only [Record.happening] at hre
      split at hre
      · obtain ⟨m, -, hm⟩ := Option.map_eq_some_iff.mp hre
        simp at hm
      · simp at hre
  | _ => simp [Record.happening] at hre

/-- The addresses recorded for the participants. -/
def recordedIps (participants : Participants) : Finset UInt32 :=
  (participants.entries.map fun item => item.2.ipNetwork).toFinset

/-- The recorded addresses are those of the conference's members. -/
theorem recordedIps_eq (hsteady : Steady env) (h : Reachable cfg env s) (hp : s.core.InTable p) :
    recordedIps (s.room p).participants
      = addresses env.address (members (happenings s.history) p) := by
  have hlearnt : AllLearnt env (s.room p).participants := h.records.participants hp
  have hperm : (s.room p).participants.keys.Perm (members (happenings s.history) p) :=
    h.confers.keys_perm hp
  ext a
  rw [mem_addresses, recordedIps, List.mem_toFinset, List.mem_map]
  constructor
  · intro hin
    obtain ⟨item, hitem, rfl⟩ := hin
    refine ⟨item.1, hperm.mem_iff.mp (List.mem_map_of_mem hitem), ?_⟩
    exact ((hlearnt.mem hitem).eq_address hsteady).symm
  · intro hin
    obtain ⟨c, hc, rfl⟩ := hin
    obtain ⟨item, hitem, rfl⟩ := List.mem_map.mp (hperm.mem_iff.mpr hc)
    exact ⟨item, hitem, (hlearnt.mem hitem).eq_address hsteady⟩

/-- `d` sits in room `p`, is recorded at `ip`, has read its whole queue in these chunks and has
found an answer there that admits it. -/
structure Inside (qt : Qt Image) (s : State) (p : RoomPtr) (d : ConnId) (ip : UInt32)
    (chunks : List Bytes) : Prop where
  inTable : s.core.InTable p
  seated : ((s.room p).participants.lookup d).map (·.ipNetwork) = some ip
  queue : chunks.flatten = (s.conn d).outgoing.flatten
  noReset : MessageCodec.NoReset qt [] chunks
  admitted : ∃ m ∈ (MessageCodec.feedAll qt [] chunks).1, admission m = true

/-- What comes out of the parser for the whole queue. -/
theorem feedAll_queue (hfew : cfg.maxParticipantsPerRoom ≤ 2 ^ 30) (hsteady : Steady env)
    (h : Reachable cfg env s) {chunks : List Bytes}
    (hqueue : chunks.flatten = (s.conn d).outgoing.flatten)
    (hroom : MessageCodec.NoReset qt [] chunks) : (MessageCodec.feedAll qt [] chunks).1
      = ((notes d (happenings s.history)).map (notePacket env.address)).filterMap
          (decoding qt) := by
  rw [← h.sends_notes hsteady]
  generalize hps : s.history.flatMap (·.sends d) = ps
  have hshort : ∀ packet ∈ ps, packet.payload.length < 2 ^ 32 := by
    intro packet hpacket
    rw [← hps] at hpacket
    obtain ⟨r, hr, hsent⟩ := List.mem_flatMap.mp hpacket
    exact sends_lt hfew (h.shaped r hr) packet hsent
  rw [feedAll_encodeAll qt hshort hroom (by rw [hqueue, h.outgoing_eq d, hps, encodeAll])]

/-- **A client that has read its queue has the addresses of the room as its partners**, as long
as nobody it saw leave has left behind a member with its own address. -/
theorem roster (hfew : cfg.maxParticipantsPerRoom ≤ 2 ^ 30) (hsteady : Steady env)
    (h : Reachable cfg env s) (hapart : ∀ r ∈ s.history, Apart d r) {ip : UInt32}
    {chunks : List Bytes} (hinside : Inside qt s p d ip chunks) (hstart : w.partner = ∅) :
    (MeetingWidget.afterMessages ip (MessageCodec.feedAll qt [] chunks).1 w).partner
      = recordedIps (s.room p).participants := by
  have hp := hinside.inTable
  have hlearnt : AllLearnt env (s.room p).participants := h.records.participants hp
  obtain ⟨self, hself, rfl⟩ := Option.map_eq_some_iff.mp hinside.seated
  have hseat : d ∈ members (happenings s.history) p :=
    h.confers.members.mpr ⟨hp, AList.lookup_isSome.mp (Option.isSome_of_eq_some hself)⟩
  have hread := feedAll_queue hfew hsteady h hinside.queue hinside.noReset
  have hadmitted : Admitted (admits qt) d (happenings s.history) := by
    obtain ⟨m, hm, hadmission⟩ := hinside.admitted
    rw [hread] at hm
    obtain ⟨packet, hpacket, hdecoded⟩ := List.mem_filterMap.mp hm
    obtain ⟨n, hn, rfl⟩ := List.mem_map.mp hpacket
    obtain ⟨reply, rfl, hadmits⟩ :=
      reply_of_admission qt (wellTyped_notes hsteady h n hn) hdecoded hadmission
    exact ⟨reply, hn, hadmits⟩
  rw [(hlearnt d self hself).eq_address hsteady, hread,
    partner_afterNotes qt _ (wellTyped_notes hsteady h), hstart, recordedIps_eq hsteady h hp]
  exact h.confers.valid.view_eq (exclusive_of_apart hsteady h hapart) hadmitted hseat

/-- Three meet, and the second leaves. -/
def sampleParting : List Event := sampleMeeting ++ [.readError 2]

theorem roster_sampleParting :
    (MeetingWidget.afterMessages 0x0A000003 (MessageCodec.feedAll sampleQt []
      [((stateAfter sampleParting).conn 3).outgoing.flatten]).1 {}).partner
      = recordedIps ((stateAfter sampleParting).room 0).participants := by
  have hreach : Reachable {} sampleEnv (stateAfter sampleParting) :=
    ⟨sampleParting, run_stateAfter (by decide +kernel)⟩
  have hinside : Inside sampleQt (stateAfter sampleParting) 0 3 0x0A000003
      [((stateAfter sampleParting).conn 3).outgoing.flatten] :=
    ⟨by decide +kernel, by decide +kernel, by simp, by decide +kernel, by decide +kernel⟩
  exact roster (by decide) (fun _ _ _ => rfl) hreach (by decide +kernel) hinside rfl

/-! ### Partners that are lost -/

/-- Two members meet, and the second leaves. -/
def parting : List Event :=
  [.accept, .accept, .receive 1 (Wire.frame 6 0 []), .receive 2 (Wire.frame 8 0 [0, 0, 0, 1]),
    .readError 2]

/-- Everybody sits behind one address. -/
def sharedEnv : Env := { sampleEnv with peerIp := fun _ _ => 0x0A000001 }

/-- A connection has an address when it is asked for the first time, and then no more. -/
def forgetfulEnv : Env :=
  { sampleEnv with peerIp := fun c n => if n = 0 then UInt32.ofNat (0x0A000000 + c) else 0 }

/-- The state after a list of events that can all happen. -/
def stateIn (env : Env) (es : List Event) : State := (Run.run (step {} env) {} es).getD {}

theorem reachable_stateIn {es : List Event}
    (h : (Run.run (step {} env) {} es).isSome = true) : Reachable {} env (stateIn env es) := by
  obtain ⟨s, hs⟩ := Option.isSome_iff_exists.mp h
  refine ⟨es, ?_⟩
  rw [stateIn, hs]
  rfl

/-- Whoever shares an address with somebody who leaves is gone as well, and a member announced
under another address than it is recorded at is somebody else. -/
theorem sharedAddress :
    (∃ s, Reachable {} sharedEnv s ∧ Steady sharedEnv ∧
      ∃ chunks, Inside sampleQt s 0 1 0x0A000001 chunks ∧
        (MeetingWidget.afterMessages 0x0A000001 (MessageCodec.feedAll sampleQt [] chunks).1
          {}).partner = ∅ ∧
        recordedIps (s.room 0).participants = {0x0A000001}) ∧
    (∃ s, Reachable {} forgetfulEnv s ∧ (∀ r ∈ s.history, Apart 1 r) ∧
      ∃ chunks, Inside sampleQt s 0 1 0x0A000001 chunks ∧
        (MeetingWidget.afterMessages 0x0A000001 (MessageCodec.feedAll sampleQt [] chunks).1
          {}).partner = {0x0A000001, 0} ∧
        recordedIps (s.room 0).participants = {0x0A000001, 0x0A000002}) := by
  constructor
  · refine ⟨stateIn sharedEnv parting, reachable_stateIn (by decide +kernel), fun _ _ _ => rfl,
      [((stateIn sharedEnv parting).conn 1).outgoing.flatten], ?_, ?_, ?_⟩
    · exact ⟨by decide +kernel, by decide +kernel, by simp, by decide +kernel, by decide +kernel⟩
    · decide +kernel
    · decide +kernel
  · refine ⟨stateIn forgetfulEnv (parting.take 4), reachable_stateIn (by decide +kernel),
      by decide +kernel,
      [((stateIn forgetfulEnv (parting.take 4)).conn 1).outgoing.flatten], ?_, ?_, ?_⟩
    · exact ⟨by decide +kernel, by decide +kernel, by simp, by decide +kernel, by decide +kernel⟩
    · decide +kernel
    · decide +kernel

end CloudMeeting.Link
