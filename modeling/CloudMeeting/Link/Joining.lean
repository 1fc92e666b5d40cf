/-
What a client is told about joining.

The server answers a join request with a number in network order: the room, -1 for a
full one and 0 for any other failure.  The client reads the number of a create response
in network order, but copies the code of a join response as it stands.  0 and -1 are the
same in both orders.  A room number is not: its lowest byte becomes the highest, and
with that the sign, so a client that has joined room 128 sees a negative code and is
told nothing at all (`joinOutcome_iff`, `silentJoin`).
-/
import CloudMeeting.Link.Downlink
import CloudMeeting.Client.Widget

namespace CloudMeeting.Link

open Endian Framing Server Client

/-! ### The frame the server answers with -/

section Answer

variable {cfg : ServerConfig} {env : Env} {s : State} {c : ConnId}

/-- A broadcast does not write to the one it leaves out. -/
theorem conn_broadcast (p : RoomPtr) (packet : Packet) :
    (broadcast env s p packet c).conn c = s.conn c := by
  rw [broadcast]
  generalize s.entries env p = entries
  induction entries generalizing s with
  | nil => rfl
  | cons item entries ih =>
      rw [List.foldl_cons, ih]
      split
      · rfl
      · rename_i hne
        split
        · exact Function.update_of_ne (Ne.symm hne) ..
        · rfl

theorem outgoing_send {conn : Connection} (hopen : conn.closed = false) {data : Bytes}
    (hdata : data ≠ []) : (Connection.send data conn).outgoing = conn.outgoing ++ [data] := by
  have hlen : ¬ data.length = 0 := fun h => hdata (List.length_eq_zero_iff.mp h)
  rw [Connection.send, if_neg (by rw [hopen]; simpa using hlen), Connection.doWrite]
  split <;> rfl

theorem outgoing_send_extends (data : Bytes) (conn : Connection) :
    conn.outgoing <+: (Connection.send data conn).outgoing := by
  rw [Connection.send]
  split
  · exact List.prefix_refl _
  · rw [Connection.doWrite]
    split <;> exact List.prefix_append _ _

variable (env c) in
/-- Telling a newcomer who is there only adds to its queue. -/
theorem outgoing_notifyUserJoined (s : State) (p : RoomPtr) :
    (s.conn c).outgoing <+: ((notifyUserJoined env s p c).conn c).outgoing := by
  rw [notifyUserJoined]
  split
  · exact List.prefix_refl _
  · have hasked : ((peerIpNetwork env s c).2.conn c).outgoing = (s.conn c).outgoing := by
      simp [peerIpNetwork, State.updateConn]
    rw [← hasked]
    simp only []
    rw [sendTo]
    split
    · simp only [State.updateConn, Function.update_self]
      rw [conn_broadcast]
      exact outgoing_send_extends _ _
    · rw [conn_broadcast]

variable (cfg env s c) in
/-- Seating a connection does not write to it. -/
theorem conn_addParticipant (p : RoomPtr) (isOwner : Bool) :
    ((addParticipant cfg env s p c isOwner).2.conn c).outgoing = (s.conn c).outgoing ∧
      ((addParticipant cfg env s p c isOwner).2.conn c).closed = (s.conn c).closed ∧
      (addParticipant cfg env s p c isOwner).2.rooms = s.rooms := by
  unfold addParticipant
  split
  · exact ⟨rfl, rfl, rfl⟩
  · split
    · exact ⟨rfl, rfl, rfl⟩
    · simp [peerIpNetwork, State.updateRoom, State.updateConn]

variable (cfg env s c) in
theorem conn_joinRoom (roomId : UInt32) :
    ((joinRoom cfg env s roomId c).2.conn c).outgoing = (s.conn c).outgoing ∧
      ((joinRoom cfg env s roomId c).2.conn c).closed = (s.conn c).closed ∧
      (joinRoom cfg env s roomId c).2.rooms = s.rooms := by
  unfold joinRoom
  split
  · exact ⟨rfl, rfl, rfl⟩
  · rename_i p _
    split
    · exact ⟨rfl, rfl, rfl⟩
    · split
      · exact ⟨rfl, rfl, rfl⟩
      · have h := conn_addParticipant cfg env s c p false
        split
        · rename_i hadd
          rw [hadd] at h
          exact h
        · rename_i hadd
          rw [hadd] at h
          exact h

variable (cfg env s c) in
/-- A room that has been joined is in the table. -/
theorem getRoom_of_joinRoom (roomId : UInt32) (h : (joinRoom cfg env s roomId c).1 = .ok) :
    ∃ p, s.getRoom roomId = some p := by
  unfold joinRoom at h
  split at h
  · simp at h
  · rename_i p hp
    exact ⟨p, hp⟩

/-- The room a join request is for. -/
def roomIdOf (packet : Packet) : UInt32 := ntohl (load32 packet.payload)

/-- Answering puts one frame into the queue. -/
theorem outgoing_answer (hopen : (s.conn c).closed = false) (r : Record) (packet : Packet) :
    (((s.record r).updateConn c (Connection.send (Codec.encode packet))).conn c).outgoing
      = (s.conn c).outgoing ++ [Codec.encode packet] := by
  simp only [State.updateConn, State.record, Function.update_self]
  exact outgoing_send hopen (encode_ne_nil _)

variable (cfg env) in
/-- **The next frame for whoever asks is the answer.** -/
theorem outgoing_handleJoinMeeting (hopen : s.isOpen c = true) {packet : Packet}
    (hlen : 4 ≤ packet.payload.length) :
    ∃ more, ((handleJoinMeeting cfg env s c packet).conn c).outgoing = (s.conn c).outgoing ++
      Codec.encode (joinMeetingResponse (joinResponseValue (roomIdOf packet)
        (joinRoom cfg env s (roomIdOf packet) c).1)) :: more := by
  obtain ⟨houtgoing, hclosed, hrooms⟩ := conn_joinRoom cfg env s c (roomIdOf packet)
  have hfound := getRoom_of_joinRoom cfg env s c (roomIdOf packet)
  obtain ⟨res, hres⟩ : ∃ res, joinRoom cfg env s (roomIdOf packet) c = res := ⟨_, rfl⟩
  obtain ⟨result, seated⟩ := res
  have hres' : joinRoom cfg env s (ntohl (load32 packet.payload)) c = (result, seated) := hres
  rw [hres] at houtgoing hclosed hrooms hfound ⊢
  have hopen' : (seated.conn c).closed = false := by
    rw [hclosed]
    simpa [State.isOpen, Connection.isOpen] using hopen
  simp only [handleJoinMeeting, if_neg (Nat.not_lt_of_le hlen), hres']
  have hanswer := outgoing_answer hopen' (.answered c (joinMeetingResponse
    (joinResponseValue (roomIdOf packet) result))) (joinMeetingResponse
    (joinResponseValue (roomIdOf packet) result))
  rw [houtgoing] at hanswer
  cases result with
  | notFound => exact ⟨[], hanswer⟩
  | full => exact ⟨[], hanswer⟩
  | closed => exact ⟨[], hanswer⟩
  | ok =>
      obtain ⟨p, hp⟩ := hfound rfl
      have hp' : seated.getRoom (ntohl (load32 packet.payload)) = some p := by
        rw [State.getRoom, hrooms]
        exact hp
      simp only [hp']
      let routed := emplaceRoute seated c p
      let response := joinMeetingResponse (joinResponseValue (roomIdOf packet) .ok)
      have hroute : routed.conn c = seated.conn c := by
        show (emplaceRoute seated c p).conn c = _
        rw [emplaceRoute]
        split <;> rfl
      obtain ⟨more, hmore⟩ := outgoing_notifyUserJoined env c
        ((routed.record (joinedRecord env routed p c response)).updateConn c
          (Connection.send (Codec.encode response))) p
      rw [outgoing_answer (by rw [hroute]; exact hopen'), hroute, houtgoing,
        List.append_assoc] at hmore
      exact ⟨more, hmore.symm⟩

end Answer

/-! ### The branch the client takes -/

variable {Image : Type} {qt : Qt Image}

/-- The branch of a client that gets this frame, if it takes any. -/
def clientBranch (qt : Qt Image) (frame : Bytes) : Option MeetingWidget.JoinBranch :=
  match (MessageCodec.feed qt [] frame).1 with
  | [.joinMeetingResponse c] => MeetingWidget.joinBranch c
  | _ => none

theorem feed_encode {packet : Packet}
    (hsize : (Codec.encode packet).length ≤ MessageCodec.kMaxBuffer)
    {m : Message Image} (hm : decoding qt packet = some m) :
    (MessageCodec.feed qt [] (Codec.encode packet)).1 = [m] := by
  have hshort : ∀ p ∈ [packet], p.payload.length < 2 ^ 32 := by
    intro p hp
    rw [List.mem_singleton.mp hp]
    rw [Codec.length_encode, MessageCodec.kMaxBuffer] at hsize
    omega
  have hdrain := drain_flatten fun p hp => next_encode qt (hshort p hp)
  simp only [List.map_cons, List.map_nil, List.flatten_cons, List.flatten_nil,
    List.append_nil, hm] at hdrain
  rw [MessageCodec.feed_eq (MessageCodec.cutter qt).stuck_nil (by simpa using hsize),
    List.nil_append, hdrain]
  rfl

variable (qt) in
/-- The code is read in the byte order of the host. -/
theorem clientBranch_joinMeetingResponse (value : UInt32) :
    clientBranch qt (Codec.encode (joinMeetingResponse value))
      = MeetingWidget.joinBranch (int32OfUInt32 value) := by
  have hm : decoding qt (joinMeetingResponse value)
      = some (.joinMeetingResponse (int32OfUInt32 value)) := by
    have hlen : 4 ≤ (store32 value).length := by simp
    rw [decoding_eq]
    show some (MessageCodec.decodeJoinMeetingResponse (store32 value)) = _
    rw [MessageCodec.decodeJoinMeetingResponse, if_pos hlen, load32_store32]
  have hsize : (Codec.encode (joinMeetingResponse value)).length ≤ MessageCodec.kMaxBuffer := by
    simp [joinMeetingResponse, Wire.headerSize, MessageCodec.kMaxBuffer]
  rw [clientBranch, feed_encode hsize hm]

theorem joinBranch_joined {code : Int} :
    MeetingWidget.joinBranch code = some .joined ↔ 0 < code := by
  unfold MeetingWidget.joinBranch
  split_ifs <;> simp only [Option.some.injEq, reduceCtorEq, true_iff, false_iff] <;> omega

theorem joinBranch_full {code : Int} :
    MeetingWidget.joinBranch code = some .full ↔ code = -1 := by
  unfold MeetingWidget.joinBranch
  split_ifs <;> simp only [Option.some.injEq, reduceCtorEq, true_iff, false_iff] <;> omega

theorem joinBranch_notExist {code : Int} :
    MeetingWidget.joinBranch code = some .notExist ↔ code = 0 := by
  unfold MeetingWidget.joinBranch
  split_ifs <;> simp only [Option.some.injEq, reduceCtorEq, true_iff, false_iff] <;> omega

/-- The code of a room number, as the client sees it: the lowest byte is its sign. -/
theorem int32OfUInt32_htonl {roomId : UInt32} (hpos : 1 ≤ roomId.toNat)
    (hlt : roomId.toNat < 2 ^ 31) :
    int32OfUInt32 (htonl roomId) ≠ 0 ∧ int32OfUInt32 (htonl roomId) ≠ -1 ∧
      (0 < int32OfUInt32 (htonl roomId) ↔ roomId.toNat % 256 < 128) := by
  have hfits : roomId.toNat < 256 ^ 4 := roomId.toNat_lt
  have hswap := swap_lt 4 roomId.toNat
  have hzero : swap 4 roomId.toNat ≠ 0 := by
    rw [Ne, swap_eq_zero hfits]
    omega
  have hones : swap 4 roomId.toNat ≠ 2 ^ 32 - 1 := by
    intro h
    have hback := swap_swap hfits
    rw [h] at hback
    have hself : swap 4 (2 ^ 32 - 1) = 2 ^ 32 - 1 := by decide
    omega
  have hhalf : swap 4 roomId.toNat < 128 * 256 ^ 3 ↔ roomId.toNat % 256 < 128 := swap_lt_half
  rw [int32OfUInt32, toNat_htonl, ← hhalf]
  split <;> refine ⟨?_, ?_, ?_⟩ <;> omega

/-! ### Agreement -/

variable {cfg : ServerConfig} {env : Env} {s : State} {c : ConnId}

/-- The client takes the branch for what has become of the request. -/
structure Agrees (branch : Option MeetingWidget.JoinBranch) (result : JoinResult) : Prop where
  joined : branch = some .joined ↔ result = .ok
  full : branch = some .full ↔ result = .full
  notExist : branch = some .notExist ↔ result = .notFound ∨ result = .closed

/-- The client that is answered takes the branch for what the room manager has returned. -/
def JoinOutcome (qt : Qt Image) (cfg : ServerConfig) (env : Env) (s : State) (c : ConnId)
    (packet : Packet) : Prop :=
  ∃ frame more, ((handleJoinMeeting cfg env s c packet).conn c).outgoing
      = (s.conn c).outgoing ++ frame :: more ∧
    Agrees (clientBranch qt frame) (joinRoom cfg env s (roomIdOf packet) c).1

/-- There is an open room of that id with a free seat. -/
def Joinable (cfg : ServerConfig) (s : State) (roomId : UInt32) : Prop :=
  ∃ p ∈ s.getRoom roomId, (s.room p).closed = false ∧
    (s.room p).participants.entries.length < cfg.maxParticipantsPerRoom

theorem joinRoom_ok (hopen : s.isOpen c = true) {roomId : UInt32} :
    (joinRoom cfg env s roomId c).1 = .ok ↔ Joinable cfg s roomId := by
  unfold joinRoom Joinable
  cases s.getRoom roomId with
  | none => simp
  | some p =>
      by_cases hclosed : (s.room p).closed = true
      · simp [hclosed]
      · by_cases hfull : (s.room p).participants.entries.length ≥ cfg.maxParticipantsPerRoom
        · have := Nat.not_lt_of_le hfull
          simp [hclosed, hfull]
        · have hlt := Nat.lt_of_not_le hfull
          simp [addParticipant, hclosed, hfull, hopen, hlt]

/-- The agreement of a response is about its value alone. -/
theorem agrees_joinResponseValue {roomId : UInt32} (hpos : 1 ≤ roomId.toNat)
    (hlt : roomId.toNat < 2 ^ 31) (result : JoinResult) :
    Agrees (MeetingWidget.joinBranch (int32OfUInt32 (joinResponseValue roomId result))) result
      ↔ (result = .ok → roomId.toNat % 256 < 128) := by
  obtain ⟨hzero, hones, hsign⟩ := int32OfUInt32_htonl hpos hlt
  cases result with
  | ok =>
      have hbranch : joinResponseValue roomId .ok = htonl roomId := rfl
      rw [hbranch, ← hsign]
      constructor
      · intro h _
        exact joinBranch_joined.mp (h.joined.mpr rfl)
      · intro h
        refine ⟨?_, ?_, ?_⟩
        · exact iff_of_true (joinBranch_joined.mpr (h rfl)) rfl
        · rw [joinBranch_full]
          exact iff_of_false hones (by simp)
        · rw [joinBranch_notExist]
          exact iff_of_false hzero (by simp)
  | full =>
      have hvalue : joinResponseValue roomId .full = 0xFFFFFFFF := by
        rw [joinResponseValue, if_neg (by simp), if_pos rfl]
        decide
      rw [hvalue]
      exact iff_of_true ⟨by decide, by decide, by decide⟩ (by simp)
  | notFound =>
      have hvalue : joinResponseValue roomId .notFound = 0 := by
        rw [joinResponseValue, if_neg (by simp), if_neg (by simp)]
      rw [hvalue]
      exact iff_of_true ⟨by decide, by decide, by decide⟩ (by simp)
  | closed =>
      have hvalue : joinResponseValue roomId .closed = 0 := by
        rw [joinResponseValue, if_neg (by simp), if_neg (by simp)]
      rw [hvalue]
      exact iff_of_true ⟨by decide, by decide, by decide⟩ (by simp)

/-- Whether the client agrees depends on the answer the handler queues. -/
theorem joinOutcome_iff_agrees (hopen : s.isOpen c = true) {packet : Packet}
    (hlen : 4 ≤ packet.payload.length) :
    JoinOutcome qt cfg env s c packet
      ↔ Agrees (MeetingWidget.joinBranch (int32OfUInt32 (joinResponseValue (roomIdOf packet)
          (joinRoom cfg env s (roomIdOf packet) c).1)))
        (joinRoom cfg env s (roomIdOf packet) c).1 := by
  obtain ⟨more, hmore⟩ := outgoing_handleJoinMeeting cfg env hopen hlen
  rw [← clientBranch_joinMeetingResponse qt]
  constructor
  · intro hanswer
    obtain ⟨frame, more', hframe, hagrees⟩ := hanswer
    rw [hmore] at hframe
    have hsame := (List.cons.inj (List.append_cancel_left hframe)).1
    rw [← hsame] at hagrees
    exact hagrees
  · intro hagrees
    exact ⟨_, more, hmore, hagrees⟩

/-- **The client takes the right branch exactly when** the request fails, or the lowest byte of
the room id is below 128. -/
theorem joinOutcome_iff (hopen : s.isOpen c = true) {packet : Packet}
    (hlen : 4 ≤ packet.payload.length) (hpos : 1 ≤ (roomIdOf packet).toNat)
    (hlt : (roomIdOf packet).toNat < 2 ^ 31) :
    JoinOutcome qt cfg env s c packet
      ↔ (Joinable cfg s (roomIdOf packet) → (roomIdOf packet).toNat % 256 < 128) := by
  rw [joinOutcome_iff_agrees hopen hlen, agrees_joinResponseValue hpos hlt, joinRoom_ok hopen]

/-- Joining the first room. -/
theorem joinOutcome_first : JoinOutcome sampleQt {} sampleEnv
    (stateAfter [.accept, .receive 1 (Wire.frame 6 0 []), .accept]) 2
    { type := .joinMeeting, payload := [0, 0, 0, 1] } :=
  (joinOutcome_iff (by decide +kernel) (by decide) (by decide) (by decide)).mpr fun _ => by decide

/-! ### A client that is told nothing -/

/-- 127 meetings are opened and closed again, then one more is opened, and somebody comes. -/
def manyMeetings : List Event :=
  (List.range 127).flatMap (fun i =>
      [.accept, .receive (i + 1) (Wire.frame 6 0 []), .readError (i + 1)])
    ++ [.accept, .receive 128 (Wire.frame 6 0 []), .accept]

/-- Whoever joins room 128 sits in it, but takes no branch. -/
theorem silentJoin : ∃ s, Reachable {} sampleEnv s ∧ s.isOpen 129 = true ∧
    (joinRoom {} sampleEnv s 128 129).1 = .ok ∧
    clientBranch sampleQt (Codec.encode (joinMeetingResponse (joinResponseValue 128 .ok))) = none ∧
    ¬ JoinOutcome sampleQt {} sampleEnv s 129
      { type := .joinMeeting, payload := [0, 0, 0, 128] } := by
  have hrun : (Run.run (step {} sampleEnv) {} manyMeetings).map
      (fun s => (s.isOpen 129, (joinRoom {} sampleEnv s 128 129).1)) = some (true, .ok) := by
    decide +kernel
  obtain ⟨s, hs, hjoin⟩ := Option.map_eq_some_iff.mp hrun
  obtain ⟨hopen, hok⟩ := Prod.mk.inj hjoin
  have hbranch : MeetingWidget.joinBranch (int32OfUInt32 (joinResponseValue 128 .ok)) = none := by
    decide
  refine ⟨s, ⟨manyMeetings, hs⟩, hopen, hok, ?_, ?_⟩
  · rw [clientBranch_joinMeetingResponse]
    exact hbranch
  · have hroom : roomIdOf { type := .joinMeeting, payload := [0, 0, 0, 128] } = 128 := by decide
    rw [joinOutcome_iff_agrees hopen (by decide), hroom, hok]
    intro hagrees
    have hjoined := hagrees.joined.mpr rfl
    rw [hbranch] at hjoined
    simp at hjoined

end CloudMeeting.Link
