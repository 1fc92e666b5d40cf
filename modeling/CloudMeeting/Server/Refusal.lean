/-
What a refused request leaves behind.

A request can be refused at three places: the service asks the room manager, which looks at
the table and at the room, and the room looks once more at itself before it seats anybody.
Whoever refuses, nothing has been done by then.  `refusal` names the grounds as the state
shows them; `createRoom_fst` and `joinRoom_fst` say that there are no others for an open
connection, and `untouched` that a request refused on one of them leaves everything but the
queue of the one who asked as it was.
-/
import CloudMeeting.Server.Connections
import CloudMeeting.Server.Guarantees

namespace CloudMeeting.Server

open Endian

/-- Why a request is refused. -/
inductive Refusal where
  | tableFull
  | roomMissing
  | roomClosed
  | roomFull
deriving DecidableEq, Repr

/-- What the join of a room is up against. -/
def joinRefusal (cfg : ServerConfig) (s : State) (roomId : UInt32) : Option Refusal :=
  match s.getRoom roomId with
  | none => some .roomMissing
  | some p =>
      if (s.room p).closed then some .roomClosed
      else if cfg.maxParticipantsPerRoom ≤ (s.room p).participants.entries.length then
        some .roomFull
      else none

/-- What a create or join packet is up against, if it is a complete one. -/
def refusal (cfg : ServerConfig) (s : State) (packet : Packet) : Option Refusal :=
  if packet.type = .createMeeting then
    if cfg.maxRooms ≤ s.rooms.entries.length then some .tableFull else none
  else if packet.type = .joinMeeting ∧ 4 ≤ packet.payload.length then
    joinRefusal cfg s (ntohl (load32 packet.payload))
  else none

/-- The answer to a request that is refused. -/
def Refusal.response : Refusal → Packet
  | .tableFull => createMeetingResponse 0
  | .roomMissing => joinMeetingResponse 0
  | .roomClosed => joinMeetingResponse 0
  | .roomFull => joinMeetingResponse 0xFFFFFFFF

/-! ### Who refuses -/

section Layers

variable (cfg : ServerConfig) (env : Env) {s : State} {c : ConnId}

/-- The result of a join that is refused. -/
def Refusal.result : Refusal → JoinResult
  | .tableFull => .full
  | .roomMissing => .notFound
  | .roomClosed => .closed
  | .roomFull => .full

theorem createRoom_tableFull (h : cfg.maxRooms ≤ s.rooms.entries.length) :
    createRoom cfg env s c = (none, s) := by
  unfold createRoom
  rw [if_pos h]
  exact ite_self _

/-- A full table is the only ground for refusing an open connection a room of its own. -/
theorem createRoom_fst (hopen : s.isOpen c = true) : (createRoom cfg env s c).1
    = if cfg.maxRooms ≤ s.rooms.entries.length then none else some s.nextRoomId := by
  split
  · rename_i hfull
    rw [createRoom_tableFull cfg env hfull]
  · rename_i hroom
    rw [createRoom, if_neg (by simp [hopen]), if_neg hroom]

/-- The room manager refuses before it has touched anything. -/
theorem joinRoom_refused {roomId : UInt32} {why : Refusal}
    (h : joinRefusal cfg s roomId = some why) :
    joinRoom cfg env s roomId c = (why.result, s) := by
  rw [joinRefusal] at h
  rw [joinRoom]
  cases hroom : s.getRoom roomId with
  | none =>
      rw [hroom] at h
      cases h
      rfl
  | some p =>
      rw [hroom] at h
      simp only [] at h ⊢
      by_cases hclosed : (s.room p).closed = true
      · rw [if_pos hclosed] at h
        cases h
        rw [if_pos hclosed]
        rfl
      · rw [if_neg hclosed] at h
        by_cases hfull : cfg.maxParticipantsPerRoom ≤ (s.room p).participants.entries.length
        · rw [if_pos hfull] at h
          cases h
          rw [if_neg hclosed, if_pos hfull]
          rfl
        · rw [if_neg hfull] at h
          cases h

/-- The checks the room makes itself are those the manager has made, for an open connection. -/
theorem joinRoom_granted (hopen : s.isOpen c = true) {roomId : UInt32}
    (h : joinRefusal cfg s roomId = none) : (joinRoom cfg env s roomId c).1 = .ok := by
  rw [joinRefusal] at h
  rw [joinRoom]
  cases hroom : s.getRoom roomId with
  | none =>
      rw [hroom] at h
      cases h
  | some p =>
      rw [hroom] at h
      simp only [] at h ⊢
      by_cases hclosed : (s.room p).closed = true
      · rw [if_pos hclosed] at h
        cases h
      · rw [if_neg hclosed] at h
        by_cases hfull : cfg.maxParticipantsPerRoom ≤ (s.room p).participants.entries.length
        · rw [if_pos hfull] at h
          cases h
        · have hadd : (addParticipant cfg env s p c false).1 = true := by
            rw [addParticipant, if_neg (by simp [hclosed, hopen]), if_neg hfull]
          rw [if_neg hclosed, if_neg hfull]
          cases hseated : addParticipant cfg env s p c false with
          | mk added s' =>
              rw [hseated] at hadd
              cases added with
              | false => cases hadd
              | true => rfl

theorem joinRoom_fst (hopen : s.isOpen c = true) (roomId : UInt32) :
    (joinRoom cfg env s roomId c).1 = (joinRefusal cfg s roomId).elim .ok Refusal.result := by
  cases hwhy : joinRefusal cfg s roomId with
  | none => exact joinRoom_granted cfg env hopen hwhy
  | some why =>
      rw [joinRoom_refused cfg env hwhy]
      rfl

/-- What a refusal is answered with. -/
theorem response_join {roomId : UInt32} {why : Refusal}
    (h : joinRefusal cfg s roomId = some why) :
    joinMeetingResponse (joinResponseValue roomId why.result) = why.response := by
  cases why with
  | tableFull =>
      unfold joinRefusal at h
      split at h
      · exact absurd h (by simp)
      · split_ifs at h
        all_goals exact absurd h (by simp)
  | roomMissing => rfl
  | roomClosed => rfl
  | roomFull => rfl

end Layers

/-! ### What is left alone -/

/-- `s'` is `s` but for what happened to connection `c` and for the history. -/
structure LeavesAlone (s : State) (c : ConnId) (s' : State) : Prop where
  rooms : s'.rooms = s.rooms
  nextRoomId : s'.nextRoomId = s.nextRoomId
  room : s'.room = s.room
  nextRoom : s'.nextRoom = s.nextRoom
  connectionRoom : s'.connectionRoom = s.connectionRoom
  nextConnId : s'.nextConnId = s.nextConnId
  others : ∀ d, d ≠ c → s'.conn d = s.conn d

/-- `c` has been sent one frame, and nothing else has happened to it. -/
structure AnsweredOnce (s : State) (c : ConnId) (frame : Bytes) (s' : State) : Prop where
  isOpen : s'.isOpen c = true
  outgoing : (s'.conn c).outgoing = (s.conn c).outgoing ++ [frame]
  queued : ∃ buffer, (s'.conn c).writeQueue = (s.conn c).writeQueue ++ [buffer] ∧
    buffer.readable = frame
  delivered : (s'.conn c).delivered = (s.conn c).delivered

section Answer

variable {s : State} {c : ConnId}

theorem leavesAlone_answer (s : State) (c : ConnId) (records : List Record)
    (f : Connection → Connection) :
    LeavesAlone s c ({ s with history := records }.updateConn c f) where
  rooms := rfl
  nextRoomId := rfl
  room := rfl
  nextRoom := rfl
  connectionRoom := rfl
  nextConnId := rfl
  others := by
    intro d hd
    exact Function.update_of_ne hd ..

theorem answered_send (hopen : s.isOpen c = true) (records : List Record) {frame : Bytes}
    (hframe : frame.length ≠ 0) :
    AnsweredOnce s c frame
      ({ s with history := records }.updateConn c (Connection.send frame)) := by
  have hclosed : (s.conn c).closed = false := by
    simpa [State.isOpen, Connection.isOpen] using hopen
  have hsent : ({ s with history := records }.updateConn c (Connection.send frame)).conn c
      = ((s.conn c).enqueue frame).doWrite := by
    show Function.update s.conn c _ c = _
    rw [Function.update_self, Connection.send_eq, if_neg (by simp [hclosed, hframe])]
  refine ⟨?_, ?_, ?_, ?_⟩
  · rw [State.isOpen, hsent, Connection.doWrite]
    split <;> exact hopen
  · rw [hsent, Connection.doWrite]
    split <;> rfl
  · refine ⟨(Buffer.new frame.length).write frame, ?_, ?_⟩
    · rw [hsent, Connection.doWrite]
      split <;> rfl
    · rw [(Buffer.write_spec (Buffer.new_wf frame.length) frame).2, Buffer.readable_new,
        List.nil_append]
  · rw [hsent, Connection.doWrite]
    split <;> rfl

end Answer

/-! ### A refused request -/

/-- The service hands a refusal on as it is. -/
theorem dispatch_refused (cfg : ServerConfig) (env : Env) {s : State} {c : ConnId}
    {packet : Packet} {why : Refusal} (hlobby : s.connectionRoom c = none)
    (h : refusal cfg s packet = some why) :
    ∃ records, dispatch cfg env s c packet = { s with history := records }.updateConn c
      (Connection.send (Codec.encode why.response)) := by
  have hhandled : dispatch cfg env s c packet
      = handleLobbyPacket cfg env (s.record (.packet c packet (presentFor s c))) c packet := by
    have hlobby' : (s.record (.packet c packet (presentFor s c))).connectionRoom c = none := hlobby
    simp only [dispatch, hlobby']
  rw [hhandled, handleLobbyPacket]
  unfold refusal at h
  split at h
  · rename_i hcreate
    split at h
    · rename_i hfull
      simp only [Option.some.injEq] at h
      have hresult := createRoom_tableFull cfg env (c := c)
        (s := s.record (.packet c packet (presentFor s c))) hfull
      rw [if_pos hcreate, ← h, handleCreateMeeting, hresult]
      exact ⟨_, rfl⟩
    · exact absurd h (by simp)
  · rename_i hcreate
    split at h
    · rename_i hjoin
      have hresult := joinRoom_refused cfg env (c := c)
        (s := s.record (.packet c packet (presentFor s c))) h
      rw [if_neg hcreate, if_pos hjoin.1, ← response_join cfg h]
      simp only [handleJoinMeeting, if_neg (Nat.not_lt_of_le hjoin.2), hresult]
      cases why with
      | tableFull => exact ⟨_, rfl⟩
      | roomMissing => exact ⟨_, rfl⟩
      | roomClosed => exact ⟨_, rfl⟩
      | roomFull => exact ⟨_, rfl⟩
    · exact absurd h (by simp)

/-- **A refused request leaves the server as it was**, in any state, and gets one answer. -/
theorem untouched (cfg : ServerConfig) (env : Env) {s : State} {c : ConnId} {packet : Packet}
    {why : Refusal} (hopen : s.isOpen c = true) (hlobby : s.connectionRoom c = none)
    (h : refusal cfg s packet = some why) :
    LeavesAlone s c (dispatch cfg env s c packet) ∧
      AnsweredOnce s c (Codec.encode why.response) (dispatch cfg env s c packet) := by
  obtain ⟨records, hdispatch⟩ := dispatch_refused cfg env hlobby h
  rw [hdispatch]
  have hframe : (Codec.encode why.response).length ≠ 0 := by
    rw [Codec.length_encode, Wire.headerSize]
    omega
  exact ⟨leavesAlone_answer s c records _, answered_send hopen records hframe⟩

/-- Someone who came late asks for a room that nobody has opened. -/
theorem untouched_sampleMeeting :
    LeavesAlone (stateAfter (sampleMeeting ++ [.accept])) 4
        (dispatch {} sampleEnv (stateAfter (sampleMeeting ++ [.accept])) 4
          { type := .joinMeeting, payload := [0, 0, 0, 7] }) ∧
      AnsweredOnce (stateAfter (sampleMeeting ++ [.accept])) 4
        (Codec.encode Refusal.roomMissing.response)
        (dispatch {} sampleEnv (stateAfter (sampleMeeting ++ [.accept])) 4
          { type := .joinMeeting, payload := [0, 0, 0, 7] }) :=
  untouched {} sampleEnv (by decide +kernel) (by decide +kernel) (by decide +kernel)

end CloudMeeting.Server
