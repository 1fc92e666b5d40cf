/-
What the server can do, one move at a time.

A handler of the server is a handful of moves: a connection is accepted, bytes arrive,
a packet is taken off a read buffer and relayed, a request is answered, a room is
founded, a member joins, leaves or is shut out, a room is dissolved.  Each move is
one constructor of `Act` or `Move`, with everything the code has checked by then as
its hypotheses and the state afterwards written out.

Moves are about the `core` of a state: all of it except what a connection keeps for
writing.  Every record put into the history queues the frames that `Record.sends`
lists, and nothing else does (`Core.log`).

Later files never look at the handlers again.  One shows that the handlers make only
these moves; the others show what the moves preserve.
-/
import CloudMeeting.Server.Service
import Mathlib.Logic.Relation

namespace CloudMeeting.Server

/-- The state without what connections keep for writing. -/
@[ext] structure Core where
  closed : ConnId → Bool
  readBuffer : ConnId → Buffer
  received : ConnId → Bytes
  outgoing : ConnId → List Bytes
  nextConnId : ConnId
  rooms : AList fun _ : UInt32 => RoomPtr
  nextRoomId : UInt32
  connectionRoom : ConnId → Option RoomPtr
  room : RoomPtr → Room
  nextRoom : RoomPtr
  history : List Record

def State.core (s : State) : Core where
  closed c := (s.conn c).closed
  readBuffer c := (s.conn c).readBuffer
  received c := (s.conn c).received
  outgoing c := (s.conn c).outgoing
  nextConnId := s.nextConnId
  rooms := s.rooms
  nextRoomId := s.nextRoomId
  connectionRoom := s.connectionRoom
  room := s.room
  nextRoom := s.nextRoom
  history := s.history

/-- The packets queued for `d` when the record is made. -/
def Record.sends (d : ConnId) : Record → List Packet
  | .packet c sent present =>
      match present.lookup c with
      | some sender =>
          if d ≠ c ∧ d ∈ present then (outbound sender.ipNetwork sent).toList else []
      | none => []
  | .malformed _ => []
  | .answered c response => if c = d then [response] else []
  | .hosted _ c response => if c = d then [response] else []
  | .joined _ c response ip present =>
      if c = d then [response, partnerList present]
      else if d ∈ present.map (·.1) then [{ type := .partnerJoin, ip := ip }]
      else []
  | .left _ _ participant remaining =>
      if d ∈ remaining then [{ type := .partnerExit, ip := participant.ipNetwork }] else []
  | .dissolved _ => []

namespace Core

/-- The room is in the table under its id. -/
def InTable (k : Core) (p : RoomPtr) : Prop := k.rooms.lookup (k.room p).roomId = some p

instance (k : Core) (p : RoomPtr) : Decidable (k.InTable p) :=
  inferInstanceAs (Decidable (_ = _))

/-- Make a record, and queue what it says. -/
def log (k : Core) (r : Record) : Core :=
  { k with
    history := k.history ++ [r]
    outgoing := fun d => k.outgoing d ++ (r.sends d).map Codec.encode }

/-- The participants a packet of `c` finds in its room. -/
def presentFor (k : Core) (c : ConnId) : Participants :=
  match k.connectionRoom c with
  | some p => (k.room p).participants
  | none => ∅

/-- Make a room object, which uses up an id. -/
def build (k : Core) (room : Room) : Core :=
  { k with
    nextRoomId := k.nextRoomId + 1
    nextRoom := k.nextRoom + 1
    room := Function.update k.room k.nextRoom room }

def route (k : Core) (c : ConnId) (p : RoomPtr) : Core :=
  { k with connectionRoom := Function.update k.connectionRoom c (some p) }

/-- Put the room made last into the table, with its close callback, and route `c` to it. -/
def found (k : Core) (c : ConnId) (participants : Participants) : Core :=
  { k.build { roomId := k.nextRoomId, participants := participants, closeCallback := true } with
    rooms := k.rooms.insert k.nextRoomId k.nextRoom
    connectionRoom := Function.update k.connectionRoom c (some k.nextRoom) }

def setParticipants (k : Core) (p : RoomPtr) (participants : Participants) : Core :=
  { k with room := Function.update k.room p { k.room p with participants := participants } }

/-- Close a connection and forget where it is routed to. -/
def shut (k : Core) (c : ConnId) : Core :=
  { k with
    closed := Function.update k.closed c true
    connectionRoom := Function.update k.connectionRoom c none }

/-- Close a room with everybody in it, and clean up after it. -/
def dissolve (k : Core) (p : RoomPtr) : Core :=
  { k with
    closed := fun d => k.closed d || decide (d ∈ (k.room p).participants)
    connectionRoom := fun d => if k.connectionRoom d = some p then none else k.connectionRoom d
    room := Function.update k.room p { k.room p with closed := true, participants := ∅ }
    rooms := k.rooms.erase (k.room p).roomId }

end Core

/-! ### Moves -/

section

variable (cfg : ServerConfig) (env : Env)

/-- What a handler can do on behalf of a connection that is open. -/
inductive Act (k : Core) : Core → Prop
  | malformed (c : ConnId) (hopen : k.closed c = false)
      (hnext : Codec.next (k.readBuffer c).readable = .reject) :
      Act k (k.log (.malformed c))
  | answered (c : ConnId) (response : Packet) (hopen : k.closed c = false)
      (hlobby : k.connectionRoom c = none)
      (htype : response.type = .createMeetingResponse ∨ response.type = .joinMeetingResponse)
      (hlen : response.payload.length = 4) :
      Act k (k.log (.answered c response))
  /-- A room that nobody may sit in. -/
  | vacant (c : ConnId) (hopen : k.closed c = false) (hlobby : k.connectionRoom c = none)
      (hrooms : k.rooms.entries.length < cfg.maxRooms) (hnew : k.nextRoomId ∉ k.rooms)
      (hnone : cfg.maxParticipantsPerRoom = 0) (response : Packet)
      (hresponse : response = createMeetingResponse (Endian.htonl k.nextRoomId)) :
      Act k ((k.found c ∅).log (.answered c response))
  /-- The id counter has come round to a room that is still in the table. -/
  | collided (c : ConnId) (p : RoomPtr) (participants : Participants)
      (hopen : k.closed c = false) (hlobby : k.connectionRoom c = none)
      (hrooms : k.rooms.entries.length < cfg.maxRooms) (hold : k.rooms.lookup k.nextRoomId = some p)
      (response : Packet)
      (hresponse : response = createMeetingResponse (Endian.htonl k.nextRoomId)) :
      Act k (((k.build { roomId := k.nextRoomId, participants := participants }).route c p).log
        (.answered c response))
  | hosted (c : ConnId) (n : Nat) (hopen : k.closed c = false)
      (hlobby : k.connectionRoom c = none) (hrooms : k.rooms.entries.length < cfg.maxRooms)
      (hnew : k.nextRoomId ∉ k.rooms) (hsome : 0 < cfg.maxParticipantsPerRoom)
      (response : Packet)
      (hresponse : response = createMeetingResponse (Endian.htonl k.nextRoomId)) :
      Act k ((k.found c (AList.singleton c ⟨env.peerIp c n, true⟩)).log
        (.hosted k.nextRoom c response))
  | joined (c : ConnId) (p : RoomPtr) (n m : Nat) (present : Entries)
      (hopen : k.closed c = false) (hlobby : k.connectionRoom c = none) (htable : k.InTable p)
      (hspace : (k.room p).participants.entries.length < cfg.maxParticipantsPerRoom)
      (hpresent : present.Perm (k.room p).participants.entries) (response : Packet)
      (hresponse : response = joinMeetingResponse (joinResponseValue (k.room p).roomId .ok)) :
      Act k (((k.setParticipants p
          ((k.room p).participants.insert c ⟨env.peerIp c n, false⟩)).route c p).log
        (.joined p c response (env.peerIp c m) present))
  /-- A connection closes that sits in no room. -/
  | alone (c : ConnId) (hopen : k.closed c = false)
      (hout : ∀ p, k.connectionRoom c = some p → c ∉ (k.room p).participants) :
      Act k (k.shut c)
  | left (c : ConnId) (p : RoomPtr) (participant : Participant) (hopen : k.closed c = false)
      (hroute : k.connectionRoom c = some p)
      (hseat : (k.room p).participants.lookup c = some participant)
      (howner : participant.isOwner = false) :
      Act k (((k.shut c).setParticipants p ((k.room p).participants.erase c)).log
        (.left p c participant ((k.room p).participants.erase c)))
  | dissolved (c : ConnId) (p : RoomPtr) (participant : Participant)
      (hopen : k.closed c = false) (hroute : k.connectionRoom c = some p)
      (hseat : (k.room p).participants.lookup c = some participant)
      (howner : participant.isOwner = true) :
      Act k ((k.dissolve p).log (.dissolved p))

/-- One move of the server. -/
inductive Move (k : Core) : Core → Prop
  | accept :
      Move k { k with
        closed := Function.update k.closed k.nextConnId false
        readBuffer := Function.update k.readBuffer k.nextConnId (Buffer.new initBufferSize)
        received := Function.update k.received k.nextConnId []
        outgoing := Function.update k.outgoing k.nextConnId []
        nextConnId := k.nextConnId + 1 }
  | receive (c : ConnId) (data : Bytes) (hborn : 0 < c ∧ c < k.nextConnId) :
      Move k { k with
        readBuffer := Function.update k.readBuffer c ((k.readBuffer c).write data)
        received := Function.update k.received c (k.received c ++ data) }
  /-- A packet is taken off the read buffer, and relayed if the sender sits in a room. -/
  | packet (c : ConnId) (packet : Packet) (n : Nat) (hopen : k.closed c = false)
      (hnext : Codec.next (k.readBuffer c).readable = .take packet n) :
      Move k (({ k with
        readBuffer := Function.update k.readBuffer c ((k.readBuffer c).moveReadPos n) } : Core).log
          (.packet c packet (k.presentFor c)))
  | act {k' : Core} (h : Act cfg env k k') : Move k k'

/-- The moves handlers make once a packet has been taken. -/
abbrev Acts := Relation.ReflTransGen (Act cfg env)

abbrev Moves := Relation.ReflTransGen (Move cfg env)

end

variable {cfg : ServerConfig} {env : Env}

theorem Acts.moves {k k' : Core} (h : Acts cfg env k k') : Moves cfg env k k' :=
  h.lift id fun _ _ ha => .act ha

/-! ### What an act leaves alone -/

section Log

variable (k : Core) (r : Record)

@[simp] theorem Core.log_closed : (k.log r).closed = k.closed := rfl
@[simp] theorem Core.log_readBuffer : (k.log r).readBuffer = k.readBuffer := rfl
@[simp] theorem Core.log_received : (k.log r).received = k.received := rfl
@[simp] theorem Core.log_nextConnId : (k.log r).nextConnId = k.nextConnId := rfl
@[simp] theorem Core.log_rooms : (k.log r).rooms = k.rooms := rfl
@[simp] theorem Core.log_nextRoomId : (k.log r).nextRoomId = k.nextRoomId := rfl
@[simp] theorem Core.log_connectionRoom : (k.log r).connectionRoom = k.connectionRoom := rfl
@[simp] theorem Core.log_room : (k.log r).room = k.room := rfl
@[simp] theorem Core.log_nextRoom : (k.log r).nextRoom = k.nextRoom := rfl
@[simp] theorem Core.log_history : (k.log r).history = k.history ++ [r] := rfl

end Log

section History

variable (k : Core)

@[simp] theorem Core.build_history (room : Room) : (k.build room).history = k.history := rfl
@[simp] theorem Core.route_history (c : ConnId) (p : RoomPtr) :
    (k.route c p).history = k.history := rfl
@[simp] theorem Core.found_history (c : ConnId) (participants : Participants) :
    (k.found c participants).history = k.history := rfl
@[simp] theorem Core.setParticipants_history (p : RoomPtr) (participants : Participants) :
    (k.setParticipants p participants).history = k.history := rfl
@[simp] theorem Core.shut_history (c : ConnId) : (k.shut c).history = k.history := rfl
@[simp] theorem Core.dissolve_history (p : RoomPtr) : (k.dissolve p).history = k.history := rfl

end History

/-- Acts read no bytes, handle no packets and reopen nothing. -/
structure Core.Beside (k k' : Core) : Prop where
  readBuffer : k'.readBuffer = k.readBuffer
  received : k'.received = k.received
  nextConnId : k'.nextConnId = k.nextConnId
  nextRoom : k.nextRoom ≤ k'.nextRoom
  closed : ∀ {c}, k.closed c = true → k'.closed c = true
  history : ∃ more, k'.history = k.history ++ more ∧
    ∀ c packet present, .packet c packet present ∉ more

theorem Core.Beside.refl (k : Core) : k.Beside k :=
  ⟨rfl, rfl, rfl, Nat.le_refl _, id, [], by simp, by simp⟩

theorem Core.Beside.trans {k k' k'' : Core} (h : k.Beside k') (h' : k'.Beside k'') :
    k.Beside k'' := by
  obtain ⟨more, hmore, hno⟩ := h.history
  obtain ⟨more', hmore', hno'⟩ := h'.history
  refine ⟨h'.readBuffer.trans h.readBuffer, h'.received.trans h.received,
    h'.nextConnId.trans h.nextConnId, Nat.le_trans h.nextRoom h'.nextRoom,
    fun hc => h'.closed (h.closed hc), more ++ more', ?_, ?_⟩
  · rw [hmore', hmore, List.append_assoc]
  · intro c packet present hin
    rcases List.mem_append.mp hin with hin | hin
    · exact hno _ _ _ hin
    · exact hno' _ _ _ hin

theorem Act.beside {k k' : Core} (h : Act cfg env k k') : k.Beside k' := by
  cases h with
  | malformed c _ _ => exact ⟨rfl, rfl, rfl, Nat.le_refl _, id, [.malformed c], rfl, by simp⟩
  | answered c response => exact ⟨rfl, rfl, rfl, Nat.le_refl _, id, [_], rfl, by simp⟩
  | vacant c => exact ⟨rfl, rfl, rfl, Nat.le_succ _, id, [_], rfl, by simp⟩
  | collided c p participants => exact ⟨rfl, rfl, rfl, Nat.le_succ _, id, [_], rfl, by simp⟩
  | hosted c n => exact ⟨rfl, rfl, rfl, Nat.le_succ _, id, [_], rfl, by simp⟩
  | joined c p n m present => exact ⟨rfl, rfl, rfl, Nat.le_refl _, id, [_], rfl, by simp⟩
  | alone c =>
      refine ⟨rfl, rfl, rfl, Nat.le_refl _, ?_, [], by simp [Core.shut], by simp⟩
      intro d hd
      simp only [Core.shut, Function.update_apply]
      split
      · rfl
      · exact hd
  | left c p participant =>
      refine ⟨rfl, rfl, rfl, Nat.le_refl _, ?_, [_], rfl, by simp⟩
      intro d hd
      simp only [Core.log_closed, Core.setParticipants, Core.shut, Function.update_apply]
      split
      · rfl
      · exact hd
  | dissolved c p participant =>
      refine ⟨rfl, rfl, rfl, Nat.le_refl _, ?_, [_], rfl, by simp⟩
      intro d hd
      simp only [Core.log_closed, Core.dissolve, hd, Bool.true_or]

theorem Acts.beside {k k' : Core} (h : Acts cfg env k k') : k.Beside k' := by
  induction h with
  | refl => exact .refl _
  | tail _ ha ih => exact ih.trans ha.beside

end CloudMeeting.Server
