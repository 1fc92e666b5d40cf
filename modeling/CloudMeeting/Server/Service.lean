/-
The server's handlers.

`Room`, `RoomManager` and `MeetingService`, as the source writes them.  Closing a
connection calls back into the service, which may close a room, which closes more
connections: the recursion of the source is the first argument of `close`, the depth
of nesting still allowed.  The functions in between take the `close` they call.

The lines that append to the history record what happens and change nothing else.
-/
import CloudMeeting.Server.State
import CloudMeeting.Lib.Run

namespace CloudMeeting.Server

open Endian

/-! ### `Room` -/

section Room

variable (cfg : ServerConfig) (env : Env)

/-- `Connection::peer_ip_network`. -/
def peerIpNetwork (s : State) (c : ConnId) : UInt32 × State :=
  (env.peerIp c (s.conn c).peerCalls,
    s.updateConn c fun conn => { conn with peerCalls := conn.peerCalls + 1 })

def addParticipant (s : State) (p : RoomPtr) (c : ConnId) (isOwner : Bool) : Bool × State :=
  if (s.room p).closed ∨ ¬ s.isOpen c then (false, s)
  else if (s.room p).participants.entries.length ≥ cfg.maxParticipantsPerRoom then (false, s)
  else
    let (ipNetwork, s) := peerIpNetwork env s c
    -- `emplace` leaves an entry that is already there
    (true, s.updateRoom p fun room =>
      if c ∈ room.participants then room
      else { room with participants := room.participants.insert c ⟨ipNetwork, isOwner⟩ })

/-- Send a packet to every participant but one; no connection has the id 0. -/
def broadcast (s : State) (p : RoomPtr) (packet : Packet) (exclude : ConnId := 0) : State :=
  let encoded := Codec.encode packet
  (s.entries env p).foldl
    (fun s item =>
      if item.1 = exclude then s
      else if s.isOpen item.1 then s.updateConn item.1 (Connection.send encoded)
      else s) s

def sendTo (s : State) (target : ConnId) (packet : Packet) : State :=
  if s.isOpen target then s.updateConn target (Connection.send (Codec.encode packet)) else s

/-- What a packet of a participant recorded at `senderIp` is relayed as, if it is. -/
def outbound (senderIp : UInt32) (packet : Packet) : Option Packet :=
  if packet.type = .imgSend ∨ packet.type = .audioSend ∨ packet.type = .textSend then
    let type :=
      if packet.type = .imgSend then MessageType.imgRecv
      else if packet.type = .audioSend then .audioRecv
      else .textRecv
    some { packet with type := type, ip := senderIp }
  else if packet.type = .closeCamera then some { type := .closeCamera, ip := senderIp }
  else none

def handlePacket (s : State) (p : RoomPtr) (sender : ConnId) (packet : Packet) : State :=
  if (s.room p).closed then s
  else
    match (s.room p).participants.lookup sender with
    | none => s
    | some participant =>
        match outbound participant.ipNetwork packet with
        | some outbound => broadcast env s p outbound sender
        | none => s

/-- The list of a room's recorded addresses, as the newcomer gets it. -/
def partnerList (entries : Entries) : Packet :=
  { type := .partnerJoin2, payload := entries.flatMap fun item => store32 (htonl item.2.ipNetwork) }

def notifyUserJoined (s : State) (p : RoomPtr) (newcomer : ConnId) : State :=
  if (s.room p).closed then s
  else
    let (newcomerIp, s) := peerIpNetwork env s newcomer
    let s := broadcast env s p { type := .partnerJoin, ip := newcomerIp } newcomer
    sendTo s newcomer (partnerList ((s.entries env p).filter fun item => item.1 ≠ newcomer))

/-- `MeetingService::cleanup_room`. -/
def cleanupRoom (s : State) (id : UInt32) : State :=
  { s with
    connectionRoom := fun c =>
      match s.connectionRoom c with
      | some p => if (s.room p).roomId = id then none else some p
      | none => none
    rooms := s.rooms.erase id }

def closeRoom (close : State → ConnId → State) (s : State) (p : RoomPtr) : State :=
  if (s.room p).closed then s
  else
    let participants := s.entries env p
    let s := s.record (.dissolved p)
    let s := s.updateRoom p fun room => { room with closed := true, participants := ∅ }
    let s := participants.foldl (fun s item => if s.isOpen item.1 then close s item.1 else s) s
    if (s.room p).closeCallback then cleanupRoom s (s.room p).roomId else s

def removeParticipant (close : State → ConnId → State) (s : State) (p : RoomPtr)
    (c : ConnId) : State :=
  if (s.room p).closed then s
  else
    match (s.room p).participants.lookup c with
    | none => s
    | some participant =>
        let s := s.updateRoom p fun room =>
          { room with participants := room.participants.erase c }
        if participant.isOwner then closeRoom env close s p
        else
          let s := s.record (.left p c participant (s.room p).participants)
          broadcast env s p { type := .partnerExit, ip := participant.ipNetwork }

end Room

/-! ### Closing connections -/

section Close

variable (env : Env)

/-- `MeetingService::on_connection_close`. -/
def onConnectionClose (close : State → ConnId → State) (s : State) (c : ConnId) : State :=
  match s.connectionRoom c with
  | none => s
  | some p =>
      let s := { s with connectionRoom := Function.update s.connectionRoom c none }
      removeParticipant env close s p c

/-- `Connection::close`, with calls nested at most `fuel` deep. -/
def closeFuel : Nat → State → ConnId → State
  | 0, s, _ => s
  | fuel + 1, s, c =>
      if (s.conn c).closed then s
      else
        let s := s.updateConn c Connection.markClosed
        onConnectionClose env (closeFuel fuel) s c

/-- `Connection::close`; each nested call closes one connection more. -/
def close (s : State) (c : ConnId) : State := closeFuel env (s.nextConnId + 1) s c

end Close

/-! ### `RoomManager` -/

inductive JoinResult where
  | ok
  | notFound
  | full
  | closed
deriving DecidableEq, Repr

section Manager

variable (cfg : ServerConfig) (env : Env)

def createRoom (s : State) (owner : ConnId) : Option UInt32 × State :=
  if ¬ s.isOpen owner then (none, s)
  else if s.rooms.entries.length ≥ cfg.maxRooms then (none, s)
  else
    let roomId := s.nextRoomId
    let p := s.nextRoom
    let s := { s with nextRoomId := s.nextRoomId + 1, nextRoom := s.nextRoom + 1 }
    let s := s.updateRoom p fun _ => { roomId := roomId }
    let s := (addParticipant cfg env s p owner true).2
    -- `emplace` leaves an entry that is already there
    (some roomId, if roomId ∈ s.rooms then s else { s with rooms := s.rooms.insert roomId p })

def joinRoom (s : State) (roomId : UInt32) (c : ConnId) : JoinResult × State :=
  match s.getRoom roomId with
  | none => (.notFound, s)
  | some p =>
      if (s.room p).closed then (.closed, s)
      else if (s.room p).participants.entries.length ≥ cfg.maxParticipantsPerRoom then (.full, s)
      else
        match addParticipant cfg env s p c false with
        | (false, s) => (.full, s)
        | (true, s) => (.ok, s)

end Manager

/-! ### `MeetingService` -/

section Service

variable (cfg : ServerConfig) (env : Env)

/-- `_connection_room.emplace`, which leaves an entry that is already there. -/
def emplaceRoute (s : State) (c : ConnId) (p : RoomPtr) : State :=
  if (s.connectionRoom c).isSome then s
  else { s with connectionRoom := Function.update s.connectionRoom c (some p) }

/-- The answer to a create request; `roomNo` is in network order, 0 for a failure. -/
def createMeetingResponse (roomNo : UInt32) : Packet :=
  { type := .createMeetingResponse, payload := store32 roomNo }

/-- The answer to a join request; `value` is in network order. -/
def joinMeetingResponse (value : UInt32) : Packet :=
  { type := .joinMeetingResponse, payload := store32 value }

/-- What a join request is answered with: the room, -1 for a full one, 0 for any other. -/
def joinResponseValue (roomId : UInt32) (result : JoinResult) : UInt32 :=
  if result = .ok then htonl roomId else if result = .full then htonl 0xFFFFFFFF else 0

def handleCreateMeeting (s : State) (c : ConnId) : State :=
  match createRoom cfg env s c with
  | (some roomId, s) =>
      match s.getRoom roomId with
      | some p =>
          let s := s.updateRoom p fun room => { room with closeCallback := true }
          let s := emplaceRoute s c p
          let response := createMeetingResponse (htonl roomId)
          let s := s.record
            (if c ∈ (s.room p).participants then .hosted p c response else .answered c response)
          s.updateConn c (Connection.send (Codec.encode response))
      | none => s
  | (none, s) =>
      let response := createMeetingResponse 0
      let s := s.record (.answered c response)
      s.updateConn c (Connection.send (Codec.encode response))

def handleJoinMeeting (s : State) (c : ConnId) (packet : Packet) : State :=
  if packet.payload.length < 4 then close env s c
  else
    let roomId := ntohl (load32 packet.payload)
    match joinRoom cfg env s roomId c with
    | (.ok, s) =>
        match s.getRoom roomId with
        | some p =>
            let s := emplaceRoute s c p
            let response := joinMeetingResponse (joinResponseValue roomId .ok)
            let s := s.record (.joined p c response (env.peerIp c (s.conn c).peerCalls)
              ((env.order (s.history.length + 1) (s.room p).participants.entries).filter
                fun item => item.1 ≠ c))
            let s := s.updateConn c (Connection.send (Codec.encode response))
            notifyUserJoined env s p c
        | none => s
    | (result, s) =>
        let response := joinMeetingResponse (joinResponseValue roomId result)
        let s := s.record (.answered c response)
        s.updateConn c (Connection.send (Codec.encode response))

def handleLobbyPacket (s : State) (c : ConnId) (packet : Packet) : State :=
  if packet.type = .createMeeting then handleCreateMeeting cfg env s c
  else if packet.type = .joinMeeting then handleJoinMeeting cfg env s c packet
  else close env s c

/-- The participants a packet of `c` finds in its room. -/
def presentFor (s : State) (c : ConnId) : Participants :=
  match s.connectionRoom c with
  | some p => (s.room p).participants
  | none => ∅

/-- Hand one packet to the room the connection is in, or to the lobby. -/
def dispatch (s : State) (c : ConnId) (packet : Packet) : State :=
  let s := s.record (.packet c packet (presentFor s c))
  match s.connectionRoom c with
  | some p => handlePacket env s p c packet
  | none => handleLobbyPacket cfg env s c packet

/-- The loop of `on_connection_read`, for at most `fuel` packets. -/
def readLoop : Nat → State → ConnId → Packet → State
  | 0, s, _, _ => s
  | fuel + 1, s, c, packet =>
      if ¬ s.isOpen c then s
      else
        match Codec.tryDecode (s.conn c).readBuffer packet with
        | (.needMore, _, _) => s
        | (.invalid, _, _) => close env (s.record (.malformed c)) c
        | (.ok, buffer, packet) =>
            let s := s.updateConn c fun conn => { conn with readBuffer := buffer }
            readLoop fuel (dispatch cfg env s c packet) c packet

/-- `MeetingService::on_connection_read`; every packet takes bytes off the buffer. -/
def onConnectionRead (s : State) (c : ConnId) : State :=
  readLoop cfg env ((s.conn c).readBuffer.readableSize + 1) s c {}

/-! ### Events -/

inductive Event where
  /-- A connection is accepted. -/
  | accept
  /-- A read completes with these bytes. -/
  | receive (c : ConnId) (data : Bytes)
  /-- A read fails: the peer has closed, or the network is gone. -/
  | readError (c : ConnId)
  /-- A write completes, having taken `length` bytes. -/
  | writeDone (c : ConnId) (length : Nat)
  | writeError (c : ConnId)

/-- A connection that has been accepted. -/
def State.Accepted (s : State) (c : ConnId) : Prop := 0 < c ∧ c < s.nextConnId

instance (s : State) (c : ConnId) : Decidable (s.Accepted c) :=
  inferInstanceAs (Decidable (_ ∧ _))

def step (s : State) : Event → Option State
  | .accept =>
      some { s with
        conn := Function.update s.conn s.nextConnId {}
        nextConnId := s.nextConnId + 1 }
  | .receive c data =>
      if s.Accepted c ∧ data ≠ [] then
        some (onConnectionRead cfg env (s.updateConn c (Connection.readSome data)) c)
      else none
  | .readError c => if s.Accepted c then some (close env s c) else none
  | .writeDone c length =>
      if (s.conn c).writeInProgress ∧
          ∃ front ∈ (s.conn c).writeQueue.head?, length ≤ front.readableSize then
        some (s.updateConn c (Connection.writeDone length))
      else none
  | .writeError c => if (s.conn c).writeInProgress then some (close env s c) else none

/-- The states of a run of the server. -/
def Reachable (s : State) : Prop := Run.Reachable (step cfg env) {} s

end Service

end CloudMeeting.Server
