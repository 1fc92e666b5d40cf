/-
The data of the server: connections, participants, rooms and their tables.

The server is single threaded, so its state is one value passed along.  Connections
and rooms are shared objects in the source; here each has a name (`ConnId`,
`RoomPtr`) and the server maps names to contents.  The room table and a room's
participants are finite maps, as they are `unordered_map`s in the source.

Some fields are not the program's.  A connection remembers the bytes it has received,
the frames accepted into its write queue, the bytes the socket has taken and the calls of
its close handler, and the server keeps a `history` of what it has done.  No function of
the program reads them.  They are what results about whole runs are stated with.
-/
import CloudMeeting.Server.Codec
import Mathlib.Data.List.AList

namespace CloudMeeting.Server

/-- `Connection::Id`, counting from 1. -/
abbrev ConnId := Nat

/-- A `shared_ptr<Room>`. -/
abbrev RoomPtr := Nat

structure ServerConfig where
  maxRooms : Nat := 64
  maxParticipantsPerRoom : Nat := 1024

/-! ### Connections -/

structure Connection where
  closed : Bool := false
  readBuffer : Buffer := Buffer.new initBufferSize
  writeQueue : List Buffer := []
  writeInProgress : Bool := false
  /-- How often `peer_ip_network` has been called. -/
  peerCalls : Nat := 0
  /-- Every byte the read loop has received. -/
  received : Bytes := []
  /-- Every frame accepted into the write queue. -/
  outgoing : List Bytes := []
  /-- Every byte the socket has accepted. -/
  delivered : Bytes := []
  /-- How often the close handler has been called. -/
  closeCalls : Nat := 0

namespace Connection

def isOpen (conn : Connection) : Bool := !conn.closed

/-- Start an asynchronous write of the front buffer, unless one is under way. -/
def doWrite (conn : Connection) : Connection :=
  if conn.writeInProgress ∨ conn.writeQueue = [] ∨ conn.closed then conn
  else { conn with writeInProgress := true }

def send (data : Bytes) (conn : Connection) : Connection :=
  if conn.closed ∨ data.length = 0 then conn
  else
    let buffer := (Buffer.new data.length).write data
    doWrite { conn with writeQueue := conn.writeQueue ++ [buffer]
                        outgoing := conn.outgoing ++ [data] }

/-- The completion handler of a write that the socket accepted `length` bytes of. -/
def writeDone (length : Nat) (conn : Connection) : Connection :=
  let conn := { conn with writeInProgress := false }
  match conn.writeQueue with
  | [] => conn
  | front :: rest =>
      let left := front.moveReadPos length
      let conn := { conn with
        writeQueue := if left.readableSize = 0 then rest else left :: rest
        delivered := conn.delivered ++ front.readable.take length }
      if conn.writeQueue ≠ [] then conn.doWrite else conn

/-- The part of `close` before the close handler is called. -/
def markClosed (conn : Connection) : Connection :=
  { conn with closed := true, closeCalls := conn.closeCalls + 1 }

/-- The part of the read handler before the callback: append what was read. -/
def readSome (data : Bytes) (conn : Connection) : Connection :=
  { conn with readBuffer := conn.readBuffer.write data, received := conn.received ++ data }

end Connection

/-! ### Rooms -/

structure Participant where
  ipNetwork : UInt32 := 0
  isOwner : Bool := false
deriving DecidableEq, Repr

/-- `unordered_map<Connection::Id, Participant>`; the connection is the one of that id. -/
abbrev Participants := AList fun _ : ConnId => Participant

/-- The entries of such a map, in some order. -/
abbrev Entries := List (Sigma fun _ : ConnId => Participant)

structure Room where
  roomId : UInt32 := 0
  closed : Bool := false
  participants : Participants := ∅
  /-- Whether the close callback has been set; it always is `cleanup_room`. -/
  closeCallback : Bool := false

/-! ### History -/

/-- Something the server has done. -/
inductive Record where
  /-- A packet of `c` was handled; `present` are the participants of the room it is in. -/
  | packet (c : ConnId) (packet : Packet) (present : Participants)
  /-- Bytes of `c` were rejected. -/
  | malformed (c : ConnId)
  /-- A request of `c` was answered without seating it. -/
  | answered (c : ConnId) (response : Packet)
  /-- `c` was seated in a room of its own. -/
  | hosted (room : RoomPtr) (c : ConnId) (response : Packet)
  /-- `c`, now at `ip`, was seated with those present. -/
  | joined (room : RoomPtr) (c : ConnId) (response : Packet) (ip : UInt32) (present : Entries)
  /-- `c` left those remaining. -/
  | left (room : RoomPtr) (c : ConnId) (participant : Participant) (remaining : Participants)
  /-- A room was closed. -/
  | dissolved (room : RoomPtr)

/-! ### The server -/

structure State where
  /-- The connections; those not accepted yet count as closed. -/
  conn : ConnId → Connection := fun _ => { closed := true }
  nextConnId : ConnId := 1
  /-- `_rooms`, the room table. -/
  rooms : AList fun _ : UInt32 => RoomPtr := ∅
  nextRoomId : UInt32 := 1
  /-- `_connection_room`, the room a connection is routed to. -/
  connectionRoom : ConnId → Option RoomPtr := fun _ => none
  /-- The room objects, and how many have been made. -/
  room : RoomPtr → Room := fun _ => {}
  nextRoom : RoomPtr := 0
  history : List Record := []

/-- What the server is not in control of. -/
structure Env where
  /-- What the `n`-th call of `peer_ip_network` on a connection returns; 0 on failure. -/
  peerIp : ConnId → Nat → UInt32
  /-- The order in which a participant map is iterated, at a point of the history. -/
  order : Nat → Entries → Entries
  order_perm : ∀ n entries, (order n entries).Perm entries

namespace State

def updateConn (s : State) (c : ConnId) (f : Connection → Connection) : State :=
  { s with conn := Function.update s.conn c (f (s.conn c)) }

def updateRoom (s : State) (p : RoomPtr) (f : Room → Room) : State :=
  { s with room := Function.update s.room p (f (s.room p)) }

def record (s : State) (r : Record) : State := { s with history := s.history ++ [r] }

def isOpen (s : State) (c : ConnId) : Bool := (s.conn c).isOpen

/-- The entries of a room, in the order a loop over them takes. -/
def entries (env : Env) (s : State) (p : RoomPtr) : Entries :=
  env.order s.history.length (s.room p).participants.entries

/-- `RoomManager::get_room`. -/
def getRoom (s : State) (id : UInt32) : Option RoomPtr := s.rooms.lookup id

end State

end CloudMeeting.Server
