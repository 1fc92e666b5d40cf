/-
What becomes of one connection, whatever the server does.

Rooms and the service touch a connection only through its own few operations: bytes are
appended to its read buffer or taken off it, a frame is sent, a write completes, its
address is asked for, it is closed.  `Op` lists them, and `step_touched` says that an
event puts every connection through some of them and does nothing else to it; a
connection accepted starts fresh.  So a property of single connections need only be
checked against the operations, and `Reachable.each` carries it to every state.
-/
import CloudMeeting.Server.Receiving

namespace CloudMeeting.Server

variable {cfg : ServerConfig} {env : Env} {s : State}

namespace Connection

/-- The part of `send` before `do_write`. -/
def enqueue (data : Bytes) (conn : Connection) : Connection :=
  { conn with writeQueue := conn.writeQueue ++ [(Buffer.new data.length).write data]
              outgoing := conn.outgoing ++ [data] }

/-- The part of a write's completion before `do_write`. -/
def taken (length : Nat) (conn : Connection) : Connection :=
  match conn.writeQueue with
  | [] => { conn with writeInProgress := false }
  | front :: rest =>
      let left := front.moveReadPos length
      { conn with
        writeInProgress := false
        writeQueue := if left.readableSize = 0 then rest else left :: rest
        delivered := conn.delivered ++ front.readable.take length }

theorem send_eq (data : Bytes) (conn : Connection) : conn.send data
    = if conn.closed ∨ data.length = 0 then conn else (conn.enqueue data).doWrite := rfl

theorem writeDone_eq (length : Nat) (conn : Connection) : conn.writeDone length
    = if (conn.taken length).writeQueue ≠ [] then (conn.taken length).doWrite
      else conn.taken length := by
  unfold writeDone taken
  cases conn.writeQueue with
  | nil => rfl
  | cons front rest => rfl

end Connection

/-- One operation on a connection. -/
inductive Connection.Op (conn : Connection) : Connection → Prop
  | send (data : Bytes) : Op conn (conn.send data)
  | writeDone (length : Nat) (hbusy : conn.writeInProgress = true)
      (hlength : ∃ front ∈ conn.writeQueue.head?, length ≤ front.readableSize) :
      Op conn (conn.writeDone length)
  | readSome (data : Bytes) : Op conn (conn.readSome data)
  | consume (buffer : Buffer) : Op conn { conn with readBuffer := buffer }
  | ask : Op conn { conn with peerCalls := conn.peerCalls + 1 }
  | markClosed (hopen : conn.closed = false) : Op conn conn.markClosed

/-- Every connection of `s'` comes from that of `s` by operations. -/
def Touched (s s' : State) : Prop :=
  ∀ c, Relation.ReflTransGen Connection.Op (s.conn c) (s'.conn c)

namespace Touched

theorem refl (s : State) : Touched s s := fun _ => .refl

theorem trans {s s' s'' : State} (h : Touched s s') (h' : Touched s' s'') : Touched s s'' :=
  fun c => (h c).trans (h' c)

/-- A change to anything but connections. -/
theorem of_conn {s s' : State} (h : s'.conn = s.conn) : Touched s s' := fun c => by rw [h]

/-- A change to anything but connections, before something else. -/
theorem after {s mid s' : State} (h : Touched mid s') (hconn : mid.conn = s.conn) :
    Touched s s' :=
  (of_conn hconn).trans h

theorem updateConn {c : ConnId} {f : Connection → Connection} (h : (s.conn c).Op (f (s.conn c))) :
    Touched s (s.updateConn c f) := by
  intro d
  simp only [State.updateConn, Function.update_apply]
  split
  · rename_i hd
    rw [hd]
    exact .single h
  · exact .refl

theorem send (s : State) (c : ConnId) (data : Bytes) :
    Touched s (s.updateConn c (Connection.send data)) :=
  updateConn (.send data)

theorem consume (s : State) (c : ConnId) (buffer : Buffer) :
    Touched s (s.updateConn c fun conn => { conn with readBuffer := buffer }) :=
  updateConn (.consume buffer)

theorem foldl {α : Type} {f : State → α → State} (h : ∀ s a, Touched s (f s a)) (l : List α)
    (s : State) : Touched s (l.foldl f s) := by
  induction l generalizing s with
  | nil => exact .refl s
  | cons a l ih => exact (h s a).trans (ih (f s a))

end Touched

/-! ### Rooms -/

variable (env) in
theorem broadcast_touched (s : State) (p : RoomPtr) (packet : Packet) (exclude : ConnId) :
    Touched s (broadcast env s p packet exclude) := by
  refine .foldl (fun s item => ?_) _ s
  split
  · exact .refl s
  split
  · exact .send s item.1 _
  · exact .refl s

theorem sendTo_touched (s : State) (target : ConnId) (packet : Packet) :
    Touched s (sendTo s target packet) := by
  unfold sendTo
  split
  · exact .send s target _
  · exact .refl s

variable (env) in
theorem peerIpNetwork_touched (s : State) (c : ConnId) :
    Touched s (peerIpNetwork env s c).2 := by
  have hask : Touched s (s.updateConn c fun conn =>
    { conn with peerCalls := conn.peerCalls + 1 }) := .updateConn .ask
  exact hask

variable (cfg env) in
theorem addParticipant_touched (s : State) (p : RoomPtr) (c : ConnId) (isOwner : Bool) :
    Touched s (addParticipant cfg env s p c isOwner).2 := by
  unfold addParticipant
  split
  · exact .refl s
  split
  · exact .refl s
  · exact (peerIpNetwork_touched env s c).trans (.of_conn rfl)

variable (env) in
theorem handlePacket_touched (s : State) (p : RoomPtr) (sender : ConnId) (packet : Packet) :
    Touched s (handlePacket env s p sender packet) := by
  unfold handlePacket
  split
  · exact .refl s
  split
  · exact .refl s
  split
  · exact broadcast_touched env s p _ sender
  · exact .refl s

variable (env) in
theorem notifyUserJoined_touched (s : State) (p : RoomPtr) (newcomer : ConnId) :
    Touched s (notifyUserJoined env s p newcomer) := by
  unfold notifyUserJoined
  split
  · exact .refl s
  · refine Touched.trans ?_ (sendTo_touched _ newcomer _)
    exact (peerIpNetwork_touched env s newcomer).trans (broadcast_touched env _ p _ newcomer)

/-! ### Closing -/

section Close

variable {close : State → ConnId → State} (hclose : ∀ s c, Touched s (close s c))

include hclose

theorem closeRoom_touched (s : State) (p : RoomPtr) : Touched s (closeRoom env close s p) := by
  unfold closeRoom
  split
  · exact .refl s
  have hall : Touched s ((s.entries env p).foldl
      (fun s item => if s.isOpen item.1 then close s item.1 else s)
      ((s.record (.dissolved p)).updateRoom p fun room =>
        { room with closed := true, participants := ∅ })) := by
    refine Touched.after (.foldl (fun s item => ?_) _ _) rfl
    split
    · exact hclose s item.1
    · exact .refl s
  simp only []
  split
  · exact hall.trans (.of_conn rfl)
  · exact hall

theorem removeParticipant_touched (s : State) (p : RoomPtr) (c : ConnId) :
    Touched s (removeParticipant env close s p c) := by
  unfold removeParticipant
  split
  · exact .refl s
  split
  · exact .refl s
  simp only []
  split
  · exact (closeRoom_touched hclose _ p).after rfl
  · exact (broadcast_touched env _ p _ 0).after rfl

theorem onConnectionClose_touched (s : State) (c : ConnId) :
    Touched s (onConnectionClose env close s c) := by
  unfold onConnectionClose
  split
  · exact .refl s
  · exact (removeParticipant_touched hclose _ _ c).after rfl

end Close

variable (env) in
theorem closeFuel_touched (fuel : Nat) (s : State) (c : ConnId) :
    Touched s (closeFuel env fuel s c) := by
  induction fuel generalizing s c with
  | zero => exact .refl s
  | succ fuel ih =>
      rw [closeFuel]
      split
      · exact .refl s
      · rename_i hopen
        have hmark : Touched s (s.updateConn c Connection.markClosed) :=
          .updateConn (.markClosed (Bool.eq_false_iff.mpr hopen))
        exact hmark.trans (onConnectionClose_touched ih _ c)

variable (env) in
theorem close_touched (s : State) (c : ConnId) : Touched s (close env s c) :=
  closeFuel_touched env _ s c

/-! ### The service -/

variable (cfg env) in
theorem createRoom_touched (s : State) (owner : ConnId) :
    Touched s (createRoom cfg env s owner).2 := by
  unfold createRoom
  split
  · exact .refl s
  split
  · exact .refl s
  · refine Touched.trans ?_ (.of_conn (by simp only []; split <;> rfl))
    exact (addParticipant_touched cfg env _ _ owner true).after rfl

variable (cfg env) in
theorem joinRoom_touched (s : State) (roomId : UInt32) (c : ConnId) :
    Touched s (joinRoom cfg env s roomId c).2 := by
  unfold joinRoom
  split
  · exact .refl s
  split
  · exact .refl s
  split
  · exact .refl s
  rename_i p _ _ _
  have hadd := addParticipant_touched cfg env s p c false
  split <;> rename_i heq <;> rw [heq] at hadd <;> exact hadd

theorem emplaceRoute_conn (s : State) (c : ConnId) (p : RoomPtr) :
    (emplaceRoute s c p).conn = s.conn := by
  unfold emplaceRoute
  split <;> rfl

variable (cfg env) in
/-- What is left to do once the room has been made, or not. -/
theorem handleCreateMeeting_after (s : State) (c : ConnId) :
    Touched (createRoom cfg env s c).2 (handleCreateMeeting cfg env s c) := by
  unfold handleCreateMeeting
  split
  · rename_i heq
    rw [heq]
    split
    · apply (Touched.send _ c _).after
      exact emplaceRoute_conn (State.updateRoom _ _ _) c _
    · exact .refl _
  · rename_i heq
    rw [heq]
    exact (Touched.send _ c _).after rfl

variable (cfg env) in
theorem handleCreateMeeting_touched (s : State) (c : ConnId) :
    Touched s (handleCreateMeeting cfg env s c) :=
  (createRoom_touched cfg env s c).trans (handleCreateMeeting_after cfg env s c)

variable (cfg env) in
/-- What is left to do once the room has been asked for a seat. -/
theorem handleJoinMeeting_after (s : State) (c : ConnId) (packet : Packet)
    (hlen : ¬ packet.payload.length < 4) :
    Touched (joinRoom cfg env s (Endian.ntohl (Endian.load32 packet.payload)) c).2
      (handleJoinMeeting cfg env s c packet) := by
  unfold handleJoinMeeting
  rw [if_neg hlen]
  simp only []
  split
  · rename_i heq
    rw [heq]
    split
    · refine ((Touched.send _ c _).after ?_).trans (notifyUserJoined_touched env _ _ c)
      exact emplaceRoute_conn _ c _
    · exact .refl _
  · rename_i heq
    rw [heq]
    exact (Touched.send _ c _).after rfl

variable (cfg env) in
theorem handleJoinMeeting_touched (s : State) (c : ConnId) (packet : Packet) :
    Touched s (handleJoinMeeting cfg env s c packet) := by
  by_cases hlen : packet.payload.length < 4
  · unfold handleJoinMeeting
    rw [if_pos hlen]
    exact close_touched env s c
  · exact (joinRoom_touched cfg env s _ c).trans (handleJoinMeeting_after cfg env s c packet hlen)

variable (cfg env) in
theorem dispatch_touched (s : State) (c : ConnId) (packet : Packet) :
    Touched s (dispatch cfg env s c packet) := by
  have hrecord : Touched s (s.record (.packet c packet (presentFor s c))) := .of_conn rfl
  apply hrecord.trans
  unfold dispatch handleLobbyPacket
  simp only []
  split
  · exact handlePacket_touched env _ _ c packet
  split
  · exact handleCreateMeeting_touched cfg env _ c
  split
  · exact handleJoinMeeting_touched cfg env _ c packet
  · exact close_touched env _ c

variable (cfg env) in
theorem readLoop_touched (fuel : Nat) (s : State) (c : ConnId) (packet : Packet) :
    Touched s (readLoop cfg env fuel s c packet) := by
  induction fuel generalizing s packet with
  | zero => exact .refl s
  | succ fuel ih =>
      rw [readLoop]
      split
      · exact .refl s
      split
      · exact .refl s
      · exact (close_touched env _ c).after rfl
      · exact (Touched.consume s c _).trans ((dispatch_touched cfg env _ c _).trans (ih _ _))

/-! ### Events -/

/-- **An event puts each connection through operations**, or accepts it. -/
theorem step_touched {s' : State} {e : Event} (hstep : step cfg env s e = some s') :
    Touched s s' ∨ (e = .accept ∧ s'.conn = Function.update s.conn s.nextConnId {}) := by
  cases e with
  | accept =>
      simp only [step, Option.some.injEq] at hstep
      subst hstep
      exact Or.inr ⟨rfl, rfl⟩
  | receive c data =>
      simp only [step, Option.ite_none_right_eq_some, Option.some.injEq] at hstep
      obtain ⟨-, rfl⟩ := hstep
      have hread : Touched s (s.updateConn c (Connection.readSome data)) :=
        .updateConn (.readSome data)
      exact Or.inl (hread.trans (readLoop_touched cfg env _ _ c {}))
  | readError c =>
      simp only [step, Option.ite_none_right_eq_some, Option.some.injEq] at hstep
      obtain ⟨-, rfl⟩ := hstep
      exact Or.inl (close_touched env s c)
  | writeDone c length =>
      simp only [step, Option.ite_none_right_eq_some, Option.some.injEq] at hstep
      obtain ⟨⟨hbusy, hlength⟩, rfl⟩ := hstep
      exact Or.inl (.updateConn (.writeDone length hbusy hlength))
  | writeError c =>
      simp only [step, Option.ite_none_right_eq_some, Option.some.injEq] at hstep
      obtain ⟨-, rfl⟩ := hstep
      exact Or.inl (close_touched env s c)

/-- What the operations preserve, they preserve all together. -/
theorem Touched.each {P : Connection → Prop} (hop : ∀ conn conn', conn.Op conn' → P conn → P conn')
    {s s' : State} (h : Touched s s') (hs : ∀ c, P (s.conn c)) (c : ConnId) : P (s'.conn c) := by
  have hall : ∀ {conn conn' : Connection}, Relation.ReflTransGen Connection.Op conn conn' →
      P conn → P conn' := by
    intro conn conn' hops hP
    induction hops with
    | refl => exact hP
    | tail _ hlast ih => exact hop _ _ hlast ih
  exact hall (h c) (hs c)

/-- **A property of single connections that the operations preserve holds in every state.** -/
theorem Reachable.each {P : Connection → Prop} (hborn : P {}) (hunborn : P { closed := true })
    (hop : ∀ conn conn', conn.Op conn' → P conn → P conn') (h : Reachable cfg env s)
    (c : ConnId) : P (s.conn c) := by
  refine Run.Reachable.invariant h (I := fun s => ∀ c, P (s.conn c)) (fun _ => hunborn) ?_ c
  intro s e s' hs hstep
  rcases step_touched hstep with htouched | ⟨-, hconn⟩
  · exact htouched.each hop hs
  · intro d
    rw [hconn, Function.update_apply]
    split
    · exact hborn
    · exact hs d

theorem Reading.each {P : Connection → Prop} (hborn : P {}) (hunborn : P { closed := true })
    (hop : ∀ conn conn', conn.Op conn' → P conn → P conn') {before : List Event} {c : ConnId}
    {data : Bytes} (h : Reading cfg env before c data s) (d : ConnId) : P (s.conn d) := by
  induction h generalizing d with
  | start hrun _ _ =>
      have hs := Reachable.each hborn hunborn hop ⟨before, hrun⟩
      exact Touched.each hop (.updateConn (.readSome data)) hs d
  | @next s last p buffer h hopen htake ih =>
      have htaken := (Touched.consume s c buffer).each hop ih
      exact Touched.each hop (dispatch_touched cfg env _ c _) htaken d

end CloudMeeting.Server
