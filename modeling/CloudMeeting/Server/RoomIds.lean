/-
The ids rooms are given.

`create_room` hands out a 32-bit counter, which starts at 1 and is never compared with the
ids in use; 0 and 0xFFFFFFFF stand for refusals in the answers to the clients.
`freshId_iff` says when an id handed out is as good as new: it is no question of how many
rooms there are, but of how many have been made.  `wornId` is a run that comes round to 0:
meetings are opened and closed, one after another, by connections that come and go.
-/
import CloudMeeting.Server.Teardown

namespace CloudMeeting.Server

open Endian

variable {cfg : ServerConfig} {env : Env} {s s' : State}

/-- The states in which `create_room` is called for `c`. -/
inductive Creating (cfg : ServerConfig) (env : Env) : State → ConnId → Prop
  | mk {s : State} {before : List Event} {c : ConnId} {data : Bytes} {last packet : Packet}
      {buffer : Buffer} (h : Reading cfg env before c data s) (hopen : s.isOpen c = true)
      (htake : Codec.tryDecode (s.conn c).readBuffer last = (.ok, buffer, packet))
      (hlobby : s.connectionRoom c = none) (htype : packet.type = .createMeeting) :
      Creating cfg env ((s.updateConn c fun conn => { conn with readBuffer := buffer }).record
        (.packet c packet ∅)) c

theorem Creating.inv {c : ConnId} (h : Creating cfg env s c) :
    Inv cfg s.core ∧ s.core.closed c = false := by
  cases h with
  | @mk s before c data last packet buffer h hopen htake hlobby htype =>
      have hinv := h.inv
      obtain ⟨n, hnext, rfl⟩ := next_of_tryDecode (hinv.buffers c) htake
      have htaken := Inv.take env hinv (closed_of_isOpen.mp hopen) hnext
      rw [core_record_lobby]
      refine ⟨htaken.log _, ?_⟩
      rw [Core.log_closed, core_updateReadBuffer]
      exact closed_of_isOpen.mp hopen

/-- The room `create_room` has made has an id of its own, which means no refusal, and leads to
the room and its owner. -/
structure FreshId (s : State) (c : ConnId) (id : UInt32) (s' : State) : Prop where
  unused : id ∉ s.rooms
  notFailure : id ≠ 0
  notFull : id ≠ 0xFFFFFFFF
  found : s'.getRoom id = some s.nextRoom
  owner : ∃ participant, (s'.room s.nextRoom).participants.lookup c = some participant ∧
    participant.isOwner = true

/-- The counter is not at a value it should skip: not at one of the last two of a round, and not
where a room in the table has been given its id, some rounds before. -/
structure Unworn (cfg : ServerConfig) (s : State) : Prop where
  seats : 0 < cfg.maxParticipantsPerRoom
  inside : s.nextRoom % 2 ^ 32 < 2 ^ 32 - 2
  apart : ∀ id p, s.getRoom id = some p → p % 2 ^ 32 ≠ s.nextRoom % 2 ^ 32

theorem ofNat_succ_eq_iff {n m : Nat} :
    UInt32.ofNat (n + 1) = UInt32.ofNat (m + 1) ↔ n % 2 ^ 32 = m % 2 ^ 32 := by
  rw [← UInt32.toNat_inj, UInt32.toNat_ofNat', UInt32.toNat_ofNat']
  omega

/-- The two refusals are the last two ids of a round. -/
theorem ofNat_succ_inside_iff {n : Nat} : n % 2 ^ 32 < 2 ^ 32 - 2 ↔
    UInt32.ofNat (n + 1) ≠ 0 ∧ UInt32.ofNat (n + 1) ≠ 0xFFFFFFFF := by
  have hmax : (0xFFFFFFFF : UInt32).toNat = 2 ^ 32 - 1 := rfl
  rw [ne_eq, ne_eq, ← UInt32.toNat_inj, ← UInt32.toNat_inj, UInt32.toNat_ofNat', UInt32.toNat_zero,
    hmax]
  omega

/-- The next id is in the table if a room in it was made a whole number of rounds ago. -/
theorem nextRoomId_mem_iff (h : Inv cfg s.core) : s.nextRoomId ∈ s.rooms ↔
    ∃ id p, s.getRoom id = some p ∧ p % 2 ^ 32 = s.nextRoom % 2 ^ 32 := by
  have hnext : s.nextRoomId = UInt32.ofNat (s.nextRoom + 1) := h.nextRoomId
  constructor
  · intro hin
    obtain ⟨p, hp⟩ := Option.isSome_iff_exists.mp (AList.lookup_isSome.mpr hin)
    have hid : s.nextRoomId = UInt32.ofNat (p + 1) := (h.listed hp).2.1
    exact ⟨s.nextRoomId, p, hp, ofNat_succ_eq_iff.mp (hid.symm.trans hnext)⟩
  · intro hlisted
    obtain ⟨id, p, hp, hround⟩ := hlisted
    have hid : id = UInt32.ofNat (p + 1) := (h.listed hp).2.1
    have hsame : id = s.nextRoomId := by rw [hid, hnext, ofNat_succ_eq_iff.mpr hround]
    exact hsame ▸ AList.lookup_isSome.mp (Option.isSome_iff_exists.mpr ⟨p, hp⟩)

/-- A room is made only where there is room for one more, and given the next id. -/
theorem createRoom_some {c : ConnId} {id : UInt32}
    (hcreate : createRoom cfg env s c = (some id, s')) (hopen : s.core.closed c = false) :
    s.rooms.entries.length < cfg.maxRooms ∧ id = s.nextRoomId := by
  have hisOpen : s.isOpen c = true := closed_of_isOpen.mpr hopen
  unfold createRoom at hcreate
  rw [if_neg (by simp [hisOpen])] at hcreate
  split at hcreate
  · simp at hcreate
  · rename_i hspare
    rw [Prod.mk.injEq, Option.some.injEq] at hcreate
    exact ⟨Nat.lt_of_not_le hspare, hcreate.1.symm⟩

/-- **When the id of a new room is fresh**: for every call of `create_room` in every run. -/
theorem freshId_iff {c : ConnId} {id : UInt32} (h : Creating cfg env s c)
    (hcreate : createRoom cfg env s c = (some id, s')) :
    FreshId s c id s' ↔ Unworn cfg s := by
  obtain ⟨hinv, hopen⟩ := h.inv
  obtain ⟨hrooms, hid⟩ := createRoom_some hcreate hopen
  have hnext : s.nextRoomId = UInt32.ofNat (s.nextRoom + 1) := hinv.nextRoomId
  obtain ⟨participants, hparticipants, -, -, hnew⟩ := core_createRoom env hopen hrooms
  have hmade : s.nextRoomId ∉ s.rooms → s'.getRoom id = some s.nextRoom ∧
      (s'.room s.nextRoom).participants = participants := by
    intro hout
    have hcore := hnew hout
    rw [hcreate] at hcore
    have hrooms' : s'.rooms = s.rooms.insert s.nextRoomId s.nextRoom := congrArg Core.rooms hcore
    have hroom' : s'.room = _ := congrArg Core.room hcore
    refine ⟨?_, ?_⟩
    · rw [State.getRoom, hrooms', hid, AList.lookup_insert]
    · rw [hroom']
      simp [Core.build, State.core]
  constructor
  · intro hfresh
    have hout : s.nextRoomId ∉ s.rooms := hid ▸ hfresh.unused
    refine ⟨?_, ?_, ?_⟩
    · rcases hparticipants with ⟨-, hempty⟩ | ⟨hseats, -⟩
      · obtain ⟨participant, hlookup, -⟩ := hfresh.owner
        rw [(hmade hout).2, hempty] at hlookup
        simp at hlookup
      · exact hseats
    · have hnot := And.intro hfresh.notFailure hfresh.notFull
      rw [hid, hnext] at hnot
      exact ofNat_succ_inside_iff.mpr hnot
    · intro listed p hp hround
      exact hout ((nextRoomId_mem_iff hinv).mpr ⟨listed, p, hp, hround⟩)
  · intro hgood
    have hout : s.nextRoomId ∉ s.rooms := by
      intro hin
      obtain ⟨listed, p, hp, hround⟩ := (nextRoomId_mem_iff hinv).mp hin
      exact hgood.apart listed p hp hround
    obtain ⟨hzero, hmax⟩ := ofNat_succ_inside_iff.mp hgood.inside
    rw [← hnext, ← hid] at hzero hmax
    refine ⟨hid ▸ hout, hzero, hmax, (hmade hout).1, ?_⟩
    · rw [(hmade hout).2]
      rcases hparticipants with ⟨hnone, -⟩ | ⟨-, n, rfl⟩
      · exact absurd hgood.seats (by omega)
      · refine ⟨⟨env.peerIp c n, true⟩, ?_, rfl⟩
        rw [← AList.insert_empty, AList.lookup_insert]

/-! ### Coming round -/

/-- What a client sends to open a meeting. -/
def createFrame : Bytes := Wire.frame 6 0 []

/-- The state once the next connection has been accepted and its create request read. -/
def greeted (s : State) : State :=
  State.updateConn { s with
    conn := Function.update s.conn s.nextConnId {}
    nextConnId := s.nextConnId + 1 } s.nextConnId (Connection.readSome createFrame)

/-- The state in which that request is handled. -/
def asking (s : State) : State :=
  ((greeted s).updateConn s.nextConnId fun conn =>
    { conn with readBuffer := ((greeted s).conn s.nextConnId).readBuffer.moveReadPos 12 }).record
      (.packet s.nextConnId { type := .createMeeting } ∅)

theorem greeted_conn (s : State) :
    (greeted s).conn s.nextConnId = Connection.readSome createFrame {} := by
  simp [greeted, State.updateConn]

theorem greeted_buffer (s : State) :
    ((greeted s).conn s.nextConnId).readBuffer.WF ∧
      ((greeted s).conn s.nextConnId).readBuffer.readable = createFrame := by
  have hread : ∀ conn : Connection,
      (conn.readSome createFrame).readBuffer = conn.readBuffer.write createFrame := fun _ => rfl
  have hnew : ({} : Connection).readBuffer = Buffer.new initBufferSize := rfl
  obtain ⟨hwf, hreadable⟩ := Buffer.write_spec (Buffer.new_wf initBufferSize) createFrame
  rw [greeted_conn, hread, hnew, hreadable, Buffer.readable_new, List.nil_append]
  exact ⟨hwf, rfl⟩

theorem next_greeted (s : State) :
    Codec.next ((greeted s).conn s.nextConnId).readBuffer.readable
      = .take { type := .createMeeting } 12 := by
  rw [(greeted_buffer s).2]
  have hdata : ([] : Bytes).length < 2 ^ 32 := by decide
  exact Codec.next_frame 6 0 hdata []

theorem tryDecode_greeted (s : State) :
    Codec.tryDecode ((greeted s).conn s.nextConnId).readBuffer {}
      = (.ok, ((greeted s).conn s.nextConnId).readBuffer.moveReadPos 12,
          { type := .createMeeting }) := by
  have hdecode := Codec.tryDecode_spec (greeted_buffer s).1 {}
  rw [next_greeted] at hdecode
  exact hdecode

/-- Accepting the next connection, and reading its create request. -/
theorem run_greeted {es : List Event} (hrun : Run.run (step cfg env) {} es = some s) :
    Run.run (step cfg env) {} (es ++ [.accept, .receive s.nextConnId createFrame])
      = some (onConnectionRead cfg env (greeted s) s.nextConnId) := by
  have hinv := Reachable.inv ⟨es, hrun⟩
  have hborn : 0 < s.nextConnId ∧ s.nextConnId < s.nextConnId + 1 :=
    ⟨hinv.first, Nat.lt_succ_self _⟩
  have hdata : createFrame ≠ [] := by decide
  rw [Run.run_append, hrun, Option.bind_some, Run.run_cons, step, Option.bind_some, Run.run_cons,
    step, if_pos ⟨hborn, hdata⟩, Option.bind_some, Run.run_nil]
  rfl

theorem greeted_reading (h : Reachable cfg env s) :
    ∃ before, Reading cfg env before s.nextConnId createFrame (greeted s) ∧
      (greeted s).isOpen s.nextConnId = true ∧ (greeted s).connectionRoom s.nextConnId = none := by
  obtain ⟨es, hes⟩ := h
  have hinv := Reachable.inv ⟨es, hes⟩
  let accepted : State := { s with
    conn := Function.update s.conn s.nextConnId {}
    nextConnId := s.nextConnId + 1 }
  have hrun : Run.run (step cfg env) {} (es ++ [.accept]) = some accepted := by
    rw [Run.run_append, hes]
    rfl
  have hborn : accepted.Accepted s.nextConnId := ⟨hinv.first, Nat.lt_succ_self _⟩
  refine ⟨es ++ [.accept], .start hrun hborn (by decide), ?_, ?_⟩
  · rw [State.isOpen, greeted_conn]
    rfl
  · cases hroute : s.connectionRoom s.nextConnId with
    | none => exact hroute
    | some p =>
        -- nobody is routed who has not been accepted
        have hlt := (hinv.born (hinv.routed hroute).1).2
        exact absurd hlt (Nat.lt_irrefl _)

theorem asking_creating (h : Reachable cfg env s) : Creating cfg env (asking s) s.nextConnId := by
  obtain ⟨before, hreading, hopen, hlobby⟩ := greeted_reading h
  exact .mk hreading hopen (tryDecode_greeted s) hlobby rfl

/-- Where there is no room yet, the newcomer opens one and is its only member. -/
theorem core_opened (hrooms : 0 < cfg.maxRooms) (h : Reachable cfg env s) (hempty : s.rooms = ∅)
    (hseats : 0 < cfg.maxParticipantsPerRoom) :
    Inv cfg (onConnectionRead cfg env (greeted s) s.nextConnId).core ∧
    ∃ n, (onConnectionRead cfg env (greeted s) s.nextConnId).core
      = ((asking s).core.found s.nextConnId
          (AList.singleton s.nextConnId ⟨env.peerIp s.nextConnId n, true⟩)).log
        (.hosted s.nextRoom s.nextConnId (createMeetingResponse (htonl s.nextRoomId))) := by
  obtain ⟨before, hreading, hisOpen, hlobby⟩ := greeted_reading h
  obtain ⟨hinv, hopen⟩ := (asking_creating h).inv
  have hfew : (asking s).rooms.entries.length < cfg.maxRooms := by
    have hlen : (asking s).rooms.entries.length = 0 := by
      show s.rooms.entries.length = 0
      rw [hempty]
      rfl
    rw [hlen]
    exact hrooms
  have hnew : (asking s).nextRoomId ∉ (asking s).rooms := by
    show s.nextRoomId ∉ s.rooms
    rw [hempty]
    exact AList.notMem_empty _
  rcases core_handleCreateMeeting_new env hopen hlobby hfew hnew with ⟨hnone, -⟩ | ⟨-, n, hcore⟩
  · omega
  let c := s.nextConnId
  let taken := (greeted s).updateConn c fun conn =>
    { conn with readBuffer := ((greeted s).conn c).readBuffer.moveReadPos 12 }
  let made := handleCreateMeeting cfg env (asking s) c
  have hdispatch : dispatch cfg env taken c { type := .createMeeting } = made := by
    have hroute : taken.connectionRoom c = none := hlobby
    have hpresent : presentFor taken c = ∅ := by
      simp only [presentFor, hroute]
    have hlobby' :
        (taken.record (.packet c { type := .createMeeting } ∅)).connectionRoom c = none := hlobby
    simp only [dispatch, hpresent, hlobby', handleLobbyPacket]
    rfl
  obtain ⟨hmoves, -, hbuffer⟩ := take_moves env hreading.inv (closed_of_isOpen.mp hisOpen)
    (next_greeted s)
  rw [hdispatch] at hmoves hbuffer
  have hinvmade : Inv cfg made.core := hreading.inv.moves hmoves
  have hopenmade : made.core.closed c = false := by
    rw [show made.core = _ from hcore]
    exact hopen
  -- nothing is left in the read buffer
  have hread : onConnectionRead cfg env (greeted s) c = made := by
    have hsize : ((greeted s).conn c).readBuffer.readableSize = 11 + 1 := by
      rw [← Buffer.length_readable (greeted_buffer s).1, (greeted_buffer s).2]
      rfl
    have hwait : Codec.next (made.conn c).readBuffer.readable = .wait := by
      rw [hbuffer, Codec.readable_taken (greeted_buffer s).1 (next_greeted s), (greeted_buffer s).2]
      rfl
    rw [onConnectionRead, readLoop_take hreading.inv (closed_of_isOpen.mp hisOpen)
      (next_greeted s), hdispatch, hsize, readLoop_wait hinvmade hopenmade hwait]
  rw [hread]
  exact ⟨hinvmade, n, hcore⟩

variable (cfg env) in
/-- **A meeting opened and closed again costs an id**, and leaves nothing else behind. -/
theorem open_and_close (hrooms : 0 < cfg.maxRooms) (hseats : 0 < cfg.maxParticipantsPerRoom)
    (h : Reachable cfg env s) (hempty : s.rooms = ∅) :
    ∃ s', Reachable cfg env s' ∧ s'.rooms = ∅ ∧ s'.nextRoom = s.nextRoom + 1 ∧
      s'.nextConnId = s.nextConnId + 1 := by
  obtain ⟨hinv, n, hmade⟩ := core_opened hrooms h hempty hseats
  obtain ⟨-, hopen⟩ := (asking_creating h).inv
  generalize hread : onConnectionRead cfg env (greeted s) s.nextConnId = made at hinv hmade
  have hopenmade : made.core.closed s.nextConnId = false := by
    rw [hmade]
    exact hopen
  have hroom : made.room s.nextRoom =
      { roomId := s.nextRoomId
        participants := AList.singleton s.nextConnId ⟨env.peerIp s.nextConnId n, true⟩
        closeCallback := true } := by
    show made.core.room s.nextRoom = _
    rw [hmade]
    exact Function.update_self ..
  have hroute : made.connectionRoom s.nextConnId = some s.nextRoom := by
    show made.core.connectionRoom s.nextConnId = _
    rw [hmade]
    exact Function.update_self ..
  have hseat : (made.room s.nextRoom).participants.lookup s.nextConnId
      = some ⟨env.peerIp s.nextConnId n, true⟩ := by
    rw [hroom, ← AList.insert_empty, AList.lookup_insert]
  have hnext : made.nextConnId = s.nextConnId + 1 := congrArg Core.nextConnId hmade
  have hclose : (close env made s.nextConnId).core
      = (made.core.dissolve s.nextRoom).log (.dissolved s.nextRoom) := by
    rw [close, hnext]
    exact core_closeFuel_dissolved hinv hopenmade hroute hseat rfl
  obtain ⟨es, hes⟩ := h
  have hreach : Reachable cfg env made := ⟨_, (run_greeted hes).trans (congrArg some hread)⟩
  have hborn : made.Accepted s.nextConnId :=
    ⟨hinv.born hopenmade |>.1, hnext ▸ Nat.lt_succ_self _⟩
  refine ⟨close env made s.nextConnId, hreach.next (e := .readError s.nextConnId) (if_pos hborn),
    ?_, ?_, ?_⟩
  · have hrooms' : (close env made s.nextConnId).rooms
        = made.core.rooms.erase (made.room s.nextRoom).roomId := congrArg Core.rooms hclose
    have hroomsmade : made.core.rooms = (asking s).rooms.insert s.nextRoomId s.nextRoom :=
      congrArg Core.rooms hmade
    have hnone : (asking s).rooms = ∅ := hempty
    rw [hrooms', hroomsmade, hnone, hroom, AList.insert_empty]
    exact AList.ext (List.kerase_cons_eq rfl)
  · exact (congrArg Core.nextRoom hclose).trans (congrArg Core.nextRoom hmade)
  · exact (congrArg Core.nextConnId hclose).trans hnext

/-- However many meetings there have been, there may be none left. -/
theorem reachable_after (n : Nat) : ∃ s : State, Reachable {} sampleEnv s ∧ s.rooms = ∅ ∧
    s.nextRoom = n ∧ s.nextConnId = n + 1 := by
  induction n with
  | zero => exact ⟨{}, ⟨[], rfl⟩, rfl, rfl, rfl⟩
  | succ n ih =>
      obtain ⟨s, hs, hempty, hroom, hconn⟩ := ih
      obtain ⟨s', hs', hempty', hroom', hconn'⟩ :=
        open_and_close {} sampleEnv (by decide) (by decide) hs hempty
      exact ⟨s', hs', hempty', by rw [hroom', hroom], by rw [hconn', hconn]⟩

/-- The room a fresh server is asked for first. -/
theorem freshId_iff_first :
    FreshId (asking {}) 1 1 (createRoom {} sampleEnv (asking {}) 1).2 ↔ Unworn {} (asking {}) :=
  freshId_iff (asking_creating (s := {}) ⟨[], rfl⟩) (Prod.ext rfl rfl)

/-- **The id of a room can be the one that means failure**: the connection 2 ^ 32 asks for a
room, after as many others have opened a meeting and closed it. -/
theorem wornId : ∃ s s' : State, Creating {} sampleEnv s (2 ^ 32) ∧ s.nextRoom = 2 ^ 32 - 1 ∧
    createRoom {} sampleEnv s (2 ^ 32) = (some 0, s') ∧ ¬ FreshId s (2 ^ 32) 0 s' := by
  obtain ⟨s, hs, hempty, hroom, hconn⟩ := reachable_after (2 ^ 32 - 1)
  have hasking := asking_creating hs
  have hc : s.nextConnId = 2 ^ 32 := hconn
  obtain ⟨hinv, hopen⟩ := hasking.inv
  have hfew : (asking s).rooms.entries.length < ({} : ServerConfig).maxRooms := by
    show s.rooms.entries.length < _
    rw [hempty]
    decide
  obtain ⟨-, -, hsome, -⟩ := core_createRoom sampleEnv hopen hfew
  have hzero : (asking s).nextRoomId = 0 := by
    have hid : (asking s).nextRoomId = UInt32.ofNat (s.nextRoom + 1) := hinv.nextRoomId
    rw [hid, hroom]
    rfl
  rw [hc] at hasking hsome
  rw [hzero] at hsome
  exact ⟨asking s, _, hasking, hroom, Prod.ext hsome rfl, fun hfresh => hfresh.notFailure rfl⟩

end CloudMeeting.Server
