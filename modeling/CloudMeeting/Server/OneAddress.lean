/-
One address for each participant.

A join asks for the newcomer's address twice: `add_participant` stores the first answer, and
`notify_user_joined` puts the second one into the notice.  Everything sent about the
participant later carries the stored one.  So whether the frames about a participant agree
depends on nothing but whether these two answers do.

A handler sees no answers but those it asks for, so an event in which they agree goes as
if every connection had a fixed address (`step_answering`), and then what is on record keeps
to one address for each connection (`Named`).
-/
import CloudMeeting.Server.Connections

namespace CloudMeeting.Server

open Conference Endian

variable {cfg : ServerConfig} {env : Env} {s s' : State}

/-! ### The answers asked for -/

/-- The same world with other answers to `peer_ip_network`. -/
def Env.answering (env : Env) (answer : ConnId → Nat → UInt32) : Env :=
  { env with peerIp := answer }

/-- The answers given between the two states are those of `answer`. -/
def Answered (env : Env) (answer : ConnId → Nat → UInt32) (s s' : State) : Prop :=
  ∀ c n, (s.conn c).peerCalls ≤ n → n < (s'.conn c).peerCalls → answer c n = env.peerIp c n

theorem Connection.Op.peerCalls_le {conn conn' : Connection} (h : conn.Op conn') :
    conn.peerCalls ≤ conn'.peerCalls := by
  have hwrite : ∀ conn : Connection, conn.doWrite.peerCalls = conn.peerCalls := by
    intro conn
    unfold Connection.doWrite
    split <;> rfl
  cases h with
  | send data => rw [send_peerCalls]
  | writeDone length _ _ =>
      have htaken : (conn.taken length).peerCalls = conn.peerCalls := by
        unfold Connection.taken
        split <;> rfl
      rw [Connection.writeDone_eq]
      split
      · rw [hwrite, htaken]
      · rw [htaken]
  | readSome data => exact Nat.le_refl _
  | consume buffer => exact Nat.le_refl _
  | ask => exact Nat.le_succ _
  | markClosed _ => exact Nat.le_refl _

/-- Calls are never uncounted. -/
theorem Touched.peerCalls_le (h : Touched s s') (c : ConnId) :
    (s.conn c).peerCalls ≤ (s'.conn c).peerCalls := by
  have hall : ∀ {conn conn' : Connection}, Relation.ReflTransGen Connection.Op conn conn' →
      conn.peerCalls ≤ conn'.peerCalls := by
    intro conn conn' hops
    induction hops with
    | refl => exact Nat.le_refl _
    | tail _ hlast ih => exact Nat.le_trans ih hlast.peerCalls_le
  exact hall (h c)

namespace Answered

variable {answer : ConnId → Nat → UInt32} {mid : State}

theorem first (h : Answered env answer s s') (hrest : Touched mid s') : Answered env answer s mid :=
  fun c n hle hlt => h c n hle (Nat.lt_of_lt_of_le hlt (hrest.peerCalls_le c))

theorem rest (h : Answered env answer s s') (hfirst : Touched s mid) : Answered env answer mid s' :=
  fun c n hle hlt => h c n (Nat.le_trans (hfirst.peerCalls_le c) hle) hlt

end Answered

section Congruence

variable {answer : ConnId → Nat → UInt32}

theorem close_answering (s : State) (c : ConnId) :
    close (env.answering answer) s c = close env s c := by
  have hfuel : ∀ fuel, closeFuel (env.answering answer) fuel = closeFuel env fuel := by
    intro fuel
    induction fuel with
    | zero => rfl
    | succ fuel ih =>
        funext s c
        rw [closeFuel, closeFuel, ih]
        rfl
  rw [close, close, hfuel]

theorem peerIpNetwork_answering {c : ConnId}
    (h : Answered env answer s (peerIpNetwork env s c).2) :
    peerIpNetwork (env.answering answer) s c = peerIpNetwork env s c := by
  have hasked : answer c (s.conn c).peerCalls = env.peerIp c (s.conn c).peerCalls := by
    apply h c _ (Nat.le_refl _)
    simp [peerIpNetwork, State.updateConn]
  simp only [peerIpNetwork, Env.answering, hasked]

theorem addParticipant_answering {p : RoomPtr} {c : ConnId} {isOwner : Bool}
    (h : Answered env answer s (addParticipant cfg env s p c isOwner).2) :
    addParticipant cfg (env.answering answer) s p c isOwner
      = addParticipant cfg env s p c isOwner := by
  unfold addParticipant at h ⊢
  split
  · rfl
  split
  · rfl
  rename_i hlive hspace
  rw [if_neg hlive, if_neg hspace] at h
  rw [peerIpNetwork_answering (h.first (.of_conn rfl))]

theorem createRoom_answering {owner : ConnId}
    (h : Answered env answer s (createRoom cfg env s owner).2) :
    createRoom cfg (env.answering answer) s owner = createRoom cfg env s owner := by
  unfold createRoom at h ⊢
  split
  · rfl
  split
  · rfl
  rename_i hopen hrooms
  rw [if_neg hopen, if_neg hrooms] at h
  simp only [] at h ⊢
  rw [addParticipant_answering]
  refine Answered.first h (.of_conn ?_)
  split <;> rfl

theorem joinRoom_answering {roomId : UInt32} {c : ConnId}
    (h : Answered env answer s (joinRoom cfg env s roomId c).2) :
    joinRoom cfg (env.answering answer) s roomId c = joinRoom cfg env s roomId c := by
  unfold joinRoom at h ⊢
  split
  · rfl
  rename_i p hget
  rw [hget] at h
  simp only [] at h
  split
  · rfl
  split
  · rfl
  rename_i hlive hspace
  rw [if_neg hlive, if_neg hspace] at h
  rw [addParticipant_answering]
  cases hadd : addParticipant cfg env s p c false with
  | mk ok seated =>
      rw [hadd] at h
      cases ok with
      | false => exact h
      | true => exact h

variable (cfg env) in
/-- Taking a seat closes no room and leaves the table alone. -/
theorem addParticipant_keeps (s : State) (p : RoomPtr) (c : ConnId) (isOwner : Bool) :
    (addParticipant cfg env s p c isOwner).2.rooms = s.rooms ∧
      ∀ q, ((addParticipant cfg env s p c isOwner).2.room q).closed = (s.room q).closed := by
  unfold addParticipant
  split
  · exact ⟨rfl, fun _ => rfl⟩
  split
  · exact ⟨rfl, fun _ => rfl⟩
  · refine ⟨rfl, fun q => ?_⟩
    have hroom : ∀ (room : Room) (participants : Participants), (if c ∈ room.participants then room
        else { room with participants := participants }).closed = room.closed := by
      intro room participants
      split <;> rfl
    by_cases hq : q = p
    · subst hq
      simp only [peerIpNetwork, State.updateRoom, Function.update_self]
      exact hroom (s.room q) _
    · simp only [peerIpNetwork, State.updateRoom, Function.update_of_ne hq]
      rfl

variable (cfg env) in
theorem joinRoom_keeps (s : State) (roomId : UInt32) (c : ConnId) :
    (joinRoom cfg env s roomId c).2.rooms = s.rooms ∧
      ∀ q, ((joinRoom cfg env s roomId c).2.room q).closed = (s.room q).closed := by
  unfold joinRoom
  split
  · exact ⟨rfl, fun _ => rfl⟩
  rename_i p _
  split
  · exact ⟨rfl, fun _ => rfl⟩
  split
  · exact ⟨rfl, fun _ => rfl⟩
  have hadd := addParticipant_keeps cfg env s p c false
  split <;> rename_i heq <;> rw [heq] at hadd <;> exact hadd

variable (cfg env) in
/-- A newcomer is seated in a room that is not closed. -/
theorem joinRoom_live {roomId : UInt32} {c : ConnId} {p : RoomPtr}
    (hok : (joinRoom cfg env s roomId c).1 = .ok)
    (hget : (joinRoom cfg env s roomId c).2.getRoom roomId = some p) :
    ((joinRoom cfg env s roomId c).2.room p).closed = false := by
  obtain ⟨hrooms, hclosed⟩ := joinRoom_keeps cfg env s roomId c
  have hlookup : s.getRoom roomId = some p := by
    rw [State.getRoom, ← hrooms]
    exact hget
  rw [hclosed]
  unfold joinRoom at hok
  simp only [hlookup] at hok
  cases hlive : (s.room p).closed with
  | false => rfl
  | true => simp [hlive] at hok

theorem notifyUserJoined_answering {p : RoomPtr} {c : ConnId}
    (h : Answered env answer s (notifyUserJoined env s p c)) :
    notifyUserJoined (env.answering answer) s p c = notifyUserJoined env s p c := by
  unfold notifyUserJoined at h ⊢
  split
  · rfl
  rename_i hlive
  rw [if_neg hlive] at h
  rw [peerIpNetwork_answering]
  · rfl
  · exact h.first ((broadcast_touched env _ p _ c).trans (sendTo_touched _ c _))

variable (env) in
/-- The notice asks for the newcomer's address. -/
theorem notifyUserJoined_asks {p : RoomPtr} {c : ConnId} (hlive : (s.room p).closed = false) :
    (s.conn c).peerCalls < ((notifyUserJoined env s p c).conn c).peerCalls := by
  have hrest : Touched (peerIpNetwork env s c).2 (notifyUserJoined env s p c) := by
    unfold notifyUserJoined
    rw [if_neg (by simp [hlive])]
    exact (broadcast_touched env _ p _ c).trans (sendTo_touched _ c _)
  have hle := hrest.peerCalls_le c
  have hasked : ((peerIpNetwork env s c).2.conn c).peerCalls = (s.conn c).peerCalls + 1 := by
    simp [peerIpNetwork, State.updateConn]
  omega

/-- The record of a newcomer, the answer to it and the notices that follow. -/
theorem admission_answering {c : ConnId} {p : RoomPtr} {response : Packet} {data : Bytes}
    (hlive : (s.room p).closed = false)
    (h : Answered env answer s (notifyUserJoined env
      ((s.record (joinedRecord env s p c response)).updateConn c (Connection.send data)) p c)) :
    notifyUserJoined (env.answering answer)
        ((s.record (joinedRecord (env.answering answer) s p c response)).updateConn c
          (Connection.send data)) p c
      = notifyUserJoined env
        ((s.record (joinedRecord env s p c response)).updateConn c (Connection.send data)) p c := by
  have hsend : Touched s
      ((s.record (joinedRecord env s p c response)).updateConn c (Connection.send data)) :=
    (Touched.send (s.record _) c data).after rfl
  have hasked : answer c (s.conn c).peerCalls = env.peerIp c (s.conn c).peerCalls := by
    refine h c _ (Nat.le_refl _) (Nat.lt_of_le_of_lt (hsend.peerCalls_le c) ?_)
    exact notifyUserJoined_asks env hlive
  have hrecord : joinedRecord (env.answering answer) s p c response
      = joinedRecord env s p c response := by
    simp only [joinedRecord, Env.answering, hasked]
  rw [hrecord]
  exact notifyUserJoined_answering (h.rest hsend)

theorem handleCreateMeeting_answering {c : ConnId}
    (h : Answered env answer s (handleCreateMeeting cfg env s c)) :
    handleCreateMeeting cfg (env.answering answer) s c = handleCreateMeeting cfg env s c := by
  have hcreate := createRoom_answering (h.first (handleCreateMeeting_after cfg env s c))
  unfold handleCreateMeeting
  rw [hcreate]

theorem handleJoinMeeting_answering {c : ConnId} {packet : Packet}
    (h : Answered env answer s (handleJoinMeeting cfg env s c packet)) :
    handleJoinMeeting cfg (env.answering answer) s c packet
      = handleJoinMeeting cfg env s c packet := by
  by_cases hlen : packet.payload.length < 4
  · unfold handleJoinMeeting
    rw [if_pos hlen, if_pos hlen, close_answering]
  have hjoin := joinRoom_answering (h.first (handleJoinMeeting_after cfg env s c packet hlen))
  have hlater := h.rest (joinRoom_touched cfg env s (ntohl (load32 packet.payload)) c)
  unfold handleJoinMeeting at hlater ⊢
  rw [if_neg hlen] at hlater
  rw [if_neg hlen, if_neg hlen]
  simp only [hjoin] at hlater ⊢
  cases hres : joinRoom cfg env s (ntohl (load32 packet.payload)) c with
  | mk result seated =>
      rw [hres] at hlater
      cases result with
      | ok =>
          cases hget : seated.getRoom (ntohl (load32 packet.payload)) with
          | none => simp only [hget]
          | some p =>
              simp only [hget] at hlater ⊢
              have hlive : ((emplaceRoute seated c p).room p).closed = false := by
                have hroom : (emplaceRoute seated c p).room = seated.room := by
                  unfold emplaceRoute
                  split <;> rfl
                have hseated :
                    (joinRoom cfg env s (ntohl (load32 packet.payload)) c).2 = seated := by
                  rw [hres]
                rw [hroom]
                rw [← hseated] at hget ⊢
                exact joinRoom_live cfg env (by rw [hres]) hget
              exact admission_answering hlive
                (hlater.rest (.of_conn (emplaceRoute_conn seated c p)))
      | _ => rfl

theorem dispatch_answering {c : ConnId} {packet : Packet}
    (h : Answered env answer s (dispatch cfg env s c packet)) :
    dispatch cfg (env.answering answer) s c packet = dispatch cfg env s c packet := by
  have hrecord : Touched s (s.record (.packet c packet (presentFor s c))) := .of_conn rfl
  replace h := h.rest hrecord
  unfold dispatch handleLobbyPacket at h ⊢
  simp only [] at h ⊢
  split
  · rfl
  rename_i hlobby
  simp only [hlobby] at h
  split
  · rename_i hcreate
    rw [if_pos hcreate] at h
    exact handleCreateMeeting_answering h
  rename_i hcreate
  rw [if_neg hcreate] at h
  split
  · rename_i hjoin
    rw [if_pos hjoin] at h
    exact handleJoinMeeting_answering h
  · exact close_answering _ c

theorem readLoop_answering {fuel : Nat} {c : ConnId} {packet : Packet}
    (h : Answered env answer s (readLoop cfg env fuel s c packet)) :
    readLoop cfg (env.answering answer) fuel s c packet = readLoop cfg env fuel s c packet := by
  induction fuel generalizing s packet with
  | zero => rfl
  | succ fuel ih =>
      rw [readLoop] at h ⊢
      rw [readLoop]
      split
      · rfl
      rename_i hopen
      rw [if_neg hopen] at h
      cases hdecode : Codec.tryDecode (s.conn c).readBuffer packet with
      | mk result decoded =>
          obtain ⟨buffer, packet'⟩ := decoded
          rw [hdecode] at h
          cases result with
          | needMore => rfl
          | invalid => exact close_answering _ c
          | ok =>
              simp only [] at h ⊢
              have hlater := h.rest (Touched.consume s c buffer)
              have hdispatch := hlater.first (readLoop_touched cfg env fuel _ c packet')
              rw [dispatch_answering hdispatch]
              exact ih (hlater.rest (dispatch_touched cfg env _ c packet'))

/-- **An event sees no answers but those it asks for.** -/
theorem step_answering {e : Event} (hstep : step cfg env s e = some s')
    (h : Answered env answer s s') : step cfg (env.answering answer) s e = some s' := by
  cases e with
  | accept => exact hstep
  | receive c data =>
      simp only [step, Option.ite_none_right_eq_some, Option.some.injEq] at hstep ⊢
      obtain ⟨hguard, rfl⟩ := hstep
      have hread : Touched s (s.updateConn c (Connection.readSome data)) :=
        .updateConn (.readSome data)
      exact ⟨hguard, readLoop_answering (h.rest hread)⟩
  | readError c =>
      simp only [step, Option.ite_none_right_eq_some, Option.some.injEq] at hstep ⊢
      exact ⟨hstep.1, (close_answering s c).trans hstep.2⟩
  | writeDone c length => exact hstep
  | writeError c =>
      simp only [step, Option.ite_none_right_eq_some, Option.some.injEq] at hstep ⊢
      exact ⟨hstep.1, (close_answering s c).trans hstep.2⟩

end Congruence

/-! ### One address for each member -/

/-- Whoever has been seated stands on record under `name`, and under no other address.  The
others are not on record at all, so any address would do for them. -/
def Named (env : Env) (name : ConnId → UInt32) (k : Core) : Prop :=
  ∀ name' : ConnId → UInt32, (∀ c, Entered (happenings k.history) c → name' c = name c) →
    Records (env.answering fun c _ => name' c) k

variable {k k' : Core}

theorem Move.entered_mono (hm : Move cfg env k k') {c : ConnId}
    (hc : Entered (happenings k.history) c) : Entered (happenings k'.history) c := by
  obtain ⟨e, he, hs⟩ := hc
  rcases hm.history with hsame | ⟨r, hsnoc, -⟩
  · exact ⟨e, hsame ▸ he, hs⟩
  · refine ⟨e, ?_, hs⟩
    rw [hsnoc, happenings_snoc]
    exact List.mem_append_left _ he

theorem entered_log {r : Record} {e : Happening RoomPtr ConnId Packet} {c : ConnId}
    (hr : r.happening = some e) (hs : e.Seats c) : Entered (happenings (k.log r).history) c := by
  rw [Core.log_history, happenings_snoc, hr]
  exact ⟨e, List.mem_append_right _ (List.mem_singleton_self e), hs⟩

/-- A move asks for nobody's address but that of whoever it seats. -/
theorem Move.answering (hinv : Inv cfg k) (hconfers : Confers k) (hm : Move cfg env k k')
    {name : ConnId → UInt32} (hname : ∀ c n, ¬ Entered (happenings k.history) c →
      Entered (happenings k'.history) c → env.peerIp c n = name c) :
    Move cfg (env.answering fun c _ => name c) k k' := by
  cases hm with
  | accept => exact .accept
  | receive c data hborn => exact .receive c data hborn
  | packet c sent n hopen hnext => exact .packet c sent n hopen hnext
  | act ha =>
      cases ha with
      | malformed c hopen hnext => exact .act (.malformed c hopen hnext)
      | answered c response hopen hlobby htype hlen =>
          exact .act (.answered c response hopen hlobby htype hlen)
      | vacant c hopen hlobby hrooms hnew hnone response hresponse =>
          exact .act (.vacant c hopen hlobby hrooms hnew hnone response hresponse)
      | collided c p participants hopen hlobby hrooms hold response hresponse =>
          exact .act (.collided c p participants hopen hlobby hrooms hold response hresponse)
      | hosted c n hopen hlobby hrooms hnew hsome response hresponse =>
          have hnot := hconfers.not_entered hinv hopen hlobby
          rw [hname c n hnot (entered_log rfl rfl)]
          exact .act (.hosted c 0 hopen hlobby hrooms hnew hsome response hresponse)
      | joined c p n m present hopen hlobby htable hspace hpresent response hresponse =>
          have hnot := hconfers.not_entered hinv hopen hlobby
          rw [hname c n hnot (entered_log rfl rfl), hname c m hnot (entered_log rfl rfl)]
          exact .act (.joined c p 0 0 present hopen hlobby htable hspace hpresent response
            hresponse)
      | alone c hopen hout => exact .act (.alone c hopen hout)
      | left c p participant hopen hroute hseat howner =>
          exact .act (.left c p participant hopen hroute hseat howner)
      | dissolved c p participant hopen hroute hseat howner =>
          exact .act (.dissolved c p participant hopen hroute hseat howner)

theorem Named.init : Named env (fun _ => 0) ({} : State).core :=
  fun _ _ => Records.init

/-- **A move under fixed addresses keeps to one address for each member.** -/
theorem exists_named_move (hinv : Inv cfg k) (hconfers : Confers k) (hsteady : Steady env)
    (hm : Move cfg env k k') {name : ConnId → UInt32} (h : Named env name k) :
    ∃ name', Named env name' k' := by
  classical
  -- members keep their address, and a newcomer gets the one it is asked for
  refine ⟨fun c => if Entered (happenings k.history) c then name c else env.address c, ?_⟩
  intro later hlater
  have hk : Records (env.answering fun c _ => later c) k := by
    apply h later
    intro c hc
    exact (hlater c (hm.entered_mono hc)).trans (if_pos hc)
  refine hk.move hinv (hm.answering hinv hconfers ?_)
  intro c n hnot hc
  have hlater' : later c = env.address c := (hlater c hc).trans (if_neg hnot)
  rw [hlater']
  exact hsteady c n 0

theorem exists_named_moves (hinv : Inv cfg k) (hconfers : Confers k) (hsteady : Steady env)
    (hms : Moves cfg env k k') (h : ∃ name, Named env name k) : ∃ name, Named env name k' := by
  induction hms with
  | refl => exact h
  | tail hms hm ih =>
      obtain ⟨name, hname⟩ := ih
      exact exists_named_move (hinv.moves hms) (hconfers.moves hinv hms) hsteady hm hname

/-- While the event is handled, `peer_ip_network` stands by what it says about a connection. -/
def AnswersAgree (cfg : ServerConfig) (env : Env) (s : State) (e : Event) : Prop :=
  ∀ s', step cfg env s e = some s' → ∀ c m n,
    (s.conn c).peerCalls ≤ m → m < (s'.conn c).peerCalls →
    (s.conn c).peerCalls ≤ n → n < (s'.conn c).peerCalls → env.peerIp c m = env.peerIp c n

/-- An event in which the answers agree moves as if every address were fixed. -/
theorem step_moves_steady (hinv : Inv cfg s.core) {e : Event} (hagree : AnswersAgree cfg env s e)
    (hstep : step cfg env s e = some s') : ∃ answer, Steady (env.answering answer) ∧
      Moves cfg (env.answering answer) s.core s'.core := by
  refine ⟨fun c _ => env.peerIp c (s.conn c).peerCalls, fun _ _ _ => rfl, ?_⟩
  have hanswered : Answered env (fun c _ => env.peerIp c (s.conn c).peerCalls) s s' := by
    intro c n hle hlt
    exact hagree s' hstep c _ n (Nat.le_refl _) (Nat.lt_of_le_of_lt hle hlt) hle hlt
  exact (step_moves hinv (step_answering hstep hanswered)).1

/-! ### The frames about a participant -/

/-- The addresses in the body of a list. -/
def addresses : Bytes → List UInt32
  | a :: b :: c :: d :: rest => ntohl (load32 [a, b, c, d]) :: addresses rest
  | _ => []

/-- The addresses a packet gives for `c`, by the note it goes out for. -/
def given (c : ConnId) (packet : Packet) : Note ConnId Packet → List UInt32
  | .reply _ => []
  | .roster cs =>
      (cs.zip (addresses packet.payload)).filterMap fun x => if x.1 = c then some x.2 else none
  | .joined x | .relayed x _ | .left x => if x = c then [packet.ip] else []

/-- The notes for `d` with the packets they go out as. -/
def frames (d : ConnId) (history : List Record) : List (Note ConnId Packet × Packet) :=
  history.flatMap fun r => (r.happening.toList.flatMap (noteFor d)).zip (r.sends d)

/-- Every frame about a participant carries the address of the notice that it joined. -/
structure OneAddress (s : State) : Prop where
  /-- The frames are what is queued. -/
  queued : ∀ d, (s.conn d).outgoing = (frames d s.history).map fun frame => Codec.encode frame.2
  same : ∀ c d d' notice note packet, (.joined c, notice) ∈ frames d s.history →
    (note, packet) ∈ frames d' s.history → ∀ ip ∈ given c packet note, ip = notice.ip

theorem addresses_append {word : Bytes} (h : word.length = 4) (rest : Bytes) :
    addresses (word ++ rest) = ntohl (load32 word) :: addresses rest := by
  match word, h with
  | [_, _, _, _], _ => rfl

/-- A list is read back as it was written. -/
theorem addresses_flatMap (ips : List UInt32) :
    addresses (ips.flatMap fun ip => store32 (htonl ip)) = ips := by
  induction ips with
  | nil => rfl
  | cons ip ips ih =>
      rw [List.flatMap_cons, addresses_append (length_store32 _), ih, load32_store32, ntohl,
        htonl_htonl]

/-- With one address for each connection, the packet of a note gives that address. -/
theorem given_notePacket {address : ConnId → UInt32} {c : ConnId} {note : Note ConnId Packet}
    (hrelayed : ∀ x m, note = .relayed x m → m.ip = address x) :
    ∀ ip ∈ given c (notePacket address note) note, ip = address c := by
  intro ip hip
  have hheader : ∀ x : ConnId, (notePacket address note).ip = address x →
      ip ∈ (if x = c then [(notePacket address note).ip] else []) → ip = address c := by
    intro x hx hmem
    split at hmem
    · rename_i hxc
      rw [List.mem_singleton.mp hmem, hx, hxc]
    · simp at hmem
  cases note with
  | reply m => simp [given] at hip
  | joined x => exact hheader x rfl hip
  | relayed x m => exact hheader x (hrelayed x m rfl) hip
  | left x => exact hheader x rfl hip
  | roster cs =>
      have hpayload : (notePacket address (.roster cs)).payload
          = (cs.map address).flatMap fun ip => store32 (htonl ip) := by
        rw [List.flatMap_map]
        rfl
      rw [given, hpayload, addresses_flatMap] at hip
      obtain ⟨x, hx, hsome⟩ := List.mem_filterMap.mp hip
      rw [← List.map_prod_left_eq_zip] at hx
      obtain ⟨y, -, rfl⟩ := List.mem_map.mp hx
      split at hsome
      · rename_i hyc
        rw [← Option.some.inj hsome, ← hyc]
      · simp at hsome

/-- What is relayed for a member carries the address it stands on record under. -/
theorem ip_of_relayed (hsteady : Steady env) {r : Record} (hr : r.Learnt env)
    {e : Happening RoomPtr ConnId Packet} (he : r.happening = some e) {d x : ConnId} {m : Packet}
    (hm : .relayed x m ∈ noteFor d e) : m.ip = env.address x := by
  cases r with
  | packet c sent present =>
      simp only [Record.happening] at he
      cases hseat : present.lookup c with
      | none => simp [hseat] at he
      | some sender =>
          simp only [hseat, Option.map_eq_some_iff] at he
          obtain ⟨relayed, hout, rfl⟩ := he
          rw [noteFor] at hm
          split at hm
          · cases List.mem_singleton.mp hm
            rw [outbound_eq] at hout
            obtain ⟨type, -, rfl⟩ := Option.map_eq_some_iff.mp hout
            exact Learnt.eq_address hsteady (hr x sender hseat)
          · simp at hm
  | malformed c => simp [Record.happening] at he
  | answered c response =>
      obtain rfl := Option.some.inj he
      simp [noteFor] at hm
  | hosted p c response =>
      obtain rfl := Option.some.inj he
      simp [noteFor] at hm
  | joined p c response ip present =>
      obtain rfl := Option.some.inj he
      rw [noteFor] at hm
      split at hm
      · simp at hm
      · split at hm <;> simp at hm
  | left p c participant remaining =>
      obtain rfl := Option.some.inj he
      simp [noteFor] at hm
  | dissolved p =>
      obtain rfl := Option.some.inj he
      simp [noteFor] at hm

/-- **On a record that keeps to one address for each connection, so do the frames.** -/
theorem Records.frames (hsteady : Steady env) (h : Records env k) {d : ConnId}
    {note : Note ConnId Packet} {packet : Packet} (hframe : (note, packet) ∈ frames d k.history) :
    packet = notePacket env.address note ∧
      ∀ c, ∀ ip ∈ given c packet note, ip = env.address c := by
  obtain ⟨r, hr, hmem⟩ := List.mem_flatMap.mp hframe
  have hlearnt := h.history r hr
  rw [sends_eq_notes hsteady hlearnt, ← List.map_prod_left_eq_zip] at hmem
  obtain ⟨note', hnote, heq⟩ := List.mem_map.mp hmem
  obtain ⟨rfl, rfl⟩ := Prod.mk.inj heq
  refine ⟨rfl, fun c => given_notePacket ?_⟩
  rintro x m rfl
  obtain ⟨e, he, hin⟩ := List.mem_flatMap.mp hnote
  exact ip_of_relayed hsteady hlearnt (Option.mem_toList.mp he) hin

theorem OneAddress.of_named {name : ConnId → UInt32} (h : Named env name s.core)
    (hconfers : Confers s.core) : OneAddress s := by
  have hrecords := h name fun _ _ => rfl
  have hsteady : Steady (env.answering fun c _ => name c) := fun _ _ _ => rfl
  constructor
  case queued =>
    intro d
    have hframes : (frames d s.history).map Prod.snd = s.history.flatMap (·.sends d) := by
      rw [frames, List.map_flatMap]
      apply List.flatMap_congr
      intro r hr
      rw [sends_eq_notes hsteady (hrecords.history r hr), ← List.map_prod_left_eq_zip,
        List.map_map]
      rfl
    have hencode : ((frames d s.history).map Prod.snd).map Codec.encode
        = (frames d s.history).map fun frame => Codec.encode frame.2 := List.map_map
    rw [← hencode, hframes]
    exact hconfers.outgoing d
  case same =>
    intro c d d' notice note packet hnotice hframe ip hip
    rw [(hrecords.frames hsteady hframe).2 c ip hip, (hrecords.frames hsteady hnotice).1]
    rfl

/-! ### A run -/

/-- **A participant has one address in all frames about it**, in every run in which the answers
to each join agree. -/
theorem oneAddress {es : List Event} (h : Run.Steps (step cfg env) (AnswersAgree cfg env) {} es) :
    Run.Throughout (step cfg env) OneAddress {} es := by
  have hkeep : Run.Throughout (step cfg env) (fun s => Inv cfg s.core ∧ Confers s.core ∧
      ∃ name, Named env name s.core) {} es := by
    refine Run.throughout_of_step ?_ ⟨Inv.init cfg, Confers.init, _, Named.init⟩ h
    intro s e s' hs hagree hstep
    obtain ⟨hinv, hconfers, name, hname⟩ := hs
    obtain ⟨answer, hsteady, hmoves⟩ := step_moves_steady hinv hagree hstep
    have hnamed := exists_named_moves hinv hconfers hsteady hmoves ⟨name, hname⟩
    exact ⟨hinv.moves hmoves, hconfers.moves hinv hmoves, hnamed⟩
  apply hkeep.mono
  intro s hs
  obtain ⟨-, hconfers, name, hname⟩ := hs
  exact OneAddress.of_named hname hconfers

theorem oneAddress_sampleMeeting :
    Run.Throughout (step {} sampleEnv) OneAddress {} sampleMeeting :=
  oneAddress (Run.Steps.of_forall (fun _ _ _ _ _ _ _ _ _ _ _ => rfl) _ _)

/-- The second connection is reset between the two questions of its join. -/
def resetEnv : Env :=
  sampleEnv.answering fun c n => if c = 2 ∧ 0 < n then 0 else sampleEnv.peerIp c n

/-- It is announced all the same, and is gone when the next event is handled. -/
def resetJoin : List Event :=
  [.accept, .accept, .receive 1 (Wire.frame 6 0 []), .receive 2 (Wire.frame 8 0 [0, 0, 0, 1]),
    .readError 2]

/-- A member is announced at 0, and leaves as another. -/
theorem ghost : ¬ Run.Throughout (step {} resetEnv) OneAddress {} resetJoin := by
  intro h
  obtain ⟨s, hs⟩ := Option.isSome_iff_exists.mp
    (by decide +kernel : (Run.run (step {} resetEnv) {} resetJoin).isSome = true)
  have hframes : (Run.run (step {} resetEnv) {} resetJoin).map (frames 1 ·.history)
      = some [(.reply (createMeetingResponse (htonl 1)), createMeetingResponse (htonl 1)),
          (.joined 2, { type := .partnerJoin, ip := 0 }),
          (.left 2, { type := .partnerExit, ip := 0x0A000002 })] := by
    decide +kernel
  rw [hs, Option.map_some, Option.some.injEq] at hframes
  have hsame := (h.last hs).same 2 1 1 { type := .partnerJoin, ip := 0 } (.left 2)
    { type := .partnerExit, ip := 0x0A000002 } (by rw [hframes]; simp) (by rw [hframes]; simp)
    0x0A000002 (by simp [given])
  exact absurd hsame (by decide)

end CloudMeeting.Server
