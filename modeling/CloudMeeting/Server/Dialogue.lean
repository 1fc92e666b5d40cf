/-
What a connection and the server say to each other.

A connection that sits in no room may ask for one.  Each such request is answered before the
next packet is looked at, and as long as the answer is a refusal the connection may ask again.
The first request that is granted is the last one answered: from then on the packets go to
the room, and a room answers nobody.  A packet that is no request closes the connection.

`Course` are the dialogues that run like this, and `dialogue` says that there are no others,
while room ids have not wrapped around.  After that a connection can be routed to a room it
does not sit in, and find itself asking again when that room is dissolved.
-/
import CloudMeeting.Server.Guarantees

namespace CloudMeeting.Server

open Endian

variable {cfg : ServerConfig} {env : Env} {s : State} {k k' : Core}

/-! ### Courses -/

/-- A packet handled, or an answer queued. -/
inductive Said where
  | asked (packet : Packet)
  | told (response : Packet)

/-- Where a dialogue has got to. -/
inductive Standing where
  | lobby
  | inside (id : UInt32)
  | expelled

/-- A request that is complete. -/
def IsRequest (packet : Packet) : Prop :=
  packet.type = .createMeeting ∨ packet.type = .joinMeeting ∧ 4 ≤ packet.payload.length

def Refuses (request response : Packet) : Prop :=
  request.type = .createMeeting ∧ response = createMeetingResponse 0 ∨
    (request.type = .joinMeeting ∧ 4 ≤ request.payload.length) ∧
      (response = joinMeetingResponse 0 ∨ response = joinMeetingResponse 0xFFFFFFFF)

/-- Whoever asks to join is let into the room asked for. -/
def Grants (request response : Packet) (id : UInt32) : Prop :=
  request.type = .createMeeting ∧ response = createMeetingResponse (htonl id) ∨
    (request.type = .joinMeeting ∧ 4 ≤ request.payload.length) ∧
      ntohl (load32 request.payload) = id ∧ response = joinMeetingResponse (htonl id)

inductive Course : List Said → Standing → Prop
  | start : Course [] .lobby
  | refused {talk : List Said} {request response : Packet} (h : Course talk .lobby)
      (hrefuses : Refuses request response) :
      Course (talk ++ [.asked request, .told response]) .lobby
  | granted {talk : List Said} {request response : Packet} {id : UInt32} (h : Course talk .lobby)
      (hgrants : Grants request response id) :
      Course (talk ++ [.asked request, .told response]) (.inside id)
  /-- A packet for the room. -/
  | spoke {talk : List Said} {id : UInt32} (h : Course talk (.inside id)) (packet : Packet) :
      Course (talk ++ [.asked packet]) (.inside id)
  | expelled {talk : List Said} {packet : Packet} (h : Course talk .lobby)
      (hbad : ¬ IsRequest packet) : Course (talk ++ [.asked packet]) .expelled

/-! ### What is on record of it -/

def Record.said (c : ConnId) : Record → Option Said
  | .packet d sent _ => if d = c then some (.asked sent) else none
  | .answered d response => if d = c then some (.told response) else none
  | .hosted _ d response => if d = c then some (.told response) else none
  | .joined _ d response _ _ => if d = c then some (.told response) else none
  | _ => none

def talk (c : ConnId) (history : List Record) : List Said := history.filterMap (Record.said c)

theorem talk_append (c : ConnId) (history more : List Record) :
    talk c (history ++ more) = talk c history ++ talk c more := by
  simp [talk]

/-- The dialogue of `c` is a course, which has got to where `c` stands. -/
def Converses (c : ConnId) (k : Core) : Prop :=
  ∃ standing, Course (talk c k.history) standing ∧
    (∀ p, k.connectionRoom c = some p → standing = .inside (UInt32.ofNat (p + 1))) ∧
    (k.connectionRoom c = none → k.closed c = false → standing = .lobby)

/-- Nothing is said to `c`, and it comes to no other room. -/
structure Core.Ignores (c : ConnId) (k k' : Core) : Prop where
  talk : talk c k'.history = talk c k.history
  routed : ∀ p, k'.connectionRoom c = some p → k.connectionRoom c = some p
  lobby : k'.connectionRoom c = none → k'.closed c = false →
    k.connectionRoom c = none ∧ k.closed c = false

theorem Converses.ignored {c : ConnId} (h : Converses c k) (hignores : k.Ignores c k') :
    Converses c k' := by
  obtain ⟨standing, hcourse, hrouted, hlobby⟩ := h
  refine ⟨standing, ?_, fun p hp => hrouted p (hignores.routed p hp), fun hnone hopen => ?_⟩
  · rw [hignores.talk]
    exact hcourse
  · obtain ⟨hnone', hopen'⟩ := hignores.lobby hnone hopen
    exact hlobby hnone' hopen'

theorem Core.Ignores.trans {c : ConnId} {k'' : Core} (h : k.Ignores c k') (h' : k'.Ignores c k'') :
    k.Ignores c k'' := by
  refine ⟨h'.talk.trans h.talk, fun p hp => h.routed p (h'.routed p hp), fun hnone hopen => ?_⟩
  obtain ⟨hnone', hopen'⟩ := h'.lobby hnone hopen
  exact h.lobby hnone' hopen'

theorem ignores_shut (c d : ConnId) (k : Core) : k.Ignores d (k.shut c) := by
  refine ⟨rfl, fun p hp => ?_, fun hnone hopen => ?_⟩
  · simp only [Core.shut, Function.update_apply] at hp
    split at hp
    · simp at hp
    · exact hp
  · simp only [Core.shut, Function.update_apply] at hnone hopen
    split at hopen
    · simp at hopen
    · rename_i hd
      rw [if_neg hd] at hnone
      exact ⟨hnone, hopen⟩

/-- An act that closes an open connection tells nobody anything: only those do that leave all open
connections open. -/
theorem Act.ignores (ha : Act cfg env k k') (htidy : Tidy k) {c : ConnId}
    (hopen : k.closed c = false) (hclosed : k'.closed c = true) (d : ConnId) : k.Ignores d k' := by
  have hstill : k.closed c ≠ true := by rw [hopen]; exact Bool.false_ne_true
  cases ha with
  | malformed _ _ _ => exact absurd hclosed hstill
  | answered _ _ _ _ _ _ => exact absurd hclosed hstill
  | vacant _ _ _ _ _ _ _ _ => exact absurd hclosed hstill
  | collided _ _ _ _ _ _ _ _ _ => exact absurd hclosed hstill
  | hosted _ _ _ _ _ _ _ _ _ => exact absurd hclosed hstill
  | joined _ _ _ _ _ _ _ _ _ _ _ _ => exact absurd hclosed hstill
  | alone e _ _ => exact ignores_shut e d k
  | left e p participant _ _ _ _ =>
      have hshut := ignores_shut e d k
      refine ⟨?_, hshut.routed, hshut.lobby⟩
      rw [Core.log_history, talk_append]
      exact List.append_nil _
  | dissolved e p participant _ _ _ _ =>
      refine ⟨?_, fun q hq => ?_, fun hnone hlive => ?_⟩
      · rw [Core.log_history, talk_append]
        exact List.append_nil _
      · simp only [Core.log_connectionRoom, Core.dissolve] at hq
        split at hq
        · simp at hq
        · exact hq
      · simp only [Core.log_connectionRoom, Core.log_closed, Core.dissolve, Bool.or_eq_false_iff,
          decide_eq_false_iff_not] at hnone hlive
        refine ⟨?_, hlive.1⟩
        split at hnone
        · -- whoever was routed to the room sat in it, and has been closed
          rename_i hroute
          exact absurd (htidy.member hroute) hlive.2
        · exact hnone

variable (env) in
theorem close_ignores (h : Inv cfg s.core) (htidy : Tidy s.core) (c d : ConnId) :
    s.core.Ignores d (close env s c).core := by
  cases hopen : s.core.closed c with
  | true =>
      rw [close_of_closed hopen]
      exact ⟨rfl, fun _ => id, fun hnone hlive => ⟨hnone, hlive⟩⟩
  | false =>
      obtain ⟨hact, hclosed⟩ := close_act env h hopen
      exact hact.ignores htidy hopen hclosed d

/-! ### A packet in the lobby -/

/-- What comes of a packet of `c` in the lobby. -/
inductive Treats (c : ConnId) (packet : Packet) (k k' : Core) : Prop
  | refused (response : Packet) (hrefuses : Refuses packet response)
      (hcore : k' = k.log (.answered c response))
  | granted (response : Packet) (p : RoomPtr)
      (hgrants : Grants packet response (UInt32.ofNat (p + 1)))
      (htalk : ∀ d, talk d k'.history = talk d k.history ++ if c = d then [.told response] else [])
      (hroute : k'.connectionRoom = Function.update k.connectionRoom c (some p))
      (hclosed : k'.closed = k.closed)
  | expelled (hbad : ¬ IsRequest packet) (hignores : ∀ d, k.Ignores d k')
      (hclosed : k'.closed c = true)

/-- The answer to a request that is granted is on record last. -/
theorem Treats.of_log {c : ConnId} {packet response : Packet} {p : RoomPtr} {seated : Core}
    {r : Record} (hgrants : Grants packet response (UInt32.ofNat (p + 1)))
    (hhistory : seated.history = k.history)
    (hroute : seated.connectionRoom = Function.update k.connectionRoom c (some p))
    (hclosed : seated.closed = k.closed)
    (hsaid : ∀ d, Record.said d r = if c = d then some (.told response) else none) :
    Treats c packet k (seated.log r) := by
  refine .granted response p hgrants (fun d => ?_) hroute hclosed
  rw [Core.log_history, hhistory, talk_append]
  by_cases hd : c = d
  · simp [talk, hsaid, hd]
  · simp [talk, hsaid, hd]

theorem handleCreateMeeting_treats (h : Inv cfg s.core) {c : ConnId} {packet : Packet}
    (htype : packet.type = .createMeeting) (hopen : s.core.closed c = false)
    (hlobby : s.connectionRoom c = none) :
    Treats c packet s.core (handleCreateMeeting cfg env s c).core := by
  have hgrants : ∀ p : RoomPtr, s.nextRoomId = UInt32.ofNat (p + 1) →
      Grants packet (createMeetingResponse (htonl s.nextRoomId)) (UInt32.ofNat (p + 1)) :=
    fun p hid => Or.inl ⟨htype, by rw [hid]⟩
  by_cases hrooms : s.rooms.entries.length < cfg.maxRooms
  · by_cases hin : s.nextRoomId ∈ s.rooms
    · obtain ⟨p, hp⟩ := Option.isSome_iff_exists.mp (AList.lookup_isSome.mpr hin)
      obtain ⟨participants, hcore⟩ := core_handleCreateMeeting_taken env h hopen hlobby hrooms hp
      rw [hcore]
      exact .of_log (hgrants p (h.listed hp).2.1) rfl rfl rfl fun d => rfl
    · have hid : s.nextRoomId = UInt32.ofNat (s.nextRoom + 1) := h.nextRoomId
      rcases core_handleCreateMeeting_new env hopen hlobby hrooms hin with
        ⟨-, hcore⟩ | ⟨-, n, hcore⟩
      · rw [hcore]
        exact .of_log (hgrants s.nextRoom hid) rfl rfl rfl fun d => rfl
      · rw [hcore]
        exact .of_log (hgrants s.nextRoom hid) rfl rfl rfl fun d => rfl
  · have hisOpen : s.isOpen c = true := closed_of_isOpen.mpr hopen
    have hfull : s.rooms.entries.length ≥ cfg.maxRooms := Nat.le_of_not_lt hrooms
    have hrun : createRoom cfg env s c = (none, s) := by
      simp [createRoom, hisOpen, hfull]
    simp only [handleCreateMeeting, hrun]
    rw [core_record_send hopen fun d => rfl]
    exact .refused _ (Or.inl ⟨htype, rfl⟩) rfl

variable (env) in
/-- A newcomer who has sat down is routed, answered and introduced. -/
theorem admission_treats (h : Inv cfg s.core) {c : ConnId} {p : RoomPtr} {packet : Packet}
    (hopen : s.core.closed c = false) (hlobby : s.connectionRoom c = none)
    (htable : s.core.InTable p) {seated : State} {newcomer : Participant}
    (hseated : seated.core = s.core.setParticipants p ((s.room p).participants.insert c newcomer))
    (response : Packet) (hgrants : Grants packet response (UInt32.ofNat (p + 1))) :
    Treats c packet s.core (notifyUserJoined env (((emplaceRoute seated c p).record
      (joinedRecord env (emplaceRoute seated c p) p c response)).updateConn c
        (Connection.send (Codec.encode response))) p c).core := by
  have hlobby' : seated.connectionRoom c = none := by
    show seated.core.connectionRoom c = none
    rw [hseated]
    exact hlobby
  let routed := emplaceRoute seated c p
  have hcore : routed.core = _ :=
    (core_emplaceRoute (p := p) hlobby').trans (congrArg (·.route c p) hseated)
  have hroom : routed.room p = { s.room p with
      participants := (s.room p).participants.insert c newcomer } := by
    show routed.core.room p = _
    rw [hcore]
    exact Function.update_self ..
  have hclosed : routed.core.closed = s.core.closed := by
    rw [hcore]
    rfl
  have hlive : (routed.room p).closed = false := by
    rw [hroom]
    exact (h.listed htable).2.2.2.1
  have hstill : ∀ d ∈ (routed.room p).participants, routed.core.closed d = false := by
    intro d hd
    rw [hroom] at hd
    rw [hclosed]
    rcases (AList.mem_insert _).mp hd with rfl | hd
    · exact hopen
    · exact h.participant_open htable hd
  have hnotify := core_notifyUserJoined env response hlive (by rw [hclosed]; exact hopen) hstill
  show Treats c packet s.core (notifyUserJoined env ((routed.record (joinedRecord env routed
    p c response)).updateConn c _) p c).core
  rw [hnotify, hcore]
  exact .of_log hgrants rfl rfl rfl fun d => rfl

theorem handleJoinMeeting_treats (h : Inv cfg s.core) (htidy : Tidy s.core) {c : ConnId}
    {packet : Packet} (htype : packet.type = .joinMeeting) (hopen : s.core.closed c = false)
    (hlobby : s.connectionRoom c = none) :
    Treats c packet s.core (handleJoinMeeting cfg env s c packet).core := by
  have hother : packet.type ≠ .createMeeting := by
    rw [htype]
    decide
  unfold handleJoinMeeting
  split
  · rename_i hshort
    refine .expelled ?_ (close_ignores env h htidy c) (close_act env h hopen).2
    rintro (hcreate | ⟨-, hlong⟩)
    · exact hother hcreate
    · exact Nat.not_lt_of_le hlong hshort
  · rename_i hshort
    have hrequest := And.intro htype (Nat.le_of_not_lt hshort)
    simp only []
    have hanswer : ∀ result, joinResponseValue (ntohl (load32 packet.payload)) result = 0 ∨
        joinResponseValue (ntohl (load32 packet.payload)) result = 0xFFFFFFFF →
        Treats c packet s.core ((s.record (.answered c
          (joinMeetingResponse (joinResponseValue (ntohl (load32 packet.payload))
            result)))).updateConn c (Connection.send (Codec.encode (joinMeetingResponse
              (joinResponseValue (ntohl (load32 packet.payload)) result))))).core := by
      intro result hvalue
      rw [core_record_send hopen fun d => rfl]
      exact .refused _ (Or.inr ⟨hrequest, hvalue.imp (congrArg _) (congrArg _)⟩) rfl
    unfold joinRoom
    cases hget : s.getRoom (ntohl (load32 packet.payload)) with
    | none => exact hanswer .notFound (Or.inl rfl)
    | some p =>
        have htable := h.inTable_of_lookup hget
        obtain ⟨-, hid, -, hlive, -⟩ := h.listed hget
        have hlive' : (s.room p).closed = false := hlive
        simp only [hlive', Bool.false_eq_true, if_false]
        by_cases hfull : (s.room p).participants.entries.length ≥ cfg.maxParticipantsPerRoom
        · rw [if_pos hfull]
          exact hanswer .full (Or.inr (show htonl 0xFFFFFFFF = 0xFFFFFFFF by decide))
        · rw [if_neg hfull]
          obtain ⟨hok, hadd⟩ := core_addParticipant env false hlive' hopen (Nat.lt_of_not_le hfull)
            (h.not_seated hlobby htable)
          obtain ⟨res, hres⟩ : ∃ res, addParticipant cfg env s p c false = res := ⟨_, rfl⟩
          obtain ⟨ok, seated⟩ := res
          rw [hres] at hok hadd ⊢
          simp only at hok hadd
          subst hok
          have hget' : seated.getRoom (ntohl (load32 packet.payload)) = some p := by
            show seated.core.rooms.lookup _ = _
            rw [hadd]
            exact hget
          simp only [hget']
          exact admission_treats env h hopen hlobby htable hadd _
            (Or.inr ⟨hrequest, hid, by rw [← hid]; rfl⟩)

theorem handleLobbyPacket_treats (h : Inv cfg s.core) (htidy : Tidy s.core) {c : ConnId}
    {packet : Packet} (hopen : s.core.closed c = false) (hlobby : s.connectionRoom c = none) :
    Treats c packet s.core (handleLobbyPacket cfg env s c packet).core := by
  unfold handleLobbyPacket
  split
  · rename_i hcreate
    exact handleCreateMeeting_treats h hcreate hopen hlobby
  split
  · rename_i hjoin
    exact handleJoinMeeting_treats h htidy hjoin hopen hlobby
  · rename_i hcreate hjoin
    refine .expelled ?_ (close_ignores env h htidy c) (close_act env h hopen).2
    rintro (heq | ⟨heq, -⟩)
    · exact hcreate heq
    · exact hjoin heq

/-! ### A packet -/

theorem talk_packet (c d : ConnId) (packet : Packet) (present : Participants) :
    talk d [.packet c packet present] = if c = d then [.asked packet] else [] := by
  by_cases hd : c = d
  · simp [talk, Record.said, hd]
  · simp [talk, Record.said, hd]

/-- In the lobby a packet is answered, or is the last. -/
theorem Treats.converses {c d : ConnId} {packet : Packet}
    (h : Treats c packet (k.log (.packet c packet ∅)) k') (hopen : k.closed c = false)
    (hlobby : k.connectionRoom c = none) (hd : Converses d k) : Converses d k' := by
  obtain ⟨standing, hcourse, hrouted, hwaits⟩ := hd
  have hasked : talk d (k.log (.packet c packet ∅)).history
      = talk d k.history ++ if c = d then [.asked packet] else [] := by
    rw [Core.log_history, talk_append, talk_packet]
  by_cases hself : c = d
  · subst hself
    rw [if_pos rfl] at hasked
    obtain rfl : standing = .lobby := hwaits hlobby hopen
    cases h with
    | refused response hrefuses hcore =>
        refine ⟨.lobby, ?_, fun p hp => ?_, fun _ _ => rfl⟩
        · have htold : talk c k'.history = talk c k.history ++ [.asked packet, .told response] := by
            rw [hcore, Core.log_history, talk_append, hasked]
            simp [talk, Record.said]
          rw [htold]
          exact hcourse.refused hrefuses
        · rw [hcore] at hp
          exact absurd (hlobby.symm.trans hp) (by simp)
    | granted response p hgrants htalk hroute hclosed =>
        refine ⟨.inside (UInt32.ofNat (p + 1)), ?_, fun q hq => ?_, fun hnone _ => ?_⟩
        · rw [htalk, hasked, if_pos rfl, List.append_assoc]
          exact hcourse.granted hgrants
        · rw [hroute, Function.update_self, Option.some.injEq] at hq
          rw [hq]
        · rw [hroute, Function.update_self] at hnone
          simp at hnone
    | expelled hbad hignores hclosed =>
        refine ⟨.expelled, ?_, fun p hp => ?_, fun _ hlive => ?_⟩
        · rw [(hignores c).talk, hasked]
          exact hcourse.expelled hbad
        · have hroute : k.connectionRoom c = some p := (hignores c).routed p hp
          exact absurd (hlobby.symm.trans hroute) (by simp)
        · rw [hclosed] at hlive
          exact absurd hlive (by simp)
  · -- nobody else hears of it
    rw [if_neg hself, List.append_nil] at hasked
    refine Converses.ignored ⟨standing, hcourse, hrouted, hwaits⟩ ?_
    cases h with
    | refused response hrefuses hcore =>
        refine ⟨?_, fun p hp => ?_, fun hnone hlive => ?_⟩
        · rw [hcore, Core.log_history, talk_append, hasked]
          simp [talk, Record.said, hself]
        · rw [hcore] at hp
          exact hp
        · rw [hcore] at hnone hlive
          exact ⟨hnone, hlive⟩
    | granted response p hgrants htalk hroute hclosed =>
        have hsame : k'.connectionRoom d = k.connectionRoom d := by
          rw [hroute]
          exact Function.update_of_ne (Ne.symm hself) ..
        refine ⟨?_, fun q hq => hsame ▸ hq, fun hnone hlive => ⟨hsame ▸ hnone, ?_⟩⟩
        · rw [htalk, hasked, if_neg hself, List.append_nil]
        · rw [hclosed] at hlive
          exact hlive
    | expelled hbad hignores hclosed =>
        have hrest := hignores d
        exact ⟨hrest.talk.trans hasked, hrest.routed, hrest.lobby⟩

/-- In a room no packet is answered. -/
theorem converses_room {c d : ConnId} {packet : Packet} {present : Participants}
    (hin : (k.connectionRoom c).isSome) (hd : Converses d k) :
    Converses d (k.log (.packet c packet present)) := by
  obtain ⟨standing, hcourse, hrouted, hwaits⟩ := hd
  by_cases hself : c = d
  · subst hself
    obtain ⟨p, hp⟩ := Option.isSome_iff_exists.mp hin
    have hinside := hrouted p hp
    subst hinside
    refine ⟨_, ?_, hrouted, hwaits⟩
    rw [Core.log_history, talk_append, talk_packet, if_pos rfl]
    exact hcourse.spoke packet
  · refine ⟨standing, ?_, hrouted, hwaits⟩
    rw [Core.log_history, talk_append, talk_packet, if_neg hself, List.append_nil]
    exact hcourse

variable (env) in
theorem dispatch_converses (h : Inv cfg s.core) (htidy : Tidy s.core) {c : ConnId}
    (packet : Packet) (hopen : s.core.closed c = false) (hall : ∀ d, Converses d s.core) :
    ∀ d, Converses d (dispatch cfg env s c packet).core := by
  intro d
  cases hroute : s.connectionRoom c with
  | some p =>
      rw [core_dispatch_room h hroute]
      exact converses_room (by rw [show s.core.connectionRoom c = _ from hroute]; rfl) (hall d)
  | none =>
      have hrun : dispatch cfg env s c packet
          = handleLobbyPacket cfg env (s.record (.packet c packet ∅)) c packet := by
        simp only [dispatch, presentFor, State.record, hroute]
      have hcore := core_record_lobby (s := s) c packet
      have hinv : Inv cfg (s.record (.packet c packet ∅)).core := by
        rw [hcore]
        exact h.log _
      have htidy' : Tidy (s.record (.packet c packet ∅)).core := by
        rw [hcore]
        exact ⟨htidy.member, htidy.owner, htidy.empty⟩
      have htreats : Treats c packet (s.record (.packet c packet ∅)).core
          (handleLobbyPacket cfg env (s.record (.packet c packet ∅)) c packet).core :=
        handleLobbyPacket_treats hinv htidy' hopen hroute
      rw [hcore] at htreats
      rw [hrun]
      exact htreats.converses hopen hroute (hall d)

/-! ### Runs -/

theorem Moves.nextRoom_le (h : Moves cfg env k k') : k.nextRoom ≤ k'.nextRoom := by
  induction h with
  | refl => exact Nat.le_refl _
  | tail _ hmove ih => exact Nat.le_trans ih hmove.nextRoom_le

variable (env) in
/-- The read loop, while ids last. -/
theorem readLoop_converses (hseats : 1 ≤ cfg.maxParticipantsPerRoom) (c : ConnId) :
    ∀ (fuel : Nat) (s : State) (packet : Packet), Inv cfg s.core → Tidy s.core →
      (readLoop cfg env fuel s c packet).core.nextRoom < 2 ^ 32 - 1 →
      (∀ d, Converses d s.core) →
        ∀ d, Converses d (readLoop cfg env fuel s c packet).core := by
  intro fuel
  induction fuel with
  | zero => exact fun s _ _ _ _ hall => hall
  | succ fuel ih =>
      intro s packet hinv htidy hfew hall d
      by_cases hopen : s.core.closed c = false
      · cases hnext : Codec.next (s.conn c).readBuffer.readable with
        | wait =>
            rw [readLoop_wait hinv hopen hnext]
            exact hall d
        | reject =>
            rw [readLoop_reject hinv hopen hnext]
            have hcore : (s.record (.malformed c)).core = s.core.log (.malformed c) :=
              core_record fun d => rfl
            have hclose := close_ignores env (s := s.record (.malformed c))
              (by rw [hcore]; exact hinv.log _)
              (by rw [hcore]; exact ⟨htidy.member, htidy.owner, htidy.empty⟩) c d
            refine (hall d).ignored (Core.Ignores.trans ?_ hclose)
            rw [hcore]
            refine ⟨?_, fun _ => id, fun hnone hlive => ⟨hnone, hlive⟩⟩
            rw [Core.log_history, talk_append]
            exact List.append_nil _
        | take p n =>
            rw [readLoop_take hinv hopen hnext] at hfew ⊢
            obtain ⟨hmoves, -, -⟩ := take_moves env hinv hopen hnext
            have hinv' := hinv.moves hmoves
            have hrest := (readLoop_moves env c fuel _ p hinv').1
            have htidy' := htidy.moves hinv hseats hmoves
              (Nat.lt_of_le_of_lt hrest.nextRoom_le hfew)
            refine ih _ p hinv' htidy' hfew ?_ d
            let taken := s.updateConn c fun conn =>
              { conn with readBuffer := (s.conn c).readBuffer.moveReadPos n }
            have hcore : taken.core = _ := core_updateReadBuffer c _
            refine dispatch_converses env (Inv.take env hinv hopen hnext) ?_ p ?_ fun e => ?_
            · show Tidy taken.core
              rw [hcore]
              exact ⟨htidy.member, htidy.owner, htidy.empty⟩
            · show taken.core.closed c = false
              rw [hcore]
              exact hopen
            · show Converses e taken.core
              rw [hcore]
              exact hall e
      · rw [readLoop_closed hopen]
        exact hall d

/-- Nothing has been said before a connection is accepted. -/
theorem talk_unborn (h : Reachable cfg env s) {c : ConnId} (hunborn : ¬ s.Accepted c) :
    talk c s.history = [] := by
  obtain ⟨hout, hreceived, -⟩ := h.confers.unborn hunborn
  have hcuts := h.parses.cuts c
  rw [hreceived] at hcuts
  have hsends : ∀ r ∈ s.history, r.sends c = [] := by
    rw [h.confers.outgoing c, List.map_eq_nil_iff, List.flatMap_eq_nil_iff] at hout
    exact hout
  have hnone : ∀ {packets rest}, Framing.Cuts Codec.cutter [] packets rest → packets = [] := by
    intro packets rest hcuts
    cases hcuts with
    | done _ => rfl
    | step hnext _ => exact absurd hnext (by simp [Codec.cutter, Codec.next, Wire.headerSize])
  have hhandled : handled c s.history = [] := hnone hcuts
  rw [talk, List.filterMap_eq_nil_iff]
  intro r hr
  have hquiet := hsends r hr
  have hunasked := List.filterMap_eq_nil_iff.mp hhandled r hr
  cases r with
  | packet d sent present =>
      by_cases hd : d = c
      · simp [Record.packetOf, hd] at hunasked
      · simp [Record.said, hd]
  | answered d response => simpa [Record.said, Record.sends] using hquiet
  | hosted p d response => simpa [Record.said, Record.sends] using hquiet
  | joined p d response ip present =>
      by_cases hd : d = c
      · simp [Record.sends, hd] at hquiet
      · simp [Record.said, hd]
  | _ => rfl

theorem Reachable.converses (hseats : 1 ≤ cfg.maxParticipantsPerRoom) (h : Reachable cfg env s)
    (hfew : s.nextRoom < 2 ^ 32 - 1) (c : ConnId) : Converses c s.core := by
  suffices hall : Reachable cfg env s ∧ (s.nextRoom < 2 ^ 32 - 1 → ∀ c, Converses c s.core) from
    hall.2 hfew c
  refine Run.Reachable.invariant h (I := fun s =>
    Reachable cfg env s ∧ (s.nextRoom < 2 ^ 32 - 1 → ∀ c, Converses c s.core)) ⟨⟨[], rfl⟩, ?_⟩ ?_
  · intro _ c
    exact ⟨.lobby, .start, fun p hp => by simp [State.core] at hp, fun _ _ => rfl⟩
  · rintro s e s' ⟨hreach, hs⟩ hstep
    have hinv := hreach.inv
    refine ⟨Run.Reachable.next hreach hstep, fun hfew' => ?_⟩
    have hfew : s.nextRoom < 2 ^ 32 - 1 :=
      Nat.lt_of_le_of_lt (Moves.nextRoom_le (step_moves hinv hstep).1) hfew'
    have htidy : Tidy s.core := Tidy.init.moves (Inv.init cfg) hseats hreach.moves.1 hfew
    have hclose : ∀ c d, Converses d (close env s c).core := fun c d =>
      (hs hfew d).ignored (close_ignores env hinv htidy c d)
    cases e with
    | accept =>
        simp only [step, Option.some.injEq] at hstep
        subst hstep
        intro c
        by_cases hnew : c = s.nextConnId
        · -- the newcomer has said nothing yet
          have hunborn : ¬ s.Accepted c := by
            rw [hnew]
            exact fun hborn => Nat.lt_irrefl _ hborn.2
          refine ⟨.lobby, ?_, fun p hp => ?_, fun _ _ => rfl⟩
          · show Course (talk c s.history) .lobby
            rw [talk_unborn hreach hunborn]
            exact .start
          · exact absurd (hinv.born (hinv.routed hp).1) hunborn
        · refine (hs hfew c).ignored ⟨rfl, fun _ => id, fun hnone hlive => ⟨hnone, ?_⟩⟩
          simpa [State.core, hnew] using hlive
    | receive c data =>
        simp only [step, Option.ite_none_right_eq_some, Option.some.injEq] at hstep
        obtain ⟨hguard, rfl⟩ := hstep
        have hcore := core_readSome (s := s) c data
        have hmove : Move cfg env s.core (s.updateConn c (Connection.readSome data)).core := by
          rw [hcore]
          exact .receive c data hguard.1
        refine readLoop_converses env hseats c _ _ {} (hinv.move hmove) ?_ hfew' fun d => ?_
        · rw [hcore]
          exact ⟨htidy.member, htidy.owner, htidy.empty⟩
        · rw [hcore]
          exact hs hfew d
    | readError c =>
        simp only [step, Option.ite_none_right_eq_some, Option.some.injEq] at hstep
        obtain ⟨-, rfl⟩ := hstep
        exact hclose c
    | writeDone c length =>
        simp only [step, Option.ite_none_right_eq_some, Option.some.injEq] at hstep
        obtain ⟨-, rfl⟩ := hstep
        rw [core_writeDone]
        exact hs hfew
    | writeError c =>
        simp only [step, Option.ite_none_right_eq_some, Option.some.injEq] at hstep
        obtain ⟨-, rfl⟩ := hstep
        exact hclose c

/-! ### Dialogues -/

def Said.packet? : Said → Option Packet
  | .asked packet => some packet
  | .told _ => none

def Said.response? : Said → Option Packet
  | .asked _ => none
  | .told response => some response

def isResponse (type : MessageType) : Bool :=
  type = .createMeetingResponse || type = .joinMeetingResponse

theorem handled_talk (c : ConnId) (history : List Record) :
    (talk c history).filterMap Said.packet? = handled c history := by
  rw [talk, handled, List.filterMap_filterMap]
  congr 1
  funext r
  cases r with
  | packet d sent present =>
      by_cases hd : d = c <;> simp [Record.said, Record.packetOf, Said.packet?, hd]
  | answered d response =>
      by_cases hd : d = c <;> simp [Record.said, Record.packetOf, Said.packet?, hd]
  | hosted p d response =>
      by_cases hd : d = c <;> simp [Record.said, Record.packetOf, Said.packet?, hd]
  | joined p d response ip present =>
      by_cases hd : d = c <;> simp [Record.said, Record.packetOf, Said.packet?, hd]
  | _ => rfl

/-- The answers among what a record sends. -/
theorem responses_sends {r : Record} (hr : r.Shaped cfg) (c : ConnId) :
    (r.sends c).filter (fun packet => isResponse packet.type)
      = ((r.said c).bind Said.response?).toList := by
  have hanswer : ∀ {response : Packet}, response.type = .createMeetingResponse ∨
      response.type = .joinMeetingResponse → isResponse response.type = true := by
    rintro response (htype | htype)
    · rw [htype]
      rfl
    · rw [htype]
      rfl
  cases r with
  | packet d sent present =>
      have hnone : ((Record.packet d sent present).said c).bind Said.response? = none := by
        by_cases hd : d = c <;> simp [Record.said, Said.response?, hd]
      rw [hnone, Option.toList_none, List.filter_eq_nil_iff]
      intro packet hpacket
      rw [Record.sends] at hpacket
      split at hpacket
      · rename_i sender _
        split at hpacket
        · rw [outbound_eq, Option.mem_toList, Option.map_eq_some_iff] at hpacket
          obtain ⟨type, htype, rfl⟩ := hpacket
          have hrelayed := relayedType_isRelayed htype
          show ¬ isResponse type = true
          simp only [isRelayed, decide_eq_true_eq] at hrelayed
          rcases hrelayed with rfl | rfl | rfl | rfl <;> decide
        · simp at hpacket
      · simp at hpacket
  | answered d response =>
      by_cases hd : d = c
      · simp [Record.sends, Record.said, hd, hanswer hr.1, Said.response?]
      · simp [Record.sends, Record.said, hd]
  | hosted p d response =>
      by_cases hd : d = c
      · simp [Record.sends, Record.said, hd, hanswer (Or.inl hr.1), Said.response?]
      · simp [Record.sends, Record.said, hd]
  | joined p d response ip present =>
      by_cases hd : d = c
      · have hlist : isResponse (partnerList present).type = false := rfl
        simp [Record.sends, Record.said, hd, hanswer (Or.inr hr.1), hlist, Said.response?]
      · have hnotice : isResponse .partnerJoin = false := rfl
        simp only [Record.sends, Record.said, if_neg hd]
        split
        · simp [hnotice]
        · rfl
  | left p d participant remaining =>
      have hnotice : isResponse .partnerExit = false := rfl
      simp only [Record.sends]
      split
      · simp [hnotice, Record.said]
      · rfl
  | _ => rfl

/-- The dialogue of `c` in a state of the server. -/
structure Dialogue (s : State) (c : ConnId) (standing : Standing) : Prop where
  course : Course (talk c s.history) standing
  /-- What has been asked are the packets sent, as far as they have been handled. -/
  packets : (talk c s.history).filterMap Said.packet?
    <+: (Framing.drain Codec.cutter (s.conn c).received).1
  /-- Whoever is routed to a room has been told its id. -/
  inside : ∀ p, s.connectionRoom c = some p → standing = .inside (s.room p).roomId
  lobby : s.connectionRoom c = none → s.isOpen c = true → standing = .lobby
  /-- The answers are the answers in the queue. -/
  answers : (s.conn c).outgoing.filter (fun frame => isResponse ⟨Wire.typeOf frame⟩)
    = ((talk c s.history).filterMap Said.response?).map Codec.encode

/-- **Every request is answered once, in its turn**, until one is granted or the connection is
closed. -/
theorem dialogue (hseats : 1 ≤ cfg.maxParticipantsPerRoom) (h : Reachable cfg env s)
    (hfew : s.nextRoom < 2 ^ 32 - 1) (c : ConnId) : ∃ standing, Dialogue s c standing := by
  obtain ⟨standing, hcourse, hrouted, hlobby⟩ := h.converses hseats hfew c
  refine ⟨standing, hcourse, ?_, fun p hp => ?_, fun hnone hopen => ?_, ?_⟩
  · rw [handled_talk]
    exact (h.handled_drain c).1
  · have htable := (h.inv.routed hp).2
    obtain ⟨-, hid, -⟩ := h.inv.listed htable
    have hroom : (s.room p).roomId = UInt32.ofNat (p + 1) := hid
    rw [hroom]
    exact hrouted p hp
  · exact hlobby hnone (closed_of_isOpen.mp hopen)
  · have hfilter : ∀ history : List Record, (∀ r ∈ history, r.Shaped cfg) →
        (history.flatMap (·.sends c)).filter (fun packet => isResponse packet.type)
          = (talk c history).filterMap Said.response? := by
      intro history hshaped
      induction history with
      | nil => rfl
      | cons r history ih =>
          rw [List.flatMap_cons, List.filter_append, responses_sends (hshaped r (by simp)),
            ih fun x hx => hshaped x (by simp [hx]), talk, talk, List.filterMap_cons]
          cases hsaid : r.said c with
          | none => rfl
          | some said =>
              rw [List.filterMap_cons]
              cases said <;> rfl
    rw [h.outgoing_eq c, ← hfilter s.history h.shaped, List.filter_map]
    congr 2
    funext packet
    simp only [Function.comp_apply, Codec.typeOf_encode]

theorem dialogue_sampleMeeting : Dialogue (stateAfter sampleMeeting) 3 (.inside 1) := by
  obtain ⟨standing, h⟩ := dialogue (by decide)
    ⟨sampleMeeting, run_stateAfter (by decide +kernel)⟩ (by decide +kernel) 3
  have hinside : standing = .inside ((stateAfter sampleMeeting).room 0).roomId :=
    h.inside 0 (by decide +kernel)
  have hid : ((stateAfter sampleMeeting).room 0).roomId = 1 := by decide +kernel
  rw [hinside, hid] at h
  exact h

end CloudMeeting.Server
