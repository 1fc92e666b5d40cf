/-
Closing the owner of a room.

The owner's close handler takes it out of the room and closes the room, which closes every
other participant, whose close handler comes back to the same room; when all have
returned, the room's callback cleans up behind it.  `teardown` says what is left, from
any state in which the server closes a connection: of the room nothing, of everything
else all of it.

What happens to the tables is `core_closeFuel_dissolved`, proved with the handlers.  Here
it is added what happens to the connections, which are marked closed and otherwise left
as they were.
-/
import CloudMeeting.Server.Connections

namespace CloudMeeting.Server

variable {cfg : ServerConfig} {env : Env} {s : State} {k : Core}

/-- The states in which a connection may be closed: between two events, in the loop of a read,
and when a frame has just been rejected. -/
inductive Inside (cfg : ServerConfig) (env : Env) : State → Prop
  | rest {s : State} (h : Reachable cfg env s) : Inside cfg env s
  | reading {s : State} {before : List Event} {c : ConnId} {data : Bytes}
      (h : Reading cfg env before c data s) : Inside cfg env s
  | rejected {s : State} {before : List Event} {c : ConnId} {data : Bytes} {last packet : Packet}
      {buffer : Buffer} (h : Reading cfg env before c data s) (hopen : s.isOpen c = true)
      (hbad : Codec.tryDecode (s.conn c).readBuffer last = (.invalid, buffer, packet)) :
      Inside cfg env (s.record (.malformed c))

theorem next_of_invalid {buffer left : Buffer} {last p : Packet} (h : buffer.WF)
    (hbad : Codec.tryDecode buffer last = (.invalid, left, p)) :
    Codec.next buffer.readable = .reject := by
  have hdecode := Codec.tryDecode_spec h last
  cases hnext : Codec.next buffer.readable with
  | reject => rfl
  | wait =>
      rw [hnext] at hdecode
      obtain ⟨q, hq⟩ := hdecode
      rw [hq] at hbad
      simp at hbad
  | take q n =>
      rw [hnext] at hdecode
      have hq : Codec.tryDecode buffer last = (.ok, buffer.moveReadPos n, q) := hdecode
      rw [hq] at hbad
      simp at hbad

theorem Inside.moves (h : Inside cfg env s) : Moves cfg env ({} : State).core s.core := by
  cases h with
  | rest h => exact h.moves.1
  | reading h => exact h.moves
  | rejected h hopen hbad =>
      rw [core_record fun _ => rfl]
      exact h.moves.tail (.act (.malformed _ (closed_of_isOpen.mp hopen)
        (next_of_invalid (h.inv.buffers _) hbad)))

theorem Inside.inv (h : Inside cfg env s) : Inv cfg s.core := (Inv.init cfg).moves h.moves

/-! ### Owners sit in listed rooms -/

/-- Nobody sits in a room without seats, while ids last. -/
theorem deserted_moves (hnone : cfg.maxParticipantsPerRoom = 0)
    (hm : Moves cfg env ({} : State).core k) (hlt : k.nextRoom < 2 ^ 32 - 1) (p : RoomPtr) :
    (k.room p).participants = ∅ := by
  induction hm generalizing p with
  | refl => rfl
  | @tail k k' hms hmove ih =>
      have hinv := (Inv.init cfg).moves hms
      have hold := ih (Nat.lt_of_le_of_lt hmove.nextRoom_le hlt)
      cases hmove with
      | accept => exact hold p
      | receive c data _ => exact hold p
      | packet c sent n _ _ => exact hold p
      | act ha =>
          cases ha with
          | malformed c _ _ => exact hold p
          | answered c response _ _ _ _ => exact hold p
          | vacant c _ _ _ _ _ response _ =>
              simp only [Core.log_room, Core.found, Core.build, Function.update_apply]
              split
              · rfl
              · exact hold p
          | collided c q participants _ _ _ htaken response _ =>
              exact absurd htaken (Tidy.fresh hinv (Nat.lt_of_lt_of_le hlt (Nat.sub_le _ _)))
          | hosted c n _ _ _ _ hsome response _ => omega
          | joined c q n m present _ _ _ hspace _ response _ => omega
          | alone c _ _ => exact hold p
          | left c q participant _ _ hseat _ =>
              rw [hold q] at hseat
              simp at hseat
          | dissolved c q participant _ _ hseat _ =>
              rw [hold q] at hseat
              simp at hseat

/-- Whoever sits in a room sits in one of the table, while ids last. -/
theorem Inside.inTable (h : Inside cfg env s) (hfew : s.nextRoom < 2 ^ 32 - 1) {c : ConnId}
    {p : RoomPtr} (hc : c ∈ (s.room p).participants) : s.core.InTable p := by
  by_contra hout
  have hempty : (s.room p).participants = ∅ := by
    rcases Nat.eq_zero_or_pos cfg.maxParticipantsPerRoom with hnone | hseats
    · exact deserted_moves hnone h.moves hfew p
    · have htidy : Tidy s.core := Tidy.init.moves (Inv.init cfg) hseats h.moves hfew
      exact htidy.empty hout
  rw [hempty] at hc
  exact AList.notMem_empty c hc

/-! ### Connections are only marked closed -/

variable (env) in
theorem conn_closeFuel_stray (fuel : Nat) {c : ConnId} {p : RoomPtr}
    (hopen : s.core.closed c = false) (hroute : s.connectionRoom c = some p)
    (hclosed : (s.room p).closed = true) :
    (closeFuel env (fuel + 1) s c).conn = Function.update s.conn c (s.conn c).markClosed := by
  have hstill : (s.conn c).closed = false := hopen
  simp [closeFuel, hstill, onConnectionClose, State.updateConn, hroute, removeParticipant, hclosed]

/-- Closing those a closed room had marks them closed, and touches no other connection. -/
theorem conn_foldl_close {fuel : Nat} {p : RoomPtr} {entries : Entries} (hnodup : entries.NodupKeys)
    (hclosed : (s.room p).closed = true)
    (hitems : ∀ item ∈ entries, s.core.closed item.1 = false ∧ s.connectionRoom item.1 = some p)
    (d : ConnId) :
    (entries.foldl (fun s item =>
        if s.isOpen item.1 then closeFuel env (fuel + 1) s item.1 else s) s).conn d
      = if d ∈ entries.keys then (s.conn d).markClosed else s.conn d := by
  induction entries generalizing s with
  | nil => simp
  | cons item entries ih =>
      obtain ⟨hout, hnodup'⟩ := List.nodupKeys_cons.mp hnodup
      obtain ⟨hopen, hroute⟩ := hitems item (by simp)
      have hshut := core_closeFuel_stray env fuel hopen hroute (Or.inl hclosed)
      have hroom : (closeFuel env (fuel + 1) s item.1).room = s.room := congrArg Core.room hshut
      have hconn := conn_closeFuel_stray env fuel hopen hroute hclosed
      rw [List.foldl_cons, if_pos (closed_of_isOpen.mpr hopen),
        ih hnodup' (by rw [hroom]; exact hclosed), hconn]
      · by_cases hd : d = item.1
        · subst hd
          have hnot : item.1 ∉ entries.keys := hout
          simp [hnot]
        · simp [hd]
      · intro other hother
        obtain ⟨hother1, hother2⟩ := hitems other (List.mem_cons_of_mem _ hother)
        have hne : other.1 ≠ item.1 := fun heq => hout (heq ▸ List.mem_map_of_mem hother)
        have hcr : (closeFuel env (fuel + 1) s item.1).connectionRoom other.1
            = (s.core.shut item.1).connectionRoom other.1 :=
          congrFun (congrArg Core.connectionRoom hshut) other.1
        rw [hcr, hshut]
        simp only [Core.shut, Function.update_apply, if_neg hne]
        exact ⟨hother1, hother2⟩

/-- The participants are marked closed, the owner first. -/
theorem conn_emptied {fuel : Nat} (h : Inv cfg s.core) {c : ConnId} {p : RoomPtr}
    (htable : s.core.InTable p) (hc : c ∈ (s.room p).participants) (d : ConnId) :
    (emptied env fuel s c p).conn d
      = if d ∈ (s.room p).participants then (s.conn d).markClosed else s.conn d := by
  have hdoomed : ∀ d, (doomed s c p).conn d = if d = c then (s.conn c).markClosed else s.conn d :=
    fun d => Function.update_apply ..
  rw [emptied, conn_foldl_close (entries_nodupKeys env _ p) (by rw [room_doomed])
    (fun item hitem => doomed_members h htable hitem), hdoomed]
  by_cases hd : d = c
  · subst hd
    have hnot : d ∉ ((unseat s d p).entries env p).keys := fun hin => (mem_keys_unseat.mp hin).1 rfl
    rw [if_neg hnot, if_pos rfl, if_pos hc]
  · simp only [mem_keys_unseat, ne_eq, hd, not_false_eq_true, true_and, if_false]

/-! ### Teardown -/

/-- The close handler is called when a connection closes, and not again. -/
def Connection.CalledOnce (conn : Connection) : Prop :=
  conn.closeCalls ≤ 1 ∧ (conn.closed = false → conn.closeCalls = 0)

namespace Connection

theorem CalledOnce.doWrite {conn : Connection} (h : conn.CalledOnce) : conn.doWrite.CalledOnce := by
  unfold Connection.doWrite
  split
  · exact h
  · exact h

theorem CalledOnce.taken {conn : Connection} (h : conn.CalledOnce) (length : Nat) :
    (conn.taken length).CalledOnce := by
  unfold Connection.taken
  split
  · exact h
  · exact h

theorem Op.calledOnce {conn conn' : Connection} (hop : conn.Op conn') (h : conn.CalledOnce) :
    conn'.CalledOnce := by
  cases hop with
  | send data =>
      rw [send_eq]
      split
      · exact h
      · have henqueue : (conn.enqueue data).CalledOnce := h
        exact henqueue.doWrite
  | writeDone length hbusy hlength =>
      rw [writeDone_eq]
      split
      · exact (h.taken length).doWrite
      · exact h.taken length
  | readSome data => exact h
  | consume buffer => exact h
  | ask => exact h
  | markClosed hopen =>
      refine ⟨?_, fun hstill => ?_⟩
      · simp only [Connection.markClosed, h.2 hopen]
        exact Nat.le_refl 1
      · simp [Connection.markClosed] at hstill

end Connection

theorem Inside.calledOnce (h : Inside cfg env s) (c : ConnId) : (s.conn c).CalledOnce := by
  have hborn : Connection.CalledOnce {} := ⟨Nat.zero_le 1, fun _ => rfl⟩
  have hunborn : Connection.CalledOnce { closed := true } := ⟨Nat.zero_le 1, fun _ => rfl⟩
  have hop := fun (conn conn' : Connection) (h : conn.Op conn') => h.calledOnce
  cases h with
  | rest h => exact h.each hborn hunborn hop c
  | reading h => exact h.each hborn hunborn hop c
  | rejected h _ _ => exact h.each hborn hunborn hop c

/-- Nothing is left of the room `p`, and everything else is as it was. -/
structure TornDown (p : RoomPtr) (s s' : State) : Prop where
  unlisted : s'.getRoom (s.room p).roomId = none ∧ ∀ id, s'.getRoom id ≠ some p
  vacant : (s'.room p).closed = true ∧ (s'.room p).participants = ∅
  shut : ∀ d ∈ (s.room p).participants, s'.isOpen d = false ∧ (s'.conn d).closeCalls = 1
  unrouted : ∀ d, s'.connectionRoom d ≠ some p
  /-- No frame has been queued for anybody. -/
  silent : ∀ d, (s'.conn d).outgoing = (s.conn d).outgoing ∧
    (s'.conn d).writeQueue = (s.conn d).writeQueue
  listed : ∀ id, id ≠ (s.room p).roomId → s'.getRoom id = s.getRoom id
  rooms : ∀ q, q ≠ p → s'.room q = s.room q
  routes : ∀ d, d ∉ (s.room p).participants → s'.connectionRoom d = s.connectionRoom d
  conns : ∀ d, d ∉ (s.room p).participants → s'.conn d = s.conn d

/-- **Closing the owner tears its room down**, completely and alone. -/
theorem teardown (h : Inside cfg env s) (hfew : s.nextRoom < 2 ^ 32 - 1) {p : RoomPtr} {c : ConnId}
    {participant : Participant} (hseat : (s.room p).participants.lookup c = some participant)
    (howner : participant.isOwner = true) : TornDown p s (close env s c) := by
  have hinv := h.inv
  have hc : c ∈ (s.room p).participants := AList.lookup_isSome.mp (by rw [hseat]; rfl)
  have htable := h.inTable hfew hc
  have hroute : s.connectionRoom c = some p := hinv.seated htable hc
  have hopen : s.core.closed c = false := hinv.participant_open htable hc
  obtain ⟨fuel, hfuel⟩ : ∃ fuel, s.nextConnId = fuel + 1 :=
    ⟨s.nextConnId - 1, (Nat.succ_pred_eq_of_pos hinv.first).symm⟩
  have hcore : (close env s c).core = (s.core.dissolve p).log (.dissolved p) := by
    rw [close, hfuel]
    exact core_closeFuel_dissolved hinv hopen hroute hseat howner
  have hconn : ∀ d, (close env s c).conn d
      = if d ∈ (s.room p).participants then (s.conn d).markClosed else s.conn d := by
    intro d
    rw [close, hfuel, closeFuel_owner hinv hopen hroute hseat howner]
    exact conn_emptied hinv htable hc d
  have hrooms : (close env s c).rooms = s.rooms.erase (s.room p).roomId :=
    congrArg Core.rooms hcore
  have hroom : (close env s c).room
      = Function.update s.room p { s.room p with closed := true, participants := ∅ } :=
    congrArg Core.room hcore
  have hroutes : ∀ d, (close env s c).connectionRoom d
      = if s.connectionRoom d = some p then none else s.connectionRoom d :=
    fun d => congrFun (congrArg Core.connectionRoom hcore) d
  have hseats : 1 ≤ cfg.maxParticipantsPerRoom := by
    have hfits := hinv.fits htable
    have hpos : 0 < (s.room p).participants.entries.length :=
      List.length_pos_of_mem (AList.mem_lookup_iff.mp hseat)
    exact Nat.lt_of_lt_of_le hpos hfits
  have htidy : Tidy s.core := Tidy.init.moves (Inv.init cfg) hseats h.moves hfew
  refine ⟨⟨?_, ?_⟩, ?_, ?_, ?_, ?_, ?_, ?_, ?_, ?_⟩
  · rw [State.getRoom, hrooms, AList.lookup_erase]
  · intro id hid
    rw [State.getRoom, hrooms] at hid
    by_cases hsame : id = (s.room p).roomId
    · rw [hsame, AList.lookup_erase] at hid
      simp at hid
    · rw [AList.lookup_erase_ne hsame] at hid
      exact hsame (hinv.listed hid).2.2.1.symm
  · rw [hroom, Function.update_self]
    exact ⟨rfl, rfl⟩
  · intro d hd
    have hcalls := (h.calledOnce d).2 (hinv.participant_open htable hd)
    rw [State.isOpen, hconn d, if_pos hd]
    exact ⟨rfl, by simp only [Connection.markClosed, hcalls]⟩
  · intro d hd
    rw [hroutes] at hd
    split at hd
    · simp at hd
    · rename_i hne
      exact hne hd
  · intro d
    rw [hconn d]
    split <;> exact ⟨rfl, rfl⟩
  · intro id hid
    rw [State.getRoom, hrooms, AList.lookup_erase_ne hid]
    rfl
  · intro q hq
    rw [hroom, Function.update_of_ne hq]
  · intro d hd
    have hne : s.connectionRoom d ≠ some p := fun hrouted => hd (htidy.member hrouted)
    rw [hroutes, if_neg hne]
  · intro d hd
    rw [hconn d, if_neg hd]

theorem teardown_sampleMeeting :
    TornDown 0 (stateAfter sampleMeeting) (close sampleEnv (stateAfter sampleMeeting) 1) :=
  have hseat : ((stateAfter sampleMeeting).room 0).participants.lookup 1
      = some ⟨0x0A000001, true⟩ := by decide +kernel
  teardown (.rest ⟨sampleMeeting, run_stateAfter (by decide +kernel)⟩) (by decide +kernel) hseat rfl

end CloudMeeting.Server
