/-
The handlers make only the moves described.

Each function of the service is followed once, in a state whose bookkeeping is
consistent, and what it does to the core is shown to be an act or a move.  Sending to
every participant reaches all of them, because participants are open.  The nested
calls of a room teardown stop at once, because the room is already marked closed when
they come back to it; so a nesting depth of two is all `close` ever uses.

The result is `step_moves`: whatever event the server handles, it makes moves.
-/
import CloudMeeting.Server.Membership

namespace CloudMeeting.Server

open Endian

variable {cfg : ServerConfig} {env : Env} {s : State}

/-! ### Sending -/

namespace Core

/-- Queue one frame for `c`. -/
def queue (k : Core) (c : ConnId) (data : Bytes) : Core :=
  { k with outgoing := Function.update k.outgoing c (k.outgoing c ++ [data]) }

/-- Queue one frame for everybody chosen. -/
def queueAll (k : Core) (chosen : ConnId → Bool) (data : Bytes) : Core :=
  { k with outgoing := fun d => k.outgoing d ++ if chosen d then [data] else [] }

/-- Close connections and forget where they are routed to. -/
def shutAll (k : Core) (cs : List ConnId) : Core :=
  { k with
    closed := fun d => k.closed d || decide (d ∈ cs)
    connectionRoom := fun d => if d ∈ cs then none else k.connectionRoom d }

/-- Mark a room as closed and take everybody out of it. -/
def vacate (k : Core) (p : RoomPtr) : Core :=
  { k with
    room := Function.update k.room p { k.room p with closed := true, participants := ∅ }
    history := k.history ++ [.dissolved p] }

/-- Forget the room of that id, and who is routed to it. -/
def cleanup (k : Core) (id : UInt32) : Core :=
  { k with
    connectionRoom := fun c =>
      match k.connectionRoom c with
      | some p => if (k.room p).roomId = id then none else some p
      | none => none
    rooms := k.rooms.erase id }

end Core

theorem core_updateConn (c : ConnId) (f : Connection → Connection) :
    (s.updateConn c f).core = { s.core with
      closed := Function.update s.core.closed c (f (s.conn c)).closed
      readBuffer := Function.update s.core.readBuffer c (f (s.conn c)).readBuffer
      received := Function.update s.core.received c (f (s.conn c)).received
      outgoing := Function.update s.core.outgoing c (f (s.conn c)).outgoing } := by
  have hfield : ∀ {β : Type} (g : Connection → β), (fun d => g ((s.updateConn c f).conn d))
      = Function.update (fun d => g (s.conn d)) c (g (f (s.conn c))) := by
    intro β g
    funext d
    simp only [State.updateConn, Function.update_apply]
    split <;> rfl
  simp only [State.core, hfield (·.closed), hfield (·.readBuffer), hfield (·.received),
    hfield (·.outgoing)]
  rfl

/-- Putting back what is there changes nothing. -/
theorem update_self_eq {β : Type} {g : ConnId → β} {c : ConnId} {v : β} (h : v = g c) :
    Function.update g c v = g := by
  rw [h, Function.update_eq_self]

/-- A change to what the core does not see. -/
theorem core_updateConn_same {c : ConnId} {f : Connection → Connection}
    (hclosed : (f (s.conn c)).closed = (s.conn c).closed)
    (hread : (f (s.conn c)).readBuffer = (s.conn c).readBuffer)
    (hreceived : (f (s.conn c)).received = (s.conn c).received)
    (hout : (f (s.conn c)).outgoing = (s.conn c).outgoing) : (s.updateConn c f).core = s.core := by
  rw [core_updateConn]
  ext1
  · exact update_self_eq hclosed
  · exact update_self_eq hread
  · exact update_self_eq hreceived
  · exact update_self_eq hout
  all_goals rfl

theorem core_doWrite (conn : Connection) :
    conn.doWrite.closed = conn.closed ∧ conn.doWrite.readBuffer = conn.readBuffer ∧
      conn.doWrite.received = conn.received ∧ conn.doWrite.outgoing = conn.outgoing := by
  unfold Connection.doWrite
  split <;> exact ⟨rfl, rfl, rfl, rfl⟩

/-- A frame sent to an open connection is queued. -/
theorem core_send {c : ConnId} {data : Bytes} (hopen : s.core.closed c = false)
    (hdata : data ≠ []) : (s.updateConn c (Connection.send data)).core = s.core.queue c data := by
  have hclosed : (s.conn c).closed = false := hopen
  have hlen : data.length ≠ 0 := fun h => hdata (List.length_eq_zero_iff.mp h)
  have hsend : Connection.send data (s.conn c)
      = Connection.doWrite { s.conn c with
          writeQueue := (s.conn c).writeQueue ++ [(Buffer.new data.length).write data]
          outgoing := (s.conn c).outgoing ++ [data] } := by
    simp only [Connection.send, hclosed, hlen]
    rfl
  obtain ⟨h1, h2, h3, h4⟩ := core_doWrite { s.conn c with
    writeQueue := (s.conn c).writeQueue ++ [(Buffer.new data.length).write data]
    outgoing := (s.conn c).outgoing ++ [data] }
  rw [core_updateConn, hsend, h1, h2, h3, h4]
  ext1
  · exact update_self_eq rfl
  · exact update_self_eq rfl
  · exact update_self_eq rfl
  all_goals rfl

theorem encode_ne_nil (packet : Packet) : Codec.encode packet ≠ [] := by
  simp [Codec.encode]

/-- Sending to a list of open connections, one of them excluded. -/
theorem core_foldl_send {data : Bytes} (hdata : data ≠ []) (exclude : ConnId) :
    ∀ {entries : Entries} {s : State}, entries.NodupKeys →
      (∀ item ∈ entries, s.core.closed item.1 = false) →
      (entries.foldl (fun s item =>
        if item.1 = exclude then s
        else if s.isOpen item.1 then s.updateConn item.1 (Connection.send data)
        else s) s).core
      = s.core.queueAll (fun d => d ∈ entries.keys ∧ d ≠ exclude) data := by
  intro entries
  induction entries with
  | nil => intro s _ _; simp [Core.queueAll]
  | cons item entries ih =>
      intro s hnodup hopen
      obtain ⟨hout, hnodup'⟩ := List.nodupKeys_cons.mp hnodup
      have hitem : s.core.closed item.1 = false := hopen item (by simp)
      have hisOpen : s.isOpen item.1 = true := by
        have : (s.conn item.1).closed = false := hitem
        simp [State.isOpen, Connection.isOpen, this]
      rw [List.foldl_cons]
      by_cases hex : item.1 = exclude
      · rw [if_pos hex, ih hnodup' fun x hx => hopen x (List.mem_cons_of_mem _ hx)]
        have hiff : ∀ d, (d ∈ entries.keys ∧ d ≠ exclude)
            ↔ (d ∈ (item :: entries).keys ∧ d ≠ exclude) := by
          intro d
          rw [List.keys_cons, List.mem_cons]
          constructor
          · exact fun h => ⟨Or.inr h.1, h.2⟩
          · intro hin
            obtain ⟨rfl | h, hne⟩ := hin
            · exact absurd hex hne
            · exact ⟨h, hne⟩
        simp only [hiff]
      · rw [if_neg hex, if_pos hisOpen, ih hnodup', core_send hitem hdata]
        · simp only [Core.queue, Core.queueAll]
          congr 1
          funext d
          by_cases hd : d = item.1
          · subst hd
            simp [hex, hout, List.keys_cons]
          · simp [hd, List.keys_cons]
        · intro x hx
          rw [core_send hitem hdata]
          exact hopen x (List.mem_cons_of_mem _ hx)

theorem entries_perm (env : Env) (s : State) (p : RoomPtr) :
    (s.entries env p).Perm (s.room p).participants.entries :=
  env.order_perm _ _

theorem entries_nodupKeys (env : Env) (s : State) (p : RoomPtr) :
    (s.entries env p).NodupKeys :=
  (List.perm_nodupKeys (entries_perm env s p)).mpr (s.room p).participants.nodupKeys

theorem mem_keys_entries {env : Env} {p : RoomPtr} {d : ConnId} :
    d ∈ (s.entries env p).keys ↔ d ∈ (s.room p).participants := by
  rw [AList.mem_keys]
  exact ((entries_perm env s p).map Sigma.fst).mem_iff

variable (env) in
/-- **A broadcast reaches every participant but the excluded one.** -/
theorem core_broadcast {p : RoomPtr} (packet : Packet) (exclude : ConnId)
    (hopen : ∀ d ∈ (s.room p).participants, s.core.closed d = false) :
    (broadcast env s p packet exclude).core
      = s.core.queueAll (fun d => d ∈ (s.room p).participants ∧ d ≠ exclude)
          (Codec.encode packet) := by
  rw [broadcast, core_foldl_send (encode_ne_nil packet) exclude (entries_nodupKeys env s p)]
  · simp only [mem_keys_entries]
  · intro item hitem
    exact hopen item.1 (mem_keys_entries.mp (List.mem_map_of_mem hitem))

/-- A record and the broadcast it stands for. -/
theorem core_record_broadcast {p : RoomPtr} {packet : Packet} {exclude : ConnId} {r : Record}
    (hopen : ∀ d ∈ (s.room p).participants, s.core.closed d = false)
    (hsends : ∀ d, r.sends d
      = if d ∈ (s.room p).participants ∧ d ≠ exclude then [packet] else []) :
    (broadcast env (s.record r) p packet exclude).core = s.core.log r := by
  rw [core_broadcast _ _ _ (s := s.record r) hopen]
  simp only [Core.log, Core.queueAll, hsends]
  congr 1
  funext d
  by_cases hd : d ∈ (s.room p).participants ∧ d ≠ exclude
  · simp [hd, State.record, State.core]
  · simp [hd, State.record, State.core]

/-- A record that sends nothing. -/
theorem core_record {r : Record} (hsends : ∀ d, r.sends d = []) :
    (s.record r).core = s.core.log r := by
  simp only [Core.log, hsends, List.map_nil, List.append_nil]
  rfl

/-- A record and the one answer it stands for. -/
theorem core_record_send {c : ConnId} {r : Record} {response : Packet}
    (hopen : s.core.closed c = false)
    (hsends : ∀ d, r.sends d = if c = d then [response] else []) :
    ((s.record r).updateConn c (Connection.send (Codec.encode response))).core
      = s.core.log r := by
  rw [core_send (s := s.record r) hopen (encode_ne_nil _)]
  simp only [Core.log, Core.queue, hsends]
  congr 1
  funext d
  by_cases hd : c = d
  · subst hd
    simp [State.core, State.record]
  · have hd' : d ≠ c := fun h => hd h.symm
    simp [hd, hd', State.core, State.record]

/-! ### Closing -/

theorem closed_of_isOpen {c : ConnId} : s.isOpen c = true ↔ s.core.closed c = false := by
  show (!(s.conn c).closed) = true ↔ (s.conn c).closed = false
  simp

theorem closed_of_not_isOpen {c : ConnId} : s.isOpen c = false ↔ s.core.closed c = true := by
  show (!(s.conn c).closed) = false ↔ (s.conn c).closed = true
  simp

/-- Marking a connection closed, and forgetting its route. -/
theorem core_close_mark (c : ConnId) :
    ({ s.updateConn c Connection.markClosed with
      connectionRoom := Function.update s.connectionRoom c none } : State).core
      = s.core.shut c := by
  have h := core_updateConn (s := s) c Connection.markClosed
  have hmark : (s.updateConn c Connection.markClosed).core
      = { s.core with closed := Function.update s.core.closed c true } := by
    rw [h]
    ext1
    · rfl
    · exact update_self_eq rfl
    · exact update_self_eq rfl
    · exact update_self_eq rfl
    all_goals rfl
  exact congrArg (fun k : Core => { k with
    connectionRoom := Function.update s.connectionRoom c none }) hmark

/-- Closing a connection that is routed nowhere. -/
theorem core_closeFuel_lobby {fuel : Nat} {c : ConnId} (hopen : s.core.closed c = false)
    (hlobby : s.connectionRoom c = none) :
    (closeFuel env (fuel + 1) s c).core = s.core.shut c := by
  have hclosed : (s.conn c).closed = false := hopen
  have hroute : Function.update s.connectionRoom c none = s.connectionRoom := by
    rw [← hlobby, Function.update_eq_self]
  rw [← core_close_mark, hroute]
  simp only [closeFuel, hclosed, onConnectionClose, State.updateConn, hlobby]
  rfl

variable (env) in
/-- Closing a connection whose room does not have it, or is closed already. -/
theorem core_closeFuel_stray (fuel : Nat) {c : ConnId} {p : RoomPtr}
    (hopen : s.core.closed c = false) (hroute : s.connectionRoom c = some p)
    (hout : (s.room p).closed = true ∨ c ∉ (s.room p).participants) :
    (closeFuel env (fuel + 1) s c).core = s.core.shut c := by
  have hclosed : (s.conn c).closed = false := hopen
  rw [← core_close_mark]
  simp only [closeFuel, hclosed, onConnectionClose, State.updateConn, hroute, removeParticipant]
  rcases hout with hout | hout
  · simp [hout]
  · simp [AList.lookup_eq_none.mpr hout]

/-- Closing, one by one, the connections a closed room had. -/
theorem core_foldl_close {fuel : Nat} {p : RoomPtr} :
    ∀ {entries : Entries} {s : State}, entries.NodupKeys → (s.room p).closed = true →
      (∀ item ∈ entries, s.core.closed item.1 = false ∧ s.connectionRoom item.1 = some p) →
      (entries.foldl (fun s item =>
        if s.isOpen item.1 then closeFuel env (fuel + 1) s item.1 else s) s).core
      = s.core.shutAll entries.keys := by
  intro entries
  induction entries with
  | nil => intro s _ _ _; simp [Core.shutAll]
  | cons item entries ih =>
      intro s hnodup hclosed hitems
      obtain ⟨hout, hnodup'⟩ := List.nodupKeys_cons.mp hnodup
      obtain ⟨hopen, hroute⟩ := hitems item (by simp)
      have hshut := core_closeFuel_stray env fuel hopen hroute (Or.inl hclosed)
      have hroom : (closeFuel env (fuel + 1) s item.1).room = s.room :=
        congrArg Core.room hshut
      rw [List.foldl_cons, if_pos (closed_of_isOpen.mpr hopen),
        ih hnodup' (by rw [hroom]; exact hclosed)]
      · rw [hshut]
        simp only [Core.shut, Core.shutAll]
        congr 1
        · funext d
          by_cases hd : d = item.1
          · simp [hd, List.keys_cons]
          · simp [hd, List.keys_cons]
        · funext d
          by_cases hd : d = item.1
          · simp [hd, List.keys_cons]
          · simp [hd, List.keys_cons]
      · intro x hx
        obtain ⟨hx1, hx2⟩ := hitems x (List.mem_cons_of_mem _ hx)
        have hne : x.1 ≠ item.1 := fun heq =>
          hout (heq ▸ List.mem_map_of_mem hx)
        have hcr : (closeFuel env (fuel + 1) s item.1).connectionRoom x.1
            = (s.core.shut item.1).connectionRoom x.1 :=
          congrFun (congrArg Core.connectionRoom hshut) x.1
        rw [hcr, hshut]
        simp only [Core.shut, Function.update_apply, if_neg hne]
        exact ⟨hx1, hx2⟩

theorem core_updateRoom (p : RoomPtr) (f : Room → Room) :
    (s.updateRoom p f).core
      = { s.core with room := Function.update s.core.room p (f (s.core.room p)) } := rfl

/-- The state once a connection is marked closed, routed nowhere and no participant of its room. -/
def unseat (s : State) (c : ConnId) (p : RoomPtr) : State :=
  State.updateRoom { s.updateConn c Connection.markClosed with
    connectionRoom := Function.update s.connectionRoom c none } p
    fun room => { room with participants := room.participants.erase c }

theorem room_unseat (c : ConnId) (p : RoomPtr) :
    (unseat s c p).room p
      = { s.room p with participants := (s.room p).participants.erase c } :=
  Function.update_self ..

theorem core_unseat (c : ConnId) (p : RoomPtr) :
    (unseat s c p).core
      = (s.core.shut c).setParticipants p ((s.room p).participants.erase c) := by
  unfold unseat
  rw [core_updateRoom, core_close_mark]
  rfl

theorem core_cleanupRoom (id : UInt32) : (cleanupRoom s id).core = s.core.cleanup id := rfl

/-- What `on_connection_close` leaves when a plain member goes. -/
theorem core_closeFuel_left {fuel : Nat} {c : ConnId} {p : RoomPtr} {participant : Participant}
    (h : Inv cfg s.core) (hopen : s.core.closed c = false) (hroute : s.connectionRoom c = some p)
    (hseat : (s.room p).participants.lookup c = some participant)
    (howner : participant.isOwner = false) :
    (closeFuel env (fuel + 1) s c).core
      = ((s.core.shut c).setParticipants p ((s.room p).participants.erase c)).log
          (.left p c participant ((s.room p).participants.erase c)) := by
  have hclosed : (s.conn c).closed = false := hopen
  have hlive : (s.room p).closed = false := (h.listed (h.routed hroute).2).2.2.2.1
  have hrun : closeFuel env (fuel + 1) s c
      = broadcast env ((unseat s c p).record
          (.left p c participant ((unseat s c p).room p).participants)) p
          { type := .partnerExit, ip := participant.ipNetwork } := by
    simp only [closeFuel, hclosed, onConnectionClose, State.updateConn, hroute, removeParticipant,
      hlive, hseat, howner]
    rfl
  have hin : ∀ d ∈ ((unseat s c p).room p).participants, d ∈ (s.room p).participants ∧ d ≠ c := by
    intro d hd
    rw [room_unseat] at hd
    exact ⟨(AList.mem_erase.mp hd).2, (AList.mem_erase.mp hd).1⟩
  rw [hrun, core_record_broadcast, core_unseat, room_unseat]
  · intro d hd
    obtain ⟨hd, hdc⟩ := hin d hd
    rw [core_unseat]
    simp only [Core.setParticipants, Core.shut, Function.update_apply, if_neg hdc]
    exact h.participant_open (h.routed hroute).2 hd
  · intro d
    by_cases hd : d ∈ ((unseat s c p).room p).participants
    · -- no participant has the id 0 that excludes nobody
      have hpos := (h.born (h.participant_open (h.routed hroute).2 (hin d hd).1)).1
      rw [Record.sends, if_pos hd, if_pos ⟨hd, Nat.ne_of_gt hpos⟩]
    · rw [Record.sends, if_neg hd, if_neg fun hboth => hd hboth.1]

/-- Closing the owner of a room and then everybody else in it, and cleaning up after the room, is
dissolving it. -/
theorem cleanup_shutAll_vacate {k : Core} (h : Inv cfg k) {c : ConnId} {p : RoomPtr}
    {cs : List ConnId} (hroute : k.connectionRoom c = some p)
    (hc : c ∈ (k.room p).participants)
    (hcs : ∀ d, d ∈ cs ↔ d ≠ c ∧ d ∈ (k.room p).participants) :
    (((k.shut c).vacate p).shutAll cs).cleanup (k.room p).roomId
      = (k.dissolve p).log (.dissolved p) := by
  have htable := (h.routed hroute).2
  have hclosed : ∀ d, (Function.update k.closed c true d || decide (d ∈ cs))
      = (k.closed d || decide (d ∈ (k.room p).participants)) := by
    intro d
    by_cases hd : d = c
    · simp [hd, hc]
    · simp only [Function.update_apply, hcs, ne_eq, hd, not_false_eq_true, true_and, if_false]
  have hid : ∀ q, (Function.update k.room p
      { k.room p with closed := true, participants := ∅ } q).roomId = (k.room q).roomId := by
    intro q
    by_cases hq : q = p
    · rw [hq, Function.update_self]
    · rw [Function.update_of_ne hq]
  have hroutes : ∀ d, (match if d ∈ cs then none else Function.update k.connectionRoom c none d with
      | some q => if (k.room q).roomId = (k.room p).roomId then none else some q
      | none => none) = if k.connectionRoom d = some p then none else k.connectionRoom d := by
    intro d
    by_cases hd : d = c
    · simp [hd, hroute]
    by_cases hmem : d ∈ (k.room p).participants
    · have hin : d ∈ cs := (hcs d).mpr ⟨hd, hmem⟩
      simp [hin, h.seated htable hmem]
    · have hout : d ∉ cs := fun hin => hmem ((hcs d).mp hin).2
      rw [if_neg hout, Function.update_of_ne hd]
      cases hdq : k.connectionRoom d with
      | none => simp
      | some q =>
          -- two rooms in the table have different ids
          have hiff : (k.room q).roomId = (k.room p).roomId ↔ q = p := by
            constructor
            · exact Inv.eq_of_roomId (h.routed hdq).2 htable
            · intro hqp
              rw [hqp]
          simp only [hiff, Option.some.injEq]
  simp only [Core.cleanup, Core.shutAll, Core.vacate, Core.shut, hclosed, hid, hroutes]
  simp [Core.log, Core.dissolve, Record.sends]

/-- The state once the owner has left and its room is closed, with nobody in it. -/
def doomed (s : State) (c : ConnId) (p : RoomPtr) : State :=
  ((unseat s c p).record (.dissolved p)).updateRoom p fun room =>
    { room with closed := true, participants := ∅ }

/-- The state once the other participants have been closed as well. -/
def emptied (env : Env) (fuel : Nat) (s : State) (c : ConnId) (p : RoomPtr) : State :=
  ((unseat s c p).entries env p).foldl
    (fun s item => if s.isOpen item.1 then closeFuel env (fuel + 1) s item.1 else s) (doomed s c p)

theorem core_doomed (c : ConnId) (p : RoomPtr) :
    (doomed s c p).core = (s.core.shut c).vacate p := by
  unfold doomed
  rw [core_updateRoom, core_record fun _ => rfl, core_unseat]
  simp [Core.vacate, Core.setParticipants, Core.log, Core.shut, Record.sends, State.core]

theorem room_doomed (c : ConnId) (p : RoomPtr) :
    (doomed s c p).room p = { s.room p with closed := true, participants := ∅ } := by
  have hroom : (doomed s c p).room = (doomed s c p).core.room := rfl
  rw [hroom, core_doomed]
  exact Function.update_self ..

theorem mem_keys_unseat {c d : ConnId} {p : RoomPtr} :
    d ∈ ((unseat s c p).entries env p).keys ↔ d ≠ c ∧ d ∈ (s.room p).participants := by
  rw [mem_keys_entries, room_unseat, AList.mem_erase]

/-- The other participants are still open and routed to the room when it is closed. -/
theorem doomed_members (h : Inv cfg s.core) {c : ConnId} {p : RoomPtr} (htable : s.core.InTable p)
    {item : Sigma fun _ : ConnId => Participant} (hitem : item ∈ (unseat s c p).entries env p) :
    (doomed s c p).core.closed item.1 = false ∧ (doomed s c p).connectionRoom item.1 = some p := by
  obtain ⟨hne, hmem⟩ := mem_keys_unseat.mp (List.mem_map_of_mem hitem)
  have hcr : (doomed s c p).connectionRoom = (doomed s c p).core.connectionRoom := rfl
  rw [hcr, core_doomed]
  simp only [Core.vacate, Core.shut, Function.update_apply, if_neg hne]
  exact ⟨h.participant_open htable hmem, h.seated htable hmem⟩

theorem core_emptied {fuel : Nat} (h : Inv cfg s.core) {c : ConnId} {p : RoomPtr}
    (htable : s.core.InTable p) :
    (emptied env fuel s c p).core
      = ((s.core.shut c).vacate p).shutAll ((unseat s c p).entries env p).keys := by
  rw [← core_doomed]
  exact core_foldl_close (entries_nodupKeys env _ p) (by rw [room_doomed])
    fun item hitem => doomed_members h htable hitem

/-- Closing the owner of a room closes the others and cleans up after the room. -/
theorem closeFuel_owner {fuel : Nat} {c : ConnId} {p : RoomPtr} {participant : Participant}
    (h : Inv cfg s.core) (hopen : s.core.closed c = false) (hroute : s.connectionRoom c = some p)
    (hseat : (s.room p).participants.lookup c = some participant)
    (howner : participant.isOwner = true) :
    closeFuel env (fuel + 2) s c = cleanupRoom (emptied env fuel s c p) (s.room p).roomId := by
  have hclosed : (s.conn c).closed = false := hopen
  have htable := (h.routed hroute).2
  obtain ⟨-, -, -, hlive, hcallback⟩ := h.listed htable
  have hlive' : (s.room p).closed = false := hlive
  have hroom : (emptied env fuel s c p).room p
      = { s.room p with closed := true, participants := ∅ } := by
    rw [← room_doomed c p]
    have hcore : (emptied env fuel s c p).core.room = (doomed s c p).core.room := by
      rw [core_emptied h htable, core_doomed]
      rfl
    exact congrFun hcore p
  have hclose : closeFuel env (fuel + 2) s c
      = if ((emptied env fuel s c p).room p).closeCallback then
          cleanupRoom (emptied env fuel s c p) ((emptied env fuel s c p).room p).roomId
        else emptied env fuel s c p := by
    simp only [closeFuel, hclosed, onConnectionClose, State.updateConn, hroute,
      removeParticipant, hlive', hseat, howner]
    have hleft : ((unseat s c p).room p).closed = false := by
      rw [room_unseat]
      exact hlive
    show closeRoom env (closeFuel env (fuel + 1)) (unseat s c p) p = _
    simp only [closeRoom, hleft]
    rfl
  have hcb : (s.room p).closeCallback = true := hcallback
  rw [hclose, hroom]
  exact if_pos hcb

/-- What `on_connection_close` leaves when the owner goes: the room and everybody in it. -/
theorem core_closeFuel_dissolved {fuel : Nat} {c : ConnId} {p : RoomPtr}
    {participant : Participant}
    (h : Inv cfg s.core) (hopen : s.core.closed c = false) (hroute : s.connectionRoom c = some p)
    (hseat : (s.room p).participants.lookup c = some participant)
    (howner : participant.isOwner = true) :
    (closeFuel env (fuel + 2) s c).core = (s.core.dissolve p).log (.dissolved p) := by
  have hc : c ∈ (s.room p).participants := AList.lookup_isSome.mp (by rw [hseat]; rfl)
  rw [closeFuel_owner h hopen hroute hseat howner, core_cleanupRoom,
    core_emptied h (h.routed hroute).2]
  exact cleanup_shutAll_vacate h hroute hc fun d => mem_keys_unseat

variable (env) in
/-- **Closing an open connection is one act**, after which it is closed. -/
theorem close_act (h : Inv cfg s.core) {c : ConnId} (hopen : s.core.closed c = false) :
    Act cfg env s.core (close env s c).core ∧ (close env s c).core.closed c = true := by
  have hfirst : 0 < s.nextConnId := h.first
  obtain ⟨fuel, hfuel⟩ : ∃ fuel, s.nextConnId = fuel + 1 :=
    ⟨s.nextConnId - 1, (Nat.succ_pred_eq_of_pos hfirst).symm⟩
  have hshut : (s.core.shut c).closed c = true := Function.update_self ..
  rw [close, hfuel]
  cases hroute : s.connectionRoom c with
  | none =>
      rw [core_closeFuel_lobby hopen hroute]
      refine ⟨.alone c hopen fun p hp => ?_, hshut⟩
      have : s.connectionRoom c = some p := hp
      rw [hroute] at this
      simp at this
  | some p =>
      cases hseat : (s.room p).participants.lookup c with
      | none =>
          have hout : c ∉ (s.room p).participants := AList.lookup_eq_none.mp hseat
          rw [core_closeFuel_stray _ _ hopen hroute (Or.inr hout)]
          refine ⟨.alone c hopen fun q hq => ?_, hshut⟩
          have hqp : s.connectionRoom c = some q := hq
          rw [hroute, Option.some.injEq] at hqp
          exact hqp ▸ hout
      | some participant =>
          cases howner : participant.isOwner with
          | false =>
              rw [core_closeFuel_left h hopen hroute hseat howner]
              exact ⟨.left c p participant hopen hroute hseat howner, hshut⟩
          | true =>
              have hc : c ∈ (s.core.room p).participants :=
                AList.lookup_isSome.mp (Option.isSome_iff_exists.mpr ⟨_, hseat⟩)
              rw [core_closeFuel_dissolved h hopen hroute hseat howner]
              refine ⟨.dissolved c p participant hopen hroute hseat howner, ?_⟩
              simp [Core.dissolve, hc]

theorem close_of_closed {c : ConnId} (hclosed : s.core.closed c = true) : close env s c = s := by
  have : (s.conn c).closed = true := hclosed
  simp [close, closeFuel, this]

variable (env) in
theorem close_acts (h : Inv cfg s.core) (c : ConnId) :
    Acts cfg env s.core (close env s c).core := by
  cases hopen : s.core.closed c with
  | false => exact .single (close_act env h hopen).1
  | true => rw [close_of_closed hopen]

/-! ### Rooms and the lobby -/

theorem core_peerIpNetwork (c : ConnId) : (peerIpNetwork env s c).2.core = s.core := by
  exact core_updateConn_same (s := s) (c := c)
    (f := fun conn => { conn with peerCalls := conn.peerCalls + 1 }) rfl rfl rfl rfl

variable (env) in
theorem core_addParticipant (isOwner : Bool) {p : RoomPtr} {c : ConnId}
    (hlive : (s.room p).closed = false) (hopen : s.core.closed c = false)
    (hspace : (s.room p).participants.entries.length < cfg.maxParticipantsPerRoom)
    (hout : c ∉ (s.room p).participants) :
    (addParticipant cfg env s p c isOwner).1 = true ∧
      (addParticipant cfg env s p c isOwner).2.core
        = s.core.setParticipants p
            ((s.room p).participants.insert c ⟨env.peerIp c (s.conn c).peerCalls, isOwner⟩) := by
  have hisOpen : s.isOpen c = true := closed_of_isOpen.mpr hopen
  have hfull : ¬ (s.room p).participants.entries.length ≥ cfg.maxParticipantsPerRoom :=
    Nat.not_le_of_lt hspace
  have hrun : addParticipant cfg env s p c isOwner = (true, (peerIpNetwork env s c).2.updateRoom p
      fun room => if c ∈ room.participants then room
        else { room with participants :=
          room.participants.insert c ⟨env.peerIp c (s.conn c).peerCalls, isOwner⟩ }) := by
    simp only [addParticipant, hlive, hisOpen, hfull]
    rfl
  rw [hrun]
  refine ⟨rfl, ?_⟩
  rw [core_updateRoom, core_peerIpNetwork]
  have hroom : s.core.room p = s.room p := rfl
  rw [hroom, if_neg hout]
  rfl

/-- A room nobody may sit in turns everybody away. -/
theorem addParticipant_full {p : RoomPtr} {c : ConnId} {isOwner : Bool}
    (hfull : cfg.maxParticipantsPerRoom ≤ (s.room p).participants.entries.length) :
    addParticipant cfg env s p c isOwner = (false, s) := by
  rw [addParticipant, if_pos (c := _ ≥ _) hfull, ite_self]

/-- A packet handed to a room is relayed as its record says. -/
theorem core_dispatch_room (h : Inv cfg s.core) {c : ConnId} {p : RoomPtr} {packet : Packet}
    (hroute : s.connectionRoom c = some p) :
    (dispatch cfg env s c packet).core
      = s.core.log (.packet c packet (s.core.presentFor c)) := by
  have htable := (h.routed hroute).2
  have hlive : (s.room p).closed = false := (h.listed htable).2.2.2.1
  have hpresent : s.core.presentFor c = (s.room p).participants := by
    show (match s.connectionRoom c with
      | some p => (s.room p).participants
      | none => ∅) = _
    rw [hroute]
  have hrun : dispatch cfg env s c packet
      = handlePacket env (s.record (.packet c packet (s.core.presentFor c))) p c packet := by
    simp only [dispatch, State.record, hroute]
    rfl
  rw [hrun, hpresent]
  simp only [handlePacket, State.record, hlive]
  cases hseat : (s.room p).participants.lookup c with
  | none =>
      apply core_record
      intro d
      simp only [Record.sends, hseat]
  | some participant =>
      cases hout : outbound participant.ipNetwork packet with
      | none =>
          simp only [hout]
          apply core_record
          intro d
          simp [Record.sends, hseat, hout]
      | some relayed =>
          simp only [hout]
          apply core_record_broadcast (fun d hd => h.participant_open htable hd)
          intro d
          simp only [Record.sends, hseat, hout, Option.toList_some]
          by_cases hd : d ∈ (s.room p).participants <;> by_cases hdc : d = c <;> simp [hd, hdc]

/-- A packet handed to the lobby only leaves its record there, before it is handled. -/
theorem core_record_lobby (c : ConnId) (packet : Packet) :
    (s.record (.packet c packet ∅)).core = s.core.log (.packet c packet ∅) :=
  core_record fun d => by simp [Record.sends]

theorem core_emplaceRoute {c : ConnId} {p : RoomPtr} (hlobby : s.connectionRoom c = none) :
    (emplaceRoute s c p).core = s.core.route c p := by
  simp only [emplaceRoute, hlobby]
  rfl

theorem core_emplaceRoute_updateRoom {c : ConnId} {p q : RoomPtr} {f : Room → Room}
    (hlobby : s.connectionRoom c = none) :
    (emplaceRoute (s.updateRoom q f) c p).core = (s.updateRoom q f).core.route c p :=
  core_emplaceRoute (s := s.updateRoom q f) hlobby

/-- Answering a request without seating anybody. -/
theorem acts_answered {c : ConnId} {response : Packet} (hopen : s.core.closed c = false)
    (hlobby : s.connectionRoom c = none)
    (htype : response.type = .createMeetingResponse ∨ response.type = .joinMeetingResponse)
    (hlen : response.payload.length = 4) :
    Acts cfg env s.core ((s.record (.answered c response)).updateConn c
      (Connection.send (Codec.encode response))).core := by
  rw [core_record_send hopen fun d => rfl]
  exact .single (.answered c response hopen hlobby htype hlen)

theorem createMeetingResponse_length (roomNo : UInt32) :
    (createMeetingResponse roomNo).payload.length = 4 :=
  length_store32 roomNo

theorem joinMeetingResponse_length (value : UInt32) :
    (joinMeetingResponse value).payload.length = 4 :=
  length_store32 value

/-! ### Creating a room -/

theorem build_setParticipants (k : Core) (room : Room) (participants : Participants) :
    (k.build room).setParticipants k.nextRoom participants
      = k.build { room with participants := participants } := by
  simp only [Core.build, Core.setParticipants, Function.update_self, Function.update_idem]

variable (cfg env) in
/-- The room made for `owner`, with the owner in it if it has a seat. -/
theorem core_addOwner {c : ConnId} (hopen : s.core.closed c = false) (empty : State)
    (hempty : empty.core = s.core.build { roomId := s.nextRoomId }) :
    ∃ participants : Participants,
      ((cfg.maxParticipantsPerRoom = 0 ∧ participants = ∅) ∨
        (0 < cfg.maxParticipantsPerRoom ∧
          ∃ n, participants = AList.singleton c ⟨env.peerIp c n, true⟩)) ∧
      (addParticipant cfg env empty s.nextRoom c true).2.core
        = s.core.build { roomId := s.nextRoomId, participants := participants } := by
  have hroom : empty.room s.nextRoom = { roomId := s.nextRoomId } := by
    have : empty.room = empty.core.room := rfl
    rw [this, hempty]
    exact Function.update_self ..
  have hopen' : empty.core.closed c = false := by rw [hempty]; exact hopen
  rcases Nat.eq_zero_or_pos cfg.maxParticipantsPerRoom with hnone | hsome
  · refine ⟨∅, Or.inl ⟨hnone, rfl⟩, ?_⟩
    rw [addParticipant_full (by rw [hnone]; exact Nat.zero_le _), hempty]
  · refine ⟨AList.singleton c ⟨env.peerIp c (empty.conn c).peerCalls, true⟩,
      Or.inr ⟨hsome, _, rfl⟩, ?_⟩
    rw [(core_addParticipant _ _ (by rw [hroom]) hopen' (by rw [hroom]; exact hsome)
      (by rw [hroom]; exact AList.notMem_empty c)).2, hempty, hroom, AList.insert_empty]
    exact build_setParticipants s.core _ _

variable (env) in
/-- A room object is made; it gets into the table if its id is not there already. -/
theorem core_createRoom {c : ConnId} (hopen : s.core.closed c = false)
    (hrooms : s.rooms.entries.length < cfg.maxRooms) :
    ∃ participants : Participants,
      ((cfg.maxParticipantsPerRoom = 0 ∧ participants = ∅) ∨
        (0 < cfg.maxParticipantsPerRoom ∧
          ∃ n, participants = AList.singleton c ⟨env.peerIp c n, true⟩)) ∧
      (createRoom cfg env s c).1 = some s.nextRoomId ∧
      (s.nextRoomId ∈ s.rooms → (createRoom cfg env s c).2.core
        = s.core.build { roomId := s.nextRoomId, participants := participants }) ∧
      (s.nextRoomId ∉ s.rooms → (createRoom cfg env s c).2.core
        = { s.core.build { roomId := s.nextRoomId, participants := participants } with
            rooms := s.rooms.insert s.nextRoomId s.nextRoom }) := by
  have hisOpen : s.isOpen c = true := closed_of_isOpen.mpr hopen
  have hspare : ¬ s.rooms.entries.length ≥ cfg.maxRooms := Nat.not_le_of_lt hrooms
  let empty : State := State.updateRoom
    { s with nextRoomId := s.nextRoomId + 1, nextRoom := s.nextRoom + 1 } s.nextRoom
    fun _ => { roomId := s.nextRoomId }
  obtain ⟨participants, hparticipants, hadd⟩ :=
    core_addOwner cfg env hopen empty rfl
  let seated := (addParticipant cfg env empty s.nextRoom c true).2
  have htable : seated.rooms = s.rooms := congrArg Core.rooms hadd
  have hrun : createRoom cfg env s c = (some s.nextRoomId,
      if s.nextRoomId ∈ seated.rooms then seated
      else { seated with rooms := seated.rooms.insert s.nextRoomId s.nextRoom }) := by
    simp only [createRoom, hisOpen, hspare]
    rfl
  refine ⟨participants, hparticipants, by rw [hrun], ?_, ?_⟩
  · intro hold
    rw [hrun, htable, if_pos hold]
    exact hadd
  · intro hnew
    rw [hrun, htable, if_neg hnew, ← hadd]
    rfl

/-- A create request that gets a room is answered with its id. -/
theorem handleCreateMeeting_some {c : ConnId} {id : UInt32} {p : RoomPtr}
    (hcreate : (createRoom cfg env s c).1 = some id)
    (hget : (createRoom cfg env s c).2.getRoom id = some p)
    (hlobby : (createRoom cfg env s c).2.connectionRoom c = none) :
    let room := { (createRoom cfg env s c).2.room p with closeCallback := true }
    let r : Record :=
      if c ∈ room.participants then .hosted p c (createMeetingResponse (htonl id))
      else .answered c (createMeetingResponse (htonl id))
    handleCreateMeeting cfg env s c
      = ((emplaceRoute ((createRoom cfg env s c).2.updateRoom p fun room =>
          { room with closeCallback := true }) c p).record r).updateConn c
          (Connection.send (Codec.encode (createMeetingResponse (htonl id)))) := by
  obtain ⟨res, hres⟩ : ∃ res, createRoom cfg env s c = res := ⟨_, rfl⟩
  obtain ⟨created, s'⟩ := res
  rw [hres] at hcreate hget hlobby
  simp only at hcreate hget hlobby
  subst hcreate
  have hroom : ((emplaceRoute (s'.updateRoom p fun room => { room with closeCallback := true })
      c p).room p) = { s'.room p with closeCallback := true } := by
    simp only [emplaceRoute, State.updateRoom, hlobby]
    exact Function.update_self ..
  simp only [handleCreateMeeting, hres, hget, hroom]

variable (env) in
/-- A new id leads to the room just made, with its owner in it if there is a seat. -/
theorem core_handleCreateMeeting_new {c : ConnId} (hopen : s.core.closed c = false)
    (hlobby : s.connectionRoom c = none) (hrooms : s.rooms.entries.length < cfg.maxRooms)
    (hnew : s.nextRoomId ∉ s.rooms) :
    let response := createMeetingResponse (htonl s.nextRoomId)
    (cfg.maxParticipantsPerRoom = 0 ∧
      (handleCreateMeeting cfg env s c).core = (s.core.found c ∅).log (.answered c response)) ∨
    (0 < cfg.maxParticipantsPerRoom ∧ ∃ n, (handleCreateMeeting cfg env s c).core
      = (s.core.found c (AList.singleton c ⟨env.peerIp c n, true⟩)).log
          (.hosted s.nextRoom c response)) := by
  obtain ⟨participants, hparticipants, hsome, -, hfresh⟩ := core_createRoom env hopen hrooms
  have hcore := hfresh hnew
  have hlobby' : (createRoom cfg env s c).2.connectionRoom c = none := by
    show (createRoom cfg env s c).2.core.connectionRoom c = none
    rw [hcore]
    exact hlobby
  have hget : (createRoom cfg env s c).2.getRoom s.nextRoomId = some s.nextRoom := by
    show (createRoom cfg env s c).2.core.rooms.lookup _ = _
    rw [hcore]
    exact AList.lookup_insert _
  have hroom : (createRoom cfg env s c).2.room s.nextRoom
      = { roomId := s.nextRoomId, participants := participants } := by
    show (createRoom cfg env s c).2.core.room s.nextRoom = _
    rw [hcore]
    exact Function.update_self ..
  have hfound : (emplaceRoute ((createRoom cfg env s c).2.updateRoom s.nextRoom fun room =>
      { room with closeCallback := true }) c s.nextRoom).core = s.core.found c participants := by
    rw [core_emplaceRoute_updateRoom hlobby', core_updateRoom]
    have hcroom : (createRoom cfg env s c).2.core.room s.nextRoom
        = { roomId := s.nextRoomId, participants := participants } := hroom
    have hnext : s.core.nextRoom = s.nextRoom := rfl
    rw [hcroom, hcore]
    simp only [Core.found, Core.build, Core.route, hnext, Function.update_idem]
    rfl
  simp only []
  rw [handleCreateMeeting_some hsome hget hlobby', hroom]
  rcases hparticipants with ⟨hnone, rfl⟩ | ⟨hseats, n, rfl⟩
  · refine Or.inl ⟨hnone, ?_⟩
    rw [if_neg (AList.notMem_empty c), core_record_send _ fun d => rfl, hfound]
    rw [hfound]
    exact hopen
  · refine Or.inr ⟨hseats, n, ?_⟩
    have hself : c ∈ (AList.singleton c ⟨env.peerIp c n, true⟩ : Participants) := by
      simp [AList.mem_keys]
    rw [if_pos hself, core_record_send _ fun d => rfl, hfound]
    rw [hfound]
    exact hopen

variable (env) in
/-- An id that is taken leads to the old room; the one just made is dropped. -/
theorem core_handleCreateMeeting_taken (h : Inv cfg s.core) {c : ConnId} {p : RoomPtr}
    (hopen : s.core.closed c = false) (hlobby : s.connectionRoom c = none)
    (hrooms : s.rooms.entries.length < cfg.maxRooms) (hp : s.rooms.lookup s.nextRoomId = some p) :
    ∃ participants : Participants, (handleCreateMeeting cfg env s c).core
      = ((s.core.build { roomId := s.nextRoomId, participants := participants }).route c p).log
          (.answered c (createMeetingResponse (htonl s.nextRoomId))) := by
  obtain ⟨participants, -, hsome, hcollide, -⟩ := core_createRoom env hopen hrooms
  have hcore := hcollide (AList.lookup_isSome.mp (Option.isSome_iff_exists.mpr ⟨p, hp⟩))
  have hlobby' : (createRoom cfg env s c).2.connectionRoom c = none := by
    show (createRoom cfg env s c).2.core.connectionRoom c = none
    rw [hcore]
    exact hlobby
  have hlt : p < s.nextRoom := (h.listed hp).1
  have hget : (createRoom cfg env s c).2.getRoom s.nextRoomId = some p := by
    show (createRoom cfg env s c).2.core.rooms.lookup _ = _
    rw [hcore]
    exact hp
  have hroom : (createRoom cfg env s c).2.room p = s.room p := by
    show (createRoom cfg env s c).2.core.room p = _
    rw [hcore]
    exact Function.update_of_ne (Nat.ne_of_lt hlt) ..
  have hcallback : ({ s.room p with closeCallback := true } : Room) = s.room p := by
    have : (s.room p).closeCallback = true := (h.listed hp).2.2.2.2
    rw [← this]
  have hout : c ∉ (s.room p).participants := h.not_seated hlobby (h.inTable_of_lookup hp)
  have hsame : ((createRoom cfg env s c).2.updateRoom p fun room =>
      { room with closeCallback := true }).core = (createRoom cfg env s c).2.core := by
    rw [core_updateRoom]
    have : (createRoom cfg env s c).2.core.room p = s.room p := hroom
    rw [this, hcallback, ← this, Function.update_eq_self]
  refine ⟨participants, ?_⟩
  rw [handleCreateMeeting_some hsome hget hlobby', hroom, if_neg hout,
    core_record_send _ fun d => rfl, core_emplaceRoute_updateRoom hlobby', hsame, hcore]
  rw [core_emplaceRoute_updateRoom hlobby', hsame, hcore]
  exact hopen

/-- **Handling a create request is one act.** -/
theorem handleCreateMeeting_acts (h : Inv cfg s.core) {c : ConnId}
    (hopen : s.core.closed c = false) (hlobby : s.connectionRoom c = none) :
    Acts cfg env s.core (handleCreateMeeting cfg env s c).core := by
  by_cases hrooms : s.rooms.entries.length < cfg.maxRooms
  · by_cases hin : s.nextRoomId ∈ s.rooms
    · obtain ⟨p, hp⟩ := Option.isSome_iff_exists.mp (AList.lookup_isSome.mpr hin)
      obtain ⟨participants, hcore⟩ :=
        core_handleCreateMeeting_taken env h hopen hlobby hrooms hp
      rw [hcore]
      exact .single (.collided c p participants hopen hlobby hrooms hp _ rfl)
    · rcases core_handleCreateMeeting_new env hopen hlobby hrooms hin with
        ⟨hnone, hcore⟩ | ⟨hseats, n, hcore⟩
      · rw [hcore]
        exact .single (.vacant c hopen hlobby hrooms hin hnone _ rfl)
      · rw [hcore]
        exact .single (.hosted c n hopen hlobby hrooms hin hseats _ rfl)
  · have hisOpen : s.isOpen c = true := closed_of_isOpen.mpr hopen
    have hfull : s.rooms.entries.length ≥ cfg.maxRooms := Nat.le_of_not_lt hrooms
    have hrun : createRoom cfg env s c = (none, s) := by
      simp [createRoom, hisOpen, hfull]
    simp only [handleCreateMeeting, hrun]
    exact acts_answered hopen hlobby (Or.inl rfl) (createMeetingResponse_length 0)

/-! ### Joining a room -/

theorem send_peerCalls (data : Bytes) (conn : Connection) :
    (Connection.send data conn).peerCalls = conn.peerCalls := by
  unfold Connection.send
  split
  · rfl
  · simp only [Connection.doWrite]
    split <;> rfl

/-- The record of a newcomer who has just sat down. -/
def joinedRecord (env : Env) (s : State) (p : RoomPtr) (c : ConnId) (response : Packet) : Record :=
  .joined p c response (env.peerIp c (s.conn c).peerCalls)
    ((env.order (s.history.length + 1) (s.room p).participants.entries).filter
      fun item => item.1 ≠ c)

theorem mem_filter_order {participants : Participants} {c d : ConnId} (n : Nat) (hd : d ≠ c) :
    d ∈ ((env.order n participants.entries).filter fun item => item.1 ≠ c).map (·.1) ↔
      d ∈ participants := by
  rw [AList.mem_keys, List.mem_map]
  have hperm := env.order_perm n participants.entries
  constructor
  · intro hin
    obtain ⟨item, hitem, rfl⟩ := hin
    exact List.mem_map_of_mem (hperm.mem_iff.mp (List.mem_filter.mp hitem).1)
  · intro hmem
    obtain ⟨item, hitem, rfl⟩ := List.mem_map.mp hmem
    refine ⟨item, List.mem_filter.mpr ⟨hperm.mem_iff.mpr hitem, ?_⟩, rfl⟩
    simpa using hd

variable (env) in
/-- The answer, the notices and the list, queued one after another, are what the record sends. -/
theorem queue_joined (response : Packet) (c : ConnId) (p : RoomPtr) :
    (((s.record (joinedRecord env s p c response)).core.queue c (Codec.encode response)).queueAll
        (fun d => d ∈ (s.room p).participants ∧ d ≠ c)
        (Codec.encode { type := .partnerJoin, ip := env.peerIp c (s.conn c).peerCalls })).queue c
      (Codec.encode (partnerList ((env.order (s.history.length + 1)
        (s.room p).participants.entries).filter fun item => item.1 ≠ c)))
      = s.core.log (joinedRecord env s p c response) := by
  ext1 <;> try rfl
  show Function.update (fun d => Function.update s.core.outgoing c _ d ++ _) c _ = _
  funext d
  by_cases hd : d = c
  · subst hd
    simp [Core.log, Record.sends, joinedRecord, Core.queueAll, Core.queue, State.core,
      State.record]
  · have hd' : ¬ c = d := fun h => hd h.symm
    rw [Function.update_of_ne hd, Function.update_of_ne hd]
    simp only [Core.log, Record.sends, joinedRecord, if_neg hd', mem_filter_order _ hd]
    by_cases hin : d ∈ (s.room p).participants
    · simp [hin, hd]
    · simp [hin]

variable (env) in
/-- The answer, the notices and the list, in one record. -/
theorem core_notifyUserJoined (response : Packet) {c : ConnId} {p : RoomPtr}
    (hlive : (s.room p).closed = false) (hself : s.core.closed c = false)
    (hopen : ∀ d ∈ (s.room p).participants, s.core.closed d = false) :
    (notifyUserJoined env ((s.record (joinedRecord env s p c response)).updateConn c
      (Connection.send (Codec.encode response))) p c).core
      = s.core.log (joinedRecord env s p c response) := by
  let recorded := s.record (joinedRecord env s p c response)
  let answered := recorded.updateConn c (Connection.send (Codec.encode response))
  let asked := (peerIpNetwork env answered c).2
  let notice : Packet := { type := .partnerJoin, ip := env.peerIp c (s.conn c).peerCalls }
  let told := broadcast env asked p notice c
  have hanswered : answered.core = recorded.core.queue c (Codec.encode response) :=
    core_send (s := recorded) hself (encode_ne_nil _)
  have hasked : asked.core = recorded.core.queue c (Codec.encode response) := by
    rw [← hanswered]
    exact core_peerIpNetwork (s := answered) c
  have haskedroom : asked.room = s.room := congrArg Core.room hasked
  have htold : told.core = asked.core.queueAll
      (fun d => d ∈ (s.room p).participants ∧ d ≠ c) (Codec.encode notice) := by
    have h := core_broadcast env notice c (s := asked) (p := p)
      (by rw [haskedroom, hasked]; exact hopen)
    rwa [haskedroom] at h
  have hentries : told.entries env p
      = env.order (s.history.length + 1) (s.room p).participants.entries := by
    have hroom : told.room = s.room := by
      show told.core.room = _
      rw [htold]
      exact haskedroom
    have hhistory : told.history.length = s.history.length + 1 := by
      show told.core.history.length = _
      rw [htold, hasked]
      simp [Core.queueAll, Core.queue, recorded, State.core, State.record]
    rw [State.entries, hroom, hhistory]
  have hrun : notifyUserJoined env answered p c
      = sendTo told c (partnerList ((told.entries env p).filter fun item => item.1 ≠ c)) := by
    have hcalls : (answered.conn c).peerCalls = (s.conn c).peerCalls := by
      simp only [answered, recorded, State.updateConn, Function.update_self, send_peerCalls]
      rfl
    have hlive' : (answered.room p).closed = false := hlive
    simp only [notifyUserJoined, hlive', peerIpNetwork, hcalls]
    rfl
  have hclosed : told.core.closed c = false := by
    rw [htold, hasked]
    exact hself
  show (notifyUserJoined env answered p c).core = _
  rw [hrun, sendTo, if_pos (closed_of_isOpen.mpr hclosed), core_send hclosed (encode_ne_nil _),
    hentries, htold, hasked]
  exact queue_joined env response c p

/-- Whoever a newcomer finds in the room was there before it. -/
theorem filter_order_insert {participants : Participants} {c : ConnId} {newcomer : Participant}
    (n : Nat) (hout : c ∉ participants) :
    ((env.order n (participants.insert c newcomer).entries).filter fun item => item.1 ≠ c).Perm
      participants.entries := by
  have hkeep : participants.entries.filter (fun item => item.1 ≠ c) = participants.entries := by
    apply List.filter_eq_self.mpr
    intro item hitem
    have hmem : item.1 ∈ participants := AList.mem_keys.mpr (List.mem_map_of_mem hitem)
    simpa using fun heq : item.1 = c => hout (heq ▸ hmem)
  apply ((env.order_perm n (participants.insert c newcomer).entries).filter _).trans
  rw [AList.entries_insert_of_notMem hout, List.filter_cons_of_neg (by simp), hkeep]

variable (env) in
/-- Routing a newcomer who has just sat down, answering it and telling the room is one act. -/
theorem admission_acts (h : Inv cfg s.core) {c : ConnId} {p : RoomPtr} {seated : State}
    (hopen : s.core.closed c = false) (hlobby : s.connectionRoom c = none)
    (htable : s.core.InTable p)
    (hspace : (s.room p).participants.entries.length < cfg.maxParticipantsPerRoom)
    (hseated : seated.core = s.core.setParticipants p
      ((s.room p).participants.insert c ⟨env.peerIp c (s.conn c).peerCalls, false⟩))
    (response : Packet)
    (hresponse : response = joinMeetingResponse (joinResponseValue (s.room p).roomId .ok)) :
    Acts cfg env s.core (notifyUserJoined env (((emplaceRoute seated c p).record
      (joinedRecord env (emplaceRoute seated c p) p c response)).updateConn c
        (Connection.send (Codec.encode response))) p c).core := by
  have hout : c ∉ (s.room p).participants := h.not_seated hlobby htable
  have hlobby' : seated.connectionRoom c = none := by
    show seated.core.connectionRoom c = none
    rw [hseated]
    exact hlobby
  let routed := emplaceRoute seated c p
  have hcore : routed.core = _ :=
    (core_emplaceRoute (p := p) hlobby').trans (congrArg (·.route c p) hseated)
  have hroom : routed.room p = { s.room p with
      participants := (s.room p).participants.insert c
        ⟨env.peerIp c (s.conn c).peerCalls, false⟩ } := by
    show routed.core.room p = _
    rw [hcore]
    exact Function.update_self ..
  have hclosed : routed.core.closed = s.core.closed := by rw [hcore]; rfl
  have hlive : (s.room p).closed = false := (h.listed htable).2.2.2.1
  have hstill : ∀ d ∈ (routed.room p).participants, routed.core.closed d = false := by
    intro d hd
    rw [hroom] at hd
    rw [hclosed]
    rcases (AList.mem_insert _).mp hd with rfl | hd
    · exact hopen
    · exact h.participant_open htable hd
  have hnotify := core_notifyUserJoined env response (s := routed) (by rw [hroom]; exact hlive)
    (by rw [hclosed]; exact hopen) hstill
  show Acts cfg env s.core (notifyUserJoined env ((routed.record (joinedRecord env routed
    p c response)).updateConn c _) p c).core
  rw [hnotify, hcore]
  refine .single (.joined c p (s.conn c).peerCalls (routed.conn c).peerCalls _ hopen hlobby
    htable hspace ?_ response hresponse)
  rw [hroom]
  exact filter_order_insert _ hout

/-- **Handling a join request is one act.** -/
theorem handleJoinMeeting_acts (h : Inv cfg s.core) {c : ConnId} {packet : Packet}
    (hopen : s.core.closed c = false) (hlobby : s.connectionRoom c = none) :
    Acts cfg env s.core (handleJoinMeeting cfg env s c packet).core := by
  unfold handleJoinMeeting
  split
  · exact close_acts env h c
  · simp only []
    have hanswer : ∀ result, Acts cfg env s.core ((s.record (.answered c
        (joinMeetingResponse (joinResponseValue (ntohl (load32 packet.payload))
          result)))).updateConn c (Connection.send (Codec.encode (joinMeetingResponse
            (joinResponseValue (ntohl (load32 packet.payload)) result))))).core := fun result =>
      acts_answered hopen hlobby (Or.inr rfl) (joinMeetingResponse_length _)
    unfold joinRoom
    cases hget : s.getRoom (ntohl (load32 packet.payload)) with
    | none => exact hanswer .notFound
    | some p =>
        have htable := h.inTable_of_lookup hget
        obtain ⟨-, -, hid, hlive, -⟩ := h.listed hget
        have hlive' : (s.room p).closed = false := hlive
        simp only [hlive', Bool.false_eq_true, if_false]
        by_cases hfull : (s.room p).participants.entries.length ≥ cfg.maxParticipantsPerRoom
        · rw [if_pos hfull]
          exact hanswer .full
        · rw [if_neg hfull]
          have hspace := Nat.lt_of_not_le hfull
          obtain ⟨hok, hadd⟩ := core_addParticipant env false hlive' hopen hspace
            (h.not_seated hlobby htable)
          obtain ⟨res, hres⟩ : ∃ res, addParticipant cfg env s p c false = res := ⟨_, rfl⟩
          obtain ⟨ok, seated⟩ := res
          rw [hres] at hok hadd ⊢
          simp only at hok hadd
          subst hok
          have hget' : seated.getRoom (ntohl (load32 packet.payload)) = some p := by
            show seated.core.rooms.lookup _ = _
            rw [hadd]
            exact hget
          simp only [hget']
          exact admission_acts env h hopen hlobby htable hspace hadd _ (by rw [← hid]; rfl)

/-! ### Reading -/

theorem core_updateReadBuffer (c : ConnId) (buffer : Buffer) :
    (s.updateConn c fun conn => { conn with readBuffer := buffer }).core
      = { s.core with readBuffer := Function.update s.core.readBuffer c buffer } := by
  rw [core_updateConn]
  ext1
  · exact update_self_eq rfl
  · rfl
  · exact update_self_eq rfl
  · exact update_self_eq rfl
  all_goals rfl

/-- A packet handed to the lobby leaves its record, and then its handler acts. -/
theorem dispatch_lobby_acts (h : Inv cfg s.core) {c : ConnId} {packet : Packet}
    (hopen : s.core.closed c = false) (hlobby : s.connectionRoom c = none) :
    Acts cfg env (s.core.log (.packet c packet (s.core.presentFor c)))
      (dispatch cfg env s c packet).core := by
  have hpresent : s.core.presentFor c = ∅ := by
    show (match s.connectionRoom c with
      | some p => (s.room p).participants
      | none => ∅) = _
    rw [hlobby]
  have hrun : dispatch cfg env s c packet
      = handleLobbyPacket cfg env (s.record (.packet c packet ∅)) c packet := by
    have hroute : (s.record (.packet c packet (presentFor s c))).connectionRoom c = none := hlobby
    have hnone : presentFor s c = ∅ := hpresent
    simp only [dispatch, hroute]
    rw [hnone]
  have hcore := core_record_lobby (s := s) c packet
  rw [hrun, hpresent, ← hcore]
  have hinv : Inv cfg (s.record (.packet c packet ∅)).core := by
    rw [hcore]
    exact h.log _
  unfold handleLobbyPacket
  split
  · exact handleCreateMeeting_acts hinv hopen hlobby
  split
  · exact handleJoinMeeting_acts hinv hopen hlobby
  · exact close_acts env hinv c

variable (env) in
/-- A packet taken off the buffer of an open connection is one move, and acts. -/
theorem dispatch_acts (packet : Packet) (h : Inv cfg s.core) {c : ConnId}
    (hopen : s.core.closed c = false) :
    Acts cfg env (s.core.log (.packet c packet (s.core.presentFor c)))
      (dispatch cfg env s c packet).core := by
  cases hroute : s.connectionRoom c with
  | none => exact dispatch_lobby_acts h hopen hroute
  | some p =>
      rw [core_dispatch_room h hroute]

/-- What reading the buffer of `c` does to the rest, and to `c` itself. -/
structure Reads (c : ConnId) (k k' : Core) : Prop where
  received : k'.received = k.received
  others : ∀ d, d ≠ c → k'.readBuffer d = k.readBuffer d
  closed : ∀ {d}, k.closed d = true → k'.closed d = true

theorem Reads.refl (c : ConnId) (k : Core) : Reads c k k := ⟨rfl, fun _ _ => rfl, id⟩

theorem Core.Beside.reads {k k' : Core} (h : k.Beside k') (c : ConnId) : Reads c k k' :=
  ⟨h.received, fun d _ => by rw [h.readBuffer], h.closed⟩

theorem Reads.trans {c : ConnId} {k k' k'' : Core} (h : Reads c k k') (h' : Reads c k' k'') :
    Reads c k k'' :=
  ⟨h'.received.trans h.received, fun d hd => (h'.others d hd).trans (h.others d hd),
    fun hd => h'.closed (h.closed hd)⟩

/-- The next packet cannot be cut off, or will never be asked for. -/
def Core.Settled (k : Core) (c : ConnId) : Prop :=
  k.closed c = false → Codec.next (k.readBuffer c).readable = .wait

section

variable {fuel : Nat} {c : ConnId} {packet : Packet}

theorem readLoop_closed (hclosed : s.core.closed c ≠ false) :
    readLoop cfg env (fuel + 1) s c packet = s := by
  have hisOpen : s.isOpen c = false := by
    simpa [State.isOpen, Connection.isOpen, State.core] using hclosed
  simp [readLoop, hisOpen]

theorem readLoop_wait (h : Inv cfg s.core) (hopen : s.core.closed c = false)
    (hnext : Codec.next (s.conn c).readBuffer.readable = .wait) :
    readLoop cfg env (fuel + 1) s c packet = s := by
  have hisOpen : s.isOpen c = true := closed_of_isOpen.mpr hopen
  have hdecode := Codec.tryDecode_spec (h.buffers c) packet
  have hbuffer : s.core.readBuffer c = (s.conn c).readBuffer := rfl
  rw [hbuffer, hnext] at hdecode
  obtain ⟨p, hp⟩ := hdecode
  simp [readLoop, hisOpen, hp]

theorem readLoop_reject (h : Inv cfg s.core) (hopen : s.core.closed c = false)
    (hnext : Codec.next (s.conn c).readBuffer.readable = .reject) :
    readLoop cfg env (fuel + 1) s c packet = close env (s.record (.malformed c)) c := by
  have hisOpen : s.isOpen c = true := closed_of_isOpen.mpr hopen
  have hdecode := Codec.tryDecode_spec (h.buffers c) packet
  have hbuffer : s.core.readBuffer c = (s.conn c).readBuffer := rfl
  rw [hbuffer, hnext] at hdecode
  obtain ⟨p, hp⟩ := hdecode
  simp [readLoop, hisOpen, hp]

theorem readLoop_take (h : Inv cfg s.core) (hopen : s.core.closed c = false) {p : Packet} {n : Nat}
    (hnext : Codec.next (s.conn c).readBuffer.readable = .take p n) :
    readLoop cfg env (fuel + 1) s c packet
      = readLoop cfg env fuel (dispatch cfg env (s.updateConn c fun conn =>
          { conn with readBuffer := (s.conn c).readBuffer.moveReadPos n }) c p) c p := by
  have hisOpen : s.isOpen c = true := closed_of_isOpen.mpr hopen
  have hdecode := Codec.tryDecode_spec (h.buffers c) packet
  have hbuffer : s.core.readBuffer c = (s.conn c).readBuffer := rfl
  rw [hbuffer, hnext] at hdecode
  simp only [readLoop, hisOpen, not_true_eq_false, if_false]
  rw [hdecode]

variable (env) in
/-- A malformed frame is recorded, and its connection closed. -/
theorem malformed_acts (h : Inv cfg s.core) (hopen : s.core.closed c = false)
    (hnext : Codec.next (s.conn c).readBuffer.readable = .reject) :
    Acts cfg env s.core (close env (s.record (.malformed c)) c).core ∧
      (close env (s.record (.malformed c)) c).core.closed c = true := by
  have hrecord : (s.record (.malformed c)).core = s.core.log (.malformed c) :=
    core_record fun d => rfl
  have hinv : Inv cfg (s.record (.malformed c)).core := by
    rw [hrecord]
    exact h.log _
  obtain ⟨hclose, hclosed⟩ := close_act env hinv (c := c) (by rw [hrecord]; exact hopen)
  rw [hrecord] at hclose
  have hfirst : Act cfg env s.core (s.core.log (.malformed c)) := .malformed c hopen hnext
  exact ⟨.head hfirst (.single hclose), hclosed⟩

/-- Taking a packet off the read buffer leaves the bookkeeping as it was. -/
theorem Inv.take (env : Env) (h : Inv cfg s.core) (hopen : s.core.closed c = false) {p : Packet}
    {n : Nat} (hnext : Codec.next (s.conn c).readBuffer.readable = .take p n) :
    Inv cfg (s.updateConn c fun conn =>
      { conn with readBuffer := (s.conn c).readBuffer.moveReadPos n }).core := by
  have hmove : Move cfg env s.core _ := .packet c p n hopen hnext
  have hlog := h.move hmove
  rw [core_updateReadBuffer]
  exact ⟨hlog.first, hlog.born, hlog.listed, hlog.fits, hlog.routed, hlog.seated, hlog.rooms_le,
    hlog.nextRoomId, hlog.buffers⟩

variable (env) in
/-- Taking a packet off the read buffer and handing it on. -/
theorem take_moves (h : Inv cfg s.core) (hopen : s.core.closed c = false) {p : Packet} {n : Nat}
    (hnext : Codec.next (s.conn c).readBuffer.readable = .take p n) :
    let handed := dispatch cfg env (s.updateConn c fun conn =>
      { conn with readBuffer := (s.conn c).readBuffer.moveReadPos n }) c p
    Moves cfg env s.core handed.core ∧ Reads c s.core handed.core ∧
      (handed.conn c).readBuffer = (s.conn c).readBuffer.moveReadPos n := by
  let taken := s.updateConn c fun conn =>
    { conn with readBuffer := (s.conn c).readBuffer.moveReadPos n }
  have htaken : taken.core = { s.core with
      readBuffer := Function.update s.core.readBuffer c
        ((s.core.readBuffer c).moveReadPos n) } := core_updateReadBuffer c _
  have hmove : Move cfg env s.core (taken.core.log (.packet c p (taken.core.presentFor c))) := by
    rw [htaken]
    exact .packet c p n hopen hnext
  have hinv : Inv cfg taken.core := Inv.take env h hopen hnext
  have hacts := dispatch_acts env p hinv (by rw [htaken]; exact hopen)
  have hreads : Reads c s.core (taken.core.log (.packet c p (taken.core.presentFor c))) := by
    rw [htaken]
    exact ⟨rfl, fun d hd => Function.update_of_ne hd .., id⟩
  refine ⟨.head hmove (Acts.moves hacts), hreads.trans (hacts.beside.reads c), ?_⟩
  have hbuffer : (dispatch cfg env taken c p).core.readBuffer c = taken.core.readBuffer c := by
    rw [hacts.beside.readBuffer]
    rfl
  apply hbuffer.trans
  rw [htaken]
  exact Function.update_self ..

end

variable (env) in
/-- The read loop moves, keeps to its connection, and goes on until nothing is left. -/
theorem readLoop_moves (c : ConnId) :
    ∀ (fuel : Nat) (s : State) (packet : Packet), Inv cfg s.core →
      Moves cfg env s.core (readLoop cfg env fuel s c packet).core ∧
      Reads c s.core (readLoop cfg env fuel s c packet).core ∧
      ((s.conn c).readBuffer.readable.length < fuel →
        (readLoop cfg env fuel s c packet).core.Settled c) := by
  intro fuel
  induction fuel with
  | zero => exact fun s _ _ => ⟨.refl, .refl c _, fun h => absurd h (Nat.not_lt_zero _)⟩
  | succ fuel ih =>
      intro s packet hinv
      by_cases hopen : s.core.closed c = false
      · cases hnext : Codec.next (s.conn c).readBuffer.readable with
        | wait =>
            rw [readLoop_wait hinv hopen hnext]
            exact ⟨.refl, .refl c _, fun _ _ => hnext⟩
        | reject =>
            obtain ⟨hacts, hclosed⟩ := malformed_acts env hinv hopen hnext
            rw [readLoop_reject hinv hopen hnext]
            refine ⟨hacts.moves, hacts.beside.reads c, fun _ hlive => ?_⟩
            rw [hclosed] at hlive
            simp at hlive
        | take p n =>
            obtain ⟨hmoves, hreads, hbuffer⟩ := take_moves env hinv hopen hnext
            obtain ⟨h1, h2, h3⟩ := ih _ p (hinv.moves hmoves)
            rw [readLoop_take hinv hopen hnext]
            refine ⟨hmoves.trans h1, hreads.trans h2, fun hfuel => h3 ?_⟩
            -- a packet takes at least its own bytes off the buffer
            have hlen := (Codec.next_take hnext).1
            have hle := (Codec.next_take hnext).2
            have hleft : ((s.conn c).readBuffer.moveReadPos n).readable
                = (s.conn c).readBuffer.readable.drop n :=
              Codec.readable_taken (hinv.buffers c) hnext
            rw [hbuffer, hleft, List.length_drop]
            omega
      · rw [readLoop_closed hopen]
        exact ⟨.refl, .refl c _, fun _ hlive => absurd hlive hopen⟩

/-! ### Events -/

theorem Reads.settled {c : ConnId} {k k' : Core} (h : Reads c k k') {d : ConnId} (hd : d ≠ c)
    (hs : k.Settled d) : k'.Settled d := by
  intro hopen
  rw [h.others d hd]
  apply hs
  cases hclosed : k.closed d with
  | false => rfl
  | true =>
      rw [h.closed hclosed] at hopen
      simp at hopen

theorem Core.Beside.settled {k k' : Core} (h : k.Beside k') {d : ConnId} (hs : k.Settled d) :
    k'.Settled d :=
  (h.reads (d + 1)).settled (Nat.ne_of_lt (Nat.lt_succ_self d)) hs

theorem core_readSome (c : ConnId) (data : Bytes) :
    (s.updateConn c (Connection.readSome data)).core = { s.core with
      readBuffer := Function.update s.core.readBuffer c ((s.core.readBuffer c).write data)
      received := Function.update s.core.received c (s.core.received c ++ data) } := by
  rw [core_updateConn]
  ext1
  · exact update_self_eq rfl
  · rfl
  · rfl
  · exact update_self_eq rfl
  all_goals rfl

theorem writeDone_kept (length : Nat) (conn : Connection) :
    (conn.writeDone length).closed = conn.closed ∧
      (conn.writeDone length).readBuffer = conn.readBuffer ∧
      (conn.writeDone length).received = conn.received ∧
      (conn.writeDone length).outgoing = conn.outgoing := by
  unfold Connection.writeDone
  cases hqueue : conn.writeQueue with
  | nil => exact ⟨rfl, rfl, rfl, rfl⟩
  | cons front rest =>
      by_cases hempty : (if (front.moveReadPos length).readableSize = 0 then rest
          else front.moveReadPos length :: rest) ≠ []
      · simp only [if_pos hempty]
        exact core_doWrite _
      · simp only [if_neg hempty, and_self]

theorem core_writeDone (c : ConnId) (length : Nat) :
    (s.updateConn c (Connection.writeDone length)).core = s.core := by
  obtain ⟨h1, h2, h3, h4⟩ := writeDone_kept length (s.conn c)
  exact core_updateConn_same h1 h2 h3 h4

theorem accept_moves : Moves cfg env s.core
      { s.updateConn s.nextConnId (fun _ => {}) with nextConnId := s.nextConnId + 1 }.core ∧
    ∀ {d}, s.core.Settled d →
      { s.updateConn s.nextConnId (fun _ => {}) with nextConnId := s.nextConnId + 1 }.core.Settled
        d := by
  have hcore : { s.updateConn s.nextConnId (fun _ => {}) with
        nextConnId := s.nextConnId + 1 }.core
      = { s.core with
          closed := Function.update s.core.closed s.core.nextConnId false
          readBuffer := Function.update s.core.readBuffer s.core.nextConnId
            (Buffer.new initBufferSize)
          received := Function.update s.core.received s.core.nextConnId []
          outgoing := Function.update s.core.outgoing s.core.nextConnId []
          nextConnId := s.core.nextConnId + 1 } := by
    have hrun := core_updateConn (s := s) s.nextConnId fun _ => {}
    exact congrArg (fun k : Core => { k with nextConnId := s.core.nextConnId + 1 }) hrun
  rw [hcore]
  refine ⟨.single .accept, fun {d} hs hopen => ?_⟩
  simp only [Function.update_apply] at hopen ⊢
  split
  · rw [Buffer.readable_new]
    rfl
  · rename_i hd
    rw [if_neg hd] at hopen
    exact hs hopen

variable (env) in
/-- What has been read of a connection is taken off it, packet by packet. -/
theorem receive_moves (h : Inv cfg s.core) {c : ConnId} (haccepted : s.Accepted c)
    (data : Bytes) :
    let s' := onConnectionRead cfg env (s.updateConn c (Connection.readSome data)) c
    Moves cfg env s.core s'.core ∧ ∀ {d}, s.core.Settled d → s'.core.Settled d := by
  have hcore := core_readSome (s := s) c data
  have hmove : Move cfg env s.core (s.updateConn c (Connection.readSome data)).core := by
    rw [hcore]
    exact .receive c data haccepted
  have hinv := h.move hmove
  obtain ⟨h1, h2, h3⟩ := readLoop_moves env c
    (((s.updateConn c (Connection.readSome data)).conn c).readBuffer.readableSize + 1)
    (s.updateConn c (Connection.readSome data)) {} hinv
  refine ⟨.head hmove h1, fun {d} hs => ?_⟩
  by_cases hd : d = c
  · subst hd
    apply h3
    have hlen := Buffer.length_readable (hinv.buffers d)
    exact Nat.lt_succ_of_le (Nat.le_of_eq hlen)
  · apply h2.settled hd
    intro hopen
    rw [hcore] at hopen ⊢
    simp only [Function.update_apply, if_neg hd]
    exact hs hopen

/-- **Whatever event the server handles, it makes moves**, and leaves no packet waiting. -/
theorem step_moves (h : Inv cfg s.core) {e : Event} {s' : State}
    (hstep : step cfg env s e = some s') :
    Moves cfg env s.core s'.core ∧ ∀ {d}, s.core.Settled d → s'.core.Settled d := by
  have hclose : ∀ c, Moves cfg env s.core (close env s c).core ∧
      ∀ {d}, s.core.Settled d → (close env s c).core.Settled d := by
    intro c
    have hacts := close_acts env h c
    exact ⟨hacts.moves, hacts.beside.settled⟩
  cases e with
  | accept =>
      simp only [step, Option.some.injEq] at hstep
      subst hstep
      exact accept_moves
  | receive c data =>
      obtain ⟨hguard, hstep⟩ := Option.ite_none_right_eq_some.mp hstep
      obtain rfl := Option.some.inj hstep
      exact receive_moves env h hguard.1 data
  | readError c =>
      obtain ⟨-, hstep⟩ := Option.ite_none_right_eq_some.mp hstep
      obtain rfl := Option.some.inj hstep
      exact hclose c
  | writeDone c length =>
      obtain ⟨-, hstep⟩ := Option.ite_none_right_eq_some.mp hstep
      obtain rfl := Option.some.inj hstep
      rw [core_writeDone]
      exact ⟨.refl, id⟩
  | writeError c =>
      obtain ⟨-, hstep⟩ := Option.ite_none_right_eq_some.mp hstep
      obtain rfl := Option.some.inj hstep
      exact hclose c

/-- What holds of every run: its moves, and that no packet is left waiting. -/
theorem Reachable.moves {s : State} (h : Reachable cfg env s) :
    Moves cfg env ({} : State).core s.core ∧ ∀ d, s.core.Settled d := by
  refine Run.Reachable.invariant h (I := fun s =>
    Moves cfg env ({} : State).core s.core ∧ ∀ d, s.core.Settled d) ⟨.refl, ?_⟩ ?_
  · intro d hopen
    simp [State.core] at hopen
  · intro s e s' hs hstep
    obtain ⟨h1, h2⟩ := step_moves ((Inv.init cfg).moves hs.1) hstep
    exact ⟨hs.1.trans h1, fun d => h2 (hs.2 d)⟩

theorem Reachable.inv {s : State} (h : Reachable cfg env s) : Inv cfg s.core :=
  (Inv.init cfg).moves h.moves.1

end CloudMeeting.Server
