/-
Who is in which room, stored three times.

A connection's membership is written down in the routing table, in the participants of
a room and, through the room, in the room table, and it only makes sense while the
connection is open.  `Inv` says how the three agree in every state between two moves;
it holds even after the room ids have wrapped around.  `Tidy` says what is true in
addition as long as they have not: every routed connection sits in its room, every room
has one owner, and nobody sits in a room that is not in the table.

Each of the two is proved by going through the moves once.
-/
import CloudMeeting.Server.Moves

namespace CloudMeeting.Server

variable {cfg : ServerConfig} {env : Env} {k : Core}

/-- The bookkeeping of memberships is consistent. -/
structure Inv (cfg : ServerConfig) (k : Core) : Prop where
  first : 0 < k.nextConnId
  born : ∀ {c}, k.closed c = false → 0 < c ∧ c < k.nextConnId
  /-- An id in the table leads to an open room of that id. -/
  listed : ∀ {id p}, k.rooms.lookup id = some p →
    p < k.nextRoom ∧ id = UInt32.ofNat (p + 1) ∧ (k.room p).roomId = id ∧
      (k.room p).closed = false ∧ (k.room p).closeCallback = true
  fits : ∀ {p}, k.InTable p →
    (k.room p).participants.entries.length ≤ cfg.maxParticipantsPerRoom
  routed : ∀ {c p}, k.connectionRoom c = some p → k.closed c = false ∧ k.InTable p
  seated : ∀ {c p}, k.InTable p → c ∈ (k.room p).participants → k.connectionRoom c = some p
  rooms_le : k.rooms.entries.length ≤ cfg.maxRooms
  nextRoomId : k.nextRoomId = UInt32.ofNat (k.nextRoom + 1)
  buffers : ∀ c, (k.readBuffer c).WF

theorem Inv.init (cfg : ServerConfig) : Inv cfg ({} : State).core where
  first := Nat.one_pos
  born h := by simp [State.core] at h
  listed h := by simp [State.core] at h
  fits h := by simp [State.core, Core.InTable] at h
  routed h := by simp [State.core] at h
  seated h := by simp [State.core, Core.InTable] at h
  rooms_le := Nat.zero_le _
  nextRoomId := rfl
  buffers _ := Buffer.new_wf _

/-! ### Maps -/

theorem length_entries_erase_le {κ ν : Type} [DecidableEq κ] (m : AList fun _ : κ => ν) (a : κ) :
    (m.erase a).entries.length ≤ m.entries.length := by
  have h : ∀ m : AList fun _ : κ => ν, m.entries.length = m.keys.length := fun m => by
    simp [AList.keys, List.keys]
  rw [h, h, AList.keys_erase]
  exact List.length_erase_le

theorem length_entries_insert {κ ν : Type} [DecidableEq κ] {m : AList fun _ : κ => ν} {a : κ}
    {b : ν} (h : a ∉ m) : (m.insert a b).entries.length = m.entries.length + 1 := by
  rw [AList.entries_insert_of_notMem h, List.length_cons]

namespace Inv

theorem lt_nextRoom (h : Inv cfg k) {p : RoomPtr} (hp : k.InTable p) : p < k.nextRoom :=
  (h.listed hp).1

theorem inTable_of_lookup (h : Inv cfg k) {id : UInt32} {p : RoomPtr}
    (hp : k.rooms.lookup id = some p) : k.InTable p := by
  rw [Core.InTable, (h.listed hp).2.2.1]
  exact hp

/-- Two rooms in the table have different ids. -/
theorem eq_of_roomId {p q : RoomPtr} (hp : k.InTable p) (hq : k.InTable q)
    (hid : (k.room p).roomId = (k.room q).roomId) : p = q := by
  rw [Core.InTable, hid] at hp
  exact Option.some.inj (hp.symm.trans hq)

theorem participant_open (h : Inv cfg k) {c : ConnId} {p : RoomPtr} (hp : k.InTable p)
    (hc : c ∈ (k.room p).participants) : k.closed c = false :=
  (h.routed (h.seated hp hc)).1

theorem not_seated (h : Inv cfg k) {c : ConnId} (hlobby : k.connectionRoom c = none) {p : RoomPtr}
    (hp : k.InTable p) : c ∉ (k.room p).participants := fun hc => by
  have hroute := h.seated hp hc
  rw [hlobby] at hroute
  simp at hroute

theorem log (h : Inv cfg k) (r : Record) : Inv cfg (k.log r) :=
  ⟨h.first, h.born, h.listed, h.fits, h.routed, h.seated, h.rooms_le, h.nextRoomId, h.buffers⟩

/-- Changing the participants of one room changes no table. -/
theorem inTable_setParticipants {p q : RoomPtr} {participants : Participants} :
    (k.setParticipants p participants).InTable q ↔ k.InTable q := by
  have hid : ((k.setParticipants p participants).room q).roomId = (k.room q).roomId := by
    simp only [Core.setParticipants, Function.update_apply]
    split
    · rename_i hq; rw [hq]
    · rfl
  rw [Core.InTable, Core.InTable, hid]
  rfl

theorem setParticipants (h : Inv cfg k) {p : RoomPtr} {participants : Participants}
    (hlen : participants.entries.length ≤ cfg.maxParticipantsPerRoom)
    (hroute : k.InTable p → ∀ c ∈ participants, k.connectionRoom c = some p) :
    Inv cfg (k.setParticipants p participants) := by
  refine ⟨h.first, h.born, ?_, ?_, ?_, ?_, h.rooms_le, h.nextRoomId, h.buffers⟩
  · intro id q hq
    obtain ⟨h1, h2, h3, h4, h5⟩ := h.listed hq
    simp only [Core.setParticipants, Function.update_apply]
    split
    · rename_i heq
      subst heq
      exact ⟨h1, h2, h3, h4, h5⟩
    · exact ⟨h1, h2, h3, h4, h5⟩
  · intro q hq
    have hfits := h.fits (inTable_setParticipants.mp hq)
    simp only [Core.setParticipants, Function.update_apply]
    split
    · exact hlen
    · exact hfits
  · intro c q hq
    exact ⟨(h.routed hq).1, inTable_setParticipants.mpr (h.routed hq).2⟩
  · intro c q hq hc
    have hq' := inTable_setParticipants.mp hq
    simp only [Core.setParticipants, Function.update_apply] at hc ⊢
    split at hc
    · rename_i heq
      subst heq
      exact hroute hq' c hc
    · exact h.seated hq' hc

/-- A connection closes, and no room in the table keeps it. -/
theorem shut (h : Inv cfg k) {c : ConnId}
    (hout : ∀ p, k.InTable p → c ∉ (k.room p).participants) : Inv cfg (k.shut c) := by
  refine ⟨h.first, ?_, h.listed, h.fits, ?_, ?_, h.rooms_le, h.nextRoomId, h.buffers⟩
  · intro d hd
    simp only [Core.shut, Function.update_apply] at hd
    split at hd
    · simp at hd
    · exact h.born hd
  · intro d q hq
    simp only [Core.shut, Function.update_apply] at hq ⊢
    split at hq
    · simp at hq
    · rename_i hdc
      rw [if_neg hdc]
      exact h.routed hq
  · intro d q hq hd
    simp only [Core.shut, Function.update_apply]
    have hdc : d ≠ c := fun heq => hout q hq (heq ▸ hd)
    rw [if_neg hdc]
    exact h.seated hq hd

theorem leave (h : Inv cfg k) {c : ConnId} {p : RoomPtr} (hroute : k.connectionRoom c = some p) :
    Inv cfg ((k.shut c).setParticipants p ((k.room p).participants.erase c)) := by
  have htable := (h.routed hroute).2
  -- first empty the seat, then close the connection; the two commute
  have hleave : Inv cfg (k.setParticipants p ((k.room p).participants.erase c)) := by
    refine h.setParticipants ?_ ?_
    · exact Nat.le_trans (length_entries_erase_le _ _) (h.fits htable)
    · intro _ d hd
      exact h.seated htable (AList.mem_erase.mp hd).2
  have hshut : Inv cfg ((k.setParticipants p ((k.room p).participants.erase c)).shut c) := by
    apply hleave.shut
    intro q hq hc
    have hq' := inTable_setParticipants.mp hq
    simp only [Core.setParticipants, Function.update_apply] at hc
    split at hc
    · exact (AList.mem_erase.mp hc).1 rfl
    · rename_i hqp
      have := h.seated hq' hc
      rw [hroute] at this
      exact hqp (Option.some.inj this).symm
  exact hshut

theorem inTable_dissolve {p q : RoomPtr} (hp : k.InTable p) :
    (k.dissolve p).InTable q ↔ k.InTable q ∧ q ≠ p := by
  have hid : ((k.dissolve p).room q).roomId = (k.room q).roomId := by
    simp only [Core.dissolve, Function.update_apply]
    split
    · rename_i hq; rw [hq]
    · rfl
  rw [Core.InTable, hid]
  show (k.rooms.erase (k.room p).roomId).lookup (k.room q).roomId = some q ↔ _
  by_cases heq : (k.room q).roomId = (k.room p).roomId
  · rw [heq, AList.lookup_erase]
    constructor
    · intro hnone; simp at hnone
    · intro hin
      exact absurd (eq_of_roomId hin.1 hp heq) hin.2
  · rw [AList.lookup_erase_ne heq]
    constructor
    · intro hq; exact ⟨hq, fun hqp => heq (by rw [hqp])⟩
    · exact And.left

theorem dissolve (h : Inv cfg k) {p : RoomPtr} (hp : k.InTable p) : Inv cfg (k.dissolve p) := by
  have hroom : ∀ {q}, q ≠ p → (k.dissolve p).room q = k.room q := by
    intro q hq
    simp only [Core.dissolve, Function.update_apply, if_neg hq]
  refine ⟨h.first, ?_, ?_, ?_, ?_, ?_, ?_, h.nextRoomId, h.buffers⟩
  · intro d hd
    simp only [Core.dissolve, Bool.or_eq_false_iff] at hd
    exact h.born hd.1
  · intro id q hq
    have hq' : k.rooms.lookup id = some q := by
      by_cases heq : id = (k.room p).roomId
      · rw [Core.dissolve, heq, AList.lookup_erase] at hq
        simp at hq
      · rwa [Core.dissolve, AList.lookup_erase_ne heq] at hq
    have hqp : q ≠ p := by
      intro hqp
      subst hqp
      have hid := (h.listed hq').2.2.1
      rw [Core.dissolve, hid, AList.lookup_erase] at hq
      simp at hq
    rw [hroom hqp]
    exact h.listed hq'
  · intro q hq
    obtain ⟨hq', hqp⟩ := (inTable_dissolve hp).mp hq
    rw [hroom hqp]
    exact h.fits hq'
  · intro d q hq
    simp only [Core.dissolve] at hq
    split at hq
    · simp at hq
    · rename_i hne
      obtain ⟨hd, hq'⟩ := h.routed hq
      have hqp : q ≠ p := fun heq => hne (heq ▸ hq)
      refine ⟨?_, (inTable_dissolve hp).mpr ⟨hq', hqp⟩⟩
      simp only [Core.dissolve, hd, Bool.false_or, decide_eq_false_iff_not]
      intro hin
      exact hne (h.seated hp hin)
  · intro d q hq hd
    obtain ⟨hq', hqp⟩ := (inTable_dissolve hp).mp hq
    rw [hroom hqp] at hd
    have hroute := h.seated hq' hd
    simp only [Core.dissolve, hroute, Option.some.injEq, if_neg hqp]
  · exact Nat.le_trans (length_entries_erase_le _ _) h.rooms_le

theorem inTable_found (hnew : k.nextRoomId ∉ k.rooms) {c : ConnId}
    {participants : Participants} {q : RoomPtr} :
    (k.found c participants).InTable q ↔ q = k.nextRoom ∨ k.InTable q := by
  show (k.rooms.insert k.nextRoomId k.nextRoom).lookup ((k.found c participants).room q).roomId
    = some q ↔ _
  by_cases hq : q = k.nextRoom
  · subst hq
    have hself : ((k.found c participants).room k.nextRoom).roomId = k.nextRoomId := by
      simp only [Core.found, Core.build, Function.update_self]
    rw [hself, AList.lookup_insert]
    exact iff_of_true rfl (Or.inl rfl)
  · have hroom : (k.found c participants).room q = k.room q := by
      simp only [Core.found, Core.build, Function.update_apply, if_neg hq]
    rw [hroom]
    by_cases hid : (k.room q).roomId = k.nextRoomId
    · rw [hid, AList.lookup_insert]
      constructor
      · intro heq; exact absurd (Option.some.inj heq).symm hq
      · intro hin
        rcases hin with heq | htable
        · exact absurd heq hq
        · rw [Core.InTable, hid, AList.lookup_eq_none.mpr hnew] at htable
          simp at htable
    · rw [AList.lookup_insert_ne hid]
      simp only [hq, false_or, Core.InTable]

theorem found (h : Inv cfg k) {c : ConnId} {participants : Participants}
    (hopen : k.closed c = false) (hlobby : k.connectionRoom c = none)
    (hrooms : k.rooms.entries.length < cfg.maxRooms) (hnew : k.nextRoomId ∉ k.rooms)
    (hlen : participants.entries.length ≤ cfg.maxParticipantsPerRoom)
    (hmem : ∀ d ∈ participants, d = c) : Inv cfg (k.found c participants) := by
  have hold : ∀ {q}, k.InTable q → q ≠ k.nextRoom := fun hq => Nat.ne_of_lt (h.lt_nextRoom hq)
  have hroom : ∀ {q}, q ≠ k.nextRoom → (k.found c participants).room q = k.room q := by
    intro q hq
    simp only [Core.found, Core.build, Function.update_apply, if_neg hq]
  have hself : (k.found c participants).room k.nextRoom
      = { roomId := k.nextRoomId, participants := participants, closeCallback := true } := by
    simp only [Core.found, Core.build, Function.update_self]
  have hlookup : ∀ {id}, id ≠ k.nextRoomId →
      (k.found c participants).rooms.lookup id = k.rooms.lookup id :=
    fun hid => AList.lookup_insert_ne hid
  refine ⟨h.first, h.born, ?_, ?_, ?_, ?_, ?_, ?_, h.buffers⟩
  · intro id q hq
    by_cases hid : id = k.nextRoomId
    · have hq' : q = k.nextRoom := by
        rw [hid, Core.found, AList.lookup_insert] at hq
        exact (Option.some.inj hq).symm
      subst hq'
      rw [hself]
      exact ⟨Nat.lt_succ_self _, hid.trans h.nextRoomId, hid.symm, rfl, rfl⟩
    · rw [hlookup hid] at hq
      obtain ⟨h1, h2⟩ := h.listed hq
      rw [hroom (Nat.ne_of_lt h1)]
      exact ⟨Nat.lt_succ_of_lt h1, h2⟩
  · intro q hq
    rcases (inTable_found hnew).mp hq with rfl | hq'
    · rw [hself]
      exact hlen
    · rw [hroom (hold hq')]
      exact h.fits hq'
  · intro d q hq
    rw [inTable_found hnew]
    simp only [Core.found, Core.build, Function.update_apply] at hq ⊢
    split at hq
    · rename_i hd
      subst hd
      exact ⟨hopen, Or.inl (Option.some.inj hq).symm⟩
    · exact ⟨(h.routed hq).1, Or.inr (h.routed hq).2⟩
  · intro d q hq hd
    rcases (inTable_found hnew).mp hq with rfl | hq'
    · rw [hself] at hd
      simp only [Core.found, hmem d hd, Function.update_self]
    · rw [hroom (hold hq')] at hd
      have hroute := h.seated hq' hd
      have hdc : d ≠ c := fun heq => by rw [heq, hlobby] at hroute; simp at hroute
      simp only [Core.found, Function.update_apply, if_neg hdc]
      exact hroute
  · show (k.rooms.insert _ _).entries.length ≤ _
    rw [length_entries_insert hnew]
    exact hrooms
  · show k.nextRoomId + 1 = UInt32.ofNat (k.nextRoom + 1 + 1)
    rw [h.nextRoomId, UInt32.ofNat_add (k.nextRoom + 1) 1]
    rfl

theorem inTable_collide (h : Inv cfg k) {c : ConnId} {p q : RoomPtr} {participants : Participants}
    (hp : k.rooms.lookup k.nextRoomId = some p) :
    ((k.build { roomId := k.nextRoomId, participants := participants }).route c p).InTable q
      ↔ k.InTable q := by
  show k.rooms.lookup
    ((k.build { roomId := k.nextRoomId, participants := participants }).room q).roomId = _ ↔ _
  by_cases hq : q = k.nextRoom
  · subst hq
    have hself : ((k.build { roomId := k.nextRoomId, participants := participants }).room
        k.nextRoom).roomId = k.nextRoomId := by
      simp only [Core.build, Function.update_self]
    rw [hself, hp, Option.some.injEq]
    refine iff_of_false ?_ ?_
    · exact Nat.ne_of_lt (h.listed hp).1
    · exact fun hq => Nat.lt_irrefl _ (h.lt_nextRoom hq)
  · have hother : (k.build { roomId := k.nextRoomId, participants := participants }).room q
        = k.room q := by
      simp only [Core.build, Function.update_apply, if_neg hq]
    rw [hother, Core.InTable]

theorem room_build {q : RoomPtr} {room : Room} (hq : q < k.nextRoom) :
    (k.build room).room q = k.room q := by
  simp only [Core.build, Function.update_apply, if_neg (Nat.ne_of_lt hq)]

/-- A room object that does not get into the table. -/
theorem collide (h : Inv cfg k) {c : ConnId} {p : RoomPtr} {participants : Participants}
    (hopen : k.closed c = false) (hlobby : k.connectionRoom c = none)
    (hp : k.rooms.lookup k.nextRoomId = some p) :
    Inv cfg ((k.build { roomId := k.nextRoomId, participants := participants }).route c p) := by
  refine ⟨h.first, h.born, ?_, ?_, ?_, ?_, h.rooms_le, ?_, h.buffers⟩
  · intro id q hq
    obtain ⟨h1, h2⟩ := h.listed hq
    simp only [Core.route, room_build h1]
    exact ⟨Nat.lt_succ_of_lt h1, h2⟩
  · intro q hq
    have hq' := (h.inTable_collide hp).mp hq
    simp only [Core.route, room_build (h.lt_nextRoom hq')]
    exact h.fits hq'
  · intro d q hq
    rw [h.inTable_collide hp]
    simp only [Core.route, Core.build, Function.update_apply] at hq ⊢
    split at hq
    · rename_i hd
      subst hd
      rw [← Option.some.inj hq]
      exact ⟨hopen, h.inTable_of_lookup hp⟩
    · exact h.routed hq
  · intro d q hq hd
    have hq' := (h.inTable_collide hp).mp hq
    simp only [Core.route, room_build (h.lt_nextRoom hq')] at hd
    have hroute := h.seated hq' hd
    have hdc : d ≠ c := fun heq => by rw [heq, hlobby] at hroute; simp at hroute
    simp only [Core.route, Core.build, Function.update_apply, if_neg hdc]
    exact hroute
  · show k.nextRoomId + 1 = UInt32.ofNat (k.nextRoom + 1 + 1)
    rw [h.nextRoomId, UInt32.ofNat_add (k.nextRoom + 1) 1]
    rfl

theorem join (h : Inv cfg k) {c : ConnId} {p : RoomPtr} {participant : Participant}
    (hopen : k.closed c = false) (hlobby : k.connectionRoom c = none) (hp : k.InTable p)
    (hspace : (k.room p).participants.entries.length < cfg.maxParticipantsPerRoom) :
    Inv cfg ((k.setParticipants p ((k.room p).participants.insert c participant)).route c p) := by
  have hout : ∀ {q}, k.InTable q → c ∉ (k.room q).participants := h.not_seated hlobby
  -- the route comes first, so that the new participant is routed when it sits down
  have hroute : Inv cfg (k.route c p) := by
    refine ⟨h.first, h.born, h.listed, h.fits, ?_, ?_, h.rooms_le, h.nextRoomId, h.buffers⟩
    · intro d q hq
      simp only [Core.route, Function.update_apply] at hq
      split at hq
      · rename_i hd
        subst hd
        rw [← Option.some.inj hq]
        exact ⟨hopen, hp⟩
      · exact h.routed hq
    · intro d q hq hd
      have hdc : d ≠ c := fun heq => hout hq (heq ▸ hd)
      simp only [Core.route, Function.update_apply, if_neg hdc]
      exact h.seated hq hd
  have hseat : Inv cfg ((k.route c p).setParticipants p
      ((k.room p).participants.insert c participant)) := by
    refine hroute.setParticipants ?_ ?_
    · rw [length_entries_insert (hout hp)]
      exact hspace
    · intro _ d hd
      rcases (AList.mem_insert _).mp hd with rfl | hd
      · simp only [Core.route, Function.update_self]
      · exact hroute.seated hp hd
  exact hseat

/-- Every act keeps the books consistent. -/
theorem act (h : Inv cfg k) {k' : Core} (ha : Act cfg env k k') : Inv cfg k' := by
  cases ha with
  | malformed c _ _ => exact h.log _
  | answered c response _ _ _ _ => exact h.log _
  | vacant c hopen hlobby hrooms hnew hnone response _ =>
      exact (h.found hopen hlobby hrooms hnew (by simp) (by simp)).log _
  | collided c p participants hopen hlobby _ hold response _ =>
      exact (h.collide hopen hlobby hold).log _
  | hosted c n hopen hlobby hrooms hnew hsome response _ =>
      refine (h.found hopen hlobby hrooms hnew ?_ ?_).log _
      · rw [AList.singleton_entries]
        exact hsome
      · intro d hd
        simpa [AList.mem_keys] using hd
  | joined c p n m present hopen hlobby hp hspace _ response _ =>
      exact (h.join hopen hlobby hp hspace).log _
  | alone c hopen hout =>
      apply h.shut
      intro p hp hc
      exact hout p (h.seated hp hc) hc
  | left c p participant _ hroute _ _ => exact (h.leave hroute).log _
  | dissolved c p participant _ hroute _ _ => exact (h.dissolve (h.routed hroute).2).log _

/-- **Every move keeps the books consistent.** -/
theorem move (h : Inv cfg k) {k' : Core} (hm : Move cfg env k k') : Inv cfg k' := by
  cases hm with
  | accept =>
      refine ⟨Nat.succ_pos _, ?_, h.listed, h.fits, ?_, h.seated, h.rooms_le, h.nextRoomId, ?_⟩
      · intro d hd
        simp only [Function.update_apply] at hd
        split at hd
        · rename_i heq
          rw [heq]
          exact ⟨h.first, Nat.lt_succ_self _⟩
        · have := h.born hd
          exact ⟨this.1, Nat.lt_succ_of_lt this.2⟩
      · intro d p hp
        refine ⟨?_, (h.routed hp).2⟩
        simp only [Function.update_apply, (h.routed hp).1, ite_self]
      · intro d
        simp only [Function.update_apply]
        split
        · exact Buffer.new_wf _
        · exact h.buffers d
  | receive c data _ =>
      refine ⟨h.first, h.born, h.listed, h.fits, h.routed, h.seated, h.rooms_le, h.nextRoomId, ?_⟩
      intro d
      simp only [Function.update_apply]
      split
      · exact (Buffer.write_spec (h.buffers c) data).1
      · exact h.buffers d
  | packet c packet n _ hnext =>
      refine ⟨h.first, h.born, h.listed, h.fits, h.routed, h.seated, h.rooms_le, h.nextRoomId, ?_⟩
      intro d
      simp only [Core.log_readBuffer, Function.update_apply]
      split
      · have hle := (Codec.next_take hnext).2
        rw [Buffer.length_readable (h.buffers c)] at hle
        exact Buffer.moveReadPos_wf (h.buffers c) hle
      · exact h.buffers d
  | act ha => exact h.act ha

theorem moves (h : Inv cfg k) {k' : Core} (hm : Moves cfg env k k') : Inv cfg k' := by
  induction hm with
  | refl => exact h
  | tail _ hmove ih => exact ih.move hmove

end Inv

/-! ### As long as room ids are fresh -/

/-- The room has exactly one owner among its participants. -/
def OneOwner (participants : Participants) : Prop :=
  ∃! c, ∃ participant, participants.lookup c = some participant ∧ participant.isOwner = true

/-- What holds in addition while no room id has been used twice. -/
structure Tidy (k : Core) : Prop where
  member : ∀ {c p}, k.connectionRoom c = some p → c ∈ (k.room p).participants
  owner : ∀ {p}, k.InTable p → OneOwner (k.room p).participants
  empty : ∀ {p}, ¬ k.InTable p → (k.room p).participants = ∅

theorem Tidy.init : Tidy ({} : State).core where
  member h := by simp [State.core] at h
  owner h := by simp [State.core, Core.InTable] at h
  empty _ := rfl

theorem oneOwner_singleton (c : ConnId) (ip : UInt32) :
    OneOwner (AList.singleton c ⟨ip, true⟩) := by
  have hlookup : (AList.singleton c (⟨ip, true⟩ : Participant) : Participants).lookup c
      = some ⟨ip, true⟩ := by
    rw [← AList.insert_empty, AList.lookup_insert]
  refine ⟨c, ⟨_, hlookup, rfl⟩, ?_⟩
  intro d howned
  obtain ⟨participant, hd, -⟩ := howned
  have hmem := AList.lookup_isSome.mp (by rw [hd]; rfl : (AList.lookup d _).isSome)
  simpa [AList.mem_keys] using hmem

theorem OneOwner.insert {participants : Participants} (h : OneOwner participants) {c : ConnId}
    (hc : c ∉ participants) {ip : UInt32} : OneOwner (participants.insert c ⟨ip, false⟩) := by
  obtain ⟨o, ⟨participant, ho, howner⟩, hunique⟩ := h
  have hoc : o ≠ c := by
    intro hoc
    subst hoc
    rw [AList.lookup_eq_none.mpr hc] at ho
    simp at ho
  refine ⟨o, ⟨participant, by rw [AList.lookup_insert_ne hoc, ho], howner⟩, ?_⟩
  intro d howned
  obtain ⟨found, hd, hfound⟩ := howned
  by_cases hdc : d = c
  · subst hdc
    rw [AList.lookup_insert, Option.some.injEq] at hd
    rw [← hd] at hfound
    simp at hfound
  · rw [AList.lookup_insert_ne hdc] at hd
    exact hunique d ⟨found, hd, hfound⟩

theorem OneOwner.erase {participants : Participants} (h : OneOwner participants) {c : ConnId}
    {participant : Participant} (hc : participants.lookup c = some participant)
    (hno : participant.isOwner = false) : OneOwner (participants.erase c) := by
  obtain ⟨o, ⟨found, ho, howner⟩, hunique⟩ := h
  have hoc : o ≠ c := by
    intro hoc
    subst hoc
    rw [hc, Option.some.injEq] at ho
    rw [← ho, hno] at howner
    simp at howner
  refine ⟨o, ⟨found, by rw [AList.lookup_erase_ne hoc, ho], howner⟩, ?_⟩
  intro d howned
  obtain ⟨found', hd, hfound⟩ := howned
  by_cases hdc : d = c
  · rw [hdc, AList.lookup_erase] at hd
    simp at hd
  · rw [AList.lookup_erase_ne hdc] at hd
    exact hunique d ⟨found', hd, hfound⟩

namespace Tidy

/-- Before the counter wraps, the next id is in nobody's use. -/
theorem fresh (hinv : Inv cfg k) (hlt : k.nextRoom + 1 < 2 ^ 32) {p : RoomPtr} :
    k.rooms.lookup k.nextRoomId ≠ some p := by
  intro hp
  obtain ⟨hlt', hid, -⟩ := hinv.listed hp
  have heq : (UInt32.ofNat (k.nextRoom + 1)).toNat = (UInt32.ofNat (p + 1)).toNat := by
    rw [← hinv.nextRoomId, hid]
  rw [UInt32.toNat_ofNat', UInt32.toNat_ofNat', Nat.mod_eq_of_lt hlt,
    Nat.mod_eq_of_lt (Nat.lt_trans (Nat.succ_lt_succ hlt') hlt)] at heq
  exact absurd (Nat.succ.inj heq).symm (Nat.ne_of_lt hlt')

theorem found (h : Tidy k) (hinv : Inv cfg k) (c : ConnId) (ip : UInt32)
    (hnew : k.nextRoomId ∉ k.rooms) : Tidy (k.found c (AList.singleton c ⟨ip, true⟩)) := by
  have hroom : ∀ {q}, q ≠ k.nextRoom →
      (k.found c (AList.singleton c ⟨ip, true⟩)).room q = k.room q := by
    intro q hq
    simp only [Core.found, Core.build, Function.update_apply, if_neg hq]
  have hself : ((k.found c (AList.singleton c ⟨ip, true⟩)).room k.nextRoom).participants
      = AList.singleton c ⟨ip, true⟩ := by
    simp only [Core.found, Core.build, Function.update_self]
  have hold : ∀ {q}, k.InTable q → q ≠ k.nextRoom := fun hq => Nat.ne_of_lt (hinv.lt_nextRoom hq)
  refine ⟨?_, ?_, ?_⟩
  · intro d q hq
    simp only [Core.found, Core.build, Function.update_apply] at hq
    split at hq
    · rename_i hd
      rw [← Option.some.inj hq, hself, hd]
      simp [AList.mem_keys]
    · rw [hroom (hold (hinv.routed hq).2)]
      exact h.member hq
  · intro q hq
    rcases (Inv.inTable_found hnew).mp hq with rfl | hq'
    · rw [hself]
      exact oneOwner_singleton c ip
    · rw [hroom (hold hq')]
      exact h.owner hq'
  · intro q hq
    rw [Inv.inTable_found hnew, not_or] at hq
    rw [hroom hq.1]
    exact h.empty hq.2

theorem join (h : Tidy k) {c : ConnId} {p : RoomPtr} (ip : UInt32) (hp : k.InTable p)
    (hout : c ∉ (k.room p).participants) :
    Tidy ((k.setParticipants p ((k.room p).participants.insert c ⟨ip, false⟩)).route c p) := by
  refine ⟨?_, ?_, ?_⟩
  · intro d q hq
    simp only [Core.route, Core.setParticipants, Function.update_apply] at hq ⊢
    split at hq
    · rename_i hd
      rw [if_pos (Option.some.inj hq).symm, hd]
      exact (AList.mem_insert _).mpr (Or.inl rfl)
    · have hmem := h.member hq
      split
      · rename_i hqp
        exact (AList.mem_insert _).mpr (Or.inr (hqp ▸ hmem))
      · exact hmem
  · intro q hq
    have hq' : k.InTable q := Inv.inTable_setParticipants.mp hq
    simp only [Core.route, Core.setParticipants, Function.update_apply]
    split
    · exact (h.owner hp).insert hout
    · exact h.owner hq'
  · intro q hq
    have hq' : ¬ k.InTable q := fun hin => hq (Inv.inTable_setParticipants.mpr hin)
    have hqp : q ≠ p := fun heq => hq' (heq ▸ hp)
    simp only [Core.route, Core.setParticipants, Function.update_apply, if_neg hqp]
    exact h.empty hq'

theorem leave (h : Tidy k) (hinv : Inv cfg k) {c : ConnId} {p : RoomPtr}
    (hroute : k.connectionRoom c = some p)
    {participant : Participant} (hc : (k.room p).participants.lookup c = some participant)
    (hno : participant.isOwner = false) :
    Tidy ((k.shut c).setParticipants p ((k.room p).participants.erase c)) := by
  refine ⟨?_, ?_, ?_⟩
  · intro d q hq
    simp only [Core.setParticipants, Core.shut, Function.update_apply] at hq ⊢
    split at hq
    · simp at hq
    · rename_i hdc
      have hmem := h.member hq
      split
      · rename_i hqp
        exact AList.mem_erase.mpr ⟨hdc, hqp ▸ hmem⟩
      · exact hmem
  · intro q hq
    have hq' : k.InTable q := Inv.inTable_setParticipants.mp hq
    simp only [Core.setParticipants, Core.shut, Function.update_apply]
    split
    · rename_i hqp
      exact (hqp ▸ h.owner hq').erase hc hno
    · exact h.owner hq'
  · intro q hq
    have hq' : ¬ k.InTable q := fun hin => hq (Inv.inTable_setParticipants.mpr hin)
    have hqp : q ≠ p := fun heq => hq' (heq ▸ (hinv.routed hroute).2)
    simp only [Core.setParticipants, Core.shut, Function.update_apply, if_neg hqp]
    exact h.empty hq'

theorem dissolve (h : Tidy k) {p : RoomPtr} (hp : k.InTable p) :
    Tidy (k.dissolve p) := by
  have hroom : ∀ {q}, q ≠ p → (k.dissolve p).room q = k.room q := by
    intro q hq
    simp only [Core.dissolve, Function.update_apply, if_neg hq]
  refine ⟨?_, ?_, ?_⟩
  · intro d q hq
    simp only [Core.dissolve] at hq
    split at hq
    · simp at hq
    · rename_i hne
      have hqp : q ≠ p := fun heq => hne (heq ▸ hq)
      rw [hroom hqp]
      exact h.member hq
  · intro q hq
    obtain ⟨hq', hqp⟩ := (Inv.inTable_dissolve hp).mp hq
    rw [hroom hqp]
    exact h.owner hq'
  · intro q hq
    by_cases hqp : q = p
    · simp only [Core.dissolve, hqp, Function.update_self]
    · rw [hroom hqp]
      exact h.empty fun hin => hq ((Inv.inTable_dissolve hp).mpr ⟨hin, hqp⟩)

/-- Every act keeps a tidy state tidy, while ids last and rooms have seats. -/
theorem act (h : Tidy k) (hinv : Inv cfg k) (hseats : 1 ≤ cfg.maxParticipantsPerRoom) {k' : Core}
    (ha : Act cfg env k k') (hlt : k'.nextRoom < 2 ^ 32 - 1) : Tidy k' := by
  cases ha with
  | malformed c _ _ => exact ⟨h.member, h.owner, h.empty⟩
  | answered c response _ _ _ _ => exact ⟨h.member, h.owner, h.empty⟩
  | vacant c _ _ _ _ hnone response _ => omega
  | collided c p participants _ _ _ hold response _ =>
      exact absurd hold (fresh hinv (Nat.lt_of_lt_of_le hlt (Nat.sub_le _ _)))
  | hosted c n _ _ _ hnew _ response _ =>
      have := h.found hinv c (env.peerIp c n) hnew
      exact ⟨this.member, this.owner, this.empty⟩
  | joined c p n m present _ hlobby hp _ _ response _ =>
      have := h.join (env.peerIp c n) hp (hinv.not_seated hlobby hp)
      exact ⟨this.member, this.owner, this.empty⟩
  | alone c _ hout =>
      refine ⟨?_, h.owner, h.empty⟩
      intro d q hq
      simp only [Core.shut, Function.update_apply] at hq
      split at hq
      · simp at hq
      · exact h.member hq
  | left c p participant _ hroute hc hno =>
      have := h.leave hinv hroute hc hno
      exact ⟨this.member, this.owner, this.empty⟩
  | dissolved c p participant _ hroute _ _ =>
      have := h.dissolve (hinv.routed hroute).2
      exact ⟨this.member, this.owner, this.empty⟩

/-- **Every move keeps a tidy state tidy, while ids last and rooms have seats.** -/
theorem move (h : Tidy k) (hinv : Inv cfg k) (hseats : 1 ≤ cfg.maxParticipantsPerRoom) {k' : Core}
    (hm : Move cfg env k k') (hlt : k'.nextRoom < 2 ^ 32 - 1) : Tidy k' := by
  cases hm with
  | accept => exact ⟨h.member, h.owner, h.empty⟩
  | receive c data _ => exact ⟨h.member, h.owner, h.empty⟩
  | packet c packet n _ _ => exact ⟨h.member, h.owner, h.empty⟩
  | act ha => exact h.act hinv hseats ha hlt

end Tidy

theorem Move.nextRoom_le {k' : Core} (hm : Move cfg env k k') : k.nextRoom ≤ k'.nextRoom := by
  cases hm with
  | accept => exact Nat.le_refl _
  | receive c data _ => exact Nat.le_refl _
  | packet c packet n _ _ => exact Nat.le_refl _
  | act ha => exact ha.beside.nextRoom

theorem Tidy.moves (h : Tidy k) (hinv : Inv cfg k) (hseats : 1 ≤ cfg.maxParticipantsPerRoom)
    {k' : Core} (hm : Moves cfg env k k') (hlt : k'.nextRoom < 2 ^ 32 - 1) : Tidy k' := by
  induction hm with
  | refl => exact h
  | tail hms hmove ih =>
      exact (ih (Nat.lt_of_le_of_lt hmove.nextRoom_le hlt)).move (hinv.moves hms) hseats hmove hlt

end CloudMeeting.Server
