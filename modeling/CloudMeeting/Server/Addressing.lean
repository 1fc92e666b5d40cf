/-
Where the server's addresses come from, and when they name a connection.

Every address the server writes into a frame is one it once got from `peer_ip_network`
on the connection the frame is about (`Records`); no packet of a client can change it.
If that function keeps returning the same value for a connection, an address stands
for its connection, and what is queued for a connection is the notes of the conference
with each member written as its address (`outgoing_notes`).
-/
import CloudMeeting.Server.Parsing

namespace CloudMeeting.Server

open Conference Endian

variable {cfg : ServerConfig} {env : Env} {k : Core}

/-- The address is one `peer_ip_network` has returned for the connection. -/
def Learnt (env : Env) (c : ConnId) (ip : UInt32) : Prop := ∃ n, ip = env.peerIp c n

/-- Every address of the participants has been learnt. -/
def AllLearnt (env : Env) (participants : Participants) : Prop :=
  ∀ c q, participants.lookup c = some q → Learnt env c q.ipNetwork

/-- Every address in the record has been learnt. -/
def Record.Learnt (env : Env) : Record → Prop
  | .packet _ _ present => AllLearnt env present
  | .joined _ c _ ip present =>
      Server.Learnt env c ip ∧ ∀ item ∈ present, Server.Learnt env item.1 item.2.ipNetwork
  | .left _ c participant remaining =>
      Server.Learnt env c participant.ipNetwork ∧ AllLearnt env remaining
  | _ => True

/-- Every address on record has been learnt. -/
structure Records (env : Env) (k : Core) : Prop where
  participants : ∀ {p}, k.InTable p → AllLearnt env (k.room p).participants
  history : ∀ r ∈ k.history, r.Learnt env

theorem AllLearnt.empty : AllLearnt env ∅ := by
  intro c q h
  simp at h

theorem AllLearnt.insert {participants : Participants} (h : AllLearnt env participants)
    (c : ConnId) (n : Nat) (isOwner : Bool) :
    AllLearnt env (participants.insert c ⟨env.peerIp c n, isOwner⟩) := by
  intro d q hd
  by_cases hdc : d = c
  · subst hdc
    rw [AList.lookup_insert, Option.some.injEq] at hd
    exact ⟨n, by rw [← hd]⟩
  · rw [AList.lookup_insert_ne hdc] at hd
    exact h d q hd

theorem AllLearnt.erase {participants : Participants} (h : AllLearnt env participants)
    (c : ConnId) : AllLearnt env (participants.erase c) := by
  intro d q hd
  by_cases hdc : d = c
  · rw [hdc, AList.lookup_erase] at hd
    simp at hd
  · rw [AList.lookup_erase_ne hdc] at hd
    exact h d q hd

theorem AllLearnt.mem {participants : Participants} (h : AllLearnt env participants)
    {item : Sigma fun _ : ConnId => Participant} (hitem : item ∈ participants.entries) :
    Learnt env item.1 item.2.ipNetwork := by
  have hlookup : participants.lookup item.1 = some item.2 := by
    rw [← Option.mem_def, AList.mem_lookup_iff]
    exact hitem
  exact h item.1 item.2 hlookup

namespace Records

theorem init : Records env ({} : State).core where
  participants h := by simp [State.core, Core.InTable] at h
  history r h := by simp [State.core] at h

theorem log (h : Records env k) {r : Record} (hr : r.Learnt env) : Records env (k.log r) := by
  refine ⟨h.participants, fun x hx => ?_⟩
  rcases List.mem_append.mp hx with hx | hx
  · exact h.history x hx
  · rw [List.mem_singleton.mp hx]
    exact hr

theorem found (h : Records env k) (hnew : k.nextRoomId ∉ k.rooms) {c : ConnId}
    {participants : Participants} (hp : AllLearnt env participants) :
    Records env (k.found c participants) := by
  refine ⟨fun {q} hq => ?_, h.history⟩
  simp only [Core.found, Core.build, Function.update_apply]
  split
  · exact hp
  · rename_i hne
    rcases (Inv.inTable_found hnew).mp hq with heq | hq
    · exact absurd heq hne
    · exact h.participants hq

theorem setParticipants (h : Records env k) {p : RoomPtr} {participants : Participants}
    (hp : AllLearnt env participants) : Records env (k.setParticipants p participants) := by
  refine ⟨fun {q} hq => ?_, h.history⟩
  have hq' := Inv.inTable_setParticipants.mp hq
  simp only [Core.setParticipants, Function.update_apply]
  split
  · exact hp
  · exact h.participants hq'

theorem act (h : Records env k) (hinv : Inv cfg k) {k' : Core} (ha : Act cfg env k k') :
    Records env k' := by
  cases ha with
  | malformed c _ _ => exact h.log trivial
  | answered c response _ _ _ _ => exact h.log trivial
  | vacant c _ _ _ hnew _ response _ => exact (h.found hnew AllLearnt.empty).log trivial
  | collided c p participants _ _ _ hold response _ =>
      have hbuild : Records env
          ((k.build { roomId := k.nextRoomId, participants := participants }).route c p) := by
        refine ⟨fun {q} hq => ?_, h.history⟩
        have hq' := (hinv.inTable_collide hold).mp hq
        simp only [Core.route, Inv.room_build (hinv.lt_nextRoom hq')]
        exact h.participants hq'
      exact hbuild.log trivial
  | hosted c n _ _ _ hnew _ response _ =>
      refine (h.found hnew ?_).log trivial
      rw [← AList.insert_empty]
      exact AllLearnt.empty.insert c n true
  | joined c p n m present _ _ hp _ hpresent response _ =>
      have hseat : Records env ((k.setParticipants p ((k.room p).participants.insert c
          ⟨env.peerIp c n, false⟩)).route c p) := by
        have := h.setParticipants (p := p) ((h.participants hp).insert c n false)
        exact ⟨this.participants, this.history⟩
      refine hseat.log ⟨⟨m, rfl⟩, fun item hitem => ?_⟩
      exact (h.participants hp).mem (hpresent.mem_iff.mp hitem)
  | alone c _ _ => exact ⟨h.participants, h.history⟩
  | left c p participant _ hroute hseat _ =>
      have hp := (hinv.routed hroute).2
      have hleave :
          Records env ((k.shut c).setParticipants p ((k.room p).participants.erase c)) := by
        have := h.setParticipants (p := p) ((h.participants hp).erase c)
        exact ⟨this.participants, this.history⟩
      exact hleave.log ⟨h.participants hp c participant hseat, (h.participants hp).erase c⟩
  | dissolved c p participant _ hroute _ _ =>
      have hdissolve : Records env (k.dissolve p) := by
        refine ⟨fun {q} hq => ?_, h.history⟩
        obtain ⟨hq', hqp⟩ := (Inv.inTable_dissolve (hinv.routed hroute).2).mp hq
        simp only [Core.dissolve, Function.update_apply, if_neg hqp]
        exact h.participants hq'
      exact hdissolve.log trivial

theorem move (h : Records env k) (hinv : Inv cfg k) {k' : Core} (hm : Move cfg env k k') :
    Records env k' := by
  cases hm with
  | act ha => exact h.act hinv ha
  | accept => exact ⟨h.participants, h.history⟩
  | receive c data _ => exact ⟨h.participants, h.history⟩
  | packet c sent n _ _ =>
      have hread : Records env { k with
          readBuffer := Function.update k.readBuffer c ((k.readBuffer c).moveReadPos n) } :=
        ⟨h.participants, h.history⟩
      apply hread.log
      show AllLearnt env (k.presentFor c)
      unfold Core.presentFor
      split
      · rename_i p hroute
        exact h.participants (hinv.routed hroute).2
      · exact AllLearnt.empty

theorem moves {k' : Core} (h : Records env k) (hinv : Inv cfg k) (hm : Moves cfg env k k') :
    Records env k' := by
  induction hm with
  | refl => exact h
  | tail hms hmove ih => exact ih.move (hinv.moves hms) hmove

end Records

theorem Reachable.records {s : State} (h : Reachable cfg env s) : Records env s.core :=
  Records.init.moves (Inv.init cfg) h.moves.1

/-! ### Addresses that stand for connections -/

/-- `peer_ip_network` returns one value for each connection. -/
def Steady (env : Env) : Prop := ∀ c m n, env.peerIp c m = env.peerIp c n

/-- The address of a connection, when it has one. -/
def Env.address (env : Env) (c : ConnId) : UInt32 := env.peerIp c 0

theorem Learnt.eq_address (hsteady : Steady env) {c : ConnId} {ip : UInt32}
    (h : Learnt env c ip) : ip = env.address c := by
  obtain ⟨n, rfl⟩ := h
  exact hsteady c n 0

/-- The packet a note goes out as. -/
def notePacket (address : ConnId → UInt32) : Note ConnId Packet → Packet
  | .reply m => m
  | .joined c => { type := .partnerJoin, ip := address c }
  | .roster cs =>
      { type := .partnerJoin2, payload := cs.flatMap fun c => store32 (htonl (address c)) }
  | .relayed _ m => m
  | .left c => { type := .partnerExit, ip := address c }

/-- What a record sends is what its happening says. -/
theorem sends_eq_notes (hsteady : Steady env) {r : Record} (hr : r.Learnt env) (d : ConnId) :
    r.sends d
      = (r.happening.toList.flatMap (noteFor d)).map (notePacket env.address) := by
  cases r with
  | packet c sent present =>
      simp only [Record.sends, Record.happening]
      cases hseat : present.lookup c with
      | none => rfl
      | some sender =>
          have hmem : d ∈ present.keys.erase c ↔ d ≠ c ∧ d ∈ present := by
            rw [(AList.keys_nodup present).mem_erase_iff, AList.mem_keys]
          cases hout : outbound sender.ipNetwork sent with
          | none => simp [hout]
          | some m =>
              simp only [hout, Option.map_some, Option.toList_some, List.flatMap_singleton, noteFor]
              by_cases hin : d ≠ c ∧ d ∈ present
              · rw [if_pos hin, if_pos (hmem.mpr hin)]
                rfl
              · rw [if_neg hin, if_neg fun hmem' => hin (hmem.mp hmem')]
                rfl
  | malformed c => rfl
  | answered c response =>
      by_cases hcd : c = d <;> simp [Record.sends, Record.happening, noteFor, hcd, notePacket]
  | hosted p c response =>
      by_cases hcd : c = d <;> simp [Record.sends, Record.happening, noteFor, hcd, notePacket]
  | joined p c response ip present =>
      have hlist : partnerList present = notePacket env.address (.roster present.keys) := by
        simp only [partnerList, notePacket, List.keys, List.flatMap_map]
        congr 1
        apply List.flatMap_congr
        intro item hitem
        rw [(hr.2 item hitem).eq_address hsteady]
      have hip : ip = env.address c := hr.1.eq_address hsteady
      by_cases hcd : c = d
      · simp [Record.sends, Record.happening, noteFor, hcd, hlist, notePacket]
      · by_cases hin : d ∈ present.keys
        · have hin' : d ∈ present.map (·.1) := hin
          simp only [Record.sends, Record.happening, noteFor, if_neg hcd, if_pos hin, if_pos hin',
            Option.toList_some, List.flatMap_singleton, List.map_singleton, notePacket, hip]
        · have hin' : d ∉ present.map (·.1) := hin
          simp only [Record.sends, Record.happening, noteFor, if_neg hcd, if_neg hin, if_neg hin',
            Option.toList_some, List.flatMap_singleton, List.map_nil]
  | left p c participant remaining =>
      have hip : participant.ipNetwork = env.address c := Learnt.eq_address hsteady hr.1
      have hkeys : d ∈ remaining.keys ↔ d ∈ remaining := AList.mem_keys.symm
      by_cases hin : d ∈ remaining <;>
        simp [Record.sends, Record.happening, noteFor, hkeys, hin, notePacket, hip]
  | dissolved p => rfl

/-- What the records send to a connection is what the conference tells it. -/
theorem Reachable.sends_notes {s : State} (h : Reachable cfg env s) (hsteady : Steady env)
    (d : ConnId) : s.history.flatMap (·.sends d)
      = (notes d (happenings s.history)).map (notePacket env.address) := by
  have hlearnt : ∀ r ∈ s.history, r.Learnt env := h.records.history
  revert hlearnt
  induction s.history with
  | nil => exact fun _ => rfl
  | cons r history ih =>
      intro hlearnt
      have hcons : happenings (r :: history) = r.happening.toList ++ happenings history := by
        simp only [happenings, List.filterMap_cons]
        cases r.happening <;> rfl
      rw [List.flatMap_cons, hcons, notes, List.flatMap_append, List.map_append,
        sends_eq_notes hsteady (hlearnt r (by simp)), ih fun x hx => hlearnt x (by simp [hx])]
      rfl

/-- **What is queued for a connection is the notes of the conference**, written out. -/
theorem Reachable.outgoing_notes {s : State} (h : Reachable cfg env s) (hsteady : Steady env)
    (d : ConnId) : (s.conn d).outgoing
      = ((notes d (happenings s.history)).map (notePacket env.address)).map Codec.encode := by
  have hout : (s.conn d).outgoing = (s.history.flatMap (·.sends d)).map Codec.encode :=
    h.confers.outgoing d
  rw [hout, h.sends_notes hsteady]

end CloudMeeting.Server
