/-
The server holds a conference.

The history of the server, read as happenings, is a valid history of a conference:
whoever the server lists as present, audience or remaining is exactly that, and nobody
takes a seat twice.  The members of a room in that history are the participants of the
room in the table, and everything queued for a connection is what the history says it
has been told.  `Confers` states this of a core and the moves preserve it.
-/
import CloudMeeting.Server.Handlers
import CloudMeeting.Conference.Introduction

namespace CloudMeeting.Server

open Conference Endian

variable {cfg : ServerConfig} {env : Env} {k : Core}

/-- What a record means for the conference, if anything. -/
def Record.happening : Record → Option (Happening RoomPtr ConnId Packet)
  | .packet c sent present =>
      match present.lookup c with
      | some sender =>
          (outbound sender.ipNetwork sent).map fun m => .spoke c m (present.keys.erase c)
      | none => none
  | .malformed _ => none
  | .answered c response => some (.answered c response)
  | .hosted p c response => some (.hosted p c response)
  | .joined p c response _ present => some (.joined p c response present.keys)
  | .left p c _ remaining => some (.left p c remaining.keys)
  | .dissolved p => some (.dissolved p)

/-- The history of the conference the server holds. -/
def happenings (history : List Record) : List (Happening RoomPtr ConnId Packet) :=
  history.filterMap Record.happening

@[simp] theorem happenings_nil : happenings [] = [] := rfl

theorem happenings_snoc (history : List Record) (r : Record) :
    happenings (history ++ [r]) = happenings history ++ r.happening.toList := by
  simp only [happenings, List.filterMap_append, List.filterMap_cons, List.filterMap_nil]
  cases r.happening <;> rfl

/-- The connection is a participant of a room in the table. -/
def Core.Seated (k : Core) (c : ConnId) : Prop :=
  ∃ p, k.InTable p ∧ c ∈ (k.room p).participants

/-- Nothing is received, recorded or queued between the two. -/
structure Core.Quiet (k k' : Core) : Prop where
  history : k'.history = k.history
  outgoing : k'.outgoing = k.outgoing
  nextConnId : k'.nextConnId = k.nextConnId
  received : k'.received = k.received
  readBuffer : k'.readBuffer = k.readBuffer

/-- The core and its history tell the same story. -/
structure Confers (k : Core) : Prop where
  valid : Valid (happenings k.history)
  members : ∀ {p c}, c ∈ members (happenings k.history) p
    ↔ k.InTable p ∧ c ∈ (k.room p).participants
  /-- Whoever has been seated is gone, or still sits there. -/
  entered : ∀ {c}, Entered (happenings k.history) c →
    (0 < c ∧ c < k.nextConnId) ∧ (k.closed c = false → k.Seated c)
  outgoing : ∀ d, k.outgoing d = (k.history.flatMap (·.sends d)).map Codec.encode
  unborn : ∀ {c}, ¬ (0 < c ∧ c < k.nextConnId) →
    k.outgoing c = [] ∧ k.received c = [] ∧ k.readBuffer c = Buffer.new initBufferSize

theorem Confers.init : Confers ({} : State).core where
  valid := .nil
  members := by simp [State.core, Core.InTable]
  entered h := absurd h (not_entered_nil _)
  outgoing _ := rfl
  unborn _ := ⟨rfl, rfl, rfl⟩

namespace Confers

/-- Who is in the room, as a list that may be in another order. -/
theorem keys_perm (h : Confers k) {p : RoomPtr} (hp : k.InTable p) :
    (k.room p).participants.keys.Perm (Conference.members (happenings k.history) p) := by
  apply (List.perm_ext_iff_of_nodup (AList.keys_nodup _) (h.valid.seated.nodup p)).mpr
  intro c
  rw [h.members, ← AList.mem_keys]
  simp [hp]

/-- A connection in the lobby has never been seated. -/
theorem not_entered (h : Confers k) (hinv : Inv cfg k) {c : ConnId} (hopen : k.closed c = false)
    (hlobby : k.connectionRoom c = none) : ¬ Entered (happenings k.history) c := by
  intro hentered
  obtain ⟨p, hp, hc⟩ := (h.entered hentered).2 hopen
  exact hinv.not_seated hlobby hp hc

/-- One record more: the history grows by what it means, the queues by what it sends. -/
theorem log (h : Confers k) {k' : Core} {r : Record}
    (hquiet : k.Quiet k') (hfits : ∀ e ∈ r.happening, Fits (happenings k.history) e)
    (hmembers : ∀ {p c}, c ∈ Conference.members (happenings (k.history ++ [r])) p
      ↔ k'.InTable p ∧ c ∈ (k'.room p).participants)
    (hseats : ∀ e ∈ r.happening, ∀ c, e.Seats c → 0 < c ∧ c < k.nextConnId)
    (hentered : ∀ {c}, (Entered (happenings k.history) c ∨ ∃ e ∈ r.happening, e.Seats c) →
      k'.closed c = false → k'.Seated c)
    (hsends : ∀ c, ¬ (0 < c ∧ c < k.nextConnId) → r.sends c = []) : Confers (k'.log r) := by
  have hsnoc : happenings (k'.log r).history = happenings k.history ++ r.happening.toList := by
    rw [Core.log_history, hquiet.history, happenings_snoc]
  have hseat : ∀ {c}, Entered (happenings (k'.log r).history) c →
      Entered (happenings k.history) c ∨ ∃ e ∈ r.happening, e.Seats c := by
    intro c hc
    obtain ⟨e, he, hs⟩ := hc
    rw [hsnoc, List.mem_append] at he
    rcases he with he | he
    · exact Or.inl ⟨e, he, hs⟩
    · exact Or.inr ⟨e, by simpa using he, hs⟩
  refine ⟨?_, ?_, ?_, ?_, ?_⟩
  · rw [hsnoc]
    cases hr : r.happening with
    | none => simpa using h.valid
    | some e => exact h.valid.snoc (hfits e (by rw [hr]; rfl))
  · intro p c
    rw [Core.log_history, hquiet.history]
    exact hmembers
  · intro c hc
    rw [Core.log_nextConnId, hquiet.nextConnId]
    refine ⟨?_, hentered (hseat hc)⟩
    rcases hseat hc with hc | ⟨e, he, hs⟩
    · exact (h.entered hc).1
    · exact hseats e he c hs
  · intro d
    rw [Core.log_history, hquiet.history, List.flatMap_append, List.map_append, ← h.outgoing d,
      ← hquiet.outgoing]
    simp [Core.log]
  · intro c hc
    rw [Core.log_nextConnId, hquiet.nextConnId] at hc
    obtain ⟨h1, h2, h3⟩ := h.unborn hc
    refine ⟨?_, ?_, ?_⟩
    · simp [Core.log, hquiet.outgoing, h1, hsends c hc]
    · rw [Core.log_received, hquiet.received, h2]
    · rw [Core.log_readBuffer, hquiet.readBuffer, h3]

/-- A record that moves nobody, in a room table that stays as it was. -/
theorem still (h : Confers k) {k' : Core} {r : Record}
    (hquiet : k.Quiet k') (hfits : ∀ e ∈ r.happening, Fits (happenings k.history) e)
    (hnobody : ∀ e ∈ r.happening, (∀ c, ¬ e.Seats c) ∧
      ∀ seats : RoomPtr → List ConnId, seat seats e = seats)
    (htable : ∀ {p c}, (k'.InTable p ∧ c ∈ (k'.room p).participants)
      ↔ k.InTable p ∧ c ∈ (k.room p).participants)
    (hclosed : k'.closed = k.closed)
    (hsends : ∀ c, ¬ (0 < c ∧ c < k.nextConnId) → r.sends c = []) : Confers (k'.log r) := by
  refine h.log hquiet hfits ?_ ?_ ?_ hsends
  · intro p c
    rw [htable, ← h.members, happenings_snoc]
    cases hr : r.happening with
    | none => simp
    | some e => simp [(hnobody e (by rw [hr]; rfl)).2]
  · exact fun e he c hs => absurd hs ((hnobody e he).1 c)
  · intro c hc hopen
    rcases hc with hc | ⟨e, he, hs⟩
    · rw [hclosed] at hopen
      obtain ⟨p, hp⟩ := (h.entered hc).2 hopen
      exact ⟨p, htable.mpr hp⟩
    · exact absurd hs ((hnobody e he).1 c)

/-- An answer that seats nobody. -/
theorem answered (h : Confers k) {k' : Core} {c : ConnId} {response : Packet}
    (hquiet : k.Quiet k') (hclosed : k'.closed = k.closed)
    (hborn : 0 < c ∧ c < k.nextConnId)
    (htable : ∀ {q x}, (k'.InTable q ∧ x ∈ (k'.room q).participants)
      ↔ k.InTable q ∧ x ∈ (k.room q).participants) :
    Confers (k'.log (.answered c response)) := by
  refine h.still hquiet ?_ ?_ htable hclosed ?_
  · intro e he
    cases he
    exact trivial
  · intro e he
    cases he
    exact ⟨fun _ => id, fun _ => rfl⟩
  · intro d hd
    have hcd : c ≠ d := fun hcd => hd (hcd ▸ hborn)
    exact if_neg hcd

/-- A member takes a seat. -/
theorem sits (h : Confers k) {k' : Core} {r : Record} {e : Happening RoomPtr ConnId Packet}
    {p : RoomPtr} {c : ConnId}
    (hquiet : k.Quiet k') (hclosed : k'.closed = k.closed)
    (hborn : 0 < c ∧ c < k.nextConnId)
    (hr : r.happening = some e) (hfits : Fits (happenings k.history) e)
    (hseats : ∀ x, e.Seats x ↔ c = x)
    (hseat : ∀ q x, x ∈ seat (Conference.members (happenings k.history)) e q
      ↔ x ∈ Conference.members (happenings k.history) q ∨ q = p ∧ x = c)
    (htable : ∀ {q x}, (k'.InTable q ∧ x ∈ (k'.room q).participants)
      ↔ (k.InTable q ∧ x ∈ (k.room q).participants) ∨ q = p ∧ x = c)
    (hsends : ∀ d, ¬ (0 < d ∧ d < k.nextConnId) → r.sends d = []) : Confers (k'.log r) := by
  have hmem : ∀ {e'}, e' ∈ r.happening → e' = e := fun he' => by
    rw [hr] at he'
    exact (Option.some.inj he').symm
  refine h.log hquiet (fun e' he' => hmem he' ▸ hfits) ?_ ?_ ?_ hsends
  · intro q x
    rw [htable, ← h.members, happenings_snoc, hr]
    simp only [Option.toList_some, members_snoc, hseat]
  · intro e' he' x hx
    rw [hmem he', hseats] at hx
    exact hx ▸ hborn
  · intro x hx hopen
    rcases hx with hx | ⟨e', he', hs⟩
    · rw [hclosed] at hopen
      obtain ⟨q, hq⟩ := (h.entered hx).2 hopen
      exact ⟨q, htable.mpr (Or.inl hq)⟩
    · rw [hmem he', hseats] at hs
      exact ⟨p, htable.mpr (Or.inr ⟨rfl, hs.symm⟩)⟩

/-- Seats are given up. -/
theorem vacates (h : Confers k) {k' : Core} {r : Record} {e : Happening RoomPtr ConnId Packet}
    (hquiet : k.Quiet k')
    (hr : r.happening = some e) (hfits : Fits (happenings k.history) e)
    (hseats : ∀ x, ¬ e.Seats x)
    (htable : ∀ {q x}, x ∈ seat (Conference.members (happenings k.history)) e q
      ↔ k'.InTable q ∧ x ∈ (k'.room q).participants)
    (hstay : ∀ {q x}, k.InTable q → x ∈ (k.room q).participants →
      (k'.InTable q ∧ x ∈ (k'.room q).participants) ∨ k'.closed x = true)
    (hopen : ∀ {d}, k.closed d = true → k'.closed d = true)
    (hsends : ∀ d, ¬ (0 < d ∧ d < k.nextConnId) → r.sends d = []) : Confers (k'.log r) := by
  have hmem : ∀ {e'}, e' ∈ r.happening → e' = e := fun he' => by
    rw [hr] at he'
    exact (Option.some.inj he').symm
  refine h.log hquiet (fun e' he' => hmem he' ▸ hfits) ?_ ?_ ?_ hsends
  · intro q x
    rw [← htable, happenings_snoc, hr]
    simp only [Option.toList_some, members_snoc]
  · intro e' he' x hx
    exact absurd (hmem he' ▸ hx) (hseats x)
  · intro x hx hlive
    rcases hx with hx | ⟨e', he', hs⟩
    · have hwas : k.closed x = false := by
        cases hc : k.closed x with
        | false => rfl
        | true => rw [hopen hc] at hlive; simp at hlive
      obtain ⟨q, hq, hxq⟩ := (h.entered hx).2 hwas
      rcases hstay hq hxq with hq' | hgone
      · exact ⟨q, hq'⟩
      · rw [hgone] at hlive
        simp at hlive
    · exact absurd (hmem he' ▸ hs) (hseats x)

/-- A connection closes; whoever is closed need not sit anywhere. -/
theorem shut (h : Confers k) {c : ConnId} : Confers (k.shut c) := by
  refine ⟨h.valid, h.members, ?_, h.outgoing, h.unborn⟩
  intro x hx
  refine ⟨(h.entered hx).1, fun hopen => ?_⟩
  simp only [Core.shut, Function.update_apply] at hopen
  split at hopen
  · simp at hopen
  · exact (h.entered hx).2 hopen

theorem fits_spoke (h : Confers k) (hinv : Inv cfg k) {c : ConnId} {p : RoomPtr}
    (hroute : k.connectionRoom c = some p) (hc : c ∈ (k.room p).participants) (m : Packet) :
    Fits (happenings k.history) (.spoke c m ((k.room p).participants.keys.erase c)) := by
  have htable := (hinv.routed hroute).2
  exact Or.inr ⟨p, h.members.mpr ⟨htable, hc⟩, (h.keys_perm htable).erase c⟩

/-- Someone is seated in a room of its own. -/
theorem hosted (h : Confers k) (hinv : Inv cfg k) {c : ConnId} (newcomer : Participant)
    (hopen : k.closed c = false) (hlobby : k.connectionRoom c = none)
    (hnew : k.nextRoomId ∉ k.rooms) (response : Packet) :
    Confers ((k.found c (AList.singleton c newcomer)).log (.hosted k.nextRoom c response)) := by
  have hout : ¬ k.InTable k.nextRoom := fun hq => Nat.lt_irrefl _ (hinv.lt_nextRoom hq)
  have hempty : Conference.members (happenings k.history) k.nextRoom = [] := by
    apply List.eq_nil_iff_forall_not_mem.mpr
    intro x hx
    exact hout (h.members.mp hx).1
  refine h.sits (p := k.nextRoom) (c := c) ⟨rfl, rfl, rfl, rfl, rfl⟩ rfl (hinv.born hopen) rfl
    ⟨hempty, h.not_entered hinv hopen hlobby⟩ (fun x => Iff.rfl) ?_ ?_ ?_
  · intro q x
    rw [seat, Function.update_apply]
    by_cases hq : q = k.nextRoom
    · simp [hq, hempty]
    · simp [hq]
  · intro q x
    rw [Inv.inTable_found hnew]
    by_cases hq : q = k.nextRoom
    · subst hq
      simp [Core.found, Core.build, hout, AList.mem_keys]
    · simp [Core.found, Core.build, hq]
  · intro d hd
    have hcd : ¬ c = d := fun hcd => hd (hcd ▸ hinv.born hopen)
    exact if_neg hcd

/-- Someone is seated with those present. -/
theorem joined (h : Confers k) (hinv : Inv cfg k) {c : ConnId} {p : RoomPtr} {present : Entries}
    (newcomer : Participant) (ip : UInt32) (hopen : k.closed c = false)
    (hlobby : k.connectionRoom c = none) (hp : k.InTable p)
    (hpresent : present.Perm (k.room p).participants.entries) (response : Packet) :
    Confers (((k.setParticipants p ((k.room p).participants.insert c newcomer)).route c p).log
      (.joined p c response ip present)) := by
  have hkeys : present.keys.Perm (Conference.members (happenings k.history) p) :=
    (hpresent.map Sigma.fst).trans (h.keys_perm hp)
  refine h.sits (p := p) (c := c) ⟨rfl, rfl, rfl, rfl, rfl⟩ rfl (hinv.born hopen) rfl
    ⟨hkeys, h.not_entered hinv hopen hlobby⟩ (fun x => Iff.rfl) ?_ ?_ ?_
  · intro q x
    rw [seat, Function.update_apply]
    by_cases hq : q = p
    · simp [hq]
    · simp [hq]
  · intro q x
    have hin : ((k.setParticipants p ((k.room p).participants.insert c
        newcomer)).route c p).InTable q ↔ k.InTable q :=
      Inv.inTable_setParticipants
    rw [hin]
    by_cases hq : q = p
    · subst hq
      simp only [Core.route, Core.setParticipants, Function.update_self, AList.mem_insert, hp,
        true_and]
      exact or_comm
    · simp [Core.route, Core.setParticipants, hq]
  · intro d hd
    have hcd : ¬ c = d := fun hcd => hd (hcd ▸ hinv.born hopen)
    have hdp : d ∉ present.map (·.1) := fun hmem => by
      have hmem' : d ∈ (k.room p).participants := by
        rw [AList.mem_keys]
        exact (hpresent.map Sigma.fst).mem_iff.mp hmem
      exact hd (hinv.born (hinv.participant_open hp hmem'))
    simp only [Record.sends, if_neg hcd, if_neg hdp]

/-- A member leaves those remaining. -/
theorem left (h : Confers k) (hinv : Inv cfg k) {c : ConnId} {p : RoomPtr}
    {participant : Participant} (hroute : k.connectionRoom c = some p)
    (hseat : (k.room p).participants.lookup c = some participant) :
    Confers (((k.shut c).setParticipants p ((k.room p).participants.erase c)).log
      (.left p c participant ((k.room p).participants.erase c))) := by
  have hp := (hinv.routed hroute).2
  have hc : c ∈ (k.room p).participants :=
    AList.lookup_isSome.mp (Option.isSome_iff_exists.mpr ⟨_, hseat⟩)
  have hin : ∀ {q}, ((k.shut c).setParticipants p ((k.room p).participants.erase c)).InTable q
      ↔ k.InTable q := fun {q} => Inv.inTable_setParticipants
  have hnodup := h.valid.seated.nodup p
  have hkeys : ((k.room p).participants.erase c).keys.Perm
      ((Conference.members (happenings k.history) p).erase c) := by
    rw [AList.keys_erase]
    exact (h.keys_perm hp).erase c
  refine h.vacates ⟨rfl, rfl, rfl, rfl, rfl⟩ rfl ⟨h.members.mpr ⟨hp, hc⟩, hkeys⟩ (fun x => id)
    ?_ ?_ ?_ ?_
  · intro q x
    rw [hin, seat, Function.update_apply]
    by_cases hq : q = p
    · subst hq
      rw [if_pos rfl, hnodup.mem_erase_iff, h.members]
      simp only [Core.setParticipants, Core.shut, Function.update_self, AList.mem_erase, hp,
        true_and]
    · rw [if_neg hq, h.members]
      simp only [Core.setParticipants, Core.shut, Function.update_apply, if_neg hq]
  · intro q x hq hx
    rw [hin]
    by_cases hxc : x = c
    · right
      simp only [Core.setParticipants, Core.shut, hxc, Function.update_self]
    · left
      refine ⟨hq, ?_⟩
      simp only [Core.setParticipants, Core.shut, Function.update_apply]
      split
      · rename_i hqp
        exact AList.mem_erase.mpr ⟨hxc, hqp ▸ hx⟩
      · exact hx
  · intro d hd
    simp only [Core.setParticipants, Core.shut, Function.update_apply]
    split
    · rfl
    · exact hd
  · intro d hd
    apply if_neg
    intro hmem
    apply hd
    exact hinv.born (hinv.participant_open hp (AList.mem_erase.mp hmem).2)

/-- A room closes, with everybody in it. -/
theorem dissolved (h : Confers k) (hinv : Inv cfg k) {c : ConnId} {p : RoomPtr}
    (hroute : k.connectionRoom c = some p) : Confers ((k.dissolve p).log (.dissolved p)) := by
  have hp := (hinv.routed hroute).2
  refine h.vacates ⟨rfl, rfl, rfl, rfl, rfl⟩ rfl trivial (fun x => id) ?_ ?_ ?_ fun _ _ => rfl
  · intro q x
    rw [Inv.inTable_dissolve hp, seat, Function.update_apply]
    by_cases hq : q = p
    · simp [hq]
    · rw [if_neg hq, h.members]
      simp [Core.dissolve, hq]
  · intro q x hq hx
    by_cases hqp : q = p
    · right
      have hxp : x ∈ (k.room p).participants := hqp ▸ hx
      simp [Core.dissolve, hxp]
    · left
      refine ⟨(Inv.inTable_dissolve hp).mpr ⟨hq, hqp⟩, ?_⟩
      simpa only [Core.dissolve, Function.update_apply, if_neg hqp] using hx
  · intro d hd
    simp only [Core.dissolve, hd, Bool.true_or]

/-- **Every act fits the conference.** -/
theorem act (h : Confers k) (hinv : Inv cfg k) {k' : Core} (ha : Act cfg env k k') :
    Confers k' := by
  cases ha with
  | malformed c _ _ =>
      exact h.still ⟨rfl, rfl, rfl, rfl, rfl⟩ (by simp [Record.happening])
        (by simp [Record.happening]) Iff.rfl rfl fun _ _ => rfl
  | answered c response hopen _ _ _ =>
      exact h.answered ⟨rfl, rfl, rfl, rfl, rfl⟩ rfl (hinv.born hopen) Iff.rfl
  | vacant c hopen hlobby _ hnew _ response _ =>
      refine h.answered ⟨rfl, rfl, rfl, rfl, rfl⟩ rfl (hinv.born hopen) ?_
      intro q x
      rw [Inv.inTable_found hnew]
      by_cases hq : q = k.nextRoom
      · subst hq
        have hout : ¬ k.InTable k.nextRoom := fun hq => Nat.lt_irrefl _ (hinv.lt_nextRoom hq)
        simp [Core.found, Core.build, hout]
      · simp [Core.found, Core.build, hq]
  | collided c p participants hopen hlobby _ hold response _ =>
      refine h.answered ⟨rfl, rfl, rfl, rfl, rfl⟩ rfl (hinv.born hopen) ?_
      intro q x
      rw [hinv.inTable_collide hold]
      apply and_congr_right
      intro hq
      simp only [Core.route, Inv.room_build (hinv.lt_nextRoom hq)]
  | hosted c n hopen hlobby _ hnew _ response _ =>
      exact h.hosted hinv _ hopen hlobby hnew response
  | joined c p n m present hopen hlobby hp _ hpresent response _ =>
      exact h.joined hinv _ _ hopen hlobby hp hpresent response
  | alone c _ _ => exact h.shut
  | left c p participant _ hroute hseat _ => exact h.left hinv hroute hseat
  | dissolved c p participant _ hroute _ _ => exact h.dissolved hinv hroute

/-- A newcomer to the server is in no room. -/
theorem accept (h : Confers k) (hinv : Inv cfg k) : Confers { k with
    closed := Function.update k.closed k.nextConnId false
    readBuffer := Function.update k.readBuffer k.nextConnId (Buffer.new initBufferSize)
    received := Function.update k.received k.nextConnId []
    outgoing := Function.update k.outgoing k.nextConnId []
    nextConnId := k.nextConnId + 1 } := by
  have hnew : ¬ (0 < k.nextConnId ∧ k.nextConnId < k.nextConnId) :=
    fun hlt => Nat.lt_irrefl _ hlt.2
  refine ⟨h.valid, h.members, ?_, ?_, ?_⟩
  · intro c hc
    have hborn := (h.entered hc).1
    refine ⟨⟨hborn.1, Nat.lt_succ_of_lt hborn.2⟩, fun hopen => (h.entered hc).2 ?_⟩
    have hne : c ≠ k.nextConnId := Nat.ne_of_lt hborn.2
    simpa only [Function.update_apply, if_neg hne] using hopen
  · intro d
    simp only [Function.update_apply]
    split
    · rename_i hd
      rw [hd, ← h.outgoing, (h.unborn hnew).1]
    · exact h.outgoing d
  · intro c hc
    have hne : c ≠ k.nextConnId := fun heq => by
      apply hc
      rw [heq]
      exact ⟨hinv.first, Nat.lt_succ_self _⟩
    simp only [Function.update_apply, if_neg hne]
    exact h.unborn fun hlt => hc ⟨hlt.1, Nat.lt_succ_of_lt hlt.2⟩

/-- The read buffer of a connection is of no account. -/
theorem read (h : Confers k) {c : ConnId} (hborn : 0 < c ∧ c < k.nextConnId) (buffer : Buffer)
    (received : ConnId → Bytes) (hreceived : ∀ d, d ≠ c → received d = k.received d) :
    Confers { k with
      readBuffer := Function.update k.readBuffer c buffer
      received := received } := by
  refine ⟨h.valid, h.members, h.entered, h.outgoing, ?_⟩
  intro d hd
  have hne : d ≠ c := fun heq => hd (heq ▸ hborn)
  simp only [Function.update_apply, if_neg hne, hreceived d hne]
  exact h.unborn hd

/-- What a packet makes heard is heard where its sender sits. -/
theorem packet (h : Confers k) (hinv : Inv cfg k) (c : ConnId) (sent : Packet) :
    Confers (k.log (.packet c sent (k.presentFor c))) := by
  refine h.still ⟨rfl, rfl, rfl, rfl, rfl⟩ ?_ ?_ Iff.rfl rfl ?_
  · intro e he
    cases hroute : k.connectionRoom c with
    | none => simp [Record.happening, Core.presentFor, hroute] at he
    | some p =>
        simp only [Record.happening, Core.presentFor, hroute] at he
        cases hseat : (k.room p).participants.lookup c with
        | none => simp [hseat] at he
        | some sender =>
            simp only [hseat, Option.mem_def, Option.map_eq_some_iff] at he
            obtain ⟨m, -, rfl⟩ := he
            exact h.fits_spoke hinv hroute
              (AList.lookup_isSome.mp (Option.isSome_iff_exists.mpr ⟨_, hseat⟩)) m
  · intro e he
    simp only [Record.happening] at he
    split at he
    · obtain ⟨m, -, rfl⟩ := Option.map_eq_some_iff.mp he
      exact ⟨fun _ => id, fun _ => rfl⟩
    · simp at he
  · intro d hd
    simp only [Record.sends]
    split
    · apply if_neg
      intro hin
      apply hd
      -- whoever a packet reaches sits in the room, and so has been accepted
      have hmem := hin.2
      simp only [Core.presentFor] at hmem
      split at hmem
      · rename_i p hroute
        exact hinv.born (hinv.participant_open (hinv.routed hroute).2 hmem)
      · exact absurd hmem (AList.notMem_empty d)
    · rfl

/-- **Every move fits the conference.** -/
theorem move (h : Confers k) (hinv : Inv cfg k) {k' : Core} (hm : Move cfg env k k') :
    Confers k' := by
  cases hm with
  | act ha => exact h.act hinv ha
  | accept => exact h.accept hinv
  | receive c data hborn => exact h.read hborn _ _ fun d hd => Function.update_of_ne hd _ _
  | packet c sent n hopen hnext =>
      have hlogged := h.packet hinv c sent
      exact hlogged.read (hinv.born hopen) ((k.readBuffer c).moveReadPos n) k.received
        fun _ _ => rfl

theorem moves {k' : Core} (h : Confers k) (hinv : Inv cfg k) (hm : Moves cfg env k k') :
    Confers k' := by
  induction hm with
  | refl => exact h
  | tail hms hmove ih => exact ih.move (hinv.moves hms) hmove

end Confers

theorem Reachable.confers {s : State} (h : Reachable cfg env s) : Confers s.core :=
  Confers.init.moves (Inv.init cfg) h.moves.1

/-- **A queue holds what the records on history put there**, in order. -/
theorem Reachable.outgoing_eq {s : State} (h : Reachable cfg env s) (d : ConnId) :
    (s.conn d).outgoing = (s.history.flatMap (·.sends d)).map Codec.encode :=
  h.confers.outgoing d

end CloudMeeting.Server
