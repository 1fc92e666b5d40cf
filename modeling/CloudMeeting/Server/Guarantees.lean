/-
What the server guarantees over whole runs.

The three tables agree about memberships; media goes to the other members of the
sender's room, under the address recorded for the sender, and nowhere else; and what a
member hears about another is an introduction, then media, then at most one farewell.

Each is read off the invariants of the earlier files.  What is left to do here is to
find the moment a record was made at, and to say which types the answers have.
-/
import CloudMeeting.Server.Addressing

namespace CloudMeeting.Server

open Conference Endian

variable {cfg : ServerConfig} {env : Env} {k : Core} {s : State}

/-! ### A run to test the results on -/

/-- Every connection has its own address, and maps are iterated as they are stored. -/
def sampleEnv : Env where
  peerIp c _ := UInt32.ofNat (0x0A000000 + c)
  order _ entries := entries
  order_perm _ _ := .refl _

/-- Three parties meet; the second writes something. -/
def sampleMeeting : List Event :=
  [.accept, .accept, .accept,
    .receive 1 (Wire.frame 6 0 []),
    .receive 2 (Wire.frame 8 0 [0, 0, 0, 1]),
    .receive 3 (Wire.frame 8 0 [0, 0, 0, 1]),
    .receive 2 (Wire.frame 4 0 [104, 105])]

/-- The state after a list of events that can all happen. -/
def stateAfter (es : List Event) : State := (Run.run (step {} sampleEnv) {} es).getD {}

theorem run_stateAfter {es : List Event}
    (h : (Run.run (step {} sampleEnv) {} es).isSome = true) :
    Run.run (step {} sampleEnv) {} es = some (stateAfter es) := by
  obtain ⟨s, hs⟩ := Option.isSome_iff_exists.mp h
  rw [stateAfter, hs]
  rfl

/-! ### Membership -/

/-- The routing table, the rooms and the room table agree, with open connections. -/
structure Membership (cfg : ServerConfig) (s : State) : Prop where
  routed : ∀ c p, s.connectionRoom c = some p ↔
    c ∈ (s.room p).participants ∧ (s.room p).closed = false ∧
      s.getRoom (s.room p).roomId = some p
  single : ∀ c p q, c ∈ (s.room p).participants → c ∈ (s.room q).participants → p = q
  isOpen : ∀ c p, c ∈ (s.room p).participants → s.isOpen c = true
  owner : ∀ id p, s.getRoom id = some p → OneOwner (s.room p).participants
  rooms_le : s.rooms.entries.length ≤ cfg.maxRooms
  participants_le : ∀ p, (s.room p).participants.entries.length ≤ cfg.maxParticipantsPerRoom

/-- **Between two events the tables agree**, while room ids have not wrapped around. -/
theorem membership (hseats : 1 ≤ cfg.maxParticipantsPerRoom) (h : Reachable cfg env s)
    (hfew : s.nextRoom < 2 ^ 32 - 1) : Membership cfg s := by
  have hinv := h.inv
  have htidy : Tidy s.core := Tidy.init.moves (Inv.init cfg) hseats h.moves.1 hfew
  have hin : ∀ {c p}, c ∈ (s.room p).participants → s.core.InTable p := by
    intro c p hc
    by_contra hout
    have hempty : (s.room p).participants = ∅ := htidy.empty hout
    rw [hempty] at hc
    exact AList.notMem_empty c hc
  refine ⟨fun c p => ⟨fun hroute => ?_, fun hmem => ?_⟩, ?_, ?_, ?_, hinv.rooms_le, ?_⟩
  · have htable := (hinv.routed hroute).2
    exact ⟨htidy.member hroute, (hinv.listed htable).2.2.2.1, htable⟩
  · exact hinv.seated hmem.2.2 hmem.1
  · intro c p q hp hq
    have hroute : s.connectionRoom c = some p := hinv.seated (hin hp) hp
    have hroute' : s.connectionRoom c = some q := hinv.seated (hin hq) hq
    rw [hroute] at hroute'
    exact Option.some.inj hroute'
  · intro c p hc
    exact closed_of_isOpen.mpr (hinv.participant_open (hin hc) hc)
  · intro id p hp
    exact htidy.owner (hinv.inTable_of_lookup hp)
  · intro p
    by_cases htable : s.core.InTable p
    · exact hinv.fits htable
    · have hempty : (s.room p).participants = ∅ := htidy.empty htable
      rw [hempty]
      exact Nat.zero_le _

theorem membership_sampleMeeting : Membership {} (stateAfter sampleMeeting) :=
  membership (by decide) ⟨sampleMeeting, run_stateAfter (by decide +kernel)⟩ (by decide +kernel)

/-! ### The moment a packet is handled -/

/-- A move makes at most one record, and a packet is on record as it was found. -/
theorem Move.history {k' : Core} (hm : Move cfg env k k') :
    k'.history = k.history ∨ ∃ r, k'.history = k.history ++ [r] ∧
      ∀ c sent present, r = .packet c sent present →
        k.closed c = false ∧ present = k.presentFor c := by
  cases hm with
  | accept => exact Or.inl rfl
  | receive c data _ => exact Or.inl rfl
  | packet c sent n hopen _ =>
      refine Or.inr ⟨_, rfl, fun d sent' present heq => ?_⟩
      simp only [Record.packet.injEq] at heq
      obtain ⟨rfl, -, rfl⟩ := heq
      exact ⟨hopen, rfl⟩
  | act ha =>
      cases ha with
      | alone c _ _ => exact Or.inl rfl
      | _ => exact Or.inr ⟨_, rfl, by simp⟩

/-- The state a packet on record was handled in. -/
theorem Moves.packet_origin {k₀ : Core} (hm : Moves cfg env k₀ k) {c : ConnId} {sent : Packet}
    {present : Participants} {before after : List Record}
    (hhistory : k.history = before ++ .packet c sent present :: after)
    (hlen : k₀.history.length ≤ before.length) :
    ∃ k₁, Moves cfg env k₀ k₁ ∧ Moves cfg env k₁ k ∧ k₁.history = before ∧
      k₁.closed c = false ∧ present = k₁.presentFor c := by
  induction hm generalizing after with
  | refl =>
      rw [hhistory, List.length_append, List.length_cons] at hlen
      omega
  | @tail k k' hms hmove ih =>
      rcases hmove.history with hsame | ⟨r, hsnoc, hr⟩
      · obtain ⟨k₁, h1, h2, h3⟩ := ih (hsame ▸ hhistory)
        exact ⟨k₁, h1, h2.tail hmove, h3⟩
      · rw [hsnoc] at hhistory
        rcases List.eq_nil_or_concat after with rfl | ⟨init, last, rfl⟩
        · obtain ⟨h1, h2⟩ := List.append_inj' hhistory rfl
          obtain ⟨hopen, hpresent⟩ := hr c sent present (List.cons.inj h2).1
          exact ⟨k, hms, .single hmove, h1, hopen, hpresent⟩
        · rw [List.concat_eq_append, ← List.cons_append, ← List.append_assoc] at hhistory
          obtain ⟨k₁, h1, h2, h3⟩ := ih (List.append_inj' hhistory rfl).1
          exact ⟨k₁, h1, h2.tail hmove, h3⟩

/-! ### Isolation -/

/-- What a packet type is relayed as. -/
def relayedType (type : MessageType) : Option MessageType :=
  if type = .imgSend then some .imgRecv
  else if type = .audioSend then some .audioRecv
  else if type = .textSend then some .textRecv
  else if type = .closeCamera then some .closeCamera
  else none

def isRelayed (type : MessageType) : Bool :=
  type = .imgRecv ∨ type = .audioRecv ∨ type = .textRecv ∨ type = .closeCamera

/-- The frame a handled packet puts into the queue of `d`: its sender is another participant
of the room, and the address is the one recorded for the sender there. -/
def relayTo (d : ConnId) : Record → Option Packet
  | .packet c sent present =>
      match present.lookup c, relayedType sent.type with
      | some sender, some type =>
          if d ≠ c ∧ d ∈ present then
            some { type := type, ip := sender.ipNetwork,
                   payload := if type = .closeCamera then [] else sent.payload }
          else none
      | _, _ => none
  | _ => none

theorem outbound_eq (ip : UInt32) (sent : Packet) :
    outbound ip sent = (relayedType sent.type).map fun type =>
      { type := type, ip := ip, payload := if type = .closeCamera then [] else sent.payload } := by
  obtain ⟨type, ip', payload⟩ := sent
  unfold outbound relayedType
  by_cases h1 : type = .imgSend
  · subst h1; rfl
  by_cases h2 : type = .audioSend
  · subst h2; rfl
  by_cases h3 : type = .textSend
  · subst h3; rfl
  by_cases h4 : type = .closeCamera
  · subst h4; rfl
  · simp [h1, h2, h3, h4]

theorem relayedType_isRelayed {type type' : MessageType} (h : relayedType type = some type') :
    isRelayed type' = true := by
  unfold relayedType at h
  split at h
  · cases h; rfl
  split at h
  · cases h; rfl
  split at h
  · cases h; rfl
  split at h
  · cases h; rfl
  · simp at h

/-- The answers to requests are not relayed frames. -/
theorem not_isRelayed_answer {type : MessageType}
    (h : type = .createMeetingResponse ∨ type = .joinMeetingResponse) : isRelayed type = false := by
  rcases h with rfl | rfl
  · rfl
  · rfl

/-- The answers have their own types, and nothing on record is too long for a frame. -/
def Record.Shaped (cfg : ServerConfig) : Record → Prop
  | .packet _ sent _ => sent.payload.length < 2 ^ 32
  | .answered _ response =>
      (response.type = .createMeetingResponse ∨ response.type = .joinMeetingResponse) ∧
        response.payload.length = 4
  | .hosted _ _ response =>
      response.type = .createMeetingResponse ∧ response.payload.length = 4
  | .joined _ _ response _ present =>
      response.type = .joinMeetingResponse ∧ response.payload.length = 4 ∧
        present.length < cfg.maxParticipantsPerRoom
  | _ => True

/-- A record an act makes is shaped. -/
theorem Act.shaped {k' : Core} (ha : Act cfg env k k') {r : Record}
    (hr : k'.history = k.history ++ [r]) : r.Shaped cfg := by
  cases ha with
  | alone c _ _ => simp [Core.shut] at hr
  | malformed _ _ _ | left _ _ _ _ _ _ _ | dissolved _ _ _ _ _ _ _ =>
      obtain rfl := List.singleton_inj.mp (List.append_cancel_left hr)
      exact trivial
  | answered _ response _ _ htype hlen =>
      obtain rfl := List.singleton_inj.mp (List.append_cancel_left hr)
      exact ⟨htype, hlen⟩
  | vacant _ _ _ _ _ _ response hresponse | collided _ _ _ _ _ _ _ response hresponse =>
      obtain rfl := List.singleton_inj.mp (List.append_cancel_left hr)
      rw [hresponse]
      exact ⟨Or.inl rfl, createMeetingResponse_length _⟩
  | hosted _ _ _ _ _ _ _ response hresponse =>
      obtain rfl := List.singleton_inj.mp (List.append_cancel_left hr)
      rw [hresponse]
      exact ⟨rfl, createMeetingResponse_length _⟩
  | joined _ _ _ _ present _ _ _ hspace hpresent response hresponse =>
      obtain rfl := List.singleton_inj.mp (List.append_cancel_left hr)
      rw [hresponse]
      exact ⟨rfl, joinMeetingResponse_length _, by rwa [hpresent.length_eq]⟩

theorem Move.shaped {k' : Core} (hm : Move cfg env k k') {r : Record}
    (hr : k'.history = k.history ++ [r]) : r.Shaped cfg := by
  cases hm with
  | accept => simp at hr
  | receive c data _ => simp at hr
  | packet c sent n _ hnext =>
      obtain rfl := List.singleton_inj.mp (List.append_cancel_left hr)
      exact Codec.payload_lt hnext
  | act ha => exact ha.shaped hr

theorem Moves.shaped {k' : Core} (hm : Moves cfg env k k') (h : ∀ r ∈ k.history, r.Shaped cfg) :
    ∀ r ∈ k'.history, r.Shaped cfg := by
  induction hm with
  | refl => exact h
  | tail _ hmove ih =>
      intro r hr
      rcases hmove.history with hsame | ⟨r', hsnoc, -⟩
      · exact ih r (hsame ▸ hr)
      · rw [hsnoc] at hr
        rcases List.mem_append.mp hr with hr | hr
        · exact ih r hr
        · rw [List.mem_singleton.mp hr]
          exact hmove.shaped hsnoc

theorem Reachable.shaped (h : Reachable cfg env s) : ∀ r ∈ s.history, r.Shaped cfg :=
  Moves.shaped h.moves.1 (by simp [State.core])

/-- The relayed frames among what a record sends. -/
theorem filter_sends {r : Record} (hr : r.Shaped cfg) (d : ConnId) :
    (r.sends d).filter (fun m => isRelayed m.type) = (relayTo d r).toList := by
  cases r with
  | packet c sent present =>
      simp only [Record.sends, relayTo, outbound_eq]
      cases present.lookup c with
      | none => rfl
      | some sender =>
          cases htype : relayedType sent.type with
          | none => simp
          | some type =>
              have := relayedType_isRelayed htype
              by_cases hin : d ≠ c ∧ d ∈ present
              · simp only [if_pos hin, Option.map_some, Option.toList_some]
                rw [List.filter_cons_of_pos (by simpa using this)]
                rfl
              · simp only [if_neg hin]
                rfl
  | malformed c => rfl
  | answered c response =>
      simp only [Record.sends, relayTo]
      split
      · simp [not_isRelayed_answer hr.1]
      · rfl
  | hosted p c response =>
      simp only [Record.sends, relayTo]
      split
      · simp [not_isRelayed_answer (Or.inl hr.1)]
      · rfl
  | joined p c response ip present =>
      simp only [Record.sends, relayTo]
      split
      · have hlist : isRelayed (partnerList present).type = false := rfl
        simp [not_isRelayed_answer (Or.inr hr.1), hlist]
      · split <;> rfl
  | left p c participant remaining =>
      simp only [Record.sends, relayTo]
      split <;> rfl
  | dissolved p => rfl

/-- Relayed frames come from packets of other members, at the address recorded for them. -/
structure Isolation (cfg : ServerConfig) (env : Env) (s : State) : Prop where
  /-- The relayed frames queued for `d`, in order, are what the packets on record put there. -/
  frames : ∀ d, (s.conn d).outgoing.filter (fun frame => isRelayed ⟨Wire.typeOf frame⟩)
    = (s.history.filterMap (relayTo d)).map Codec.encode
  /-- The run passes through a state in which those present were the room of the sender. -/
  moment : ∀ {before after c sent present},
    s.history = before ++ .packet c sent present :: after → c ∈ present →
    ∃ k p, Moves cfg env ({} : State).core k ∧ Moves cfg env k s.core ∧ k.history = before ∧
      k.connectionRoom c = some p ∧ k.InTable p ∧ present = (k.room p).participants
  /-- Their addresses are not taken from any packet. -/
  learnt : ∀ {c sent present}, .packet c sent present ∈ s.history → AllLearnt env present
  /-- The packets of a connection are handled in the order it sent them. -/
  order : ∀ c, handled c s.history <+: (Framing.drain Codec.cutter (s.conn c).received).1

/-- **Media reaches exactly the other members of the room**, under its sender's address. -/
theorem isolation (h : Reachable cfg env s) : Isolation cfg env s where
  frames d := by
    have hfilter : ∀ history : List Record, (∀ r ∈ history, r.Shaped cfg) →
        (history.flatMap (·.sends d)).filter (fun m => isRelayed m.type)
          = history.filterMap (relayTo d) := by
      intro history hshaped
      induction history with
      | nil => rfl
      | cons r history ih =>
          rw [List.flatMap_cons, List.filter_append, filter_sends (hshaped r (by simp)),
            ih fun x hx => hshaped x (by simp [hx]), List.filterMap_cons]
          cases relayTo d r <;> rfl
    rw [h.outgoing_eq d, ← hfilter s.history h.shaped, List.filter_map]
    congr 2
    funext m
    simp only [Function.comp_apply, Codec.typeOf_encode]
  moment := by
    intro before after c sent present hhistory hc
    obtain ⟨k, h1, h2, h3, -, hpresent⟩ := h.moves.1.packet_origin hhistory (Nat.zero_le _)
    have hinv := (Inv.init cfg).moves h1
    simp only [Core.presentFor] at hpresent
    split at hpresent
    · rename_i p hroute
      exact ⟨k, p, h1, h2, h3, hroute, (hinv.routed hroute).2, hpresent⟩
    · rw [hpresent] at hc
      exact absurd hc (AList.notMem_empty c)
  learnt hmem := h.records.history _ hmem
  order c := (h.handled_drain c).1

theorem isolation_sampleMeeting : Isolation {} sampleEnv (stateAfter sampleMeeting) ∧
    (stateAfter sampleMeeting).history.filterMap (relayTo 3)
      = [{ type := .textRecv, ip := 0x0A000002, payload := [104, 105] }] :=
  ⟨isolation ⟨sampleMeeting, run_stateAfter (by decide +kernel)⟩, by decide +kernel⟩

/-! ### Introduction, media, farewell -/

/-- `c` and `d` are participants of one room at some time of the run. -/
def Together (cfg : ServerConfig) (env : Env) (s : State) (c d : ConnId) : Prop :=
  ∃ k p, Moves cfg env ({} : State).core k ∧ Moves cfg env k s.core ∧ k.InTable p ∧
    c ∈ (k.room p).participants ∧ d ∈ (k.room p).participants

theorem Moves.history_extends {k' : Core} (hm : Moves cfg env k k') :
    k.history <+: k'.history := by
  induction hm with
  | refl => exact List.prefix_refl _
  | tail _ hmove ih =>
      rcases hmove.history with hsame | ⟨r, hsnoc, -⟩
      · rwa [hsame]
      · rw [hsnoc]
        exact ih.trans (List.prefix_append _ _)

theorem happenings_append (history more : List Record) :
    happenings (history ++ more) = happenings history ++ happenings more := by
  simp [happenings]

/-- Whoever has been in one room has met. -/
theorem Together.met {c d : ConnId} (h : Together cfg env s c d) (hne : c ≠ d) :
    Met (happenings s.history) c d := by
  obtain ⟨k, p, h1, h2, hp, hc, hd⟩ := h
  have hconf := Confers.init.moves (Inv.init cfg) h1
  have hmet := hconf.valid.met_of_members (hconf.members.mpr ⟨hp, hc⟩)
    (hconf.members.mpr ⟨hp, hd⟩) hne
  obtain ⟨more, hmore⟩ := h2.history_extends
  have hhistory : s.history = k.history ++ more := hmore.symm
  rw [hhistory, happenings_append]
  rcases hmet with ⟨r, m, present, hx, hp⟩ | ⟨r, m, present, hx, hp⟩
  · exact Or.inl ⟨r, m, present, List.mem_append_left _ hx, hp⟩
  · exact Or.inr ⟨r, m, present, List.mem_append_left _ hx, hp⟩

/-- The record behind a join, and behind something said. -/
theorem joined_record {history : List Record} {p : RoomPtr} {c : ConnId} {m : Packet}
    {cs : List ConnId} (h : .joined p c m cs ∈ happenings history) :
    ∃ ip present, .joined p c m ip present ∈ history := by
  obtain ⟨r, hr, hhappening⟩ := List.mem_filterMap.mp h
  cases r with
  | joined p' c' m' ip present =>
      simp only [Record.happening, Option.some.injEq, Happening.joined.injEq] at hhappening
      obtain ⟨rfl, rfl, rfl, -⟩ := hhappening
      exact ⟨ip, present, hr⟩
  | packet c' sent present =>
      simp only [Record.happening] at hhappening
      split at hhappening
      · obtain ⟨m', -, heq⟩ := Option.map_eq_some_iff.mp hhappening
        simp at heq
      · simp at hhappening
  | _ => simp [Record.happening] at hhappening

theorem spoke_relayed {history : List Record} {c : ConnId} {m : Packet} {audience : List ConnId}
    (h : .spoke c m audience ∈ happenings history) : isRelayed m.type = true := by
  obtain ⟨r, -, hhappening⟩ := List.mem_filterMap.mp h
  cases r with
  | packet c' sent present =>
      simp only [Record.happening] at hhappening
      split at hhappening
      · obtain ⟨m', hm', heq⟩ := Option.map_eq_some_iff.mp hhappening
        simp only [Happening.spoke.injEq] at heq
        obtain ⟨-, rfl, -⟩ := heq
        rw [outbound_eq] at hm'
        obtain ⟨type, htype, rfl⟩ := Option.map_eq_some_iff.mp hm'
        exact relayedType_isRelayed htype
      · simp at hhappening
  | _ => simp [Record.happening] at hhappening

/-- A relayed note comes from something said. -/
theorem relayed_note {H : List (Happening RoomPtr ConnId Packet)} {c d : ConnId} {m : Packet}
    (h : Note.relayed c m ∈ notes d H) : ∃ audience, .spoke c m audience ∈ H := by
  obtain ⟨e, he, hn⟩ := List.mem_flatMap.mp h
  cases e with
  | spoke x m' audience =>
      rw [noteFor] at hn
      split at hn
      · simp only [List.mem_singleton, Note.relayed.injEq] at hn
        obtain ⟨rfl, rfl⟩ := hn
        exact ⟨audience, he⟩
      · simp at hn
  | joined r x m' present =>
      rw [noteFor] at hn
      split at hn
      · simp at hn
      · split at hn <;> simp at hn
  | answered x m' | hosted r x m' | left r x rest =>
      rw [noteFor] at hn
      split at hn <;> simp at hn
  | dissolved r => simp [noteFor] at hn

/-- What `d` hears about `c`: `intro`, then media, then `exit` at most. -/
structure Hears (env : Env) (s : State) (c d : ConnId) : Prop where
  /-- The queue of `d` is its notes, each with the connection it is about. -/
  queue : (s.conn d).outgoing
    = ((notes d (happenings s.history)).map (notePacket env.address)).map Codec.encode
  story : ∃ intro media exit,
    (notes d (happenings s.history)).filter (·.about c) = intro :: (media ++ exit) ∧
    (JoinedAfter (happenings s.history) c d → intro = .joined c) ∧
    (¬ JoinedAfter (happenings s.history) c d → ∃ response present before after,
      intro = .roster present ∧ c ∈ present ∧ present.Nodup ∧
      response.type = .joinMeetingResponse ∧
      notes d (happenings s.history)
        = before ++ [.reply response, .roster present] ++ after ∧
      ∀ n ∈ before ++ after, n.isRoster = false) ∧
    (∀ n ∈ media, ∃ m, n = .relayed c m ∧ isRelayed m.type = true) ∧
    (SeenOff (happenings s.history) c d → exit = [.left c]) ∧
    (¬ SeenOff (happenings s.history) c d → exit = [])

/-- **Members hear of each other in order**: introduction, media, farewell. -/
theorem hears (hsteady : Steady env) (h : Reachable cfg env s) {c d : ConnId} (hne : c ≠ d)
    (hmet : Together cfg env s c d) : Hears env s c d := by
  refine ⟨h.outgoing_notes hsteady d, ?_⟩
  have hvalid : Valid (happenings s.history) := h.confers.valid
  have hmet' := hmet.met hne
  rcases hvalid.story hne with ⟨hnot, -⟩ | ⟨intro, media, tail, -, hstory, hintro, hmedia, htail⟩
  · exact absurd hmet' hnot
  · refine ⟨intro, media, tail, hstory, ?_, ?_, ?_, ?_, ?_⟩
    · intro hafter
      rcases hintro with ⟨-, rfl⟩ | ⟨r, m, present, hx, hc, rfl⟩
      · rfl
      · exact absurd ⟨r, m, present, hx, hc⟩ (hvalid.joinedAfter_asymm hafter)
    · intro hafter
      rcases hintro with ⟨hj, -⟩ | ⟨r, m, present, hx, hc, rfl⟩
      · exact absurd hj hafter
      · obtain ⟨before, after, hnotes, hroster⟩ := hvalid.single_roster hx
        obtain ⟨ip, entries, hr⟩ := joined_record hx
        exact ⟨m, present, before, after, rfl, hc, hvalid.present_nodup hx, (h.shaped _ hr).1,
          hnotes, hroster⟩
    · intro n hn
      obtain ⟨m, rfl⟩ := hmedia n hn
      have hmem : Note.relayed c m ∈ notes d (happenings s.history) := by
        have hin : Note.relayed c m ∈ concerning c d (happenings s.history) := by
          rw [hstory]
          simp [hn]
        exact (List.mem_filter.mp hin).1
      obtain ⟨audience, hx⟩ := relayed_note hmem
      exact ⟨m, rfl, spoke_relayed hx⟩
    · intro hoff
      rcases htail with ⟨hnot, -⟩ | ⟨-, rfl⟩
      · exact absurd hoff hnot
      · rfl
    · intro hnot
      rcases htail with ⟨-, rfl⟩ | ⟨hoff, -⟩
      · rfl
      · exact absurd hoff hnot

theorem hears_sampleMeeting : Hears sampleEnv (stateAfter sampleMeeting) 2 3 := by
  have hreach : Reachable {} sampleEnv (stateAfter sampleMeeting) :=
    ⟨sampleMeeting, run_stateAfter (by decide +kernel)⟩
  exact hears (fun _ _ _ => rfl) hreach (by decide)
    ⟨(stateAfter sampleMeeting).core, 0, hreach.moves.1, .refl, by decide +kernel,
      by decide +kernel, by decide +kernel⟩

end CloudMeeting.Server
