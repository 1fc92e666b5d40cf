/-
What one member perceives of another.

`c`'s client has written a list of messages, the server has handled some of them, and of
these it has relayed to `d` those it found both of them in one room for.  Members do not
come back, so that is one stretch of what `c` has written (`unbroken_turns`), and every text,
every sound, every picture and every word that the camera was closed reaches `d` once and in
order, with nothing that `c` has not written in between (`conversation`).

`d` tells members apart by the address a message comes under.  Hence the side condition
that nobody else in `d`'s room has the address of `c`.
-/
import CloudMeeting.Conference.Company
import CloudMeeting.Lib.Stretch
import CloudMeeting.Link.Roster

namespace CloudMeeting.Link

open Framing Stretch Conference Server Client

variable {Image : Type} {qt : Qt Image} {cfg : ServerConfig} {env : Env} {s : State}
variable {c d : ConnId}

/-! ### The turns of a member -/

/-- A packet of `c`, and who was in its room. -/
def turnOf (c : ConnId) : Record → Option (Packet × Participants)
  | .packet x sent present => if x = c then some (sent, present) else none
  | _ => none

/-- The packets handled for `c`, each with those present. -/
def turns (c : ConnId) (history : List Record) : List (Packet × Participants) :=
  history.filterMap (turnOf c)

theorem turns_cons (c : ConnId) (r : Record) (history : List Record) :
    turns c (r :: history) = (turnOf c r).toList ++ turns c history := by
  rw [turns, List.filterMap_cons]
  cases turnOf c r <;> rfl

theorem turns_fst (c : ConnId) (history : List Record) :
    (turns c history).map Prod.fst = handled c history := by
  rw [turns, handled, List.map_filterMap]
  congr 1
  funext r
  cases r with
  | packet x sent present =>
      by_cases hx : x = c
      · simp [turnOf, Record.packetOf, hx]
      · simp [turnOf, Record.packetOf, hx]
  | _ => rfl

/-- `c` and `d` were both there. -/
def both (c d : ConnId) (turn : Packet × Participants) : Bool :=
  decide (c ∈ turn.2) && decide (d ∈ turn.2)

/-- They were both there exactly if the conference had them in one room. -/
theorem both_iff (h : Reachable cfg env s) {sent : Packet} {present : Participants}
    {before after : List Record}
    (hhistory : s.history = before ++ .packet c sent present :: after) :
    both c d (sent, present) = true ↔ SitTogether (happenings before) c d := by
  obtain ⟨k, hmoves, -, rfl, -, rfl⟩ := h.moves.1.packet_origin hhistory (Nat.zero_le _)
  have hinv : Inv cfg k := (Inv.init cfg).moves hmoves
  have hconf : Confers k := Confers.init.moves (Inv.init cfg) hmoves
  simp only [both, Bool.and_eq_true, decide_eq_true_eq]
  constructor
  · intro hpresent
    obtain ⟨hc, hd⟩ := hpresent
    cases hroute : k.connectionRoom c with
    | none =>
        simp only [Core.presentFor, hroute] at hc
        exact absurd hc (AList.notMem_empty c)
    | some p =>
        simp only [Core.presentFor, hroute] at hc hd
        have htable := (hinv.routed hroute).2
        exact ⟨p, hconf.members.mpr ⟨htable, hc⟩, hconf.members.mpr ⟨htable, hd⟩⟩
  · intro htogether
    obtain ⟨p, hc, hd⟩ := htogether
    obtain ⟨htable, hc⟩ := hconf.members.mp hc
    obtain ⟨-, hd⟩ := hconf.members.mp hd
    rw [Core.presentFor, hinv.seated htable hc]
    exact ⟨hc, hd⟩

/-- **The turns `d` was there for are one stretch of the turns of `c`.** -/
theorem unbroken_turns (h : Reachable cfg env s) (c d : ConnId) :
    Unbroken (both c d) (turns c s.history) := by
  refine unbroken_filterMap fun front x mid y mid' z back t₁ t₂ t₃ hsplit hx hy hz h₁ h₃ => ?_
  have hpacket : ∀ {r t}, turnOf c r = some t → r = .packet c t.1 t.2 := by
    intro r t hr
    cases r with
    | packet e sent present =>
        simp only [turnOf, Option.ite_none_right_eq_some, Option.some.injEq] at hr
        obtain ⟨rfl, rfl⟩ := hr
        rfl
    | _ => simp [turnOf] at hr
  obtain rfl := hpacket hx
  obtain rfl := hpacket hy
  obtain rfl := hpacket hz
  have hsecond : s.history = (front ++ .packet c t₁.1 t₁.2 :: mid)
      ++ .packet c t₂.1 t₂.2 :: (mid' ++ .packet c t₃.1 t₃.2 :: back) := by
    rw [hsplit]
    simp
  have hthird : s.history = (front ++ .packet c t₁.1 t₁.2 :: mid
      ++ .packet c t₂.1 t₂.2 :: mid') ++ .packet c t₃.1 t₃.2 :: back := by
    rw [hsplit]
    simp
  rw [both_iff h hsplit] at h₁
  rw [both_iff h hthird, happenings_append] at h₃
  rw [both_iff h hsecond, happenings_append]
  rw [happenings_append] at h₃
  have hvalid : Valid (happenings front ++ happenings (.packet c t₁.1 t₁.2 :: mid)
      ++ happenings (.packet c t₂.1 t₂.2 :: mid')) := by
    have hwhole : Valid (happenings s.history) := h.confers.valid
    rw [hthird, happenings_append, happenings_append, happenings_append] at hwhole
    exact hwhole.of_append
  exact hvalid.together_between h₁ h₃

/-! ### Texts, sounds and pictures -/

/-- What is perceived of a message that somebody at `ip` has sent: texts and sounds as they were,
pictures as they are after having been saved, and that the camera was closed. -/
def perceived (qt : Qt Image) (ip : UInt32) : Message Image → Option (Message Image)
  | .sendImage image =>
      ((qt.save image).filter (· ≠ [])).bind fun raw => (qt.loadFromData raw).map (.recvImage ip ·)
  | .closeCamera => some (.closeCameraNotify ip)
  | msg => heard ip msg

/-- Something from a member that comes under the address. -/
def mediaFrom (ip : UInt32) : Message Image → Bool
  | .recvText ip' _ => ip' = ip
  | .recvAudio ip' _ => ip' = ip
  | .recvImage ip' _ => ip' = ip
  | .closeCameraNotify ip' => ip' = ip
  | _ => false

/-- What is taken of the messages of one address is taken of them all, if nothing is taken of the
others. -/
theorem filterMap_mediaFrom {α : Type} {ip : UInt32} {g : Message Image → Option α}
    (hg : ∀ msg, mediaFrom ip msg = false → g msg = none) (msgs : List (Message Image)) :
    (msgs.filter (mediaFrom ip)).filterMap g = msgs.filterMap g := by
  induction msgs with
  | nil => rfl
  | cons msg msgs ih =>
      rw [List.filterMap_cons, ← ih]
      cases hmedia : mediaFrom ip msg with
      | true => rw [List.filter_cons_of_pos hmedia, List.filterMap_cons]
      | false => rw [List.filter_cons_of_neg (by simp [hmedia]), hg msg hmedia]

/-- What is perceived of a packet that is relayed under an address. -/
def audible (qt : Qt Image) (ip : UInt32) (sent : Packet) : Option (Message Image) :=
  ((outbound ip sent).bind (decoding qt)).filter (mediaFrom ip)

/-- A relayed packet speaks of nobody but whom it is relayed for. -/
theorem mediaFrom_iff {ip : UInt32} {sent out : Packet} (hout : outbound ip sent = some out)
    {m : Message Image} (hm : decoding qt out = some m) (ip' : UInt32) :
    mediaFrom ip' m = true ↔ ip = ip' := by
  rw [outbound_eq] at hout
  obtain ⟨type, htype, rfl⟩ := Option.map_eq_some_iff.mp hout
  rw [decoding_eq] at hm
  unfold relayedType at htype
  split at htype
  · obtain rfl := Option.some.inj htype
    have himage : MessageCodec.decodeImageRecv qt sent.payload ip = some m := hm
    simp only [MessageCodec.decodeImageRecv] at himage
    split at himage
    · simp at himage
    · obtain ⟨image, -, rfl⟩ := Option.map_eq_some_iff.mp himage
      exact decide_eq_true_iff
  split at htype
  · obtain rfl := Option.some.inj htype
    have haudio : MessageCodec.decodeAudioRecv qt sent.payload ip = some m := hm
    simp only [MessageCodec.decodeAudioRecv] at haudio
    split at haudio
    · simp at haudio
    · obtain rfl := Option.some.inj haudio
      exact decide_eq_true_iff
  split at htype
  · obtain rfl := Option.some.inj htype
    have htext : MessageCodec.decodeTextRecv qt sent.payload ip = some m := hm
    simp only [MessageCodec.decodeTextRecv] at htext
    split at htext
    · simp at htext
    · obtain rfl := Option.some.inj htext
      exact decide_eq_true_iff
  split at htype
  · obtain rfl := Option.some.inj htype
    obtain rfl : Message.closeCameraNotify ip = m := Option.some.inj hm
    exact decide_eq_true_iff
  · simp at htype

/-- Nothing is decompressed to nothing. -/
def NothingToNothing (qt : Qt Image) : Prop := qt.qUncompress (qt.fromBase64 []) = []

/-- A picture comes back as it was saved. -/
theorem decodeImageRecv_compress (hqt : qt.Lossless) (hnothing : NothingToNothing qt) (ip : UInt32)
    (image : Image) :
    MessageCodec.decodeImageRecv qt (MessageCodec.compressImagePayload qt image) ip
      = perceived qt ip (.sendImage image) := by
  have hback : MessageCodec.decodeImageWirePayload qt (MessageCodec.compressImagePayload qt image)
      = (qt.save image).getD [] := by
    rw [MessageCodec.decodeImageWirePayload, MessageCodec.compressImagePayload]
    cases qt.save image with
    | none => exact hnothing
    | some raw =>
        exact (congrArg _ (hqt.fromBase64_toBase64 _)).trans (hqt.qUncompress_qCompress raw)
  simp only [MessageCodec.decodeImageRecv, hback, perceived]
  cases qt.save image with
  | none => rfl
  | some raw =>
      by_cases hraw : raw = []
      · simp [hraw, Option.filter]
      · simp [hraw, Option.filter]

/-- What is decoded under an address comes under it. -/
theorem audible_of_decoding {ip : UInt32} {sent out : Packet} (hout : outbound ip sent = some out)
    {o : Option (Message Image)} (ho : decoding qt out = o) : audible qt ip sent = o := by
  rw [audible, hout, Option.bind_some, ho]
  cases o with
  | none => rfl
  | some m =>
      rw [Option.filter_some, if_pos ((mediaFrom_iff hout ho ip).mpr rfl)]

/-- Of a message that was written, what is perceived is what it says. -/
theorem audible_eq_perceived (hqt : qt.Lossless) (hnothing : NothingToNothing qt)
    {localIp ip : UInt32} {msg : Message Image} {sent : Packet}
    (hsent : asPacket qt localIp msg = some sent) : audible qt ip sent = perceived qt ip msg := by
  obtain ⟨type, htype, rfl⟩ := Option.map_eq_some_iff.mp hsent
  cases msg with
  | createMeeting =>
      obtain rfl : MessageType.createMeeting = type := Option.some.inj htype
      rfl
  | joinMeeting roomNo =>
      obtain rfl : MessageType.joinMeeting = type := Option.some.inj htype
      rfl
  | closeCamera =>
      obtain rfl : MessageType.closeCamera = type := Option.some.inj htype
      exact audible_of_decoding rfl (decoding_eq ..)
  | sendText text =>
      obtain rfl : MessageType.textSend = type := Option.some.inj htype
      refine audible_of_decoding rfl ((decoding_eq ..).trans ?_)
      show MessageCodec.decodeTextRecv qt (MessageCodec.compressTextPayload qt text) ip = _
      simp only [MessageCodec.decodeTextRecv, MessageCodec.decodeTextWirePayload,
        MessageCodec.compressTextPayload, hqt.qUncompress_qCompress, perceived, heard]
  | sendAudio audio =>
      obtain rfl : MessageType.audioSend = type := Option.some.inj htype
      refine audible_of_decoding rfl ((decoding_eq ..).trans ?_)
      show MessageCodec.decodeAudioRecv qt (MessageCodec.compressAudioPayload qt audio) ip = _
      simp only [MessageCodec.decodeAudioRecv, MessageCodec.decodeAudioWirePayload,
        MessageCodec.compressAudioPayload, hqt.fromBase64_toBase64, hqt.qUncompress_qCompress,
        perceived, heard]
  | sendImage image =>
      obtain rfl : MessageType.imgSend = type := Option.some.inj htype
      refine audible_of_decoding rfl ((decoding_eq ..).trans ?_)
      exact decodeImageRecv_compress hqt hnothing ip image
  | _ => simp [Message.kind, meaning] at htype

/-! ### What is read -/

/-- What a reader finds among packets that comes from one address. -/
def mediaOf (qt : Qt Image) (ip : UInt32) (ps : List Packet) : List (Message Image) :=
  (ps.filterMap (decoding qt)).filter (mediaFrom ip)

theorem mediaOf_append (ip : UInt32) (ps ps' : List Packet) :
    mediaOf qt ip (ps ++ ps') = mediaOf qt ip ps ++ mediaOf qt ip ps' := by
  rw [mediaOf, List.filterMap_append, List.filter_append]
  rfl

theorem mediaOf_eq_nil {ip : UInt32} {ps : List Packet}
    (h : ∀ p ∈ ps, ∀ m, decoding qt p = some m → mediaFrom ip m = false) :
    mediaOf qt ip ps = [] := by
  rw [mediaOf, List.filter_eq_nil_iff]
  intro m hm
  obtain ⟨p, hp, hdecoded⟩ := List.mem_filterMap.mp hm
  simp [h p hp m hdecoded]

theorem mediaOf_outbound (ip : UInt32) (sent : Packet) :
    mediaOf qt ip (outbound ip sent).toList = (audible qt ip sent).toList := by
  rw [mediaOf, audible]
  cases outbound ip sent with
  | none => rfl
  | some out =>
      cases hm : decoding qt out with
      | none => simp [hm]
      | some m => cases hmedia : mediaFrom ip m <;> simp [hm, hmedia, Option.filter]

theorem not_mediaFrom_reply {ip : UInt32} {p : Packet}
    (h : p.type = .createMeetingResponse ∨ p.type = .joinMeetingResponse) {m : Message Image}
    (hm : decoding qt p = some m) : mediaFrom ip m = false := by
  obtain ⟨m', hm', hkind⟩ := decoding_reply qt h
  obtain rfl : m = m' := Option.some.inj (hm.symm.trans hm')
  cases m with
  | createMeetingResponse _ => rfl
  | joinMeetingResponse _ => rfl
  | _ => simp [Message.kind] at hkind

/-- Whoever else speaks in the presence of `d` does not have the address of `c`. -/
def Distinct (env : Env) (c d : ConnId) : Record → Prop
  | .packet x _ present => d ∈ present → x ≠ c → env.address x ≠ env.address c
  | _ => True

instance (env : Env) (c d : ConnId) : DecidablePred (Distinct env c d)
  | .packet x _ present =>
      inferInstanceAs (Decidable (d ∈ present → x ≠ c → env.address x ≠ env.address c))
  | .malformed _ | .answered .. | .hosted .. | .joined .. | .left .. | .dissolved _ =>
      inferInstanceAs (Decidable True)

variable (qt) in
/-- What the server does with a packet of `x` sends `d` that comes from `c`. -/
theorem mediaOf_packet (hsteady : Steady env) {x : ConnId} {sent : Packet}
    {present : Participants} (hlearnt : (Record.packet x sent present).Learnt env) (hne : d ≠ c)
    (hdistinct : Distinct env c d (.packet x sent present)) :
    mediaOf qt (env.address c) ((Record.packet x sent present).sends d)
      = (((turnOf c (.packet x sent present)).filter (both c d)).bind fun turn =>
          audible qt (env.address c) turn.1).toList := by
  cases hseat : present.lookup x with
  | none =>
      have hnotin : x ∉ present := AList.lookup_eq_none.mp hseat
      have hnone : (turnOf c (.packet x sent present)).filter (both c d) = none := by
        rw [turnOf]
        split
        · rename_i hx
          subst hx
          simp [both, hnotin]
        · rfl
      rw [hnone, Record.sends, hseat]
      rfl
  | some sender =>
      have hip : sender.ipNetwork = env.address x := (hlearnt x sender hseat).eq_address hsteady
      have hin : x ∈ present := AList.lookup_isSome.mp (Option.isSome_of_eq_some hseat)
      simp only [Record.sends, hseat]
      by_cases hx : x = c
      · subst hx
        rw [turnOf, if_pos rfl]
        by_cases hd : d ∈ present
        · have hboth : both x d (sent, present) = true := by simp [both, hin, hd]
          rw [if_pos ⟨hne, hd⟩, hip, mediaOf_outbound, Option.filter_some, if_pos hboth]
          rfl
        · have hapart : ¬ both x d (sent, present) = true := by simp [both, hd]
          rw [if_neg (fun hboth => hd hboth.2), Option.filter_some, if_neg hapart]
          rfl
      · rw [turnOf, if_neg hx]
        refine mediaOf_eq_nil fun p hp m hm => ?_
        split at hp
        · rename_i hboth
          by_contra hmedia
          have hout := Option.mem_toList.mp hp
          have hsame := ((mediaFrom_iff hout hm _).mp (by simpa using hmedia)).symm
          rw [hip] at hsame
          exact hdistinct hboth.2 hx hsame.symm
        · simp at hp

variable (qt) in
/-- Nothing else that the server does sends anything of what members say and show. -/
theorem mediaOf_quiet {r : Record} (hshaped : r.Shaped cfg)
    (hquiet : ∀ x sent present, r ≠ .packet x sent present) (ip : UInt32) :
    mediaOf qt ip (r.sends d) = [] := by
  cases r with
  | packet x sent present => exact absurd rfl (hquiet x sent present)
  | malformed x => rfl
  | dissolved room => rfl
  | answered x response =>
      refine mediaOf_eq_nil fun p hp m hm => not_mediaFrom_reply ?_ hm
      simp only [Record.sends] at hp
      split at hp
      · rw [List.mem_singleton.mp hp]
        exact hshaped.1
      · simp at hp
  | hosted room x response =>
      refine mediaOf_eq_nil fun p hp m hm => not_mediaFrom_reply ?_ hm
      simp only [Record.sends] at hp
      split at hp
      · rw [List.mem_singleton.mp hp]
        exact Or.inl hshaped.1
      · simp at hp
  | joined room x response ip present =>
      refine mediaOf_eq_nil fun p hp m hm => ?_
      simp only [Record.sends] at hp
      split at hp
      · rcases List.mem_pair.mp hp with rfl | rfl
        · exact not_mediaFrom_reply (Or.inr hshaped.1) hm
        · rw [decoding_eq] at hm
          obtain rfl := Option.some.inj hm
          rfl
      · split at hp
        · obtain rfl := List.mem_singleton.mp hp
          rw [decoding_eq] at hm
          obtain rfl : Message.partnerJoin ip = m := Option.some.inj hm
          rfl
        · simp at hp
  | left room x participant remaining =>
      refine mediaOf_eq_nil fun p hp m hm => ?_
      simp only [Record.sends] at hp
      split at hp
      · obtain rfl := List.mem_singleton.mp hp
        rw [decoding_eq] at hm
        obtain rfl : Message.partnerExit participant.ipNetwork = m := Option.some.inj hm
        rfl
      · simp at hp

variable (qt) in
/-- What a record sends `d` that comes from `c`. -/
theorem mediaOf_sends (hsteady : Steady env) {r : Record} (hlearnt : r.Learnt env)
    (hshaped : r.Shaped cfg) (hne : d ≠ c) (hdistinct : Distinct env c d r) :
    mediaOf qt (env.address c) (r.sends d)
      = (((turnOf c r).filter (both c d)).bind fun turn =>
          audible qt (env.address c) turn.1).toList := by
  cases r with
  | packet x sent present => exact mediaOf_packet qt hsteady hlearnt hne hdistinct
  | _ => exact mediaOf_quiet qt hshaped (fun _ _ _ => by simp) (env.address c)

variable (qt) in
/-- What a history sends `d` that comes from `c`. -/
theorem mediaOf_history (hsteady : Steady env) (hne : d ≠ c) {history : List Record}
    (hlearnt : ∀ r ∈ history, r.Learnt env) (hshaped : ∀ r ∈ history, r.Shaped cfg)
    (hdistinct : ∀ r ∈ history, Distinct env c d r) :
    mediaOf qt (env.address c) (history.flatMap (·.sends d))
      = ((turns c history).filter (both c d)).filterMap fun turn =>
          audible qt (env.address c) turn.1 := by
  induction history with
  | nil => rfl
  | cons r history ih =>
      have hrest := ih (fun r' hr' => hlearnt r' (List.mem_cons_of_mem r hr'))
        (fun r' hr' => hshaped r' (List.mem_cons_of_mem r hr'))
        fun r' hr' => hdistinct r' (List.mem_cons_of_mem r hr')
      have hfirst := mediaOf_sends qt hsteady (hlearnt r List.mem_cons_self)
        (hshaped r List.mem_cons_self) hne (hdistinct r List.mem_cons_self)
      rw [List.flatMap_cons, mediaOf_append, hrest, hfirst, turns_cons]
      cases turnOf c r with
      | none => rfl
      | some turn =>
          cases hboth : both c d turn with
          | false => simp [hboth, Option.filter]
          | true => cases haudible : audible qt (env.address c) turn.1 <;>
              simp [hboth, haudible, Option.filter]

/-! ### A conversation -/

/-- `said` is what `d` perceives of the messages of `c`. -/
structure Conversation (qt : Qt Image) (env : Env) (localIp : UInt32) (s : State) (c d : ConnId)
    (msgs said : List (Message Image)) : Prop where
  /-- One stretch of what `c` has written. -/
  stretch : said <:+: msgs
  /-- It is what was handled while both were in one room. -/
  together : said.map (asPacket qt localIp)
    = ((turns c s.history).filter (both c d)).map fun turn => some turn.1
  /-- Whatever of its queue `d` has read: what comes from the address of `c` is what is perceived
  of `said` as far as it got, in order, each once. -/
  inOrder : ∀ chunks, MessageCodec.NoReset qt [] chunks →
    chunks.flatten <+: (s.conn d).outgoing.flatten →
    (MessageCodec.feedAll qt [] chunks).1.filter (mediaFrom (env.address c))
      <+: said.filterMap (perceived qt (env.address c))
  /-- In the end nothing is missing. -/
  complete : ∀ chunks, MessageCodec.NoReset qt [] chunks →
    chunks.flatten = (s.conn d).outgoing.flatten →
    (MessageCodec.feedAll qt [] chunks).1.filter (mediaFrom (env.address c))
      = said.filterMap (perceived qt (env.address c))

/-- The parser's messages for a part of the queue are the first of those for all of it. -/
theorem feedAll_isPrefix {ps : List Packet} (hshort : ∀ p ∈ ps, p.payload.length < 2 ^ 32)
    {chunks : List Bytes} (hroom : MessageCodec.NoReset qt [] chunks)
    (hpart : chunks.flatten <+: encodeAll ps) :
    (MessageCodec.feedAll qt [] chunks).1 <+: ps.filterMap (decoding qt) := by
  obtain ⟨more, hmore⟩ := hpart
  have hread := (drain_cuts (c := MessageCodec.cutter qt) chunks.flatten).append more
  rw [hmore] at hread
  have hall := drain_flatten (c := MessageCodec.cutter qt) fun p hp => next_encode qt (hshort p hp)
  have hwhole := drain_cuts (c := MessageCodec.cutter qt) (encodeAll ps)
  rw [encodeAll, hall] at hwhole
  have hfront := (hread.isPrefix hwhole (MessageCodec.cutter qt).stuck_nil).filterMap id
  rw [List.filterMap_map, Function.id_comp] at hfront
  rw [MessageCodec.feedAll_eq_drain (MessageCodec.cutter qt).stuck_nil hroom]
  exact hfront

/-- What is perceived of the turns of some messages is what is perceived of the messages. -/
theorem filterMap_audible (hqt : qt.Lossless) (hnothing : NothingToNothing qt)
    {localIp : UInt32} (ip : UInt32)
    {said : List (Message Image)} {mid : List (Packet × Participants)}
    (h : said.map (asPacket qt localIp) = mid.map fun turn => some turn.1) :
    mid.filterMap (fun turn => audible qt ip turn.1) = said.filterMap (perceived qt ip) := by
  induction said generalizing mid with
  | nil =>
      obtain rfl : mid = [] := by simpa using h.symm
      rfl
  | cons msg said ih =>
      cases mid with
      | nil => simp at h
      | cons turn mid =>
          obtain ⟨hfirst, hothers⟩ := List.cons.inj h
          rw [List.filterMap_cons, List.filterMap_cons, ih hothers,
            audible_eq_perceived hqt hnothing hfirst]

/-- The messages whose turns `d` was there for, and what the server queues for `d` of them. -/
theorem exists_said (hqt : qt.Lossless) (hnothing : NothingToNothing qt) (hsteady : Steady env)
    {localIp : UInt32} {msgs : List (Message Image)}
    (hkinds : ∀ msg ∈ msgs, (meaning msg.kind).isSome = true)
    (hsize : ∀ msg ∈ msgs, (MessageCodec.wireBody qt msg).length < 2 ^ 32)
    {es : List Event} (hrun : Run.run (step cfg env) {} es = some s)
    (hchunks : (es.filterMap (Event.chunkFor c)).flatten <+: stream qt localIp msgs)
    (hne : d ≠ c) (hdistinct : ∀ r ∈ s.history, Distinct env c d r) :
    ∃ said, said <:+: msgs ∧
      said.map (asPacket qt localIp)
        = ((turns c s.history).filter (both c d)).map (fun turn => some turn.1) ∧
      mediaOf qt (env.address c) (s.history.flatMap (·.sends d))
        = said.filterMap (perceived qt (env.address c)) := by
  have h : Reachable cfg env s := ⟨es, hrun⟩
  obtain ⟨front, mid, back, hsplit, hfront, hmid, hback⟩ := Stretch.stretch (unbroken_turns h c d)
  have hfilter : (turns c s.history).filter (both c d) = mid := by
    rw [hsplit]
    exact filter_stretch hfront hmid hback
  obtain ⟨rest, hrest⟩ := handled_stream hkinds hsize hrun hchunks
  rw [← turns_fst, hsplit, List.map_map, List.map_append, List.map_append, List.append_assoc,
    List.append_assoc] at hrest
  obtain ⟨msgs₁, msgs₂, rfl, hmsgs₁, hmsgs₂⟩ := List.map_eq_append_iff.mp hrest.symm
  obtain ⟨said, msgs₃, rfl, hsaid, -⟩ := List.map_eq_append_iff.mp hmsgs₂
  have htogether : said.map (asPacket qt localIp) = mid.map fun turn => some turn.1 := hsaid
  have hheard := filterMap_audible hqt hnothing (env.address c) htogether
  have hlearnt : ∀ r ∈ s.history, r.Learnt env := h.records.history
  have hmedia := mediaOf_history qt hsteady hne hlearnt h.shaped hdistinct
  rw [hfilter, hheard] at hmedia
  exact ⟨said, ⟨msgs₁, msgs₃, by rw [List.append_assoc]⟩, by rw [hfilter]; exact htogether, hmedia⟩

/-- The queue is made of frames a parser can read. -/
theorem outgoing_frames (h : Reachable cfg env s) (hfew : cfg.maxParticipantsPerRoom ≤ 2 ^ 30)
    (d : ConnId) :
    (∀ p ∈ s.history.flatMap (·.sends d), p.payload.length < 2 ^ 32) ∧
      (s.conn d).outgoing.flatten = encodeAll (s.history.flatMap (·.sends d)) := by
  refine ⟨fun p hp => ?_, by rw [h.outgoing_eq d, encodeAll]⟩
  obtain ⟨r, hr, hsent⟩ := List.mem_flatMap.mp hp
  exact sends_lt hfew (h.shaped r hr) p hsent

/-- **From the moment both are in one room until one of them leaves, `d` reads what `c` writes**:
every text, sound and picture, once and in order. -/
theorem conversation (hqt : qt.Lossless) (hnothing : NothingToNothing qt)
    (hfew : cfg.maxParticipantsPerRoom ≤ 2 ^ 30) (hsteady : Steady env)
    {localIp : UInt32} {msgs : List (Message Image)}
    (hkinds : ∀ msg ∈ msgs, (meaning msg.kind).isSome = true)
    (hsize : ∀ msg ∈ msgs, (MessageCodec.wireBody qt msg).length < 2 ^ 32)
    {es : List Event} (hrun : Run.run (step cfg env) {} es = some s)
    (hchunks : (es.filterMap (Event.chunkFor c)).flatten <+: stream qt localIp msgs)
    (hne : d ≠ c) (hdistinct : ∀ r ∈ s.history, Distinct env c d r) :
    ∃ said, Conversation qt env localIp s c d msgs said := by
  obtain ⟨said, hstretch, htogether, hmedia⟩ :=
    exists_said hqt hnothing hsteady hkinds hsize hrun hchunks hne hdistinct
  obtain ⟨hshort, hqueue⟩ := outgoing_frames ⟨es, hrun⟩ hfew d
  refine ⟨said, hstretch, htogether, ?_, ?_⟩
  · intro chunks hroom hpart
    rw [hqueue] at hpart
    have hread := (feedAll_isPrefix hshort hroom hpart).filter (mediaFrom (env.address c))
    rwa [← mediaOf, hmedia] at hread
  · intro chunks hroom hall
    rw [hqueue] at hall
    rw [feedAll_encodeAll qt hshort hroom hall, ← mediaOf, hmedia]

/-- A guest says something that another one reads. -/
theorem conversation_sampleGuest : ∃ said, Conversation sampleQt sampleEnv 0x0A000002
    (stateAfter sampleGuestEvents) 2 3 sampleGuest said :=
  conversation sampleQt_lossless rfl (by simp) (fun _ _ _ => rfl) (by decide) (by decide)
    (run_stateAfter (by decide +kernel)) (by decide) (by decide) (by decide +kernel)

end CloudMeeting.Link
