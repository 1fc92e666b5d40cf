/-
Switching the camera off, seen from the other side.

A member switches the camera off, which throws the waiting pictures away and hands a notice
in; the notice is posted, the server relays it to whoever is there, and a reader's window
puts the avatar up.  Pictures and notices take the same way, so nothing overtakes the notice
once it is in front of the pictures.  `sight` puts this together: whoever was in the room when
the server handled the notice sees no picture of this member any more, as soon as everything
has been read.
-/
import CloudMeeting.Link.Conversation
import CloudMeeting.Client.CloseCamera

namespace CloudMeeting.Link

open Framing Conference Server Client

variable {Image : Type} {qt : Qt Image} {cfg : ServerConfig} {env : Env} {s : State}
variable {c d : ConnId} {isNull : Image → Bool}

/-! ### Glimpses on the way -/

/-- The messages that have come to a window. -/
def told : Pictures.Event Image → Option (Message Image)
  | .message _ msg => some msg
  | _ => none

theorem glimpse_eq (ip : UInt32) (e : Pictures.Event Image) :
    e.glimpse ip = (told e).bind (·.glimpse ip) := by
  cases e <;> rfl

/-- Of somebody else's messages no glimpse is taken. -/
theorem glimpse_of_not_mediaFrom {ip : UInt32} {msg : Message Image}
    (h : mediaFrom ip msg = false) : msg.glimpse ip = none := by
  cases msg with
  | recvImage ip' image => exact if_neg (of_decide_eq_false h)
  | closeCameraNotify ip' => exact if_neg (of_decide_eq_false h)
  | _ => rfl

/-- Only a picture is perceived as one. -/
theorem perceived_picture {ip : UInt32} {msg : MessagePtr Image}
    (h : msg.glimpse ≠ some .picture) {m : Message Image}
    (hm : perceived qt ip msg.message = some m) : m.glimpse ip ≠ some .picture := by
  unfold MessagePtr.glimpse at h
  cases hmsg : msg.message with
  | sendImage image => simp [hmsg] at h
  | closeCamera =>
      rw [hmsg] at hm
      obtain rfl : Message.closeCameraNotify ip = m := Option.some.inj hm
      simp [Message.glimpse]
  | sendText text =>
      rw [hmsg] at hm
      obtain ⟨-, rfl⟩ : text ≠ [] ∧ Message.recvText ip text = m := by
        simpa [perceived, heard] using hm
      simp [Message.glimpse]
  | sendAudio audio =>
      rw [hmsg] at hm
      obtain ⟨-, rfl⟩ : audio ≠ [] ∧ Message.recvAudio ip audio = m := by
        simpa [perceived, heard] using hm
      simp [Message.glimpse]
  | _ => simp [hmsg, perceived, heard] at hm

/-- The glimpse others get of a turn. -/
def turnGlimpse (qt : Qt Image) (ip : UInt32) (turn : Packet × Participants) : Option Glimpse :=
  (audible qt ip turn.1).bind (·.glimpse ip)

/-- What a window hears of the camera is what is perceived of the turns it was there for. -/
theorem glimpses_turns {ip : UInt32} {shows : List (Pictures.Event Image)}
    {msgs : List (Message Image)} (hshows : shows.filterMap told = msgs)
    {mid : List (Packet × Participants)}
    (hmsgs : msgs.filter (mediaFrom ip) = mid.filterMap fun turn => audible qt ip turn.1) :
    shows.filterMap (Pictures.Event.glimpse ip) = mid.filterMap (turnGlimpse qt ip) := by
  have hheard : shows.filterMap (Pictures.Event.glimpse ip) = msgs.filterMap (·.glimpse ip) := by
    rw [← hshows, List.filterMap_filterMap]
    congr 1
    funext e
    exact glimpse_eq ip e
  rw [hheard, ← filterMap_mediaFrom fun _ => glimpse_of_not_mediaFrom, hmsgs,
    List.filterMap_filterMap]
  rfl

/-- Each turn is a message that was posted. -/
theorem posted_of_turn {localIp : UInt32} {sent : List (MessagePtr Image)}
    {ts : List (Packet × Participants)}
    (h : (ts.map Prod.fst).map some <+: (sent.map (·.message)).map (asPacket qt localIp)) {k : Nat}
    {turn : Packet × Participants} (hturn : ts[k]? = some turn) :
    ∃ msg, sent[k]? = some msg ∧ asPacket qt localIp msg.message = some turn.1 := by
  obtain ⟨rest, hrest⟩ := h
  have hk := congrArg (·[k]?) hrest
  have hlt : k < ((ts.map Prod.fst).map some).length := by
    obtain ⟨hlt, -⟩ := List.getElem?_eq_some_iff.mp hturn
    simpa using hlt
  simp only [List.getElem?_append_left hlt, List.getElem?_map, hturn, Option.map_some] at hk
  cases hmsg : sent[k]? with
  | none => simp [hmsg] at hk
  | some msg => exact ⟨msg, rfl, by simpa [hmsg] using hk.symm⟩

/-- The glimpse of a turn is the one of the message that was posted. -/
theorem turnGlimpse_posted (hqt : qt.Lossless) (hnothing : NothingToNothing qt)
    {localIp ip : UInt32} {sent : List (MessagePtr Image)} {ts : List (Packet × Participants)}
    (h : (ts.map Prod.fst).map some <+: (sent.map (·.message)).map (asPacket qt localIp)) {k : Nat}
    {turn : Packet × Participants} (hturn : ts[k]? = some turn) :
    ∃ msg, sent[k]? = some msg ∧
      turnGlimpse qt ip turn = (perceived qt ip msg.message).bind (·.glimpse ip) := by
  obtain ⟨msg, hmsg, hpacket⟩ := posted_of_turn h hturn
  refine ⟨msg, hmsg, ?_⟩
  rw [turnGlimpse, audible_eq_perceived hqt hnothing hpacket]

/-- Where no picture was posted behind some message, no turn behind it shows one. -/
theorem quiet_turns (hqt : qt.Lossless) (hnothing : NothingToNothing qt) {localIp : UInt32}
    {sent : List (MessagePtr Image)} {ts : List (Packet × Participants)}
    (h : (ts.map Prod.fst).map some <+: (sent.map (·.message)).map (asPacket qt localIp)) {k : Nat}
    (hquiet : ∀ msg ∈ sent.drop (k + 1), msg.glimpse ≠ some .picture) (ip : UInt32)
    (there : Packet × Participants → Bool) :
    .picture ∉ ((ts.drop (k + 1)).filter there).filterMap (turnGlimpse qt ip) := by
  intro hpicture
  obtain ⟨turn, hturn, hglimpse⟩ := List.mem_filterMap.mp hpicture
  obtain ⟨i, hi⟩ := List.mem_iff_getElem?.mp (List.mem_filter.mp hturn).1
  rw [List.getElem?_drop] at hi
  obtain ⟨msg, hmsg, hposted⟩ := turnGlimpse_posted hqt hnothing h hi
  have hlater : msg ∈ sent.drop (k + 1) :=
    List.mem_iff_getElem?.mpr ⟨i, by rw [List.getElem?_drop, hmsg]⟩
  rw [hposted] at hglimpse
  obtain ⟨m, hm, hpicture⟩ := Option.bind_eq_some_iff.mp hglimpse
  exact perceived_picture (hquiet msg hlater) hm hpicture

theorem split_at {α : Type} {l : List α} {k : Nat} {a : α} (h : l[k]? = some a) :
    l = l.take k ++ a :: l.drop (k + 1) := by
  obtain ⟨hlt, rfl⟩ := List.getElem?_eq_some_iff.mp h
  rw [← List.drop_eq_getElem_cons, List.take_append_drop]

/-! ### From the button to the tile -/

/-- **Whoever was there when the notice was handled sees the avatar**, as soon as everything has
been read. -/
theorem sight (hqt : qt.Lossless) (hnothing : NothingToNothing qt)
    (hfew : cfg.maxParticipantsPerRoom ≤ 2 ^ 30) (hsteady : Steady env)
    {es : List (FilmingEvent Image)} {f : Filming Image}
    (hfilm : Run.run (Filming.step qt isNull) {} es = some f)
    (hsound : Run.Steps (Filming.step qt isNull) Filming.Sound {} es) {notice : MessagePtr Image}
    (hclosed : f.closedAt = some notice.serial) (hkind : notice.message.kind = .closeCamera)
    {localIp : UInt32} (hwritten : (f.hub.posted.map Prod.snd).flatten
      = stream qt localIp (f.hub.sent.map (·.message)))
    (hkinds : ∀ msg ∈ f.hub.sent.map (·.message), (meaning msg.kind).isSome = true)
    (hsize : ∀ msg ∈ f.hub.sent.map (·.message), (MessageCodec.wireBody qt msg).length < 2 ^ 32)
    {events : List Event} (hrun : Run.run (step cfg env) {} events = some s)
    (hchunks : (events.filterMap (Event.chunkFor c)).flatten
      <+: (f.hub.posted.map Prod.snd).flatten)
    (hne : d ≠ c) (hdistinct : ∀ r ∈ s.history, Distinct env c d r)
    {k : Nat} (hnotice : f.hub.sent[k]? = some notice) {turn : Packet × Participants}
    (hturn : (turns c s.history)[k]? = some turn) (htogether : both c d turn = true)
    {chunks : List Bytes} (hroom : MessageCodec.NoReset qt [] chunks)
    (hall : chunks.flatten = (s.conn d).outgoing.flatten)
    {shows : List (Pictures.Event Image)} {w : Pictures.Window Image}
    (hwindow : Run.run (Pictures.Window.step isNull) {} shows = some w)
    (hforeign : ∀ e ∈ shows, e.Foreign (env.address c))
    (hshows : shows.filterMap told = (MessageCodec.feedAll qt [] chunks).1) :
    ∀ shown, w.cameraVideo.partnerDisplays (env.address c) = some shown → shown = .avatar := by
  intro shown hshown
  have h : Reachable cfg env s := ⟨events, hrun⟩
  -- what `d` reads of `c`
  obtain ⟨hshort, hqueue⟩ := outgoing_frames h hfew d
  have hlearnt : ∀ r ∈ s.history, r.Learnt env := h.records.history
  rw [hqueue] at hall
  have hread : (MessageCodec.feedAll qt [] chunks).1.filter (mediaFrom (env.address c))
      = ((turns c s.history).filter (both c d)).filterMap fun turn =>
          audible qt (env.address c) turn.1 := by
    rw [feedAll_encodeAll qt hshort hroom hall, ← mediaOf]
    exact mediaOf_history qt hsteady hne hlearnt h.shaped hdistinct
  have hglimpses := glimpses_turns hshows hread
  -- the turns are messages that were posted, and none behind the notice is a picture
  rw [hwritten] at hchunks
  have hposted := handled_stream hkinds hsize hrun hchunks
  rw [← turns_fst] at hposted
  have hquiet := Filming.posted_behind hfilm hsound hclosed hkind (split_at hnotice)
  have hnone := quiet_turns hqt hnothing hposted hquiet (env.address c) (both c d)
  have hoff : turnGlimpse qt (env.address c) turn = some .off := by
    obtain ⟨msg, hmsg, hglimpse⟩ := turnGlimpse_posted hqt hnothing hposted hturn
    obtain rfl : notice = msg := Option.some.inj (hnotice.symm.trans hmsg)
    have hclose : notice.message = .closeCamera := by
      cases hmessage : notice.message <;> simp [Message.kind, hmessage] at hkind
      rfl
    rw [hglimpse, hclose]
    simp [perceived, Message.glimpse]
  have hlast : (shows.filterMap (Pictures.Event.glimpse (env.address c))).getLast? = some .off := by
    rw [hglimpses, split_at hturn, List.filter_append, List.filter_cons_of_pos htogether,
      List.filterMap_append, List.filterMap_cons_some hoff]
    exact Filming.getLast?_off hnone
  exact Pictures.tile_off hwindow hforeign hlast hshown

/-- The member on connection 2 joins, takes a picture and switches the camera off before it was
sent. -/
def sampleCamera : List (FilmingEvent Unit) :=
  [.hub (.enqueueSend (.joinMeeting [49]) true), .partners true, .openVideo true true,
    .frame () true, .openVideo true true, .hub (.attach true)]
    ++ List.replicate 6 (.hub .start) ++ List.replicate 14 (.hub (.work 0 0x0A000002 true))

def sampleSilent : List (Message Unit) := [.joinMeeting [49], .closeCamera]

def sampleSilentEvents : List Event :=
  [.accept, .accept, .accept,
    .receive 1 (stream sampleQt 0x0A000001 [.createMeeting]),
    .receive 3 (stream sampleQt 0x0A000003 [.joinMeeting [49]]),
    .receive 2 ((stream sampleQt 0x0A000002 sampleSilent).take 20),
    .receive 2 ((stream sampleQt 0x0A000002 sampleSilent).drop 20)]

/-- What has been read on connection 3. -/
def sampleChunks : List Bytes := [((stateAfter sampleSilentEvents).conn 3).outgoing.flatten]

def sampleReader : List (Message Unit) := (MessageCodec.feedAll sampleQt [] sampleChunks).1

theorem sight_sampleCamera : ∃ w shown,
    Run.run (Pictures.Window.step fun _ => false) {}
        (sampleReader.map (Pictures.Event.message 0x0A000003)) = some w ∧
      w.cameraVideo.partnerDisplays 0x0A000002 = some shown ∧ shown = .avatar := by
  have hrun : (Run.run (Filming.step sampleQt fun _ => false) {} sampleCamera).map
      (fun f => (f.closedAt, f.hub.sent.map (·.serial), f.hub.sent.map (·.message),
        (f.hub.posted.map Prod.snd).flatten))
      = some (some 2, [0, 2], sampleSilent, stream sampleQt 0x0A000002 sampleSilent) := by
    decide +kernel
  rw [Option.map_eq_some_iff] at hrun
  obtain ⟨f, hfilm, hf⟩ := hrun
  simp only [Prod.mk.injEq] at hf
  obtain ⟨hclosed, hserials, hsent, hposted⟩ := hf
  obtain ⟨notice, hnotice, hserial⟩ : ∃ notice, f.hub.sent[1]? = some notice ∧
      notice.serial = 2 := by
    have hsecond := congrArg (·[1]?) hserials
    simpa using hsecond
  have hmessage : notice.message = .closeCamera := by
    have hsecond := congrArg (·[1]?) hsent
    simpa [hnotice, sampleSilent] using hsecond
  have hchunks : (sampleSilentEvents.filterMap (Event.chunkFor 2)).flatten
      <+: stream sampleQt 0x0A000002 sampleSilent := by decide
  obtain ⟨turn, hturn, htogether⟩ : ∃ turn,
      (turns 2 (stateAfter sampleSilentEvents).history)[1]? = some turn ∧
        both 2 3 turn = true := by
    have hboth : ((turns 2 (stateAfter sampleSilentEvents).history)[1]?).map (both 2 3)
        = some true := by decide +kernel
    exact Option.map_eq_some_iff.mp hboth
  obtain ⟨w, hwindow, hshown⟩ : ∃ w, Run.run (Pictures.Window.step fun _ => false) {}
      (sampleReader.map (Pictures.Event.message 0x0A000003)) = some w ∧
        (w.cameraVideo.partnerDisplays 0x0A000002).isSome = true := by
    have hsome : (Run.run (Pictures.Window.step fun _ => false) {}
        (sampleReader.map (Pictures.Event.message 0x0A000003))).map
          (fun w => (w.cameraVideo.partnerDisplays 0x0A000002).isSome) = some true := by
      decide +kernel
    exact Option.map_eq_some_iff.mp hsome
  obtain ⟨shown, hshown⟩ := Option.isSome_iff_exists.mp hshown
  have hclosed' : f.closedAt = some notice.serial := by rw [hclosed, hserial]
  have hkind : notice.message.kind = .closeCamera := by rw [hmessage]; rfl
  have hroom : MessageCodec.NoReset sampleQt [] sampleChunks := by decide +kernel
  have hforeign : ∀ e ∈ sampleReader.map (Pictures.Event.message 0x0A000003),
      e.Foreign (sampleEnv.address 2) := by
    intro e he
    obtain ⟨msg, -, rfl⟩ := List.mem_map.mp he
    show (0x0A000003 : UInt32) ≠ sampleEnv.address 2
    decide
  have hshows : (sampleReader.map (Pictures.Event.message 0x0A000003)).filterMap told
      = (MessageCodec.feedAll sampleQt [] sampleChunks).1 := by
    rw [List.filterMap_map]
    exact List.filterMap_some
  exact ⟨w, shown, hwindow, hshown, sight sampleQt_lossless rfl (by simp) (fun _ _ _ => rfl) hfilm
    (by decide +kernel) hclosed' hkind (by rw [hposted, hsent]) (by rw [hsent]; decide)
    (by rw [hsent]; decide) (run_stateAfter (by decide +kernel)) (by rw [hposted]; exact hchunks)
    (by decide) (by decide +kernel) hnotice hturn htogether hroom (by simp [sampleChunks]) hwindow
    hforeign hshows shown hshown⟩

end CloudMeeting.Link
