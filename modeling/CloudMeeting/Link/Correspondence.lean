/-
What one member writes, and what another reads.

Each of the two has a list of texts.  A click on the send button puts a text into the
writer's list and hands it in to be sent; a worker posts it, the server relays it, and it is
put into the reader's list when it arrives.

So the texts that the reader's list has under the writer's address are texts of the writer's
own list, each once and in their order, and one stretch of them where every text has been
posted (`correspondence`).  A text arrives as it was written, but for a byte order mark in front.
-/
import CloudMeeting.Client.Chat
import CloudMeeting.Client.CloseCamera
import CloudMeeting.Link.Conversation
import Mathlib.Data.List.Sort

namespace CloudMeeting.Link

open Framing Conference Server Client

/-! ### Texts and bytes -/

/-- `QString::toStdString`. -/
def toStdString (text : List Char) : Bytes := text.flatMap String.utf8EncodeChar

/-- A text without the byte order mark in front of it. -/
def withoutMark : List Char → List Char
  | [] => []
  | first :: text => if first = '\uFEFF' then text else first :: text

/-- `QString::fromUtf8`, which takes a byte order mark away; `invalid` is what becomes of bytes that
are not UTF-8. -/
def fromUtf8 (invalid : Bytes → List Char) (bytes : Bytes) : List Char :=
  match bytes.toByteArray.utf8Decode? with
  | some text => withoutMark text.toList
  | none => invalid bytes

theorem utf8Decode_toStdString (text : List Char) :
    (toStdString text).toByteArray.utf8Decode? = some text.toArray :=
  List.utf8Decode?_utf8Encode

theorem fromUtf8_toStdString (invalid : Bytes → List Char) (text : List Char) :
    fromUtf8 invalid (toStdString text) = withoutMark text := by
  rw [fromUtf8, utf8Decode_toStdString]

theorem toStdString_ne_nil {text : List Char} (h : text ≠ []) : toStdString text ≠ [] := by
  intro hnil
  have hsame : (toStdString text).toByteArray.utf8Decode?
      = (toStdString []).toByteArray.utf8Decode? := by
    rw [hnil]
    rfl
  rw [utf8Decode_toStdString, utf8Decode_toStdString, Option.some.injEq] at hsame
  exact h (congrArg Array.toList hsame)

/-- What is shown of the bytes of a text. -/
def readable (invalid : Bytes → List Char) (bytes : Bytes) : Option (List Char) :=
  if bytes = [] then none else some (fromUtf8 invalid bytes)

theorem filterMap_readable (invalid : Bytes → List Char) {written : List (List Char)}
    (h : ∀ text ∈ written, text ≠ []) :
    (written.map toStdString).filterMap (readable invalid) = written.map withoutMark := by
  rw [List.filterMap_map, ← List.filterMap_eq_map]
  refine List.filterMap_congr fun text htext => ?_
  show readable invalid (toStdString text) = some (withoutMark text)
  rw [readable, if_neg (toStdString_ne_nil (h text htext)), fromUtf8_toStdString]

/-! ### Lists -/

section Lists

variable {isSpace : Char → Bool} {chat chat' : Chat}

/-- The texts of the rows of some kind. -/
def shown (p : UserType → Option UInt32 → Bool) (chat : Chat) : List (List Char) :=
  (chat.listWidget.filter fun row => p row.userType row.ip).map (·.msg)

def isOwn (type : UserType) (_ : Option UInt32) : Bool := type = .me

def isFrom (ip : UInt32) (type : UserType) (ip' : Option UInt32) : Bool :=
  type = .she ∧ ip' = some ip

/-- The texts that the user has sent. -/
def ownTexts (chat : Chat) : List (List Char) := shown isOwn chat

/-- The texts that have come under an address. -/
def textsFrom (ip : UInt32) (chat : Chat) : List (List Char) := shown (isFrom ip) chat

/-- A text that the user sends. -/
def written (isSpace : Char → Bool) : ChatEvent → Option (List Char)
  | .sendMsgClicked plainText _ _ =>
      if trimmed isSpace plainText = [] then none else some (trimmed isSpace plainText)
  | _ => none

/-- A text that comes. -/
def received : ChatEvent → Option (UInt32 × List Char)
  | .textRecv text _ ip => some (ip, text)
  | _ => none

theorem written_ne_nil {es : List ChatEvent} : ∀ text ∈ es.filterMap (written isSpace),
    text ≠ [] := by
  intro text htext
  obtain ⟨e, -, he⟩ := List.mem_filterMap.mp htext
  cases e with
  | sendMsgClicked plainText time localIp =>
      simp only [written, Option.ite_none_left_eq_some, Option.some.injEq] at he
      obtain ⟨hne, rfl⟩ := he
      exact hne
  | _ => simp [written] at he

variable (isSpace) in
/-- What an event adds to the texts of some kind. -/
def added (p : UserType → Option UInt32 → Bool) : ChatEvent → Option (List Char)
  | .sendMsgClicked plainText time localIp =>
      if p .me (some localIp) then written isSpace (.sendMsgClicked plainText time localIp)
      else none
  | .textRecv text _ ip => if p .she (some ip) then some text else none
  | _ => none

variable (isSpace) in
theorem added_isOwn (e : ChatEvent) : added isSpace isOwn e = written isSpace e := by
  cases e <;> rfl

variable (isSpace) in
theorem added_isFrom (ip : UInt32) (e : ChatEvent) :
    added isSpace (isFrom ip) e
      = (received e).bind fun x => if x.1 = ip then some x.2 else none := by
  cases e with
  | textRecv text time ip' => simp [added, received, isFrom]
  | _ => rfl

theorem shown_addRow (p : UserType → Option UInt32 → Bool) (chat : Chat) (row : ChatMessage) :
    shown p (chat.addRow row)
      = shown p chat ++ if p row.userType row.ip then [row.msg] else [] := by
  simp only [shown, Chat.addRow, List.filter_append, List.map_append]
  congr 1
  cases h : p row.userType row.ip <;> simp [h]

/-- Separators are nobody's texts. -/
theorem shown_dealMessageTime {p : UserType → Option UInt32 → Bool} (hp : p .time none = false)
    (chat : Chat) (time : Nat) : shown p (chat.dealMessageTime time) = shown p chat := by
  simp only [Chat.dealMessageTime]
  split_ifs
  · have hnobody : ¬ p (Chat.timeRow time).userType (Chat.timeRow time).ip = true :=
      ne_true_of_eq_false hp
    rw [shown_addRow, if_neg hnobody, List.append_nil]
  · rfl

/-- Marking the last row leaves its text. -/
theorem shown_onTextSend (p : UserType → Option UInt32 → Bool) (chat : Chat) :
    shown p chat.onTextSend = shown p chat := by
  rcases List.eq_nil_or_concat chat.listWidget with hnil | ⟨front, last, hrows⟩
  · simp [shown, Chat.onTextSend, hnil]
  · rw [List.concat_eq_append] at hrows
    rw [Chat.onTextSend_concat hrows]
    simp only [shown, hrows, List.filter_append, List.map_append]
    congr 1
    cases h : p last.userType last.ip <;> simp [h, ChatMessage.setTextSuccess]

/-- What an event does to the texts of some kind. -/
theorem shown_step {p : UserType → Option UInt32 → Bool} (hp : p .time none = false)
    {e : ChatEvent} (hstep : chat.step isSpace e = some chat') :
    shown p chat' = (if e = .resetMeetingUi then [] else shown p chat)
      ++ (added isSpace p e).toList := by
  simp only [Chat.step, Option.ite_none_left_eq_some] at hstep
  obtain ⟨-, hstep⟩ := hstep
  cases e with
  | sendMsgClicked plainText time localIp =>
      simp only [Option.ite_none_right_eq_some, Option.some.injEq] at hstep
      obtain ⟨-, rfl⟩ := hstep
      rw [if_neg (by simp)]
      simp only [Chat.onSendMsgClicked, added, written]
      by_cases hempty : trimmed isSpace plainText = []
      · simp [hempty]
      · rw [if_neg hempty, if_neg hempty]
        show shown p ((chat.dealMessageTime time).dealMessage _ time localIp .me) = _
        rw [Chat.dealMessage, shown_addRow, shown_dealMessageTime hp]
        cases hown : p .me (some localIp) <;> simp
  | textRecv text time ip =>
      obtain rfl := Option.some.inj hstep
      rw [if_neg (by simp)]
      show shown p ((chat.dealMessageTime time).dealMessage text time ip .she) = _
      rw [Chat.dealMessage, shown_addRow, shown_dealMessageTime hp]
      cases hother : p .she (some ip) <;> simp [added, hother]
  | resetMeetingUi =>
      obtain rfl := Option.some.inj hstep
      rfl
  | textSent =>
      simp only [Option.ite_none_right_eq_some, Option.some.injEq] at hstep
      obtain ⟨-, rfl⟩ := hstep
      exact (shown_onTextSend p chat).trans (List.append_nil _).symm
  | setDisabled disabled =>
      obtain rfl := Option.some.inj hstep
      exact (List.append_nil _).symm

/-- A list has the last of the texts that were added, and all of them if it was not cleared. -/
theorem shown_run {p : UserType → Option UInt32 → Bool} (hp : p .time none = false)
    {es : List ChatEvent} (hrun : Run.run (Chat.step isSpace) chat es = some chat') :
    shown p chat' <:+ shown p chat ++ es.filterMap (added isSpace p) ∧
      (.resetMeetingUi ∉ es →
        shown p chat' = shown p chat ++ es.filterMap (added isSpace p)) := by
  induction es generalizing chat with
  | nil =>
      obtain rfl := Option.some.inj hrun
      rw [List.filterMap_nil, List.append_nil]
      exact ⟨List.suffix_refl _, fun _ => rfl⟩
  | cons e es ih =>
      obtain ⟨next, hstep, hrest⟩ := Run.run_cons_some hrun
      obtain ⟨hsuffix, hall⟩ := ih hrest
      have hcons : (added isSpace p e).toList ++ es.filterMap (added isSpace p)
          = (e :: es).filterMap (added isSpace p) := by
        rw [List.filterMap_cons]
        cases added isSpace p e <;> rfl
      rw [shown_step hp hstep, List.append_assoc, hcons] at hsuffix hall
      refine ⟨hsuffix.trans ?_, fun hreset => ?_⟩
      · split_ifs
        · exact List.suffix_append _ _
        · exact List.suffix_refl _
      · rw [List.mem_cons, not_or] at hreset
        rw [hall hreset.2, if_neg fun he => hreset.1 he.symm]

end Lists

/-! ### Posting -/

section Posting

variable {Image : Type} {qt : Qt Image} {hub hub' : MessageHub Image}

open MessageHub

/-- Along a run there is nothing but what was there before and what was handed in. -/
theorem everywhere_run {P : MessagePtr Image → Prop} (h : Everywhere P hub) (halone : hub.Alone)
    {es : List (HubEvent Image)} (hnew : ∀ msg ∈ enqueued qt hub es, P msg)
    (hrun : Run.run (step qt) hub es = some hub') : Everywhere P hub' := by
  induction es generalizing hub with
  | nil =>
      obtain rfl := Option.some.inj hrun
      exact h
  | cons e es ih =>
      obtain ⟨next, hstep, hrest⟩ := Run.run_cons_some hrun
      have hsplit : enqueued qt hub (e :: es) = hub.handedIn e ++ enqueued qt next es :=
        Run.gathered_cons hstep es
      rw [hsplit, List.forall_mem_append] at hnew
      exact ih (h.step halone hnew.1 hstep) (halone.step hstep) hnew.2 hrest

/-- The texts among some messages. -/
def textsAmong (msgs : List (MessagePtr Image)) : List (MessagePtr Image) := msgs.filter (·.isText)

/-- Messages in the order of their numbers that are all among others in that order. -/
theorem sublist_of_serials {msgs msgs' : List (MessagePtr Image)}
    (h : (msgs.map (·.serial)).Pairwise (· < ·)) (h' : (msgs'.map (·.serial)).Pairwise (· < ·))
    (hsubset : msgs ⊆ msgs') : msgs.Sublist msgs' := by
  have hanti : Std.Antisymm fun a b : MessagePtr Image => a.serial < b.serial :=
    ⟨fun _ _ hlt hgt => absurd hlt (Nat.lt_asymm hgt)⟩
  rw [List.pairwise_map] at h h'
  have hnodup : msgs.Nodup := by
    refine h.imp ?_
    rintro a _ hlt rfl
    exact Nat.lt_irrefl _ hlt
  exact List.sublist_of_subperm_of_pairwise (List.subperm_of_subset hnodup hsubset) h h'

/-- **Texts are posted as they were handed in**: a part of them, in order, and all of them if none
is missing. -/
theorem textsAmong_sent {es : List (HubEvent Image)}
    (hreturns : Run.Steps (step qt) ReturnsAlone {} es)
    (hrun : Run.run (step qt) {} es = some hub) :
    (textsAmong hub.sent).Sublist (textsAmong (enqueued qt {} es)) ∧
      ((∀ msg ∈ textsAmong (enqueued qt {} es), msg ∈ hub.sent) →
        textsAmong hub.sent = textsAmong (enqueued qt {} es)) := by
  have hinv : hub.Inv := (Run.throughout_of_step
    (fun _ _ _ hinv hreturns hstep => hinv.step hreturns hstep) Inv.init hreturns).last hrun
  have hposted : ((textsAmong hub.sent).map (·.serial)).Pairwise (· < ·) :=
    hinv.line.sublist (List.sublist_append_left _ _)
  have hserials : ((enqueued qt {} es).map (·.serial)).Pairwise (· < ·) := by
    rw [enqueued_serials hrun]
    exact List.pairwise_lt_range'
  have hhanded : ((textsAmong (enqueued qt {} es)).map (·.serial)).Pairwise (· < ·) :=
    hserials.sublist (List.filter_sublist.map _)
  have hnothing : Everywhere (· ∈ enqueued qt {} es) ({} : MessageHub Image) :=
    ⟨fun _ h => absurd h List.not_mem_nil, fun _ h => absurd h List.not_mem_nil,
      fun _ _ h => absurd h List.not_mem_nil⟩
  have hwhere := everywhere_run hnothing Alone.init (fun _ hmsg => hmsg) hrun
  have hpart : (textsAmong hub.sent).Sublist (textsAmong (enqueued qt {} es)) := by
    refine sublist_of_serials hposted hhanded fun msg hmsg => ?_
    rw [textsAmong, List.mem_filter] at hmsg ⊢
    exact ⟨hwhere.sent msg hmsg.1, hmsg.2⟩
  refine ⟨hpart, fun hall => hpart.antisymm ?_⟩
  refine sublist_of_serials hhanded hposted fun msg hmsg => ?_
  exact List.mem_filter.mpr ⟨hall msg hmsg, (List.mem_filter.mp hmsg).2⟩

/-- What a text says. -/
def textOf : Message Image → Option Bytes
  | .sendText text => some text
  | _ => none

theorem filterMap_textOf (msgs : List (MessagePtr Image)) :
    (textsAmong msgs).filterMap (fun msg => textOf msg.message)
      = msgs.filterMap fun msg => textOf msg.message := by
  rw [textsAmong, List.filterMap_filter]
  refine List.filterMap_congr fun msg _ => ?_
  cases hmsg : msg.message <;> simp [MessagePtr.isText, Message.kind, textOf, hmsg]

end Posting

/-! ### From list to list -/

variable {Image : Type} {qt : Qt Image} {cfg : ServerConfig} {env : Env} {s : State}
variable {c d : ConnId} {isSpace : Char → Bool} {invalid : Bytes → List Char}

/-- A text that comes, as it is shown. -/
def arrived (invalid : Bytes → List Char) : Message Image → Option (UInt32 × List Char)
  | .recvText ip text => some (ip, fromUtf8 invalid text)
  | _ => none

/-- The same, from one address. -/
def arrivedFrom (invalid : Bytes → List Char) (ip : UInt32) (msg : Message Image) :
    Option (List Char) :=
  (arrived invalid msg).bind fun x => if x.1 = ip then some x.2 else none

theorem arrivedFrom_of_not_mediaFrom {ip : UInt32} {msg : Message Image}
    (h : mediaFrom ip msg = false) : arrivedFrom invalid ip msg = none := by
  cases msg with
  | recvText ip' text => exact if_neg (of_decide_eq_false h)
  | _ => rfl

/-- What is shown of what is perceived of a message is what is readable of it. -/
theorem perceived_arrivedFrom (invalid : Bytes → List Char) (ip : UInt32) (msg : Message Image) :
    (perceived qt ip msg).bind (arrivedFrom invalid ip) = (textOf msg).bind (readable invalid) := by
  cases msg with
  | sendText text =>
      by_cases hempty : text = []
      · simp [perceived, heard, textOf, readable, hempty]
      · simp [perceived, heard, textOf, readable, hempty, arrivedFrom, arrived]
  | sendAudio audio =>
      by_cases hempty : audio = []
      · simp [perceived, heard, textOf, hempty]
      · simp [perceived, heard, textOf, hempty, arrivedFrom, arrived]
  | sendImage image =>
      simp only [perceived, Option.bind_assoc, textOf, Option.bind_none]
      rw [Option.bind_eq_none_iff]
      intro raw _
      cases qt.loadFromData raw <;> rfl
  | _ => rfl

/-- The reader's list has one stretch of the texts that were posted. -/
theorem textsFrom_isInfix (hqt : qt.Lossless) (hnothing : NothingToNothing qt)
    (hfew : cfg.maxParticipantsPerRoom ≤ 2 ^ 30) (hsteady : Steady env) {localIp : UInt32}
    {msgs : List (Message Image)} (hkinds : ∀ msg ∈ msgs, (meaning msg.kind).isSome = true)
    (hsize : ∀ msg ∈ msgs, (MessageCodec.wireBody qt msg).length < 2 ^ 32)
    {events : List Event} (hrun : Run.run (step cfg env) {} events = some s)
    (hchunks : (events.filterMap (Event.chunkFor c)).flatten <+: stream qt localIp msgs)
    (hne : d ≠ c) (hdistinct : ∀ r ∈ s.history, Distinct env c d r) {chunks : List Bytes}
    (hroom : MessageCodec.NoReset qt [] chunks)
    (hpart : chunks.flatten <+: (s.conn d).outgoing.flatten) {there : List ChatEvent} {chat : Chat}
    (hthere : Run.run (Chat.step isSpace) {} there = some chat)
    (hshows : there.filterMap received
      = (MessageCodec.feedAll qt [] chunks).1.filterMap (arrived invalid)) :
    textsFrom (env.address c) chat
      <:+: (msgs.filterMap textOf).filterMap (readable invalid) := by
  obtain ⟨said, hstretch, -, hmedia⟩ :=
    exists_said hqt hnothing hsteady hkinds hsize hrun hchunks hne hdistinct
  obtain ⟨hshort, hqueue⟩ := outgoing_frames ⟨events, hrun⟩ hfew d
  rw [hqueue] at hpart
  have hread := (feedAll_isPrefix hshort hroom hpart).filter (mediaFrom (env.address c))
  rw [← mediaOf, hmedia] at hread
  have hshown : textsFrom (env.address c) chat
      <:+ there.filterMap (added isSpace (isFrom (env.address c))) :=
    (shown_run (p := isFrom (env.address c)) rfl hthere).1
  have hcome : there.filterMap (added isSpace (isFrom (env.address c)))
      = (MessageCodec.feedAll qt [] chunks).1.filterMap (arrivedFrom invalid (env.address c)) := by
    rw [funext (added_isFrom isSpace (env.address c)), ← List.filterMap_filterMap, hshows,
      List.filterMap_filterMap]
    rfl
  have hsaid : (said.filterMap (perceived qt (env.address c))).filterMap
        (arrivedFrom invalid (env.address c))
      = (said.filterMap textOf).filterMap (readable invalid) := by
    rw [List.filterMap_filterMap, List.filterMap_filterMap,
      funext (perceived_arrivedFrom invalid (env.address c))]
  have hcame := hread.filterMap (arrivedFrom invalid (env.address c))
  rw [filterMap_mediaFrom fun _ => arrivedFrom_of_not_mediaFrom, hsaid, ← hcome] at hcame
  exact (hshown.isInfix.trans hcame.isInfix).trans ((hstretch.filterMap _).filterMap _)

/-- **What the reader's list has from the writer is in the writer's list**, each text once and in
order; it is one stretch of it if every text of the writer was posted. -/
theorem correspondence (hqt : qt.Lossless) (hnothing : NothingToNothing qt)
    (hfew : cfg.maxParticipantsPerRoom ≤ 2 ^ 30) (hsteady : Steady env)
    {here : List ChatEvent} {chat : Chat}
    (hhere : Run.run (Chat.step isSpace) {} here = some chat) (hsame : .resetMeetingUi ∉ here)
    {es : List (HubEvent Image)} {hub : MessageHub Image}
    (hposting : Run.run (MessageHub.step qt) {} es = some hub)
    (hreturns : Run.Steps (MessageHub.step qt) MessageHub.ReturnsAlone {} es)
    (hhanded : (MessageHub.enqueued qt {} es).filterMap (fun msg => textOf msg.message)
      = (here.filterMap (written isSpace)).map toStdString)
    {localIp : UInt32} (hwritten : (hub.posted.map Prod.snd).flatten
      = stream qt localIp (hub.sent.map (·.message)))
    (hkinds : ∀ msg ∈ hub.sent.map (·.message), (meaning msg.kind).isSome = true)
    (hsize : ∀ msg ∈ hub.sent.map (·.message), (MessageCodec.wireBody qt msg).length < 2 ^ 32)
    {events : List Event} (hrun : Run.run (step cfg env) {} events = some s)
    (hchunks : (events.filterMap (Event.chunkFor c)).flatten
      <+: (hub.posted.map Prod.snd).flatten)
    (hne : d ≠ c) (hdistinct : ∀ r ∈ s.history, Distinct env c d r) {chunks : List Bytes}
    (hroom : MessageCodec.NoReset qt [] chunks)
    (hpart : chunks.flatten <+: (s.conn d).outgoing.flatten) {there : List ChatEvent}
    {chat' : Chat} (hthere : Run.run (Chat.step isSpace) {} there = some chat')
    (hshows : there.filterMap received
      = (MessageCodec.feedAll qt [] chunks).1.filterMap (arrived invalid)) :
    (textsFrom (env.address c) chat').Sublist ((ownTexts chat).map withoutMark) ∧
      ((∀ msg ∈ textsAmong (MessageHub.enqueued qt {} es), msg ∈ hub.sent) →
        textsFrom (env.address c) chat' <:+: (ownTexts chat).map withoutMark) := by
  rw [hwritten] at hchunks
  have hstretch := textsFrom_isInfix hqt hnothing hfew hsteady hkinds hsize hrun hchunks hne
    hdistinct hroom hpart hthere hshows
  rw [List.filterMap_map] at hstretch
  have hown : ownTexts chat = here.filterMap (written isSpace) := by
    rw [ownTexts, (shown_run rfl hhere).2 hsame, funext (added_isOwn isSpace)]
    rfl
  have hreadable : ((MessageHub.enqueued qt {} es).filterMap
      (fun msg => textOf msg.message)).filterMap (readable invalid)
        = (ownTexts chat).map withoutMark := by
    rw [hhanded, filterMap_readable invalid written_ne_nil, hown]
  obtain ⟨hpart, hall⟩ := textsAmong_sent hreturns hposting
  constructor
  · have hposted := (hpart.filterMap fun msg => textOf msg.message).filterMap (readable invalid)
    rw [filterMap_textOf, filterMap_textOf, hreadable] at hposted
    exact hstretch.sublist.trans hposted
  · intro hsent
    have hequal : hub.sent.filterMap (fun msg => textOf msg.message)
        = (MessageHub.enqueued qt {} es).filterMap fun msg => textOf msg.message := by
      rw [← filterMap_textOf, hall hsent, filterMap_textOf]
    rw [← hreadable, ← hequal]
    exact hstretch

/-- The member on connection 2 writes a text when it has joined. -/
def sampleHere : List ChatEvent :=
  [.setDisabled false, .sendMsgClicked [' ', 'h', 'i', ' '] 0 0x0A000002]

/-- It is posted behind the request to join. -/
def samplePosting : List (HubEvent Unit) :=
  [.enqueueSend (.joinMeeting [49]) true, .enqueueSend (.sendText hi) true, .attach true]
    ++ List.replicate 6 .start ++ List.replicate 14 (.work 0 0x0A000002 true)

def sampleTextChunks : List Bytes := [((stateAfter sampleGuestEvents).conn 3).outgoing.flatten]

/-- The text comes on connection 3. -/
def sampleThere : List ChatEvent := [.textRecv ['h', 'i'] 70 0x0A000002]

theorem correspondence_sampleThere : ∃ chat chat',
    Run.run (Chat.step Char.isWhitespace) {} sampleHere = some chat ∧
      Run.run (Chat.step Char.isWhitespace) {} sampleThere = some chat' ∧
      textsFrom 0x0A000002 chat' <:+: (ownTexts chat).map withoutMark ∧
      textsFrom 0x0A000002 chat' = [['h', 'i']] := by
  have hposting : (Run.run (MessageHub.step sampleQt) {} samplePosting).map
      (fun hub => (hub.sent, (hub.posted.map Prod.snd).flatten))
      = some ([⟨0, .joinMeeting [49]⟩, ⟨1, .sendText hi⟩],
        stream sampleQt 0x0A000002 sampleGuest) := by
    decide +kernel
  rw [Option.map_eq_some_iff] at hposting
  obtain ⟨hub, hposting, hhub⟩ := hposting
  obtain ⟨hsent, hposted⟩ := Prod.mk.inj hhub
  have hall : textsAmong (MessageHub.enqueued sampleQt {} samplePosting)
      = [⟨1, .sendText hi⟩] := by
    decide +kernel
  obtain ⟨chat, hhere⟩ : ∃ chat, Run.run (Chat.step Char.isWhitespace) {} sampleHere = some chat :=
    Option.isSome_iff_exists.mp (by decide +kernel)
  obtain ⟨chat', hthere, hshown⟩ : ∃ chat',
      Run.run (Chat.step Char.isWhitespace) {} sampleThere = some chat' ∧
        textsFrom 0x0A000002 chat' = [['h', 'i']] := by
    have hrun : (Run.run (Chat.step Char.isWhitespace) {} sampleThere).map (textsFrom 0x0A000002)
        = some [['h', 'i']] := by
      decide +kernel
    exact Option.map_eq_some_iff.mp hrun
  have hwritten : (hub.posted.map Prod.snd).flatten
      = stream sampleQt 0x0A000002 (hub.sent.map (·.message)) := by
    rw [hposted, hsent]
    rfl
  have hchunks : (sampleGuestEvents.filterMap (Event.chunkFor 2)).flatten
      <+: (hub.posted.map Prod.snd).flatten := by
    rw [hposted]
    decide
  have hshows : sampleThere.filterMap received
      = (MessageCodec.feedAll sampleQt [] sampleTextChunks).1.filterMap (arrived fun _ => []) := by
    decide +kernel
  have hroom : MessageCodec.NoReset sampleQt [] sampleTextChunks := by decide +kernel
  have hpart : sampleTextChunks.flatten
      <+: ((stateAfter sampleGuestEvents).conn 3).outgoing.flatten := by
    simp [sampleTextChunks]
  have hlists := correspondence sampleQt_lossless rfl (by simp) (fun _ _ _ => rfl) hhere (by decide)
    hposting (by decide +kernel) (by decide +kernel) hwritten (by rw [hsent]; decide)
    (by rw [hsent]; decide) (run_stateAfter (by decide +kernel)) hchunks (by decide)
    (by decide +kernel) hroom hpart hthere hshows
  exact ⟨chat, chat', hhere, hthere, hlists.2 (by rw [hall, hsent]; decide), hshown⟩

end CloudMeeting.Link
