/-
From one member's microphone to another's loudspeaker.

On its way a sound is converted twice: `AudioInput` doubles the samples of a device with one
channel, for the wire has two, and `AudioOutput` merges them again for a device with one
channel.  The first looks at the numbers of channels only.  The second looks whether the
samples of the device are those of the wire too, which are floats, and otherwise leaves the
sound as it is.

So with the same format at both ends, one channel and integer samples, the loudspeaker gets
every sample twice, in a session where everything else goes well (`speech`): what is said is
captured, sent, relayed, read and played in full and in order.
-/
import CloudMeeting.Link.Conversation
import CloudMeeting.Audio.Conversion
import CloudMeeting.Audio.Reception

namespace CloudMeeting.Link

open Blocks Endian Server Client Audio

variable {Image : Type} {qt : Qt Image} {cfg : ServerConfig} {env : Env} {s : State}
variable {c d : ConnId} {mergeFloat : UInt32 → UInt32 → UInt32} {format : AudioFormat}

/-! ### Blocks there and back -/

/-- A device with one channel, of a format that is known. -/
structure Mono (format : AudioFormat) : Prop where
  channel : format.channelCount = 1
  known : 0 < format.bytesPerSample

/-- Doubled samples are merged to what they were, if each of them is. -/
theorem convertChannels_back_of {f : SampleFormat} (hf : 0 < f.bytesPerSample) {pcm : Bytes}
    (hwhole : f.bytesPerSample ∣ pcm.length)
    (hself : ∀ sample ∈ blocks f.bytesPerSample pcm,
      mergeStereoFrame mergeFloat sample sample f = some sample) :
    convertChannels mergeFloat (convertChannels mergeFloat pcm 1 2 f.bytesPerSample f) 2 1
      f.bytesPerSample f = pcm := by
  have hdoubled : ∀ sample ∈ blocks f.bytesPerSample pcm,
      (sample ++ sample).length = 2 * f.bytesPerSample := by
    intro sample hsample
    rw [List.length_append, length_of_mem_blocks hsample]
    omega
  have hback : ∀ sample ∈ blocks f.bytesPerSample pcm,
      mergeFrame mergeFloat f (sample ++ sample) = sample := by
    intro sample hsample
    have hlen := length_of_mem_blocks hsample
    rw [mergeFrame, List.take_left' hlen, List.drop_left' hlen, hself sample hsample,
      Option.getD_some]
  rw [convertChannels_double hf, convertChannels_merge hf, blocks_flatMap (by omega) hdoubled,
    List.flatMap_map, List.flatMap_def, List.map_congr_left hback, List.map_id',
    flatten_blocks_of_dvd hwhole]

variable (mergeFloat) in
/-- Halving the sum of two equal samples gives them back, for the samples of some blocks; it does
for all floats that are not too large to be added. -/
def Halves (bs : List Bytes) : Prop :=
  ∀ rr ∈ bs, ∀ sample ∈ blocks 4 rr,
    mergeFloat (load32 sample) (load32 sample) = load32 sample

/-- What a device gets of a block that a device of the same format has captured. -/
theorem forDevice_doubled (hmono : Mono format) {rr : Bytes}
    (hlen : format.bytesPerSample ≤ rr.length) (hwhole : format.bytesPerSample ∣ rr.length)
    (hhalves : format.sampleFormat = .float → Halves mergeFloat [rr]) :
    AudioOutput.forDevice mergeFloat format (AudioInput.doubled mergeFloat format rr)
      = some (if format.sampleFormat = .float then rr
          else AudioInput.doubled mergeFloat format rr) := by
  have hwire : sessionWirePcmSpec.sampleFormat = .float := rfl
  have htwo : sessionWirePcmSpec.channelCount = 2 := rfl
  rw [AudioOutput.forDevice]
  simp only [hwire, htwo, hmono.channel]
  by_cases hfloat : format.sampleFormat = .float
  · have hbytes : format.bytesPerSample = SampleFormat.float.bytesPerSample := by
      rw [AudioFormat.bytesPerSample, hfloat]
    have hback : convertChannels mergeFloat (AudioInput.doubled mergeFloat format rr) 2 1
        format.bytesPerSample .float = rr := by
      rw [AudioInput.doubled, hfloat, hbytes]
      refine convertChannels_back_of (by decide) (hbytes ▸ hwhole) fun sample hsample => ?_
      rw [mergeStereoFrame, hhalves hfloat rr (List.mem_singleton_self rr) sample hsample,
        store32_load32 (length_of_mem_blocks hsample)]
    have hne : rr ≠ [] := by
      rintro rfl
      have hpos := hmono.known
      rw [List.length_nil] at hlen
      omega
    rw [if_pos ⟨⟨hfloat.symm, hbytes.symm⟩, by decide⟩, hback, if_pos hne, if_pos hfloat]
  · rw [if_neg (fun hboth => hfloat hboth.1.1.symm), if_neg hfloat]

/-! ### Sounds among messages -/

/-- The sound of a message that is sent. -/
def spoken : Message Image → Option Bytes
  | .sendAudio audio => some audio
  | _ => none

/-- A message that goes to the thread that plays. -/
def played : Message Image → Option RecvAudioMessage
  | .recvAudio ip audio => some ⟨ip, audio⟩
  | _ => none

/-- The sounds of what is perceived are those that were sent. -/
theorem played_perceived (ip : UInt32) (said : List (Message Image)) :
    (said.filterMap (perceived qt ip)).filterMap played
      = ((said.filterMap spoken).filter (· ≠ [])).map fun audio => ⟨ip, audio⟩ := by
  rw [List.filterMap_filterMap, List.filter_filterMap, List.map_filterMap]
  congr 1
  funext msg
  cases msg with
  | sendText text =>
      by_cases htext : text = [] <;> simp [perceived, heard, spoken, played, htext]
  | sendAudio audio =>
      by_cases haudio : audio = [] <;> simp [perceived, heard, spoken, played, haudio]
  | sendImage image =>
      rw [Option.bind_eq_none_iff.mpr fun m hm => ?_]
      · rfl
      · obtain ⟨raw, -, hraw⟩ := Option.bind_eq_some_iff.mp hm
        obtain ⟨image', -, rfl⟩ := Option.map_eq_some_iff.mp hraw
        rfl
  | _ => rfl

/-- Nobody but `ip` makes a sound. -/
def OnlySpeaker (ip : UInt32) (msgs : List (Message Image)) : Prop :=
  ∀ sound ∈ msgs.filterMap played, sound.ip = ip

theorem OnlySpeaker.played_media {ip : UInt32} {msgs : List (Message Image)}
    (h : OnlySpeaker ip msgs) :
    (msgs.filter (mediaFrom ip)).filterMap played = msgs.filterMap played := by
  induction msgs with
  | nil => rfl
  | cons msg msgs ih =>
      have hrest : OnlySpeaker ip msgs := by
        intro sound hsound
        apply h
        rw [List.filterMap_cons]
        split
        · exact hsound
        · exact List.mem_cons_of_mem _ hsound
      rw [List.filterMap_cons, ← ih hrest]
      cases hmedia : mediaFrom ip msg with
      | true => rw [List.filter_cons_of_pos hmedia, List.filterMap_cons]
      | false =>
          -- what comes from somebody else is no sound
          have hsilent : played msg = none := by
            cases msg with
            | recvAudio ip' audio =>
                have hsame : ip' = ip := h ⟨ip', audio⟩ List.mem_cons_self
                exact absurd hsame (of_decide_eq_false hmedia)
            | _ => rfl
          rw [List.filter_cons_of_neg (by simp [hmedia]), hsilent]

/-! ### The sound of a stretch -/

variable (mergeFloat format) in
/-- What the loudspeaker of a device gets of blocks that were captured by one like it. -/
def loud (kept : List Bytes) : Bytes :=
  if format.sampleFormat = .float then kept.flatten
  else convertChannels mergeFloat kept.flatten 1 2 format.bytesPerSample format.sampleFormat

/-- No block ends within a sample. -/
def WholeSamples (format : AudioFormat) (bs : List Bytes) : Prop :=
  ∀ rr ∈ bs, format.bytesPerSample ∣ rr.length

theorem WholeSamples.aligned {bs : List Bytes} (h : WholeSamples format bs) :
    Aligned format.bytesPerSample (bs.map List.length) ∧
      format.bytesPerSample ∣ bs.flatten.length := by
  induction bs with
  | nil => exact ⟨trivial, Nat.dvd_zero _⟩
  | cons rr bs ih =>
      have hfirst := h rr List.mem_cons_self
      obtain ⟨haligned, hdvd⟩ := ih fun rr hrr => h rr (List.mem_cons_of_mem _ hrr)
      refine ⟨Or.inl ⟨hfirst, haligned⟩, ?_⟩
      rw [List.flatten_cons, List.length_append]
      exact Nat.dvd_add hfirst hdvd

theorem WholeSamples.flatMap_doubled (hmono : Mono format) {bs : List Bytes}
    (h : WholeSamples format bs) : bs.flatMap (AudioInput.doubled mergeFloat format)
      = convertChannels mergeFloat bs.flatten 1 2 format.bytesPerSample format.sampleFormat :=
  (AudioInput.flatMap_convertChannels_iff hmono.known bs).mpr
    (flatMap_blocks_of_aligned hmono.known h.aligned.1)

/-- A loudspeaker that gets the blocks one by one gets what it would of them all. -/
theorem pcm_doubled (hmono : Mono format) (ip : UInt32) {kept : List Bytes}
    (hlong : ∀ rr ∈ kept, format.bytesPerSample ≤ rr.length) (hwhole : WholeSamples format kept)
    (hhalves : format.sampleFormat = .float → Halves mergeFloat kept) :
    Reception.pcm mergeFloat format
        (kept.map fun rr => ⟨ip, AudioInput.doubled mergeFloat format rr⟩)
      = loud mergeFloat format kept := by
  have heach : ∀ rr ∈ kept,
      AudioOutput.forDevice mergeFloat format (AudioInput.doubled mergeFloat format rr)
        = some (if format.sampleFormat = .float then rr
            else AudioInput.doubled mergeFloat format rr) := by
    intro rr hrr
    refine forDevice_doubled hmono (hlong rr hrr) (hwhole rr hrr) fun hfloat rr' hrr' => ?_
    rw [List.mem_singleton.mp hrr']
    exact hhalves hfloat rr hrr
  rw [Reception.pcm, List.filterMap_map, loud, ← hwhole.flatMap_doubled hmono]
  have hall : kept.filterMap
        (fun rr => AudioOutput.forDevice mergeFloat format
          (AudioInput.doubled mergeFloat format rr))
      = kept.map fun rr => if format.sampleFormat = .float then rr
          else AudioInput.doubled mergeFloat format rr := by
    rw [List.filterMap_congr heach, List.filterMap_eq_map']
  have hcomp : ((fun msg : RecvAudioMessage => AudioOutput.forDevice mergeFloat format msg.audio) ∘
        fun rr => ⟨ip, AudioInput.doubled mergeFloat format rr⟩)
      = fun rr => AudioOutput.forDevice mergeFloat format
          (AudioInput.doubled mergeFloat format rr) := rfl
  rw [hcomp, hall]
  split
  · rw [List.map_id']
  · rw [List.flatMap_def]

variable (mergeFloat) in
/-- Doubled samples are twice as long. -/
theorem length_doubled (hmono : Mono format) {pcm : Bytes}
    (h : format.bytesPerSample ∣ pcm.length) :
    (convertChannels mergeFloat pcm 1 2 format.bytesPerSample format.sampleFormat).length
      = 2 * pcm.length := by
  obtain ⟨n, hn⟩ := h
  rw [AudioFormat.bytesPerSample] at hn ⊢
  have htwice : ∀ sample ∈ blocks format.sampleFormat.bytesPerSample pcm,
      (sample ++ sample).length = 2 * format.sampleFormat.bytesPerSample := by
    intro sample hsample
    rw [List.length_append, length_of_mem_blocks hsample]
    omega
  have hpos : 0 < format.sampleFormat.bytesPerSample := hmono.known
  rw [convertChannels_double hpos, length_flatMap_blocks htwice, hn, Nat.mul_div_cancel_left n hpos,
    Nat.mul_comm n, Nat.mul_assoc]

/-- What the loudspeaker gets is what the microphone has captured when samples are floats, and
otherwise twice as much. -/
theorem loud_eq_iff (hmono : Mono format) {kept : List Bytes} (hwhole : WholeSamples format kept)
    (hlong : ∀ rr ∈ kept, format.bytesPerSample ≤ rr.length) :
    loud mergeFloat format kept = kept.flatten ↔ format.sampleFormat = .float ∨ kept = [] := by
  have hdouble := length_doubled mergeFloat hmono hwhole.aligned.2
  by_cases hfloat : format.sampleFormat = .float
  · simp [loud, hfloat]
  · rw [loud, if_neg hfloat]
    constructor
    · intro hsame
      rw [hsame] at hdouble
      have hnone : kept.flatten.length = 0 := by omega
      refine Or.inr (List.eq_nil_iff_forall_not_mem.mpr fun rr hrr => ?_)
      have hle := (List.sublist_flatten_of_mem hrr).length_le
      have hpos := hmono.known
      have hfirst := hlong rr hrr
      omega
    · rintro (hyes | rfl)
      · exact absurd hyes hfloat
      · exact List.length_eq_zero_iff.mp hdouble

/-! ### From the microphone to the loudspeaker -/

/-- What is enqueued are doubled blocks, without those that are too short for a sample. -/
theorem enqueued_mono (hmono : Mono format) {reads : List Bytes} {recvbuf : Int → Cell}
    (hfits : Audio.Fits (reads.map List.length)) {t : AudioInput}
    (hmic : Run.run (AudioInput.step mergeFloat format sessionWirePcmSpec)
      (AudioInput.collecting recvbuf) (AudioInput.readsOf reads) = some t) :
    t.enqueued.map (·.audio)
      = ((blocksOf reads).filter (format.bytesPerSample ≤ ·.length)).map
          (AudioInput.doubled mergeFloat format) := by
  have hsent := congrArg (List.map Prod.snd) (AudioInput.sentBlocks_collecting hfits hmic)
  rw [AudioInput.sentBlocks, List.map_map] at hsent
  refine Eq.trans hsent ?_
  induction blocksOf reads with
  | nil => rfl
  | cons rr bs ih =>
      rw [List.filterMap_cons, AudioInput.outgoing_mono hmono.channel hmono.known, List.filter_cons]
      by_cases hlen : format.bytesPerSample ≤ rr.length
      · rw [if_pos hlen, if_pos (by simpa using hlen), List.map_cons, List.map_cons, ih]
      · rw [if_neg hlen, if_neg (by simpa using hlen), ih]

/-- A stretch of what has been made of a list is made of a stretch of it. -/
theorem exists_stretch {α β : Type} {f : α → β} {l : List α} {out : List β}
    (h : out <:+: l.map f) : ∃ kept, kept <:+: l ∧ out = kept.map f := by
  obtain ⟨before, after, hsplit⟩ := h
  obtain ⟨front, back, rfl, hfront, -⟩ := List.map_eq_append_iff.mp hsplit.symm
  obtain ⟨first, kept, rfl, -, hkept⟩ := List.map_eq_append_iff.mp hfront
  exact ⟨kept, ⟨first, back, rfl⟩, hkept.symm⟩

variable (qt mergeFloat format) in
/-- `d`'s loudspeaker gets of `c`'s microphone what `c` has said while both were in one room. -/
structure Speech (localIp : UInt32) (s : State) (c d : ConnId) (msgs : List (Message Image))
    (reads : List Bytes) (r : Reception) (said : List (Message Image)) (kept : List Bytes) :
    Prop where
  stretch : said <:+: msgs
  together : said.map (asPacket qt localIp)
    = ((turns c s.history).filter (both c d)).map fun turn => some turn.1
  /-- The blocks of this stretch. -/
  captured : kept <:+: (blocksOf reads).filter (format.bytesPerSample ≤ ·.length)
  sounds : said.filterMap spoken = kept.map (AudioInput.doubled mergeFloat format)
  /-- They are heard, or wait, in full and in order. -/
  heard : r.output.played ++ r.output.buffer ++
      Reception.pcm mergeFloat format (r.hand.toList ++ r.queue) = loud mergeFloat format kept
  /-- They are heard as they were captured if samples are floats, or else not. -/
  same : loud mergeFloat format kept = kept.flatten ↔ format.sampleFormat = .float ∨ kept = []

/-- **What one member says the other hears**, through two conversions, two codecs and the server:
as it was captured if samples are floats, and with every sample twice if they are integers. -/
theorem speech (hqt : qt.Lossless) (hnothing : NothingToNothing qt)
    (hfew : cfg.maxParticipantsPerRoom ≤ 2 ^ 30) (hsteady : Steady env) (hmono : Mono format)
    {reads : List Bytes} {recvbuf : Int → Cell} (hfits : Audio.Fits (reads.map List.length))
    {t : AudioInput} (hmic : Run.run (AudioInput.step mergeFloat format sessionWirePcmSpec)
      (AudioInput.collecting recvbuf) (AudioInput.readsOf reads) = some t)
    (hwhole : WholeSamples format (blocksOf reads))
    (hhalves : format.sampleFormat = .float → Halves mergeFloat (blocksOf reads))
    {localIp : UInt32} {msgs : List (Message Image)}
    (hsounds : msgs.filterMap spoken = t.enqueued.map (·.audio))
    (hkinds : ∀ msg ∈ msgs, (meaning msg.kind).isSome = true)
    (hsize : ∀ msg ∈ msgs, (MessageCodec.wireBody qt msg).length < 2 ^ 32)
    {es : List Event} (hrun : Run.run (step cfg env) {} es = some s)
    (hchunks : (es.filterMap (Event.chunkFor c)).flatten <+: stream qt localIp msgs)
    (hne : d ≠ c) (hdistinct : ∀ r ∈ s.history, Distinct env c d r)
    {chunks : List Bytes} (hroom : MessageCodec.NoReset qt [] chunks)
    (hall : chunks.flatten = (s.conn d).outgoing.flatten)
    (honly : OnlySpeaker (env.address c) (MessageCodec.feedAll qt [] chunks).1)
    {events : List ReceptionEvent} {r : Reception}
    (hplay : Run.run (Reception.step mergeFloat format) {} events = some r)
    (harrive : Reception.arrivals events
      = (MessageCodec.feedAll qt [] chunks).1.filterMap played)
    (hquiet : Run.Steps (Reception.step mergeFloat format) (Reception.Undisturbed format) {}
      events) :
    ∃ said kept, Speech qt mergeFloat format localIp s c d msgs reads r said kept := by
  obtain ⟨said, hstretch, htogether, hmedia⟩ :=
    exists_said hqt hnothing hsteady hkinds hsize hrun hchunks hne hdistinct
  -- the sounds that are sent, as blocks of the microphone
  have hspoken := hstretch.filterMap spoken
  rw [hsounds, enqueued_mono hmono hfits hmic] at hspoken
  obtain ⟨kept, hkept, hsaid⟩ := exists_stretch hspoken
  have hlong : ∀ rr ∈ kept, format.bytesPerSample ≤ rr.length := fun rr hrr =>
    of_decide_eq_true (List.mem_filter.mp (hkept.subset hrr)).2
  have hblock : ∀ rr ∈ kept, rr ∈ blocksOf reads := fun rr hrr =>
    (List.mem_filter.mp (hkept.subset hrr)).1
  have hwhole' : WholeSamples format kept := fun rr hrr => hwhole rr (hblock rr hrr)
  have hhalves' : format.sampleFormat = .float → Halves mergeFloat kept := fun hfloat rr hrr =>
    hhalves hfloat rr (hblock rr hrr)
  -- the sounds that arrive
  obtain ⟨hshort, hqueue⟩ := outgoing_frames ⟨es, hrun⟩ hfew d
  rw [hqueue] at hall
  have hread : (MessageCodec.feedAll qt [] chunks).1.filter (mediaFrom (env.address c))
      = said.filterMap (perceived qt (env.address c)) := by
    rw [feedAll_encodeAll qt hshort hroom hall, ← mediaOf, hmedia]
  have hsome : (said.filterMap spoken).filter (· ≠ []) = said.filterMap spoken := by
    rw [List.filter_eq_self, hsaid]
    intro audio haudio
    obtain ⟨rr, hrr, rfl⟩ := List.mem_map.mp haudio
    have hlt := hlong rr hrr
    rw [decide_eq_true_iff, AudioInput.doubled, ne_eq, AudioFormat.bytesPerSample,
      AudioInput.convertChannels_eq_nil hmono.known]
    exact Nat.not_lt.mpr hlt
  have harrivals : Reception.arrivals events
      = kept.map fun rr => ⟨env.address c, AudioInput.doubled mergeFloat format rr⟩ := by
    rw [harrive, ← honly.played_media, hread, played_perceived, hsome, hsaid, List.map_map]
    rfl
  refine ⟨said, kept, hstretch, htogether, hkept, hsaid, ?_, loud_eq_iff hmono hwhole' hlong⟩
  rw [Reception.complete_of_undisturbed hplay hquiet, harrivals,
    pcm_doubled hmono _ hlong hwhole' hhalves']

/-! ### Twice every sample -/

/-- Three samples, each of them twice. -/
def doubledSound : Bytes := [1, 2, 1, 2, 3, 4, 3, 4, 5, 6, 5, 6]

/-- What `qCompress` makes of it. -/
def soundCompressed : Bytes :=
  [0, 0, 0, 12, 120, 156, 99, 100, 98, 100, 98, 102, 97, 102, 97, 101, 99, 101, 3, 0, 0, 218, 0, 43]

def soundBase64 : Bytes :=
  [65, 65, 65, 65, 68, 72, 105, 99, 89, 50, 82, 105, 90, 71, 74, 109, 89, 87, 90, 104, 90, 87, 78,
    108, 65, 119, 65, 65, 50, 103, 65, 114]

/-- Compression and base64 of one sound as they are; any other string is only marked. -/
def soundQt : Qt Unit where
  dataModel := .llp64
  qCompress data := if data = doubledSound then soundCompressed else 1 :: data
  qUncompress data := if data = soundCompressed then doubledSound else data.tail
  toBase64 data := if data = soundCompressed then soundBase64 else 1 :: data
  fromBase64 data := if data = soundBase64 then soundCompressed else data.tail
  save _ := none
  loadFromData _ := none

theorem soundQt_lossless : soundQt.Lossless where
  qUncompress_qCompress data := by
    by_cases hdata : data = doubledSound
    · simp [soundQt, hdata]
    · simp [soundQt, hdata, soundCompressed]
  fromBase64_toBase64 data := by
    by_cases hdata : data = soundCompressed
    · simp [soundQt, hdata]
    · simp [soundQt, hdata, soundBase64]

/-- What the client on connection 2 sends: it joins room 1 and says something. -/
def sampleSpeaker : List (Message Unit) := [.joinMeeting [49], .sendAudio doubledSound]

def sampleSpeakerEvents : List Event :=
  [.accept, .accept, .accept,
    .receive 1 (stream soundQt 0x0A000001 [.createMeeting]),
    .receive 3 (stream soundQt 0x0A000003 [.joinMeeting [49]]),
    .receive 2 ((stream soundQt 0x0A000002 sampleSpeaker).take 20),
    .receive 2 ((stream soundQt 0x0A000002 sampleSpeaker).drop 20)]

/-- The thread of connection 3 takes the sound, which does not make a chunk yet. -/
def sampleListener : List ReceptionEvent :=
  [.output (.startPlay false true), .arrive ⟨0x0A000002, doubledSound⟩ true, .take, .play 0]

/-- What the thread of connection 3 reads. -/
def sampleHeard : List Bytes := [((stateAfter sampleSpeakerEvents).conn 3).outgoing.flatten]

/-- What has been read is three samples, and what is going to be played six. -/
theorem speech_sampleSpeaker : ∃ r,
    Run.run (Reception.step (fun l _ => l) AudioInput.monoFormat) {} sampleListener = some r ∧
    r.output.buffer = doubledSound ∧
    ∃ said kept, Speech soundQt (fun l _ => l) AudioInput.monoFormat 0x0A000002
      (stateAfter sampleSpeakerEvents) 2 3 sampleSpeaker [[1, 2], [3, 4], [5, 6]] r said kept := by
  have hmono : Mono AudioInput.monoFormat := ⟨rfl, by decide⟩
  have hfits : Audio.Fits (([[1, 2], [3, 4], [5, 6]] : List Bytes).map List.length) :=
    ⟨by decide, Nat.zero_le _⟩
  obtain ⟨t, hmic, hsounds⟩ : ∃ t, Run.run
      (AudioInput.step (fun l _ => l) AudioInput.monoFormat sessionWirePcmSpec)
      (AudioInput.collecting fun _ => {}) (AudioInput.readsOf [[1, 2], [3, 4], [5, 6]]) = some t ∧
      sampleSpeaker.filterMap spoken = t.enqueued.map (·.audio) := ⟨_, rfl, by decide⟩
  have hwhole : WholeSamples AudioInput.monoFormat (blocksOf [[1, 2], [3, 4], [5, 6]]) := by
    intro rr hrr
    obtain rfl : rr = [1, 2, 3, 4, 5, 6] := by simpa [blocksOf] using hrr
    decide
  have hroom : MessageCodec.NoReset soundQt [] sampleHeard := by decide +kernel
  have honly : OnlySpeaker (sampleEnv.address 2) (MessageCodec.feedAll soundQt [] sampleHeard).1 :=
    by
      show ∀ sound ∈ _, _
      decide +kernel
  obtain ⟨r, hplay, hbuffer⟩ : ∃ r,
      Run.run (Reception.step (fun l _ => l) AudioInput.monoFormat) {} sampleListener = some r ∧
      r.output.buffer = doubledSound := ⟨_, rfl, by decide⟩
  have harrive : Reception.arrivals sampleListener
      = (MessageCodec.feedAll soundQt [] sampleHeard).1.filterMap played := by decide +kernel
  exact ⟨r, hplay, hbuffer, speech soundQt_lossless rfl (by simp) (fun _ _ _ => rfl) hmono hfits
    hmic hwhole (by simp [AudioInput.monoFormat]) hsounds (by decide) (by decide)
    (run_stateAfter (by decide +kernel)) (by decide) (by decide) (by decide +kernel) hroom
    (by simp [sampleHeard]) honly hplay harrive (by decide +kernel)⟩

end CloudMeeting.Link
