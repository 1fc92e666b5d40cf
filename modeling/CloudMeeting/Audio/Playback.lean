/-
Playing sound.

The thread of `AudioOutput` appends what it receives to a buffer and, when there is enough,
writes one chunk of an eighth of a second to the device; what the device accepts leaves the
buffer.  Nothing is lost on the way (`conserved`).

One chunk is written for each packet, though a packet may bring more than one: what is too
much stays, and is played later and later (`backlog_iff`).  And an eighth of a second need
not be a whole number of frames: 44100 does not divide by 8 (`framed_iff`).

Two things are remembered that the program does not know: the bytes the device has accepted,
and the chunks it has been given, with their places in the stream.
-/
import CloudMeeting.Audio.Format
import CloudMeeting.Lib.Run

namespace CloudMeeting.Audio

open Blocks Run

/-- The value of an `int`; what does not fit wraps around. -/
def asInt (v : Int) : Int := Int.bmod v (2 ^ 32)

namespace AudioFormat

/-- The bytes of an eighth of a second. -/
def eighth (f : AudioFormat) : Int :=
  let bytesPerSec := asInt (f.sampleRate * f.bytesPerFrame)
  (asInt (bytesPerSec * 125)).tdiv 1000

/-- The bytes of a chunk. -/
def frame125ms (f : AudioFormat) : Nat := (max (f.bytesPerFrame : Int) f.eighth).toNat

/-- A chunk is at least a frame, and nothing where frames are nothing. -/
theorem frame125ms_pos {f : AudioFormat} : 0 < f.frame125ms ↔ 0 < f.bytesPerFrame := by
  constructor
  · intro h
    by_contra hnot
    have hzero : f.bytesPerFrame = 0 := by omega
    have heighth : f.eighth = 0 := by
      rw [eighth, hzero, Int.natCast_zero, Int.mul_zero]
      rfl
    rw [frame125ms, heighth, hzero] at h
    exact absurd h (by decide)
  · intro h
    rw [frame125ms]
    omega

end AudioFormat

/-- A chunk that was passed to `write`, and where in the stream it begins. -/
structure Chunk where
  start : Nat
  data : Bytes
deriving DecidableEq, Repr

/-- The thread, and the device it plays to. -/
structure AudioOutput where
  /-- `m_pcmDataBuffer`. -/
  buffer : Bytes := []
  /-- `outputdevice` is not null. -/
  outputdevice : Bool := false
  canRun : Bool := true
  /-- The thread has not returned. -/
  running : Bool := true
  /-- What the device has accepted. -/
  played : Bytes := []
  chunks : List Chunk := []
deriving DecidableEq, Repr

inductive PlaybackEvent where
  /-- A packet is taken off the queue; `ret` is what `write` returns, should it be called. -/
  | packet (audio : Bytes) (ret : Int)
  /-- There is no packet to be had. -/
  | nothing
  /-- `startPlay`; the sink may be active already, and it may give a device. -/
  | startPlay (active opened : Bool)
  | stopPlay
  | stopImmediately

/-- The thread has begun, and `startPlay` has given it a device. -/
def playing : AudioOutput := { outputdevice := true }

/-- `QByteArray::right`. -/
def right (n : Int) (bs : Bytes) : Bytes := bs.drop (bs.length - n.toNat)

namespace AudioOutput

section Play

variable (mergeFloat : UInt32 → UInt32 → UInt32) (format : AudioFormat)

/-- A packet with the channels of the device, where the samples are the same. -/
def forDevice (pcm : Bytes) : Option Bytes :=
  let wireSpec := sessionWirePcmSpec
  let sameLayout := wireSpec.sampleFormat = format.sampleFormat ∧
    wireSpec.sampleFormat.bytesPerSample = format.bytesPerSample
  if sameLayout ∧ wireSpec.channelCount ≠ format.channelCount then
    let forSink := convertChannels mergeFloat pcm wireSpec.channelCount format.channelCount
      format.bytesPerSample wireSpec.sampleFormat
    if forSink ≠ [] then some forSink else none
  else some pcm

/-- A chunk is written when there is enough for one. -/
def play (s : AudioOutput) (ret : Int) : AudioOutput :=
  if format.frame125ms ≤ s.buffer.length then
    let chunk := s.buffer.take format.frame125ms
    let s : AudioOutput := { s with chunks := s.chunks ++ [⟨s.played.length, chunk⟩] }
    if ret < 0 then { s with running := false }
    else
      { s with
        buffer := right (s.buffer.length - ret) s.buffer
        played := s.played ++ chunk.take ret.toNat }
  else s

def process (s : AudioOutput) (audio : Bytes) (ret : Int) : AudioOutput :=
  if s.outputdevice then
    match forDevice mergeFloat format audio with
    | some pcm => play format { s with buffer := s.buffer ++ pcm } ret
    | none => s
  else { s with buffer := [] }

/-- The thread comes around to the beginning of its loop. -/
def loop (s : AudioOutput) : AudioOutput :=
  if s.running ∧ ¬ s.canRun then { s with outputdevice := false, running := false } else s

def step (s : AudioOutput) : PlaybackEvent → Option AudioOutput
  | .packet audio ret =>
      if s.running then some (s.process mergeFloat format audio ret).loop else none
  | .nothing => if s.running then some s.loop else none
  | .startPlay active opened => some (if active then s else { s with outputdevice := opened })
  | .stopPlay => some { s with outputdevice := false }
  | .stopImmediately => some { s with canRun := false }

/-! ### What a packet does -/

variable {mergeFloat format} {s : AudioOutput}

theorem play_wait {ret : Int} (h : ¬ format.frame125ms ≤ s.buffer.length) :
    s.play format ret = s := by
  rw [play, if_neg h]

/-- What the device accepts leaves the buffer. -/
theorem play_write {ret : Int} (h : format.frame125ms ≤ s.buffer.length) (hnonneg : 0 ≤ ret)
    (hle : ret ≤ format.frame125ms) : s.play format ret
      = { s with buffer := s.buffer.drop ret.toNat
                 played := s.played ++ s.buffer.take ret.toNat
                 chunks := s.chunks ++ [⟨s.played.length, s.buffer.take format.frame125ms⟩] } := by
  have hright : right (s.buffer.length - ret) s.buffer = s.buffer.drop ret.toNat := by
    rw [right]
    congr 1
    omega
  have htake : (s.buffer.take format.frame125ms).take ret.toNat = s.buffer.take ret.toNat := by
    rw [List.take_take, Nat.min_eq_left (by omega)]
  rw [play, if_pos h]
  simp only []
  rw [if_neg (by omega), hright, htake]

/-- Going around changes nothing but whether the thread runs. -/
theorem loop_cases (s : AudioOutput) : s.loop = s ∨
    s.loop = { s with outputdevice := false, running := false } := by
  rw [loop]
  split
  · exact Or.inr rfl
  · exact Or.inl rfl

/-! ### Nothing is lost -/

/-- The device is there, and accepts what a device can accept. -/
def Accepts (format : AudioFormat) (s : AudioOutput) : PlaybackEvent → Prop
  | .packet _ ret => s.outputdevice = true ∧ 0 ≤ ret ∧ ret ≤ format.frame125ms
  | _ => s.outputdevice = true

variable (mergeFloat format) in
/-- What an event brings for the device. -/
def pcmOf : PlaybackEvent → Option Bytes
  | .packet audio _ => forDevice mergeFloat format audio
  | _ => none

/-- What has been accepted and what waits. -/
def stream (s : AudioOutput) : Bytes := s.played ++ s.buffer

theorem stream_play {ret : Int} (hnonneg : 0 ≤ ret) (hle : ret ≤ format.frame125ms) :
    (s.play format ret).stream = s.stream := by
  by_cases h : format.frame125ms ≤ s.buffer.length
  · rw [play_write h hnonneg hle, stream, stream, List.append_assoc, List.take_append_drop]
  · rw [play_wait h]

theorem stream_loop (s : AudioOutput) : s.loop.stream = s.stream := by
  rcases loop_cases s with heq | heq
  · rw [heq]
  · rw [heq]
    rfl

theorem stream_step {e : PlaybackEvent} (h : s.Accepts format e) {s' : AudioOutput}
    (hstep : s.step mergeFloat format e = some s') :
    s'.stream = s.stream ++ (pcmOf mergeFloat format e).getD [] := by
  cases e with
  | packet audio ret =>
      obtain ⟨hdevice, hnonneg, hle⟩ := h
      simp only [step, Option.ite_none_right_eq_some, Option.some.injEq] at hstep
      obtain ⟨-, rfl⟩ := hstep
      rw [stream_loop, process, if_pos hdevice, pcmOf]
      cases forDevice mergeFloat format audio with
      | none => exact (List.append_nil _).symm
      | some pcm =>
          show (play format { s with buffer := s.buffer ++ pcm } ret).stream = _
          rw [stream_play hnonneg hle]
          exact (List.append_assoc ..).symm
  | nothing =>
      simp only [step, Option.ite_none_right_eq_some, Option.some.injEq] at hstep
      obtain ⟨-, rfl⟩ := hstep
      rw [stream_loop]
      exact (List.append_nil _).symm
  | startPlay active opened =>
      simp only [step, Option.some.injEq] at hstep
      rw [← hstep]
      split <;> exact (List.append_nil _).symm
  | stopPlay =>
      simp only [step, Option.some.injEq] at hstep
      rw [← hstep]
      exact (List.append_nil _).symm
  | stopImmediately =>
      simp only [step, Option.some.injEq] at hstep
      rw [← hstep]
      exact (List.append_nil _).symm

variable (mergeFloat format) in
/-- **The stream is conserved**: what the device has accepted, and after it what waits in the
buffer, is what was there and what the packets brought, in their order. -/
theorem conserved {es : List PlaybackEvent} {t : AudioOutput}
    (haccepts : Steps (step mergeFloat format) (Accepts format) s es)
    (hrun : run (step mergeFloat format) s es = some t) :
    t.played ++ t.buffer
      = s.played ++ s.buffer ++ (es.filterMap (pcmOf mergeFloat format)).flatten := by
  induction es generalizing s with
  | nil =>
      rw [run_nil, Option.some.injEq] at hrun
      rw [hrun]
      exact (List.append_nil _).symm
  | cons e es ih =>
      obtain ⟨s', hstep, hrest⟩ := run_cons_some hrun
      have hfirst : s'.played ++ s'.buffer = s.played ++ s.buffer ++ _ :=
        stream_step haccepts.1 hstep
      rw [ih (haccepts.2 s' hstep) hrest, hfirst, List.append_assoc, List.filterMap_cons]
      cases pcmOf mergeFloat format e <;> rfl

instance : ∀ (s : AudioOutput) (e : PlaybackEvent), Decidable (Accepts format s e)
  | _, .packet .. => inferInstanceAs (Decidable (_ ∧ _ ∧ _))
  | _, .nothing => inferInstanceAs (Decidable (_ = _))
  | _, .startPlay .. => inferInstanceAs (Decidable (_ = _))
  | _, .stopPlay => inferInstanceAs (Decidable (_ = _))
  | _, .stopImmediately => inferInstanceAs (Decidable (_ = _))

/-- Sixteen bytes a second, two in a chunk. -/
def slowFormat : AudioFormat := { sampleRate := 16, channelCount := 1, sampleFormat := .uInt8 }

/-- A device that takes a part of a chunk, then nothing, then a whole one. -/
def samplePackets : List PlaybackEvent :=
  [.packet [1, 2, 3] 1, .nothing, .packet [4] 0, .startPlay true true, .packet [5, 6] 2]

theorem conserved_samplePackets :
    ∃ t, run (step (fun l _ => l) slowFormat) playing samplePackets = some t ∧
      t.played = [1, 2, 3] ∧ t.played ++ t.buffer = [1, 2, 3, 4, 5, 6] :=
  have haccepts : Steps (step (fun l _ => l) slowFormat) (Accepts slowFormat) playing
    samplePackets := by decide
  ⟨_, rfl, rfl, conserved (fun l _ => l) slowFormat haccepts rfl⟩

/-! ### A device that accepts everything -/

variable (mergeFloat format) in
/-- A packet, and a device that accepts a chunk in full. -/
def stepFull (s : AudioOutput) (audio : Bytes) : Option AudioOutput :=
  s.step mergeFloat format (.packet audio format.frame125ms)

/-- The thread runs, and has a device. -/
structure Ready (s : AudioOutput) : Prop where
  running : s.running = true
  canRun : s.canRun = true
  device : s.outputdevice = true

theorem ready_playing : Ready playing := ⟨rfl, rfl, rfl⟩

/-- The buffer is too short for a chunk. -/
def waiting (s : AudioOutput) (pcm : Bytes) : AudioOutput := { s with buffer := s.buffer ++ pcm }

/-- A chunk of `n` bytes has been written, and accepted. -/
def written (s : AudioOutput) (n : Nat) (pcm : Bytes) : AudioOutput :=
  { s with
    buffer := (s.buffer ++ pcm).drop n
    played := s.played ++ (s.buffer ++ pcm).take n
    chunks := s.chunks ++ [⟨s.played.length, (s.buffer ++ pcm).take n⟩] }

theorem exists_mem_written {n : Nat} {pcm : Bytes} (h : n ≤ (s.buffer ++ pcm).length) :
    ∃ c ∈ (s.written n pcm).chunks, c.data.length = n :=
  ⟨_, List.mem_append_right _ (List.mem_singleton.mpr rfl), List.length_take_of_le h⟩

theorem Ready.waiting (h : s.Ready) (pcm : Bytes) : (s.waiting pcm).Ready :=
  ⟨h.running, h.canRun, h.device⟩

theorem Ready.written (h : s.Ready) (n : Nat) (pcm : Bytes) : (s.written n pcm).Ready :=
  ⟨h.running, h.canRun, h.device⟩

variable (mergeFloat format) in
/-- What a packet can do: nothing, or add to the buffer, or fill a chunk. -/
def Outcome (s : AudioOutput) (audio : Bytes) (s' : AudioOutput) : Prop :=
  forDevice mergeFloat format audio = none ∧ s' = s ∨
    ∃ pcm, forDevice mergeFloat format audio = some pcm ∧
      (s.buffer.length + pcm.length < format.frame125ms ∧ s' = s.waiting pcm ∨
        format.frame125ms ≤ s.buffer.length + pcm.length ∧
          s' = s.written format.frame125ms pcm)

variable (mergeFloat format) in
theorem exists_stepFull (hready : s.Ready) (audio : Bytes) :
    ∃ s', stepFull mergeFloat format s audio = some s' ∧ s'.Ready ∧
      Outcome mergeFloat format s audio s' := by
  have hstays : ∀ s' : AudioOutput, s'.Ready → s'.loop = s' := by
    intro s' hready'
    rw [loop, if_neg]
    rintro ⟨-, hstop⟩
    exact hstop hready'.canRun
  rw [stepFull, step, if_pos hready.running, process, if_pos hready.device]
  cases hpcm : forDevice mergeFloat format audio with
  | none =>
      refine ⟨s, ?_, hready, Or.inl ⟨hpcm, rfl⟩⟩
      show some s.loop = some s
      rw [hstays s hready]
  | some pcm =>
      have hlength : (s.waiting pcm).buffer.length = s.buffer.length + pcm.length :=
        List.length_append
      by_cases hfull : format.frame125ms ≤ s.buffer.length + pcm.length
      · have hplay : (s.waiting pcm).play format format.frame125ms
            = s.written format.frame125ms pcm := by
          rw [play_write (hlength ▸ hfull) (Int.natCast_nonneg _) (Int.le_refl _),
            Int.toNat_natCast]
          rfl
        have hready' := hready.written format.frame125ms pcm
        refine ⟨_, ?_, hready', Or.inr ⟨pcm, hpcm, Or.inr ⟨hfull, rfl⟩⟩⟩
        show some ((s.waiting pcm).play format format.frame125ms).loop = _
        rw [hplay, hstays _ hready']
      · have hplay : (s.waiting pcm).play format format.frame125ms = s.waiting pcm :=
          play_wait (by omega)
        have hready' := hready.waiting pcm
        refine ⟨_, ?_, hready', Or.inr ⟨pcm, hpcm, Or.inl ⟨by omega, rfl⟩⟩⟩
        show some ((s.waiting pcm).play format format.frame125ms).loop = _
        rw [hplay, hstays _ hready']

theorem stepFull_cases (hready : s.Ready) {audio : Bytes} {s' : AudioOutput}
    (hstep : stepFull mergeFloat format s audio = some s') :
    s'.Ready ∧ Outcome mergeFloat format s audio s' := by
  obtain ⟨s₁, hstep₁, hcases⟩ := exists_stepFull mergeFloat format hready audio
  rw [hstep₁, Option.some.injEq] at hstep
  exact hstep ▸ hcases

/-! ### What waits -/

variable (mergeFloat format) in
/-- The sizes in which the sound of some packets comes to the device. -/
def sizes (packets : List Bytes) : List Nat :=
  (packets.filterMap (forDevice mergeFloat format)).map List.length

/-- With each size at most one more chunk of `n` bytes is complete, after `total` bytes. -/
def OneByOne (n : Nat) : Nat → List Nat → Prop
  | _, [] => True
  | total, size :: sizes =>
      (total + size) / n ≤ total / n + 1 ∧ OneByOne n (total + size) sizes

/-- Sizes no larger than a chunk complete at most one each. -/
theorem oneByOne_of_le {n : Nat} (hn : 0 < n) {sizes : List Nat} (h : ∀ size ∈ sizes, size ≤ n)
    (total : Nat) : OneByOne n total sizes := by
  induction sizes generalizing total with
  | nil => exact trivial
  | cons size sizes ih =>
      refine ⟨?_, ih (fun size' hsize' => h size' (List.mem_cons_of_mem size hsize')) _⟩
      rw [← Nat.add_div_right total hn]
      exact Nat.div_le_div_right (Nat.add_le_add_left (h size List.mem_cons_self) total)

/-- At most one more chunk, in terms of what is left over. -/
theorem div_le_succ_iff {n : Nat} (hn : 0 < n) (total size : Nat) :
    (total + size) / n ≤ total / n + 1 ↔ total % n + size < 2 * n := by
  rw [← Nat.lt_succ_iff, Nat.div_lt_iff_lt_mul hn]
  have hsplit := Nat.div_add_mod total n
  have hnext : (total / n + 1).succ * n = n * (total / n) + 2 * n := by
    rw [Nat.succ_eq_add_one, Nat.add_assoc, Nat.add_mul, Nat.mul_comm]
  rw [hnext]
  omega

theorem add_mod_of_lt {n total size : Nat} (h : total % n + size < n) :
    (total + size) % n = total % n + size := by
  have hsmall : size < n := by omega
  rw [Nat.add_mod, Nat.mod_eq_of_lt hsmall, Nat.mod_eq_of_lt h]

theorem add_mod_of_le {n total size : Nat} (hn : 0 < n) (hle : n ≤ total % n + size)
    (hlt : total % n + size < 2 * n) : (total + size) % n = total % n + size - n := by
  have hpart := Nat.mod_lt total hn
  rw [← Nat.mod_add_mod, Nat.mod_eq_sub_mod hle, Nat.mod_eq_of_lt (by omega)]

variable (format) in
/-- Less than a chunk waits. -/
def Short (s : AudioOutput) : Prop := s.buffer.length < format.frame125ms

theorem short_of_mod (hn : 0 < format.frame125ms) {total : Nat}
    (hrest : s.buffer.length = total % format.frame125ms) : s.Short format := by
  rw [Short, hrest]
  exact Nat.mod_lt total hn

/-- What waits is what the chunks so far left over. -/
theorem short_iff (hn : 0 < format.frame125ms) {packets : List Bytes} (hready : s.Ready)
    {total : Nat} (hrest : s.buffer.length = total % format.frame125ms) :
    Throughout (stepFull mergeFloat format) (Short format) s packets
      ↔ OneByOne format.frame125ms total (sizes mergeFloat format packets) := by
  induction packets generalizing s total with
  | nil => exact ⟨fun _ => trivial, fun _ => short_of_mod hn hrest⟩
  | cons audio packets ih =>
      obtain ⟨s', hstep, hready', hcases⟩ := exists_stepFull mergeFloat format hready audio
      rw [throughout_cons_some (short_of_mod hn hrest) hstep, sizes]
      rcases hcases with ⟨hnone, rfl⟩ | ⟨pcm, hpcm, hbuffer⟩
      · rw [List.filterMap_cons_none hnone]
        exact ih hready' hrest
      · rw [List.filterMap_cons_some hpcm, List.map_cons, OneByOne, div_le_succ_iff hn, ← hrest]
        rcases hbuffer with ⟨hlt, rfl⟩ | ⟨hle, rfl⟩
        · have hlength : (s.waiting pcm).buffer.length = s.buffer.length + pcm.length :=
            List.length_append
          have hrest' : (s.waiting pcm).buffer.length
              = (total + pcm.length) % format.frame125ms := by
            rw [hlength, add_mod_of_lt (hrest ▸ hlt), hrest]
          have hlater := ih hready' hrest'
          exact ⟨fun hwaits => ⟨by omega, hlater.mp hwaits⟩, fun hone => hlater.mpr hone.2⟩
        · have hlength : (s.written format.frame125ms pcm).buffer.length
              = s.buffer.length + pcm.length - format.frame125ms := by
            rw [written, List.length_drop, List.length_append]
          by_cases hmore : s.buffer.length + pcm.length < 2 * format.frame125ms
          · have hrest' : (s.written format.frame125ms pcm).buffer.length
                = (total + pcm.length) % format.frame125ms := by
              rw [hlength, add_mod_of_le hn (hrest ▸ hle) (hrest ▸ hmore), hrest]
            have hlater := ih hready' hrest'
            exact ⟨fun hwaits => ⟨hmore, hlater.mp hwaits⟩, fun hone => hlater.mpr hone.2⟩
          · -- a whole chunk is left in the buffer
            constructor
            · intro hwaits
              have hhead : (s.written format.frame125ms pcm).Short format := hwaits.head
              rw [Short] at hhead
              omega
            · rintro ⟨hlt, -⟩
              exact absurd hlt hmore

variable (mergeFloat format) in
/-- **Less than a chunk waits after every packet if and only if** frames have bytes and no packet
completes more than one chunk of all that has come. -/
theorem backlog_iff (packets : List Bytes) :
    Throughout (stepFull mergeFloat format) (Short format) playing packets
      ↔ 0 < format.bytesPerFrame ∧
        OneByOne format.frame125ms 0 (sizes mergeFloat format packets) := by
  rw [← AudioFormat.frame125ms_pos]
  constructor
  · intro hwaits
    have hn : 0 < format.frame125ms := hwaits.head
    exact ⟨hn, (short_iff hn ready_playing (Nat.zero_mod _).symm).mp hwaits⟩
  · rintro ⟨hn, hone⟩
    exact (short_iff hn ready_playing (Nat.zero_mod _).symm).mpr hone

variable (mergeFloat format) in
/-- What is not converted comes as it is. -/
theorem forDevice_same (h : ¬ (format.sampleFormat = .float ∧ format.channelCount ≠ 2))
    (pcm : Bytes) : forDevice mergeFloat format pcm = some pcm := by
  rw [forDevice]
  simp only []
  rw [if_neg]
  rintro ⟨⟨hfloat, -⟩, hchannels⟩
  exact h ⟨hfloat.symm, fun htwo => hchannels htwo.symm⟩

/-- Speech at 8000 samples a second. -/
def narrowband : AudioFormat := { sampleRate := 8000, channelCount := 1, sampleFormat := .int16 }

/-- Two chunks in one packet; one of them waits. -/
theorem twoChunks : ¬ Throughout (stepFull (fun l _ => l) narrowband) (Short narrowband) playing
    [List.replicate 4000 0] := by
  have hchunk : narrowband.frame125ms = 2000 := by decide
  have hsizes : sizes (fun l _ => l) narrowband [List.replicate 4000 0] = [4000] := by
    rw [sizes, List.filterMap_cons_some (forDevice_same _ _ (fun hfloat => by cases hfloat.1) _)]
    exact congrArg (fun n => [n]) List.length_replicate
  intro hwaits
  have hone := (short_iff (hchunk ▸ by decide) ready_playing (Nat.zero_mod _).symm).mp hwaits
  rw [hchunk, hsizes] at hone
  exact absurd hone.1 (by decide)

end Play

end AudioOutput

/-! ### Whole frames -/

namespace AudioFormat

/-- A device for floats whose channels cannot be aligned. -/
def Mute (f : AudioFormat) : Prop :=
  f.sampleFormat = .float ∧ f.channelCount ≠ 1 ∧ f.channelCount ≠ 2

/-- An eighth of a second, which is `v / 1000` bytes, is a whole number of frames or no more than
one. -/
def EvenChunks (f : AudioFormat) : Prop :=
  let v := asInt (f.sampleRate * f.bytesPerFrame * 125)
  v < 1000 * (f.bytesPerFrame + 1) ∨ v % (1000 * f.bytesPerFrame) < 1000

variable {f : AudioFormat}

theorem dvd_frame125ms_iff : f.bytesPerFrame ∣ f.frame125ms ↔ f.EvenChunks := by
  have heighth : f.eighth = (asInt (f.sampleRate * f.bytesPerFrame * 125)).tdiv 1000 := by
    rw [eighth, asInt, asInt, asInt]
    rw [Int.bmod_mul_bmod]
  rw [EvenChunks, frame125ms, heighth]
  generalize asInt (f.sampleRate * f.bytesPerFrame * 125) = v
  generalize f.bytesPerFrame = b
  by_cases hsmall : v < 1000 * (b + 1)
  · have hmax : max (b : Int) (v.tdiv 1000) = b := by
      have hsign : Int.sign 1000 = 1 := rfl
      rw [Int.tdiv_eq_ediv, hsign]
      split <;> omega
    rw [hmax]
    exact ⟨fun _ => Or.inl hsmall, fun _ => Nat.dvd_refl b⟩
  · obtain ⟨n, rfl⟩ : ∃ n : Nat, v = n := Int.eq_ofNat_of_zero_le (by omega)
    have hmax : max (b : Int) ((n : Int).tdiv 1000) = ((n / 1000 : Nat) : Int) := by
      rw [Int.tdiv_eq_ediv_of_nonneg (by omega)]
      omega
    have hsplit : n % (1000 * b) = n % 1000 + 1000 * (n / 1000 % b) := Nat.mod_mul
    rw [hmax, Int.toNat_natCast, Nat.dvd_iff_mod_eq_zero]
    have hcast : (n : Int) % (1000 * b) = ((n % (1000 * b) : Nat) : Int) := by
      simp only [Int.natCast_emod, Int.natCast_mul, Int.cast_ofNat_Int]
    rw [hcast]
    omega

/-- Without overflow: a second has about eight frames or less, or those beyond a multiple of eight
make up less than eight bytes. -/
theorem evenChunks_iff (hfits : f.sampleRate * f.bytesPerFrame * 125 < 2 ^ 31) :
    f.EvenChunks ↔ f.sampleRate * f.bytesPerFrame < 8 * (f.bytesPerFrame + 1) ∨
      f.sampleRate % 8 * f.bytesPerFrame < 8 := by
  have hvalue : asInt (f.sampleRate * f.bytesPerFrame * 125)
      = ((f.sampleRate * f.bytesPerFrame * 125 : Nat) : Int) := by
    rw [asInt, Int.bmod_eq_of_le_mul_two (by omega) (by omega)]
    norm_cast
  have hpart : f.sampleRate * f.bytesPerFrame * 125 % (1000 * f.bytesPerFrame)
      = 125 * (f.sampleRate % 8 * f.bytesPerFrame) := by
    have height : 1000 * f.bytesPerFrame = 125 * (8 * f.bytesPerFrame) := by omega
    rw [height, Nat.mul_comm _ 125, Nat.mul_mod_mul_left, Nat.mul_mod_mul_right]
  rw [EvenChunks, hvalue]
  have hcast : ((f.sampleRate * f.bytesPerFrame * 125 : Nat) : Int) % (1000 * f.bytesPerFrame)
      = ((125 * (f.sampleRate % 8 * f.bytesPerFrame) : Nat) : Int) := by
    rw [← hpart]
    simp only [Int.natCast_emod, Int.natCast_mul, Int.cast_ofNat_Int]
  rw [hcast]
  omega

end AudioFormat

namespace AudioOutput

section Frames

variable {mergeFloat : UInt32 → UInt32 → UInt32} {format : AudioFormat} {s : AudioOutput}

/-- Where the channels cannot be aligned, nothing is played. -/
theorem forDevice_mute (h : format.Mute) (pcm : Bytes) :
    forDevice mergeFloat format pcm = none := by
  obtain ⟨hfloat, hone, htwo⟩ := h
  have hsize : format.bytesPerSample = 4 := by
    rw [AudioFormat.bytesPerSample, hfloat]
    rfl
  have hnothing : convertChannels mergeFloat pcm 2 format.channelCount 4 .float = [] := by
    rw [convertChannels, if_pos]
    apply Or.inr
    simp [channelsSupported, hone, htwo]
  rw [forDevice, hsize, hfloat]
  simp only []
  rw [if_pos ⟨⟨rfl, rfl⟩, fun h => htwo h.symm⟩]
  show (if convertChannels mergeFloat pcm 2 format.channelCount 4 .float ≠ [] then _ else _) = _
  rw [hnothing, if_neg (fun hne => hne rfl)]

variable (mergeFloat) in
/-- To mono come four bytes for eight. -/
theorem forDevice_mono (hfloat : format.sampleFormat = .float) (hmono : format.channelCount = 1)
    {pcm : Bytes} (hpcm : 8 ≤ pcm.length) : ∃ out,
      forDevice mergeFloat format pcm = some out ∧ out.length = pcm.length / 8 * 4 := by
  have hsize : format.bytesPerSample = 4 := by
    rw [AudioFormat.bytesPerSample, hfloat]
    rfl
  have hlength : (convertChannels mergeFloat pcm 2 1 4 .float).length = pcm.length / 8 * 4 :=
    length_convertChannels_merge (f := .float) (by decide) pcm
  refine ⟨_, ?_, hlength⟩
  rw [forDevice, hsize, hfloat, hmono]
  simp only []
  rw [if_pos ⟨⟨rfl, rfl⟩, by decide⟩]
  apply if_pos
  intro hnothing
  have hzero : (convertChannels mergeFloat pcm 2 1 4 .float).length = 0 :=
    congrArg List.length hnothing
  omega

variable (mergeFloat) in
/-- Any number of frames can come, unless nothing does. -/
theorem exists_forDevice (hmute : ¬ format.Mute) (n : Nat) (hpos : 0 < n * format.bytesPerFrame) :
    ∃ audio pcm, forDevice mergeFloat format audio = some pcm ∧
      pcm.length = n * format.bytesPerFrame := by
  by_cases hsame : format.sampleFormat = .float ∧ format.channelCount ≠ 2
  · obtain ⟨hfloat, htwo⟩ := hsame
    have hmono : format.channelCount = 1 := by
      by_contra hone
      exact hmute ⟨hfloat, hone, htwo⟩
    have hframe : format.bytesPerFrame = 4 := by
      rw [AudioFormat.bytesPerFrame, AudioFormat.bytesPerSample, hfloat, hmono]
      rfl
    have hbytes : (List.replicate (n * 8) (0 : UInt8)).length = n * 8 := List.length_replicate
    have hle : 8 ≤ (List.replicate (n * 8) (0 : UInt8)).length := by
      rw [hframe] at hpos
      omega
    obtain ⟨out, hout, hlength⟩ := forDevice_mono mergeFloat hfloat hmono hle
    refine ⟨_, out, hout, ?_⟩
    rw [hlength, hbytes, Nat.mul_div_cancel _ (by decide), hframe]
  · have hpcm := forDevice_same mergeFloat format hsame
    exact ⟨_, _, hpcm (List.replicate (n * format.bytesPerFrame) 0), List.length_replicate⟩

variable (mergeFloat format) in
/-- A packet brings whole frames. -/
def WholeFrames (audio : Bytes) : Prop :=
  ∀ pcm, forDevice mergeFloat format audio = some pcm → format.bytesPerFrame ∣ pcm.length

variable (format) in
/-- Every chunk is whole frames, and begins where a frame begins. -/
def Framed (s : AudioOutput) : Prop :=
  ∀ c ∈ s.chunks, format.bytesPerFrame ∣ c.start ∧ format.bytesPerFrame ∣ c.data.length

variable (format) in
/-- Whole frames have been played, and whole frames wait. -/
structure Even (s : AudioOutput) : Prop where
  ready : s.Ready
  buffer : format.bytesPerFrame ∣ s.buffer.length
  played : format.bytesPerFrame ∣ s.played.length
  framed : s.Framed format

/-- Chunks of whole frames leave whole frames. -/
theorem Even.stepFull (hchunk : format.bytesPerFrame ∣ format.frame125ms) (h : s.Even format)
    {audio : Bytes} (hwhole : WholeFrames mergeFloat format audio) {s' : AudioOutput}
    (hstep : s.stepFull mergeFloat format audio = some s') : s'.Even format := by
  obtain ⟨hready, hcases⟩ := stepFull_cases h.ready hstep
  rcases hcases with ⟨-, rfl⟩ | ⟨pcm, hpcm, hbuffer⟩
  · exact h
  · have hall : format.bytesPerFrame ∣ (s.buffer ++ pcm).length := by
      rw [List.length_append]
      exact Nat.dvd_add h.buffer (hwhole pcm hpcm)
    rcases hbuffer with ⟨-, rfl⟩ | ⟨hle, rfl⟩
    · exact ⟨hready, hall, h.played, h.framed⟩
    · rw [← List.length_append] at hle
      have htaken : ((s.buffer ++ pcm).take format.frame125ms).length = format.frame125ms :=
        List.length_take_of_le hle
      refine ⟨hready, ?_, ?_, ?_⟩
      · rw [written, List.length_drop]
        exact Nat.dvd_sub hall hchunk
      · rw [written, List.length_append, htaken]
        exact Nat.dvd_add h.played hchunk
      · intro c hc
        rcases List.mem_append.mp hc with hold | hnew
        · exact h.framed c hold
        · rw [List.mem_singleton.mp hnew, htaken]
          exact ⟨h.played, hchunk⟩

/-- A packet with enough for a chunk gives one. -/
theorem exists_chunk (hready : s.Ready) {audio pcm : Bytes}
    (hpcm : forDevice mergeFloat format audio = some pcm) (hle : format.frame125ms ≤ pcm.length) :
    ∃ t, run (stepFull mergeFloat format) s [audio] = some t ∧
      ∃ c ∈ t.chunks, c.data.length = format.frame125ms := by
  obtain ⟨t, hstep, -, hcases⟩ := exists_stepFull mergeFloat format hready audio
  have hrun : run (stepFull mergeFloat format) s [audio] = some t := by
    rw [run_cons, hstep]
    rfl
  refine ⟨t, hrun, ?_⟩
  rcases hcases with ⟨hnone, -⟩ | ⟨pcm', hpcm', hbuffer⟩
  · rw [hpcm] at hnone
    cases hnone
  · rw [hpcm, Option.some.injEq] at hpcm'
    subst hpcm'
    rcases hbuffer with ⟨hlt, -⟩ | ⟨hfull, rfl⟩
    · omega
    · rw [← List.length_append] at hfull
      exact exists_mem_written hfull

/-- A chunk that is not whole frames is written sooner or later. -/
theorem dvd_frame125ms_of_framed (hmute : ¬ format.Mute)
    (h : ∀ packets, (∀ audio ∈ packets, WholeFrames mergeFloat format audio) →
      ∀ t, run (stepFull mergeFloat format) playing packets = some t → t.Framed format) :
    format.bytesPerFrame ∣ format.frame125ms := by
  rcases Nat.eq_zero_or_pos format.bytesPerFrame with hzero | hframe
  · rw [AudioFormat.dvd_frame125ms_iff, AudioFormat.EvenChunks, hzero]
    apply Or.inl
    rw [Int.natCast_zero, Int.mul_zero, Int.zero_mul]
    decide
  · have hchunk := AudioFormat.frame125ms_pos.mpr hframe
    obtain ⟨audio, pcm, hpcm, hlength⟩ := exists_forDevice mergeFloat hmute
      format.frame125ms (Nat.mul_pos hchunk hframe)
    have hwhole : WholeFrames mergeFloat format audio := by
      intro pcm' hpcm'
      rw [hpcm, Option.some.injEq] at hpcm'
      rw [← hpcm', hlength]
      exact Nat.dvd_mul_left ..
    have hle : format.frame125ms ≤ pcm.length := by
      rw [hlength]
      exact Nat.le_mul_of_pos_right _ hframe
    obtain ⟨t, hrun, c, hc, hsize⟩ := exists_chunk ready_playing hpcm hle
    have hframed : t.Framed format := by
      refine h [audio] (fun audio' haudio' => ?_) t hrun
      rw [List.mem_singleton.mp haudio']
      exact hwhole
    rw [← hsize]
    exact (hframed c hc).2

variable (mergeFloat format) in
/-- **Whatever whole frames come, chunks are whole frames if and only if** an eighth of a second
is, or nothing is played at all. -/
theorem framed_iff :
    (∀ packets, (∀ audio ∈ packets, WholeFrames mergeFloat format audio) →
      ∀ t, run (stepFull mergeFloat format) playing packets = some t → t.Framed format)
      ↔ format.EvenChunks ∨ format.Mute := by
  constructor
  · intro h
    by_cases hmute : format.Mute
    · exact Or.inr hmute
    · exact Or.inl (AudioFormat.dvd_frame125ms_iff.mp (dvd_frame125ms_of_framed hmute h))
  · rintro (heven | hmute) packets hwhole t hrun
    · have hchunk := AudioFormat.dvd_frame125ms_iff.mpr heven
      have hinit : Even format playing := ⟨ready_playing, Nat.dvd_zero _, Nat.dvd_zero _, nofun⟩
      have hsteps : Steps (stepFull mergeFloat format)
          (fun _ audio => WholeFrames mergeFloat format audio) playing packets :=
        Steps.of_mem fun _ audio haudio => hwhole audio haudio
      have hall := throughout_of_step
        (fun _ _ _ hs haudio hstep => Even.stepFull hchunk hs haudio hstep) hinit hsteps
      exact (hall.last hrun).framed
    · -- no chunk is ever written
      have hsilent : t.chunks = [] ∧ t.Ready := by
        refine run_invariant (I := fun s => s.chunks = [] ∧ s.Ready) ?_ ⟨rfl, ready_playing⟩ hrun
        rintro s audio s' ⟨hnone, hready⟩ hstep
        obtain ⟨-, ⟨-, rfl⟩ | ⟨pcm, hpcm, -⟩⟩ := stepFull_cases hready hstep
        · exact ⟨hnone, hready⟩
        · rw [forDevice_mute hmute] at hpcm
          cases hpcm
      intro c hc
      rw [hsilent.1] at hc
      cases hc

/-- A device for sound as it is on a disc. -/
def discDevice : AudioDevice where
  isFormatSupported f := f = { sampleRate := 44100, channelCount := 2, sampleFormat := .int16 }
  preferredFormat := { sampleRate := 44100, channelCount := 2, sampleFormat := .int16 }

/-- 22050 bytes are half a frame more than a whole number. -/
theorem oddChunk :
    WholeFrames (fun l _ => l) (negotiatedPcmFormat discDevice discDevice)
        (List.replicate 22052 0) ∧
      ∃ t, run (stepFull (fun l _ => l) (negotiatedPcmFormat discDevice discDevice)) playing
          [List.replicate 22052 0] = some t ∧
        ¬ t.Framed (negotiatedPcmFormat discDevice discDevice) := by
  have hformat : negotiatedPcmFormat discDevice discDevice
      = { sampleRate := 44100, channelCount := 2, sampleFormat := .int16 } := by decide
  rw [hformat]
  have hsame := forDevice_same (fun l _ => l)
    { sampleRate := 44100, channelCount := 2, sampleFormat := .int16 }
    (fun hfloat => by cases hfloat.1) (List.replicate 22052 0)
  have hlength : (List.replicate 22052 (0 : UInt8)).length = 22052 := List.length_replicate
  constructor
  · intro pcm hpcm
    rw [hsame, Option.some.injEq] at hpcm
    rw [← hpcm, hlength]
    decide
  · have hle : AudioFormat.frame125ms
        { sampleRate := 44100, channelCount := 2, sampleFormat := .int16 }
          ≤ (List.replicate 22052 (0 : UInt8)).length := by
      rw [hlength]
      decide
    obtain ⟨t, hrun, c, hc, hsize⟩ := exists_chunk ready_playing hsame hle
    refine ⟨t, hrun, fun hframed => ?_⟩
    have hwhole := (hframed c hc).2
    rw [hsize] at hwhole
    exact absurd hwhole (by decide)

/-- What is written comes from its place in what has been played. -/
structure Placed (n : Nat) (s : AudioOutput) : Prop where
  fits : ∀ c ∈ s.chunks, c.start + n ≤ s.played.length
  data : ∀ c ∈ s.chunks, c.data = (s.played.drop c.start).take n

theorem take_drop_append {start n : Nat} {played : Bytes} (h : start + n ≤ played.length)
    (more : Bytes) : ((played ++ more).drop start).take n = (played.drop start).take n := by
  rw [List.drop_append_of_le_length (by omega),
    List.take_append_of_le_length (by rw [List.length_drop]; omega)]

theorem Placed.written {n : Nat} (h : s.Placed n) {pcm : Bytes}
    (hle : n ≤ (s.buffer ++ pcm).length) : (s.written n pcm).Placed n := by
  have htaken : ((s.buffer ++ pcm).take n).length = n := List.length_take_of_le hle
  constructor
  · intro c hc
    show c.start + n ≤ (s.played ++ (s.buffer ++ pcm).take n).length
    rw [List.length_append, htaken]
    rcases List.mem_append.mp hc with hold | hnew
    · have hfits := h.fits c hold
      omega
    · rw [List.mem_singleton.mp hnew]
  · intro c hc
    show c.data = ((s.played ++ (s.buffer ++ pcm).take n).drop c.start).take n
    rcases List.mem_append.mp hc with hold | hnew
    · rw [take_drop_append (h.fits c hold)]
      exact h.data c hold
    · rw [List.mem_singleton.mp hnew, List.drop_left, List.take_take, Nat.min_self]

/-- A chunk is what the stream holds where the chunk begins. -/
theorem chunk_place {packets : List Bytes} {t : AudioOutput}
    (hrun : run (stepFull mergeFloat format) playing packets = some t) {c : Chunk}
    (hc : c ∈ t.chunks) : c.data = (t.stream.drop c.start).take format.frame125ms := by
  have hplaced : t.Ready ∧ t.Placed format.frame125ms := by
    refine run_invariant (I := fun s => s.Ready ∧ s.Placed format.frame125ms) ?_
      ⟨ready_playing, nofun, nofun⟩ hrun
    rintro s audio s' ⟨hready, hplaced⟩ hstep
    obtain ⟨hready', hcases⟩ := stepFull_cases hready hstep
    refine ⟨hready', ?_⟩
    rcases hcases with ⟨-, rfl⟩ | ⟨pcm, -, ⟨-, rfl⟩ | ⟨hle, rfl⟩⟩
    · exact hplaced
    · exact ⟨hplaced.fits, hplaced.data⟩
    · exact hplaced.written (by rwa [List.length_append])
  rw [stream, take_drop_append (hplaced.2.fits c hc)]
  exact hplaced.2.data c hc

end Frames

end AudioOutput

end CloudMeeting.Audio
