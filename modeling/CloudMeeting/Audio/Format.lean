/-
Sample formats, and aligning the number of channels.

Sound travels as stereo; a device may have one channel.  `convertChannels` goes over the
frames of a string of samples and doubles each one, or merges its two.  A merge of integers
is taken in a type twice as wide and rounds toward zero, so it lies between the two
(`tdiv_two_between`) and never overflows (`readInt_mergeSigned`), and what is doubled is merged
back to what it was (`mergeStereoFrame_self`).

The host is little-endian.  A float is its four bytes, and the mean of two floats is a
parameter.  Sizes are natural numbers; the source's `int`s hold them for strings of less
than a gigabyte (`int_holds`), and nobody converts more than a few megabytes.
-/
import CloudMeeting.Lib.Blocks
import CloudMeeting.Lib.Endian

namespace CloudMeeting.Audio

open Blocks Endian

/-! ### Formats -/

/-- `QAudioFormat::SampleFormat`. -/
inductive SampleFormat where
  | unknown
  | uInt8
  | int16
  | int32
  | float
deriving DecidableEq, Repr

/-- `bytesPerSampleForFormat`, which asks a `QAudioFormat`. -/
def SampleFormat.bytesPerSample : SampleFormat → Nat
  | .unknown => 0
  | .uInt8 => 1
  | .int16 => 2
  | .int32 => 4
  | .float => 4

/-- `QAudioFormat`. -/
structure AudioFormat where
  sampleRate : Nat
  channelCount : Nat
  sampleFormat : SampleFormat
deriving DecidableEq, Repr

namespace AudioFormat

def bytesPerSample (f : AudioFormat) : Nat := f.sampleFormat.bytesPerSample

def bytesPerFrame (f : AudioFormat) : Nat := f.bytesPerSample * f.channelCount

end AudioFormat

/-- `AudioFormatStd::Spec`. -/
structure Spec where
  sampleRate : Nat := 48000
  channelCount : Nat := 2
  sampleFormat : SampleFormat := .int16
deriving DecidableEq, Repr

/-- What sound on the wire is like. -/
def sessionWirePcmSpec : Spec :=
  { sampleRate := 48000, channelCount := 2, sampleFormat := .float }

/-- `QAudioDevice`: which formats it supports, and which it prefers. -/
structure AudioDevice where
  isFormatSupported : AudioFormat → Bool
  preferredFormat : AudioFormat

/-- The rates and channel counts that are tried, in this order. -/
def candidates : List AudioFormat :=
  [(8000, 1), (16000, 1), (48000, 1), (48000, 2), (44100, 1), (44100, 2)].map fun c =>
    { sampleRate := c.1, channelCount := c.2, sampleFormat := .int16 }

/-- The format both devices are opened with. -/
def negotiatedPcmFormat (inDev outDev : AudioDevice) : AudioFormat :=
  match candidates.find? fun f => inDev.isFormatSupported f && outDev.isFormatSupported f with
  | some f => f
  | none =>
      if outDev.isFormatSupported inDev.preferredFormat then inDev.preferredFormat
      else if inDev.isFormatSupported outDev.preferredFormat then outDev.preferredFormat
      else inDev.preferredFormat

/-! ### Converting channels -/

/-- What `memcpy` puts into a signed integer of as many bytes. -/
def readInt (bs : Bytes) : Int := Int.bmod (leNat bs) (256 ^ bs.length)

/-- The bytes of a signed integer of `w` bytes. -/
def writeInt (w : Nat) (v : Int) : Bytes := leBytes w (v % ((256 ^ w : Nat) : Int)).toNat

/-- The mean of two unsigned samples; the sum is a `uint16_t`. -/
def mergeUInt8 (L R : Bytes) : Bytes :=
  let sum := (leNat L + leNat R) % 256 ^ 2
  leBytes 1 (sum / 2)

/-- The mean of two signed samples of `w` bytes; the sum has twice as many. -/
def mergeSigned (w : Nat) (L R : Bytes) : Bytes :=
  let sum := Int.bmod (readInt L + readInt R) (256 ^ (2 * w))
  writeInt w (Int.bmod (sum.tdiv 2) (256 ^ w))

section Convert

-- the bits of `0.5f * (l + r)`, from those of `l` and `r`
variable (mergeFloat : UInt32 → UInt32 → UInt32)

/-- The merged sample; `none` where the format is not known. -/
def mergeStereoFrame (L R : Bytes) : SampleFormat → Option Bytes
  | .uInt8 => some (mergeUInt8 L R)
  | .int16 => some (mergeSigned 2 L R)
  | .int32 => some (mergeSigned 4 L R)
  | .float => some (store32 (mergeFloat (load32 L) (load32 R)))
  | .unknown => none

def channelsSupported (ch : Nat) : Bool := ch = 1 ∨ ch = 2

def convertChannels (pcm : Bytes) (fromChannels toChannels bytesPerSample : Nat)
    (sampleFormat : SampleFormat) : Bytes :=
  if ¬ channelsSupported fromChannels ∨ ¬ channelsSupported toChannels then []
  else if bytesPerSample = 0 then []
  else
    let expectedBps := sampleFormat.bytesPerSample
    if expectedBps = 0 ∨ expectedBps ≠ bytesPerSample then []
    else if fromChannels = toChannels then pcm
    else
      let bytesPerFrameIn := fromChannels * bytesPerSample
      let nFrames := pcm.length / bytesPerFrameIn
      if nFrames = 0 then []
      else if fromChannels = 1 ∧ toChannels = 2 then
        (List.range nFrames).flatMap fun i =>
          let sample := (pcm.drop (i * bytesPerSample)).take bytesPerSample
          sample ++ sample
      else if fromChannels = 2 ∧ toChannels = 1 then
        (List.range nFrames).flatMap fun i =>
          let L := (pcm.drop (i * 2 * bytesPerSample)).take bytesPerSample
          let R := (pcm.drop (i * 2 * bytesPerSample + bytesPerSample)).take bytesPerSample
          (mergeStereoFrame mergeFloat L R sampleFormat).getD L
      else []

/-! ### Integers of a few bytes -/

theorem readInt_writeInt {w : Nat} {v : Int} (hlow : -((256 ^ w : Nat) : Int) ≤ v * 2)
    (hhigh : v * 2 < ((256 ^ w : Nat) : Int)) : readInt (writeInt w v) = v := by
  rw [readInt, writeInt, length_leBytes, leNat_leBytes]
  generalize hM : 256 ^ w = M at hlow hhigh ⊢
  have hpos : 0 < M := hM ▸ Nat.pow_pos (by decide)
  have hnonneg : 0 ≤ v % (M : Int) := Int.emod_nonneg v (by omega)
  have hlt : v % (M : Int) < M := Int.emod_lt_of_pos v (by omega)
  have hsmall : (v % (M : Int)).toNat % M = (v % (M : Int)).toNat :=
    Nat.mod_eq_of_lt (by omega)
  rw [hsmall, Int.toNat_of_nonneg hnonneg, Int.emod_bmod]
  exact Int.bmod_eq_of_le_mul_two hlow hhigh

theorem writeInt_readInt (bs : Bytes) : writeInt bs.length (readInt bs) = bs := by
  have hlt := leNat_lt bs
  have hsame : readInt bs % ((256 ^ bs.length : Nat) : Int) = leNat bs := by
    rw [readInt, Int.bmod_emod]
    exact Int.emod_eq_of_lt (by omega) (by exact_mod_cast hlt)
  rw [writeInt, hsame, Int.toNat_natCast, leBytes_leNat]

/-- A signed integer of some bytes is at most half as large as they could count. -/
theorem readInt_bounds {bs : Bytes} (hne : 0 < bs.length) :
    -((256 ^ bs.length : Nat) : Int) ≤ readInt bs * 2 ∧
      readInt bs * 2 < ((256 ^ bs.length : Nat) : Int) := by
  have hpos : 0 < 256 ^ bs.length := Nat.pow_pos (by decide)
  have heven : 2 ∣ 256 ^ bs.length := by
    rw [← Nat.sub_add_cancel hne, Nat.pow_succ]
    omega
  have hlow : -((256 ^ bs.length : Nat) / 2 : Int) ≤ readInt bs := Int.le_bmod hpos
  have hhigh : readInt bs < ((256 ^ bs.length : Nat) + 1 : Int) / 2 := Int.bmod_lt hpos
  omega

/-! ### Merging two samples -/

/-- Half a sum, rounded toward zero, lies between the two. -/
theorem tdiv_two_between (l r : Int) :
    min l r ≤ (l + r).tdiv 2 ∧ (l + r).tdiv 2 ≤ max l r := by
  have hsign : Int.sign 2 = 1 := rfl
  rw [Int.tdiv_eq_ediv, hsign]
  split <;> omega

/-- **Nothing overflows**: what is stored is the exact half of the exact sum. -/
theorem readInt_mergeSigned {w : Nat} (hw : 0 < w) {L R : Bytes} (hL : L.length = w)
    (hR : R.length = w) : readInt (mergeSigned w L R) = (readInt L + readInt R).tdiv 2 := by
  have hl := readInt_bounds (hL ▸ hw)
  have hr := readInt_bounds (hR ▸ hw)
  have hmean := tdiv_two_between (readInt L) (readInt R)
  have hbig : 256 ≤ 256 ^ w := by
    calc 256 = 256 ^ 1 := rfl
      _ ≤ 256 ^ w := Nat.pow_le_pow_right (by decide) hw
  have hdouble : 2 * 256 ^ w ≤ 256 ^ (2 * w) := by
    rw [Nat.two_mul w, Nat.pow_add]
    exact Nat.mul_le_mul_right _ (by omega)
  rw [hL] at hl
  rw [hR] at hr
  have hsum : Int.bmod (readInt L + readInt R) (256 ^ (2 * w)) = readInt L + readInt R :=
    Int.bmod_eq_of_le_mul_two (by omega) (by omega)
  have hhalf : Int.bmod ((readInt L + readInt R).tdiv 2) (256 ^ w)
      = (readInt L + readInt R).tdiv 2 :=
    Int.bmod_eq_of_le_mul_two (by omega) (by omega)
  rw [mergeSigned]
  simp only [hsum, hhalf]
  exact readInt_writeInt (by omega) (by omega)

theorem leNat_mergeUInt8 {L R : Bytes} (hL : L.length = 1) (hR : R.length = 1) :
    leNat (mergeUInt8 L R) = (leNat L + leNat R) / 2 := by
  have hl := leNat_lt L
  have hr := leNat_lt R
  rw [hL] at hl
  rw [hR] at hr
  have hsum : (leNat L + leNat R) % 256 ^ 2 = leNat L + leNat R := Nat.mod_eq_of_lt (by omega)
  rw [mergeUInt8]
  simp only [hsum]
  rw [leNat_leBytes, Nat.mod_eq_of_lt (by omega)]

/-- The number a sample stands for. -/
def sampleValue : SampleFormat → Bytes → Int
  | .uInt8, bs => leNat bs
  | _, bs => readInt bs

/-- Samples that are whole numbers. -/
def SampleFormat.IsInteger (f : SampleFormat) : Prop := f = .uInt8 ∨ f = .int16 ∨ f = .int32

variable {mergeFloat : UInt32 → UInt32 → UInt32} {f : SampleFormat} {L R : Bytes}

/-- A merge gives one sample. -/
theorem length_mergeStereoFrame {m : Bytes} (h : mergeStereoFrame mergeFloat L R f = some m) :
    m.length = f.bytesPerSample := by
  cases f with
  | unknown => exact absurd h (by simp [mergeStereoFrame])
  | uInt8 => rw [← Option.some.inj h, mergeUInt8, length_leBytes]; rfl
  | int16 => rw [← Option.some.inj h, mergeSigned, writeInt, length_leBytes]; rfl
  | int32 => rw [← Option.some.inj h, mergeSigned, writeInt, length_leBytes]; rfl
  | float => rw [← Option.some.inj h, length_store32]; rfl

variable (mergeFloat) in
/-- **The merge of two integers is half their sum**, rounded toward zero. -/
theorem mergeStereoFrame_integer (hf : f.IsInteger) (hL : L.length = f.bytesPerSample)
    (hR : R.length = f.bytesPerSample) : ∃ m, mergeStereoFrame mergeFloat L R f = some m ∧
      sampleValue f m = (sampleValue f L + sampleValue f R).tdiv 2 := by
  rcases hf with rfl | rfl | rfl
  · refine ⟨_, rfl, ?_⟩
    show (leNat (mergeUInt8 L R) : Int) = ((leNat L : Int) + (leNat R : Int)).tdiv 2
    rw [leNat_mergeUInt8 hL hR, Int.tdiv_eq_ediv_of_nonneg (by omega)]
    omega
  · exact ⟨_, rfl, readInt_mergeSigned (by decide) hL hR⟩
  · exact ⟨_, rfl, readInt_mergeSigned (by decide) hL hR⟩

/-- What is doubled is merged back to what it was. -/
theorem mergeStereoFrame_self (hf : f.IsInteger) (hL : L.length = f.bytesPerSample) :
    mergeStereoFrame mergeFloat L L f = some L := by
  have hmean : ∀ v : Int, (v + v).tdiv 2 = v := by
    intro v
    have h := tdiv_two_between v v
    omega
  obtain ⟨m, hm, hvalue⟩ := mergeStereoFrame_integer mergeFloat hf hL hL
  have hlength := length_mergeStereoFrame hm
  rw [hmean] at hvalue
  rw [hm]
  congr 1
  rcases hf with rfl | rfl | rfl
  · have hcast : (leNat m : Int) = leNat L := hvalue
    have hsame : leNat m = leNat L := by omega
    rw [← leBytes_leNat m, ← leBytes_leNat L, hsame, hlength, hL]
  · have hsame : readInt m = readInt L := hvalue
    rw [← writeInt_readInt m, ← writeInt_readInt L, hsame, hlength, hL]
  · have hsame : readInt m = readInt L := hvalue
    rw [← writeInt_readInt m, ← writeInt_readInt L, hsame, hlength, hL]

/-! ### What a conversion does -/

variable (mergeFloat f) in
/-- One sample for both channels. -/
def mergeFrame (frame : Bytes) : Bytes :=
  let L := frame.take f.bytesPerSample
  (mergeStereoFrame mergeFloat L (frame.drop f.bytesPerSample) f).getD L

/-- The `int`s of a conversion: how much is put out, and where the last sample goes. -/
theorem int_holds {pcm : Bytes} (h : pcm.length < 2 ^ 30) {b i : Nat} (hi : i < pcm.length / b) :
    pcm.length / b * 2 * b < 2 ^ 31 ∧ i * 2 * b + b < 2 ^ 31 := by
  have hall : pcm.length / b * b ≤ pcm.length := Nat.div_mul_le_self ..
  have hlast : (i + 1) * b ≤ pcm.length := (Nat.mul_le_mul_right b hi).trans hall
  rw [Nat.add_mul, Nat.one_mul] at hlast
  rw [Nat.mul_right_comm, Nat.mul_right_comm i]
  omega

/-- From mono to stereo, every sample is doubled. -/
theorem convertChannels_double (hf : 0 < f.bytesPerSample) (pcm : Bytes) :
    convertChannels mergeFloat pcm 1 2 f.bytesPerSample f
      = (blocks f.bytesPerSample pcm).flatMap fun sample => sample ++ sample := by
  rw [convertChannels, if_neg (by simp [channelsSupported]), if_neg (by omega)]
  simp only []
  rw [if_neg (by omega), if_neg (by decide), Nat.one_mul]
  split
  · rename_i hnone
    rw [blocks, hnone]
    rfl
  · rw [if_pos (by simp), blocks, List.flatMap_map]
    rfl

/-- From stereo to mono, every frame is merged. -/
theorem convertChannels_merge (hf : 0 < f.bytesPerSample) (pcm : Bytes) :
    convertChannels mergeFloat pcm 2 1 f.bytesPerSample f
      = (blocks (2 * f.bytesPerSample) pcm).flatMap (mergeFrame mergeFloat f) := by
  rw [convertChannels, if_neg (by simp [channelsSupported]), if_neg (by omega)]
  simp only []
  rw [if_neg (by omega), if_neg (by decide)]
  split
  · rename_i hnone
    rw [blocks, hnone]
    rfl
  · rw [if_neg (by simp), if_pos (by simp), blocks, List.flatMap_map]
    congr 1
    funext i
    rw [mergeFrame, block, Nat.mul_assoc]
    have hleft : ((pcm.drop (i * (2 * f.bytesPerSample))).take (2 * f.bytesPerSample)).take
        f.bytesPerSample = (pcm.drop (i * (2 * f.bytesPerSample))).take f.bytesPerSample := by
      rw [List.take_take, Nat.min_eq_left (by omega)]
    have hright : ((pcm.drop (i * (2 * f.bytesPerSample))).take (2 * f.bytesPerSample)).drop
        f.bytesPerSample = (pcm.drop (i * (2 * f.bytesPerSample) + f.bytesPerSample)).take
          f.bytesPerSample := by
      rw [List.drop_take, List.drop_drop]
      congr 1
      omega
    simp only [hleft, hright]

theorem length_mergeFrame {frame : Bytes} (h : frame.length = 2 * f.bytesPerSample) :
    (mergeFrame mergeFloat f frame).length = f.bytesPerSample := by
  rw [mergeFrame]
  cases hm : mergeStereoFrame mergeFloat (frame.take f.bytesPerSample)
      (frame.drop f.bytesPerSample) f with
  | none =>
      rw [Option.getD_none, List.length_take]
      omega
  | some m => exact length_mergeStereoFrame hm

theorem mergeFrame_double (hf : f.IsInteger) {sample : Bytes}
    (h : sample.length = f.bytesPerSample) :
    mergeFrame mergeFloat f (sample ++ sample) = sample := by
  rw [mergeFrame, List.take_left' h, List.drop_left' h, mergeStereoFrame_self hf h,
    Option.getD_some]

theorem SampleFormat.IsInteger.pos (hf : f.IsInteger) : 0 < f.bytesPerSample := by
  rcases hf with rfl | rfl | rfl <;> decide

/-- Samples that are doubled and merged are what they were. -/
theorem convertChannels_back (hf : f.IsInteger) {pcm : Bytes}
    (hwhole : f.bytesPerSample ∣ pcm.length) :
    convertChannels mergeFloat (convertChannels mergeFloat pcm 1 2 f.bytesPerSample f) 2 1
      f.bytesPerSample f = pcm := by
  have hpos := hf.pos
  have hdoubled : ∀ sample ∈ blocks f.bytesPerSample pcm,
      (sample ++ sample).length = 2 * f.bytesPerSample := by
    intro sample hsample
    rw [List.length_append, length_of_mem_blocks hsample]
    omega
  rw [convertChannels_double hpos, convertChannels_merge hpos,
    blocks_flatMap (by omega) hdoubled, List.flatMap_map]
  have hback : ∀ sample ∈ blocks f.bytesPerSample pcm,
      mergeFrame mergeFloat f (sample ++ sample) = sample := fun sample hsample =>
    mergeFrame_double hf (length_of_mem_blocks hsample)
  rw [List.flatMap_def, List.map_congr_left hback, List.map_id', flatten_blocks_of_dvd hwhole]

/-- The merged samples, one for each frame. -/
theorem blocks_convertChannels_merge (hpos : 0 < f.bytesPerSample) (pcm : Bytes) :
    blocks f.bytesPerSample (convertChannels mergeFloat pcm 2 1 f.bytesPerSample f)
      = (blocks (2 * f.bytesPerSample) pcm).map (mergeFrame mergeFloat f) := by
  rw [convertChannels_merge hpos]
  exact blocks_flatMap hpos fun frame hframe => length_mergeFrame (length_of_mem_blocks hframe)

theorem length_convertChannels_merge (hpos : 0 < f.bytesPerSample) (pcm : Bytes) :
    (convertChannels mergeFloat pcm 2 1 f.bytesPerSample f).length
      = pcm.length / (2 * f.bytesPerSample) * f.bytesPerSample := by
  rw [convertChannels_merge hpos]
  exact length_flatMap_blocks fun frame hframe => length_mergeFrame (length_of_mem_blocks hframe)

variable (mergeFloat) in
/-- The `i`-th sample of the result is the merge of the two of the `i`-th frame. -/
theorem sampleValue_convertChannels (hf : f.IsInteger) {pcm : Bytes} {i : Nat}
    (hi : i < pcm.length / (2 * f.bytesPerSample)) :
    sampleValue f (block f.bytesPerSample
        (convertChannels mergeFloat pcm 2 1 f.bytesPerSample f) i)
      = (sampleValue f (block f.bytesPerSample pcm (2 * i))
          + sampleValue f (block f.bytesPerSample pcm (2 * i + 1))).tdiv 2 := by
  have hpos := hf.pos
  have hframe := length_block hi
  have hi' : i < (convertChannels mergeFloat pcm 2 1 f.bytesPerSample f).length
      / f.bytesPerSample := by
    rw [length_convertChannels_merge hpos, Nat.mul_div_cancel _ hpos]
    exact hi
  have hsample : block f.bytesPerSample (convertChannels mergeFloat pcm 2 1 f.bytesPerSample f) i
      = mergeFrame mergeFloat f (block (2 * f.bytesPerSample) pcm i) := by
    have hat := getElem?_blocks hi'
    rw [blocks_convertChannels_merge hpos, List.getElem?_map, getElem?_blocks hi] at hat
    exact (Option.some.inj hat).symm
  have hleft : (block (2 * f.bytesPerSample) pcm i).take f.bytesPerSample
      = block f.bytesPerSample pcm (2 * i) := by
    rw [block, block, List.take_take, Nat.min_eq_left (by omega)]
    congr 2
    rw [Nat.mul_left_comm, Nat.mul_assoc]
  have hright : (block (2 * f.bytesPerSample) pcm i).drop f.bytesPerSample
      = block f.bytesPerSample pcm (2 * i + 1) := by
    rw [block, block, List.drop_take, List.drop_drop]
    congr 1
    · omega
    · congr 1
      rw [Nat.add_mul, Nat.one_mul, Nat.mul_left_comm, Nat.mul_assoc]
  obtain ⟨m, hm, hvalue⟩ := mergeStereoFrame_integer mergeFloat hf
    (L := block f.bytesPerSample pcm (2 * i)) (R := block f.bytesPerSample pcm (2 * i + 1))
    (by rw [← hleft, List.length_take, hframe]; omega)
    (by rw [← hright, List.length_drop, hframe]; omega)
  rw [hsample, mergeFrame, hleft, hright, hm, Option.getD_some, hvalue]

variable (mergeFloat) in
/-- **Channels can be converted back and forth.**  Mono comes back from stereo as it was; and
stereo is merged frame by frame, each mean exact but for the rounding and between the two, and
merging again changes nothing more. -/
theorem channelRoundTrip (hf : f.IsInteger) :
    (∀ pcm : Bytes, f.bytesPerSample ∣ pcm.length →
      convertChannels mergeFloat (convertChannels mergeFloat pcm 1 2 f.bytesPerSample f) 2 1
        f.bytesPerSample f = pcm) ∧
    ∀ pcm : Bytes, 2 * f.bytesPerSample ∣ pcm.length →
      ∃ mono, convertChannels mergeFloat pcm 2 1 f.bytesPerSample f = mono ∧
        mono.length = pcm.length / (2 * f.bytesPerSample) * f.bytesPerSample ∧
        (∀ i < pcm.length / (2 * f.bytesPerSample), ∀ l r m,
          sampleValue f (block f.bytesPerSample pcm (2 * i)) = l →
          sampleValue f (block f.bytesPerSample pcm (2 * i + 1)) = r →
          sampleValue f (block f.bytesPerSample mono i) = m →
          m = (l + r).tdiv 2 ∧ min l r ≤ m ∧ m ≤ max l r) ∧
        convertChannels mergeFloat (convertChannels mergeFloat mono 1 2 f.bytesPerSample f) 2 1
          f.bytesPerSample f = mono := by
  refine ⟨fun pcm hwhole => convertChannels_back hf hwhole, fun pcm _ => ⟨_, rfl, ?_, ?_, ?_⟩⟩
  · exact length_convertChannels_merge hf.pos pcm
  · rintro i hi l r m rfl rfl rfl
    have hmean := sampleValue_convertChannels mergeFloat hf hi
    rw [hmean]
    exact ⟨rfl, tdiv_two_between _ _⟩
  · apply convertChannels_back hf
    rw [length_convertChannels_merge hf.pos]
    exact Nat.dvd_mul_left ..

/-- Two samples there and back; and the loudest two of opposite sign, merged. -/
theorem channelRoundTrip_int16 :
    convertChannels (fun l _ => l)
        (convertChannels (fun l _ => l) [1, 2, 254, 255] 1 2 2 .int16) 2 1 2 .int16
      = [1, 2, 254, 255] ∧
      ∃ mono, convertChannels (fun l _ => l) [0, 128, 255, 127] 2 1 2 .int16 = mono ∧
        mono.length = 2 := by
  obtain ⟨hback, hmerge⟩ :=
    channelRoundTrip (fun l _ => l) (f := .int16) (Or.inr (Or.inl rfl))
  obtain ⟨mono, hmono, hlength, -⟩ := hmerge [0, 128, 255, 127] (by decide)
  exact ⟨hback [1, 2, 254, 255] (by decide), mono, hmono, hlength⟩

end Convert

end CloudMeeting.Audio
