/-
Converting sound block by block.

A microphone with one channel has its samples doubled for the wire, each block on its own.
A block is three reads, and a read may end anywhere: where the bytes of a block are no
whole number of samples, the rest of the last one is dropped, and the next block begins in
the middle of a sample.

`converted_iff` says for which sizes of the reads this never shows: every block is a whole
number of samples, except where too little comes after it to make up another one
(`Aligned`).
-/
import CloudMeeting.Audio.Capture

namespace CloudMeeting.Audio

open Blocks Run

/-! ### Blocks of three reads -/

/-- The blocks that reads are put together to; one or two at the end make none yet. -/
def blocksOf : List Bytes → List Bytes
  | first :: second :: third :: reads => (first ++ second ++ third) :: blocksOf reads
  | _ => []

/-- Their sizes, from the sizes of the reads. -/
def blockSizes : List Nat → List Nat
  | first :: second :: third :: sizes => (first + second + third) :: blockSizes sizes
  | _ => []

/-- No block is larger than the buffer. -/
def Fits : List Nat → Prop
  | first :: second :: third :: sizes => first + second + third ≤ 2 * MB ∧ Fits sizes
  | sizes => sizes.sum ≤ 2 * MB

/-- No three at the front, no three at all. -/
theorem length_lt_three {α : Type} {l : List α}
    (h : ∀ first second third rest, l = first :: second :: third :: rest → False) :
    l.length < 3 := by
  rcases l with _ | ⟨a, _ | ⟨b, _ | ⟨c, l⟩⟩⟩
  · exact Nat.lt_of_sub_eq_succ rfl
  · exact Nat.lt_of_sub_eq_succ rfl
  · exact Nat.lt_of_sub_eq_succ rfl
  · exact absurd rfl (h a b c l)

theorem blocksOf_few {reads : List Bytes} (h : reads.length < 3) : blocksOf reads = [] := by
  apply blocksOf.eq_2 reads
  intro first second third rest heq
  rw [heq, List.length_cons, List.length_cons, List.length_cons] at h
  omega

theorem blockSizes_few {sizes : List Nat} (h : sizes.length < 3) : blockSizes sizes = [] := by
  apply blockSizes.eq_2 sizes
  intro first second third rest heq
  rw [heq, List.length_cons, List.length_cons, List.length_cons] at h
  omega

theorem fits_few {sizes : List Nat} (h : sizes.length < 3) :
    Fits sizes = (sizes.sum ≤ 2 * MB) := by
  apply Fits.eq_2 sizes
  intro first second third rest heq
  rw [heq, List.length_cons, List.length_cons, List.length_cons] at h
  omega

theorem length_blocksOf (reads : List Bytes) :
    (blocksOf reads).map List.length = blockSizes (reads.map List.length) := by
  induction reads using blocksOf.induct with
  | case1 first second third reads ih =>
      simp only [blocksOf, List.map_cons, blockSizes, ih, List.length_append]
  | case2 reads hfew =>
      have hlt := length_lt_three hfew
      rw [blocksOf_few hlt, blockSizes_few (by rwa [List.length_map])]
      rfl

/-- Blocks of the right sizes can be read in reads of the right sizes. -/
theorem exists_reads (sizes : List Nat) {bs : List Bytes}
    (h : bs.map List.length = blockSizes sizes) :
    ∃ reads : List Bytes, reads.map List.length = sizes ∧ blocksOf reads = bs := by
  induction sizes using blockSizes.induct generalizing bs with
  | case1 first second third sizes ih =>
      rw [blockSizes] at h
      obtain ⟨b, bs, rfl, hb, hbs⟩ := List.map_eq_cons_iff.mp h
      obtain ⟨reads, hreads, hblocks⟩ := ih hbs
      refine ⟨b.take first :: (b.drop first).take second :: (b.drop first).drop second :: reads,
        ?_, ?_⟩
      · have hfirst : (b.take first).length = first := by
          rw [List.length_take]
          omega
        have hsecond : ((b.drop first).take second).length = second := by
          rw [List.length_take, List.length_drop]
          omega
        have hthird : ((b.drop first).drop second).length = third := by
          rw [List.length_drop, List.length_drop]
          omega
        rw [List.map_cons, List.map_cons, List.map_cons, hfirst, hsecond, hthird, hreads]
      · rw [blocksOf, hblocks, List.append_assoc, List.take_append_drop, List.take_append_drop]
  | case2 sizes hfew =>
      have hlt := length_lt_three hfew
      rw [blockSizes_few hlt] at h
      rw [List.map_eq_nil_iff.mp h]
      refine ⟨sizes.map fun n => List.replicate n 0, ?_, blocksOf_few (by rwa [List.length_map])⟩
      rw [List.map_map]
      exact (List.map_congr_left fun n _ => List.length_replicate).trans (List.map_id sizes)

/-! ### What the reads leave in memory -/

/-- Memory that is written behind its contents has more contents. -/
theorem contents_copied (mem : Int → Cell) (length : Nat) (data : Bytes) (opening : Nat) :
    (contents (copied mem length data opening) (length + data.length)).map Cell.byte
      = (contents mem length).map Cell.byte ++ data := by
  have hbefore : ∀ i ∈ List.range length,
      (copied mem length data opening (i : Nat)).byte = (mem (i : Nat)).byte := by
    intro i hi
    have hlt := List.mem_range.mp hi
    rw [copied, if_neg (by omega)]
  have hbehind : (List.range data.length).map
      (fun i => (copied mem length data opening ((length + i : Nat) : Int)).byte) = data := by
    apply List.ext_getElem (by simp)
    intro i hi hi'
    have hoffset : (((length + i : Nat) : Int) - length).toNat = i := by omega
    rw [List.getElem_map, List.getElem_range, copied, if_pos (by omega), hoffset,
      List.getElem?_eq_getElem hi']
  rw [contents, contents, List.map_map, List.map_map, List.range_add, List.map_append,
    List.map_map]
  congr 1
  exact List.map_congr_left hbefore

namespace AudioInput

variable {mergeFloat : UInt32 → UInt32 → UInt32} {format : AudioFormat} {wireSpec : Spec}
  {s : AudioInput}

/-- What is in the unfinished block. -/
def unfinished (s : AudioInput) : Bytes := (contents s.recvbuf s.totallen.toNat).map Cell.byte

theorem unfinished_fill (h : 0 ≤ s.totallen) (data : Bytes) :
    (s.fill (some data)).unfinished = s.unfinished ++ data ∧
      (s.fill (some data)).totallen = s.totallen + data.length := by
  refine ⟨?_, rfl⟩
  have hsum : (s.fill (some data)).totallen.toNat = s.totallen.toNat + data.length := by
    show (s.totallen + (data.length : Int)).toNat = _
    omega
  have hstart : s.totallen = (s.totallen.toNat : Int) := by omega
  rw [unfinished, hsum]
  show (contents (copied s.recvbuf s.totallen data s.opening) _).map Cell.byte = _
  conv_lhs => rw [hstart]
  exact contents_copied s.recvbuf s.totallen.toNat data s.opening

variable (mergeFloat format wireSpec) in
/-- A read that is not the third of its block. -/
theorem step_count (h : s.Reads) (hnum : s.num < 2) (data : Bytes)
    (hfits : s.totallen + data.length ≤ 2 * MB) :
    s.step mergeFloat format wireSpec (.readyRead (some data))
      = some { s.fill (some data) with num := s.num + 1 } := by
  have hasked : s.Asked (some data) := by
    show (data.length : Int) ≤ 2 * MB - s.totallen
    omega
  rw [step_asked hasked, onreadyRead_count h hnum]

variable (mergeFloat format wireSpec) in
/-- The third read of a block. -/
theorem step_send (h : s.Reads) (hnum : ¬ s.num < 2) (data : Bytes) (hnonneg : 0 ≤ s.totallen)
    (hfits : s.totallen + data.length ≤ 2 * MB) :
    ∃ t, s.step mergeFloat format wireSpec (.readyRead (some data)) = some t ∧ t.Reads ∧
      t.num = 0 ∧ t.totallen = 0 ∧
      t.enqueued.map (fun block => (block.raw.map Cell.byte, block.audio))
        = s.enqueued.map (fun block => (block.raw.map Cell.byte, block.audio)) ++
          ((normalize mergeFloat format wireSpec (s.unfinished ++ data)).map
            fun audio => (s.unfinished ++ data, audio)).toList := by
  have hasked : s.Asked (some data) := by
    show (data.length : Int) ≤ 2 * MB - s.totallen
    omega
  obtain ⟨hbytes, htotal⟩ := unfinished_fill hnonneg data
  have hblock : (byteArray (s.fill (some data)).recvbuf (s.fill (some data)).totallen).map
      Cell.byte = s.unfinished ++ data := by
    rw [byteArray, if_neg (by rw [htotal]; omega), ← hbytes, unfinished]
  refine ⟨_, step_asked hasked, ?_⟩
  rw [onreadyRead_send h hnum]
  rcases sendBlock_cases mergeFloat format wireSpec (s.fill (some data)) with
    ⟨audio, hsent, heq⟩ | ⟨hsent, heq⟩
  · rw [hblock] at hsent
    rw [heq, hsent]
    refine ⟨h, rfl, rfl, ?_⟩
    show (s.enqueued ++ [_]).map _ = _
    rw [List.map_append, List.map_singleton, hblock]
    rfl
  · rw [hblock] at hsent
    rw [heq, hsent]
    refine ⟨h, rfl, rfl, ?_⟩
    show s.enqueued.map _ = _
    simp

/-- The events of reads that do not fail. -/
def readsOf (reads : List Bytes) : List CaptureEvent :=
  reads.map fun data => .readyRead (some data)

/-- The bytes of what was enqueued, next to what they were made from. -/
def sentBlocks (s : AudioInput) : List (Bytes × Bytes) :=
  s.enqueued.map fun block => (block.raw.map Cell.byte, block.audio)

variable (mergeFloat format wireSpec) in
/-- What becomes of a block. -/
def outgoing (rr : Bytes) : Option (Bytes × Bytes) :=
  (normalize mergeFloat format wireSpec rr).map fun audio => (rr, audio)

theorem run_readsOf_cons {data : Bytes} {s' : AudioInput}
    (hstep : s.step mergeFloat format wireSpec (.readyRead (some data)) = some s')
    (reads : List Bytes) : run (step mergeFloat format wireSpec) s (readsOf (data :: reads))
      = run (step mergeFloat format wireSpec) s' (readsOf reads) := by
  rw [readsOf, List.map_cons, run_cons, hstep, Option.bind_some, readsOf]

variable (mergeFloat format wireSpec) in
/-- Three reads make a block. -/
theorem run_block (h : s.Reads) (hnum : s.num = 0) (htotal : s.totallen = 0)
    {first second third : Bytes}
    (hfits : first.length + second.length + third.length ≤ 2 * MB) :
    ∃ t, run (step mergeFloat format wireSpec) s (readsOf [first, second, third]) = some t ∧
      t.Reads ∧ t.num = 0 ∧ t.totallen = 0 ∧ t.sentBlocks = s.sentBlocks ++
        (outgoing mergeFloat format wireSpec (first ++ second ++ third)).toList := by
  let s₁ : AudioInput := { s.fill (some first) with num := s.num + 1 }
  let s₂ : AudioInput := { s₁.fill (some second) with num := s₁.num + 1 }
  have hnothing : s.unfinished = [] := by
    rw [unfinished, htotal]
    rfl
  obtain ⟨hbytes₁, htotal₁⟩ := unfinished_fill (s := s) (by omega) first
  rw [hnothing, List.nil_append] at hbytes₁
  have htotal₁' : s₁.totallen = first.length := by
    show (s.fill (some first)).totallen = _
    omega
  obtain ⟨hbytes₂, htotal₂⟩ := unfinished_fill (s := s₁) (by omega) second
  have hbytes₁' : s₁.unfinished = first := hbytes₁
  have hbytes₂' : s₂.unfinished = first ++ second := by
    rw [← hbytes₁']
    exact hbytes₂
  have htotal₂' : s₂.totallen = first.length + second.length := by
    show (s₁.fill (some second)).totallen = _
    omega
  have hstep₁ := step_count mergeFloat format wireSpec h (by omega) first (by omega)
  have hstep₂ := step_count mergeFloat format wireSpec (s := s₁) h
    (show s.num + 1 < 2 by omega) second (by omega)
  obtain ⟨t, hstep₃, hreads, ht, ht', hsent⟩ :=
    step_send mergeFloat format wireSpec (s := s₂) h (show ¬ s.num + 1 + 1 < 2 by omega) third
      (by omega) (by omega)
  refine ⟨t, ?_, hreads, ht, ht', ?_⟩
  · rw [run_readsOf_cons hstep₁, run_readsOf_cons hstep₂, run_readsOf_cons hstep₃]
    rfl
  · rw [hbytes₂'] at hsent
    exact hsent

variable (mergeFloat format wireSpec) in
/-- Fewer than three reads make none. -/
theorem run_few (h : s.Reads) (hnum : s.num = 0) (htotal : s.totallen = 0) {reads : List Bytes}
    (hfew : reads.length < 3) (hfits : (reads.map List.length).sum ≤ 2 * MB) :
    ∃ t, run (step mergeFloat format wireSpec) s (readsOf reads) = some t ∧
      t.sentBlocks = s.sentBlocks := by
  rcases reads with _ | ⟨first, _ | ⟨second, _ | ⟨third, reads⟩⟩⟩
  · exact ⟨s, rfl, rfl⟩
  · have hle : first.length + 0 ≤ 2 * MB := hfits
    have hstep := step_count mergeFloat format wireSpec h (by omega) first (by omega)
    refine ⟨{ s.fill (some first) with num := s.num + 1 }, ?_, rfl⟩
    rw [run_readsOf_cons hstep]
    rfl
  · have hle : first.length + (second.length + 0) ≤ 2 * MB := hfits
    let s₁ : AudioInput := { s.fill (some first) with num := s.num + 1 }
    have htotal₁ : s₁.totallen = s.totallen + first.length := rfl
    have hstep₁ := step_count mergeFloat format wireSpec h (by omega) first (by omega)
    have hstep₂ := step_count mergeFloat format wireSpec (s := s₁) h
      (show s.num + 1 < 2 by omega) second (by omega)
    refine ⟨{ s₁.fill (some second) with num := s₁.num + 1 }, ?_, rfl⟩
    rw [run_readsOf_cons hstep₁, run_readsOf_cons hstep₂]
    rfl
  · simp only [List.length_cons] at hfew
    omega

variable (mergeFloat format wireSpec) in
/-- **What reads have sent are the blocks they make**, each normalized on its own. -/
theorem run_reads (h : s.Reads) (hnum : s.num = 0) (htotal : s.totallen = 0) {reads : List Bytes}
    (hfits : Fits (reads.map List.length)) :
    ∃ t, run (step mergeFloat format wireSpec) s (readsOf reads) = some t ∧
      t.sentBlocks = s.sentBlocks ++
        (blocksOf reads).filterMap (outgoing mergeFloat format wireSpec) := by
  induction reads using blocksOf.induct generalizing s with
  | case1 first second third reads ih =>
      obtain ⟨t, hrun, hreads, ht, ht', hsent⟩ := run_block mergeFloat format wireSpec
        h hnum htotal hfits.1
      obtain ⟨t', hrun', hsent'⟩ := ih hreads ht ht' hfits.2
      refine ⟨t', ?_, ?_⟩
      · show run _ s (readsOf [first, second, third] ++ readsOf reads) = some t'
        rw [run_append, hrun, Option.bind_some, hrun']
      · rw [hsent', hsent, blocksOf, List.append_assoc, List.filterMap_cons]
        cases outgoing mergeFloat format wireSpec (first ++ second ++ third) <;> rfl
  | case2 reads hfew =>
      have hlt := length_lt_three hfew
      have hsum : (reads.map List.length).sum ≤ 2 * MB := by
        rwa [fits_few (by rwa [List.length_map])] at hfits
      obtain ⟨t, hrun, hsent⟩ := run_few mergeFloat format wireSpec h hnum htotal hlt hsum
      exact ⟨t, hrun, by rw [hsent, blocksOf_few hlt, List.filterMap_nil, List.append_nil]⟩

/-! ### Doubling -/

/-- Samples that have been doubled can be told apart. -/
theorem flatMap_double_inj {b : Nat} (hb : 0 < b) {xs ys : List Bytes}
    (hxs : ∀ x ∈ xs, x.length = b) (hys : ∀ y ∈ ys, y.length = b)
    (h : (xs.flatMap fun x => x ++ x) = ys.flatMap fun y => y ++ y) : xs = ys := by
  have hcut : ∀ zs : List Bytes, (∀ z ∈ zs, z.length = b) →
      blocks (2 * b) (zs.flatMap fun z => z ++ z) = zs.map fun z => z ++ z := by
    intro zs hzs
    have hall : ∀ z ∈ zs.map fun z => z ++ z, z.length = 2 * b := by
      intro z hz
      obtain ⟨w, hw, rfl⟩ := List.mem_map.mp hz
      rw [List.length_append, hzs w hw]
      omega
    have happ := blocks_flatten_append (by omega) hall []
    have hrest : blocks (2 * b) ([] : Bytes) = [] := blocks_of_lt (by simpa using hb)
    rwa [List.append_nil, hrest, List.append_nil, ← List.flatMap_def] at happ
  have hsame : xs.map (fun x => x ++ x) = ys.map fun y => y ++ y := by
    rw [← hcut xs hxs, ← hcut ys hys, h]
  refine List.map_injective_iff.mpr (fun x y hxy => ?_) hsame
  have hlen := congrArg List.length hxy
  simp only [List.length_append] at hlen
  exact List.append_inj_left hxy (by omega)

variable {f : SampleFormat}

/-- Doubling what comes in blocks is doubling all of it when the blocks can be cut on their
own. -/
theorem flatMap_convertChannels_iff (hf : 0 < f.bytesPerSample) (bs : List Bytes) :
    (bs.flatMap fun rr => convertChannels mergeFloat rr 1 2 f.bytesPerSample f)
        = convertChannels mergeFloat bs.flatten 1 2 f.bytesPerSample f ↔
      bs.flatMap (blocks f.bytesPerSample) = blocks f.bytesPerSample bs.flatten := by
  have hpieces : (bs.flatMap fun rr => convertChannels mergeFloat rr 1 2 f.bytesPerSample f)
      = (bs.flatMap (blocks f.bytesPerSample)).flatMap fun sample => sample ++ sample := by
    rw [List.flatMap_assoc]
    congr 1
    funext rr
    exact convertChannels_double hf rr
  rw [hpieces, convertChannels_double hf]
  constructor
  · refine flatMap_double_inj hf (fun x hx => ?_) fun y hy => length_of_mem_blocks hy
    obtain ⟨rr, -, hx⟩ := List.mem_flatMap.mp hx
    exact length_of_mem_blocks hx
  · intro h
    rw [h]

/-- Nothing comes out where there is no whole sample. -/
theorem convertChannels_eq_nil (hf : 0 < f.bytesPerSample) (rr : Bytes) :
    convertChannels mergeFloat rr 1 2 f.bytesPerSample f = [] ↔ rr.length < f.bytesPerSample := by
  have hlength : ((blocks f.bytesPerSample rr).flatMap fun sample => sample ++ sample).length
      = rr.length / f.bytesPerSample * (2 * f.bytesPerSample) := by
    apply length_flatMap_blocks
    intro sample hsample
    rw [List.length_append, length_of_mem_blocks hsample]
    omega
  rw [convertChannels_double hf, ← List.length_eq_zero_iff, hlength, Nat.mul_eq_zero,
    Nat.div_eq_zero_iff]
  omega

/-! ### The whole of it -/

variable (mergeFloat format) in
/-- What a block of a mono device becomes on the wire. -/
def doubled (rr : Bytes) : Bytes :=
  convertChannels mergeFloat rr 1 2 format.bytesPerSample format.sampleFormat

theorem outgoing_mono (hmono : format.channelCount = 1) (hpos : 0 < format.bytesPerSample)
    (rr : Bytes) : outgoing mergeFloat format sessionWirePcmSpec rr
      = if format.bytesPerSample ≤ rr.length then some (rr, doubled mergeFloat format rr)
        else none := by
  have hnil : doubled mergeFloat format rr = [] ↔ rr.length < format.bytesPerSample :=
    convertChannels_eq_nil hpos rr
  rw [doubled] at hnil
  have htwo : sessionWirePcmSpec.channelCount = 2 := rfl
  rw [outgoing, normalize]
  simp only []
  rw [if_pos ⟨hpos, by rw [hmono, htwo]; decide⟩, hmono, htwo]
  split
  · rename_i hsome
    rw [if_pos (Nat.not_lt.mp (fun hlt => hsome (hnil.mpr hlt)))]
    rfl
  · rename_i hnone
    rw [if_neg (Nat.not_le.mpr (hnil.mp (not_not.mp hnone)))]
    rfl

theorem outgoing_unknown (hzero : format.bytesPerSample = 0) (rr : Bytes) :
    outgoing mergeFloat format wireSpec rr = some (rr, rr) := by
  rw [outgoing, normalize]
  simp only []
  rw [if_neg (by omega)]
  rfl

variable (mergeFloat) in
/-- What is sent of blocks, and what it is made from. -/
theorem flatMap_outgoing (hmono : format.channelCount = 1) (hpos : 0 < format.bytesPerSample)
    (bs : List Bytes) :
    (bs.filterMap (outgoing mergeFloat format sessionWirePcmSpec)).flatMap Prod.snd
        = bs.flatMap (doubled mergeFloat format) ∧
      (bs.filterMap (outgoing mergeFloat format sessionWirePcmSpec)).flatMap Prod.fst
        = (bs.filter fun rr => format.bytesPerSample ≤ rr.length).flatten ∧
      (bs.filter fun rr => format.bytesPerSample ≤ rr.length).flatMap (doubled mergeFloat format)
        = bs.flatMap (doubled mergeFloat format) := by
  induction bs with
  | nil => exact ⟨rfl, rfl, rfl⟩
  | cons rr bs ih =>
      obtain ⟨hsnd, hfst, hkept⟩ := ih
      rw [List.filterMap_cons, outgoing_mono hmono hpos, List.filter_cons, List.flatMap_cons]
      by_cases hlen : format.bytesPerSample ≤ rr.length
      · rw [if_pos hlen, if_pos (by simpa using hlen)]
        refine ⟨?_, ?_, ?_⟩
        · rw [List.flatMap_cons, hsnd]
        · rw [List.flatMap_cons, hfst, List.flatten_cons]
        · rw [List.flatMap_cons, hkept]
      · have hnothing : doubled mergeFloat format rr = [] :=
          (convertChannels_eq_nil hpos rr).mpr (Nat.not_le.mp hlen)
        rw [if_neg hlen, if_neg (by simpa using hlen), hnothing, List.nil_append]
        exact ⟨hsnd, hfst, hkept⟩

/-- Collecting has begun. -/
def collecting (recvbuf : Int → Cell) : AudioInput := { inputdevice := true, recvbuf := recvbuf }

variable (mergeFloat format) in
/-- What has been sent of these reads is the conversion of all that was read for their blocks,
and of all that the blocks which were sent are made from. -/
def Converted (reads : List Bytes) (t : AudioInput) : Prop :=
  t.sentBlocks.flatMap Prod.snd
      = convertChannels mergeFloat (blocksOf reads).flatten format.channelCount
          sessionWirePcmSpec.channelCount format.bytesPerSample format.sampleFormat ∧
    t.sentBlocks.flatMap Prod.snd
      = convertChannels mergeFloat (t.sentBlocks.flatMap Prod.fst) format.channelCount
          sessionWirePcmSpec.channelCount format.bytesPerSample format.sampleFormat

/-- Blocks of a known format are converted as a whole where they are cut as a whole. -/
theorem converted_mono (hmono : format.channelCount = 1) (hpos : 0 < format.bytesPerSample)
    {reads : List Bytes} {t : AudioInput}
    (ht : t.sentBlocks = (blocksOf reads).filterMap
      (outgoing mergeFloat format sessionWirePcmSpec)) :
    (Converted mergeFloat format reads t → (blocksOf reads).flatMap (blocks format.bytesPerSample)
        = blocks format.bytesPerSample (blocksOf reads).flatten) ∧
      (Aligned format.bytesPerSample ((blocksOf reads).map List.length) →
        Converted mergeFloat format reads t) := by
  obtain ⟨hsnd, hfst, hkept⟩ := flatMap_outgoing mergeFloat hmono hpos (blocksOf reads)
  rw [← ht] at hsnd hfst
  rw [Converted, hmono, hsnd, hfst]
  constructor
  · rintro ⟨hall, -⟩
    exact (flatMap_convertChannels_iff hpos _).mp hall
  · intro haligned
    refine ⟨(flatMap_convertChannels_iff hpos _).mpr (flatMap_blocks_of_aligned hpos haligned), ?_⟩
    rw [← hkept]
    refine (flatMap_convertChannels_iff hpos _).mpr (flatMap_blocks_of_aligned hpos ?_)
    have hfilter := haligned.filter
    rwa [List.filter_map] at hfilter

/-- Blocks of unknown samples are sent as they are, and convert to nothing. -/
theorem converted_unknown (hzero : format.bytesPerSample = 0) {reads : List Bytes}
    {t : AudioInput} (ht : t.sentBlocks = (blocksOf reads).filterMap
      (outgoing mergeFloat format sessionWirePcmSpec)) :
    Converted mergeFloat format reads t ↔ (blockSizes (reads.map List.length)).sum = 0 := by
  have hnone : ∀ pcm : Bytes, convertChannels mergeFloat pcm format.channelCount
      sessionWirePcmSpec.channelCount format.bytesPerSample format.sampleFormat = [] := by
    intro pcm
    rw [convertChannels, if_pos hzero, ite_self]
  rw [funext (outgoing_unknown hzero), List.filterMap_eq_map'] at ht
  rw [Converted, hnone, hnone, and_self, ht, List.flatMap_map, ← length_blocksOf,
    ← List.length_flatten, List.length_eq_zero_iff]
  show (blocksOf reads).flatMap id = [] ↔ _
  rw [List.flatMap_id]

section Collecting

variable {recvbuf : Int → Cell} {reads : List Bytes}

variable (mergeFloat format wireSpec recvbuf) in
theorem exists_collecting (hfits : Fits (reads.map List.length)) : ∃ t,
    run (step mergeFloat format wireSpec) (collecting recvbuf) (readsOf reads) = some t := by
  have hreads : (collecting recvbuf).Reads := ⟨rfl, rfl⟩
  obtain ⟨t, hrun, -⟩ := run_reads mergeFloat format wireSpec hreads rfl rfl hfits
  exact ⟨t, hrun⟩

theorem sentBlocks_collecting (hfits : Fits (reads.map List.length)) {t : AudioInput}
    (hrun : run (step mergeFloat format wireSpec) (collecting recvbuf) (readsOf reads) = some t) :
    t.sentBlocks = (blocksOf reads).filterMap (outgoing mergeFloat format wireSpec) := by
  have hreads : (collecting recvbuf).Reads := ⟨rfl, rfl⟩
  obtain ⟨t', hrun', hsent⟩ := run_reads mergeFloat format wireSpec hreads rfl rfl hfits
  rw [hrun', Option.some.injEq] at hrun
  exact hrun ▸ hsent

end Collecting

variable (mergeFloat) in
/-- **Conversion does not depend on the sizes of the reads exactly when** the blocks they make
are aligned with the samples of the device. -/
theorem converted_iff (hmono : format.channelCount = 1) (recvbuf : Int → Cell) {sizes : List Nat}
    (hfits : Fits sizes) :
    (∀ reads : List Bytes, reads.map List.length = sizes → ∀ t,
      run (step mergeFloat format sessionWirePcmSpec) (collecting recvbuf) (readsOf reads)
        = some t → Converted mergeFloat format reads t) ↔
      Aligned format.bytesPerFrame (blockSizes sizes) := by
  have hframe : format.bytesPerFrame = format.bytesPerSample := by
    rw [AudioFormat.bytesPerFrame, hmono, Nat.mul_one]
  rw [hframe]
  rcases Nat.eq_zero_or_pos format.bytesPerSample with hzero | hpos
  · rw [hzero, aligned_zero]
    constructor
    · intro h
      have hreads := map_length_replicate (0 : UInt8) sizes
      have hfits' := hreads.symm ▸ hfits
      obtain ⟨t, hrun⟩ := exists_collecting mergeFloat format sessionWirePcmSpec recvbuf hfits'
      have hnothing := (converted_unknown hzero (sentBlocks_collecting hfits' hrun)).mp
        (h _ hreads t hrun)
      rwa [hreads] at hnothing
    · rintro hnothing reads rfl t hrun
      exact (converted_unknown hzero (sentBlocks_collecting hfits hrun)).mpr hnothing
  · constructor
    · intro h
      apply aligned_of_flatMap_blocks (show (0 : UInt8) ≠ 1 by decide) hpos
      intro bs hbs
      obtain ⟨reads, rfl, rfl⟩ := exists_reads sizes hbs
      obtain ⟨t, hrun⟩ := exists_collecting mergeFloat format sessionWirePcmSpec recvbuf hfits
      exact (converted_mono hmono hpos (sentBlocks_collecting hfits hrun)).1 (h reads rfl t hrun)
    · rintro haligned reads rfl t hrun
      apply (converted_mono hmono hpos (sentBlocks_collecting hfits hrun)).2
      rwa [length_blocksOf]

/-- A narrow-band microphone. -/
def monoFormat : AudioFormat := { sampleRate := 8000, channelCount := 1, sampleFormat := .int16 }

/-- The first block is two and a half samples, and that is all. -/
theorem converted_sampleReads : ∃ t,
    run (step (fun l _ => l) monoFormat sessionWirePcmSpec) (collecting fun _ => {})
      (readsOf [[1, 2], [3], [4, 5]]) = some t ∧
    Converted (fun l _ => l) monoFormat [[1, 2], [3], [4, 5]] t := by
  have hfits : Fits [2, 1, 2] := ⟨by decide, Nat.zero_le _⟩
  have hall := (converted_iff (fun l _ => l) (show monoFormat.channelCount = 1 from rfl)
    (fun _ => {}) hfits).mpr (Or.inr ⟨by decide, rfl⟩)
  exact ⟨_, rfl, hall [[1, 2], [3], [4, 5]] rfl _ rfl⟩

/-- The first block is a sample and a half; the second one loses its first half sample. -/
theorem halfSample : ¬ ∀ t,
    run (step (fun l _ => l) monoFormat sessionWirePcmSpec) (collecting fun _ => {})
      (readsOf [[1], [2], [3], [4, 5], [6, 7], [8, 9]]) = some t →
    Converted (fun l _ => l) monoFormat [[1], [2], [3], [4, 5], [6, 7], [8, 9]] t := by
  intro h
  exact absurd (h _ rfl).1 (by decide +kernel)

end AudioInput

end CloudMeeting.Audio
