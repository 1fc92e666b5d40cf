/-
Capturing sound.

`onreadyRead` puts what the microphone has into a buffer, and at every third call makes a
block of what is there and sends it.  How many reads there have been, and how much they
brought, is kept in two variables that are static in the function: they do not know when
collecting stops and starts, and what a read that fails returns, -1, is added like any other
length.

The buffer is memory: a cell for every address, counted from where the buffer begins.  Two
things are remembered that the program does not know.  A cell knows which call of
`startCollect` was the last before it was read, and `cut` are the lengths of the blocks that
were made.
-/
import CloudMeeting.Audio.Format
import CloudMeeting.Lib.Run

namespace CloudMeeting.Audio

open Run

def MB : Nat := 1024 * 1024

/-- A byte of memory. -/
structure Cell where
  byte : UInt8 := 0
  /-- The call of `startCollect` it was read after. -/
  opening : Nat := 0
deriving DecidableEq, Repr

/-- A message that was enqueued. -/
structure SentBlock where
  audio : Bytes
  /-- The memory it was made from. -/
  raw : List Cell
  /-- The last call of `startCollect` before it was made. -/
  opening : Nat
deriving DecidableEq, Repr

structure AudioInput where
  num : Nat := 0
  totallen : Int := 0
  /-- `inputdevice` is not null. -/
  inputdevice : Bool := false
  /-- `m_hub` is not null. -/
  hub : Bool := true
  recvbuf : Int → Cell := fun _ => {}
  enqueued : List SentBlock := []
  /-- How often `startCollect` has been called. -/
  opening : Nat := 0
  cut : List Int := []

inductive CaptureEvent where
  /-- `startCollect`; the source may be active already, and it may give a device. -/
  | startCollect (active opened : Bool)
  | stopCollect (stopped : Bool)
  /-- `onreadyRead`, with what the read returns if it does not fail. -/
  | readyRead (result : Option Bytes)

/-- What a read into memory leaves there. -/
def copied (mem : Int → Cell) (start : Int) (data : Bytes) (opening : Nat) : Int → Cell :=
  fun i =>
    if start ≤ i then
      match data[(i - start).toNat]? with
      | some byte => { byte := byte, opening := opening }
      | none => mem i
    else mem i

def contents (mem : Int → Cell) (length : Nat) : List Cell :=
  (List.range length).map fun i : Nat => mem i

/-- `QByteArray(recvbuf, length)`; a negative length asks for the string that ends with a 0. -/
def byteArray (mem : Int → Cell) (length : Int) : List Cell :=
  if length < 0 then (contents mem (2 * MB)).takeWhile fun cell => cell.byte ≠ 0
  else contents mem length.toNat

namespace AudioInput

def startCollect (s : AudioInput) (active opened : Bool) : AudioInput :=
  let s := { s with opening := s.opening + 1 }
  if active then s else { s with inputdevice := opened }

def stopCollect (s : AudioInput) (stopped : Bool) : AudioInput :=
  if stopped then s else { s with inputdevice := false }

/-- What `read` returns. -/
def readLength (result : Option Bytes) : Int :=
  match result with
  | some data => data.length
  | none => -1

/-- The read itself. -/
def fill (s : AudioInput) (result : Option Bytes) : AudioInput :=
  { s with
    recvbuf :=
      match result with
      | some data => copied s.recvbuf s.totallen data s.opening
      | none => s.recvbuf
    totallen := s.totallen + readLength result }

section Send

variable (mergeFloat : UInt32 → UInt32 → UInt32) (format : AudioFormat) (wireSpec : Spec)

/-- A block with the channels of the wire, unless there is nothing to send. -/
def normalize (rr : Bytes) : Option Bytes :=
  let bps := format.bytesPerSample
  if 0 < bps ∧ format.channelCount ≠ wireSpec.channelCount then
    let normalized := convertChannels mergeFloat rr format.channelCount wireSpec.channelCount bps
      format.sampleFormat
    if normalized ≠ [] then some normalized else none
  else some rr

/-- The third read is in; make a block and start over. -/
def sendBlock (s : AudioInput) : AudioInput :=
  let rr := byteArray s.recvbuf s.totallen
  let s := { s with cut := s.cut ++ [s.totallen] }
  match normalize mergeFloat format wireSpec (rr.map Cell.byte) with
  | some audio =>
      { s with enqueued := s.enqueued ++ [⟨audio, rr, s.opening⟩], totallen := 0, num := 0 }
  | none => { s with totallen := 0, num := 0 }

def onreadyRead (s : AudioInput) (result : Option Bytes) : AudioInput :=
  if ¬ s.inputdevice ∨ ¬ s.hub then s
  else if s.num < 2 then { s.fill result with num := s.num + 1 }
  else sendBlock mergeFloat format wireSpec (s.fill result)

/-- A read brings at most what it is asked for. -/
def Asked (s : AudioInput) (result : Option Bytes) : Prop :=
  readLength result ≤ 2 * MB - s.totallen

instance (s : AudioInput) (result : Option Bytes) : Decidable (s.Asked result) :=
  inferInstanceAs (Decidable (_ ≤ _))

def step (s : AudioInput) : CaptureEvent → Option AudioInput
  | .startCollect active opened => some (s.startCollect active opened)
  | .stopCollect stopped => some (s.stopCollect stopped)
  | .readyRead result =>
      if s.Asked result then some (s.onreadyRead mergeFloat format wireSpec result) else none

/-! ### What the steps do -/

variable {mergeFloat format wireSpec} {s : AudioInput}

/-- The slot does something: there is a device to read from and a hub to send to. -/
def Reads (s : AudioInput) : Prop := s.inputdevice = true ∧ s.hub = true

theorem onreadyRead_idle (h : ¬ s.Reads) (result : Option Bytes) :
    s.onreadyRead mergeFloat format wireSpec result = s := by
  rw [onreadyRead, if_pos]
  by_contra hboth
  rw [not_or, not_not, not_not] at hboth
  exact h hboth

theorem onreadyRead_count (h : s.Reads) (hnum : s.num < 2) (result : Option Bytes) :
    s.onreadyRead mergeFloat format wireSpec result
      = { s.fill result with num := s.num + 1 } := by
  rw [onreadyRead, if_neg (by simp [h.1, h.2]), if_pos hnum]

theorem onreadyRead_send (h : s.Reads) (hnum : ¬ s.num < 2) (result : Option Bytes) :
    s.onreadyRead mergeFloat format wireSpec result
      = (s.fill result).sendBlock mergeFloat format wireSpec := by
  rw [onreadyRead, if_neg (by simp [h.1, h.2]), if_neg hnum]

variable (mergeFloat format wireSpec) in
/-- A block that is made is sent, or there is nothing to send. -/
theorem sendBlock_cases (s : AudioInput) :
    (∃ audio, normalize mergeFloat format wireSpec
        ((byteArray s.recvbuf s.totallen).map Cell.byte) = some audio ∧
      s.sendBlock mergeFloat format wireSpec =
        { s with cut := s.cut ++ [s.totallen], totallen := 0, num := 0
                 enqueued := s.enqueued ++
                   [⟨audio, byteArray s.recvbuf s.totallen, s.opening⟩] }) ∨
    (normalize mergeFloat format wireSpec
        ((byteArray s.recvbuf s.totallen).map Cell.byte) = none ∧
      s.sendBlock mergeFloat format wireSpec =
        { s with cut := s.cut ++ [s.totallen], totallen := 0, num := 0 }) := by
  rw [sendBlock]
  cases hsent : normalize mergeFloat format wireSpec
      ((byteArray s.recvbuf s.totallen).map Cell.byte) with
  | some audio => exact Or.inl ⟨audio, rfl, rfl⟩
  | none => exact Or.inr ⟨rfl, rfl⟩

theorem step_readyRead {result : Option Bytes} {s' : AudioInput}
    (hstep : s.step mergeFloat format wireSpec (.readyRead result) = some s') :
    s.Asked result ∧ s' = s.onreadyRead mergeFloat format wireSpec result := by
  simp only [step, Option.ite_none_right_eq_some, Option.some.injEq] at hstep
  exact ⟨hstep.1, hstep.2.symm⟩

theorem step_asked {result : Option Bytes} (h : s.Asked result) :
    s.step mergeFloat format wireSpec (.readyRead result)
      = some (s.onreadyRead mergeFloat format wireSpec result) := by
  simp only [step, if_pos h]

/-! ### Staying in the buffer -/

/-- What has been read fits the buffer, and so did every block. -/
structure InRange (s : AudioInput) : Prop where
  nonneg : 0 ≤ s.totallen
  le : s.totallen ≤ 2 * MB
  cut : ∀ n ∈ s.cut, 0 ≤ n ∧ n ≤ 2 * MB

/-- A read that fails has something before it in the block. -/
def FailsLater (s : AudioInput) : CaptureEvent → Prop
  | .readyRead none => s.Reads → 0 < s.totallen
  | _ => True

variable (mergeFloat format wireSpec) in
theorem totallen_sendBlock (s : AudioInput) :
    (s.sendBlock mergeFloat format wireSpec).totallen = 0 ∧
      (s.sendBlock mergeFloat format wireSpec).cut = s.cut ++ [s.totallen] := by
  rcases sendBlock_cases mergeFloat format wireSpec s with ⟨audio, -, heq⟩ | ⟨-, heq⟩
  · rw [heq]
    exact ⟨rfl, rfl⟩
  · rw [heq]
    exact ⟨rfl, rfl⟩

/-- A read keeps to the buffer exactly when the length it leaves does. -/
theorem inRange_onreadyRead (h : s.InRange) (hreads : s.Reads) (result : Option Bytes) :
    (s.onreadyRead mergeFloat format wireSpec result).InRange ↔
      0 ≤ s.totallen + readLength result ∧ s.totallen + readLength result ≤ 2 * MB := by
  by_cases hnum : s.num < 2
  · rw [onreadyRead_count hreads hnum]
    constructor
    · intro hafter
      exact ⟨hafter.nonneg, hafter.le⟩
    · rintro ⟨hlow, hhigh⟩
      exact ⟨hlow, hhigh, h.cut⟩
  · rw [onreadyRead_send hreads hnum]
    obtain ⟨htotal, hcut⟩ := totallen_sendBlock mergeFloat format wireSpec (s.fill result)
    constructor
    · intro hafter
      apply hafter.cut _
      rw [hcut]
      exact List.mem_concat_self
    · rintro hlen
      refine ⟨by rw [htotal], by rw [htotal]; decide, ?_⟩
      intro n hn
      rw [hcut] at hn
      rcases List.mem_append.mp hn with hn | hn
      · exact h.cut n hn
      · rw [List.mem_singleton.mp hn]
        exact hlen

theorem InRange.step (h : s.InRange) {e : CaptureEvent} (hlater : s.FailsLater e)
    {s' : AudioInput} (hstep : s.step mergeFloat format wireSpec e = some s') : s'.InRange := by
  cases e with
  | startCollect active opened =>
      simp only [AudioInput.step, Option.some.injEq] at hstep
      rw [← hstep, startCollect]
      split <;> exact ⟨h.nonneg, h.le, h.cut⟩
  | stopCollect stopped =>
      simp only [AudioInput.step, Option.some.injEq] at hstep
      rw [← hstep, stopCollect]
      split <;> exact ⟨h.nonneg, h.le, h.cut⟩
  | readyRead result =>
      obtain ⟨hasked, rfl⟩ := step_readyRead hstep
      by_cases hreads : s.Reads
      · rw [inRange_onreadyRead h hreads]
        have hnonneg := h.nonneg
        have hasked' : readLength result ≤ 2 * MB - s.totallen := hasked
        cases result with
        | some data =>
            have hlen : (0 : Int) ≤ readLength (some data) := Int.natCast_nonneg _
            omega
        | none =>
            have hfails : 0 < s.totallen := hlater hreads
            have hlen : readLength none = -1 := rfl
            omega
      · rw [onreadyRead_idle hreads]
        exact h

theorem InRange.spoiled (h : s.InRange) {e : CaptureEvent} (hnot : ¬ s.FailsLater e) :
    ∃ s', s.step mergeFloat format wireSpec e = some s' ∧ ¬ s'.InRange := by
  cases e with
  | startCollect active opened => exact absurd trivial hnot
  | stopCollect stopped => exact absurd trivial hnot
  | readyRead result =>
      cases result with
      | some data => exact absurd trivial hnot
      | none =>
          obtain ⟨hreads, hempty⟩ := Classical.not_imp.mp hnot
          have hlen : readLength none = -1 := rfl
          have hle := h.le
          have hasked : s.Asked none := by
            show readLength none ≤ 2 * MB - s.totallen
            omega
          refine ⟨_, step_asked hasked, ?_⟩
          rw [inRange_onreadyRead h hreads]
          omega

variable (mergeFloat format wireSpec) in
/-- **The buffer is never left exactly when** no read fails while the block is empty. -/
theorem inRange_iff (hub : Bool) (recvbuf : Int → Cell) (es : List CaptureEvent) :
    Throughout (step mergeFloat format wireSpec) InRange { hub := hub, recvbuf := recvbuf } es ↔
      Steps (step mergeFloat format wireSpec) FailsLater { hub := hub, recvbuf := recvbuf } es := by
  constructor
  · exact steps_of_throughout fun _ _ h hnot => h.spoiled hnot
  · apply throughout_of_step (fun _ _ _ h hlater hstep => h.step hlater hstep)
    exact ⟨Int.le_refl 0, (by decide : (0 : Int) ≤ 2 * MB), fun n hn => absurd hn List.not_mem_nil⟩

/-- A stereo device. -/
def sampleStep : AudioInput → CaptureEvent → Option AudioInput :=
  step (fun l _ => l) { sampleRate := 48000, channelCount := 2, sampleFormat := .int16 }
    sessionWirePcmSpec

/-- The first read fails; the next one writes before the buffer. -/
theorem beforeBuffer : ¬ Throughout sampleStep InRange {}
    [.startCollect false true, .readyRead none] := by
  intro h
  let opened : AudioInput := startCollect {} false true
  have hafter := ((h.2 opened rfl).2 _ (step_asked (by decide))).head.nonneg
  rw [onreadyRead_count ⟨rfl, rfl⟩ (by decide)] at hafter
  exact absurd hafter (by decide)

/-! ### What a block is made of -/

/-- Every block that was sent is made of what was read after the last call of `startCollect`. -/
def Fresh (s : AudioInput) : Prop :=
  ∀ block ∈ s.enqueued, ∀ cell ∈ block.raw, cell.opening = block.opening

/-- A call that leaves a device to be read from finds an empty block; and a block that is made has
not lost more than was read for it. -/
def StartsEmpty (s : AudioInput) : CaptureEvent → Prop
  | .startCollect active opened =>
      (s.startCollect active opened).inputdevice = true → s.totallen ≤ 0
  | .readyRead result => s.Reads → ¬ s.num < 2 → 0 ≤ s.totallen + readLength result
  | .stopCollect _ => True

instance (s : AudioInput) : Decidable s.Reads := inferInstanceAs (Decidable (_ ∧ _))

instance (s : AudioInput) : ∀ e, Decidable (s.StartsEmpty e)
  | .startCollect _ _ => inferInstanceAs (Decidable (_ → s.totallen ≤ 0))
  | .readyRead result =>
      inferInstanceAs (Decidable (s.Reads → ¬ s.num < 2 → 0 ≤ s.totallen + readLength result))
  | .stopCollect _ => isTrue trivial

/-- What is in the unfinished block was read after the last call of `startCollect`, unless there is
no device to finish it from. -/
structure Held (s : AudioInput) : Prop where
  fresh : s.Fresh
  held : s.inputdevice = true → ∀ i, 0 ≤ i → i < s.totallen → (s.recvbuf i).opening = s.opening

theorem Held.fill (h : s.Held) (result : Option Bytes) : (s.fill result).Held := by
  refine ⟨h.fresh, fun hdevice i hi hlt => ?_⟩
  cases result with
  | none =>
      have hlt' : i < s.totallen + -1 := hlt
      exact h.held hdevice i hi (by omega)
  | some data =>
      show (copied s.recvbuf s.totallen data s.opening i).opening = s.opening
      unfold copied
      split
      · rename_i hle
        have hlt' : i < s.totallen + data.length := hlt
        rw [List.getElem?_eq_getElem (by omega)]
      · rename_i hbefore
        exact h.held hdevice i hi (by omega)

theorem Held.sendBlock (h : s.Held) (hdevice : s.inputdevice = true) (hlen : 0 ≤ s.totallen) :
    (s.sendBlock mergeFloat format wireSpec).Held := by
  have hraw : ∀ cell ∈ byteArray s.recvbuf s.totallen, cell.opening = s.opening := by
    intro cell hcell
    rw [byteArray, if_neg (by omega)] at hcell
    obtain ⟨i, hi, rfl⟩ := List.mem_map.mp hcell
    have hi' := List.mem_range.mp hi
    exact h.held hdevice i (by omega) (by omega)
  have hnothing : ∀ i : Int, 0 ≤ i → i < 0 → (s.recvbuf i).opening = s.opening := by
    intro i hi hlt
    omega
  rcases sendBlock_cases mergeFloat format wireSpec s with ⟨audio, -, heq⟩ | ⟨-, heq⟩
  · rw [heq]
    refine ⟨fun block hblock => ?_, fun _ => hnothing⟩
    rcases List.mem_append.mp hblock with hold | hnew
    · exact h.fresh block hold
    · rw [List.mem_singleton.mp hnew]
      exact hraw
  · rw [heq]
    exact ⟨h.fresh, fun _ => hnothing⟩

theorem Held.step (h : s.Held) {e : CaptureEvent} (hempty : s.StartsEmpty e) {s' : AudioInput}
    (hstep : s.step mergeFloat format wireSpec e = some s') : s'.Held := by
  cases e with
  | startCollect active opened =>
      obtain rfl := Option.some.inj hstep
      have hkept : (s.startCollect active opened).totallen = s.totallen ∧
          (s.startCollect active opened).enqueued = s.enqueued := by
        unfold startCollect
        split <;> exact ⟨rfl, rfl⟩
      refine ⟨fun block hblock => h.fresh block (hkept.2 ▸ hblock), fun hdevice i hi hlt => ?_⟩
      have hnothing : s.totallen ≤ 0 := hempty hdevice
      rw [hkept.1] at hlt
      omega
  | stopCollect stopped =>
      simp only [AudioInput.step, Option.some.injEq] at hstep
      rw [← hstep, stopCollect]
      split
      · exact h
      · exact ⟨h.fresh, fun hdevice => absurd hdevice Bool.false_ne_true⟩
  | readyRead result =>
      obtain ⟨-, rfl⟩ := step_readyRead hstep
      by_cases hreads : s.Reads
      · by_cases hnum : s.num < 2
        · rw [onreadyRead_count hreads hnum]
          exact ⟨(h.fill result).fresh, (h.fill result).held⟩
        · rw [onreadyRead_send hreads hnum]
          exact (h.fill result).sendBlock hreads.1 (hempty hreads hnum)
      · rw [onreadyRead_idle hreads]
        exact h

variable (mergeFloat format wireSpec) in
/-- **Nothing from before the microphone was opened is sent** in a run in which it is opened
only while the block is empty. -/
theorem freshBlocks (hub : Bool) (recvbuf : Int → Cell) {es : List CaptureEvent}
    (h : Steps (step mergeFloat format wireSpec) StartsEmpty
      { hub := hub, recvbuf := recvbuf } es) :
    Throughout (step mergeFloat format wireSpec) Fresh
      { hub := hub, recvbuf := recvbuf } es := by
  have hinit : Held { hub := hub, recvbuf := recvbuf } := by
    refine ⟨fun block hblock => absurd hblock List.not_mem_nil, fun _ i hi hlt => ?_⟩
    have hlt' : i < 0 := hlt
    omega
  exact (throughout_of_step (fun _ _ _ hs hempty hstep => hs.step hempty hstep) hinit h).mono
    fun _ hs => hs.fresh

/-- One block before a pause, another one after it. -/
theorem freshBlocks_sampleBlocks : Throughout sampleStep Fresh {}
    [.startCollect false true, .readyRead (some [1]), .readyRead (some [2]), .readyRead (some [3]),
      .stopCollect false, .startCollect false true, .readyRead (some [4]), .readyRead (some [5]),
      .readyRead (some [6])] :=
  freshBlocks _ _ _ true (fun _ => {}) (by decide)

/-- A pause after the first read: the block has one byte from before it and two from after. -/
theorem mixedBlock : ¬ Throughout sampleStep Fresh {}
    [.startCollect false true, .readyRead (some [1]), .stopCollect false,
      .startCollect false true, .readyRead (some [2]), .readyRead (some [3])] := by
  intro h
  have hlast := h.last rfl _ List.mem_cons_self _ List.mem_cons_self
  exact absurd hlast (by decide)

end Send

end AudioInput

end CloudMeeting.Audio
