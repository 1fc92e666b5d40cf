/-
The end of the program, and the threads of sound.

`shutdown_all_workers` lets go of the network, which destroys the hub with its queues, and
looks after the threads of sound only then.  Both hold a plain pointer to the hub: the thread
of `AudioInput` hands its blocks in there, the one of `AudioOutput` waits there for what to
play, and `stopImmediately` wakes it up there.

So the hub is touched after it is gone, in every run, unless the thread that plays had
returned already; and it returns by itself only where the device has refused a chunk
(`shutdown`).
-/
import CloudMeeting.Audio.Capture
import CloudMeeting.Audio.Reception

namespace CloudMeeting.Audio

open Run

/-- How far `shutdown_all_workers` has come. -/
inductive ShutdownStage where
  | working
  /-- The session is ended, and the window's thread handles no events any more. -/
  | sessionEnded
  /-- The network is stopped and let go of. -/
  | hubDestroyed
  /-- The thread that captures has ended. -/
  | captureEnded
  | finished
deriving DecidableEq, Repr

/-- There is no hub any more. -/
def ShutdownStage.gone : ShutdownStage → Bool
  | .working | .sessionEnded => false
  | .hubDestroyed | .captureEnded | .finished => true

/-- The two threads of sound, and the window's thread. -/
structure Workers where
  input : AudioInput := {}
  reception : Reception := {}
  stage : ShutdownStage := .working
  /-- The hub has been touched after it was destroyed. -/
  dangling : Bool := false

inductive WorkersEvent where
  | capture (e : CaptureEvent)
  | sound (e : ReceptionEvent)
  /-- The next step of `shutdown_all_workers`. -/
  | shutdown

/-- The thread that plays looks into the queue, or the IO thread does. -/
def ReceptionEvent.touchesHub : ReceptionEvent → Bool
  | .arrive .. | .clear _ | .take | .output .nothing => true
  | _ => false

/-- The IO thread ends with the network, and the window handles no events during the shutdown. -/
def ShutdownStage.permits (stage : ShutdownStage) : ReceptionEvent → Prop
  | .arrive .. | .clear _ => stage.gone = false
  | .output (.startPlay ..) | .output .stopPlay => stage = .working
  | .output .stopImmediately => False
  | _ => True

instance (stage : ShutdownStage) : DecidablePred stage.permits
  | .arrive .. => inferInstanceAs (Decidable (_ = _))
  | .clear _ => inferInstanceAs (Decidable (_ = _))
  | .output (.startPlay ..) => inferInstanceAs (Decidable (_ = _))
  | .output .stopPlay => inferInstanceAs (Decidable (_ = _))
  | .output .stopImmediately => isFalse id
  | .output (.packet ..) => isTrue trivial
  | .output .nothing => isTrue trivial
  | .take => isTrue trivial
  | .play _ => isTrue trivial

namespace Workers

variable (mergeFloat : UInt32 → UInt32 → UInt32) (inFormat outFormat : AudioFormat)

def touch (s : Workers) (touches : Bool) : Workers :=
  { s with dangling := s.dangling || (touches && s.stage.gone) }

/-- `stopImmediately`, for a thread that is still running. -/
def stopImmediately (s : Workers) : Workers :=
  if s.reception.output.running then
    let output := { s.reception.output with canRun := false }
    { s with reception := { s.reception with output := output },
             dangling := s.dangling || s.stage.gone }
  else s

def shutdownAllWorkers (s : Workers) : Option Workers :=
  match s.stage with
  | .working => some { s with stage := .sessionEnded }
  | .sessionEnded => some { s with stage := .hubDestroyed }
  | .hubDestroyed => some { s with stage := .captureEnded }
  | .captureEnded => some { s.stopImmediately with stage := .finished }
  | .finished => none

def step (s : Workers) : WorkersEvent → Option Workers
  | .capture e =>
      if s.stage = .captureEnded ∨ s.stage = .finished then none
      else (s.input.step mergeFloat inFormat sessionWirePcmSpec e).map fun input =>
        { s with input := input }.touch (s.input.enqueued.length < input.enqueued.length)
  | .sound e =>
      if s.stage.permits e then (s.reception.step mergeFloat outFormat e).map fun reception =>
        { s with reception := reception }.touch e.touchesHub
      else none
  | .shutdown => s.shutdownAllWorkers

variable {mergeFloat inFormat outFormat} {s s' t : Workers}

/-! ### The thread that plays -/

/-- A thread that runs and may go on running. -/
def Goes (o : AudioOutput) : Prop := o.running = true ∧ o.canRun = true

theorem Goes.loop {o : AudioOutput} (h : Goes o) : o.loop = o :=
  if_neg fun hends => hends.2 h.2

/-- A chunk that is not refused leaves the thread going. -/
theorem Goes.play {o : AudioOutput} (h : Goes o) {ret : Int}
    (hkept : 0 ≤ ret ∨ (o.play outFormat ret).chunks = o.chunks) : Goes (o.play outFormat ret) := by
  by_cases hchunk : outFormat.frame125ms ≤ o.buffer.length
  · rw [AudioOutput.play, if_pos hchunk] at hkept ⊢
    by_cases hret : ret < 0
    · rcases hkept with hnonneg | hchunks
      · omega
      · simp [hret] at hchunks
    · simp only [if_neg hret]
      exact h
  · rw [AudioOutput.play_wait hchunk]
    exact h

theorem Goes.process {o : AudioOutput} (h : Goes o) {audio : Bytes} {ret : Int}
    (hkept : 0 ≤ ret ∨ (o.process mergeFloat outFormat audio ret).chunks = o.chunks) :
    Goes (o.process mergeFloat outFormat audio ret) := by
  unfold AudioOutput.process at hkept ⊢
  by_cases hdevice : o.outputdevice = true
  · rw [if_pos hdevice] at hkept ⊢
    cases hpcm : AudioOutput.forDevice mergeFloat outFormat audio with
    | none => exact h
    | some pcm =>
        simp only [hpcm] at hkept ⊢
        exact Goes.play (o := { o with buffer := o.buffer ++ pcm }) h hkept
  · rw [if_neg hdevice]
    exact h

/-- Nothing but a refused chunk and `stopImmediately` keeps the thread from going on. -/
theorem Goes.next {r r' : Reception} {e : ReceptionEvent} (h : Goes r.output)
    (hstep : r.step mergeFloat outFormat e = some r') (hother : e ≠ .output .stopImmediately)
    (hkept : ∀ ret, e = .play ret → 0 ≤ ret ∨ r'.output.chunks = r.output.chunks) :
    Goes r'.output := by
  cases e with
  | arrive msg locked =>
      obtain rfl := Option.some.inj hstep
      exact h
  | clear locked =>
      obtain rfl := Option.some.inj hstep
      exact h
  | take =>
      simp only [Reception.step] at hstep
      split at hstep
      · simp at hstep
      · simp only [Option.ite_none_right_eq_some, Option.some.injEq] at hstep
        obtain ⟨-, rfl⟩ := hstep
        exact h
  | play ret =>
      obtain ⟨msg, -, hplay⟩ := Reception.step_play hstep
      simp only [Reception.play, AudioOutput.step, Option.map_eq_some_iff,
        Option.ite_none_right_eq_some, Option.some.injEq] at hplay
      obtain ⟨output, ⟨-, rfl⟩, rfl⟩ := hplay
      have hloop := AudioOutput.loop_cases (r.output.process mergeFloat outFormat msg.audio ret)
      have hkept : 0 ≤ ret ∨ (r.output.process mergeFloat outFormat msg.audio ret).chunks
          = r.output.chunks := by
        rcases hkept ret rfl with hnonneg | hchunks
        · exact Or.inl hnonneg
        · rcases hloop with hloop | hloop
          · exact Or.inr (by rw [hloop] at hchunks; exact hchunks)
          · exact Or.inr (by rw [hloop] at hchunks; exact hchunks)
      have hgoes := h.process hkept
      show Goes (AudioOutput.loop _)
      rw [hgoes.loop]
      exact hgoes
  | output e =>
      obtain ⟨output, houtput, rfl, hplain⟩ := Reception.step_output hstep
      cases e with
      | packet audio ret => exact absurd rfl (hplain audio ret)
      | nothing =>
          simp only [AudioOutput.step, Option.ite_none_right_eq_some, Option.some.injEq] at houtput
          obtain ⟨-, rfl⟩ := houtput
          rw [h.loop]
          exact h
      | startPlay active opened =>
          obtain rfl := Option.some.inj houtput
          cases active with
          | true => exact h
          | false => exact h
      | stopPlay =>
          obtain rfl := Option.some.inj houtput
          exact h
      | stopImmediately => exact absurd rfl hother

/-! ### The hub -/

section Hub

variable (mergeFloat outFormat) in
/-- The device refuses a chunk. -/
def Refuses (s : Workers) : WorkersEvent → Prop
  | .sound (.play ret) => ret < 0 ∧
      ∀ r ∈ s.reception.step mergeFloat outFormat (.play ret),
        r.output.chunks ≠ s.reception.output.chunks
  | _ => False

variable (mergeFloat inFormat) in
/-- No block is completed once the hub is gone. -/
def NoBlock (s : Workers) : WorkersEvent → Prop
  | .capture e => s.stage.gone = true →
      ∀ input ∈ s.input.step mergeFloat inFormat sessionWirePcmSpec e,
        ¬ s.input.enqueued.length < input.enqueued.length
  | _ => True

theorem step_capture {e : CaptureEvent}
    (h : s.step mergeFloat inFormat outFormat (.capture e) = some s') :
    s.stage ≠ .finished ∧ ∃ input,
      s.input.step mergeFloat inFormat sessionWirePcmSpec e = some input ∧
      s' = { s with input := input }.touch (s.input.enqueued.length < input.enqueued.length) := by
  simp only [step, Option.ite_none_left_eq_some, Option.map_eq_some_iff, not_or] at h
  obtain ⟨⟨-, hfinished⟩, input, hinput, rfl⟩ := h
  exact ⟨hfinished, input, hinput, rfl⟩

theorem step_sound {e : ReceptionEvent}
    (h : s.step mergeFloat inFormat outFormat (.sound e) = some s') :
    s.stage.permits e ∧ ∃ reception, s.reception.step mergeFloat outFormat e = some reception ∧
      s' = { s with reception := reception }.touch e.touchesHub := by
  simp only [step, Option.ite_none_right_eq_some, Option.map_eq_some_iff] at h
  obtain ⟨hpermits, reception, hreception, rfl⟩ := h
  exact ⟨hpermits, reception, hreception, rfl⟩

/-- Until the end the thread goes on, and then the hub has been touched. -/
structure Restless (s : Workers) : Prop where
  goes : s.stage ≠ .finished → Goes s.reception.output
  dangles : s.stage = .finished → s.dangling = true

theorem restless_init : Restless {} := ⟨fun _ => ⟨rfl, rfl⟩, fun h => by simp at h⟩

theorem Restless.step {e : WorkersEvent} (h : Restless s)
    (he : ¬ Refuses mergeFloat outFormat s e)
    (hstep : s.step mergeFloat inFormat outFormat e = some s') : Restless s' := by
  cases e with
  | capture e =>
      obtain ⟨hfinished, input, -, rfl⟩ := step_capture hstep
      exact ⟨h.goes, fun hend => absurd hend hfinished⟩
  | sound e =>
      obtain ⟨hpermits, reception, hreception, rfl⟩ := step_sound hstep
      refine ⟨fun hnot => ?_, fun hend => ?_⟩
      · refine (h.goes hnot).next hreception ?_ fun ret hplay => ?_
        · rintro rfl
          exact hpermits
        · subst hplay
          by_contra hboth
          rw [not_or, Int.not_le] at hboth
          refine he ⟨hboth.1, fun r hr => ?_⟩
          obtain rfl : r = reception := Option.some.inj (hr.symm.trans hreception)
          exact hboth.2
      · exact (Bool.or_eq_true _ _).mpr (Or.inl (h.dangles hend))
  | shutdown =>
      simp only [Workers.step, shutdownAllWorkers] at hstep
      cases hstage : s.stage with
      | captureEnded =>
          simp only [hstage, Option.some.injEq] at hstep
          have hgoes := h.goes (by simp [hstage])
          rw [← hstep, stopImmediately, if_pos hgoes.1]
          refine ⟨fun hnot => absurd rfl hnot, fun _ => ?_⟩
          show (s.dangling || s.stage.gone) = true
          rw [hstage]
          exact Bool.or_true _
      | finished => simp [hstage] at hstep
      | _ =>
          simp only [hstage, Option.some.injEq] at hstep
          rw [← hstep]
          exact ⟨fun _ => h.goes (by simp [hstage]), fun hend => by simp at hend⟩

/-- As long as there is a hub it is there to be touched. -/
theorem dangling_step {e : WorkersEvent} (h : s.stage.gone = false → s.dangling = false)
    (hstep : s.step mergeFloat inFormat outFormat e = some s') :
    s'.stage.gone = false → s'.dangling = false := by
  cases e with
  | capture e =>
      obtain ⟨-, input, -, rfl⟩ := step_capture hstep
      intro hthere
      have hthere : s.stage.gone = false := hthere
      simp [touch, h hthere, hthere]
  | sound e =>
      obtain ⟨-, reception, -, rfl⟩ := step_sound hstep
      intro hthere
      have hthere : s.stage.gone = false := hthere
      simp [touch, h hthere, hthere]
  | shutdown =>
      simp only [step, shutdownAllWorkers] at hstep
      cases hstage : s.stage with
      | working =>
          simp only [hstage, Option.some.injEq] at hstep
          rw [← hstep]
          exact fun _ => h (by rw [hstage]; rfl)
      | finished => simp [hstage] at hstep
      | _ =>
          simp only [hstage, Option.some.injEq] at hstep
          rw [← hstep]
          exact fun hthere => by simp [ShutdownStage.gone] at hthere

/-- A thread that has returned leaves the hub alone. -/
structure Spared (s : Workers) : Prop where
  ended : s.reception.Over
  untouched : s.dangling = false

theorem Spared.step {e : WorkersEvent} (h : Spared s) (he : NoBlock mergeFloat inFormat s e)
    (hstep : s.step mergeFloat inFormat outFormat e = some s') : Spared s' := by
  cases e with
  | capture e =>
      obtain ⟨-, input, hinput, rfl⟩ := step_capture hstep
      refine ⟨h.ended, ?_⟩
      cases hgone : s.stage.gone with
      | false => simp [touch, h.untouched, hgone]
      | true =>
          have hnone := he hgone input hinput
          simp [touch, h.untouched, hnone]
  | sound e =>
      obtain ⟨hpermits, reception, hreception, rfl⟩ := step_sound hstep
      obtain ⟨-, hover, htake⟩ := h.ended.next hreception
      refine ⟨hover, ?_⟩
      have hquiet : (e.touchesHub && s.stage.gone) = false := by
        cases e with
        | arrive msg locked =>
            have hthere : s.stage.gone = false := hpermits
            rw [hthere, Bool.and_false]
        | clear locked =>
            have hthere : s.stage.gone = false := hpermits
            rw [hthere, Bool.and_false]
        | take => exact absurd rfl htake
        | play ret => rfl
        | output e =>
            cases e with
            | nothing =>
                obtain ⟨output, houtput, -⟩ := Reception.step_output hreception
                simp [AudioOutput.step, h.ended.1] at houtput
            | _ => rfl
      show (s.dangling || (e.touchesHub && s.stage.gone)) = false
      rw [h.untouched, hquiet, Bool.or_false]
  | shutdown =>
      simp only [Workers.step, shutdownAllWorkers] at hstep
      cases hstage : s.stage with
      | captureEnded =>
          simp only [hstage, Option.some.injEq] at hstep
          rw [← hstep, stopImmediately, if_neg (by rw [h.ended.1]; simp)]
          exact ⟨h.ended, h.untouched⟩
      | finished => simp [hstage] at hstep
      | _ =>
          simp only [hstage, Option.some.injEq] at hstep
          rw [← hstep]
          exact ⟨h.ended, h.untouched⟩

variable (mergeFloat inFormat outFormat) in
/-- What is known of a run to the end of the program. -/
structure ShutDown (es : List WorkersEvent) (t : Workers) : Prop where
  /-- Where the device has taken everything, the hub is touched after it was destroyed. -/
  touched : Steps (step mergeFloat inFormat outFormat)
    (fun s e => ¬ Refuses mergeFloat outFormat s e) {} es → t.dangling = true
  /-- Where the thread that plays had returned before, and no block is completed after, it is
  not. -/
  spared : ∀ before after s, es = before ++ after →
    run (step mergeFloat inFormat outFormat) {} before = some s → s.stage.gone = false →
    s.reception.Over →
    Steps (step mergeFloat inFormat outFormat) (NoBlock mergeFloat inFormat) s after →
    t.dangling = false

variable (mergeFloat inFormat outFormat) in
/-- **The hub is touched after it was destroyed, unless the device had refused a chunk**, however
the threads take turns. -/
theorem shutdown {es : List WorkersEvent}
    (hrun : run (step mergeFloat inFormat outFormat) {} es = some t) (hend : t.stage = .finished) :
    ShutDown mergeFloat inFormat outFormat es t where
  touched hkept :=
    ((throughout_of_step (I := Restless) (fun _ _ _ h he hstep => h.step he hstep) restless_init
      hkept).last hrun).dangles hend
  spared before after s hsplit hbefore hthere hover hquiet := by
    have huntouched := run_invariant (I := fun s : Workers => s.stage.gone = false →
      s.dangling = false) (fun _ _ _ h hstep => dangling_step h hstep) (fun _ => rfl) hbefore
    rw [hsplit, run_append, hbefore, Option.bind_some] at hrun
    exact ((throughout_of_step (I := Spared) (fun _ _ _ h he hstep => h.step he hstep)
      ⟨hover, huntouched hthere⟩ hquiet).last hrun).untouched

end Hub

instance (mergeFloat : UInt32 → UInt32 → UInt32) (format : AudioFormat) (s : Workers) :
    DecidablePred (Refuses mergeFloat format s)
  | .sound (.play _) => inferInstanceAs (Decidable (_ ∧ _))
  | .sound (.arrive ..) => isFalse id
  | .sound (.clear _) => isFalse id
  | .sound .take => isFalse id
  | .sound (.output _) => isFalse id
  | .capture _ => isFalse id
  | .shutdown => isFalse id

/-- The device takes a chunk, or refuses it. -/
def sampleSound (ret : Int) : List WorkersEvent :=
  [.sound (.output (.startPlay false true)), .sound (.arrive ⟨7, [1, 2, 3]⟩ true), .sound .take,
    .sound (.play ret)]

def sampleQuit : List WorkersEvent := List.replicate 4 .shutdown

/-- Steps on a slow device. -/
def slowStep : Workers → WorkersEvent → Option Workers :=
  step (fun l _ => l) AudioOutput.slowFormat AudioOutput.slowFormat

/-- The program ends while somebody speaks, or after the device has failed. -/
theorem shutdown_sampleSound :
    (∃ t, run slowStep {} (sampleSound 2 ++ sampleQuit) = some t ∧ t.dangling = true) ∧
      ∃ t, run slowStep {} (sampleSound (-1) ++ sampleQuit) = some t ∧ t.dangling = false := by
  have hends : ∀ ret ∈ [2, -1], (run slowStep {} (sampleSound ret ++ sampleQuit)).map (·.stage)
      = some .finished := by decide
  constructor
  · obtain ⟨t, hrun, hend⟩ := Option.map_eq_some_iff.mp (hends 2 (by decide))
    have hkept : Steps slowStep
        (fun s e => ¬ Refuses (fun l _ => l) AudioOutput.slowFormat s e) {}
        (sampleSound 2 ++ sampleQuit) := by decide
    exact ⟨t, hrun, (shutdown (fun l _ => l) _ _ hrun hend).touched hkept⟩
  · obtain ⟨t, hrun, hend⟩ := Option.map_eq_some_iff.mp (hends (-1) (by decide))
    have hover : (run slowStep {} (sampleSound (-1))).map
        (fun s => (s.stage, s.reception.output.running, s.reception.hand))
        = some (.working, false, none) := by decide
    obtain ⟨s, hbefore, hs⟩ := Option.map_eq_some_iff.mp hover
    simp only [Prod.mk.injEq] at hs
    obtain ⟨hstage, hended, hhand⟩ := hs
    have hquiet : Steps slowStep (NoBlock (fun l _ => l) AudioOutput.slowFormat) s sampleQuit :=
      Steps.of_mem fun _ e he => by
        obtain rfl := List.eq_of_mem_replicate he
        trivial
    exact ⟨t, hrun, (shutdown (fun l _ => l) _ _ hrun hend).spared _ _ s rfl hbefore
      (by rw [hstage]; rfl) ⟨hended, hhand⟩ hquiet⟩

end Workers

end CloudMeeting.Audio
