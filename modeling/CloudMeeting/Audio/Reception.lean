/-
Sound on its way to the device.

The IO thread pushes the sound it receives to a queue of the hub, and the thread of
`AudioOutput` takes it off there and plays it.  The window starts and stops the device
meanwhile, and the queue is cleared when a connection begins or ends.  Every step of one
of them is one step here, and they come in any order.

A push to a full queue waits for two seconds, and leaves the packet out if there is still
no room then: the packet that is too much is the newest one, not the oldest as in the queue
for sending.  What is heard is what was received, in its order, as far as it was not left
out, cleared, or dropped with a device (`reception`).  A device that refuses a chunk ends
the thread, and nothing is taken off the queue from then on (`reception_over`).
-/
import CloudMeeting.Audio.Playback
import CloudMeeting.Client.SendQueue
import CloudMeeting.Lib.Refusing

namespace CloudMeeting.Audio

open Blocks Run
open DropOldest (Op pushes pushes_append)
open Client (queueMaxsize)

structure RecvAudioMessage where
  ip : UInt32
  audio : Bytes
deriving DecidableEq, Repr

/-- The queue, the thread that plays, and what it has played. -/
structure Reception where
  /-- `recv_audio_queue_`. -/
  queue : List RecvAudioMessage := []
  /-- What the thread has taken and not played yet. -/
  hand : Option RecvAudioMessage := none
  output : AudioOutput := {}
  /-- The messages the thread is done with. -/
  handled : List RecvAudioMessage := []
  /-- The signals `speaker`. -/
  speakers : List UInt32 := []
deriving DecidableEq, Repr

inductive ReceptionEvent where
  /-- The IO thread pushes; it gets the lock in two seconds, or does not. -/
  | arrive (msg : RecvAudioMessage) (locked : Bool)
  /-- The queue is cleared, unless the lock is taken all eight times. -/
  | clear (locked : Bool)
  /-- The thread takes the front of the queue. -/
  | take
  /-- It plays what it has taken; `ret` is what `write` returns, should it be called. -/
  | play (ret : Int)
  /-- Anything else that happens to the thread and its device. -/
  | output (e : PlaybackEvent)

/-- `MessageQueue::push`. -/
def pushAudio (queue : List RecvAudioMessage) (msg : RecvAudioMessage) (locked : Bool) :
    List RecvAudioMessage :=
  if locked then
    if queue.length < queueMaxsize then queue ++ [msg] else queue
  else queue

namespace Reception

section Receive

variable (mergeFloat : UInt32 → UInt32 → UInt32) (format : AudioFormat)

/-- The thread plays what it holds, and says who speaks when a chunk was written. -/
def play (s : Reception) (msg : RecvAudioMessage) (ret : Int) : Option Reception :=
  (s.output.step mergeFloat format (.packet msg.audio ret)).map fun output =>
    { s with
      hand := none
      output := output
      handled := s.handled ++ [msg]
      speakers := if s.output.chunks.length < output.chunks.length ∧ 0 ≤ ret then
        s.speakers ++ [msg.ip] else s.speakers }

def step (s : Reception) : ReceptionEvent → Option Reception
  | .arrive msg locked => some { s with queue := pushAudio s.queue msg locked }
  | .clear locked => some { s with queue := if locked then [] else s.queue }
  | .take =>
      match s.queue with
      | [] => none
      | msg :: queue =>
          if s.output.running ∧ s.hand = none then
            some { s with queue := queue, hand := some msg }
          else none
  | .play ret =>
      match s.hand with
      | none => none
      | some msg => s.play mergeFloat format msg ret
  | .output (.packet ..) => none
  | .output .nothing =>
      if s.hand = none then
        (s.output.step mergeFloat format .nothing).map fun output => { s with output := output }
      else none
  | .output e => (s.output.step mergeFloat format e).map fun output => { s with output := output }

/-! ### The queue -/

variable {mergeFloat format} {s s' t : Reception}

/-- What an event does to the queue. -/
def queueOp : ReceptionEvent → List (Op RecvAudioMessage)
  | .arrive msg true => [.push msg]
  | .clear true => [.clear]
  | .take => [.pop]
  | _ => []

def arrivals : List ReceptionEvent → List RecvAudioMessage
  | [] => []
  | .arrive msg _ :: es => msg :: arrivals es
  | _ :: es => arrivals es

/-- The messages that have come off the queue. -/
def taken (s : Reception) : List RecvAudioMessage := s.handled ++ s.hand.toList

/-- An event of the thread and its device alone. -/
theorem step_output {e : PlaybackEvent} (h : s.step mergeFloat format (.output e) = some s') :
    ∃ output, s.output.step mergeFloat format e = some output ∧ s' = { s with output := output } ∧
      ∀ audio ret, e ≠ .packet audio ret := by
  cases e with
  | packet audio ret => simp [step] at h
  | nothing =>
      simp only [step, Option.ite_none_right_eq_some, Option.map_eq_some_iff] at h
      obtain ⟨-, output, houtput, rfl⟩ := h
      exact ⟨output, houtput, rfl, by simp⟩
  | startPlay active opened =>
      simp only [step, Option.map_eq_some_iff] at h
      obtain ⟨output, houtput, rfl⟩ := h
      exact ⟨output, houtput, rfl, by simp⟩
  | stopPlay =>
      simp only [step, Option.map_eq_some_iff] at h
      obtain ⟨output, houtput, rfl⟩ := h
      exact ⟨output, houtput, rfl, by simp⟩
  | stopImmediately =>
      simp only [step, Option.map_eq_some_iff] at h
      obtain ⟨output, houtput, rfl⟩ := h
      exact ⟨output, houtput, rfl, by simp⟩

theorem step_play {ret : Int} (h : s.step mergeFloat format (.play ret) = some s') :
    ∃ msg, s.hand = some msg ∧ s.play mergeFloat format msg ret = some s' := by
  simp only [step] at h
  cases hhand : s.hand with
  | none => simp [hhand] at h
  | some msg => exact ⟨msg, rfl, by simpa [hhand] using h⟩

/-- One step is an operation of a queue that refuses what it has no room for. -/
theorem step_queue {e : ReceptionEvent} (h : s.step mergeFloat format e = some s') :
    ∃ out, s'.taken = s.taken ++ out ∧
      Refusing.run queueMaxsize s.queue (queueOp e) = (out, s'.queue) := by
  cases e with
  | arrive msg locked =>
      obtain rfl := Option.some.inj h
      refine ⟨[], by simp [taken], ?_⟩
      cases locked <;> simp [queueOp, Refusing.run, Refusing.step, Refusing.push, pushAudio]
  | clear locked =>
      obtain rfl := Option.some.inj h
      refine ⟨[], by simp [taken], ?_⟩
      cases locked <;> simp [queueOp, Refusing.run, Refusing.step]
  | take =>
      simp only [step] at h
      cases hqueue : s.queue with
      | nil => simp [hqueue] at h
      | cons msg queue =>
          simp only [hqueue, Option.ite_none_right_eq_some, Option.some.injEq] at h
          obtain ⟨⟨-, hhand⟩, rfl⟩ := h
          exact ⟨[msg], by simp [taken, hhand], by simp [queueOp, Refusing.run, Refusing.step]⟩
  | play ret =>
      obtain ⟨msg, hhand, hplay⟩ := step_play h
      simp only [play, Option.map_eq_some_iff] at hplay
      obtain ⟨output, -, rfl⟩ := hplay
      exact ⟨[], by simp [taken, hhand], by simp [queueOp, Refusing.run]⟩
  | output e =>
      obtain ⟨output, -, rfl, -⟩ := step_output h
      exact ⟨[], by simp [taken], by simp [queueOp, Refusing.run]⟩

/-- So is a run. -/
theorem run_queue {es : List ReceptionEvent} (h : run (step mergeFloat format) s es = some t) :
    ∃ out, t.taken = s.taken ++ out ∧
      Refusing.run queueMaxsize s.queue (es.flatMap queueOp) = (out, t.queue) := by
  induction es generalizing s with
  | nil =>
      rw [run_nil, Option.some.injEq] at h
      exact ⟨[], by simp [h], by simp [Refusing.run, h]⟩
  | cons e es ih =>
      obtain ⟨s', he, hrest⟩ := run_cons_some h
      obtain ⟨out, htaken, hqueue⟩ := step_queue he
      obtain ⟨out', htaken', hqueue'⟩ := ih hrest
      refine ⟨out ++ out', by rw [htaken', htaken, List.append_assoc], ?_⟩
      rw [List.flatMap_cons, Refusing.run_append, hqueue, hqueue']

/-- What is pushed has arrived. -/
theorem pushes_sublist (es : List ReceptionEvent) :
    (pushes (es.flatMap queueOp)).Sublist (arrivals es) := by
  induction es with
  | nil => exact List.Sublist.refl []
  | cons e es ih =>
      rw [List.flatMap_cons, pushes_append]
      cases e with
      | arrive msg locked =>
          cases locked with
          | true => exact ih.cons_cons msg
          | false => exact ih.cons msg
      | clear locked => cases locked <;> exact ih
      | take => exact ih
      | play ret => exact ih
      | output e => exact ih

/-! ### The device -/

variable (mergeFloat format) in
/-- What messages bring for the device. -/
def pcm (msgs : List RecvAudioMessage) : Bytes :=
  (msgs.filterMap fun msg => AudioOutput.forDevice mergeFloat format msg.audio).flatten

theorem pcm_append (msgs msgs' : List RecvAudioMessage) :
    pcm mergeFloat format (msgs ++ msgs')
      = pcm mergeFloat format msgs ++ pcm mergeFloat format msgs' := by
  simp [pcm]

theorem pcm_singleton (msg : RecvAudioMessage) :
    pcm mergeFloat format [msg] = (AudioOutput.forDevice mergeFloat format msg.audio).getD [] := by
  cases h : AudioOutput.forDevice mergeFloat format msg.audio <;> simp [pcm, h]

variable (format) in
/-- A device that refuses a chunk ends the thread. -/
theorem play_refused (o : AudioOutput) {ret : Int} (hret : ret < 0) :
    o.play format ret = o ∨
      ∃ chunk, o.play format ret = { o with chunks := chunk, running := false } := by
  by_cases hchunk : format.frame125ms ≤ o.buffer.length
  · refine Or.inr ⟨o.chunks ++ [⟨o.played.length, o.buffer.take format.frame125ms⟩], ?_⟩
    rw [AudioOutput.play, if_pos hchunk]
    exact if_pos hret
  · exact Or.inl (AudioOutput.play_wait hchunk)

/-- What is accepted and what waits was there, or is in the packet. -/
theorem stream_packet {o o' : AudioOutput} {audio : Bytes} {ret : Int}
    (hle : ret ≤ format.frame125ms) (h : o.step mergeFloat format (.packet audio ret) = some o') :
    o'.stream.Sublist (o.stream ++ (AudioOutput.forDevice mergeFloat format audio).getD []) := by
  simp only [AudioOutput.step, Option.ite_none_right_eq_some, Option.some.injEq] at h
  obtain ⟨-, rfl⟩ := h
  rw [AudioOutput.stream_loop]
  unfold AudioOutput.process
  split
  · cases AudioOutput.forDevice mergeFloat format audio with
    | none => exact List.sublist_append_left _ _
    | some pcm =>
        have hsame : (AudioOutput.play format { o with buffer := o.buffer ++ pcm } ret).stream
            = o.stream ++ pcm := by
          by_cases hret : ret < 0
          · rcases play_refused format { o with buffer := o.buffer ++ pcm } hret
              with hsame | ⟨chunk, hsame⟩
            · rw [hsame]
              exact (List.append_assoc ..).symm
            · rw [hsame]
              exact (List.append_assoc ..).symm
          · rw [AudioOutput.stream_play (by omega) hle]
            exact (List.append_assoc ..).symm
        simp only [hsame, Option.getD_some]
        exact List.Sublist.refl _
  · refine List.Sublist.trans ?_ (List.sublist_append_left _ _)
    show (o.played ++ []).Sublist (o.played ++ o.buffer)
    rw [List.append_nil]
    exact List.sublist_append_left _ _

/-- `write` accepts no more than it is given. -/
def Writes (format : AudioFormat) : ReceptionEvent → Prop
  | .play ret => ret ≤ format.frame125ms
  | _ => True

variable (mergeFloat format) in
/-- What is heard, and who is said to speak, comes from the messages that were played. -/
structure Heard (s : Reception) : Prop where
  stream : s.output.stream.Sublist (pcm mergeFloat format s.handled)
  speakers : s.speakers.Sublist (s.handled.map (·.ip))

/-- An event other than that the thread plays changes nothing about what has been played. -/
structure Idle (s s' : Reception) : Prop where
  played : s'.output.played = s.output.played
  buffer : s'.output.buffer = s.output.buffer
  handled : s'.handled = s.handled
  speakers : s'.speakers = s.speakers
  ended : s.output.running = false → s'.output.running = false

theorem Idle.stream (h : Idle s s') : s'.output.stream = s.output.stream := by
  rw [AudioOutput.stream, AudioOutput.stream, h.played, h.buffer]

theorem idle_output {e : PlaybackEvent} (h : s.step mergeFloat format (.output e) = some s') :
    Idle s s' := by
  obtain ⟨output, houtput, rfl, hother⟩ := step_output h
  cases e with
  | packet audio ret => exact absurd rfl (hother audio ret)
  | nothing =>
      simp only [AudioOutput.step, Option.ite_none_right_eq_some, Option.some.injEq] at houtput
      obtain ⟨hruns, rfl⟩ := houtput
      have hnot : ¬ s.output.running = false := by simp [hruns]
      rcases AudioOutput.loop_cases s.output with hloop | hloop
      · exact ⟨by rw [hloop], by rw [hloop], rfl, rfl, fun hended => absurd hended hnot⟩
      · exact ⟨by rw [hloop], by rw [hloop], rfl, rfl, fun hended => absurd hended hnot⟩
  | startPlay active opened =>
      obtain rfl := Option.some.inj houtput
      cases active with
      | true => exact ⟨rfl, rfl, rfl, rfl, id⟩
      | false => exact ⟨rfl, rfl, rfl, rfl, id⟩
  | stopPlay =>
      obtain rfl := Option.some.inj houtput
      exact ⟨rfl, rfl, rfl, rfl, id⟩
  | stopImmediately =>
      obtain rfl := Option.some.inj houtput
      exact ⟨rfl, rfl, rfl, rfl, id⟩

/-- A message is played, or nothing happens to what has been played.  As long as the thread has
ended, nothing is taken. -/
theorem step_cases {e : ReceptionEvent} (h : s.step mergeFloat format e = some s') :
    (∃ ret msg, e = .play ret ∧ s.hand = some msg ∧
      s.play mergeFloat format msg ret = some s') ∨
    Idle s s' ∧ (s.output.running = false → s'.hand = s.hand ∧ e ≠ .take) := by
  cases e with
  | arrive msg locked =>
      obtain rfl := Option.some.inj h
      exact Or.inr ⟨⟨rfl, rfl, rfl, rfl, id⟩, fun _ => ⟨rfl, by simp⟩⟩
  | clear locked =>
      obtain rfl := Option.some.inj h
      exact Or.inr ⟨⟨rfl, rfl, rfl, rfl, id⟩, fun _ => ⟨rfl, by simp⟩⟩
  | take =>
      simp only [Reception.step] at h
      cases hqueue : s.queue with
      | nil => simp [hqueue] at h
      | cons msg queue =>
          simp only [hqueue, Option.ite_none_right_eq_some, Option.some.injEq] at h
          obtain ⟨⟨hruns, -⟩, rfl⟩ := h
          refine Or.inr ⟨⟨rfl, rfl, rfl, rfl, id⟩, fun hended => ?_⟩
          rw [hruns] at hended
          simp at hended
  | play ret =>
      obtain ⟨msg, hhand, hplay⟩ := step_play h
      exact Or.inl ⟨ret, msg, rfl, hhand, hplay⟩
  | output e =>
      obtain ⟨output, -, hsame, -⟩ := step_output h
      exact Or.inr ⟨idle_output h, fun _ => ⟨by rw [hsame], by simp⟩⟩

theorem Heard.step {e : ReceptionEvent} (hs : Heard mergeFloat format s) (hwrites : Writes format e)
    (h : s.step mergeFloat format e = some s') : Heard mergeFloat format s' := by
  rcases step_cases h with ⟨ret, msg, rfl, -, hplay⟩ | ⟨hidle, -⟩
  · simp only [play, Option.map_eq_some_iff] at hplay
    obtain ⟨output, houtput, rfl⟩ := hplay
    refine ⟨?_, ?_⟩
    · rw [pcm_append, pcm_singleton]
      exact (stream_packet hwrites houtput).trans (hs.stream.append_right _)
    · rw [List.map_append]
      show (if _ then _ else _ : List UInt32).Sublist _
      split
      · exact hs.speakers.append_right _
      · exact hs.speakers.trans (List.sublist_append_left _ _)
  · exact ⟨by rw [hidle.stream, hidle.handled]; exact hs.stream,
      by rw [hidle.speakers, hidle.handled]; exact hs.speakers⟩

/-! ### Sound that nothing disturbs -/

/-- A message finds room, nothing is cleared, and there is a device that accepts what it can. -/
def Undisturbed (format : AudioFormat) (s : Reception) : ReceptionEvent → Prop
  | .arrive _ locked => locked = true ∧ s.queue.length < queueMaxsize
  | .clear locked => locked = false
  | .play ret => s.output.outputdevice = true ∧ 0 ≤ ret ∧ ret ≤ format.frame125ms
  | _ => True

/-- What is played undisturbed is all there is in the messages. -/
theorem Undisturbed.stream {e : ReceptionEvent}
    (hs : s.output.stream = pcm mergeFloat format s.handled) (hquiet : Undisturbed format s e)
    (h : s.step mergeFloat format e = some s') :
    s'.output.stream = pcm mergeFloat format s'.handled := by
  rcases step_cases h with ⟨ret, msg, rfl, -, hplay⟩ | ⟨hidle, -⟩
  · simp only [play, Option.map_eq_some_iff] at hplay
    obtain ⟨output, houtput, rfl⟩ := hplay
    have hstream := AudioOutput.stream_step (e := .packet msg.audio ret) hquiet houtput
    rw [hstream, hs, pcm_append, pcm_singleton]
    rfl
  · rw [hidle.stream, hidle.handled]
    exact hs

theorem arrivals_cons (e : ReceptionEvent) (es : List ReceptionEvent) :
    arrivals (e :: es) = arrivals [e] ++ arrivals es := by
  cases e <;> rfl

theorem Undisturbed.taken {e : ReceptionEvent} (h : Undisturbed format s e) :
    Refusing.Taken queueMaxsize s.queue (queueOp e) ∧ pushes (queueOp e) = arrivals [e] := by
  cases e with
  | arrive msg locked =>
      obtain ⟨rfl, hroom⟩ := h
      exact ⟨⟨hroom, trivial⟩, rfl⟩
  | clear locked =>
      obtain rfl : locked = false := h
      exact ⟨trivial, rfl⟩
  | take => exact ⟨⟨trivial, trivial⟩, rfl⟩
  | play ret => exact ⟨trivial, rfl⟩
  | output e => exact ⟨trivial, rfl⟩

/-- Where nothing disturbs, every message finds room in the queue. -/
theorem taken_of_undisturbed {es : List ReceptionEvent}
    (h : Steps (step mergeFloat format) (Undisturbed format) s es)
    (hrun : run (step mergeFloat format) s es = some t) :
    Refusing.Taken queueMaxsize s.queue (es.flatMap queueOp) ∧
      pushes (es.flatMap queueOp) = arrivals es := by
  induction es generalizing s with
  | nil => exact ⟨trivial, rfl⟩
  | cons e es ih =>
      obtain ⟨s', he, hrest⟩ := run_cons_some hrun
      obtain ⟨out, -, hqueue⟩ := step_queue he
      obtain ⟨hfirst, hpush⟩ := h.1.taken
      obtain ⟨hlater, hpushes⟩ := ih (h.2 s' he) hrest
      rw [List.flatMap_cons]
      refine ⟨hfirst.append ?_, ?_⟩
      · rw [hqueue]
        exact hlater
      · rw [pushes_append, hpush, hpushes, ← arrivals_cons]

/-- Where nothing disturbs, what was played and what waits is all there is in the messages. -/
theorem complete_of_undisturbed {es : List ReceptionEvent}
    (hrun : run (step mergeFloat format) {} es = some t)
    (hquiet : Steps (step mergeFloat format) (Undisturbed format) {} es) :
    t.output.played ++ t.output.buffer ++ pcm mergeFloat format (t.hand.toList ++ t.queue)
      = pcm mergeFloat format (arrivals es) := by
  obtain ⟨out, htaken, hqueue⟩ := run_queue hrun
  obtain rfl : t.taken = out := htaken
  have hstream : t.output.stream = pcm mergeFloat format t.handled :=
    (throughout_of_step (P := Undisturbed format)
      (fun _ _ _ hs he hstep => he.stream hs hstep) rfl hquiet).last hrun
  obtain ⟨hroom, hpushes⟩ := taken_of_undisturbed hquiet hrun
  have hall := Refusing.run_eq hroom
  rw [hqueue, hpushes] at hall
  have hall : t.taken ++ t.queue = arrivals es := hall
  show t.output.stream ++ _ = _
  rw [hstream, ← pcm_append, ← hall, taken, List.append_assoc]

variable (mergeFloat format) in
/-- What is known of the sound that has been received. -/
structure Delivered (es : List ReceptionEvent) (t : Reception) : Prop where
  bounded : t.queue.length ≤ queueMaxsize
  /-- The messages that are played and those that wait have arrived in this order. -/
  inOrder : (t.handled ++ t.hand.toList ++ t.queue).Sublist (arrivals es)
  heard : (t.output.played ++ t.output.buffer).Sublist (pcm mergeFloat format t.handled)
  speakers : t.speakers.Sublist (t.handled.map (·.ip))
  /-- Nothing is missing where nothing disturbs. -/
  complete : Steps (step mergeFloat format) (Undisturbed format) {} es →
    t.output.played ++ t.output.buffer ++ pcm mergeFloat format (t.hand.toList ++ t.queue)
      = pcm mergeFloat format (arrivals es)

variable (mergeFloat format) in
/-- **What is heard is what was received**, in its order, however the threads take turns. -/
theorem reception {es : List ReceptionEvent} (hwrites : ∀ e ∈ es, Writes format e)
    (hrun : run (step mergeFloat format) {} es = some t) : Delivered mergeFloat format es t := by
  obtain ⟨out, htaken, hqueue⟩ := run_queue hrun
  obtain rfl : t.taken = out := htaken
  have hstart : Heard mergeFloat format {} := ⟨List.Sublist.refl [], List.Sublist.refl []⟩
  have hheard : Heard mergeFloat format t :=
    (throughout_of_step (P := fun _ e => Writes format e)
      (fun _ _ _ hs he hstep => Heard.step hs he hstep) hstart
      (Steps.of_mem fun _ e he => hwrites e he)).last hrun
  exact {
    bounded := by
      have hempty : ([] : List RecvAudioMessage).length ≤ queueMaxsize := Nat.zero_le _
      have hle := Refusing.length_run_le hempty (es.flatMap queueOp)
      rwa [hqueue] at hle
    inOrder := by
      have hsub := Refusing.run_sublist queueMaxsize [] (es.flatMap queueOp)
      rw [hqueue] at hsub
      exact hsub.trans (pushes_sublist es)
    heard := hheard.stream
    speakers := hheard.speakers
    complete := complete_of_undisturbed hrun }

/-! ### A device that refuses a chunk -/

/-- The thread has returned, without anything in its hand. -/
def Over (s : Reception) : Prop := s.output.running = false ∧ s.hand = none

theorem Over.next {e : ReceptionEvent} (hs : s.Over) (h : s.step mergeFloat format e = some s') :
    Idle s s' ∧ s'.Over ∧ e ≠ .take := by
  rcases step_cases h with ⟨ret, msg, rfl, hmsg, -⟩ | ⟨hidle, hrest⟩
  · rw [hs.2] at hmsg
    simp at hmsg
  · obtain ⟨hhand, htake⟩ := hrest hs.1
    exact ⟨hidle, ⟨hidle.ended hs.1, hhand.trans hs.2⟩, htake⟩

/-- The lock is had in time, and the queue is not cleared. -/
def Kept : ReceptionEvent → Prop
  | .arrive _ locked => locked = true
  | .clear locked => locked = false
  | _ => True

/-- Where the thread has ended, a run is no more than pushes. -/
theorem Over.lasts {es : List ReceptionEvent} (hs : s.Over)
    (h : run (step mergeFloat format) s es = some t) :
    Idle s t ∧ ((∀ e ∈ es, Kept e) → es.flatMap queueOp = (arrivals es).map .push) := by
  induction es generalizing s with
  | nil =>
      obtain rfl := Option.some.inj h
      exact ⟨⟨rfl, rfl, rfl, rfl, id⟩, fun _ => rfl⟩
  | cons e es ih =>
      obtain ⟨s', he, hrest⟩ := run_cons_some h
      obtain ⟨hidle, hover, htake⟩ := hs.next he
      obtain ⟨hlater, hpushes⟩ := ih hover hrest
      refine ⟨⟨hlater.played.trans hidle.played, hlater.buffer.trans hidle.buffer,
        hlater.handled.trans hidle.handled, hlater.speakers.trans hidle.speakers,
        fun hended => hlater.ended (hidle.ended hended)⟩, fun hkept => ?_⟩
      have hfirst := hkept e List.mem_cons_self
      rw [List.flatMap_cons, hpushes fun e he => hkept e (List.mem_cons_of_mem _ he)]
      cases e with
      | arrive msg locked =>
          obtain rfl : locked = true := hfirst
          rfl
      | clear locked =>
          obtain rfl : locked = false := hfirst
          rfl
      | take => exact absurd rfl htake
      | play ret => rfl
      | output e => rfl

/-- A chunk that is refused leaves nothing to be done. -/
theorem over_of_refused {ret : Int} (hret : ret < 0)
    (h : s.step mergeFloat format (.play ret) = some s')
    (hchunk : s'.output.chunks ≠ s.output.chunks) :
    s'.Over ∧ s'.output.played = s.output.played ∧ s'.queue = s.queue := by
  obtain ⟨msg, -, hplay⟩ := step_play h
  simp only [play, AudioOutput.step, Option.map_eq_some_iff, Option.ite_none_right_eq_some,
    Option.some.injEq] at hplay
  obtain ⟨output, ⟨-, rfl⟩, rfl⟩ := hplay
  have hchunk : (s.output.process mergeFloat format msg.audio ret).loop.chunks
    ≠ s.output.chunks := hchunk
  have hprocess : (s.output.process mergeFloat format msg.audio ret).running = false ∧
      (s.output.process mergeFloat format msg.audio ret).played = s.output.played := by
    have hchunks : (s.output.process mergeFloat format msg.audio ret).chunks
        ≠ s.output.chunks := by
      rcases AudioOutput.loop_cases (s.output.process mergeFloat format msg.audio ret)
        with hloop | hloop <;> rwa [hloop] at hchunk
    unfold AudioOutput.process at hchunks ⊢
    by_cases hdevice : s.output.outputdevice = true
    · rw [if_pos hdevice] at hchunks ⊢
      cases hpcm : AudioOutput.forDevice mergeFloat format msg.audio with
      | none => simp [hpcm] at hchunks
      | some pcm =>
          simp only [hpcm] at hchunks ⊢
          rcases play_refused format { s.output with buffer := s.output.buffer ++ pcm } hret
            with hsame | ⟨chunk, hsame⟩
          · exact absurd (congrArg AudioOutput.chunks hsame) hchunks
          · rw [hsame]
            exact ⟨rfl, rfl⟩
    · simp [hdevice] at hchunks
  refine ⟨⟨?_, rfl⟩, ?_, rfl⟩
  · rcases AudioOutput.loop_cases (s.output.process mergeFloat format msg.audio ret)
      with hloop | hloop
    · simp only [hloop, hprocess.1]
    · simp only [hloop]
  · rcases AudioOutput.loop_cases (s.output.process mergeFloat format msg.audio ret)
      with hloop | hloop
    · simp only [hloop, hprocess.2]
    · simp only [hloop, hprocess.2]

variable (mergeFloat format) in
/-- **A device that refuses a chunk ends the sound for good**: whatever happens afterwards, nothing
more is played.  What arrives fills the queue, and the rest is left out after two seconds each. -/
theorem reception_over {before after : List ReceptionEvent} {ret : Int}
    (hbefore : run (step mergeFloat format) {} before = some s) (hret : ret < 0)
    (hplay : s.step mergeFloat format (.play ret) = some s')
    (hchunk : s'.output.chunks ≠ s.output.chunks)
    (hafter : run (step mergeFloat format) s' after = some t) :
    t.handled = s'.handled ∧ t.output.played = s.output.played ∧
      ((∀ e ∈ after, Kept e) → t.queue = (s.queue ++ arrivals after).take queueMaxsize) := by
  obtain ⟨hover, hplayed, hsame⟩ := over_of_refused hret hplay hchunk
  obtain ⟨hidle, hpushes⟩ := hover.lasts hafter
  refine ⟨hidle.handled, hidle.played.trans hplayed, fun hkept => ?_⟩
  have hempty : ([] : List RecvAudioMessage).length ≤ queueMaxsize := Nat.zero_le _
  have hroom := Refusing.length_run_le hempty (before.flatMap queueOp)
  obtain ⟨out, -, hqueue⟩ := run_queue hbefore
  obtain ⟨out', -, hqueue'⟩ := run_queue hafter
  rw [hqueue] at hroom
  rw [hpushes hkept, hsame, Refusing.run_pushes hroom, Prod.mk.injEq] at hqueue'
  exact hqueue'.2.symm

end Receive

instance (format : AudioFormat) (s : Reception) : DecidablePred (Undisturbed format s)
  | .arrive .. => inferInstanceAs (Decidable (_ ∧ _))
  | .clear _ => inferInstanceAs (Decidable (_ = _))
  | .play _ => inferInstanceAs (Decidable (_ ∧ _))
  | .take => isTrue trivial
  | .output _ => isTrue trivial

instance (format : AudioFormat) : DecidablePred (Writes format)
  | .play _ => inferInstanceAs (Decidable (_ ≤ _))
  | .arrive .. => isTrue trivial
  | .clear _ => isTrue trivial
  | .take => isTrue trivial
  | .output _ => isTrue trivial

/-- Two members speak in turn; the device takes a chunk in full, then one in part. -/
def sampleReception : List ReceptionEvent :=
  [.output (.startPlay false true), .arrive ⟨7, [1, 2, 3]⟩ true, .arrive ⟨8, [4]⟩ true, .take,
    .play 2, .arrive ⟨7, [5]⟩ true, .take, .play 1]

def sampleReceived : Reception where
  queue := [⟨7, [5]⟩]
  output :=
    { outputdevice := true
      buffer := [4]
      played := [1, 2, 3]
      chunks := [⟨0, [1, 2]⟩, ⟨2, [3, 4]⟩] }
  handled := [⟨7, [1, 2, 3]⟩, ⟨8, [4]⟩]
  speakers := [7, 8]

theorem reception_sample :
    run (step (fun l _ => l) AudioOutput.slowFormat) {} sampleReception = some sampleReceived ∧
      Delivered (fun l _ => l) AudioOutput.slowFormat sampleReception sampleReceived := by
  have hwrites : ∀ e ∈ sampleReception, Writes AudioOutput.slowFormat e := by decide
  have hrun : run (step (fun l _ => l) AudioOutput.slowFormat) {} sampleReception
      = some sampleReceived := by decide
  exact ⟨hrun, reception (fun l _ => l) AudioOutput.slowFormat hwrites hrun⟩

/-- The thread has taken what was left, and the device refuses the chunk. -/
def sampleRefused : Reception where
  output :=
    { outputdevice := true
      buffer := [4, 5]
      played := [1, 2, 3]
      running := false
      chunks := [⟨0, [1, 2]⟩, ⟨2, [3, 4]⟩, ⟨3, [4, 5]⟩] }
  handled := [⟨7, [1, 2, 3]⟩, ⟨8, [4]⟩, ⟨7, [5]⟩]
  speakers := [7, 8]

theorem reception_over_sample : ∃ t,
    run (step (fun l _ => l) AudioOutput.slowFormat) sampleRefused
        [.output (.startPlay false true), .arrive ⟨8, [6]⟩ true] = some t ∧
      t.output.played = sampleReceived.output.played ∧ t.queue = [⟨8, [6]⟩] := by
  have hbefore : run (step (fun l _ => l) AudioOutput.slowFormat) {} (sampleReception ++ [.take])
      = some { sampleReceived with queue := [], hand := some ⟨7, [5]⟩ } := by decide
  have hplay : step (fun l _ => l) AudioOutput.slowFormat
      { sampleReceived with queue := [], hand := some ⟨7, [5]⟩ } (.play (-1))
        = some sampleRefused := by decide
  have hafter : run (step (fun l _ => l) AudioOutput.slowFormat) sampleRefused
      [.output (.startPlay false true), .arrive ⟨8, [6]⟩ true]
        = some { sampleRefused with queue := [⟨8, [6]⟩] } := by decide
  have hover := reception_over (fun l _ => l) AudioOutput.slowFormat hbefore (by decide) hplay
    (by decide) hafter
  exact ⟨_, hafter, hover.2.1, rfl⟩

end Reception
end CloudMeeting.Audio
