/-
The send workers of the message hub.

A send worker is a thread that runs `send_loop` with an epoch of its own: it takes one message
after the other off the queue and posts its frame to the IO thread, as long as workers are to
run and its epoch is the current one.  Stopping is two writes, which any thread may make;
starting a worker is six steps of the one thread that starts them, the controller.  Each read,
write, push and pop is one step here, and the steps of all threads come in any order.

A worker that has outlived its epoch gives back what it holds, if it is a text or one of three
requests.  Giving back is pushing: the message goes behind all others of its priority.

Workers are joined before the next one starts.  A thread that has not ended after three
seconds is waited for again, without limit, when it is deleted.
-/
import CloudMeeting.Client.Codec
import CloudMeeting.Client.SendQueue
import CloudMeeting.Lib.Run

namespace CloudMeeting.Client

variable {Image : Type}

/-- Where a worker is in `send_loop`. -/
inductive SendStage (Image : Type) where
  /-- About to read `send_running_`, at the head of the loop. -/
  | checkRunning
  /-- About to read `send_epoch_`, at the head of the loop. -/
  | checkEpoch
  | pop
  /-- About to read `send_epoch_` again, with what came off the queue. -/
  | recheck (msg : Option (MessagePtr Image))
  | giveBack (msg : MessagePtr Image)
  | forward (msg : MessagePtr Image)
  | done

structure SendWorker (Image : Type) where
  epoch : UInt64
  stage : SendStage Image := .checkRunning

/-- Where `start_send_worker` is, when it is running. -/
inductive StartStage where
  | idle
  /-- `send_running_` has been cleared. -/
  | cleared
  /-- The epoch has been advanced, and the workers are waited for. -/
  | join
  | joined
  /-- The epoch has been advanced again, to that of the new worker. -/
  | numbered (epoch : UInt64)
  | running (epoch : UInt64)
deriving DecidableEq

structure MessageHub (Image : Type) where
  sendQueue : PriorityMessageQueue Image := {}
  sendRunning : Bool := false
  sendEpoch : UInt64 := 0
  /-- There is a connection to post frames to. -/
  connection : Bool := false
  /-- How many calls of `signal_send_stop` have made the first of their two writes. -/
  stopping : Nat := 0
  starting : StartStage := .idle
  workers : List (SendWorker Image) := []
  /-- The number of the next message. -/
  serial : Nat := 0
  /-- The frames posted to the connection, with their messages. -/
  posted : List (MessagePtr Image × Bytes) := []

inductive HubEvent (Image : Type) where
  | enqueueSend (msg : Message Image) (locked : Bool)
  | clearPendingVideo (locked : Bool)
  | clearAll (locked : Bool)
  /-- `connection_` is set, to a connection or to null. -/
  | attach (connection : Bool)
  /-- The first write of a `signal_send_stop`. -/
  | stopRunning
  /-- The second write of a `signal_send_stop`. -/
  | stopEpoch
  /-- The next step of `start_send_worker`. -/
  | start
  /-- The next step of a worker; the connection has the ip it says. -/
  | work (worker : Nat) (localIp : UInt32) (locked : Bool)

/-- What a worker gives back rather than drops. -/
def MessageKind.givenBack : MessageKind → Bool
  | .createMeeting => true
  | .joinMeeting => true
  | .closeCamera => true
  | .sendText => true
  | _ => false

namespace MessageHub

def enqueueSend (hub : MessageHub Image) (msg : Message Image) (locked : Bool) :
    MessageHub Image :=
  { hub with sendQueue := hub.sendQueue.push ⟨hub.serial, msg⟩ locked, serial := hub.serial + 1 }

/-- The next step of `start_send_worker`, unless it has to wait. -/
def stepStart (hub : MessageHub Image) : Option (MessageHub Image) :=
  match hub.starting with
  | .idle => some { hub with sendRunning := false, starting := .cleared }
  | .cleared => some { hub with sendEpoch := hub.sendEpoch + 1, starting := .join }
  | .join =>
      if hub.workers.all fun worker => worker.stage matches .done then
        some { hub with workers := [], starting := .joined }
      else none
  | .joined =>
      some { hub with
        sendEpoch := hub.sendEpoch + 1
        starting := .numbered (hub.sendEpoch + 1) }
  | .numbered epoch => some { hub with sendRunning := true, starting := .running epoch }
  | .running epoch =>
      some { hub with workers := hub.workers ++ [{ epoch := epoch }], starting := .idle }

/-- The next step of a worker: the hub after it, and where the worker is then. -/
def sendLoop (qt : Qt Image) (hub : MessageHub Image) (worker : SendWorker Image)
    (localIp : UInt32) (locked : Bool) : Option (MessageHub Image × SendStage Image) :=
  match worker.stage with
  | .checkRunning => some (hub, if hub.sendRunning then .checkEpoch else .done)
  | .checkEpoch => some (hub, if hub.sendEpoch = worker.epoch then .pop else .done)
  | .pop => some ({ hub with sendQueue := hub.sendQueue.pop.2 }, .recheck hub.sendQueue.pop.1)
  | .recheck none =>
      some (hub, if hub.sendEpoch ≠ worker.epoch then .done else .checkRunning)
  | .recheck (some msg) =>
      if hub.sendEpoch ≠ worker.epoch then
        some (hub, if msg.message.kind.givenBack then .giveBack msg else .done)
      else some (hub, if hub.connection then .forward msg else .checkRunning)
  | .giveBack msg => some ({ hub with sendQueue := hub.sendQueue.push msg locked }, .done)
  | .forward msg =>
      let frame := MessageCodec.encodeWireFrame qt msg.message localIp
      -- No frame is empty, so that none is skipped here.
      some (if frame = [] then hub else { hub with posted := hub.posted ++ [(msg, frame)] },
        .checkRunning)
  | .done => none

def stepWorker (qt : Qt Image) (hub : MessageHub Image) (worker : Nat) (localIp : UInt32)
    (locked : Bool) : Option (MessageHub Image) :=
  match hub.workers[worker]? with
  | none => none
  | some w =>
      match sendLoop qt hub w localIp locked with
      | none => none
      | some (hub, stage) =>
          some { hub with workers := hub.workers.set worker { w with stage := stage } }

def step (qt : Qt Image) (hub : MessageHub Image) : HubEvent Image → Option (MessageHub Image)
  | .enqueueSend msg locked => some (hub.enqueueSend msg locked)
  | .clearPendingVideo locked => some { hub with sendQueue := hub.sendQueue.clearVideo locked }
  | .clearAll locked => some { hub with sendQueue := hub.sendQueue.clear locked }
  | .attach connection => some { hub with connection := connection }
  | .stopRunning => some { hub with sendRunning := false, stopping := hub.stopping + 1 }
  | .stopEpoch =>
      if 0 < hub.stopping then
        some { hub with sendEpoch := hub.sendEpoch + 1, stopping := hub.stopping - 1 }
      else none
  | .start => hub.stepStart
  | .work worker localIp locked => stepWorker qt hub worker localIp locked

end MessageHub

/-! ### What a step does -/

/-- The message a worker holds. -/
def SendStage.hand : SendStage Image → Option (MessagePtr Image)
  | .recheck msg => msg
  | .giveBack msg => some msg
  | .forward msg => some msg
  | _ => none

namespace MessageHub

variable {qt : Qt Image} {hub hub' : MessageHub Image}

/-- The messages in the hands of workers. -/
def hands (hub : MessageHub Image) : List (MessagePtr Image) :=
  hub.workers.filterMap fun worker => worker.stage.hand

/-- The messages whose frames have been posted. -/
def sent (hub : MessageHub Image) : List (MessagePtr Image) := hub.posted.map Prod.fst

theorem encodeWireFrame_ne_nil (msg : Message Image) (localIp : UInt32) :
    MessageCodec.encodeWireFrame qt msg localIp ≠ [] := by
  simp [MessageCodec.encodeWireFrame]

/-- What a step of a worker does to the hub, and where the worker is afterwards. -/
inductive Works (qt : Qt Image) (hub : MessageHub Image) (worker : SendWorker Image)
    (localIp : UInt32) (locked : Bool) : MessageHub Image → SendStage Image → Prop
  | ahead {stage : SendStage Image} (hhand : worker.stage.hand = none) (hnext : stage.hand = none) :
      Works qt hub worker localIp locked hub stage
  | took {msg : Option (MessagePtr Image)} {queue : PriorityMessageQueue Image}
      (hstage : worker.stage = .pop) (hpop : hub.sendQueue.pop = (msg, queue)) :
      Works qt hub worker localIp locked { hub with sendQueue := queue } (.recheck msg)
  | returning {msg : MessagePtr Image} (hstage : worker.stage = .recheck (some msg))
      (hepoch : hub.sendEpoch ≠ worker.epoch) (hkind : msg.message.kind.givenBack = true) :
      Works qt hub worker localIp locked hub (.giveBack msg)
  | forwarding {msg : MessagePtr Image} (hstage : worker.stage = .recheck (some msg))
      (hepoch : hub.sendEpoch = worker.epoch) (hconnection : hub.connection = true) :
      Works qt hub worker localIp locked hub (.forward msg)
  | dropped {msg : MessagePtr Image} {stage : SendStage Image}
      (hstage : worker.stage = .recheck (some msg)) (hnext : stage.hand = none)
      (hwhy : msg.message.kind.givenBack = false ∨ hub.connection = false) :
      Works qt hub worker localIp locked hub stage
  | gaveBack {msg : MessagePtr Image} (hstage : worker.stage = .giveBack msg) :
      Works qt hub worker localIp locked { hub with sendQueue := hub.sendQueue.push msg locked }
        .done
  | forwarded {msg : MessagePtr Image} {frame : Bytes} (hstage : worker.stage = .forward msg)
      (hframe : frame = MessageCodec.encodeWireFrame qt msg.message localIp) :
      Works qt hub worker localIp locked { hub with posted := hub.posted ++ [(msg, frame)] }
        .checkRunning

theorem works {worker : SendWorker Image} {localIp : UInt32} {locked : Bool}
    {stage : SendStage Image} (h : sendLoop qt hub worker localIp locked = some (hub', stage)) :
    Works qt hub worker localIp locked hub' stage := by
  obtain ⟨epoch, now⟩ := worker
  cases now with
  | checkRunning =>
      simp only [sendLoop, Option.some.injEq, Prod.mk.injEq] at h
      obtain ⟨rfl, rfl⟩ := h
      refine .ahead rfl ?_
      split <;> rfl
  | checkEpoch =>
      simp only [sendLoop, Option.some.injEq, Prod.mk.injEq] at h
      obtain ⟨rfl, rfl⟩ := h
      refine .ahead rfl ?_
      split <;> rfl
  | pop =>
      simp only [sendLoop, Option.some.injEq, Prod.mk.injEq] at h
      obtain ⟨rfl, rfl⟩ := h
      exact .took rfl rfl
  | recheck msg =>
      cases msg with
      | none =>
          simp only [sendLoop, Option.some.injEq, Prod.mk.injEq] at h
          obtain ⟨rfl, rfl⟩ := h
          refine .ahead rfl ?_
          split <;> rfl
      | some msg =>
          simp only [sendLoop] at h
          split at h
          · rename_i hepoch
            simp only [Option.some.injEq, Prod.mk.injEq] at h
            obtain ⟨rfl, rfl⟩ := h
            cases hkind : msg.message.kind.givenBack with
            | true => exact .returning rfl hepoch hkind
            | false => exact .dropped rfl rfl (.inl hkind)
          · rename_i hepoch
            simp only [Option.some.injEq, Prod.mk.injEq] at h
            obtain ⟨rfl, rfl⟩ := h
            cases hconnection : hub.connection with
            | true => exact .forwarding rfl (not_not.mp hepoch) hconnection
            | false => exact .dropped rfl rfl (.inr hconnection)
  | giveBack msg =>
      simp only [sendLoop, Option.some.injEq, Prod.mk.injEq] at h
      obtain ⟨rfl, rfl⟩ := h
      exact .gaveBack rfl
  | forward msg =>
      simp only [sendLoop, if_neg (encodeWireFrame_ne_nil msg.message localIp), Option.some.injEq,
        Prod.mk.injEq] at h
      obtain ⟨rfl, rfl⟩ := h
      exact .forwarded rfl rfl
  | done => simp [sendLoop] at h

/-- What a step of a worker does to the other workers: nothing. -/
theorem stepWorker_cases {worker : Nat} {localIp : UInt32} {locked : Bool}
    (h : stepWorker qt hub worker localIp locked = some hub') :
    ∃ w after stage, hub.workers[worker]? = some w ∧ Works qt hub w localIp locked after stage ∧
      hub' = { after with workers := hub.workers.set worker { w with stage := stage } } := by
  unfold stepWorker at h
  split at h
  · simp at h
  · rename_i w hw
    split at h
    · simp at h
    · rename_i after stage hloop
      rw [Option.some.injEq] at h
      have hworks := works hloop
      refine ⟨w, after, stage, hw, hworks, ?_⟩
      rw [← h]
      cases hworks <;> rfl

/-- What a step of `start_send_worker` does. -/
inductive Starts (hub : MessageHub Image) : MessageHub Image → Prop
  | clear (hstage : hub.starting = .idle) :
      Starts hub { hub with sendRunning := false, starting := .cleared }
  | stop (hstage : hub.starting = .cleared) :
      Starts hub { hub with sendEpoch := hub.sendEpoch + 1, starting := .join }
  | join (hstage : hub.starting = .join) (hdone : ∀ w ∈ hub.workers, w.stage = .done) :
      Starts hub { hub with workers := [], starting := .joined }
  | number (hstage : hub.starting = .joined) :
      Starts hub { hub with
        sendEpoch := hub.sendEpoch + 1
        starting := .numbered (hub.sendEpoch + 1) }
  | run {epoch : UInt64} (hstage : hub.starting = .numbered epoch) :
      Starts hub { hub with sendRunning := true, starting := .running epoch }
  | spawn {epoch : UInt64} (hstage : hub.starting = .running epoch) :
      Starts hub { hub with workers := hub.workers ++ [{ epoch := epoch }], starting := .idle }

theorem starts (h : hub.stepStart = some hub') : Starts hub hub' := by
  unfold stepStart at h
  split at h
  · rename_i hstage
    exact Option.some.inj h ▸ .clear hstage
  · rename_i hstage
    exact Option.some.inj h ▸ .stop hstage
  · rename_i hstage
    split at h
    · rename_i hdone
      refine Option.some.inj h ▸ .join hstage fun w hw => ?_
      have hw := List.all_eq_true.mp hdone w hw
      cases hnow : w.stage with
      | done => rfl
      | _ => simp [hnow] at hw
    · simp at h
  · rename_i hstage
    exact Option.some.inj h ▸ .number hstage
  · rename_i hstage
    exact Option.some.inj h ▸ .run hstage
  · rename_i hstage
    exact Option.some.inj h ▸ .spawn hstage

/-! ### One worker at a time -/

/-- There is at most one worker, and none from the join to the start of the next one. -/
structure Alone (hub : MessageHub Image) : Prop where
  workers : hub.workers.length ≤ 1
  starting : hub.starting ∈ [.idle, .cleared, .join] ∨ hub.workers = []

theorem Alone.init : Alone ({} : MessageHub Image) where
  workers := Nat.zero_le 1
  starting := .inr rfl

/-- A worker that takes a step is the only one. -/
theorem Alone.single (h : hub.Alone) {worker : Nat} {w : SendWorker Image}
    (hw : hub.workers[worker]? = some w) : worker = 0 ∧ hub.workers = [w] := by
  have hlength := h.workers
  match hworkers : hub.workers, worker with
  | [], _ => simp [hworkers] at hw
  | [v], 0 =>
      rw [hworkers] at hw
      exact ⟨rfl, by simpa using hw⟩
  | [v], n + 1 => simp [hworkers] at hw
  | v :: v' :: vs, _ => simp [hworkers] at hlength

/-- A worker's step leaves it alone, and leaves the thread alone that starts workers. -/
theorem Alone.work (h : hub.Alone) {worker : Nat} {localIp : UInt32} {locked : Bool}
    (hstep : stepWorker qt hub worker localIp locked = some hub') :
    ∃ w after stage, worker = 0 ∧ hub.workers = [w] ∧ Works qt hub w localIp locked after stage ∧
      hub' = { after with workers := [{ w with stage := stage }] } := by
  obtain ⟨w, after, stage, hw, hworks, rfl⟩ := stepWorker_cases hstep
  obtain ⟨rfl, hworkers⟩ := h.single hw
  refine ⟨w, after, stage, rfl, hworkers, hworks, ?_⟩
  rw [hworkers]
  rfl

/-- With one worker, what it holds is all that is in hands. -/
theorem hands_worker {w : SendWorker Image} (h : hub.workers = [w]) :
    hub.hands = w.stage.hand.toList := by
  simp only [hands, h, List.filterMap_cons, List.filterMap_nil]
  cases w.stage.hand <;> rfl

theorem hands_of_done (h : ∀ w ∈ hub.workers, w.stage = .done) : hub.hands = [] := by
  rw [hands, List.filterMap_eq_nil_iff]
  intro w hw
  rw [h w hw]
  rfl

theorem Works.starting {w : SendWorker Image} {localIp : UInt32} {locked : Bool}
    {after : MessageHub Image} {stage : SendStage Image}
    (h : Works qt hub w localIp locked after stage) : after.starting = hub.starting := by
  cases h <;> rfl

theorem Alone.start (h : hub.Alone) (hstarts : Starts hub hub') : hub'.Alone := by
  have hnone : hub.starting ∉ [.idle, .cleared, .join] → hub.workers = [] := fun hnot =>
    h.starting.resolve_left hnot
  cases hstarts with
  | clear hstage => exact ⟨h.workers, .inl (by simp)⟩
  | stop hstage => exact ⟨h.workers, .inl (by simp)⟩
  | join hstage hdone => exact ⟨Nat.zero_le 1, .inr rfl⟩
  | number hstage => exact ⟨h.workers, .inr (hnone (by simp [hstage]))⟩
  | run hstage => exact ⟨h.workers, .inr (hnone (by simp [hstage]))⟩
  | spawn hstage =>
      refine ⟨?_, .inl (by simp)⟩
      rw [hnone (by simp [hstage])]
      exact Nat.le_refl 1

theorem Alone.step (h : hub.Alone) {e : HubEvent Image} (hstep : step qt hub e = some hub') :
    hub'.Alone := by
  cases e with
  | enqueueSend msg locked => exact Option.some.inj hstep ▸ ⟨h.workers, h.starting⟩
  | clearPendingVideo locked => exact Option.some.inj hstep ▸ ⟨h.workers, h.starting⟩
  | clearAll locked => exact Option.some.inj hstep ▸ ⟨h.workers, h.starting⟩
  | attach connection => exact Option.some.inj hstep ▸ ⟨h.workers, h.starting⟩
  | stopRunning => exact Option.some.inj hstep ▸ ⟨h.workers, h.starting⟩
  | stopEpoch =>
      simp only [MessageHub.step] at hstep
      split at hstep
      · exact Option.some.inj hstep ▸ ⟨h.workers, h.starting⟩
      · simp at hstep
  | start => exact h.start (starts hstep)
  | work worker localIp locked =>
      obtain ⟨w, after, stage, rfl, hworkers, hworks, rfl⟩ := h.work hstep
      refine ⟨Nat.le_refl 1, .inl ?_⟩
      have hstarting := h.starting.resolve_right (by simp [hworkers])
      exact hworks.starting ▸ hstarting

end MessageHub

end CloudMeeting.Client
