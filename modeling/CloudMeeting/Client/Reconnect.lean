/-
The network manager and its connection.

`connect_to_server` is called on the controller's thread: it stops the send worker and waits
for it, has the IO thread open a socket, and starts a new send worker.  The IO thread takes
its calls in the order in which they were posted, frames and all.  It destroys the old socket
and clears the queue before it opens the new one, and clearing gives up when eight attempts to
get the lock fail.

A connection is known by the number the next message had when `connect_to_server` was called
for it: the messages handed in before the call have lower numbers.  The program has no such
number.

Only the controller connects and disconnects.  Producers, the worker, and the thread that is
told of a disconnect and signals the worker to stop, take their steps at any time.
-/
import CloudMeeting.Client.Handover

namespace CloudMeeting.Client

variable {Image : Type}

/-- What the controller is in the middle of. -/
inductive NetworkCall where
  | connectToServer (since : Nat)
  | disconnectFromHost
deriving DecidableEq

/-- Where the controller is. -/
inductive ControllerStage where
  | idle
  /-- About to clear `send_running_`. -/
  | stopRunning (call : NetworkCall)
  /-- About to advance `send_epoch_`. -/
  | stopEpoch (call : NetworkCall)
  /-- Waiting for the workers to end. -/
  | join (since : Nat)
  /-- Waiting for the IO thread to connect. -/
  | connecting (since : Nat)
  /-- In `start_send_worker`. -/
  | startSendWorker
deriving DecidableEq

/-- What has been posted to the IO thread. -/
inductive IoCall (Image : Type) where
  | sendWireData (msg : MessagePtr Image) (frame : Bytes)
  | connectOnIoThread
  /-- The second half of `connectOnIoThread`, once the queue has been cleared. -/
  | waitForConnected
  | disconnectOnIoThread

structure NetworkManager (Image : Type) where
  hub : MessageHub Image := { connection := true }
  controller : ControllerStage := .idle
  io : List (IoCall Image) := []
  /-- The connection whose socket is open. -/
  socket : Option Nat := none
  /-- The frames written, each with the connection to whose socket and with its message. -/
  written : List (Nat × MessagePtr Image × Bytes) := []

inductive NetworkEvent (Image : Type) where
  | connectToServer
  | disconnectFromHost
  /-- The controller's next step. -/
  | controller
  /-- The IO thread's next step: something of a frame is written or the connect succeeds, if `ok`,
  and a clear gets the lock, if `locked`. -/
  | io (ok : Bool) (locked : Bool)
  /-- The socket fails, or the server closes the connection. -/
  | socketError
  /-- A step of a producer, of a worker or of a thread that signals them to stop. -/
  | hub (e : HubEvent Image)

/-- The steps that other threads than the controller and the IO thread take. -/
def HubEvent.shared : HubEvent Image → Bool
  | .clearAll _ => false
  | .attach _ => false
  | .start => false
  | _ => true

/-- The frames posted since an earlier state of the hub. -/
def MessageHub.newlyPosted (hub hub' : MessageHub Image) : List (MessagePtr Image × Bytes) :=
  hub'.posted.drop hub.posted.length

namespace NetworkManager

/-- The hub after a step, with its new frames posted to the IO thread. -/
def post (net : NetworkManager Image) (hub : MessageHub Image) : NetworkManager Image :=
  { net with
    hub := hub
    io := net.io ++ (net.hub.newlyPosted hub).map fun (msg, frame) => .sendWireData msg frame }

/-- The controller's next step, unless it has to wait. -/
def stepController (net : NetworkManager Image) : Option (NetworkManager Image) :=
  match net.controller with
  | .idle => none
  | .stopRunning call =>
      some { net with hub := { net.hub with sendRunning := false }, controller := .stopEpoch call }
  | .stopEpoch call =>
      let net := { net with hub := { net.hub with sendEpoch := net.hub.sendEpoch + 1 } }
      match call with
      | .connectToServer since => some { net with controller := .join since }
      | .disconnectFromHost =>
          some { net with controller := .idle, io := net.io ++ [.disconnectOnIoThread] }
  | .join since =>
      if net.hub.workers.all fun worker => worker.stage matches .done then
        some { net with
          hub := { net.hub with workers := [] }
          controller := .connecting since
          io := net.io ++ [.connectOnIoThread] }
      else none
  | .connecting _ => none
  | .startSendWorker =>
      match net.hub.stepStart with
      | none => none
      | some hub =>
          some { net with
            hub := hub
            controller := if hub.starting = .idle then .idle else .startSendWorker }

/-- The IO thread's next step. -/
def stepIo (net : NetworkManager Image) (ok locked : Bool) : Option (NetworkManager Image) :=
  match net.io with
  | [] => none
  | .sendWireData msg frame :: rest =>
      let written := match net.socket with
        | some since => if ok then [(since, msg, frame)] else []
        | none => []
      some { net with io := rest, written := net.written ++ written }
  | .connectOnIoThread :: rest =>
      some { net with
        io := .waitForConnected :: rest
        socket := none
        hub := { net.hub with sendQueue := net.hub.sendQueue.clear locked } }
  | .waitForConnected :: rest =>
      match net.controller with
      | .connecting since =>
          some { net with
            io := rest
            socket := if ok then some since else none
            controller := if ok then .startSendWorker else .idle }
      | _ => none
  | .disconnectOnIoThread :: rest =>
      some { net with
        io := rest
        socket := none
        hub := { net.hub with sendQueue := net.hub.sendQueue.clear locked } }

def step (qt : Qt Image) (net : NetworkManager Image) :
    NetworkEvent Image → Option (NetworkManager Image)
  | .connectToServer =>
      if net.controller = .idle then
        some { net with controller := .stopRunning (.connectToServer net.hub.serial) }
      else none
  | .disconnectFromHost =>
      if net.controller = .idle then
        some { net with controller := .stopRunning .disconnectFromHost }
      else none
  | .controller => net.stepController
  | .io ok locked => net.stepIo ok locked
  | .socketError => some { net with socket := none }
  | .hub e => if e.shared then (MessageHub.step qt net.hub e).map net.post else none

end NetworkManager

/-! ### What is in the queue came in by a push -/

namespace PriorityMessageQueue

variable {q : PriorityMessageQueue Image}

theorem mem_queued {msg : MessagePtr Image} :
    msg ∈ q.queued ↔ ∃ priority, msg ∈ q.buckets priority := by
  simp only [queued, List.mem_append]
  constructor
  · rintro (h | h | h | h)
    · exact ⟨.control, h⟩
    · exact ⟨.audio, h⟩
    · exact ⟨.text, h⟩
    · exact ⟨.video, h⟩
  · rintro ⟨priority, h⟩
    cases priority with
    | control => exact .inl h
    | audio => exact .inr (.inl h)
    | text => exact .inr (.inr (.inl h))
    | video => exact .inr (.inr (.inr h))

theorem mem_queued_setBucket {priority : MessagePriority} {bucket : List (MessagePtr Image)}
    {msg : MessagePtr Image} (h : msg ∈ (q.setBucket priority bucket).queued) :
    msg ∈ bucket ∨ msg ∈ q.queued := by
  obtain ⟨other, hother⟩ := mem_queued.mp h
  by_cases hsame : other = priority
  · subst hsame
    rw [setBucket_self] at hother
    exact .inl hother
  · rw [setBucket_of_ne hsame] at hother
    exact .inr (mem_queued.mpr ⟨other, hother⟩)

theorem mem_queued_push {new msg : MessagePtr Image} {locked : Bool}
    (h : msg ∈ (q.push new locked).queued) : msg = new ∨ msg ∈ q.queued := by
  unfold push at h
  split at h
  · rcases mem_queued_setBucket h with hbucket | hold
    · rcases List.mem_append.mp ((pushBounded_sublist _ _ _).subset hbucket) with hold | hnew
      · exact .inr (mem_queued.mpr ⟨_, hold⟩)
      · exact .inl (List.mem_singleton.mp hnew)
    · exact .inr hold
  · exact .inr h

theorem mem_queued_pop {msg : MessagePtr Image}
    (h : msg ∈ q.pop.1 ∨ msg ∈ q.pop.2.queued) : msg ∈ q.queued := by
  rcases q.pop_cases with ⟨_, hpop⟩ | ⟨priority, first, bucket, hbucket, _, hpop⟩
  · rw [hpop] at h
    exact h.resolve_left (by simp)
  · have hin : ∀ other ∈ first :: bucket, other ∈ q.queued := fun other hother =>
      mem_queued.mpr ⟨priority, hbucket ▸ hother⟩
    rw [hpop] at h
    rcases h with hfirst | hrest
    · obtain rfl : first = msg := Option.some.inj hfirst
      exact hin _ List.mem_cons_self
    · rcases mem_queued_setBucket hrest with hbucket | hold
      · exact hin msg (List.mem_cons_of_mem first hbucket)
      · exact hold

theorem mem_queued_clearVideo {msg : MessagePtr Image} {locked : Bool}
    (h : msg ∈ (q.clearVideo locked).queued) : msg ∈ q.queued := by
  unfold clearVideo at h
  split at h
  · exact (mem_queued_setBucket h).resolve_left List.not_mem_nil
  · exact h

theorem mem_queued_clear {msg : MessagePtr Image} {locked : Bool}
    (h : msg ∈ (q.clear locked).queued) : locked = false ∧ msg ∈ q.queued := by
  unfold clear at h
  cases locked with
  | true => exact absurd h List.not_mem_nil
  | false => exact ⟨rfl, h⟩

end PriorityMessageQueue

namespace MessageHub

open PriorityMessageQueue

variable {qt : Qt Image} {hub hub' : MessageHub Image}

/-- Every message queued or in a hand was handed in when the number was `since` or later. -/
def Fresh (since : Nat) (hub : MessageHub Image) : Prop :=
  (∀ msg ∈ hub.sendQueue.queued, since ≤ msg.serial) ∧ ∀ msg ∈ hub.hands, since ≤ msg.serial

theorem newlyPosted_of_eq (h : hub'.posted = hub.posted) : hub.newlyPosted hub' = [] := by
  rw [newlyPosted, h, List.drop_length]

theorem fresh_of_posted_eq {since : Nat} (h : hub'.posted = hub.posted) :
    ∀ entry ∈ hub.newlyPosted hub', since ≤ entry.1.serial := by
  rw [newlyPosted_of_eq h]
  exact fun _ hentry => absurd hentry List.not_mem_nil

/-- A worker's step brings no message in. -/
theorem Works.fresh {since : Nat} {w : SendWorker Image} {localIp : UInt32} {locked : Bool}
    {after : MessageHub Image} {stage : SendStage Image}
    (h : Works qt hub w localIp locked after stage)
    (hqueue : ∀ msg ∈ hub.sendQueue.queued, since ≤ msg.serial)
    (hhand : ∀ msg ∈ w.stage.hand, since ≤ msg.serial) :
    (∀ msg ∈ after.sendQueue.queued, since ≤ msg.serial) ∧
      (∀ msg ∈ stage.hand, since ≤ msg.serial) ∧
      ∀ entry ∈ hub.newlyPosted after, since ≤ entry.1.serial := by
  cases h with
  | ahead _ hnext =>
      refine ⟨hqueue, fun msg hmsg => ?_, fresh_of_posted_eq rfl⟩
      simp [hnext] at hmsg
  | took hstage hpop =>
      have hpopped : ∀ msg, msg ∈ hub.sendQueue.pop.1 ∨ msg ∈ hub.sendQueue.pop.2.queued →
          since ≤ msg.serial := fun msg hmsg => hqueue msg (mem_queued_pop hmsg)
      rw [hpop] at hpopped
      exact ⟨fun msg hmsg => hpopped msg (.inr hmsg), fun msg hmsg => hpopped msg (.inl hmsg),
        fresh_of_posted_eq rfl⟩
  | returning hstage hepoch hkind =>
      rw [hstage] at hhand
      exact ⟨hqueue, hhand, fresh_of_posted_eq rfl⟩
  | forwarding hstage hepoch hconnection =>
      rw [hstage] at hhand
      exact ⟨hqueue, hhand, fresh_of_posted_eq rfl⟩
  | dropped hstage hnext hwhy =>
      refine ⟨hqueue, fun msg hmsg => ?_, fresh_of_posted_eq rfl⟩
      simp [hnext] at hmsg
  | @gaveBack msg hstage =>
      rw [hstage] at hhand
      refine ⟨fun other hother => ?_, fun _ hmsg => by simp [SendStage.hand] at hmsg,
        fresh_of_posted_eq rfl⟩
      rcases mem_queued_push hother with rfl | hold
      · exact hhand other rfl
      · exact hqueue other hold
  | @forwarded msg frame hstage hframe =>
      rw [hstage] at hhand
      refine ⟨hqueue, fun _ hmsg => by simp [SendStage.hand] at hmsg, fun entry hentry => ?_⟩
      rw [newlyPosted, List.drop_left, List.mem_singleton] at hentry
      rw [hentry]
      exact hhand msg rfl

theorem Fresh.work {since : Nat} (h : hub.Fresh since) (halone : hub.Alone) {worker : Nat}
    {localIp : UInt32} {locked : Bool}
    (hstep : stepWorker qt hub worker localIp locked = some hub') :
    hub'.Fresh since ∧ ∀ entry ∈ hub.newlyPosted hub', since ≤ entry.1.serial := by
  obtain ⟨w, after, stage, rfl, hworkers, hworks, rfl⟩ := halone.work hstep
  obtain ⟨hqueue, hhands⟩ := h
  rw [hands_worker hworkers] at hhands
  obtain ⟨hafter, hhand, hposted⟩ := hworks.fresh hqueue fun msg hmsg =>
    hhands msg (Option.mem_toList.mpr hmsg)
  refine ⟨⟨hafter, fun msg hmsg => ?_⟩, hposted⟩
  rw [hands_worker (w := { w with stage := stage }) rfl] at hmsg
  exact hhand msg (Option.mem_toList.mp hmsg)

theorem Fresh.start {since : Nat} (h : hub.Fresh since) (hstarts : Starts hub hub') :
    hub'.Fresh since := by
  obtain ⟨hqueue, hhands⟩ := h
  cases hstarts with
  | join hstage hdone => exact ⟨hqueue, fun _ hmsg => absurd hmsg List.not_mem_nil⟩
  | spawn hstage =>
      refine ⟨hqueue, fun msg hmsg => hhands msg ?_⟩
      simpa [hands, SendStage.hand] using hmsg
  | _ => exact ⟨hqueue, hhands⟩

/-- The step of another thread brings in a message with the next number, at most. -/
theorem Fresh.step {since : Nat} (h : hub.Fresh since) (halone : hub.Alone)
    (hsince : since ≤ hub.serial) {e : HubEvent Image} (hshared : e.shared = true)
    (hstep : step qt hub e = some hub') :
    hub'.Fresh since ∧ ∀ entry ∈ hub.newlyPosted hub', since ≤ entry.1.serial := by
  cases e with
  | enqueueSend msg locked =>
      refine Option.some.inj hstep ▸ ⟨⟨fun other hother => ?_, h.2⟩, fresh_of_posted_eq rfl⟩
      rcases mem_queued_push hother with rfl | hold
      · exact hsince
      · exact h.1 other hold
  | clearPendingVideo locked =>
      exact Option.some.inj hstep ▸
        ⟨⟨fun msg hmsg => h.1 msg (mem_queued_clearVideo hmsg), h.2⟩, fresh_of_posted_eq rfl⟩
  | clearAll locked => simp [HubEvent.shared] at hshared
  | attach connection => simp [HubEvent.shared] at hshared
  | stopRunning => exact Option.some.inj hstep ▸ ⟨h, fresh_of_posted_eq rfl⟩
  | stopEpoch =>
      simp only [MessageHub.step] at hstep
      split at hstep
      · exact Option.some.inj hstep ▸ ⟨h, fresh_of_posted_eq rfl⟩
      · simp at hstep
  | start => simp [HubEvent.shared] at hshared
  | work worker localIp locked => exact h.work halone hstep

/-- Where every worker has ended, no frame is posted and none begins. -/
theorem quiet_step {e : HubEvent Image} (hquiet : ∀ w ∈ hub.workers, w.stage = .done)
    (hshared : e.shared = true) (hstep : step qt hub e = some hub') :
    (∀ w ∈ hub'.workers, w.stage = .done) ∧ hub'.posted = hub.posted := by
  cases e with
  | clearAll locked => simp [HubEvent.shared] at hshared
  | attach connection => simp [HubEvent.shared] at hshared
  | start => simp [HubEvent.shared] at hshared
  | stopEpoch =>
      simp only [MessageHub.step] at hstep
      split at hstep
      · exact Option.some.inj hstep ▸ ⟨hquiet, rfl⟩
      · simp at hstep
  | work worker localIp locked =>
      obtain ⟨w, after, stage, hw, _, _⟩ := stepWorker_cases hstep
      have hdone := hquiet w (List.mem_of_getElem? hw)
      simp [MessageHub.step, stepWorker, hw, sendLoop, hdone] at hstep
  | _ => exact Option.some.inj hstep ▸ ⟨hquiet, rfl⟩

end MessageHub

/-! ### What is under way belongs to the connection -/

def IoCall.msg : IoCall Image → Option (MessagePtr Image)
  | .sendWireData msg _ => some msg
  | _ => none

/-- The call is a part of `connectOnIoThread`. -/
def IoCall.connects : IoCall Image → Bool
  | .connectOnIoThread => true
  | .waitForConnected => true
  | _ => false

/-- When the call of `connect_to_server` was made that the controller is in the middle of. -/
def ControllerStage.since : ControllerStage → Option Nat
  | .stopRunning (.connectToServer since) => some since
  | .stopEpoch (.connectToServer since) => some since
  | .join since => some since
  | .connecting since => some since
  | _ => none

namespace NetworkManager

variable {qt : Qt Image} {net net' : NetworkManager Image}

/-- Every frame was written to the socket of a connection made before its message was handed
in. -/
def NothingStale (net : NetworkManager Image) : Prop :=
  ∀ entry ∈ net.written, entry.1 ≤ entry.2.1.serial

/-- The queue that is cleared for a new connection is cleared of the messages that were handed in
before the connect. -/
def ClearsStale (net : NetworkManager Image) : NetworkEvent Image → Prop
  | .io _ locked =>
      match net.io, net.controller with
      | .connectOnIoThread :: _, .connecting since =>
          locked = true ∨ ∀ msg ∈ net.hub.sendQueue.queued, since ≤ msg.serial
      | _, _ => True
  | _ => True

/-- Everything queued, in a hand or on the way to the IO thread was handed in when the number was
`since` or later. -/
structure Fresh (since : Nat) (net : NetworkManager Image) : Prop where
  made : since ≤ net.hub.serial
  hub : net.hub.Fresh since
  io : ∀ call ∈ net.io, ∀ msg ∈ call.msg, since ≤ msg.serial

theorem Fresh.congr {since : Nat} {net net' : NetworkManager Image} (h : net.Fresh since)
    (hhub : net'.hub = net.hub) (hio : net'.io = net.io) : net'.Fresh since :=
  ⟨hhub ▸ h.made, hhub ▸ h.hub, hio ▸ h.io⟩

/-- What the controller waits for: its connect is the last call posted, or the only one left. -/
inductive Connecting (since : Nat) (net : NetworkManager Image) : Prop
  | posted {ahead : List (IoCall Image)} (hio : net.io = ahead ++ [.connectOnIoThread])
      (hahead : ∀ call ∈ ahead, call.connects = false)
  | cleared (hio : net.io = [.waitForConnected]) (hsocket : net.socket = none)
      (hfresh : net.hub.Fresh since)

theorem Connecting.congr {since : Nat} {net net' : NetworkManager Image}
    (h : net.Connecting since) (hhub : net'.hub = net.hub) (hio : net'.io = net.io)
    (hsocket : net'.socket = net.socket) : net'.Connecting since := by
  cases h with
  | posted hposted hahead => exact .posted (hio.trans hposted) hahead
  | cleared hcleared hnone hfresh =>
      exact .cleared (hio.trans hcleared) (hsocket.trans hnone) (hhub ▸ hfresh)

structure Inv (net : NetworkManager Image) : Prop where
  alone : net.hub.Alone
  socket : ∀ since ∈ net.socket, net.Fresh since
  called : ∀ since ∈ net.controller.since, since ≤ net.hub.serial
  /-- No worker is running while the controller waits for its connect. -/
  connecting : ∀ since, net.controller = .connecting since →
    (∀ w ∈ net.hub.workers, w.stage = .done) ∧ net.Connecting since
  resting : (∀ since, net.controller ≠ .connecting since) →
    ∀ call ∈ net.io, call.connects = false
  written : net.NothingStale

theorem Inv.init : Inv ({} : NetworkManager Image) where
  alone := ⟨Nat.zero_le 1, .inr rfl⟩
  socket := fun _ h => by simp at h
  called := fun _ h => by simp [ControllerStage.since] at h
  connecting := fun _ h => by simp at h
  resting := fun _ _ h => absurd h List.not_mem_nil
  written := fun _ h => absurd h List.not_mem_nil

theorem serial_step_hub {e : HubEvent Image} {hub' : MessageHub Image}
    (hstep : MessageHub.step qt net.hub e = some hub') : net.hub.serial ≤ hub'.serial := by
  rw [MessageHub.serial_step hstep]
  exact Nat.le_add_right ..

theorem connects_post {hub' : MessageHub Image} {call : IoCall Image}
    (h : call ∈ (net.hub.newlyPosted hub').map fun (msg, frame) => IoCall.sendWireData msg frame) :
    call.connects = false := by
  obtain ⟨_, _, rfl⟩ := List.mem_map.mp h
  rfl

/-- A step of another thread. -/
theorem Inv.hub (h : net.Inv) {e : HubEvent Image} {hub' : MessageHub Image}
    (hshared : e.shared = true) (hstep : MessageHub.step qt net.hub e = some hub') :
    (net.post hub').Inv := by
  have hserial := serial_step_hub hstep
  refine
    { alone := h.alone.step hstep
      socket := fun since hsocket => ?_
      called := fun since hcalled => (h.called since hcalled).trans hserial
      connecting := fun since hstage => ?_
      resting := fun hstage call hcall => ?_
      written := h.written }
  · obtain ⟨hmade, hhub, hio⟩ := h.socket since hsocket
    obtain ⟨hfresh, hposted⟩ := hhub.step h.alone hmade hshared hstep
    refine ⟨hmade.trans hserial, hfresh, fun call hcall msg hmsg => ?_⟩
    rcases List.mem_append.mp hcall with hold | hnew
    · exact hio call hold msg hmsg
    · obtain ⟨entry, hentry, rfl⟩ := List.mem_map.mp hnew
      obtain rfl : entry.1 = msg := Option.some.inj hmsg
      exact hposted entry hentry
  · obtain ⟨hquiet, hconnecting⟩ := h.connecting since hstage
    obtain ⟨hquiet', hposted⟩ := MessageHub.quiet_step hquiet hshared hstep
    have hsame : (net.post hub').io = net.io := by
      rw [post, MessageHub.newlyPosted_of_eq hposted, List.map_nil, List.append_nil]
    refine ⟨hquiet', ?_⟩
    cases hconnecting with
    | posted hio hahead => exact .posted (hsame.trans hio) hahead
    | cleared hio hsocket hfresh =>
        have hcontroller : net.controller = .connecting since := hstage
        have hmade : since ≤ net.hub.serial := h.called since (by rw [hcontroller]; rfl)
        exact .cleared (hsame.trans hio) hsocket (hfresh.step h.alone hmade hshared hstep).1
  · rcases List.mem_append.mp hcall with hold | hnew
    · exact h.resting hstage call hold
    · exact connects_post hnew

/-- A call that carries no message is posted. -/
theorem Fresh.post {since : Nat} (h : net.Fresh since) {call : IoCall Image}
    (hnone : call.msg = none) :
    ∀ other ∈ net.io ++ [call], ∀ msg ∈ other.msg, since ≤ msg.serial := by
  intro other hother msg hmsg
  rcases List.mem_append.mp hother with hold | hnew
  · exact h.io other hold msg hmsg
  · rw [List.mem_singleton.mp hnew, hnone] at hmsg
    simp at hmsg

/-- The controller goes on to where it still waits for no connect. -/
theorem Inv.goesOn (h : net.Inv) {controller : ControllerStage}
    (hbefore : ∀ since, net.controller ≠ .connecting since)
    (hafter : ∀ since, controller ≠ .connecting since)
    (hsince : ∀ since ∈ controller.since, since ∈ net.controller.since) (running : Bool)
    (epoch : UInt64) :
    Inv { net with
      hub := { net.hub with sendRunning := running, sendEpoch := epoch }
      controller := controller } := by
  refine ⟨⟨h.alone.workers, h.alone.starting⟩, fun since hsocket => ?_,
    fun since hcalled => h.called since (hsince since hcalled),
    fun since hstage => absurd hstage (hafter since), fun _ => h.resting hbefore, h.written⟩
  obtain ⟨hmade, hhub, hio⟩ := h.socket since hsocket
  exact ⟨hmade, hhub, hio⟩

theorem Inv.posts (h : net.Inv) (hnot : ∀ since, net.controller ≠ .connecting since)
    {call : IoCall Image} (hnone : call.msg = none) (hconnects : call.connects = false) :
    Inv { net with io := net.io ++ [call] } := by
  refine ⟨h.alone, fun since hsocket => ?_, h.called,
    fun since hstage => absurd hstage (hnot since), fun _ other hother => ?_, h.written⟩
  · have hfresh := h.socket since hsocket
    exact ⟨hfresh.made, hfresh.hub, hfresh.post hnone⟩
  · rcases List.mem_append.mp hother with hold | hnew
    · exact h.resting hnot other hold
    · rw [List.mem_singleton.mp hnew]
      exact hconnects

/-- The old worker is gone, and the connect is posted behind what is left of it. -/
theorem Inv.join (h : net.Inv) {since : Nat} (hstage : net.controller = .join since) :
    Inv { net with
      hub := { net.hub with workers := [] }
      controller := .connecting since
      io := net.io ++ [.connectOnIoThread] } := by
  refine ⟨⟨Nat.zero_le 1, .inr rfl⟩, fun made hsocket => ?_, fun made hcalled => ?_,
    fun made hmade => ?_, fun hstage => absurd rfl (hstage since), h.written⟩
  · have hfresh := h.socket made hsocket
    exact ⟨hfresh.made, ⟨hfresh.hub.1, fun _ hmsg => absurd hmsg List.not_mem_nil⟩,
      hfresh.post rfl⟩
  · apply h.called made
    rw [hstage]
    exact hcalled
  · exact ⟨fun _ hw => absurd hw List.not_mem_nil, .posted rfl (h.resting (by simp [hstage]))⟩

theorem Inv.startSendWorker (h : net.Inv) (hstage : net.controller = .startSendWorker)
    {hub : MessageHub Image} (hstarts : MessageHub.Starts net.hub hub) :
    Inv { net with
      hub := hub
      controller := if hub.starting = .idle then .idle else .startSendWorker } := by
  have hserial : hub.serial = net.hub.serial := by cases hstarts <;> rfl
  have hnot : ∀ since, (if hub.starting = .idle then ControllerStage.idle else .startSendWorker)
      ≠ .connecting since := by
    intro since
    split <;> simp
  refine ⟨h.alone.start hstarts, fun since hsocket => ?_, fun since hcalled => ?_,
    fun since hstage => absurd hstage (hnot since), fun _ => h.resting (by simp [hstage]),
    h.written⟩
  · have hfresh := h.socket since hsocket
    exact ⟨hserial ▸ hfresh.made, hfresh.hub.start hstarts, hfresh.io⟩
  · exfalso
    revert hcalled
    show since ∉ ControllerStage.since (if _ then _ else _)
    split <;> simp [ControllerStage.since]

theorem Inv.controller (h : net.Inv) (hstep : net.stepController = some net') : net'.Inv := by
  unfold stepController at hstep
  split at hstep
  · simp at hstep
  · rename_i call hstage
    obtain rfl := Option.some.inj hstep
    refine h.goesOn (by simp [hstage]) (by simp) (fun since hcalled => ?_) false _
    rw [hstage]
    cases call <;> exact hcalled
  · rename_i call hstage
    cases call with
    | connectToServer made =>
        obtain rfl := Option.some.inj hstep
        refine h.goesOn (by simp [hstage]) (by simp) (fun since hcalled => ?_) _ _
        rw [hstage]
        exact hcalled
    | disconnectFromHost =>
        obtain rfl := Option.some.inj hstep
        have hidle : Inv { net with
            hub := { net.hub with sendEpoch := net.hub.sendEpoch + 1 }
            controller := .idle } :=
          h.goesOn (by simp [hstage]) (by simp) (by simp [ControllerStage.since]) _ _
        have hnone : (IoCall.disconnectOnIoThread : IoCall Image).msg = none := rfl
        exact hidle.posts (by simp) hnone rfl
  · rename_i since hstage
    split at hstep
    · obtain rfl := Option.some.inj hstep
      exact h.join hstage
    · simp at hstep
  · simp at hstep
  · rename_i hstage
    split at hstep
    · simp at hstep
    · rename_i hub hstart
      obtain rfl := Option.some.inj hstep
      exact h.startSendWorker hstage (MessageHub.starts hstart)

/-- A call in front of the connect is taken, and the connect is still the last one. -/
theorem Connecting.tail {since : Nat} (h : net.Connecting since) {call : IoCall Image}
    {rest : List (IoCall Image)} (hio : net.io = call :: rest) (hcall : call.connects = false) :
    ∃ ahead, rest = ahead ++ [.connectOnIoThread] ∧
      ∀ other ∈ ahead, IoCall.connects other = false := by
  cases h with
  | @posted ahead hposted hahead =>
      rw [hio] at hposted
      cases ahead with
      | nil =>
          obtain ⟨rfl, -⟩ := List.cons.inj hposted
          simp [IoCall.connects] at hcall
      | cons first ahead =>
          obtain ⟨-, hrest⟩ := List.cons.inj hposted
          exact ⟨ahead, hrest, fun other hother => hahead other (List.mem_cons_of_mem first hother)⟩
  | cleared hcleared _ _ =>
      rw [hio] at hcleared
      obtain ⟨rfl, -⟩ := List.cons.inj hcleared
      simp [IoCall.connects] at hcall

/-- Where a part of `connectOnIoThread` is in front, the controller waits for it, and no other
call is there. -/
theorem Inv.dialing (h : net.Inv) {call : IoCall Image} {rest : List (IoCall Image)}
    (hio : net.io = call :: rest) (hcall : call.connects = true) :
    ∃ since, net.controller = .connecting since ∧ rest = [] ∧
      (call = .waitForConnected → net.hub.Fresh since) := by
  have hwaits : ∃ since, net.controller = .connecting since := by
    by_contra hnone
    have hnot := h.resting (fun since hstage => hnone ⟨since, hstage⟩) call (by simp [hio])
    simp [hcall] at hnot
  obtain ⟨since, hstage⟩ := hwaits
  cases (h.connecting since hstage).2 with
  | @posted ahead hposted hahead =>
      rw [hio] at hposted
      cases ahead with
      | nil =>
          obtain ⟨rfl, hrest⟩ := List.cons.inj hposted
          exact ⟨since, hstage, hrest, fun hwait => by simp at hwait⟩
      | cons first ahead =>
          obtain ⟨rfl, -⟩ := List.cons.inj hposted
          simp [hahead call List.mem_cons_self] at hcall
  | cleared hcleared _ hfresh =>
      rw [hio] at hcleared
      obtain ⟨-, hrest⟩ := List.cons.inj hcleared
      exact ⟨since, hstage, hrest, fun _ => hfresh⟩

/-- The IO thread takes a call that does not connect. -/
theorem Inv.taken (h : net.Inv) {call : IoCall Image} {rest : List (IoCall Image)}
    (hio : net.io = call :: rest) (hcall : call.connects = false) :
    Inv { net with io := rest } := by
  have hrest : ∀ other ∈ rest, other ∈ net.io := fun other hother => by
    rw [hio]
    exact List.mem_cons_of_mem call hother
  refine ⟨h.alone, fun since hsocket => ?_, h.called, fun since hstage => ?_,
    fun hstage other hother => h.resting hstage other (hrest other hother), h.written⟩
  · obtain ⟨hmade, hhub, hcalls⟩ := h.socket since hsocket
    exact ⟨hmade, hhub, fun other hother => hcalls other (hrest other hother)⟩
  · obtain ⟨hquiet, hconnecting⟩ := h.connecting since hstage
    obtain ⟨ahead, hlast, hahead⟩ := hconnecting.tail hio hcall
    exact ⟨hquiet, .posted hlast hahead⟩

theorem clear_alone {hub : MessageHub Image} (h : hub.Alone) (queue : PriorityMessageQueue Image) :
    MessageHub.Alone { hub with sendQueue := queue } :=
  ⟨h.workers, h.starting⟩

/-- The socket is destroyed and the queue cleared. -/
theorem Inv.clear (h : net.Inv) (locked : Bool)
    (hnone : ∀ since, net.controller = .connecting since → net.io ≠ [.waitForConnected]) :
    Inv { net with
      socket := none
      hub := { net.hub with sendQueue := net.hub.sendQueue.clear locked } } := by
  refine ⟨clear_alone h.alone _, fun _ hsocket => by simp at hsocket, h.called,
    fun since hstage => ?_, h.resting, h.written⟩
  obtain ⟨hquiet, hconnecting⟩ := h.connecting since hstage
  refine ⟨hquiet, ?_⟩
  cases hconnecting with
  | posted hio hahead => exact .posted hio hahead
  | cleared hio _ _ => exact absurd hio (hnone since hstage)

/-- What is written now was handed in since the connection in use was asked for. -/
theorem Inv.sendWireData (h : net.Inv) {msg : MessagePtr Image} {frame : Bytes}
    {rest : List (IoCall Image)} (hio : net.io = .sendWireData msg frame :: rest)
    {written : List (Nat × MessagePtr Image × Bytes)}
    (hwritten : ∀ entry ∈ written, entry.1 ∈ net.socket ∧ entry.2.1 = msg) :
    Inv { net with io := rest, written := net.written ++ written } := by
  have htaken := h.taken hio rfl
  refine ⟨htaken.alone, fun since hsocket => (htaken.socket since hsocket).congr rfl rfl,
    htaken.called, fun since hstage => ?_, htaken.resting, fun entry hentry => ?_⟩
  · obtain ⟨hquiet, hconnecting⟩ := htaken.connecting since hstage
    exact ⟨hquiet, hconnecting.congr rfl rfl rfl⟩
  rcases List.mem_append.mp hentry with hold | hnew
  · exact h.written entry hold
  · obtain ⟨hsocket, hmsg⟩ := hwritten entry hnew
    have hfresh := (h.socket entry.1 hsocket).io (.sendWireData msg frame) (by simp [hio])
    rw [hmsg]
    exact hfresh msg rfl

/-- The old socket goes, and what is stale goes with it. -/
theorem Inv.connectOnIoThread (h : net.Inv) {rest : List (IoCall Image)}
    (hio : net.io = .connectOnIoThread :: rest) {locked : Bool}
    (hclears : ∀ since, net.controller = .connecting since →
      locked = true ∨ ∀ msg ∈ net.hub.sendQueue.queued, since ≤ msg.serial) :
    Inv { net with
      io := .waitForConnected :: rest
      socket := none
      hub := { net.hub with sendQueue := net.hub.sendQueue.clear locked } } := by
  obtain ⟨since, hstage, rfl, -⟩ := h.dialing hio rfl
  have hquiet := (h.connecting since hstage).1
  refine ⟨clear_alone h.alone _, fun _ hsocket => by simp at hsocket, h.called,
    fun made hmade => ?_, fun hnot => absurd hstage (hnot since), h.written⟩
  obtain rfl : since = made := by
    have hsame := hstage.symm.trans hmade
    simpa using hsame
  refine ⟨hquiet, .cleared rfl rfl ⟨fun msg hmsg => ?_, fun msg hmsg => ?_⟩⟩
  · obtain ⟨hlocked, hold⟩ := PriorityMessageQueue.mem_queued_clear hmsg
    exact (hclears since hstage).resolve_left (by simp [hlocked]) msg hold
  · have hhands : net.hub.hands = [] := MessageHub.hands_of_done hquiet
    have hmsg : msg ∈ net.hub.hands := hmsg
    simp [hhands] at hmsg

theorem Inv.io (h : net.Inv) {ok locked : Bool} (hclears : net.ClearsStale (.io ok locked))
    (hstep : net.stepIo ok locked = some net') : net'.Inv := by
  unfold stepIo at hstep
  split at hstep
  · simp at hstep
  · rename_i msg frame rest hio
    obtain rfl := Option.some.inj hstep
    refine h.sendWireData hio fun entry hentry => ?_
    cases hsocket : net.socket with
    | none => simp [hsocket] at hentry
    | some since =>
        cases ok with
        | false => simp [hsocket] at hentry
        | true =>
            obtain rfl : entry = (since, msg, frame) := by simpa [hsocket] using hentry
            exact ⟨rfl, rfl⟩
  · rename_i rest hio
    obtain rfl := Option.some.inj hstep
    refine h.connectOnIoThread hio fun since hstage => ?_
    simpa [ClearsStale, hio, hstage] using hclears
  · rename_i rest hio
    obtain ⟨since, hstage, rfl, hfresh⟩ := h.dialing hio rfl
    rw [hstage] at hstep
    obtain rfl := Option.some.inj hstep
    have hmade : since ≤ net.hub.serial := h.called since (by rw [hstage]; rfl)
    refine ⟨h.alone, fun made hsocket => ?_, fun made hcalled => ?_, fun made hcalled => ?_,
      fun _ _ hcall => absurd hcall List.not_mem_nil, h.written⟩
    · cases ok with
      | false => simp at hsocket
      | true =>
          obtain rfl : since = made := Option.some.inj hsocket
          exact ⟨hmade, hfresh rfl, fun _ hcall => absurd hcall List.not_mem_nil⟩
    · cases ok <;> simp [ControllerStage.since] at hcalled
    · cases ok <;> simp at hcalled
  · rename_i rest hio
    obtain rfl := Option.some.inj hstep
    apply Inv.clear (h.taken hio rfl) locked
    intro since hstage hwait
    obtain ⟨ahead, hlast, -⟩ := (h.connecting since hstage).2.tail hio rfl
    have hwait : rest = [.waitForConnected] := hwait
    cases ahead with
    | nil => simp [hwait] at hlast
    | cons first ahead => simp [hwait] at hlast

theorem Inv.step (h : net.Inv) {e : NetworkEvent Image} (hclears : net.ClearsStale e)
    (hstep : step qt net e = some net') : net'.Inv := by
  cases e with
  | connectToServer =>
      simp only [NetworkManager.step] at hstep
      split at hstep
      · rename_i hidle
        obtain rfl := Option.some.inj hstep
        refine ⟨h.alone, fun since hsocket => (h.socket since hsocket).congr rfl rfl,
          fun since hcalled => ?_, fun _ hstage => by simp at hstage,
          fun _ => h.resting (by simp [hidle]), h.written⟩
        obtain rfl : net.hub.serial = since := Option.some.inj hcalled
        exact Nat.le_refl _
      · simp at hstep
  | disconnectFromHost =>
      simp only [NetworkManager.step] at hstep
      split at hstep
      · rename_i hidle
        obtain rfl := Option.some.inj hstep
        exact ⟨h.alone, fun since hsocket => (h.socket since hsocket).congr rfl rfl,
          fun _ hcalled => by simp [ControllerStage.since] at hcalled,
          fun _ hstage => by simp at hstage, fun _ => h.resting (by simp [hidle]), h.written⟩
      · simp at hstep
  | controller => exact h.controller hstep
  | io ok locked => exact h.io hclears hstep
  | socketError =>
      obtain rfl := Option.some.inj hstep
      refine ⟨h.alone, fun _ hsocket => by simp at hsocket, h.called, fun since hstage => ?_,
        h.resting, h.written⟩
      obtain ⟨hquiet, hconnecting⟩ := h.connecting since hstage
      refine ⟨hquiet, ?_⟩
      cases hconnecting with
      | posted hio hahead => exact .posted hio hahead
      | cleared hio _ hfresh => exact .cleared hio rfl hfresh
  | hub e =>
      simp only [NetworkManager.step] at hstep
      split at hstep
      · rename_i hshared
        obtain ⟨hub', hhub, rfl⟩ := Option.map_eq_some_iff.mp hstep
        exact h.hub hshared hhub
      · simp at hstep

/-! ### Runs -/

/-- **No frame of a message handed in before the connect is written to the new socket**, in every
run in which each clearing before a connect gets the lock, or finds no such message. -/
theorem noStaleSends (qt : Qt Image) {es : List (NetworkEvent Image)}
    (h : Run.Steps (step qt) ClearsStale {} es) :
    Run.Throughout (step qt) NothingStale {} es := by
  have hinv : Run.Throughout (step qt) Inv {} es :=
    Run.throughout_of_step (fun _ _ _ hinv hclears hstep => hinv.step hclears hstep) Inv.init h
  exact hinv.mono fun _ hinv => hinv.written

instance (net : NetworkManager Image) (e : NetworkEvent Image) : Decidable (net.ClearsStale e) := by
  unfold ClearsStale
  split
  · split <;> infer_instance
  · infer_instance

instance (net : NetworkManager Image) : Decidable net.NothingStale := by
  unfold NothingStale
  infer_instance

/-- A connect that succeeds, and whose clearing gets the lock or not. -/
def sampleConnect (locked : Bool) : List (NetworkEvent Unit) :=
  .connectToServer :: List.replicate 3 .controller ++ [.io true locked, .io true true]
    ++ List.replicate 6 .controller

/-- The only worker takes some steps. -/
def sampleWork (steps : Nat) : List (NetworkEvent Unit) :=
  List.replicate steps (.hub (.work 0 0 true))

/-- A text is handed in between two connections, and another one in the second. -/
def sampleReconnect (locked : Bool) : List (NetworkEvent Unit) :=
  sampleConnect true ++ [.disconnectFromHost, .controller, .controller, .io true true]
    ++ sampleWork 1 ++ [.hub (.enqueueSend (.sendText [72]) true)] ++ sampleConnect locked
    ++ [.hub (.enqueueSend (.sendText [73]) true)] ++ sampleWork 5 ++ [.io true true]

theorem noStaleSends_sampleReconnect :
    (Run.run (step MessageCodec.plainQt) {} (sampleReconnect true)).map
      (·.written.map fun entry => (entry.1, entry.2.1.serial)) = some [(1, 1)] ∧
    Run.Throughout (step MessageCodec.plainQt) NothingStale {} (sampleReconnect true) :=
  ⟨by decide +kernel, noStaleSends MessageCodec.plainQt (by decide +kernel)⟩

/-- The text of the time before is the first one written to the new socket, when the clearing gives
up on the lock. -/
theorem staleSend : ¬ ∀ es : List (NetworkEvent Unit),
    Run.Throughout (step MessageCodec.plainQt) NothingStale {} es := by
  intro hall
  have hrun : (Run.run (step MessageCodec.plainQt) {} (sampleReconnect false)).map
      (·.written.map fun entry => (entry.1, entry.2.1.serial)) = some [(1, 0)] := by
    decide +kernel
  rw [Option.map_eq_some_iff] at hrun
  obtain ⟨net, hrun, hwritten⟩ := hrun
  have hlast := (hall (sampleReconnect false)).last hrun
  have hstale : (1, 0) ∈ net.written.map fun entry => (entry.1, entry.2.1.serial) := by
    rw [hwritten]
    exact List.mem_singleton_self _
  obtain ⟨entry, hentry, heq⟩ := List.mem_map.mp hstale
  have hle := hlast entry hentry
  simp only [Prod.mk.injEq] at heq
  omega

end NetworkManager

end CloudMeeting.Client
