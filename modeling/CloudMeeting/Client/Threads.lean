/-
The threads around the meeting window.

A request leaves the window for the controller, a thread with a queue of its own, which
carries out one task after the other.  To connect, it stops the send worker, posts a task
to the IO thread and waits for it; to disconnect it posts one and does not wait.  Results,
notifications and errors come back through the queue of the user interface, the last two in
two hops: the network manager or the hub gets them first and posts them again for the
window.

Each connect request that is handed over gets a serial number, which tasks, notifications
and timers carry along.  The program has no such number and nothing it does depends on it;
it says which connection something belongs to.

Left out are the tasks that create or join a meeting once the client is connected, and all
messages that are not errors: they do not touch the flags of the session, the socket or the
send worker.
-/
import CloudMeeting.Client.Session

namespace CloudMeeting.Client

open MeetingWidget

/-- What the controller is asked to do with the network. -/
inductive Task where
  | connectToServer (serial : Nat) (request : ConnectRequest)
  | disconnectFromHost (serial : Nat)
deriving DecidableEq, Repr

/-- What the IO thread is asked to do. -/
inductive IoTask where
  | connectOnIoThread
  | disconnectOnIoThread (serial : Nat)
deriving DecidableEq, Repr

/-- What waits in the queue of the user interface. -/
inductive Delivery where
  | connectFinished (serial : Nat) (ok : Bool) (request : ConnectRequest)
  /-- `Connection::disconnected`, for the network manager. -/
  | disconnected (serial : Nat)
  /-- `NetworkManager::disconnected`, for the window. -/
  | networkDisconnected (serial : Nat)
  /-- An error, for the hub. -/
  | incoming (error : NetError)
  /-- An error, for the window. -/
  | requestMessage (error : NetError)
deriving DecidableEq, Repr

/-- The connect the controller is waiting for, and what it has come to. -/
structure Dial where
  serial : Nat
  request : ConnectRequest
  result : Option Bool := none
deriving DecidableEq, Repr

structure Threads where
  widget : MeetingWidget := {}
  /-- How many connect requests have been handed over. -/
  serial : Nat := 0
  controller : List Task := []
  dialing : Option Dial := none
  io : List IoTask := []
  /-- There is a socket and it is connected. -/
  connected : Bool := false
  sendRunning : Bool := false
  sendEpoch : Nat := 0
  /-- The epoch of the newest send worker. -/
  worker : Option Nat := none
  ui : List Delivery := []
  /-- The armed timers, by the serial number at the time they were armed. -/
  timers : List Nat := []

namespace Threads

/-- What can happen next. -/
inductive Event where
  | click (request : ConnectRequest)
  | close
  /-- The controller takes its next task, or goes on after a connect. -/
  | controller
  /-- The IO thread takes its next task; a connect comes to `ok` and may report an error. -/
  | io (ok : Bool) (report : Option NetError)
  /-- The socket fails, or the server closes the connection. -/
  | socketError (error : NetError)
  /-- The user interface takes the next delivery. -/
  | ui
  /-- A timer armed for the connection of this number expires. -/
  | timer (serial : Nat)

/-! ### The send worker -/

def signalSendStop (t : Threads) : Threads :=
  { t with sendRunning := false, sendEpoch := t.sendEpoch + 1 }

/-- `MessageHub::start_send_worker`; older workers are gone before the new one starts. -/
def startSendWorker (t : Threads) : Threads :=
  let t := t.signalSendStop
  { t with sendEpoch := t.sendEpoch + 1, sendRunning := true, worker := some (t.sendEpoch + 1) }

/-- A send worker of the current epoch is running. -/
def Working (t : Threads) : Prop := t.sendRunning = true ∧ t.worker = some t.sendEpoch

/-! ### Steps -/

def perform (t : Threads) : Effect → Threads
  | .requestConnect request =>
      { t with serial := t.serial + 1
               controller := t.controller ++ [.connectToServer (t.serial + 1) request] }
  | .disconnectFromHost => { t with controller := t.controller ++ [.disconnectFromHost t.serial] }
  | .singleShot => { t with timers := t.timers ++ [t.serial] }
  | _ => t

/-- Run a slot of the window. -/
def slot (t : Threads) (f : Slot) : Threads :=
  (f t.widget).2.foldl perform { t with widget := (f t.widget).1 }

/-- The slot an event runs, and what is left for it to run on. -/
def intake (t : Threads) : Event → Option (Threads × Slot)
  | .click request => some (t, buttonClicked request)
  | .close => some (t, closeEvent)
  | .ui =>
      match t.ui with
      | .connectFinished _ ok request :: rest =>
          some ({ t with ui := rest }, onConnectFinished ok request)
      | .networkDisconnected _ :: rest => some ({ t with ui := rest }, onNetworkDisconnected)
      | .requestMessage error :: rest => some ({ t with ui := rest }, error.slot)
      | _ => none
  | .timer serial =>
      if serial ∈ t.timers then
        some ({ t with timers := t.timers.erase serial }, MeetingWidget.timeout)
      else none
  | _ => none

/-- The controller's next step. -/
def stepController (t : Threads) : Option Threads :=
  match t.dialing, t.controller with
  | none, .connectToServer serial request :: rest =>
      some { t.signalSendStop with
        controller := rest
        dialing := some { serial := serial, request := request }
        io := t.io ++ [.connectOnIoThread] }
  | none, .disconnectFromHost serial :: rest =>
      some { t.signalSendStop with
        controller := rest
        io := t.io ++ [.disconnectOnIoThread serial] }
  | some ⟨serial, request, some ok⟩, _ =>
      let t := if ok then t.startSendWorker else t
      some { t with dialing := none, ui := t.ui ++ [.connectFinished serial ok request] }
  | _, _ => none

/-- The IO thread's next step.  Whatever socket there was is destroyed first. -/
def stepIo (t : Threads) (ok : Bool) (report : Option NetError) : Option Threads :=
  match t.io with
  | .connectOnIoThread :: rest =>
      some { t with
        io := rest
        connected := ok
        dialing := t.dialing.map fun dial => { dial with result := some ok }
        ui := t.ui ++ (if ok then none else report).toList.map .incoming }
  | .disconnectOnIoThread serial :: rest =>
      some { t with io := rest, connected := false, ui := t.ui ++ [.disconnected serial] }
  | [] => none

/-- A step that runs no slot of the window. -/
def relay (t : Threads) : Event → Option Threads
  | .controller => t.stepController
  | .io ok report => t.stepIo ok report
  | .socketError error =>
      if t.connected then some { t with connected := false, ui := t.ui ++ [.incoming error] }
      else none
  | .ui =>
      match t.ui with
      | .disconnected serial :: rest =>
          some { t.signalSendStop with ui := rest ++ [.networkDisconnected serial] }
      | .incoming error :: rest => some { t with ui := rest ++ [.requestMessage error] }
      | _ => none
  | _ => none

def step (t : Threads) (e : Event) : Option Threads :=
  match t.intake e with
  | some (t, f) => some (t.slot f)
  | none => t.relay e

/-! ### The line

Connects and disconnects under way, the one that reports first in front.  A step that runs
no slot moves one of them on, and a slot takes the first one or adds one at the end.
-/

end Threads

/-- A connect or a disconnect under way. -/
inductive Mark where
  | connect (serial : Nat)
  | disconnect (serial : Nat)
deriving DecidableEq, Repr

def Mark.isConnect : Mark → Bool
  | .connect _ => true
  | .disconnect _ => false

def Task.mark : Task → Mark
  | .connectToServer serial _ => .connect serial
  | .disconnectFromHost serial => .disconnect serial

/-- A connect on the IO thread is the one the controller waits for. -/
def IoTask.mark : IoTask → Option Mark
  | .connectOnIoThread => none
  | .disconnectOnIoThread serial => some (.disconnect serial)

def Delivery.mark : Delivery → Option Mark
  | .connectFinished serial _ _ => some (.connect serial)
  | .disconnected serial => some (.disconnect serial)
  | .networkDisconnected serial => some (.disconnect serial)
  | _ => none

namespace Threads

variable {t t' : Threads}

def line (t : Threads) : List Mark :=
  t.ui.filterMap Delivery.mark ++ (t.io.filterMap IoTask.mark
    ++ ((t.dialing.map fun dial => .connect dial.serial).toList ++ t.controller.map Task.mark))

/-- What the window has to do with, as in `Session`. -/
def session (t : Threads) : Session where
  widget := t.widget
  connects := t.line.countP (·.isConnect)
  disconnects := t.line.countP (!·.isConnect)
  timers := t.timers.length

theorem session_perform (t : Threads) (effect : Effect) :
    (t.perform effect).session = t.session.perform effect := by
  cases effect <;>
    simp [perform, Session.perform, session, line, Task.mark, Mark.isConnect, Nat.add_assoc]

/-- A slot does to the threads what it does to the session. -/
theorem session_slot (t : Threads) (f : Slot) : (t.slot f).session = t.session.slot f := by
  have hfoldl : ∀ (effects : List Effect) (t : Threads),
      (effects.foldl perform t).session = effects.foldl Session.perform t.session := by
    intro effects
    induction effects with
    | nil => exact fun _ => rfl
    | cons effect effects ih =>
        intro t
        rw [List.foldl_cons, List.foldl_cons, ih, session_perform]
  exact hfoldl _ _

theorem widget_slot (t : Threads) (f : Slot) : (t.slot f).widget = (f t.widget).1 := by
  have hfoldl : ∀ (effects : List Effect) (t : Threads),
      (effects.foldl perform t).widget = t.widget := by
    intro effects
    induction effects with
    | nil => exact fun _ => rfl
    | cons effect effects ih =>
        intro t
        rw [List.foldl_cons, ih]
        cases effect <;> rfl
  exact hfoldl _ _

/-- What can run a slot, and what is taken for it. -/
inductive Taken (t : Threads) : Event → Threads → Slot → Prop
  | click (request : ConnectRequest) : Taken t (.click request) t (buttonClicked request)
  | close : Taken t .close t closeEvent
  | connectFinished (serial : Nat) (ok : Bool) (request : ConnectRequest) (rest : List Delivery)
      (hui : t.ui = .connectFinished serial ok request :: rest) :
      Taken t .ui { t with ui := rest } (onConnectFinished ok request)
  | networkDisconnected (serial : Nat) (rest : List Delivery)
      (hui : t.ui = .networkDisconnected serial :: rest) :
      Taken t .ui { t with ui := rest } onNetworkDisconnected
  | requestMessage (error : NetError) (rest : List Delivery)
      (hui : t.ui = .requestMessage error :: rest) :
      Taken t .ui { t with ui := rest } error.slot
  | timer (serial : Nat) (hmem : serial ∈ t.timers) :
      Taken t (.timer serial) { t with timers := t.timers.erase serial } MeetingWidget.timeout

theorem taken {e : Event} {f : Slot} (h : t.intake e = some (t', f)) : Taken t e t' f := by
  cases e with
  | click request =>
      simp only [intake, Option.some.injEq, Prod.mk.injEq] at h
      obtain ⟨rfl, rfl⟩ := h
      exact .click request
  | close =>
      simp only [intake, Option.some.injEq, Prod.mk.injEq] at h
      obtain ⟨rfl, rfl⟩ := h
      exact .close
  | ui =>
      simp only [intake] at h
      split at h
      · rename_i hui
        simp only [Option.some.injEq, Prod.mk.injEq] at h
        obtain ⟨rfl, rfl⟩ := h
        exact .connectFinished _ _ _ _ hui
      · rename_i hui
        simp only [Option.some.injEq, Prod.mk.injEq] at h
        obtain ⟨rfl, rfl⟩ := h
        exact .networkDisconnected _ _ hui
      · rename_i hui
        simp only [Option.some.injEq, Prod.mk.injEq] at h
        obtain ⟨rfl, rfl⟩ := h
        exact .requestMessage _ _ hui
      · simp at h
  | timer serial =>
      simp only [intake, Option.ite_none_right_eq_some, Option.some.injEq, Prod.mk.injEq] at h
      obtain ⟨hmem, rfl, rfl⟩ := h
      exact .timer serial hmem
  | _ => simp [intake] at h

/-- What a step that runs no slot can be. -/
inductive Relayed (t : Threads) : Threads → Prop
  | dial (serial : Nat) (request : ConnectRequest) (rest : List Task) (hidle : t.dialing = none)
      (hcontroller : t.controller = .connectToServer serial request :: rest) :
      Relayed t { t.signalSendStop with
        controller := rest
        dialing := some { serial := serial, request := request }
        io := t.io ++ [.connectOnIoThread] }
  | hangUp (serial : Nat) (rest : List Task) (hidle : t.dialing = none)
      (hcontroller : t.controller = .disconnectFromHost serial :: rest) :
      Relayed t { t.signalSendStop with
        controller := rest
        io := t.io ++ [.disconnectOnIoThread serial] }
  | reached (serial : Nat) (request : ConnectRequest)
      (hdialing : t.dialing = some ⟨serial, request, some true⟩) :
      Relayed t { t.startSendWorker with
        dialing := none
        ui := t.ui ++ [.connectFinished serial true request] }
  | failed (serial : Nat) (request : ConnectRequest)
      (hdialing : t.dialing = some ⟨serial, request, some false⟩) :
      Relayed t { t with dialing := none, ui := t.ui ++ [.connectFinished serial false request] }
  | connectOnIo (ok : Bool) (errors : List NetError) (rest : List IoTask)
      (hio : t.io = .connectOnIoThread :: rest) :
      Relayed t { t with
        io := rest
        connected := ok
        dialing := t.dialing.map fun dial => { dial with result := some ok }
        ui := t.ui ++ errors.map .incoming }
  | disconnectOnIo (serial : Nat) (rest : List IoTask)
      (hio : t.io = .disconnectOnIoThread serial :: rest) :
      Relayed t { t with io := rest, connected := false, ui := t.ui ++ [.disconnected serial] }
  | socketError (error : NetError) (hconnected : t.connected = true) :
      Relayed t { t with connected := false, ui := t.ui ++ [.incoming error] }
  | disconnected (serial : Nat) (rest : List Delivery) (hui : t.ui = .disconnected serial :: rest) :
      Relayed t { t.signalSendStop with ui := rest ++ [.networkDisconnected serial] }
  | incoming (error : NetError) (rest : List Delivery) (hui : t.ui = .incoming error :: rest) :
      Relayed t { t with ui := rest ++ [.requestMessage error] }

theorem relayed {e : Event} (h : t.relay e = some t') : Relayed t t' := by
  cases e with
  | controller =>
      simp only [relay, stepController] at h
      split at h
      · rename_i hidle hcontroller
        obtain rfl := Option.some.inj h
        exact .dial _ _ _ hidle hcontroller
      · rename_i hidle hcontroller
        obtain rfl := Option.some.inj h
        exact .hangUp _ _ hidle hcontroller
      · rename_i serial request ok hdialing
        obtain rfl := Option.some.inj h
        cases ok with
        | true => exact .reached serial request hdialing
        | false => exact .failed serial request hdialing
      · simp at h
  | io ok report =>
      simp only [relay, stepIo] at h
      split at h
      · rename_i hio
        obtain rfl := Option.some.inj h
        exact .connectOnIo ok _ _ hio
      · rename_i hio
        obtain rfl := Option.some.inj h
        exact .disconnectOnIo _ _ hio
      · simp at h
  | socketError error =>
      simp only [relay, Option.ite_none_right_eq_some] at h
      obtain ⟨hconnected, h⟩ := h
      obtain rfl := Option.some.inj h
      exact .socketError error hconnected
  | ui =>
      simp only [relay] at h
      split at h
      · rename_i hui
        obtain rfl := Option.some.inj h
        exact .disconnected _ _ hui
      · rename_i hui
        obtain rfl := Option.some.inj h
        exact .incoming _ _ hui
      · simp at h
  | _ => simp [relay] at h

/-- What runs a slot is an event of the session. -/
theorem Taken.session {e : Event} {f : Slot} (h : Taken t e t' f) :
    ∃ e', Session.step t.session e' = some (t'.session.slot f) := by
  cases h with
  | click request => exact ⟨.click request, rfl⟩
  | close => exact ⟨.close, rfl⟩
  | connectFinished serial ok request rest hui =>
      refine ⟨.connectFinished ok request, ?_⟩
      simp [Session.step, session, line, hui, Delivery.mark, Mark.isConnect]
  | networkDisconnected serial rest hui =>
      refine ⟨.networkDisconnected, ?_⟩
      simp [Session.step, session, line, hui, Delivery.mark, Mark.isConnect]
  | requestMessage error rest hui =>
      refine ⟨.netError error, ?_⟩
      simp [Session.step, session, line, hui, List.filterMap_cons, Delivery.mark]
  | timer serial hmem =>
      refine ⟨.timeout, ?_⟩
      have hpos : 0 < t.timers.length := List.length_pos_of_mem hmem
      simp [Session.step, session, line, hpos, List.length_erase_of_mem hmem]

/-- A connect that is done is put behind what the user interface has to deliver. -/
theorem perm_of_dialed (t : Threads) (serial : Nat) :
    (t.ui.filterMap Delivery.mark ++ Mark.connect serial ::
      (t.io.filterMap IoTask.mark ++ t.controller.map Task.mark)).Perm
    (t.ui.filterMap Delivery.mark ++
      (t.io.filterMap IoTask.mark ++ Mark.connect serial :: t.controller.map Task.mark)) :=
  List.perm_middle.symm.append_left _

/-- A step that runs no slot leaves the window alone, and moves what is under way. -/
theorem Relayed.spec (h : Relayed t t') : t'.widget = t.widget ∧ t'.timers = t.timers ∧
    t'.serial = t.serial ∧ t'.line.Perm t.line := by
  cases h with
  | dial serial request rest hidle hcontroller =>
      refine ⟨rfl, rfl, rfl, List.Perm.of_eq ?_⟩
      simp [line, signalSendStop, hidle, hcontroller, Task.mark, List.filterMap_cons, IoTask.mark]
  | hangUp serial rest hidle hcontroller =>
      refine ⟨rfl, rfl, rfl, List.Perm.of_eq ?_⟩
      simp [line, signalSendStop, hidle, hcontroller, Task.mark, IoTask.mark]
  | reached serial request hdialing =>
      refine ⟨rfl, rfl, rfl, ?_⟩
      simpa [line, startSendWorker, signalSendStop, hdialing, Delivery.mark]
        using perm_of_dialed t serial
  | failed serial request hdialing =>
      refine ⟨rfl, rfl, rfl, ?_⟩
      simpa [line, hdialing, Delivery.mark] using perm_of_dialed t serial
  | connectOnIo ok errors rest hio =>
      refine ⟨rfl, rfl, rfl, List.Perm.of_eq ?_⟩
      simp [line, hio, List.filterMap_cons, IoTask.mark, Delivery.mark, Function.comp_def]
  | disconnectOnIo serial rest hio =>
      refine ⟨rfl, rfl, rfl, List.Perm.of_eq ?_⟩
      simp [line, hio, IoTask.mark, Delivery.mark]
  | socketError error hconnected =>
      refine ⟨rfl, rfl, rfl, List.Perm.of_eq ?_⟩
      simp [line, List.filterMap_cons, Delivery.mark]
  | disconnected serial rest hui =>
      refine ⟨rfl, rfl, rfl, ?_⟩
      simp [line, signalSendStop, hui, Delivery.mark, List.perm_middle]
  | incoming error rest hui =>
      refine ⟨rfl, rfl, rfl, List.Perm.of_eq ?_⟩
      simp [line, hui, List.filterMap_cons, Delivery.mark]

/-- What runs no slot is nothing to the session. -/
theorem Relayed.session (h : Relayed t t') : t'.session = t.session := by
  obtain ⟨hwidget, htimers, -, hline⟩ := h.spec
  simp only [Threads.session, hwidget, htimers, hline.countP_eq]

/-- **The threads refine the session**: a step is an event of the session, or nothing to it. -/
theorem session_step {e : Event} (h : t.step e = some t') :
    t'.session = t.session ∨ ∃ e', Session.step t.session e' = some t'.session := by
  rw [step] at h
  split at h
  · rename_i t₀ f hintake
    obtain rfl := Option.some.inj h
    right
    rw [session_slot]
    exact (taken hintake).session
  · exact Or.inl (relayed h).session

/-- Whatever the threads come to, the session can come to as well. -/
theorem session_reachable (h : Run.Reachable step {} t) :
    Run.Reachable Session.step {} t.session := by
  refine h.invariant (I := fun t => Run.Reachable Session.step {} t.session) ⟨[], rfl⟩ ?_
  intro t e t' hreach hstep
  rcases session_step hstep with hsame | ⟨e', hstep'⟩
  · rwa [hsame]
  · exact hreach.next hstep'

end Threads

end CloudMeeting.Client
