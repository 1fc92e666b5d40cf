/-
How requests to connect are answered.

A `Ledger` is the threads together with a record of requests and answers.  Requests are
numbered as they are made; a request is answered with `connect_server_finished_signal`.  Until
then it is put off by the window or handed over to the controller, where it has a serial number.
The program knows neither numbers nor answers; what is written down here is read off the slots
as they run.

Every request is in exactly one place (`Inv`) as long as none is dropped: a slot refuses it, puts it
off, hands it over or answers it, and what is under way brings the rest back.  Whether the answers
are true is another question, which `Verdicts` takes up.
-/
import CloudMeeting.Client.Threads

namespace CloudMeeting.Client

open MeetingWidget

/-- An answer, and what is true of the request when it is answered. -/
structure Answer where
  request : Nat
  ok : Bool
  /-- The network connection for the request has succeeded. -/
  connected : Bool
  /-- The user has closed the window since the request was made. -/
  closed : Bool
deriving DecidableEq, Repr

structure Ledger where
  threads : Threads := {}
  /-- How many requests have been made. -/
  asked : Nat := 0
  /-- The request that is put off. -/
  deferred : Option Nat := none
  /-- The requests handed over, in the order of their serial numbers. -/
  handed : List Nat := []
  /-- How many requests had been made when the user last closed the window. -/
  closed : Nat := 0
  answers : List Answer := []

/-! ### What a slot says about requests -/

/-- The answer the effect gives. -/
def Effect.reply : Effect → Option Bool
  | .connectServerFinished ok _ => some ok
  | _ => none

/-- The effect hands a request over. -/
def Effect.handsOver : Effect → Bool
  | .requestConnect _ => true
  | _ => false

/-- The answers a slot gives, the requests it hands over, and the one it leaves put off. -/
structure Dealt where
  replies : List Bool
  handovers : Nat
  pending : Option ConnectRequest

def dealt (f : Slot) (w : MeetingWidget) : Dealt where
  replies := (f w).2.filterMap Effect.reply
  handovers := (f w).2.countP Effect.handsOver
  pending := (f w).1.pendingConnect

namespace Ledger

/-- The event calls `request_connect_to_server_slot`. -/
def asks (l : Ledger) : Threads.Event → Bool
  | .click _ => !l.threads.widget.visible
  | _ => false

/-- The event puts a request off. -/
def putsOff (l : Ledger) (e : Threads.Event) : Bool :=
  l.asks e && !l.threads.widget.connecting && l.threads.widget.sessionEnding

/-- The request with a serial number. -/
def requestOf (l : Ledger) (serial : Nat) : Option Nat := l.handed[serial - 1]?

/-- The user has closed the window since the request with a serial number was made. -/
def closedSince (l : Ledger) (serial : Nat) : Bool := (l.requestOf serial).any (· < l.closed)

/-- The request an event is about, and whether it brings the news that its connection has
succeeded. -/
def subject (l : Ledger) : Threads.Event → Option (Nat × Bool)
  | .click _ => some (l.asked, false)
  | .timer _ => l.deferred.map fun n => (n, false)
  | .ui =>
      match l.threads.ui with
      | .connectFinished serial ok _ :: _ => (l.requestOf serial).map fun n => (n, ok)
      | .networkDisconnected _ :: _ => l.deferred.map fun n => (n, false)
      | _ => none
  | _ => none

/-- Write down what a slot does about the request an event is about. -/
def record (l : Ledger) (e : Threads.Event) (d : Dealt) (t : Threads) : Ledger where
  threads := t
  asked := if l.asks e then l.asked + 1 else l.asked
  deferred := if d.pending = none then none else if l.putsOff e then some l.asked else l.deferred
  handed := l.handed ++ (l.subject e).toList.flatMap fun p => List.replicate d.handovers p.1
  closed := if e matches .close then l.asked else l.closed
  answers := l.answers ++ (l.subject e).toList.flatMap fun p =>
    d.replies.map fun ok => ⟨p.1, ok, p.2, p.1 < l.closed⟩

def step (l : Ledger) (e : Threads.Event) : Option Ledger :=
  match l.threads.intake e with
  | some (t, f) => some (l.record e (dealt f t.widget) (t.slot f))
  | none => (l.threads.relay e).map fun t => { l with threads := t }

end Ledger

/-! ### The slots -/

section Slots

variable (w : MeetingWidget) (request : ConnectRequest)

/-- What becomes of a request: it is refused, put off or handed over. -/
def dealtRequest (w : MeetingWidget) (request : ConnectRequest) : Dealt :=
  if w.connecting then ⟨[false], 0, w.pendingConnect⟩
  else if w.sessionEnding then ⟨[], 0, some request⟩
  else ⟨[], 1, w.pendingConnect⟩

/-- What becomes of a request that has been put off, when nothing is in its way any more. -/
def dealtRelease (w : MeetingWidget) : Dealt :=
  match w.pendingConnect with
  | none => ⟨[], 0, none⟩
  | some _ => ⟨[], 1, none⟩

theorem dealt_requestConnectToServer :
    dealt (requestConnectToServer request) w = dealtRequest w request := by
  unfold dealt requestConnectToServer dealtRequest
  by_cases hconnecting : w.connecting = true
  · simp [connectServerFinished, onConnectServerFinished, Effect.reply, Effect.handsOver,
      hconnecting]
  · by_cases hending : w.sessionEnding = true
    · simp [hconnecting, hending]
    · simp [Effect.reply, Effect.handsOver, hconnecting, hending]

theorem dealt_buttonClicked : dealt (buttonClicked request) w
    = if w.visible then ⟨[], 0, w.pendingConnect⟩ else dealtRequest w request := by
  by_cases hvisible : w.visible = true
  · simp [dealt, buttonClicked, Effect.reply, Effect.handsOver, hvisible]
  · rw [if_neg hvisible]
    by_cases haction : request.action = .none
    · rw [← dealt_requestConnectToServer]
      simp [dealt, buttonClicked, hvisible, haction]
    · have hshown : dealt (requestConnectToServer request) { w with visible := true }
          = dealtRequest w request := dealt_requestConnectToServer _ request
      rw [← hshown]
      simp [dealt, buttonClicked, hvisible, haction]

theorem dealt_onNetworkDisconnected : dealt onNetworkDisconnected w = dealtRelease w := by
  unfold dealt onNetworkDisconnected flushPendingConnect dealtRelease
  cases hpending : w.pendingConnect with
  | none => simp
  | some request => simp [requestConnectToServer, Effect.reply, Effect.handsOver]

theorem dealt_timeout : dealt MeetingWidget.timeout w
    = if w.sessionEnding then dealtRelease w else ⟨[], 0, w.pendingConnect⟩ := by
  by_cases hending : w.sessionEnding = true
  · rw [if_pos hending, ← dealt_onNetworkDisconnected]
    simp [dealt, MeetingWidget.timeout, onNetworkDisconnected, hending]
  · simp [dealt, MeetingWidget.timeout, hending]

theorem dealt_endMeetingSession : dealt endMeetingSession w = ⟨[], 0, w.pendingConnect⟩ := by
  unfold dealt endMeetingSession
  dsimp only
  split <;> simp [Effect.reply, Effect.handsOver, clearPartner, resetMeetingUi]

theorem dealt_closeEvent : dealt closeEvent w = ⟨[], 0, none⟩ := by
  by_cases hending : w.sessionEnding = true
  · simp [dealt, closeEvent, hending]
  · have hended := dealt_endMeetingSession
      { w with visible := false, pendingConnect := none, sessionEnding := true }
    simpa [dealt, closeEvent, hending] using hended

theorem dealt_netError (error : NetError) : dealt error.slot w = ⟨[], 0, w.pendingConnect⟩ := by
  have hslot : ∀ title text, dealt (handleNetError title text) w = ⟨[], 0, w.pendingConnect⟩ := by
    intro title text
    by_cases hending : w.sessionEnding = true
    · simp [dealt, handleNetError, hending]
    · have hended := dealt_endMeetingSession w
      simp only [dealt, Dealt.mk.injEq] at hended
      obtain ⟨hreplies, hhandovers, hpending⟩ := hended
      simp only [dealt, handleNetError, if_neg hending, List.filterMap_append, List.countP_append,
        hreplies, hhandovers, hpending]
      split <;> simp [Effect.reply, Effect.handsOver]
  cases error with
  | remoteHostClosed => exact hslot _ _
  | other => exact hslot _ _

theorem dealt_connectServerFinished (ok : Bool) :
    dealt (connectServerFinished ok request) w = ⟨[ok], 0, w.pendingConnect⟩ := by
  cases ok with
  | false => simp [dealt, connectServerFinished, onConnectServerFinished, Effect.reply,
      Effect.handsOver]
  | true =>
      by_cases hactive : request.action = .none ∧ w.sessionActive = true
      · simp [dealt, connectServerFinished, onConnectServerFinished, onDisconnectServer,
          Effect.reply, Effect.handsOver, hactive]
      · by_cases haction : request.action = .none <;>
          simp_all [dealt, connectServerFinished, onConnectServerFinished, onDisconnectServer,
            Effect.reply, Effect.handsOver]

/-- A result is passed on, unless it is discarded. -/
theorem dealt_onConnectFinished (ok : Bool) : dealt (onConnectFinished ok request) w
    = ⟨[ok && !(w.sessionEnding || !w.visible)], 0, w.pendingConnect⟩ := by
  have hdone := fun w ok => dealt_connectServerFinished w request ok
  simp only [dealt, Dealt.mk.injEq] at hdone
  unfold dealt onConnectFinished
  dsimp only
  split
  · rename_i hdiscard
    cases ok <;> rcases hdiscard with hending | hvisible <;>
      simp [List.filterMap_cons, Effect.reply, Effect.handsOver, *]
  · rename_i hdiscard
    obtain ⟨hending, hvisible⟩ := not_or.mp hdiscard
    rw [not_not] at hvisible
    cases ok <;> cases haction : request.action <;>
      simp [List.filterMap_cons, Effect.reply, Effect.handsOver, *]

end Slots

/-! ### What is under way -/

def Mark.connectSerial : Mark → Option Nat
  | .connect serial => some serial
  | .disconnect _ => none

/-- The serial number of a connect that has come off. -/
def Delivery.connectedSerial : Delivery → Option Nat
  | .connectFinished serial true _ => some serial
  | _ => none

/-- The serial number of a connect that has not failed. -/
def Dial.hopefulSerial : Dial → Option Nat
  | ⟨_, _, some false⟩ => none
  | ⟨serial, _, _⟩ => some serial

def Task.connectSerial : Task → Option Nat
  | .connectToServer serial _ => some serial
  | .disconnectFromHost _ => none

namespace Threads

variable {t t' : Threads}

/-- The serial numbers of the connects under way. -/
def connects (t : Threads) : List Nat := t.line.filterMap Mark.connectSerial

/-- The connects under way that have not failed. -/
def hopeful (t : Threads) : List Nat :=
  t.ui.filterMap Delivery.connectedSerial ++ ((t.dialing.bind Dial.hopefulSerial).toList
    ++ t.controller.filterMap Task.connectSerial)

/-- What a slot hands over gets the next serial numbers and joins what is under way. -/
theorem connects_slot (t : Threads) (f : Slot) :
    (t.slot f).serial = t.serial + (dealt f t.widget).handovers ∧
    (t.slot f).connects
      = t.connects ++ List.range' (t.serial + 1) (dealt f t.widget).handovers ∧
    (t.slot f).hopeful
      = t.hopeful ++ List.range' (t.serial + 1) (dealt f t.widget).handovers := by
  have hfoldl : ∀ (effects : List Effect) (t : Threads),
      (effects.foldl perform t).serial = t.serial + effects.countP Effect.handsOver ∧
      (effects.foldl perform t).connects
        = t.connects ++ List.range' (t.serial + 1) (effects.countP Effect.handsOver) ∧
      (effects.foldl perform t).hopeful
        = t.hopeful ++ List.range' (t.serial + 1) (effects.countP Effect.handsOver) := by
    intro effects
    induction effects with
    | nil => simp
    | cons effect effects ih =>
        intro t
        obtain ⟨hserial, hconnects, hhopeful⟩ := ih (t.perform effect)
        rw [List.foldl_cons, hserial, hconnects, hhopeful]
        cases effect with
        | requestConnect request =>
            have hcount : (Effect.requestConnect request :: effects).countP Effect.handsOver
                = effects.countP Effect.handsOver + 1 := List.countP_cons_of_pos rfl
            rw [hcount, List.range'_succ]
            simp [perform, connects, hopeful, line, Task.mark, Mark.connectSerial,
              Task.connectSerial, Nat.add_comm, Nat.add_left_comm]
        | disconnectFromHost =>
            simp [perform, connects, hopeful, line, Task.mark, Mark.connectSerial,
              Task.connectSerial, Effect.handsOver]
        | _ => exact ⟨rfl, rfl, rfl⟩
  exact hfoldl (f t.widget).2 { t with widget := (f t.widget).1 }

theorem pendingConnect_slot (t : Threads) (f : Slot) :
    (t.slot f).widget.pendingConnect = (dealt f t.widget).pending := by
  rw [widget_slot]
  rfl

theorem Relayed.connects (h : Relayed t t') : t'.connects.Perm t.connects :=
  h.spec.2.2.2.filterMap _

end Threads

namespace Ledger

variable {l l' : Ledger}

/-- The requests that are under way. -/
def inFlight (l : Ledger) : List Nat := l.threads.connects.filterMap l.requestOf

/-- The requests that have been answered. -/
def answered (l : Ledger) : List Nat := l.answers.map (·.request)

/-- What is kept up while requests are not dropped and results not misjudged. -/
structure Inv (l : Ledger) : Prop where
  numbered : l.handed.length = l.threads.serial
  serials : ∀ serial ∈ l.threads.connects, 0 < serial ∧ serial ≤ l.threads.serial
  deferred : l.deferred = none ↔ l.threads.widget.pendingConnect = none
  /-- Every request made is answered, put off or under way, and only once. -/
  places : ∀ n, l.answered.count n + (l.deferred.toList.count n + l.inFlight.count n)
    = if n < l.asked then 1 else 0
  truthful : ∀ a ∈ l.answers, a.ok = true ↔ a.connected = true ∧ a.closed = false

theorem Inv.init : Inv {} where
  numbered := rfl
  serials := by simp [Threads.connects, Threads.line]
  deferred := by simp
  places := by simp [answered, inFlight, Threads.connects, Threads.line]
  truthful := by simp

/-- New entries of a list are found under the numbers that follow. -/
theorem filterMap_range'_append {α : Type} (handed new : List α) :
    (List.range' (handed.length + 1) new.length).filterMap (fun k => (handed ++ new)[k - 1]?)
      = new := by
  induction new generalizing handed with
  | nil => rfl
  | cons x new ih =>
      have hrest := ih (handed ++ [x])
      rw [List.length_append, List.length_singleton, List.append_assoc, List.singleton_append]
        at hrest
      rw [List.length_cons, List.range'_succ, List.filterMap_cons, hrest]
      simp

/-- The requests a slot hands over for the event. -/
def handedBy (l : Ledger) (e : Threads.Event) (d : Dealt) : List Nat :=
  (l.subject e).toList.flatMap fun p => List.replicate d.handovers p.1

/-- The answers a slot gives for the event. -/
def givenBy (l : Ledger) (e : Threads.Event) (d : Dealt) : List Answer :=
  (l.subject e).toList.flatMap fun p => d.replies.map fun ok => ⟨p.1, ok, p.2, p.1 < l.closed⟩

/-- What is handed over joins what is under way. -/
theorem inFlight_record (h : l.Inv) {e : Threads.Event} {t : Threads} {f : Slot}
    (hserial : t.serial = l.threads.serial) (hconnects : t.connects ⊆ l.threads.connects)
    (hhanded : (l.handedBy e (dealt f t.widget)).length = (dealt f t.widget).handovers) :
    (l.record e (dealt f t.widget) (t.slot f)).inFlight
      = t.connects.filterMap l.requestOf ++ l.handedBy e (dealt f t.widget) := by
  have hold : t.connects.filterMap (fun serial =>
      (l.handed ++ l.handedBy e (dealt f t.widget))[serial - 1]?)
        = t.connects.filterMap l.requestOf := by
    apply List.filterMap_congr
    intro serial hin
    have hrange := h.serials serial (hconnects hin)
    rw [requestOf, List.getElem?_append_left]
    rw [h.numbered]
    omega
  have hnew := filterMap_range'_append l.handed (l.handedBy e (dealt f t.widget))
  rw [hhanded, h.numbered, ← hserial] at hnew
  have hline := (t.connects_slot f).2.1
  rw [inFlight]
  show (t.slot f).connects.filterMap (fun serial =>
      (l.handed ++ l.handedBy e (dealt f t.widget))[serial - 1]?) = _
  rw [hline, List.filterMap_append, hold, hnew]

/-- A slot keeps the invariant if it leaves each request in one place and tells the truth. -/
theorem Inv.record (h : l.Inv) {e : Threads.Event} {t : Threads} {f : Slot}
    (hserial : t.serial = l.threads.serial) (hconnects : t.connects ⊆ l.threads.connects)
    {d : Dealt} (hd : dealt f t.widget = d)
    (hhanded : (l.handedBy e d).length = d.handovers)
    (hdeferred : (l.record e d (t.slot f)).deferred = none ↔ d.pending = none)
    (hplaces : ∀ n, l.answered.count n + ((l.givenBy e d).map (·.request)).count n
      + ((l.record e d (t.slot f)).deferred.toList.count n
        + ((t.connects.filterMap l.requestOf).count n + (l.handedBy e d).count n))
      = if n < (l.record e d (t.slot f)).asked then 1 else 0)
    (htruthful : ∀ a ∈ l.givenBy e d, a.ok = true ↔ a.connected = true ∧ a.closed = false) :
    (l.record e d (t.slot f)).Inv := by
  subst hd
  obtain ⟨hserial', hconnects', -⟩ := t.connects_slot f
  refine ⟨?_, fun serial hin => ?_, ?_, fun n => ?_, fun a ha => ?_⟩
  · show (l.handed ++ l.handedBy e _).length = (t.slot f).serial
    rw [List.length_append, hhanded, h.numbered, hserial', hserial]
  · show 0 < serial ∧ serial ≤ (t.slot f).serial
    have hin' : serial ∈ (t.slot f).connects := hin
    rw [hconnects', List.mem_append, List.mem_range'_1] at hin'
    rw [hserial', hserial]
    rcases hin' with hin' | hin'
    · have hrange := h.serials serial (hconnects hin')
      omega
    · omega
  · rw [hdeferred]
    show _ ↔ (t.slot f).widget.pendingConnect = none
    rw [Threads.pendingConnect_slot]
  · rw [inFlight_record h hserial hconnects hhanded, List.count_append, ← hplaces n]
    simp [answered, Ledger.record, givenBy, List.map_append, List.count_append]
  · rcases List.mem_append.mp ha with hold | hnew
    · exact h.truthful a hold
    · exact htruthful a hnew

/-- The same for an event that is about one request: what is said about it takes it to another
place. -/
theorem Inv.record_subject (h : l.Inv) {e : Threads.Event} {t : Threads} {f : Slot} {m : Nat}
    {connected : Bool} (hsubject : l.subject e = some (m, connected))
    (hserial : t.serial = l.threads.serial) (hconnects : t.connects ⊆ l.threads.connects)
    {d : Dealt} (hd : dealt f t.widget = d)
    (hdeferred : (l.record e d (t.slot f)).deferred = none ↔ d.pending = none)
    (hplaces : ∀ n, l.answered.count n + ((l.record e d (t.slot f)).deferred.toList.count n
        + (t.connects.filterMap l.requestOf).count n)
      + (if m == n then d.replies.length + d.handovers else 0)
      = if n < (l.record e d (t.slot f)).asked then 1 else 0)
    (htruthful : ∀ ok ∈ d.replies, ok = true ↔ connected = true ∧ ¬ m < l.closed) :
    (l.record e d (t.slot f)).Inv := by
  have hhanded : l.handedBy e d = List.replicate d.handovers m := by
    simp [handedBy, hsubject]
  have hgiven : l.givenBy e d = d.replies.map fun ok => ⟨m, ok, connected, m < l.closed⟩ := by
    simp [givenBy, hsubject]
  refine h.record hserial hconnects hd (by simp [hhanded]) hdeferred (fun n => ?_) fun a ha => ?_
  · rw [← hplaces n, hhanded, hgiven, List.map_map, List.count_replicate]
    have hsame : d.replies.map ((·.request) ∘ fun ok => (⟨m, ok, connected, m < l.closed⟩ : Answer))
        = List.replicate d.replies.length m := List.map_const'
    rw [hsame, List.count_replicate]
    split <;> omega
  · rw [hgiven] at ha
    obtain ⟨ok, hok, rfl⟩ := List.mem_map.mp ha
    simpa using htruthful ok hok

section Slots

variable {t : Threads} {f : Slot} {e : Threads.Event}

/-- What is put off stays as it is, where a slot leaves it alone. -/
theorem deferred_record (h : l.Inv) (hoff : l.putsOff e = false) {d : Dealt}
    (hpending : d.pending = l.threads.widget.pendingConnect) (t : Threads) :
    (l.record e d t).deferred = l.deferred := by
  show (if d.pending = none then none else if l.putsOff e then some l.asked else l.deferred) = _
  rw [hpending, hoff]
  split
  · rename_i hnone
    exact (h.deferred.mpr hnone).symm
  · rfl

/-- A slot that has nothing to do with requests. -/
theorem Inv.quiet (h : l.Inv) (hserial : t.serial = l.threads.serial)
    (hconnects : t.connects = l.threads.connects) (hasks : l.asks e = false)
    (hd : dealt f t.widget = ⟨[], 0, l.threads.widget.pendingConnect⟩) :
    (l.record e (dealt f t.widget) (t.slot f)).Inv := by
  have hoff : l.putsOff e = false := by simp [putsOff, hasks]
  have hdeferred := deferred_record h hoff (d := ⟨[], 0, l.threads.widget.pendingConnect⟩) rfl
  have hhanded : l.handedBy e ⟨[], 0, l.threads.widget.pendingConnect⟩ = [] := by
    simp [handedBy]
  have hgiven : l.givenBy e ⟨[], 0, l.threads.widget.pendingConnect⟩ = [] := by simp [givenBy]
  rw [hd]
  refine h.record hserial (hconnects ▸ List.Subset.refl _) hd ?_ ?_ (fun n => ?_) ?_
  · rw [hhanded]
    rfl
  · rw [hdeferred]
    exact h.deferred
  · have hasked : (l.record e ⟨[], 0, l.threads.widget.pendingConnect⟩ (t.slot f)).asked
        = l.asked := by
      simp [Ledger.record, hasks]
    rw [hdeferred, hhanded, hgiven, hasked, hconnects, ← h.places n]
    rfl
  · rw [hgiven]
    simp

theorem closed_record (hclose : e ≠ .close) (d : Dealt) (t : Threads) :
    (l.record e d t).closed = l.closed := by
  cases e with
  | close => exact absurd rfl hclose
  | _ => rfl

theorem asked_record_of_asks (hasks : l.asks e = true) (d : Dealt) (t : Threads) :
    (l.record e d t).asked = l.asked + 1 := by
  simp [Ledger.record, hasks]

/-- A new request is in exactly one place if what there was is as before. -/
theorem places_succ {n k places : Nat} (h : places = if n < k then 1 else 0) :
    places + (if k == n then 1 else 0) = if n < k + 1 then 1 else 0 := by
  rw [h]
  by_cases hn : k = n
  · simp [hn]
  · have hiff : n < k + 1 ↔ n < k := by omega
    simp [hn, hiff]

/-- A request that is made while another one is under way is refused. -/
theorem Inv.refuse (h : l.Inv) {request : ConnectRequest}
    (hasks : l.asks (.click request) = true)
    (hconnecting : l.threads.widget.connecting = true)
    (hd : dealt f l.threads.widget = ⟨[false], 0, l.threads.widget.pendingConnect⟩) :
    (l.record (.click request) (dealt f l.threads.widget) (l.threads.slot f)).Inv := by
  have hdeferred := deferred_record h (e := .click request) (by simp [putsOff, hconnecting])
    (d := ⟨[false], 0, l.threads.widget.pendingConnect⟩) rfl
  rw [hd]
  refine h.record_subject rfl rfl (List.Subset.refl _) hd ?_ (fun n => ?_) (by simp)
  · rw [hdeferred]
    exact h.deferred
  · rw [hdeferred, asked_record_of_asks hasks]
    exact places_succ (h.places n)

/-- A request is put off where none is put off. -/
theorem Inv.putOff (h : l.Inv) {request : ConnectRequest}
    (hasks : l.asks (.click request) = true) (hoff : l.putsOff (.click request) = true)
    (hfree : l.threads.widget.pendingConnect = none)
    (hd : dealt f l.threads.widget = ⟨[], 0, some request⟩) :
    (l.record (.click request) (dealt f l.threads.widget) (l.threads.slot f)).Inv := by
  have hdeferred : (l.record (.click request) ⟨[], 0, some request⟩
      (l.threads.slot f)).deferred = some l.asked := by
    simp [Ledger.record, hoff]
  rw [hd]
  refine h.record_subject rfl rfl (List.Subset.refl _) hd (by simp [hdeferred]) (fun n => ?_)
    (by simp)
  have hn := places_succ (h.places n)
  rw [h.deferred.mpr hfree, Option.toList_none, List.count_nil, inFlight] at hn
  rw [hdeferred, asked_record_of_asks hasks, ← hn, Option.toList_some, List.count_singleton]
  simp only [List.length_nil, Nat.add_zero, ite_self]
  omega

/-- A request is handed over. -/
theorem Inv.handOver (h : l.Inv) {request : ConnectRequest}
    (hasks : l.asks (.click request) = true)
    (hending : ¬ l.threads.widget.sessionEnding = true)
    (hd : dealt f l.threads.widget = ⟨[], 1, l.threads.widget.pendingConnect⟩) :
    (l.record (.click request) (dealt f l.threads.widget) (l.threads.slot f)).Inv := by
  have hdeferred := deferred_record h (e := .click request) (by simp [putsOff, hending])
    (d := ⟨[], 1, l.threads.widget.pendingConnect⟩) rfl
  rw [hd]
  refine h.record_subject rfl rfl (List.Subset.refl _) hd ?_ (fun n => ?_) (by simp)
  · rw [hdeferred]
    exact h.deferred
  · rw [hdeferred, asked_record_of_asks hasks]
    exact places_succ (h.places n)

theorem Inv.request (h : l.Inv) {request : ConnectRequest}
    (hasks : l.asks (.click request) = true)
    (hd : dealt f l.threads.widget = dealtRequest l.threads.widget request)
    (hfree : l.putsOff (.click request) = true → l.threads.widget.pendingConnect = none) :
    (l.record (.click request) (dealt f l.threads.widget) (l.threads.slot f)).Inv := by
  unfold dealtRequest at hd
  split at hd
  · rename_i hconnecting
    exact h.refuse hasks hconnecting hd
  split at hd
  · rename_i hconnecting hending
    have hoff : l.putsOff (.click request) = true := by
      simp [putsOff, hasks, hconnecting, hending]
    exact h.putOff hasks hoff (hfree hoff) hd
  · rename_i hconnecting hending
    exact h.handOver hasks hending hd

/-- The request that was put off is handed over. -/
theorem Inv.release (h : l.Inv) (hserial : t.serial = l.threads.serial)
    (hconnects : t.connects = l.threads.connects) (hasks : l.asks e = false)
    (hsubject : l.subject e = l.deferred.map fun n => (n, false))
    (hd : dealt f t.widget = dealtRelease l.threads.widget) :
    (l.record e (dealt f t.widget) (t.slot f)).Inv := by
  unfold dealtRelease at hd
  split at hd
  · rename_i hpending
    apply h.quiet hserial hconnects hasks
    rw [hd, hpending]
  · rename_i request hpending
    obtain ⟨m, hm⟩ : ∃ m, l.deferred = some m := by
      rw [← Option.ne_none_iff_exists', Ne, h.deferred, hpending]
      simp
    have hdeferred : (l.record e ⟨[], 1, none⟩ (t.slot f)).deferred = none := by
      simp [Ledger.record]
    have hasked : (l.record e ⟨[], 1, none⟩ (t.slot f)).asked = l.asked := by
      simp [Ledger.record, hasks]
    rw [hd]
    refine h.record_subject (m := m) (by rw [hsubject, hm]; rfl) hserial
      (hconnects ▸ List.Subset.refl _) hd (by simp [hdeferred]) (fun n => ?_) (by simp)
    have hn := h.places n
    rw [hm, Option.toList_some, List.count_singleton, inFlight] at hn
    rw [hdeferred, hasked, hconnects, ← hn, Option.toList_none, List.count_nil]
    simp only [List.length_nil, Nat.zero_add]
    omega

/-- The window is closed while no request is put off. -/
theorem Inv.close (h : l.Inv) (hnone : l.threads.widget.pendingConnect = none) :
    (l.record .close (dealt closeEvent l.threads.widget) (l.threads.slot closeEvent)).Inv := by
  apply h.quiet rfl rfl rfl
  rw [dealt_closeEvent, hnone]

/-- A result is passed on, and what is said about it is true. -/
theorem Inv.result (h : l.Inv) {serial : Nat} {ok : Bool} (hserial : t.serial = l.threads.serial)
    (hconnects : l.threads.connects = serial :: t.connects) (hasks : l.asks e = false)
    (hsubject : l.subject e = (l.requestOf serial).map fun n => (n, ok))
    (hd : dealt f t.widget
      = ⟨[ok && !(l.threads.widget.sessionEnding || !l.threads.widget.visible)], 0,
        l.threads.widget.pendingConnect⟩)
    (hfair : ok = true →
      (l.threads.widget.sessionEnding || !l.threads.widget.visible) = l.closedSince serial) :
    (l.record e (dealt f t.widget) (t.slot f)).Inv := by
  obtain ⟨m, hm⟩ : ∃ m, l.requestOf serial = some m := by
    have hrange := h.serials serial (by simp [hconnects])
    rw [← Option.isSome_iff_exists, requestOf, isSome_getElem?, h.numbered]
    omega
  have hdeferred := deferred_record h (e := e) (by simp [putsOff, hasks])
    (d := ⟨[ok && !(l.threads.widget.sessionEnding || !l.threads.widget.visible)], 0,
      l.threads.widget.pendingConnect⟩) rfl (t.slot f)
  rw [hd]
  refine h.record_subject (by rw [hsubject, hm]; rfl) hserial (by simp [hconnects]) hd ?_
    (fun n => ?_) fun v hv => ?_
  · rw [hdeferred]
    exact h.deferred
  · have hn := h.places n
    rw [inFlight, hconnects, List.filterMap_cons, hm, List.count_cons] at hn
    have hasked : ∀ d, (l.record e d (t.slot f)).asked = l.asked := by
      simp [Ledger.record, hasks]
    rw [hdeferred, hasked, ← hn]
    simp only [List.length_singleton, Nat.add_zero]
    omega
  · rw [List.mem_singleton.mp hv]
    cases ok with
    | false => simp
    | true =>
        rw [hfair rfl, closedSince, hm]
        simp

end Slots

theorem Inv.relay (h : l.Inv) {t' : Threads} (hr : Threads.Relayed l.threads t') :
    Inv { l with threads := t' } := by
  obtain ⟨hwidget, -, hserial, -⟩ := hr.spec
  have hconnects := hr.connects
  refine ⟨?_, fun serial hin => ?_, ?_, fun n => ?_, h.truthful⟩
  · rw [hserial]
    exact h.numbered
  · rw [hserial]
    exact h.serials serial (hconnects.subset hin)
  · rw [hwidget]
    exact h.deferred
  · have hflight : (inFlight { l with threads := t' }).Perm l.inFlight :=
      hconnects.filterMap l.requestOf
    rw [hflight.count_eq]
    exact h.places n

end Ledger

end CloudMeeting.Client
