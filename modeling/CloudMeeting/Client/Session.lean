/-
The session flags of the meeting window.

To the window the rest of the program is a number of things under way: connects whose
result has not come yet, disconnects that have not been notified yet, and timers.  What
arrives carries no name of a session, so the events can come in any order, as long as
there is something under way for them to report.

Whoever sets `_sessionEnding` also queues a disconnect (`Announces`), so that there is an
event left to clear it.  Only `closeEvent` sets it first and looks afterwards whether there
is anything to disconnect.  With that one step excluded a session is never stuck ending,
and not otherwise (`neverStuck_iff`).
-/
import CloudMeeting.Client.Widget
import CloudMeeting.Lib.Run

namespace CloudMeeting.Client

open MeetingWidget

/-- The kinds of network error the window is told of. -/
inductive NetError where
  | remoteHostClosed
  | other
deriving DecidableEq, Repr

def NetError.slot : NetError → Slot
  | .remoteHostClosed => handleRemoteHostClosedError
  | .other => handleOtherNetError

/-- The window, and how many things it waits for. -/
structure Session where
  widget : MeetingWidget := {}
  connects : Nat := 0
  disconnects : Nat := 0
  timers : Nat := 0

namespace Session

/-- What can happen to the window. -/
inductive Event where
  | click (request : ConnectRequest)
  | requestConnect (request : ConnectRequest)
  | close
  | disconnectServer
  | netError (error : NetError)
  | connectFinished (ok : Bool) (request : ConnectRequest)
  | networkDisconnected
  | timeout

def perform (s : Session) : Effect → Session
  | .requestConnect _ => { s with connects := s.connects + 1 }
  | .disconnectFromHost => { s with disconnects := s.disconnects + 1 }
  | .singleShot => { s with timers := s.timers + 1 }
  | _ => s

/-- Run a slot of the window. -/
def slot (s : Session) (f : Slot) : Session :=
  (f s.widget).2.foldl perform { s with widget := (f s.widget).1 }

def step (s : Session) : Event → Option Session
  | .click request => some (s.slot (buttonClicked request))
  | .requestConnect request => some (s.slot (requestConnectToServer request))
  | .close => some (s.slot closeEvent)
  | .disconnectServer => some (s.slot onDisconnectServer)
  | .netError error => some (s.slot error.slot)
  | .connectFinished ok request =>
      if 0 < s.connects then
        some ({ s with connects := s.connects - 1 }.slot (onConnectFinished ok request))
      else none
  | .networkDisconnected =>
      if 0 < s.disconnects then
        some ({ s with disconnects := s.disconnects - 1 }.slot onNetworkDisconnected)
      else none
  | .timeout =>
      if 0 < s.timers then some ({ s with timers := s.timers - 1 }.slot MeetingWidget.timeout)
      else none

end Session

/-! ### What a slot comes to

Only five fields of the window decide what happens to a session, and only two kinds of
effects are tasks for the controller.  `outcome` keeps these, with one equation for each
slot.
-/

/-- The part of the window that decides about the session. -/
structure Flags where
  visible : Bool
  connecting : Bool
  active : Bool
  ending : Bool
  pending : Option ConnectRequest

def MeetingWidget.flags (w : MeetingWidget) : Flags :=
  ⟨w.visible, w.connecting, w.sessionActive, w.sessionEnding, w.pendingConnect⟩

/-- The effect is a task for the controller that concerns the network. -/
def Effect.isTask : Effect → Bool
  | .requestConnect _ => true
  | .disconnectFromHost => true
  | _ => false

/-- The flags a slot leaves behind, and the tasks it queues. -/
def outcome (f : Slot) (w : MeetingWidget) : Flags × List Effect :=
  ((f w).1.flags, (f w).2.filter Effect.isTask)

section Outcome

variable (w : MeetingWidget) (request : ConnectRequest)

@[simp] theorem outcome_endMeetingSession : outcome endMeetingSession w
    = if w.flags.active || w.flags.connecting then
        ({ w.flags with connecting := false, active := false, ending := true },
          [.disconnectFromHost])
      else ({ w.flags with connecting := false }, []) := by
  unfold outcome endMeetingSession
  by_cases hlive : w.sessionActive = true ∨ w.connecting = true
  · simp [flags, Effect.isTask, List.filter_cons, clearPartner, resetMeetingUi, hlive]
  · simp [flags, clearPartner, resetMeetingUi, hlive]

theorem outcome_closeEvent : outcome closeEvent w
    = if w.flags.ending then ({ w.flags with visible := false, pending := none }, [])
      else outcome endMeetingSession
        { w with visible := false, pendingConnect := none, sessionEnding := true } := by
  unfold outcome closeEvent
  by_cases hending : w.sessionEnding = true
  · simp [flags, hending]
  · simp [flags, hending]

theorem outcome_onDisconnectServer : outcome onDisconnectServer w
    = if w.flags.active then
        ({ w.flags with active := false, ending := true }, [.disconnectFromHost])
      else (w.flags, []) := by
  unfold outcome onDisconnectServer
  by_cases hactive : w.sessionActive = true
  · simp [flags, Effect.isTask, hactive]
  · simp [flags, hactive]

theorem connectServerFinished_false : connectServerFinished false request w
    = (w, [.connectServerFinished false request,
        .messageBox "Connection error" "连接服务器失败"]) := by
  simp [connectServerFinished, onConnectServerFinished]

theorem outcome_requestConnectToServer : outcome (requestConnectToServer request) w
    = if w.flags.connecting then (w.flags, [])
      else if w.flags.ending then ({ w.flags with pending := some request }, [])
      else ({ w.flags with connecting := true }, [.requestConnect request]) := by
  unfold outcome requestConnectToServer
  rw [connectServerFinished_false]
  by_cases hconnecting : w.connecting = true
  · simp [flags, Effect.isTask, hconnecting]
  · by_cases hending : w.sessionEnding = true
    · simp [flags, hconnecting, hending]
    · simp [flags, Effect.isTask, hconnecting, hending]

/-- The notification resets the flags and hands over the request that was put off. -/
theorem outcome_onNetworkDisconnected : outcome onNetworkDisconnected w
    = match w.flags.pending with
      | none => ({ w.flags with active := false, ending := false, connecting := false }, [])
      | some request =>
          ({ w.flags with active := false, ending := false, connecting := true, pending := none },
            [.requestConnect request]) := by
  unfold outcome onNetworkDisconnected flushPendingConnect
  cases hpending : w.pendingConnect with
  | none => simp [flags, hpending]
  | some request => simp [flags, Effect.isTask, requestConnectToServer, hpending]

/-- The timer does what the notification would, unless the session has ended by then. -/
theorem outcome_timeout : outcome MeetingWidget.timeout w
    = if w.flags.ending then outcome onNetworkDisconnected w else (w.flags, []) := by
  unfold outcome MeetingWidget.timeout onNetworkDisconnected
  by_cases hending : w.sessionEnding = true
  · simp [flags, hending]
  · simp [flags, hending]

theorem outcome_onConnectFinished (ok : Bool) : outcome (onConnectFinished ok request) w
    = if ok then
        if w.flags.ending || !w.flags.visible || request.action = .none then
          ({ w.flags with connecting := false, active := false, ending := true },
            [.disconnectFromHost])
        else ({ w.flags with connecting := false, active := true, ending := false }, [])
      else ({ w.flags with connecting := false, visible := w.flags.visible &&
          (w.flags.ending || request.action = .none) }, []) := by
  unfold outcome onConnectFinished
  by_cases hdiscard : w.sessionEnding = true ∨ ¬ w.visible = true
  · cases ok with
    | true =>
        rcases hdiscard with hending | hvisible
        · simp [flags, Effect.isTask, List.filter_cons, connectServerFinished_false, hending]
        · simp [flags, Effect.isTask, List.filter_cons, connectServerFinished_false, hvisible]
    | false =>
        rcases hdiscard with hending | hvisible
        · simp [flags, Effect.isTask, connectServerFinished_false, hending]
        · simp [flags, Effect.isTask, connectServerFinished_false, hvisible]
  · obtain ⟨hending, hvisible⟩ := not_or.mp hdiscard
    rw [not_not] at hvisible
    cases ok with
    | true =>
        cases haction : request.action <;>
          simp [flags, Effect.isTask, List.filter_cons, connectServerFinished,
            onConnectServerFinished, onDisconnectServer, hending, hvisible, haction]
    | false =>
        cases request.action <;>
          simp [flags, Effect.isTask, connectServerFinished_false, hending, hvisible]

theorem outcome_buttonClicked : outcome (buttonClicked request) w
    = if w.flags.visible then (w.flags, [])
      else outcome (requestConnectToServer request)
        { w with visible := !(request.action = .none) } := by
  unfold outcome buttonClicked
  by_cases hvisible : w.visible = true
  · simp [flags, Effect.isTask, hvisible]
  · have hhidden : w.visible = false := by simpa using hvisible
    by_cases haction : request.action = .none
    · have hsame : { w with visible := false } = w := by rw [← hhidden]
      simp [flags, hhidden, haction, hsame]
    · simp [flags, hhidden, haction]

theorem outcome_netError (error : NetError) : outcome error.slot w
    = if w.flags.ending then (w.flags, []) else outcome endMeetingSession w := by
  have hbox : ∀ (p : Prop) [Decidable p] title text,
      (if p then [Effect.messageBox title text] else []).filter Effect.isTask = [] := by
    intro p _ title text
    split <;> simp [Effect.isTask]
  have hslot : ∀ title text, outcome (handleNetError title text) w
      = if w.flags.ending then (w.flags, []) else outcome endMeetingSession w := by
    intro title text
    unfold outcome handleNetError
    by_cases hending : w.sessionEnding = true
    · simp [flags, hending]
    · simp [flags, hending, hbox]
  cases error with
  | remoteHostClosed => exact hslot _ _
  | other => exact hslot _ _

end Outcome

/-! ### Who sets the flag and who clears it -/

/-- A slot that sets `_sessionEnding` queues a disconnect. -/
def Announces (f : Slot) : Prop :=
  ∀ w, (outcome f w).1.ending = true →
    w.flags.ending = true ∨ .disconnectFromHost ∈ (outcome f w).2

/-- A request is put off only while a session is ending. -/
def Flags.Deferring (flags : Flags) : Prop := flags.pending.isSome = true → flags.ending = true

/-- A slot that puts a request off, or leaves it put off, leaves the session ending. -/
def Defers (f : Slot) : Prop := ∀ w, w.flags.Deferring → (outcome f w).1.Deferring

section Slots

variable (request : ConnectRequest)

theorem announces_endMeetingSession : Announces endMeetingSession := by
  intro w h
  rw [outcome_endMeetingSession] at h ⊢
  split at h
  · rename_i hlive
    rw [if_pos hlive]
    exact Or.inr (List.mem_singleton.mpr rfl)
  · exact Or.inl h

theorem defers_endMeetingSession : Defers endMeetingSession := by
  intro w hw h
  rw [outcome_endMeetingSession] at h ⊢
  split
  · rfl
  · rename_i hlive
    rw [if_neg hlive] at h
    exact hw h

/-- Closing the window queues a disconnect if there is a session. -/
theorem announces_closeEvent (w : MeetingWidget)
    (hlive : w.flags.active = true ∨ w.flags.connecting = true) :
    w.flags.ending = true ∨ .disconnectFromHost ∈ (outcome closeEvent w).2 := by
  rw [outcome_closeEvent]
  split
  · rename_i hending
    exact Or.inl hending
  · have hlive' : w.sessionActive = true ∨ w.connecting = true := hlive
    rw [outcome_endMeetingSession]
    simp [flags, hlive']

theorem defers_closeEvent : Defers closeEvent := by
  intro w hw
  rw [outcome_closeEvent]
  split
  · simp [Flags.Deferring]
  · exact defers_endMeetingSession _ (by simp [Flags.Deferring, flags])

theorem announces_onDisconnectServer : Announces onDisconnectServer := by
  intro w h
  rw [outcome_onDisconnectServer] at h ⊢
  split at h
  · rename_i hactive
    rw [if_pos hactive]
    exact Or.inr (List.mem_singleton.mpr rfl)
  · exact Or.inl h

theorem defers_onDisconnectServer : Defers onDisconnectServer := by
  intro w hw
  rw [outcome_onDisconnectServer]
  split
  · exact fun _ => rfl
  · exact hw

theorem announces_requestConnectToServer : Announces (requestConnectToServer request) := by
  intro w h
  rw [outcome_requestConnectToServer] at h
  split_ifs at h
  · exact Or.inl h
  · exact Or.inl h
  · exact Or.inl h

theorem defers_requestConnectToServer : Defers (requestConnectToServer request) := by
  intro w hw
  rw [outcome_requestConnectToServer]
  split_ifs with hconnecting hending
  · exact hw
  · exact fun _ => hending
  · exact hw

theorem announces_buttonClicked : Announces (buttonClicked request) := by
  intro w h
  rw [outcome_buttonClicked] at h ⊢
  split at h
  · exact Or.inl h
  · rename_i hvisible
    rw [if_neg hvisible]
    exact announces_requestConnectToServer request _ h

theorem defers_buttonClicked : Defers (buttonClicked request) := by
  intro w hw
  rw [outcome_buttonClicked]
  split
  · exact hw
  · exact defers_requestConnectToServer request _ hw

theorem announces_netError (error : NetError) : Announces error.slot := by
  intro w h
  rw [outcome_netError] at h ⊢
  split at h
  · exact Or.inl h
  · rename_i hending
    rw [if_neg hending]
    exact announces_endMeetingSession w h

theorem defers_netError (error : NetError) : Defers error.slot := by
  intro w hw
  rw [outcome_netError]
  split
  · exact hw
  · exact defers_endMeetingSession w hw

theorem announces_onConnectFinished (ok : Bool) : Announces (onConnectFinished ok request) := by
  intro w h
  rw [outcome_onConnectFinished] at h ⊢
  split_ifs at h ⊢
  · exact Or.inr (List.mem_singleton.mpr rfl)
  · exact Or.inl h

theorem defers_onConnectFinished (ok : Bool) : Defers (onConnectFinished ok request) := by
  intro w hw
  rw [outcome_onConnectFinished]
  split_ifs with hok hdiscard
  · exact fun _ => rfl
  · intro h
    simp only [Bool.or_eq_true, not_or] at hdiscard
    exact absurd (hw h) hdiscard.1.1
  · exact hw

/-- After the notification nothing is put off and no session is ending. -/
theorem outcome_released (w : MeetingWidget) :
    (outcome onNetworkDisconnected w).1.ending = false ∧
      (outcome onNetworkDisconnected w).1.pending = none := by
  rw [outcome_onNetworkDisconnected]
  cases hpending : w.flags.pending with
  | none => exact ⟨rfl, hpending⟩
  | some request => exact ⟨rfl, rfl⟩

/-- So it is after the timer. -/
theorem outcome_timeout_released {w : MeetingWidget} (hw : w.flags.Deferring) :
    (outcome MeetingWidget.timeout w).1.ending = false ∧
      (outcome MeetingWidget.timeout w).1.pending = none := by
  rw [outcome_timeout]
  split
  · exact outcome_released w
  · rename_i hending
    refine ⟨by simpa using hending, ?_⟩
    cases hpending : w.flags.pending with
    | none => rfl
    | some request => exact absurd (hw (by rw [hpending]; rfl)) hending

end Slots

/-! ### No session is stuck -/

namespace Session

variable {s s' : Session}

/-- What effects do to the counts. -/
theorem foldl_perform (s : Session) (effects : List Effect) :
    (effects.foldl perform s).widget = s.widget ∧
      s.disconnects ≤ (effects.foldl perform s).disconnects ∧
      s.timers ≤ (effects.foldl perform s).timers ∧
      (.disconnectFromHost ∈ effects → 0 < (effects.foldl perform s).disconnects) := by
  induction effects generalizing s with
  | nil => simp
  | cons effect effects ih =>
      obtain ⟨hwidget, hdisconnects, htimers, hsome⟩ := ih (s.perform effect)
      rw [List.foldl_cons, hwidget]
      have hone : (s.perform effect).widget = s.widget ∧
          s.disconnects ≤ (s.perform effect).disconnects ∧ s.timers ≤ (s.perform effect).timers ∧
          (effect = .disconnectFromHost → 0 < (s.perform effect).disconnects) := by
        cases effect <;> simp [perform]
      refine ⟨hone.1, hone.2.1.trans hdisconnects, hone.2.2.1.trans htimers, ?_⟩
      intro hmem
      rcases List.mem_cons.mp hmem with heffect | hmem
      · exact Nat.lt_of_lt_of_le (hone.2.2.2 heffect.symm) hdisconnects
      · exact hsome hmem

theorem slot_spec (s : Session) (f : Slot) :
    (s.slot f).widget.flags = (outcome f s.widget).1 ∧
      s.disconnects ≤ (s.slot f).disconnects ∧ s.timers ≤ (s.slot f).timers ∧
      (.disconnectFromHost ∈ (outcome f s.widget).2 → 0 < (s.slot f).disconnects) := by
  obtain ⟨hwidget, hdisconnects, htimers, hsome⟩ :=
    foldl_perform { s with widget := (f s.widget).1 } (f s.widget).2
  exact ⟨congrArg flags hwidget, hdisconnects, htimers, fun h => hsome (List.mem_filter.mp h).1⟩

/-- A disconnect is to be notified of, or a timer is armed. -/
def Outlet (s : Session) : Prop := 0 < s.disconnects ∨ 0 < s.timers

/-- A session that is ending has an event left to end it, and a request that is put off one to
release it. -/
structure NeverStuck (s : Session) : Prop where
  ending : s.widget.sessionEnding = true → s.Outlet
  released : s.widget.pendingConnect.isSome = true →
    ∃ e s', (e = .networkDisconnected ∨ e = .timeout) ∧ step s e = some s' ∧
      s'.widget.pendingConnect = none

/-- The window is closed only while there is something to end, or something that ends it. -/
def SafeClose (s : Session) : Event → Prop
  | .close => s.widget.sessionEnding = true ∨ s.widget.sessionActive = true
      ∨ s.widget.connecting = true ∨ s.Outlet
  | _ => True

/-- What the flags and the counts have to do with each other. -/
structure Inv (s : Session) : Prop where
  ending : s.widget.flags.ending = true → s.Outlet
  deferring : s.widget.flags.Deferring

theorem Inv.slot (h : Inv s) {f : Slot} (hannounces : Announces f) (hdefers : Defers f) :
    Inv (s.slot f) := by
  obtain ⟨hflags, hdisconnects, htimers, hsome⟩ := s.slot_spec f
  constructor
  · intro hending
    rw [hflags] at hending
    rcases hannounces s.widget hending with hbefore | hnow
    · rcases h.ending hbefore with hd | ht
      · exact Or.inl (Nat.lt_of_lt_of_le hd hdisconnects)
      · exact Or.inr (Nat.lt_of_lt_of_le ht htimers)
    · exact Or.inl (hsome hnow)
  · rw [hflags]
    exact hdefers s.widget h.deferring

/-- A slot after which no session is ending and nothing is put off. -/
theorem Inv.released {f : Slot} (hending : (outcome f s.widget).1.ending = false)
    (hpending : (outcome f s.widget).1.pending = none) : Inv (s.slot f) := by
  obtain ⟨hflags, -⟩ := s.slot_spec f
  constructor
  · intro h
    rw [hflags, hending] at h
    simp at h
  · intro h
    rw [hflags, hpending] at h
    simp at h

theorem Inv.step (h : Inv s) {e : Event} (hsafe : SafeClose s e) (hstep : step s e = some s') :
    Inv s' := by
  cases e with
  | click request =>
      obtain rfl := Option.some.inj hstep
      exact h.slot (announces_buttonClicked request) (defers_buttonClicked request)
  | requestConnect request =>
      obtain rfl := Option.some.inj hstep
      exact h.slot (announces_requestConnectToServer request)
        (defers_requestConnectToServer request)
  | disconnectServer =>
      obtain rfl := Option.some.inj hstep
      exact h.slot announces_onDisconnectServer defers_onDisconnectServer
  | netError error =>
      obtain rfl := Option.some.inj hstep
      exact h.slot (announces_netError error) (defers_netError error)
  | connectFinished ok request =>
      obtain ⟨-, hs⟩ := Option.ite_none_right_eq_some.mp hstep
      obtain rfl := Option.some.inj hs
      have hless : Inv { s with connects := s.connects - 1 } := ⟨h.ending, h.deferring⟩
      exact hless.slot (announces_onConnectFinished request ok)
        (defers_onConnectFinished request ok)
  | networkDisconnected =>
      obtain ⟨-, hs⟩ := Option.ite_none_right_eq_some.mp hstep
      obtain rfl := Option.some.inj hs
      have hreleased := outcome_released s.widget
      exact .released hreleased.1 hreleased.2
  | timeout =>
      obtain ⟨-, hs⟩ := Option.ite_none_right_eq_some.mp hstep
      obtain rfl := Option.some.inj hs
      have hreleased := outcome_timeout_released h.deferring
      exact .released hreleased.1 hreleased.2
  | close =>
      obtain rfl := Option.some.inj hstep
      obtain ⟨hflags, hdisconnects, htimers, hsome⟩ := s.slot_spec closeEvent
      have houtlet : s.Outlet → (s.slot closeEvent).Outlet := fun hout =>
        hout.imp (Nat.lt_of_lt_of_le · hdisconnects) (Nat.lt_of_lt_of_le · htimers)
      constructor
      · intro _
        rcases hsafe with hending | hactive | hconnecting | hout
        · exact houtlet (h.ending hending)
        · rcases announces_closeEvent s.widget (Or.inl hactive) with hending | hnow
          · exact houtlet (h.ending hending)
          · exact Or.inl (hsome hnow)
        · rcases announces_closeEvent s.widget (Or.inr hconnecting) with hending | hnow
          · exact houtlet (h.ending hending)
          · exact Or.inl (hsome hnow)
        · exact houtlet hout
      · rw [hflags]
        exact defers_closeEvent s.widget h.deferring

theorem Inv.neverStuck (h : Inv s) : NeverStuck s := by
  refine ⟨h.ending, fun hpending => ?_⟩
  have hending := h.deferring hpending
  rcases h.ending hending with hd | ht
  · refine ⟨.networkDisconnected, _, Or.inl rfl, if_pos hd, ?_⟩
    obtain ⟨hflags, -⟩ :=
      slot_spec { s with disconnects := s.disconnects - 1 } onNetworkDisconnected
    exact (congrArg Flags.pending hflags).trans (outcome_released s.widget).2
  · refine ⟨.timeout, _, Or.inr rfl, if_pos ht, ?_⟩
    obtain ⟨hflags, -⟩ := slot_spec { s with timers := s.timers - 1 } MeetingWidget.timeout
    exact (congrArg Flags.pending hflags).trans (outcome_timeout_released h.deferring).2

/-- A window closed at the wrong time leaves a session ending for good. -/
theorem stuck_of_close (hsafe : ¬ SafeClose s .close) : ¬ NeverStuck (s.slot closeEvent) := by
  simp only [SafeClose, not_or, Bool.not_eq_true] at hsafe
  obtain ⟨hending, hactive, hconnecting, hout⟩ := hsafe
  have hclosed : closeEvent s.widget = ((closeEvent s.widget).1, []) ∧
      (closeEvent s.widget).1.sessionEnding = true := by
    simp [closeEvent, endMeetingSession, clearPartner, resetMeetingUi, hending, hactive,
      hconnecting]
  intro hnever
  apply hout
  have hslot : s.slot closeEvent = { s with widget := (closeEvent s.widget).1 } := by
    rw [Session.slot, hclosed.1]
    rfl
  rw [hslot] at hnever
  exact hnever.ending hclosed.2

/-- **No session is ever stuck ending exactly if** the window is closed only while a session is
ending, active or being set up, or while a notification or a timer is still to come. -/
theorem neverStuck_iff (es : List Event) :
    Run.Throughout step NeverStuck {} es ↔ Run.Steps step SafeClose {} es := by
  constructor
  · apply Run.steps_of_throughout
    intro s e _ hsafe
    cases e with
    | close => exact ⟨_, rfl, stuck_of_close hsafe⟩
    | _ => exact absurd trivial hsafe
  · intro h
    have hinit : Inv {} := ⟨by simp [flags], by simp [Flags.Deferring, flags]⟩
    exact (Run.throughout_of_step (fun s e s' hs hsafe he => hs.step hsafe he) hinit h).mono
      fun s hs => hs.neverStuck

/-! ### A session that is stuck -/

def sampleRequest : ConnectRequest :=
  { ip := "127.0.0.1", port := "8888", action := .createMeeting }

/-- The server ends a meeting, the notification and the timer come, and then the window, which is
still there, is closed. -/
def serverEnds : List Event :=
  [.click sampleRequest, .connectFinished true sampleRequest, .netError .remoteHostClosed,
    .networkDisconnected, .timeout, .close]

/-- The next request is put off, and nothing will ever release it. -/
theorem stuckEnding : ∃ s s', Run.run step {} serverEnds = some s ∧
    step s (.click sampleRequest) = some s' ∧
    s'.widget.sessionEnding = true ∧ s'.widget.pendingConnect = some sampleRequest ∧
    s'.connects = 0 ∧ s'.disconnects = 0 ∧ s'.timers = 0 ∧
    ¬ Run.Throughout step NeverStuck {} serverEnds := by
  have hrun : (Run.run step {} serverEnds).map (fun s => (s.widget.sessionEnding, s.disconnects,
      s.timers)) = some (true, 0, 0) := by decide
  obtain ⟨s, hs, hcounts⟩ := Option.map_eq_some_iff.mp hrun
  have hclick : ((Run.run step {} serverEnds).bind fun s => step s (.click sampleRequest)).map
      (fun s => (s.widget.sessionEnding, s.widget.pendingConnect, s.connects, s.disconnects,
        s.timers)) = some (true, some sampleRequest, 0, 0, 0) := by decide
  rw [hs, Option.bind_some] at hclick
  obtain ⟨s', hs', hafter⟩ := Option.map_eq_some_iff.mp hclick
  simp only [Prod.mk.injEq] at hcounts hafter
  obtain ⟨hending, hdisconnects, htimers⟩ := hcounts
  refine ⟨s, s', hs, hs', hafter.1, hafter.2.1, hafter.2.2.1, hafter.2.2.2.1, hafter.2.2.2.2, ?_⟩
  intro hnever
  rcases (hnever.last hs).ending hending with hd | ht
  · omega
  · omega

end Session

end CloudMeeting.Client
