/-
When the answers to requests are true.

A result is discarded by a window that is hidden or whose session is ending, whatever request it
is for.  That is right as long as it says whether the user has closed the window since the request
was made, and for every connect under way it does (`Agreed`): closing the window says so of all of
them, and asking for a meeting of none.  What can spoil it are five kinds of events: a test of the
connection, which leaves the window hidden; a meeting asked for, or a session declared over, in
front of an older connect; an error while a connect is out; and a request that is dropped.  With
those excluded (`Fair`) every request is answered once and truly (`requestsAnswered`).

A connect that has failed already is answered truly whatever the window looks like, so an error
may well come between the failure and its result.
-/
import CloudMeeting.Client.Answers

namespace CloudMeeting.Client

open MeetingWidget

/-! ### Connects that may still come off -/

/-- A result that is handled now is discarded. -/
def Flags.discards (flags : Flags) : Bool := flags.ending || !flags.visible

theorem Delivery.mark_of_connected {d : Delivery} {serial : Nat}
    (h : d.connectedSerial = some serial) : d.mark = some (.connect serial) := by
  unfold connectedSerial at h
  split at h
  · rw [← Option.some.inj h]
    rfl
  · simp at h

theorem Dial.serial_of_hopeful {d : Dial} {serial : Nat} (h : d.hopefulSerial = some serial) :
    d.serial = serial := by
  unfold hopefulSerial at h
  split at h
  · simp at h
  · exact Option.some.inj h

namespace Threads

variable {t t' : Threads}

theorem hopeful_subset (t : Threads) : t.hopeful ⊆ t.connects := by
  intro serial hin
  simp only [hopeful, connects, line, List.mem_append, List.filterMap_append,
    List.filterMap_filterMap, List.mem_filterMap, Option.mem_toList,
    Option.bind_eq_some_iff] at hin ⊢
  rcases hin with ⟨delivery, hdelivery, hserial⟩ | ⟨dial, hdial, hserial⟩ | ⟨task, htask, hserial⟩
  · exact Or.inl ⟨delivery, hdelivery, .connect serial, delivery.mark_of_connected hserial, rfl⟩
  · refine Or.inr (Or.inr (Or.inl ?_))
    simp [hdial, dial.serial_of_hopeful hserial, Mark.connectSerial]
  · refine Or.inr (Or.inr (Or.inr ?_))
    cases task with
    | connectToServer serial' request =>
        exact ⟨.connect serial', List.mem_map.mpr ⟨_, htask, rfl⟩, hserial⟩
    | disconnectFromHost serial' => simp [Task.connectSerial] at hserial

/-- On its way to the IO thread is the connect that the controller waits for, and no other. -/
def Awaited (t : Threads) : Prop :=
  t.io.count .connectOnIoThread = t.dialing.toList.countP (·.result.isNone)

theorem Awaited.slot (h : Awaited t) (f : Slot) : Awaited (t.slot f) := by
  have hfoldl : ∀ (effects : List Effect) (t : Threads), (effects.foldl perform t).io = t.io ∧
      (effects.foldl perform t).dialing = t.dialing := by
    intro effects
    induction effects with
    | nil => exact fun _ => ⟨rfl, rfl⟩
    | cons effect effects ih =>
        intro t
        rw [List.foldl_cons, (ih _).1, (ih _).2]
        cases effect <;> exact ⟨rfl, rfl⟩
  obtain ⟨hio, hdialing⟩ := hfoldl (f t.widget).2 { t with widget := (f t.widget).1 }
  rw [Awaited, Threads.slot, hio, hdialing]
  exact h

theorem Awaited.relay (h : Awaited t) (hr : Relayed t t') : Awaited t' := by
  unfold Awaited at h ⊢
  cases hr with
  | dial serial request rest hidle hcontroller => simpa [signalSendStop, hidle] using h
  | hangUp serial rest hidle hcontroller => simpa [signalSendStop] using h
  | reached serial request hdialing => simpa [startSendWorker, signalSendStop, hdialing] using h
  | failed serial request hdialing => simpa [hdialing] using h
  | connectOnIo ok errors rest hio =>
      rw [hio, List.count_cons_self] at h
      have hone : t.dialing.toList.countP (·.result.isNone) ≤ 1 :=
        List.countP_le_length.trans Option.length_toList_le
      have hnone : rest.count .connectOnIoThread = 0 := by omega
      cases hdialing : t.dialing with
      | none => simpa [hdialing] using hnone
      | some dial => simpa [hdialing] using hnone
  | disconnectOnIo serial rest hio => simpa [hio] using h
  | socketError error hconnected => exact h
  | disconnected serial rest hui => exact h
  | incoming error rest hui => exact h

/-- On the way to the window connects fail, and none is added. -/
theorem Relayed.hopeful (hr : Relayed t t') (h : Awaited t) : t'.hopeful ⊆ t.hopeful := by
  cases hr with
  | dial serial request rest hidle hcontroller =>
      simp [Threads.hopeful, signalSendStop, hidle, hcontroller, Task.connectSerial,
        Dial.hopefulSerial]
  | hangUp serial rest hidle hcontroller =>
      simp [Threads.hopeful, signalSendStop, hidle, hcontroller, Task.connectSerial,
        List.filterMap_cons]
  | reached serial request hdialing =>
      simp [Threads.hopeful, startSendWorker, signalSendStop, hdialing, Delivery.connectedSerial,
        Dial.hopefulSerial]
  | failed serial request hdialing =>
      simp [Threads.hopeful, hdialing, Delivery.connectedSerial, Dial.hopefulSerial,
        List.filterMap_cons]
  | connectOnIo ok errors rest hio =>
      -- what the controller waits for had no result before
      rw [Awaited, hio, List.count_cons_self] at h
      have hpos : 0 < t.dialing.toList.countP (·.result.isNone) := by omega
      obtain ⟨⟨serial, request, result⟩, hdialing, hresult⟩ := List.countP_pos_iff.mp hpos
      rw [Option.mem_toList] at hdialing
      have hresult : result = none := Option.isNone_iff_eq_none.mp hresult
      cases ok <;>
        simp [Threads.hopeful, hdialing, hresult, Delivery.connectedSerial, Dial.hopefulSerial,
          List.filterMap_map, Function.comp_def]
  | disconnectOnIo serial rest hio =>
      simp [Threads.hopeful, Delivery.connectedSerial, List.filterMap_cons]
  | socketError error hconnected =>
      simp [Threads.hopeful, Delivery.connectedSerial, List.filterMap_cons]
  | disconnected serial rest hui =>
      simp [Threads.hopeful, signalSendStop, hui, Delivery.connectedSerial, List.filterMap_cons]
  | incoming error rest hui =>
      simp [Threads.hopeful, hui, Delivery.connectedSerial, List.filterMap_cons]

end Threads

namespace Ledger

variable {l l' : Ledger}

/-! ### When answers are true -/

/-- While the window is shown, a session that is ending is declared over only when no connect is
out. -/
def ResetsAlone (l : Ledger) : Prop :=
  l.threads.widget.sessionEnding = true → l.threads.widget.visible = true →
    l.threads.connects = []

/-- An error ends a session that is wanted only when no connect may still come off. -/
def EndsAlone (l : Ledger) : Prop :=
  l.threads.widget.sessionEnding = false → l.threads.widget.visible = true →
    l.threads.widget.sessionActive = true ∨ l.threads.widget.connecting = true →
      l.threads.hopeful = []

instance (l : Ledger) : Decidable l.ResetsAlone := inferInstanceAs (Decidable (_ → _))

instance (l : Ledger) : Decidable l.EndsAlone := inferInstanceAs (Decidable (_ → _))

/-- What is asked of the next delivery. -/
def FairDelivery (l : Ledger) : Delivery → Prop
  | .networkDisconnected _ => l.ResetsAlone
  | .requestMessage _ => l.EndsAlone
  | _ => True

/-- A connection is tested only where the test is refused, and a meeting is asked for only while
the session is ending or no connect is out; the window is not closed while a request is put off;
no session is declared over in front of an older connect, and no error ends one that has a connect
out. -/
def Fair (l : Ledger) : Threads.Event → Prop
  | .click request => l.threads.widget.visible = false →
      if request.action = .none then l.threads.widget.connecting = true
      else l.threads.widget.sessionEnding = true ∨ l.threads.connects = []
  | .close => l.threads.widget.pendingConnect = none
  | .timer _ => l.ResetsAlone
  | .ui => ∀ d ∈ l.threads.ui.head?, l.FairDelivery d
  | _ => True

/-- For every connect under way that may still come off, what the window looks at says whether the
user has closed the window since. -/
structure Agreed (l : Ledger) : Prop where
  awaited : l.threads.Awaited
  past : l.closed ≤ l.asked
  later : ∀ n ∈ l.deferred, l.closed ≤ n
  /-- A request is put off only by a window that is shown. -/
  waiting : l.threads.widget.flags.pending.isSome = true →
    l.threads.widget.flags.ending = true ∧ l.threads.widget.flags.visible = true
  alone : l.threads.widget.flags.discards = false → l.threads.connects.length ≤ 1
  judged : ∀ serial ∈ l.threads.hopeful, l.closedSince serial = l.threads.widget.flags.discards

theorem Agreed.init : Agreed {} where
  awaited := rfl
  past := Nat.le_refl _
  later := by simp
  waiting := by simp [flags]
  alone := by simp [Threads.connects, Threads.line]
  judged := by simp [Threads.hopeful]

/-- Letting go of the request put off hands over that one and no other. -/
theorem Inv.handedBy_release (h : l.Inv) {e : Threads.Event}
    (hsubject : l.subject e = l.deferred.map fun n => (n, false)) :
    (l.handedBy e (dealtRelease l.threads.widget)).length
        = (dealtRelease l.threads.widget).handovers ∧
      ∀ n ∈ l.handedBy e (dealtRelease l.threads.widget), n ∈ l.deferred := by
  unfold dealtRelease
  cases hrequest : l.threads.widget.pendingConnect with
  | none => simp [handedBy]
  | some request =>
      obtain ⟨n, hn⟩ : ∃ n, l.deferred = some n := by
        rw [← Option.ne_none_iff_exists', Ne, h.deferred, hrequest]
        simp
      simp [handedBy, hsubject, hn]

namespace Agreed

variable {t : Threads} {f : Slot} {e : Threads.Event}

theorem pending_of_hidden (h : l.Agreed) (hhidden : l.threads.widget.flags.visible = false) :
    l.threads.widget.flags.pending = none := by
  rw [← Option.not_isSome_iff_eq_none]
  intro hsome
  rw [(h.waiting hsome).2] at hhidden
  simp at hhidden

theorem pending_of_going (h : l.Agreed) (hgoing : l.threads.widget.flags.ending = false) :
    l.threads.widget.flags.pending = none := by
  rw [← Option.not_isSome_iff_eq_none]
  intro hsome
  rw [(h.waiting hsome).1] at hgoing
  simp at hgoing

/-- A request handed over before an event is the same after it. -/
theorem requestOf_record (hinv : l.Inv) {serial : Nat} (hin : serial ∈ l.threads.connects)
    (d : Dealt) (t : Threads) : (l.record e d t).requestOf serial = l.requestOf serial := by
  have hrange := hinv.serials serial hin
  show (l.handed ++ _)[serial - 1]? = l.handed[serial - 1]?
  rw [List.getElem?_append_left]
  rw [hinv.numbered]
  omega

/-- A request that is handed over by an event has the number of one of its handovers. -/
theorem requestOf_new (hinv : l.Inv) {serial : Nat} {d : Dealt}
    (hhanded : (l.handedBy e d).length = d.handovers)
    (hin : serial ∈ List.range' (l.threads.serial + 1) d.handovers) (t : Threads) :
    ∃ n ∈ l.handedBy e d, (l.record e d t).requestOf serial = some n := by
  rw [List.mem_range'_1, ← hinv.numbered, ← hhanded] at hin
  have hlt : serial - 1 - l.handed.length < (l.handedBy e d).length := by omega
  refine ⟨_, List.getElem_mem hlt, ?_⟩
  show (l.handed ++ l.handedBy e d)[serial - 1]? = _
  rw [List.getElem?_append_right (by omega), List.getElem?_eq_getElem hlt]

/-- What a slot other than `closeEvent` has to do with the connects under way. -/
theorem record (h : l.Agreed) (hinv : l.Inv) (hserial : t.serial = l.threads.serial)
    (hhopeful : t.hopeful ⊆ l.threads.hopeful) (hawaited : t.Awaited)
    (hclose : e ≠ .close) {d : Dealt} {flags : Flags} (hd : dealt f t.widget = d)
    (hflags : (outcome f t.widget).1 = flags)
    (hwaiting : flags.pending.isSome = true → flags.ending = true ∧ flags.visible = true)
    (halone : flags.discards = false → t.connects.length + d.handovers ≤ 1)
    (hold : t.hopeful = [] ∨ flags.discards = l.threads.widget.flags.discards)
    (hhanded : (l.handedBy e d).length = d.handovers)
    (hnew : ∀ n ∈ l.handedBy e d, l.closed ≤ n ∧ flags.discards = false) :
    (l.record e d (t.slot f)).Agreed := by
  subst hd
  obtain ⟨-, hconnects', hhopeful'⟩ := t.connects_slot f
  have hwidget : (t.slot f).widget.flags = flags :=
    (congrArg MeetingWidget.flags (t.widget_slot f)).trans hflags
  have hclosed : ∀ d, (l.record e d (t.slot f)).closed = l.closed :=
    fun d => closed_record hclose d (t.slot f)
  have hasked : ∀ d, l.asked ≤ (l.record e d (t.slot f)).asked := by
    intro d
    simp only [Ledger.record]
    split <;> omega
  refine ⟨hawaited.slot f, ?_, fun n hn => ?_, ?_, ?_, fun serial hin => ?_⟩
  · rw [hclosed]
    exact h.past.trans (hasked _)
  · rw [hclosed]
    simp only [Ledger.record] at hn
    split at hn
    · simp at hn
    split at hn
    · rw [← Option.some.inj hn]
      exact h.past
    · exact h.later n hn
  · show (t.slot f).widget.flags.pending.isSome = true → _
    rw [show (l.record e _ (t.slot f)).threads.widget.flags = flags from hwidget, hwidget]
    exact hwaiting
  · show (t.slot f).widget.flags.discards = false → (t.slot f).connects.length ≤ 1
    rw [hwidget, hconnects', List.length_append, List.length_range']
    exact halone
  · show _ = (t.slot f).widget.flags.discards
    have hin' : serial ∈ (t.slot f).hopeful := hin
    rw [hhopeful', List.mem_append] at hin'
    rw [hwidget, closedSince, hclosed]
    rcases hin' with hin' | hin'
    · have hbefore := h.judged serial (hhopeful hin')
      rw [requestOf_record hinv (l.threads.hopeful_subset (hhopeful hin'))]
      rcases hold with hnone | hsame
      · rw [hnone] at hin'
        simp at hin'
      · rw [hsame, ← hbefore, closedSince]
    · rw [hserial] at hin'
      obtain ⟨n, hn, hrequest⟩ := requestOf_new hinv hhanded hin' (t.slot f)
      obtain ⟨hle, hkept⟩ := hnew n hn
      rw [hrequest, hkept]
      simpa using hle

/-- The same for a slot that hands nothing over. -/
theorem quiet (h : l.Agreed) (hinv : l.Inv) (hserial : t.serial = l.threads.serial)
    (hhopeful : t.hopeful ⊆ l.threads.hopeful) (hawaited : t.Awaited)
    (hclose : e ≠ .close) {d : Dealt} {flags : Flags} (hd : dealt f t.widget = d)
    (hnone : d.handovers = 0) (hflags : (outcome f t.widget).1 = flags)
    (hwaiting : flags.pending.isSome = true → flags.ending = true ∧ flags.visible = true)
    (halone : flags.discards = false → t.connects.length ≤ 1)
    (hold : t.hopeful = [] ∨ flags.discards = l.threads.widget.flags.discards) :
    (l.record e d (t.slot f)).Agreed := by
  have hhanded : l.handedBy e d = [] := by simp [handedBy, hnone]
  refine h.record hinv hserial hhopeful hawaited hclose hd hflags hwaiting ?_ hold ?_ ?_
  · rwa [hnone]
  · rw [hhanded, hnone]
    rfl
  · rw [hhanded]
    simp

/-- A click on a window that is shown is only answered. -/
theorem click_shown (h : l.Agreed) (hinv : l.Inv) {request : ConnectRequest}
    (hvisible : l.threads.widget.visible = true) :
    (l.record (.click request) (dealt (buttonClicked request) l.threads.widget)
      (l.threads.slot (buttonClicked request))).Agreed := by
  have hd : dealt (buttonClicked request) l.threads.widget
      = ⟨[], 0, l.threads.widget.pendingConnect⟩ := by
    rw [dealt_buttonClicked, if_pos hvisible]
  have hshown : l.threads.widget.flags.visible = true := hvisible
  have hflags : (outcome (buttonClicked request) l.threads.widget).1
      = l.threads.widget.flags := by
    rw [outcome_buttonClicked, if_pos hshown]
  exact hd ▸ h.quiet hinv rfl (List.Subset.refl _) h.awaited (by simp) hd rfl hflags h.waiting
    h.alone (Or.inr rfl)

/-- What a click on a window that is hidden makes of the flags. -/
theorem flags_click {w : MeetingWidget} (request : ConnectRequest) (hhidden : w.visible = false) :
    (outcome (buttonClicked request) w).1
      = if w.connecting then { w.flags with visible := !(request.action = .none) }
        else if w.sessionEnding then
          { w.flags with visible := !(request.action = .none), pending := some request }
        else { w.flags with visible := !(request.action = .none), connecting := true } := by
  have hnot : ¬ w.flags.visible = true := by simp [flags, hhidden]
  rw [outcome_buttonClicked, if_neg hnot, outcome_requestConnectToServer]
  by_cases hconnecting : w.connecting = true
  · simp [flags, hconnecting]
  · by_cases hending : w.sessionEnding = true <;> simp [flags, hconnecting, hending]

section Click

variable {request : ConnectRequest}

/-- A request that is refused shows the window, unless it is for a test; then the session must be
ending, or no connect out. -/
theorem click_refused (h : l.Agreed) (hinv : l.Inv)
    (hhidden : l.threads.widget.visible = false)
    (hconnecting : l.threads.widget.connecting = true)
    (hfair : request.action = .none ∨ l.threads.widget.sessionEnding = true ∨
      l.threads.connects = []) :
    (l.record (.click request) (dealt (buttonClicked request) l.threads.widget)
      (l.threads.slot (buttonClicked request))).Agreed := by
  have hd : dealt (buttonClicked request) l.threads.widget
      = ⟨[false], 0, l.threads.widget.pendingConnect⟩ := by
    rw [dealt_buttonClicked, if_neg (by simp [hhidden]), dealtRequest, if_pos hconnecting]
  have hflags := flags_click request hhidden
  rw [if_pos hconnecting] at hflags
  have hbefore : l.threads.widget.flags.discards = true := by
    simp [Flags.discards, flags, hhidden]
  have hafter : l.threads.connects = [] ∨ ({ l.threads.widget.flags with
      visible := !(request.action = .none) } : Flags).discards = true := by
    rcases hfair with haction | hending | hconnects
    · exact Or.inr (by simp [Flags.discards, haction])
    · exact Or.inr (by simp [Flags.discards, flags, hending])
    · exact Or.inl hconnects
  refine hd ▸ h.quiet hinv rfl (List.Subset.refl _) h.awaited (by simp) hd rfl hflags ?_ ?_ ?_
  · intro hsome
    have hnone := h.pending_of_hidden hhidden
    simp [hnone] at hsome
  · intro hkeeps
    rcases hafter with hconnects | hdiscards
    · rw [hconnects]
      exact Nat.zero_le 1
    · rw [hdiscards] at hkeeps
      simp at hkeeps
  · rcases hafter with hconnects | hdiscards
    · exact Or.inl (List.subset_nil.mp (hconnects ▸ l.threads.hopeful_subset))
    · exact Or.inr (hdiscards.trans hbefore.symm)

/-- A request that is put off shows the window while the session is ending. -/
theorem click_putOff (h : l.Agreed) (hinv : l.Inv)
    (hhidden : l.threads.widget.visible = false)
    (hconnecting : l.threads.widget.connecting = false)
    (hending : l.threads.widget.sessionEnding = true) (haction : ¬ request.action = .none) :
    (l.record (.click request) (dealt (buttonClicked request) l.threads.widget)
      (l.threads.slot (buttonClicked request))).Agreed := by
  have hd : dealt (buttonClicked request) l.threads.widget = ⟨[], 0, some request⟩ := by
    rw [dealt_buttonClicked, if_neg (by simp [hhidden]), dealtRequest,
      if_neg (by simp [hconnecting]), if_pos hending]
  have hflags := flags_click request hhidden
  rw [if_neg (by simp [hconnecting]), if_pos hending] at hflags
  have hdiscards : ∀ visible pending, ({ l.threads.widget.flags with
      visible := visible, pending := pending } : Flags).discards = true := by
    intro visible pending
    simp [Flags.discards, flags, hending]
  have hbefore : l.threads.widget.flags.discards = true := by
    simp [Flags.discards, flags, hhidden]
  refine hd ▸ h.quiet hinv rfl (List.Subset.refl _) h.awaited (by simp) hd rfl hflags ?_ ?_ ?_
  · exact fun _ => ⟨hending, by simp [haction]⟩
  · intro hkeeps
    rw [hdiscards] at hkeeps
    simp at hkeeps
  · exact Or.inr ((hdiscards _ _).trans hbefore.symm)

/-- A request is handed over while no connect is out. -/
theorem click_handedOver (h : l.Agreed) (hinv : l.Inv)
    (hhidden : l.threads.widget.visible = false)
    (hconnecting : l.threads.widget.connecting = false)
    (hending : l.threads.widget.sessionEnding = false) (haction : ¬ request.action = .none)
    (hconnects : l.threads.connects = []) :
    (l.record (.click request) (dealt (buttonClicked request) l.threads.widget)
      (l.threads.slot (buttonClicked request))).Agreed := by
  have hd : dealt (buttonClicked request) l.threads.widget
      = ⟨[], 1, l.threads.widget.pendingConnect⟩ := by
    rw [dealt_buttonClicked, if_neg (by simp [hhidden]), dealtRequest,
      if_neg (by simp [hconnecting]), if_neg (by simp [hending])]
  have hflags := flags_click request hhidden
  rw [if_neg (by simp [hconnecting]), if_neg (by simp [hending])] at hflags
  have hafter : ({ l.threads.widget.flags with
      visible := !(request.action = .none), connecting := true } : Flags).discards = false := by
    simp [Flags.discards, flags, hending, haction]
  refine hd ▸ h.record hinv rfl (List.Subset.refl _) h.awaited (by simp) hd hflags ?_ ?_ ?_ ?_ ?_
  · intro hsome
    have hnone := h.pending_of_hidden hhidden
    simp [hnone] at hsome
  · intro _
    rw [hconnects]
    exact Nat.le_refl 1
  · exact Or.inl (List.subset_nil.mp (hconnects ▸ l.threads.hopeful_subset))
  · rfl
  · intro n hn
    have hn : n = l.asked := by simpa [handedBy, subject] using hn
    exact ⟨hn ▸ h.past, hafter⟩

theorem click (h : l.Agreed) (hinv : l.Inv) (hfair : l.Fair (.click request)) :
    (l.record (.click request) (dealt (buttonClicked request) l.threads.widget)
      (l.threads.slot (buttonClicked request))).Agreed := by
  cases hvisible : l.threads.widget.visible with
  | true => exact h.click_shown hinv hvisible
  | false =>
      have hfair := hfair hvisible
      split at hfair
      · rename_i haction
        exact h.click_refused hinv hvisible hfair (Or.inl haction)
      · rename_i haction
        cases hconnecting : l.threads.widget.connecting with
        | true => exact h.click_refused hinv hvisible hconnecting (Or.inr hfair)
        | false =>
            cases hending : l.threads.widget.sessionEnding with
            | true => exact h.click_putOff hinv hvisible hconnecting hending haction
            | false =>
                have hconnects := hfair.resolve_left (by simp [hending])
                exact h.click_handedOver hinv hvisible hconnecting hending haction hconnects

end Click

/-- What a result makes of the flags: it discards no less than before, and leaves what is put off
where it is. -/
theorem flags_result (h : l.Agreed) (ok : Bool) (request : ConnectRequest) :
    let flags := (outcome (onConnectFinished ok request) l.threads.widget).1
    (flags.pending.isSome = true → flags.ending = true ∧ flags.visible = true) ∧
      (l.threads.widget.flags.discards = true → flags.discards = true) := by
  have hwaiting := h.waiting
  generalize hw : l.threads.widget = w at hwaiting ⊢
  rw [outcome_onConnectFinished]
  cases ok with
  | false =>
      refine ⟨fun hsome => ?_, fun hdiscards => ?_⟩
      · obtain ⟨hending, hvisible⟩ := hwaiting hsome
        simp [hending, hvisible]
      · cases hending : w.flags.ending with
        | true => simp [Flags.discards, hending]
        | false =>
            have hhidden : w.flags.visible = false := by
              simpa [Flags.discards, hending] using hdiscards
            simp [Flags.discards, hhidden]
  | true =>
      rw [if_pos rfl]
      split
      · exact ⟨fun hsome => ⟨rfl, (hwaiting hsome).2⟩, fun _ => rfl⟩
      · rename_i hwanted
        simp only [Bool.or_eq_true, not_or, decide_eq_true_eq] at hwanted
        obtain ⟨⟨hgoing, hvisible⟩, -⟩ := hwanted
        refine ⟨fun hsome => absurd (hwaiting hsome).1 hgoing, fun hdiscards => ?_⟩
        simp [Flags.discards, hgoing, hvisible] at hdiscards

/-- A result is handled; where the window wants it, it is of the only connect out. -/
theorem result (h : l.Agreed) (hinv : l.Inv) (serial : Nat) {ok : Bool} {request : ConnectRequest}
    (hserial : t.serial = l.threads.serial) (hwidget : t.widget = l.threads.widget)
    (hconnects : l.threads.connects = serial :: t.connects)
    (hhopeful : t.hopeful ⊆ l.threads.hopeful) (hawaited : t.Awaited)
    (hclose : e ≠ .close) :
    (l.record e (dealt (onConnectFinished ok request) t.widget)
      (t.slot (onConnectFinished ok request))).Agreed := by
  have hd := dealt_onConnectFinished t.widget request ok
  have hlast : l.threads.widget.flags.discards = false → t.connects = [] := by
    intro hwanted
    have hone := h.alone hwanted
    rw [hconnects, List.length_cons] at hone
    exact List.length_eq_zero_iff.mp (by omega)
  obtain ⟨hwaiting, hkept⟩ := h.flags_result ok request
  rw [← hwidget] at hwaiting hkept
  refine hd ▸ h.quiet hinv hserial hhopeful hawaited hclose hd rfl rfl hwaiting ?_ ?_
  · intro hwanted
    cases hbefore : l.threads.widget.flags.discards with
    | true =>
        rw [hkept (hwidget ▸ hbefore)] at hwanted
        simp at hwanted
    | false =>
        rw [hlast hbefore]
        exact Nat.zero_le 1
  · cases hbefore : l.threads.widget.flags.discards with
    | true => exact Or.inr (hkept (hwidget ▸ hbefore))
    | false => exact Or.inl (List.subset_nil.mp (hlast hbefore ▸ t.hopeful_subset))

/-- The session is declared over while no connect is out, or the window is hidden. -/
theorem reset (h : l.Agreed) (hinv : l.Inv) (hserial : t.serial = l.threads.serial)
    (hconnects : t.connects = l.threads.connects) (hhopeful : t.hopeful ⊆ l.threads.hopeful)
    (hawaited : t.Awaited) (hclose : e ≠ .close)
    (hsubject : l.subject e = l.deferred.map fun n => (n, false))
    (hd : dealt f t.widget = dealtRelease l.threads.widget)
    (hvisible : (outcome f t.widget).1.visible = l.threads.widget.flags.visible)
    (hending : (outcome f t.widget).1.ending = false)
    (hpending : (outcome f t.widget).1.pending = none) (hfair : l.ResetsAlone) :
    (l.record e (dealt f t.widget) (t.slot f)).Agreed := by
  have hwaiting : (outcome f t.widget).1.pending.isSome = true →
      (outcome f t.widget).1.ending = true ∧ (outcome f t.widget).1.visible = true := by
    intro hsome
    simp [hpending] at hsome
  have hafter : (outcome f t.widget).1.discards = !l.threads.widget.flags.visible := by
    simp [Flags.discards, hending, hvisible]
  by_cases hbusy : l.threads.widget.flags.ending = true ∧ l.threads.widget.flags.visible = true
  · -- no connect is out, and the request that is put off is one made since the window was closed
    have hnone : l.threads.connects = [] := hfair hbusy.1 hbusy.2
    obtain ⟨hlength, hdeferred⟩ := hinv.handedBy_release hsubject
    have hfew : (dealtRelease l.threads.widget).handovers ≤ 1 := by
      unfold dealtRelease
      split <;> simp
    refine hd ▸ h.record hinv hserial hhopeful hawaited hclose hd rfl hwaiting ?_ ?_ hlength ?_
    · intro _
      rw [hconnects, hnone]
      simpa using hfew
    · exact Or.inl (List.subset_nil.mp ((hconnects.trans hnone) ▸ t.hopeful_subset))
    · intro n hn
      refine ⟨h.later n (hdeferred n hn), ?_⟩
      rw [hafter, hbusy.2]
      rfl
  · -- nothing is put off, and the window is looked at as before
    have hnone : l.threads.widget.pendingConnect = none := by
      rw [← Option.not_isSome_iff_eq_none]
      exact fun hsome => hbusy (h.waiting hsome)
    have hsame : (!l.threads.widget.flags.visible) = l.threads.widget.flags.discards := by
      rw [not_and, Bool.not_eq_true] at hbusy
      cases hgoing : l.threads.widget.flags.ending with
      | true => simp [Flags.discards, hgoing, hbusy hgoing]
      | false => simp [Flags.discards, hgoing]
    have hfew : (dealtRelease l.threads.widget).handovers = 0 := by
      simp [dealtRelease, hnone]
    refine hd ▸ h.quiet hinv hserial hhopeful hawaited hclose hd hfew rfl hwaiting ?_ ?_
    · rw [hafter, hsame, hconnects]
      exact h.alone
    · exact Or.inr (hafter.trans hsame)

/-- What an error makes of the flags. -/
theorem flags_netError (w : MeetingWidget) (error : NetError) :
    let flags := (outcome error.slot w).1
    flags.pending = w.flags.pending ∧ flags.visible = w.flags.visible ∧
      (flags.ending = w.flags.ending ∨ flags.ending = true ∧ w.flags.ending = false ∧
        (w.flags.active = true ∨ w.flags.connecting = true)) := by
  rw [outcome_netError, outcome_endMeetingSession]
  split
  · exact ⟨rfl, rfl, Or.inl rfl⟩
  split
  · rename_i hgoing hlive
    exact ⟨rfl, rfl, Or.inr ⟨rfl, by simpa using hgoing, by simpa using hlive⟩⟩
  · exact ⟨rfl, rfl, Or.inl rfl⟩

/-- An error ends the session while no connect may still come off, or is nothing to the window. -/
theorem netError (h : l.Agreed) (hinv : l.Inv) (error : NetError)
    (hserial : t.serial = l.threads.serial) (hwidget : t.widget = l.threads.widget)
    (hconnects : t.connects = l.threads.connects) (hhopeful : t.hopeful ⊆ l.threads.hopeful)
    (hawaited : t.Awaited) (hclose : e ≠ .close) (hfair : l.EndsAlone) :
    (l.record e (dealt error.slot t.widget) (t.slot error.slot)).Agreed := by
  have hd := dealt_netError t.widget error
  obtain ⟨hpending, hvisible, hending⟩ := flags_netError t.widget error
  have hflags : (outcome error.slot t.widget).1 = (outcome error.slot l.threads.widget).1 := by
    rw [hwidget]
  rw [hwidget] at hpending hvisible hending
  refine hd ▸ h.quiet hinv hserial hhopeful hawaited hclose hd rfl hflags ?_ ?_ ?_
  · intro hsome
    rw [hpending] at hsome
    obtain ⟨hbefore, hshown⟩ := h.waiting hsome
    rcases hending with hsame | ⟨htrue, -⟩
    · exact ⟨hsame.trans hbefore, hvisible.trans hshown⟩
    · exact ⟨htrue, hvisible.trans hshown⟩
  · intro hwanted
    rcases hending with hsame | ⟨htrue, -⟩
    · rw [Flags.discards, hsame, hvisible] at hwanted
      rw [hconnects]
      exact h.alone hwanted
    · rw [Flags.discards, htrue] at hwanted
      simp at hwanted
  · rcases hending with hsame | ⟨htrue, hgoing, hlive⟩
    · exact Or.inr (by rw [Flags.discards, hsame, hvisible, Flags.discards])
    · cases hshown : l.threads.widget.flags.visible with
      | true => exact Or.inl (List.subset_nil.mp (hfair hgoing hshown hlive ▸ hhopeful))
      | false => exact Or.inr (by simp [Flags.discards, htrue, hshown])

/-- Everything under way is older than the closing of the window. -/
theorem close (h : l.Agreed) (hinv : l.Inv) :
    (l.record .close (dealt closeEvent l.threads.widget) (l.threads.slot closeEvent)).Agreed := by
  have hd := dealt_closeEvent l.threads.widget
  have hflags : (outcome closeEvent l.threads.widget).1.visible = false ∧
      (outcome closeEvent l.threads.widget).1.pending = none := by
    rw [outcome_closeEvent, outcome_endMeetingSession]
    split
    · exact ⟨rfl, rfl⟩
    · split <;> exact ⟨rfl, rfl⟩
  have hwidget : (l.threads.slot closeEvent).widget.flags
      = (outcome closeEvent l.threads.widget).1 :=
    congrArg MeetingWidget.flags (l.threads.widget_slot closeEvent)
  have hdiscards : (l.threads.slot closeEvent).widget.flags.discards = true := by
    rw [hwidget, Flags.discards, hflags.1]
    simp
  rw [hd]
  refine ⟨h.awaited.slot closeEvent, Nat.le_refl _, fun n hn => ?_, ?_, ?_, fun serial hin => ?_⟩
  · simp [Ledger.record] at hn
  · show (l.threads.slot closeEvent).widget.flags.pending.isSome = true → _
    rw [hwidget, hflags.2]
    simp
  · show (l.threads.slot closeEvent).widget.flags.discards = false → _
    rw [hdiscards]
    simp
  · show _ = (l.threads.slot closeEvent).widget.flags.discards
    have hin' : serial ∈ (l.threads.slot closeEvent).hopeful := hin
    rw [(l.threads.connects_slot closeEvent).2.2, hd] at hin'
    have hbefore : serial ∈ l.threads.connects :=
      l.threads.hopeful_subset (by simpa using hin')
    have hrange := hinv.serials serial hbefore
    obtain ⟨m, hm⟩ : ∃ m, l.requestOf serial = some m := by
      rw [← Option.isSome_iff_exists, requestOf, isSome_getElem?, hinv.numbered]
      omega
    have hmade : m < l.asked := by
      by_contra hnot
      have hplaces := hinv.places m
      have hcount : 0 < l.inFlight.count m :=
        List.count_pos_iff.mpr (List.mem_filterMap.mpr ⟨serial, hbefore, hm⟩)
      rw [if_neg hnot] at hplaces
      omega
    rw [hdiscards, closedSince, requestOf_record hinv hbefore, hm]
    simpa [Ledger.record] using hmade

theorem relay (h : l.Agreed) {t' : Threads} (hr : Threads.Relayed l.threads t') :
    Agreed { l with threads := t' } := by
  obtain ⟨hwidget, -, -, -⟩ := hr.spec
  refine ⟨h.awaited.relay hr, h.past, h.later, ?_, ?_, fun serial hin => ?_⟩
  · rw [hwidget]
    exact h.waiting
  · rw [hwidget, hr.connects.length_eq]
    exact h.alone
  · rw [hwidget]
    exact h.judged serial (hr.hopeful h.awaited hin)

end Agreed

theorem Inv.take (h : l.Inv) (ha : l.Agreed) {e : Threads.Event} {t : Threads} {f : Slot}
    (ht : Threads.Taken l.threads e t f) (hfair : l.Fair e) :
    (l.record e (dealt f t.widget) (t.slot f)).Inv := by
  cases ht with
  | click request =>
      cases hvisible : l.threads.widget.visible with
      | true =>
          apply h.quiet rfl rfl (by simp [asks, hvisible])
          rw [dealt_buttonClicked, if_pos hvisible]
      | false =>
          refine h.request (by simp [asks, hvisible]) ?_ fun _ => ha.pending_of_hidden hvisible
          rw [dealt_buttonClicked, if_neg (by simp [hvisible])]
  | close => exact h.close hfair
  | connectFinished serial ok request rest hui =>
      have hconnects : l.threads.connects
          = serial :: Threads.connects { l.threads with ui := rest } := by
        simp [Threads.connects, Threads.line, hui, Delivery.mark, Mark.connectSerial]
      refine h.result rfl hconnects rfl (by simp [subject, hui]) (dealt_onConnectFinished _ _ ok) ?_
      rintro rfl
      have hhopeful : serial ∈ l.threads.hopeful := by
        simp [Threads.hopeful, hui, Delivery.connectedSerial]
      exact (ha.judged serial hhopeful).symm
  | networkDisconnected serial rest hui =>
      refine h.release rfl ?_ rfl (by simp [subject, hui]) (dealt_onNetworkDisconnected _)
      simp [Threads.connects, Threads.line, hui, List.filterMap_cons, Delivery.mark,
        Mark.connectSerial]
  | requestMessage error rest hui =>
      refine h.quiet rfl ?_ rfl (dealt_netError _ error)
      simp [Threads.connects, Threads.line, hui, List.filterMap_cons, Delivery.mark]
  | timer serial hmem =>
      have hdealt := dealt_timeout l.threads.widget
      cases hending : l.threads.widget.sessionEnding with
      | true =>
          rw [if_pos hending] at hdealt
          exact h.release rfl rfl rfl rfl hdealt
      | false =>
          rw [if_neg (by simp [hending])] at hdealt
          exact h.quiet rfl rfl rfl hdealt

theorem Agreed.take (ha : l.Agreed) (h : l.Inv) {e : Threads.Event} {t : Threads} {f : Slot}
    (ht : Threads.Taken l.threads e t f) (hfair : l.Fair e) :
    (l.record e (dealt f t.widget) (t.slot f)).Agreed := by
  cases ht with
  | click request => exact ha.click h hfair
  | close => exact ha.close h
  | connectFinished serial ok request rest hui =>
      refine ha.result h serial rfl rfl ?_ ?_ ha.awaited (by simp)
      · simp [Threads.connects, Threads.line, hui, Delivery.mark, Mark.connectSerial]
      · cases ok <;> simp [Threads.hopeful, hui, Delivery.connectedSerial, List.filterMap_cons]
  | networkDisconnected serial rest hui =>
      have houtcome := outcome_onNetworkDisconnected l.threads.widget
      have hreleased := outcome_released l.threads.widget
      refine ha.reset h rfl ?_ ?_ ha.awaited (by simp) (by simp [subject, hui])
        (dealt_onNetworkDisconnected _) ?_ hreleased.1 hreleased.2 ?_
      · simp [Threads.connects, Threads.line, hui, List.filterMap_cons, Delivery.mark,
          Mark.connectSerial]
      · simp [Threads.hopeful, hui, Delivery.connectedSerial, List.filterMap_cons]
      · rw [outcome_onNetworkDisconnected]
        split <;> rfl
      · exact hfair (.networkDisconnected serial) (by simp [hui])
  | requestMessage error rest hui =>
      refine ha.netError h error rfl rfl ?_ ?_ ha.awaited (by simp) ?_
      · simp [Threads.connects, Threads.line, hui, List.filterMap_cons, Delivery.mark]
      · simp [Threads.hopeful, hui, Delivery.connectedSerial, List.filterMap_cons]
      · exact hfair (.requestMessage error) (by simp [hui])
  | timer serial hmem =>
      have hdeferring : l.threads.widget.flags.Deferring := fun hsome => (ha.waiting hsome).1
      have hreleased := outcome_timeout_released hdeferring
      refine ha.reset h rfl rfl (List.Subset.refl _) ha.awaited (by simp) rfl ?_ ?_ hreleased.1
        hreleased.2 hfair
      · rw [dealt_timeout]
        split
        · rfl
        · rename_i hgoing
          have hnone := ha.pending_of_going (by simpa [flags] using hgoing)
          have hnone' : l.threads.widget.pendingConnect = none := hnone
          simp [dealtRelease, hnone']
      · rw [outcome_timeout, outcome_onNetworkDisconnected]
        split
        · split <;> rfl
        · rfl

theorem step_kept (h : l.Inv ∧ l.Agreed) {e : Threads.Event} (hfair : l.Fair e)
    (hstep : l.step e = some l') : l'.Inv ∧ l'.Agreed := by
  rw [Ledger.step] at hstep
  split at hstep
  · rename_i t f hintake
    have htaken := Threads.taken hintake
    exact Option.some.inj hstep ▸ ⟨h.1.take h.2 htaken hfair, h.2.take h.1 htaken hfair⟩
  · obtain ⟨t, ht, rfl⟩ := Option.map_eq_some_iff.mp hstep
    have hrelayed := Threads.relayed ht
    exact ⟨h.1.relay hrelayed, h.2.relay hrelayed⟩

/-! ### Runs -/

/-- No request is put off, and none is under way. -/
def Settled (l : Ledger) : Prop :=
  l.threads.widget.pendingConnect = none ∧ l.threads.connects = []

structure Answered (l : Ledger) : Prop where
  /-- When everything is settled, each request made has been answered once. -/
  once : l.Settled → ∀ n < l.asked, l.answered.count n = 1
  /-- An answer is positive exactly if the request came off and the user was still there. -/
  truthful : ∀ a ∈ l.answers, a.ok = true ↔ a.connected = true ∧ a.closed = false

theorem Inv.once (h : l.Inv) (hsettled : l.Settled) {n : Nat} (hn : n < l.asked) :
    l.answered.count n = 1 := by
  have hplaces := h.places n
  rw [h.deferred.mpr hsettled.1, inFlight, hsettled.2, if_pos hn] at hplaces
  simpa using hplaces

/-- **Every request is answered once, and truly**, in every run whose steps are all fair. -/
theorem requestsAnswered {es : List Threads.Event} (h : Run.Steps step Fair {} es) :
    Run.Throughout step Answered {} es := by
  have hinv : Run.Throughout step (fun l => l.Inv ∧ l.Agreed) {} es :=
    Run.throughout_of_step (fun _ _ _ hinv hfair hstep => step_kept hinv hfair hstep)
      ⟨Inv.init, Agreed.init⟩ h
  exact hinv.mono fun _ hinv => ⟨fun hsettled _ hn => hinv.1.once hsettled hn, hinv.1.truthful⟩

instance (l : Ledger) : DecidablePred l.FairDelivery
  | .networkDisconnected _ => inferInstanceAs (Decidable l.ResetsAlone)
  | .requestMessage _ => inferInstanceAs (Decidable l.EndsAlone)
  | .connectFinished _ _ _ => isTrue trivial
  | .disconnected _ => isTrue trivial
  | .incoming _ => isTrue trivial

instance (l : Ledger) : ∀ e, Decidable (l.Fair e)
  | .click _ => inferInstanceAs (Decidable (_ → _))
  | .close => inferInstanceAs (Decidable (_ = _))
  | .timer _ => inferInstanceAs (Decidable l.ResetsAlone)
  | .ui => inferInstanceAs (Decidable (∀ d ∈ l.threads.ui.head?, l.FairDelivery d))
  | .controller => isTrue trivial
  | .io _ _ => isTrue trivial
  | .socketError _ => isTrue trivial

/-- A meeting is created and closed, and the next one asked for is put off and then fails. -/
def sampleRequests : List Threads.Event :=
  [.click Session.sampleRequest, .controller, .io true none, .controller, .ui, .close,
    .click Session.sampleRequest, .controller, .io true none, .ui, .ui, .controller,
    .io false none, .controller, .ui]

theorem requestsAnswered_sampleRequests :
    (Run.run step {} sampleRequests).map (·.answers)
      = some [⟨0, true, true, false⟩, ⟨1, false, false, false⟩] ∧
    Run.Throughout step Answered {} sampleRequests :=
  ⟨by decide, requestsAnswered (by decide)⟩

/-- The connection is tested, with success. -/
def testedConnection : List Threads.Event :=
  [.click { Session.sampleRequest with action := .none }, .controller, .io true none, .controller,
    .ui]

/-- The meeting window, which is hidden during a test, discards the result: the user is told that
a connection has failed which has succeeded. -/
theorem testedInVain : ∃ l, Run.run step {} testedConnection = some l ∧ l.Settled ∧
    l.answers = [⟨0, false, true, false⟩] ∧ ¬ Run.Throughout step Answered {} testedConnection := by
  have hrun : (Run.run step {} testedConnection).map (fun l =>
      (l.threads.widget.pendingConnect, l.threads.connects, l.answers))
        = some (none, [], [⟨0, false, true, false⟩]) := by decide
  obtain ⟨l, hl, hafter⟩ := Option.map_eq_some_iff.mp hrun
  simp only [Prod.mk.injEq] at hafter
  obtain ⟨hpending, hconnects, hanswers⟩ := hafter
  refine ⟨l, hl, ⟨hpending, hconnects⟩, hanswers, fun hall => ?_⟩
  have htruthful := (hall.last hl).truthful _ (by rw [hanswers]; exact List.mem_singleton_self _)
  simp at htruthful

/-- A meeting is created, and the window closed before its connect is done. -/
def closedEarly : List Threads.Event := [.click Session.sampleRequest, .controller, .close]

/-- A meeting is created and its connection fails; then the window is closed, another meeting asked
for and put off. -/
def failedLate : List Threads.Event :=
  [.click Session.sampleRequest, .controller, .io true none, .controller, .ui,
    .socketError .remoteHostClosed, .close, .click Session.sampleRequest]

/-- The other kinds of events spoil answers as well: a meeting asked for, or a session declared
over, in front of a connect that then passes for wanted; an error that lets one pass for unwanted;
and a request that is dropped. -/
example :
    (Run.run step {} (closedEarly ++ [.timer 1, .click Session.sampleRequest, .io true none,
      .controller, .ui])).map (·.answers) = some [⟨0, true, true, true⟩] ∧
    (Run.run step {} (closedEarly ++ [.click Session.sampleRequest, .timer 1, .io true none,
      .controller, .ui])).map (·.answers) = some [⟨0, true, true, true⟩] ∧
    (Run.run step {} (failedLate ++ [.timer 1, .ui, .ui, .controller, .io true none, .controller,
      .io true none, .controller, .ui, .ui])).map (·.answers)
        = some [⟨0, true, true, false⟩, ⟨1, false, true, false⟩] ∧
    (Run.run step {} (failedLate ++ [.close])).map (fun l => (l.deferred, l.inFlight, l.answers))
      = some (none, [], [⟨0, true, true, false⟩]) := by
  decide +kernel

end Ledger

end CloudMeeting.Client
