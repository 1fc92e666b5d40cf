/-
What the threads settle to.

As long as a connect request is handed over only when nothing is left of the connection
before, the line of connects and disconnects under way is in order: at most one connect, in
front, and behind it the disconnects that belong to it.  Everything else follows from where
in the line something is.  A disconnect that the IO thread has been asked for comes after
the last send worker, one that it has carried out after the last socket, and the last
notification finds nothing connected and nothing to come.

So when nothing is under way any more the flags say what is the case (`flagsSettled`).  A request
that is handed over with a disconnect still to be notified of is overtaken by the
notification (`unsettled`).
-/
import CloudMeeting.Client.Threads

namespace CloudMeeting.Client

open MeetingWidget

/-! ### Order -/

def Mark.serial : Mark → Nat
  | .connect serial => serial
  | .disconnect serial => serial

/-- At most one connect, in front, and all of it for connection `n`. -/
def InOrder (n : Nat) (line : List Mark) : Prop :=
  (∀ m ∈ line, m = .connect n ∨ m = .disconnect n) ∧ ∀ m ∈ line.tail, m = .disconnect n

namespace InOrder

variable {n : Nat} {m : Mark} {line more : List Mark}

theorem nil : InOrder n [] := ⟨by simp, by simp⟩

theorem single : InOrder n [.connect n] := ⟨by simp, by simp⟩

theorem of_disconnects (h : ∀ m ∈ line, m = .disconnect n) : InOrder n line :=
  ⟨fun m hm => Or.inr (h m hm), fun m hm => h m (List.mem_of_mem_tail hm)⟩

/-- Behind the first there are only disconnects. -/
theorem behind (h : InOrder n (m :: line)) : ∀ x ∈ line, x = .disconnect n := h.2

theorem tail (h : InOrder n (m :: line)) : InOrder n line := of_disconnects h.behind

theorem snoc (h : InOrder n line) : InOrder n (line ++ [.disconnect n]) := by
  cases line with
  | nil => exact of_disconnects (by simp)
  | cons m line =>
      refine ⟨fun x hx => ?_, fun x hx => ?_⟩
      · rcases List.mem_append.mp hx with hx | hx
        · exact h.1 x hx
        · exact Or.inr (List.mem_singleton.mp hx)
      · rcases List.mem_append.mp hx with hx | hx
        · exact h.2 x hx
        · exact List.mem_singleton.mp hx

/-- Nothing is in front of a connect. -/
theorem front {k : Nat} (h : InOrder n (line ++ .connect k :: more)) : line = [] := by
  cases line with
  | nil => rfl
  | cons m line =>
      have hmem : Mark.connect k ∈ line ++ .connect k :: more := by simp
      exact absurd (h.behind _ hmem) (by simp)

/-- A line without disconnects is empty, or it is the connect. -/
theorem eq_nil_or_single (h : InOrder n line) (hno : ∀ m ∈ line, m.isConnect = true) :
    line = [] ∨ line = [.connect n] := by
  match line with
  | [] => exact Or.inl rfl
  | [m] =>
      rcases h.1 m (by simp) with rfl | rfl
      · exact Or.inr rfl
      · exact absurd (hno (.disconnect n) (by simp)) (by simp [Mark.isConnect])
  | m :: x :: more =>
      have hx := h.behind x (by simp)
      exact absurd (hno x (by simp)) (by simp [hx, Mark.isConnect])

end InOrder

namespace Threads

variable {t t' : Threads}

/-! ### The pipeline -/

theorem not_working (h : t.sendRunning = false) : ¬ t.Working := by
  simp [Working, h]

theorem working_startSendWorker : t.startSendWorker.Working := by
  simp [Working, startSendWorker, signalSendStop]

/-- What holds of the threads and the socket, whatever the window does. -/
structure Pipeline (t : Threads) : Prop where
  order : InOrder t.serial t.line
  ioIdle : t.dialing = none → .connectOnIoThread ∉ t.io
  ioBusy : ∀ dial, t.dialing = some dial →
    t.io = if dial.result = none then [.connectOnIoThread] else []
  /-- A disconnect that the user interface knows of has been carried out. -/
  down : ∀ k, .disconnect k ∈ t.ui.filterMap Delivery.mark → t.connected = false
  /-- One that the controller is done with has stopped the send worker. -/
  stopped : ∀ k, .disconnect k ∈ t.ui.filterMap Delivery.mark ++ t.io.filterMap IoTask.mark →
    ¬ t.Working
  dialing : t.dialing ≠ none → ¬ t.Working
  failed : ∀ serial request, t.dialing = some ⟨serial, request, some false⟩ → t.connected = false
  finished : t.line = [.connect t.serial] →
    ∀ serial request, .connectFinished serial true request ∈ t.ui → t.Working
  refused : ∀ serial request, .connectFinished serial false request ∈ t.ui →
    ¬ t.Working ∧ t.connected = false

namespace Pipeline

theorem init : Pipeline {} where
  order := .nil
  ioIdle _ := by simp
  ioBusy dial h := by simp at h
  down k h := by simp at h
  stopped k h := by simp at h
  dialing h := by simp at h
  failed serial request h := by simp at h
  finished _ serial request h := by simp at h
  refused serial request h := by simp at h

/-- With nothing marked in front, no result is waiting for the window. -/
theorem no_result (hui : t.ui.filterMap Delivery.mark = []) {serial : Nat} {ok : Bool}
    {request : ConnectRequest} (h : .connectFinished serial ok request ∈ t.ui) : False := by
  have hmark : Mark.connect serial ∈ t.ui.filterMap Delivery.mark :=
    List.mem_filterMap.mpr ⟨_, h, rfl⟩
  rw [hui] at hmark
  simp at hmark

/-- While the controller waits for a connect, nothing is in front of it. -/
theorem front_of_dialing (h : Pipeline t) {dial : Dial} (hdialing : t.dialing = some dial) :
    t.ui.filterMap Delivery.mark = [] ∧ t.io.filterMap IoTask.mark = [] := by
  have horder := h.order
  simp only [line, hdialing, Option.map_some, Option.toList_some, List.singleton_append] at horder
  rw [← List.append_assoc] at horder
  exact List.append_eq_nil_iff.mp horder.front

/-- A line that is not just a connect leaves nothing to be said about its result. -/
theorem not_single {k : Nat} (h : .disconnect k ∈ t.line) : t.line ≠ [.connect t.serial] := by
  intro hline
  rw [hline] at h
  simp at h

/-- While the controller has a connect before it, nothing else is under way. -/
theorem front_of_controller (h : Pipeline t) (hidle : t.dialing = none) {serial : Nat}
    {request : ConnectRequest} {rest : List Task}
    (hcontroller : t.controller = .connectToServer serial request :: rest) :
    t.ui.filterMap Delivery.mark = [] ∧ t.io = [] := by
  have hline : t.line = t.ui.filterMap Delivery.mark ++ t.io.filterMap IoTask.mark
      ++ .connect serial :: rest.map Task.mark := by
    simp [line, hidle, hcontroller, Task.mark]
  have hfront := h.order
  rw [hline] at hfront
  obtain ⟨hui, hio⟩ := List.append_eq_nil_iff.mp hfront.front
  refine ⟨hui, List.eq_nil_iff_forall_not_mem.mpr fun task htask => ?_⟩
  cases task with
  | connectOnIoThread => exact h.ioIdle hidle htask
  | disconnectOnIoThread k =>
      have hmark : Mark.disconnect k ∈ t.io.filterMap IoTask.mark :=
        List.mem_filterMap.mpr ⟨_, htask, rfl⟩
      rw [hio] at hmark
      simp at hmark

/-- A connect on the IO thread is one that the controller waits for. -/
theorem dialing_of_io (h : Pipeline t) {rest : List IoTask}
    (hio : t.io = .connectOnIoThread :: rest) : ∃ dial, t.dialing = some dial := by
  rw [← Option.isSome_iff_exists, Option.isSome_iff_ne_none]
  intro hidle
  exact h.ioIdle hidle (by simp [hio])

/-! ### The steps that run no slot, one by one -/

/-- The controller begins to connect; nothing else is under way. -/
theorem after_dial (h : Pipeline t) {serial : Nat} {request : ConnectRequest} {rest : List Task}
    (hidle : t.dialing = none)
    (hcontroller : t.controller = .connectToServer serial request :: rest) :
    Pipeline { t.signalSendStop with
      controller := rest
      dialing := some { serial := serial, request := request }
      io := t.io ++ [.connectOnIoThread] } := by
  obtain ⟨hui, hio⟩ := h.front_of_controller hidle hcontroller
  refine ⟨?_, by simp, ?_, h.down, fun _ _ => not_working rfl,
    fun _ => not_working rfl, by simp, fun _ _ _ hin => (no_result hui hin).elim,
    fun _ _ hin => (no_result hui hin).elim⟩
  · have horder := h.order
    simpa [line, signalSendStop, hidle, hcontroller, Task.mark, List.filterMap_cons,
      IoTask.mark] using horder
  · intro dial hdial
    obtain rfl := Option.some.inj hdial
    simp [hio]

/-- The controller has stopped the send worker and hands the disconnect on. -/
theorem after_hangUp (h : Pipeline t) {serial : Nat} {rest : List Task} (hidle : t.dialing = none)
    (hcontroller : t.controller = .disconnectFromHost serial :: rest) :
    Pipeline { t.signalSendStop with
      controller := rest
      io := t.io ++ [.disconnectOnIoThread serial] } := by
  have hline : t.line = t.ui.filterMap Delivery.mark ++ (t.io.filterMap IoTask.mark
      ++ .disconnect serial :: rest.map Task.mark) := by
    simp [line, hidle, hcontroller, Task.mark]
  refine ⟨?_, ?_, ?_, h.down, fun _ _ => not_working rfl,
    fun _ => not_working rfl, ?_, ?_, ?_⟩
  · have horder := h.order
    simpa [line, signalSendStop, hidle, hcontroller, Task.mark, IoTask.mark] using horder
  · simpa [signalSendStop] using h.ioIdle
  · intro dial hdial
    simp [signalSendStop, hidle] at hdial
  · intro k request hdial
    simp [signalSendStop, hidle] at hdial
  · intro hsingle
    refine absurd hsingle (not_single (k := serial) ?_)
    simp [line, IoTask.mark]
  · exact fun k request hin => ⟨not_working rfl, (h.refused k request hin).2⟩

/-- The server has been reached: the send worker starts. -/
theorem after_reached (h : Pipeline t) {serial : Nat} {request : ConnectRequest}
    (hdialing : t.dialing = some ⟨serial, request, some true⟩) :
    Pipeline { t.startSendWorker with
      dialing := none
      ui := t.ui ++ [.connectFinished serial true request] } := by
  obtain ⟨hui, hio⟩ := h.front_of_dialing hdialing
  have hempty : t.io = [] := by simpa using h.ioBusy _ hdialing
  refine ⟨?_, ?_, by simp, ?_, ?_, by simp, by simp, fun _ _ _ _ => working_startSendWorker, ?_⟩
  · have horder := h.order
    simpa [line, startSendWorker, signalSendStop, hdialing, hui, hio, Delivery.mark]
      using horder
  · intro _
    simp [startSendWorker, signalSendStop, hempty]
  · intro k hk
    simp [hui, Delivery.mark] at hk
  · intro k hk
    simp [startSendWorker, signalSendStop, hui, hio, Delivery.mark] at hk
  · intro k request' hin
    have hin' : .connectFinished k false request' ∈ t.ui := by
      simpa [startSendWorker, signalSendStop] using hin
    exact (no_result hui hin').elim

/-- The server has not been reached. -/
theorem after_failed (h : Pipeline t) {serial : Nat} {request : ConnectRequest}
    (hdialing : t.dialing = some ⟨serial, request, some false⟩) :
    Pipeline { t with
      dialing := none
      ui := t.ui ++ [.connectFinished serial false request] } := by
  obtain ⟨hui, hio⟩ := h.front_of_dialing hdialing
  have hempty : t.io = [] := by simpa using h.ioBusy _ hdialing
  have hstopped : ¬ t.Working := h.dialing (by simp [hdialing])
  refine ⟨?_, ?_, by simp, ?_, fun _ _ => hstopped, fun _ => hstopped, by simp, ?_, ?_⟩
  · have horder := h.order
    simpa [line, hdialing, hui, hio, Delivery.mark] using horder
  · simp [hempty]
  · intro k hk
    simp [hui, Delivery.mark] at hk
  · intro _ k request' hin
    have hin' : .connectFinished k true request' ∈ t.ui := by simpa using hin
    exact (no_result hui hin').elim
  · exact fun _ _ _ => ⟨hstopped, h.failed serial request hdialing⟩

/-- The IO thread has tried to connect, for the controller that waits. -/
theorem after_connectOnIo (h : Pipeline t) (ok : Bool) (errors : List NetError) {rest : List IoTask}
    (hio : t.io = .connectOnIoThread :: rest) :
    Pipeline { t with
      io := rest
      connected := ok
      dialing := t.dialing.map fun dial => { dial with result := some ok }
      ui := t.ui ++ errors.map .incoming } := by
  obtain ⟨dial, hdialing⟩ := h.dialing_of_io hio
  obtain ⟨hui, -⟩ := h.front_of_dialing hdialing
  have hrest : rest = [] := by
    have hbusy := h.ioBusy dial hdialing
    rw [hio] at hbusy
    split at hbusy
    · exact (List.cons.inj hbusy).2
    · simp at hbusy
  have hstopped : ¬ t.Working := h.dialing (by simp [hdialing])
  have hresult : ∀ {k ok' request},
      .connectFinished k ok' request ∈ t.ui ++ errors.map .incoming → False := by
    intro k ok' request hin
    exact no_result hui (by simpa using hin)
  refine ⟨?_, by simp [hdialing], ?_, ?_, fun _ _ => hstopped, fun _ => hstopped, ?_,
    fun _ _ _ hin => (hresult hin).elim, fun _ _ hin => (hresult hin).elim⟩
  · have horder := h.order
    simpa [line, hio, List.filterMap_cons, IoTask.mark, Delivery.mark, Function.comp_def]
      using horder
  · intro dial' hdial'
    simp only [hdialing, Option.map_some, Option.some.injEq] at hdial'
    simp [hrest, ← hdial']
  · intro k hk
    simp [hui, Delivery.mark] at hk
  · intro k request hdial
    simp only [hdialing, Option.map_some, Option.some.injEq, Dial.mk.injEq] at hdial
    exact hdial.2.2

/-- The IO thread has closed the socket. -/
theorem after_disconnectOnIo (h : Pipeline t) {serial : Nat} {rest : List IoTask}
    (hio : t.io = .disconnectOnIoThread serial :: rest) :
    Pipeline { t with io := rest, connected := false, ui := t.ui ++ [.disconnected serial] } := by
  have hidle : t.dialing = none := by
    by_contra hsome
    obtain ⟨dial, hdialing⟩ := Option.ne_none_iff_exists'.mp hsome
    have hbusy := h.ioBusy dial hdialing
    rw [hio] at hbusy
    split at hbusy <;> simp at hbusy
  have hstopped : ¬ t.Working := h.stopped serial (by simp [hio, IoTask.mark])
  refine ⟨?_, ?_, by simp [hidle], fun _ _ => rfl, fun _ _ => hstopped, fun _ => hstopped,
    fun _ _ _ => rfl, ?_, fun _ _ _ => ⟨hstopped, rfl⟩⟩
  · have horder := h.order
    simpa [line, hio, IoTask.mark, Delivery.mark] using horder
  · intro _ hin
    exact h.ioIdle hidle (by simpa [hio] using hin)
  · intro hsingle
    refine absurd hsingle (not_single (k := serial) ?_)
    simp [line, Delivery.mark]

/-- The socket fails. -/
theorem after_socketError (h : Pipeline t) (error : NetError) :
    Pipeline { t with connected := false, ui := t.ui ++ [.incoming error] } := by
  refine ⟨?_, h.ioIdle, h.ioBusy, fun _ _ => rfl, ?_, h.dialing, fun _ _ _ => rfl, ?_, ?_⟩
  · have horder := h.order
    simpa [line, List.filterMap_cons, Delivery.mark] using horder
  · intro k hk
    exact h.stopped k (by simpa [List.filterMap_cons, Delivery.mark] using hk)
  · intro hsingle k request hin
    refine h.finished ?_ k request (by simpa using hin)
    simpa [line, List.filterMap_cons, Delivery.mark] using hsingle
  · intro k request hin
    exact ⟨(h.refused k request (by simpa using hin)).1, rfl⟩

/-- The user interface hears that the socket is closed. -/
theorem after_disconnected (h : Pipeline t) {serial : Nat} {rest : List Delivery}
    (hui : t.ui = .disconnected serial :: rest) :
    Pipeline { t.signalSendStop with ui := rest ++ [.networkDisconnected serial] } := by
  have hdown : t.connected = false := h.down serial (by simp [hui, Delivery.mark])
  refine ⟨?_, h.ioIdle, h.ioBusy, fun _ _ => hdown, fun _ _ => not_working rfl,
    fun _ => not_working rfl, fun _ _ _ => hdown, ?_,
    fun _ _ _ => ⟨not_working rfl, hdown⟩⟩
  · have horder := h.order
    have hline : t.line = .disconnect serial :: (rest.filterMap Delivery.mark
        ++ (t.io.filterMap IoTask.mark
          ++ ((t.dialing.map fun dial => .connect dial.serial).toList
            ++ t.controller.map Task.mark))) := by
      simp [line, hui, Delivery.mark]
    rw [hline] at horder
    obtain rfl : serial = t.serial := by simpa using horder.1 _ (List.mem_cons_self ..)
    refine .of_disconnects fun m hm => ?_
    have hm' := (Relayed.disconnected t.serial rest hui).spec.2.2.2.mem_iff.mp hm
    rw [hline] at hm'
    rcases List.mem_cons.mp hm' with hm' | hm'
    · exact hm'
    · exact horder.behind m hm'
  · intro hsingle
    refine absurd hsingle (not_single (k := serial) ?_)
    simp [line, signalSendStop, Delivery.mark]

/-- The user interface hears of an error. -/
theorem after_incoming (h : Pipeline t) {error : NetError} {rest : List Delivery}
    (hui : t.ui = .incoming error :: rest) :
    Pipeline { t with ui := rest ++ [.requestMessage error] } := by
  have hmarks : (rest ++ [Delivery.requestMessage error]).filterMap Delivery.mark
      = t.ui.filterMap Delivery.mark := by
    simp [hui, List.filterMap_cons, Delivery.mark]
  have hline : line { t with ui := rest ++ [.requestMessage error] } = t.line := by
    simp only [line, hmarks]
  have hresult : ∀ {k ok request},
      .connectFinished k ok request ∈ rest ++ [Delivery.requestMessage error] →
        .connectFinished k ok request ∈ t.ui := by
    intro k ok request hin
    simpa [hui] using hin
  refine ⟨hline ▸ h.order, h.ioIdle, h.ioBusy, ?_, ?_, h.dialing, h.failed, ?_, ?_⟩
  · exact fun k hk => h.down k (hmarks ▸ hk)
  · intro k hk
    rw [hmarks] at hk
    exact h.stopped k hk
  · exact fun hsingle k request hin => h.finished (hline ▸ hsingle) k request (hresult hin)
  · exact fun k request hin => h.refused k request (hresult hin)

/-- A step that runs no slot keeps the threads as they should be. -/
theorem relay (h : Pipeline t) (hr : Relayed t t') : Pipeline t' := by
  cases hr with
  | dial _ _ _ hidle hcontroller => exact h.after_dial hidle hcontroller
  | hangUp _ _ hidle hcontroller => exact h.after_hangUp hidle hcontroller
  | reached _ _ hdialing => exact h.after_reached hdialing
  | failed _ _ hdialing => exact h.after_failed hdialing
  | connectOnIo ok errors _ hio => exact h.after_connectOnIo ok errors hio
  | disconnectOnIo _ _ hio => exact h.after_disconnectOnIo hio
  | socketError error _ => exact h.after_socketError error
  | disconnected _ _ hui => exact h.after_disconnected hui
  | incoming _ _ hui => exact h.after_incoming hui

/-- The window and its timers are none of the pipeline's business. -/
theorem window (h : Pipeline t) (w : MeetingWidget) (timers : List Nat) :
    Pipeline { t with widget := w, timers := timers } :=
  ⟨h.order, h.ioIdle, h.ioBusy, h.down, h.stopped, h.dialing, h.failed, h.finished, h.refused⟩

theorem line_disconnect (t : Threads) :
    (t.perform .disconnectFromHost).line = t.line ++ [.disconnect t.serial] := by
  simp [line, perform, Task.mark]

/-- Another disconnect for the connection there is. -/
theorem disconnect (h : Pipeline t) : Pipeline (t.perform .disconnectFromHost) := by
  refine ⟨?_, h.ioIdle, h.ioBusy, h.down, h.stopped, h.dialing, h.failed, ?_, h.refused⟩
  · rw [line_disconnect]
    exact h.order.snoc
  · intro hsingle
    refine absurd hsingle (not_single (k := t.serial) ?_)
    rw [line_disconnect]
    simp

theorem line_connect (t : Threads) (request : ConnectRequest) :
    (t.perform (.requestConnect request)).line = t.line ++ [.connect (t.serial + 1)] := by
  simp [line, perform, Task.mark]

/-- A new connection, with nothing left of the one before. -/
theorem connect (h : Pipeline t) (hline : t.line = []) (request : ConnectRequest) :
    Pipeline (t.perform (.requestConnect request)) := by
  obtain ⟨hui, -⟩ := List.append_eq_nil_iff.mp hline
  refine ⟨?_, h.ioIdle, h.ioBusy, h.down, h.stopped, h.dialing, h.failed,
    fun _ _ _ hin => (no_result hui hin).elim, h.refused⟩
  rw [line_connect, hline]
  exact .single

/-- The user interface has taken the first delivery. -/
theorem deliver (h : Pipeline t) {d : Delivery} {rest : List Delivery} (hui : t.ui = d :: rest) :
    Pipeline { t with ui := rest } := by
  have hmarks : ∀ m ∈ rest.filterMap Delivery.mark, m ∈ t.ui.filterMap Delivery.mark := by
    intro m hm
    obtain ⟨d', hd', hmark⟩ := List.mem_filterMap.mp hm
    exact List.mem_filterMap.mpr ⟨d', by simp [hui, hd'], hmark⟩
  have hline : line t = d.mark.toList ++ line { t with ui := rest } := by
    cases hd : d.mark <;> simp [line, hui, hd]
  refine ⟨?_, h.ioIdle, h.ioBusy, fun k hk => h.down k (hmarks _ hk), ?_, h.dialing, h.failed, ?_,
    fun k request hin => h.refused k request (by simp [hui, hin])⟩
  · have horder := h.order
    rw [hline] at horder
    cases hd : d.mark with
    | none => simpa [hd] using horder
    | some m =>
        rw [hd, Option.toList_some, List.singleton_append] at horder
        exact horder.tail
  · intro k hk
    apply h.stopped k
    rcases List.mem_append.mp hk with hk | hk
    · exact List.mem_append_left _ (hmarks _ hk)
    · exact List.mem_append_right _ hk
  · intro hsingle k request hin
    refine h.finished ?_ k request (by simp [hui, hin])
    cases hd : d.mark with
    | none =>
        rw [hline, hd]
        exact hsingle
    | some m =>
        -- two marks, and the second one is no connect
        have horder := h.order
        rw [hline, hd, Option.toList_some, List.singleton_append] at horder
        have hsecond := horder.behind (.connect t.serial) (by rw [hsingle]; simp)
        simp at hsecond

end Pipeline

/-! ### What a slot queues -/

/-- Besides its tasks, a slot only touches the window and the timers. -/
theorem slot_eq (t : Threads) (f : Slot) : ∃ timers, t.slot f
    = (outcome f t.widget).2.foldl perform
        { t with widget := (f t.widget).1, timers := timers } := by
  have hfoldl : ∀ (effects : List Effect) (t : Threads) (timers : List Nat), ∃ timers',
      effects.foldl perform { t with timers := timers }
        = (effects.filter Effect.isTask).foldl perform { t with timers := timers' } := by
    intro effects
    induction effects with
    | nil => exact fun _ timers => ⟨timers, rfl⟩
    | cons effect effects ih =>
        intro t timers
        cases effect with
        | requestConnect request => exact ih (t.perform (.requestConnect request)) timers
        | disconnectFromHost => exact ih (t.perform .disconnectFromHost) timers
        | singleShot => exact ih t (timers ++ [t.serial])
        | _ => exact ih t timers
  exact hfoldl (f t.widget).2 { t with widget := (f t.widget).1 } t.timers

/-! ### The flags -/

/-- An error is on its way to the window. -/
def Trouble (t : Threads) : Prop := ∃ error, .incoming error ∈ t.ui ∨ .requestMessage error ∈ t.ui

/-- A connect has come off, and the window has not been told yet. -/
def Unreported (t : Threads) : Prop :=
  (∃ serial request, t.dialing = some ⟨serial, request, some true⟩) ∨
    ∃ serial request, .connectFinished serial true request ∈ t.ui

/-- What the flags have to do with the rest, by what is under way. -/
structure FlagsAgree (t : Threads) (flags : Flags) : Prop where
  ending : flags.ending = true → flags.active = false
  visible : flags.active = true → flags.visible = true
  inactive : ∀ k, .connect k ∈ t.line → flags.active = false
  connecting : t.line = [.connect t.serial] → flags.connecting = true ∧ flags.ending = false
  reached : t.line = [.connect t.serial] → t.Unreported → t.connected = true ∨ t.Trouble
  quiet : t.line = [] → flags.connecting = false
  worker : t.line = [] → (t.Working ↔ flags.active = true)
  up : t.line = [] → t.connected = true → flags.active = true
  lost : t.line = [] → flags.active = true → t.connected = true ∨ t.Trouble

/-- What is kept up while connects are handed over punctually. -/
structure Inv (t : Threads) : Prop where
  pipeline : Pipeline t
  flags : FlagsAgree t t.widget.flags

theorem Inv.init : Inv {} where
  pipeline := .init
  flags := by
    constructor <;> simp [line, MeetingWidget.flags, Working]

/-- How a slot may leave things. -/
inductive Lands (t : Threads) : Flags × List Effect → Prop
  /-- Nothing is queued, and the flags agree. -/
  | rests {flags : Flags} (hflags : FlagsAgree t flags) : Lands t (flags, [])
  /-- A disconnect is queued, and there is no session. -/
  | ends {flags : Flags} (hactive : flags.active = false) : Lands t (flags, [.disconnectFromHost])
  /-- A connect is queued, and there is nothing else. -/
  | begins {flags : Flags} (request : ConnectRequest) (hline : t.line = [])
      (hconnecting : flags.connecting = true) (hending : flags.ending = false)
      (hactive : flags.active = false) : Lands t (flags, [.requestConnect request])

theorem Pipeline.slot (hp : Pipeline t) {f : Slot} (h : Lands t (outcome f t.widget)) :
    Inv (t.slot f) := by
  obtain ⟨timers, hslot⟩ := t.slot_eq f
  obtain ⟨flags, tasks, houtcome⟩ : ∃ flags tasks, outcome f t.widget = (flags, tasks) :=
    ⟨_, _, rfl⟩
  have hwindow : (f t.widget).1.flags = flags := congrArg Prod.fst houtcome
  rw [hslot, houtcome]
  rw [houtcome] at h
  have hp' := hp.window (f t.widget).1 timers
  cases h with
  | rests hflags =>
      refine ⟨hp', ?_⟩
      show FlagsAgree _ (f t.widget).1.flags
      rw [hwindow]
      exact ⟨hflags.ending, hflags.visible, hflags.inactive, hflags.connecting, hflags.reached,
        hflags.quiet, hflags.worker, hflags.up, hflags.lost⟩
  | ends hactive =>
      refine ⟨hp'.disconnect, ?_⟩
      show FlagsAgree _ (f t.widget).1.flags
      rw [hwindow]
      have hsome : (perform { t with widget := (f t.widget).1, timers := timers }
          .disconnectFromHost).line ≠ [] := by
        rw [Pipeline.line_disconnect]
        simp
      have hmany : (perform { t with widget := (f t.widget).1, timers := timers }
          .disconnectFromHost).line ≠ [.connect t.serial] := by
        rw [Pipeline.line_disconnect]
        intro hsingle
        have hmem : Mark.disconnect t.serial ∈ [Mark.connect t.serial] := by
          rw [← hsingle]
          simp
        simp at hmem
      exact ⟨fun _ => hactive, fun h => by simp [hactive] at h, fun _ _ => hactive,
        fun h => absurd h hmany, fun h => absurd h hmany, fun h => absurd h hsome,
        fun h => absurd h hsome, fun h => absurd h hsome, fun h => absurd h hsome⟩
  | begins request hline hconnecting hending hactive =>
      have hline' : line { t with widget := (f t.widget).1, timers := timers } = [] := hline
      refine ⟨hp'.connect hline' request, ?_⟩
      show FlagsAgree _ (f t.widget).1.flags
      rw [hwindow]
      have hsome : (perform { t with widget := (f t.widget).1, timers := timers }
          (.requestConnect request)).line ≠ [] := by
        rw [Pipeline.line_connect]
        simp
      refine ⟨fun _ => hactive, fun h => by simp [hactive] at h, fun _ _ => hactive,
        fun _ => ⟨hconnecting, hending⟩, ?_, fun h => absurd h hsome, fun h => absurd h hsome,
        fun h => absurd h hsome, fun h => absurd h hsome⟩
      -- the new connect is still in the queue of the controller
      obtain ⟨hui, hrest⟩ := List.append_eq_nil_iff.mp hline
      obtain ⟨-, hrest⟩ := List.append_eq_nil_iff.mp hrest
      obtain ⟨hdialing, -⟩ := List.append_eq_nil_iff.mp hrest
      intro _ hcame
      rcases hcame with ⟨serial, request', hdial⟩ | ⟨serial, request', hin⟩
      · have hdial' : t.dialing = some ⟨serial, request', some true⟩ := hdial
        simp [hdial'] at hdialing
      · exact (Pipeline.no_result hui hin).elim

/-! ### Steps that run no slot -/

theorem Trouble.mono (h : t.Trouble) (hui : ∀ d ∈ t.ui, d ∈ t'.ui) : t'.Trouble := by
  obtain ⟨error, hin | hin⟩ := h
  · exact ⟨error, Or.inl (hui _ hin)⟩
  · exact ⟨error, Or.inr (hui _ hin)⟩

/-- With nothing under way, only an error can come or be passed on. -/
theorem Relayed.idle (hp : Pipeline t) (hr : Relayed t t') (hline : t.line = []) :
    (t'.Working ↔ t.Working) ∧ (t'.connected = true → t.connected = true) ∧
      (t.connected = true ∨ t.Trouble → t'.connected = true ∨ t'.Trouble) := by
  cases hr with
  | dial serial request rest hidle hcontroller => simp [line, hcontroller] at hline
  | hangUp serial rest hidle hcontroller => simp [line, hcontroller] at hline
  | reached serial request hdialing => simp [line, hdialing] at hline
  | failed serial request hdialing => simp [line, hdialing] at hline
  | connectOnIo ok errors rest hio =>
      obtain ⟨dial, hdialing⟩ := hp.dialing_of_io hio
      simp [line, hdialing] at hline
  | disconnectOnIo serial rest hio => simp [line, hio, IoTask.mark] at hline
  | socketError error hconnected =>
      exact ⟨Iff.rfl, fun h => by simp at h, fun _ => Or.inr ⟨error, Or.inl (by simp)⟩⟩
  | disconnected serial rest hui => simp [line, hui, Delivery.mark] at hline
  | incoming error rest hui =>
      exact ⟨Iff.rfl, id, fun _ => Or.inr ⟨error, Or.inr (by simp)⟩⟩

/-- A connect that has come off is still there, or an error says that it is not. -/
theorem Relayed.unreported (hp : Pipeline t) (hr : Relayed t t')
    (hline : t.line = [.connect t.serial])
    (h : t.Unreported → t.connected = true ∨ t.Trouble) (hafter : t'.Unreported) :
    t'.connected = true ∨ t'.Trouble := by
  have hno : ∀ k, .disconnect k ∉ t.line := fun k hk => Pipeline.not_single hk hline
  cases hr with
  | dial serial request rest hidle hcontroller =>
      refine h (Or.inr ?_)
      rcases hafter with ⟨k, request', hdial⟩ | hin
      · simp at hdial
      · exact hin
  | hangUp serial rest hidle hcontroller =>
      exact absurd (by simp [line, hcontroller, Task.mark]) (hno serial)
  | reached serial request hdialing =>
      rcases h (Or.inl ⟨serial, request, hdialing⟩) with hconnected | htrouble
      · exact Or.inl hconnected
      · exact Or.inr (htrouble.mono fun d hd => List.mem_append_left _ hd)
  | failed serial request hdialing =>
      have hbefore : t.Unreported := by
        rcases hafter with ⟨k, request', hdial⟩ | ⟨k, request', hin⟩
        · simp at hdial
        · exact Or.inr ⟨k, request', by simpa using hin⟩
      rcases h hbefore with hconnected | htrouble
      · exact Or.inl hconnected
      · exact Or.inr (htrouble.mono fun d hd => List.mem_append_left _ hd)
  | connectOnIo ok errors rest hio =>
      obtain ⟨dial, hdialing⟩ := hp.dialing_of_io hio
      rcases hafter with ⟨k, request', hdial⟩ | ⟨k, request', hin⟩
      · simp only [hdialing, Option.map_some, Option.some.injEq, Dial.mk.injEq] at hdial
        exact Or.inl hdial.2.2
      · exact (Pipeline.no_result (hp.front_of_dialing hdialing).1 (by simpa using hin)).elim
  | disconnectOnIo serial rest hio =>
      exact absurd (by simp [line, hio, IoTask.mark]) (hno serial)
  | socketError error hconnected => exact Or.inr ⟨error, Or.inl (by simp)⟩
  | disconnected serial rest hui =>
      exact absurd (by simp [line, hui, Delivery.mark]) (hno serial)
  | incoming error rest hui => exact Or.inr ⟨error, Or.inr (by simp)⟩

theorem Inv.relay (h : Inv t) (hr : Relayed t t') : Inv t' := by
  obtain ⟨hwidget, -, hserial, hline⟩ := hr.spec
  obtain ⟨hpipeline, hflags⟩ := h
  have hnil : t'.line = [] → t.line = [] := fun hnil => by
    rw [hnil] at hline
    exact hline.symm.eq_nil
  have hsingle : t'.line = [.connect t'.serial] → t.line = [.connect t.serial] := fun hsingle => by
    rw [hsingle, hserial] at hline
    exact List.perm_singleton.mp hline.symm
  refine ⟨hpipeline.relay hr, ?_⟩
  rw [hwidget]
  refine ⟨hflags.ending, hflags.visible, fun k hk => hflags.inactive k (hline.mem_iff.mp hk),
    fun hone => hflags.connecting (hsingle hone), ?_, fun hno => hflags.quiet (hnil hno),
    ?_, ?_, ?_⟩
  · intro hone hreached
    exact hr.unreported hpipeline (hsingle hone) (hflags.reached (hsingle hone)) hreached
  · intro hno
    rw [(hr.idle hpipeline (hnil hno)).1]
    exact hflags.worker (hnil hno)
  · intro hno hconnected
    exact hflags.up (hnil hno) ((hr.idle hpipeline (hnil hno)).2.1 hconnected)
  · intro hno hactive
    exact (hr.idle hpipeline (hnil hno)).2.2 (hflags.lost (hnil hno) hactive)

/-! ### Steps that run a slot -/

/-- No disconnect is under way. -/
def NoDisconnect (t : Threads) : Prop := ∀ m ∈ t.line, m.isConnect = true

instance (t : Threads) : Decidable t.NoDisconnect :=
  inferInstanceAs (Decidable (∀ m ∈ t.line, m.isConnect = true))

/-- A slot hands a connect over only when no disconnect is under way. -/
def Prompt (t : Threads) (f : Slot) : Prop :=
  ∀ request, .requestConnect request ∈ (outcome f t.widget).2 → t.NoDisconnect

/-- Without a session, nothing but `connecting` and `ending` matters. -/
theorem FlagsAgree.of_inactive {flags flags' : Flags} (h : FlagsAgree t flags)
    (hactive : flags.active = false) (hactive' : flags'.active = false)
    (hconnecting : flags'.connecting = flags.connecting) (hending : flags'.ending = flags.ending) :
    FlagsAgree t flags' where
  ending _ := hactive'
  visible hin := by simp [hactive'] at hin
  inactive _ _ := hactive'
  connecting hone := by
    rw [hconnecting, hending]
    exact h.connecting hone
  reached := h.reached
  quiet hno := by
    rw [hconnecting]
    exact h.quiet hno
  worker hno := by
    rw [hactive', ← hactive]
    exact h.worker hno
  up hno hconnected := by
    rw [hactive', ← hactive]
    exact h.up hno hconnected
  lost hno hin := by simp [hactive'] at hin

/-- With the connect of the line excluded, the line is empty. -/
theorem Pipeline.line_eq_nil (hp : Pipeline t) (hno : t.NoDisconnect)
    (hone : t.line ≠ [.connect t.serial]) : t.line = [] :=
  (hp.order.eq_nil_or_single hno).resolve_right hone

/-- Ending the session either queues a disconnect, or there was none and no connect either. -/
theorem lands_endMeetingSession {w : MeetingWidget}
    (hone : t.line = [.connect t.serial] → w.flags.connecting = true)
    (hworker : t.line = [] → (t.Working ↔ w.flags.active = true))
    (hup : t.line = [] → t.connected = true → w.flags.active = true) :
    Lands t (outcome endMeetingSession w) := by
  rw [outcome_endMeetingSession]
  split
  · exact .ends rfl
  · rename_i hlive
    simp only [Bool.or_eq_true, not_or, Bool.not_eq_true] at hlive
    obtain ⟨hinactive, hidle⟩ := hlive
    have hnot : t.line ≠ [.connect t.serial] := fun h => by
      have hconnecting := hone h
      simp [hidle] at hconnecting
    refine .rests ⟨fun _ => hinactive, fun hin => ?_, fun _ _ => hinactive,
      fun h => absurd h hnot, fun h => absurd h hnot, fun _ => rfl, hworker, hup,
      fun _ hin => ?_⟩
    · simp [hinactive] at hin
    · simp [hinactive] at hin

theorem Inv.lands_buttonClicked (h : Inv t) (request : ConnectRequest)
    (hprompt : Prompt t (buttonClicked request)) :
    Lands t (outcome (buttonClicked request) t.widget) := by
  unfold Prompt at hprompt
  rw [outcome_buttonClicked] at hprompt ⊢
  split_ifs at hprompt ⊢ with hvisible
  · exact .rests h.flags
  · have hactive : t.widget.flags.active = false := by
      by_contra hactive
      exact hvisible (h.flags.visible (by simpa using hactive))
    rw [outcome_requestConnectToServer] at hprompt ⊢
    split_ifs at hprompt ⊢ with hconnecting hending
    · exact .rests (h.flags.of_inactive hactive hactive rfl rfl)
    · exact .rests (h.flags.of_inactive hactive hactive rfl rfl)
    · have hone : t.line ≠ [.connect t.serial] := fun hone =>
        hconnecting (h.flags.connecting hone).1
      exact .begins request
        (h.pipeline.line_eq_nil (hprompt request (List.mem_singleton.mpr rfl)) hone) rfl
        (by simpa using hending) hactive

theorem Inv.lands_closeEvent (h : Inv t) : Lands t (outcome closeEvent t.widget) := by
  rw [outcome_closeEvent]
  split
  · rename_i hending
    have hactive := h.flags.ending hending
    exact .rests (h.flags.of_inactive hactive hactive rfl rfl)
  · exact lands_endMeetingSession (fun hone => (h.flags.connecting hone).1) h.flags.worker
      h.flags.up

/-- After the flags have been reset, there is nothing for them to say. -/
theorem Pipeline.lands_onNetworkDisconnected (hp : Pipeline t) {w : MeetingWidget}
    (hone : t.line ≠ [.connect t.serial])
    (hdown : t.line = [] → ¬ t.Working ∧ t.connected = false)
    (hprompt : ∀ request, .requestConnect request ∈ (outcome onNetworkDisconnected w).2 →
      t.NoDisconnect) : Lands t (outcome onNetworkDisconnected w) := by
  rw [outcome_onNetworkDisconnected] at hprompt ⊢
  cases hpending : w.flags.pending with
  | none =>
      refine .rests ⟨fun _ => rfl, fun hin => ?_, fun _ _ => rfl, fun hin => absurd hin hone,
        fun hin => absurd hin hone, fun _ => rfl, fun hno => ?_, fun hno hup => ?_,
        fun _ hin => ?_⟩
      · simp at hin
      · exact iff_of_false (hdown hno).1 (by simp)
      · rw [(hdown hno).2] at hup
        simp at hup
      · simp at hin
  | some request =>
      have hno := hprompt request (by rw [hpending]; exact List.mem_singleton.mpr rfl)
      exact .begins request (hp.line_eq_nil hno hone) rfl rfl rfl

theorem Inv.lands_timeout (h : Inv t) (hprompt : Prompt t MeetingWidget.timeout) :
    Lands t (outcome MeetingWidget.timeout t.widget) := by
  unfold Prompt at hprompt
  rw [outcome_timeout] at hprompt ⊢
  split_ifs at hprompt ⊢ with hending
  · have hactive := h.flags.ending hending
    refine h.pipeline.lands_onNetworkDisconnected (fun hone => ?_) (fun hno => ⟨?_, ?_⟩) hprompt
    · have hnot := (h.flags.connecting hone).2
      simp [hending] at hnot
    · rw [h.flags.worker hno, hactive]
      simp
    · by_contra hup
      have hin := h.flags.up hno (by simpa using hup)
      simp [hactive] at hin
  · exact .rests h.flags

theorem Inv.lands_requestMessage (h : Inv t) {error : NetError} {rest : List Delivery}
    (hui : t.ui = .requestMessage error :: rest) :
    Lands { t with ui := rest } (outcome error.slot t.widget) := by
  have hline : line { t with ui := rest } = t.line := by
    simp [line, hui, List.filterMap_cons, Delivery.mark]
  rw [outcome_netError]
  split
  · rename_i hending
    have hactive := h.flags.ending hending
    have hnot : line { t with ui := rest } ≠ [.connect t.serial] := fun hone => by
      have hno := (h.flags.connecting (hline ▸ hone)).2
      simp [hending] at hno
    refine .rests ⟨fun _ => hactive, h.flags.visible, fun _ _ => hactive,
      fun hone => absurd hone hnot, fun hone => absurd hone hnot, fun hno => ?_, fun hno => ?_,
      fun hno hup => ?_, fun _ hin => ?_⟩
    · exact h.flags.quiet (hline ▸ hno)
    · exact h.flags.worker (hline ▸ hno)
    · exact h.flags.up (hline ▸ hno) hup
    · simp [hactive] at hin
  · exact lands_endMeetingSession (fun hone => (h.flags.connecting (hline ▸ hone)).1)
      (fun hno => h.flags.worker (hline ▸ hno)) fun hno => h.flags.up (hline ▸ hno)

theorem Inv.lands_networkDisconnected (h : Inv t) {serial : Nat} {rest : List Delivery}
    (hui : t.ui = .networkDisconnected serial :: rest)
    (hprompt : Prompt { t with ui := rest } onNetworkDisconnected) :
    Lands { t with ui := rest } (outcome onNetworkDisconnected t.widget) := by
  have hline : t.line = .disconnect serial :: line { t with ui := rest } := by
    simp [line, hui, Delivery.mark]
  have hmark : Mark.disconnect serial ∈ t.ui.filterMap Delivery.mark := by
    simp [hui, Delivery.mark]
  refine (h.pipeline.deliver hui).lands_onNetworkDisconnected (fun hone => ?_) (fun _ => ?_) hprompt
  · -- behind a disconnect there is no connect
    have horder := h.pipeline.order
    rw [hline] at horder
    have hsecond := horder.behind (.connect t.serial) (by rw [hone]; simp)
    simp at hsecond
  · exact ⟨h.pipeline.stopped serial (List.mem_append_left _ hmark), h.pipeline.down serial hmark⟩

theorem Inv.lands_connectFinished (h : Inv t) {serial : Nat} {ok : Bool}
    {request : ConnectRequest} {rest : List Delivery}
    (hui : t.ui = .connectFinished serial ok request :: rest) :
    Lands { t with ui := rest } (outcome (onConnectFinished ok request) t.widget) := by
  have hline : t.line = .connect serial :: line { t with ui := rest } := by
    simp [line, hui, Delivery.mark]
  have horder := h.pipeline.order
  rw [hline] at horder
  have hinactive : t.widget.flags.active = false := h.flags.inactive serial (by simp [hline])
  obtain rfl : serial = t.serial := by simpa using horder.1 _ (List.mem_cons_self ..)
  -- the connect was the only one
  have hnone : ∀ k, Mark.connect k ∉ line { t with ui := rest } := fun k hk => by
    simpa using horder.behind _ hk
  have hnot : line { t with ui := rest } ≠ [.connect t.serial] := fun hone =>
    hnone t.serial (by simp [hone])
  rw [outcome_onConnectFinished]
  split_ifs with hok hdiscard
  · exact .ends rfl
  · subst hok
    simp only [Bool.or_eq_true, not_or, Bool.not_eq_true, Bool.not_eq_false'] at hdiscard
    refine .rests ⟨fun hin => ?_, fun _ => hdiscard.1.2, fun k hk => absurd hk (hnone k),
      fun hone => absurd hone hnot, fun hone => absurd hone hnot, fun _ => rfl, fun hno => ?_,
      fun _ _ => rfl, fun hno _ => ?_⟩
    · simp at hin
    · rw [hno] at hline
      have hworking : t.Working :=
        h.pipeline.finished hline t.serial request (by simp [hui])
      exact iff_of_true hworking rfl
    · rw [hno] at hline
      rcases h.flags.reached hline (Or.inr ⟨t.serial, request, by simp [hui]⟩) with hup | htrouble
      · exact Or.inl hup
      · obtain ⟨error, hin⟩ := htrouble
        exact Or.inr ⟨error, by simpa [hui] using hin⟩
  · obtain rfl : ok = false := by simpa using hok
    have hrefused := h.pipeline.refused t.serial request (by simp [hui])
    refine .rests ⟨fun _ => hinactive, fun hin => ?_, fun _ _ => hinactive,
      fun hone => absurd hone hnot, fun hone => absurd hone hnot, fun _ => rfl, fun _ => ?_,
      fun _ hup => ?_, fun _ hin => ?_⟩
    · simp [hinactive] at hin
    · exact iff_of_false hrefused.1 (by simp [hinactive])
    · have hdown : t.connected = true := hup
      simp [hrefused.2] at hdown
    · simp [hinactive] at hin

/-- A step that runs a slot keeps everything as it should be, if it hands nothing over early. -/
theorem Inv.take (h : Inv t) {e : Event} {f : Slot} (ht : Taken t e t' f)
    (hprompt : Prompt t' f) : Inv (t'.slot f) := by
  cases ht with
  | click request => exact h.pipeline.slot (h.lands_buttonClicked request hprompt)
  | close => exact h.pipeline.slot h.lands_closeEvent
  | connectFinished serial ok request rest hui =>
      exact (h.pipeline.deliver hui).slot (h.lands_connectFinished hui)
  | networkDisconnected serial rest hui =>
      exact (h.pipeline.deliver hui).slot (h.lands_networkDisconnected hui hprompt)
  | requestMessage error rest hui =>
      exact (h.pipeline.deliver hui).slot (h.lands_requestMessage hui)
  | timer serial hmem =>
      have hless : Inv { t with timers := t.timers.erase serial } :=
        ⟨h.pipeline.window t.widget _, ⟨h.flags.ending, h.flags.visible, h.flags.inactive,
          h.flags.connecting, h.flags.reached, h.flags.quiet, h.flags.worker, h.flags.up,
          h.flags.lost⟩⟩
      exact hless.pipeline.slot (hless.lands_timeout hprompt)

/-! ### Punctual runs -/

/-- The timer that expires in the event. -/
def Event.expires : Event → Option Nat
  | .timer serial => some serial
  | _ => none

/-- The effect hands a connect over. -/
def isRequest : Effect → Bool
  | .requestConnect _ => true
  | _ => false

/-- A connect is handed over only when no disconnect is under way, and no timer of an earlier
connection expires while a session is ending. -/
def Punctual (t : Threads) (e : Event) : Prop :=
  (∀ p ∈ t.intake e, (p.2 p.1.widget).2.any isRequest = true → p.1.NoDisconnect) ∧
  ∀ serial ∈ e.expires, serial ≠ t.serial → t.widget.sessionEnding = false

instance (t : Threads) (e : Event) : Decidable (Punctual t e) :=
  inferInstanceAs (Decidable (_ ∧ _))

theorem Inv.step (h : Inv t) {e : Event} (hpunctual : Punctual t e) (hstep : t.step e = some t') :
    Inv t' := by
  rw [Threads.step] at hstep
  split at hstep
  · rename_i t₀ f hintake
    obtain rfl := Option.some.inj hstep
    apply h.take (taken hintake)
    intro request hrequest
    exact hpunctual.1 (t₀, f) hintake
      (List.any_eq_true.mpr ⟨_, (List.mem_filter.mp hrequest).1, rfl⟩)
  · exact h.relay (relayed hstep)

/-- Nothing is under way. -/
def AtRest (t : Threads) : Prop :=
  t.controller = [] ∧ t.dialing = none ∧ t.io = [] ∧ t.ui = [] ∧ t.timers = []

instance (t : Threads) : Decidable t.AtRest := inferInstanceAs (Decidable (_ ∧ _))

/-- The flags say what is the case. -/
structure Agrees (t : Threads) : Prop where
  connecting : t.widget.connecting = false
  active : t.widget.sessionActive = true ↔ t.connected = true
  worker : t.Working ↔ t.connected = true

theorem Inv.agrees (h : Inv t) (hrest : t.AtRest) : t.Agrees := by
  obtain ⟨hcontroller, hdialing, hio, hui, -⟩ := hrest
  have hline : t.line = [] := by simp [line, hcontroller, hdialing, hio, hui]
  have hcalm : ¬ t.Trouble := by
    intro htrouble
    obtain ⟨error, hin | hin⟩ := htrouble <;> simp [hui] at hin
  have hactive : t.widget.sessionActive = true ↔ t.connected = true :=
    ⟨fun hin => (h.flags.lost hline hin).resolve_right hcalm, h.flags.up hline⟩
  exact ⟨h.flags.quiet hline, hactive, (h.flags.worker hline).trans hactive⟩

/-- The event delivers something that belongs to an earlier connection. -/
def Stale (t : Threads) : Event → Prop
  | .ui => ∃ m ∈ t.ui.head?.bind Delivery.mark, m.serial ≠ t.serial
  | .timer serial => serial ≠ t.serial
  | _ => False

/-- Only a timer can be stale, and then it changes nothing. -/
theorem Inv.stale (h : Inv t) {e : Event} (hpunctual : Punctual t e) (hstale : Stale t e)
    (hstep : t.step e = some t') : t' = { t with timers := t'.timers } := by
  cases e with
  | ui =>
      obtain ⟨m, hm, hserial⟩ := hstale
      obtain ⟨d, hd, hmark⟩ := Option.bind_eq_some_iff.mp hm
      have hmem : m ∈ t.line := by
        refine List.mem_append_left _ (List.mem_filterMap.mpr ⟨d, ?_, hmark⟩)
        exact List.mem_of_mem_head? hd
      rcases h.pipeline.order.1 m hmem with rfl | rfl
      · exact absurd rfl hserial
      · exact absurd rfl hserial
  | timer serial =>
      have hending := hpunctual.2 serial rfl hstale
      have htimeout : MeetingWidget.timeout t.widget = (t.widget, []) := by
        simp [MeetingWidget.timeout, hending]
      simp only [Threads.step, intake] at hstep
      split at hstep
      · rename_i t₀ f hintake
        obtain ⟨-, hintake⟩ := Option.ite_none_right_eq_some.mp hintake
        simp only [Option.some.injEq, Prod.mk.injEq] at hintake
        obtain ⟨rfl, rfl⟩ := hintake
        simp only [Threads.slot, htimeout, List.foldl_nil, Option.some.injEq] at hstep
        rw [← hstep]
      · simp [Threads.relay] at hstep
  | _ => exact hstale.elim

/-- **While connects are handed over punctually, the flags say what is the case** whenever nothing
is under way, and whatever belongs to an earlier connection changes nothing. -/
theorem flagsSettled {es : List Event} (h : Run.Steps step Punctual {} es) :
    Run.Throughout step (fun t => t.AtRest → t.Agrees) {} es ∧
    Run.Steps step (fun t e => ∀ t', t.step e = some t' → Stale t e →
      t' = { t with timers := t'.timers }) {} es := by
  have hstep : ∀ t e t', Inv t → Punctual t e → step t e = some t' → Inv t' :=
    fun t e t' ht hpunctual he => ht.step hpunctual he
  constructor
  · exact (Run.throughout_of_step hstep .init h).mono fun t ht hrest => ht.agrees hrest
  · exact Run.Steps.mono_of_invariant hstep
      (fun t e ht hpunctual t' he hstale => ht.stale hpunctual hstale he) .init h

/-- A meeting, an end to it, and another meeting before the timer of the first expires. -/
def sampleDay : List Event :=
  [.click Session.sampleRequest, .controller, .io true none, .controller, .ui,
    .close, .controller, .io true none, .ui, .ui,
    .click Session.sampleRequest, .controller, .timer 1, .io true none, .controller, .ui]

theorem flagsSettled_sampleDay :
    Run.Throughout step (fun t => t.AtRest → t.Agrees) {} sampleDay ∧
    Run.Steps step (fun t e => ∀ t', t.step e = some t' → Stale t e →
      t' = { t with timers := t'.timers }) {} sampleDay :=
  flagsSettled (by decide)

/-! ### A notification that comes too late -/

/-- The window is closed while the first connect is slow, and opened again.  The timer hands the
second connect over before the first has come to an end. -/
def overtaken : List Event :=
  [.click Session.sampleRequest, .controller, .close, .click Session.sampleRequest, .timer 1,
    .io true none, .controller, .controller, .ui,
    .io true none, .controller, .io true none, .controller, .ui, .ui, .ui]

/-- The timer of the first session is still armed when the second one is ended. -/
def twoSessions : List Event :=
  [.click Session.sampleRequest, .controller, .io true none, .controller, .ui,
    .close, .controller, .io true none, .ui, .ui,
    .click Session.sampleRequest, .controller, .io true none, .controller, .ui, .close]

/-- The notification of the first connection switches off the second one, which stays connected;
and the timer of an earlier session resets the flag of a later one. -/
theorem unsettled :
    (∃ t, Run.run step {} overtaken = some t ∧ t.AtRest ∧ t.widget.sessionActive = false ∧
      t.connected = true ∧ ¬ t.Working) ∧
    ¬ Run.Throughout step (fun t => t.AtRest → t.Agrees) {} overtaken ∧
    ∃ t t', Run.run step {} twoSessions = some t ∧ Stale t (.timer 1) ∧
      t.step (.timer 1) = some t' ∧ t.widget.sessionEnding = true ∧
      t'.widget.sessionEnding = false := by
  have hovertaken : (Run.run step {} overtaken).map (fun t => (decide t.AtRest,
      t.widget.sessionActive, t.connected, t.sendRunning)) = some (true, false, true, false) := by
    decide
  obtain ⟨t, ht, hfields⟩ := Option.map_eq_some_iff.mp hovertaken
  simp only [Prod.mk.injEq] at hfields
  obtain ⟨hrest, hactive, hconnected, hrunning⟩ := hfields
  have hrest : t.AtRest := of_decide_eq_true hrest
  refine ⟨⟨t, ht, hrest, hactive, hconnected, not_working hrunning⟩, fun hall => ?_, ?_⟩
  · have hagrees := (hall.last ht hrest).active.mpr hconnected
    simp [hactive] at hagrees
  · have hbefore : (Run.run step {} twoSessions).map (fun t => (t.serial, t.widget.sessionEnding))
        = some (2, true) := by decide
    have hafter : ((Run.run step {} twoSessions).bind fun t => t.step (.timer 1)).map
        (fun t => t.widget.sessionEnding) = some false := by decide
    obtain ⟨t, ht, hserial⟩ := Option.map_eq_some_iff.mp hbefore
    rw [ht, Option.bind_some] at hafter
    obtain ⟨t', ht', hending⟩ := Option.map_eq_some_iff.mp hafter
    obtain ⟨hserial, hbefore⟩ := Prod.mk.inj hserial
    refine ⟨t, t', ht, ?_, ht', hbefore, hending⟩
    show 1 ≠ t.serial
    omega

end Threads

end CloudMeeting.Client
