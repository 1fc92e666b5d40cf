/-
The chat list of the meeting window.

A text of the user's own goes into the list with a sign that it is still being sent.  Once
the hub has forwarded it the window is told so, but not which text it was, and
`on_text_send_slot` takes the sign off the last row.  By then that row may be a text that
came in meanwhile, a later text of the user's own, or, after the list has been cleared, no
row at all.

`MarksOldest` is what a notification should do: mark the oldest row of the user's own that
is not marked yet.  `marksOldest_iff` says when all of them do: each has to come while
the row of its text is the last one, and no other text may be waiting.
-/
import Mathlib.Algebra.Order.Group.Nat
import Mathlib.Data.List.Chain
import CloudMeeting.Lib.Run

namespace CloudMeeting.Client

open Run

/-! ### The list -/

/-- `ChatMessage::User_Type`. -/
inductive UserType where
  | system
  | me
  | she
  | time
deriving DecidableEq, Repr

/-- A row of the list. -/
structure ChatMessage where
  msg : List Char
  /-- Seconds since the epoch. -/
  time : Nat
  ip : Option UInt32 := none
  userType : UserType := .time
  /-- The text has been sent. -/
  isSending : Bool := false
deriving DecidableEq, Repr

def ChatMessage.setTextSuccess (m : ChatMessage) : ChatMessage := { m with isSending := true }

/-- A row of the user's own that has not been marked yet. -/
def ChatMessage.unsent (m : ChatMessage) : Bool := m.userType = .me ∧ m.isSending = false

structure Chat where
  listWidget : List ChatMessage := []
  /-- The send button can be clicked. -/
  sendmsg : Bool := false
  /-- A missing row has been used. -/
  crashed : Bool := false
  /-- The notifications still to come. -/
  underway : Nat := 0
  /-- How many more texts have been sent than notifications have come, since the list was last
  cleared. -/
  waiting : Nat := 0
  /-- What the list was last added to with is a text of the user's own. -/
  own : Bool := false
deriving DecidableEq, Repr

inductive ChatEvent where
  /-- A click on the send button, with this text in the editor. -/
  | sendMsgClicked (plainText : List Char) (time : Nat) (localIp : UInt32)
  | textRecv (text : List Char) (time : Nat) (ip : UInt32)
  | resetMeetingUi
  /-- A notification that a text has been forwarded. -/
  | textSent
  /-- Another slot switches the send button on or off. -/
  | setDisabled (disabled : Bool)
deriving DecidableEq, Repr

/-- `QString::trimmed`. -/
def trimmed (isSpace : Char → Bool) (text : List Char) : List Char :=
  ((text.dropWhile isSpace).reverse.dropWhile isSpace).reverse

/-- A number of seconds, written out and read back with `toInt`. -/
def secondsOf (time : Nat) : Int := if time < 2 ^ 31 then time else 0

namespace Chat

def addRow (chat : Chat) (row : ChatMessage) : Chat :=
  { chat with listWidget := chat.listWidget ++ [row] }

/-- The text and the time of a separator are the same. -/
def timeRow (time : Nat) : ChatMessage := { msg := (toString time).toList, time := time }

def dealMessageTime (chat : Chat) (curMsgTime : Nat) : Chat :=
  let isShowTime :=
    match chat.listWidget.getLast? with
    | some last => decide (secondsOf curMsgTime - secondsOf last.time > 60)
    | none => true
  if isShowTime then chat.addRow (timeRow curMsgTime) else chat

def dealMessage (chat : Chat) (text : List Char) (time : Nat) (ip : UInt32) (type : UserType) :
    Chat :=
  chat.addRow { msg := text, time := time, ip := some ip, userType := type }

def onSendMsgClicked (isSpace : Char → Bool) (chat : Chat) (plainText : List Char) (time : Nat)
    (localIp : UInt32) : Chat :=
  let msg := trimmed isSpace plainText
  if msg = [] then chat
  else
    let chat := (chat.dealMessageTime time).dealMessage msg time localIp .me
    { chat with sendmsg := false, underway := chat.underway + 1,
                waiting := chat.waiting + 1, own := true }

def handleTextRecv (chat : Chat) (text : List Char) (time : Nat) (ip : UInt32) : Chat :=
  { (chat.dealMessageTime time).dealMessage text time ip .she with own := false }

def resetMeetingUi (chat : Chat) : Chat :=
  { chat with listWidget := [], sendmsg := false, waiting := 0, own := false }

/-- Whichever row is the last is taken for the one that was sent. -/
def onTextSend (chat : Chat) : Chat :=
  match chat.listWidget.getLast? with
  | none => { chat with crashed := true }
  | some _ =>
      { chat with
        listWidget := chat.listWidget.modify (chat.listWidget.length - 1) ChatMessage.setTextSuccess
        sendmsg := true }

variable (isSpace : Char → Bool)

def step (chat : Chat) (e : ChatEvent) : Option Chat :=
  if chat.crashed then none
  else
    match e with
    | .sendMsgClicked plainText time localIp =>
        if chat.sendmsg then some (onSendMsgClicked isSpace chat plainText time localIp) else none
    | .textRecv text time ip => some (handleTextRecv chat text time ip)
    | .resetMeetingUi => some (resetMeetingUi chat)
    | .textSent =>
        if 0 < chat.underway then
          some { chat.onTextSend with underway := chat.underway - 1, waiting := chat.waiting - 1 }
        else none
    | .setDisabled disabled => some { chat with sendmsg := !disabled }

/-- A notification marks the oldest row of the user's own that is not marked yet, and does
nothing else to the list. -/
def MarksOldest (chat : Chat) : ChatEvent → Prop
  | .textSent => ∃ i, chat.listWidget.findIdx? ChatMessage.unsent = some i ∧
      chat.onTextSend.crashed = false ∧
      chat.onTextSend.listWidget = chat.listWidget.modify i ChatMessage.setTextSuccess
  | _ => True

/-- A notification comes while the text last added to the list is of the user's own, and there
is one text whose notification has not come. -/
def InTime (chat : Chat) : ChatEvent → Prop
  | .textSent => chat.own = true ∧ chat.waiting = 1
  | _ => True

instance (chat : Chat) : ∀ e, Decidable (InTime chat e)
  | .textSent => inferInstanceAs (Decidable (_ ∧ _))
  | .sendMsgClicked _ _ _ => .isTrue trivial
  | .textRecv _ _ _ => .isTrue trivial
  | .resetMeetingUi => .isTrue trivial
  | .setDisabled _ => .isTrue trivial

variable {isSpace}

/-! ### Which row a notification marks -/

theorem modify_concat {α : Type} (f : α → α) (front : List α) (last : α) :
    (front ++ [last]).modify front.length f = front ++ [f last] := by
  induction front with
  | nil => rfl
  | cons a front ih =>
      rw [List.cons_append, List.length_cons, List.modify_succ_cons, ih]
      rfl

theorem onTextSend_concat {chat : Chat} {front : List ChatMessage} {last : ChatMessage}
    (hrows : chat.listWidget = front ++ [last]) : chat.onTextSend
      = { chat with listWidget := front ++ [last.setTextSuccess], sendmsg := true } := by
  have hlast : chat.listWidget.getLast? = some last := by rw [hrows, List.getLast?_concat]
  have hlength : chat.listWidget.length - 1 = front.length := by rw [hrows]; simp
  rw [onTextSend, hlast]
  simp only []
  rw [hlength, hrows, modify_concat]

/-- A row that is unmarked changes when it is marked. -/
theorem setTextSuccess_ne {m : ChatMessage} (h : m.unsent = true) : m.setTextSuccess ≠ m := by
  intro heq
  have hsent : m.isSending = true := by rw [← heq]; rfl
  simp [ChatMessage.unsent, hsent] at h

theorem unsent_setTextSuccess (m : ChatMessage) : m.setTextSuccess.unsent = false := by
  simp [ChatMessage.unsent, ChatMessage.setTextSuccess]

/-- The oldest unmarked row is the last one when that is unmarked and nothing before it is. -/
theorem marksOldest_textSent {chat : Chat} (hup : chat.crashed = false) :
    MarksOldest chat .textSent ↔
      ∃ front last, chat.listWidget = front ++ [last] ∧ last.unsent = true ∧
        front.countP ChatMessage.unsent = 0 := by
  constructor
  · rintro ⟨i, hfind, -, hmarked⟩
    obtain ⟨hi, hunsent, hbefore⟩ := List.findIdx?_eq_some_iff_getElem.mp hfind
    rcases List.eq_nil_or_concat chat.listWidget with hnil | ⟨front, last, hrows⟩
    · rw [hnil] at hi
      exact absurd hi (Nat.not_lt_zero i)
    rw [List.concat_eq_append] at hrows
    rw [onTextSend_concat hrows] at hmarked
    have hlast : i = front.length := by
      by_contra hne
      have hlt : i < front.length := by
        rw [hrows, List.length_append, List.length_singleton] at hi
        omega
      have hat := congrArg (fun rows : List ChatMessage => rows[i]?) hmarked
      have hback : (front ++ [last])[i]? = front[i]? := List.getElem?_append_left hlt
      simp only [] at hat
      rw [List.getElem?_modify_eq, List.getElem?_append_left hlt, ← hback, ← hrows,
        List.getElem?_eq_getElem hi] at hat
      exact setTextSuccess_ne hunsent (Option.some.inj hat).symm
    subst hlast
    refine ⟨front, last, hrows, ?_, ?_⟩
    · simpa [hrows] using hunsent
    · rw [List.countP_eq_zero]
      intro m hm
      obtain ⟨j, hj, rfl⟩ := List.getElem_of_mem hm
      have hnot := hbefore j hj
      simpa [hrows, hj] using hnot
  · rintro ⟨front, last, hrows, hunsent, hbefore⟩
    refine ⟨front.length, ?_, ?_, ?_⟩
    · have hnone : front.findIdx? ChatMessage.unsent = none := by
        rw [List.findIdx?_eq_none_iff]
        simpa [List.countP_eq_zero] using hbefore
      rw [hrows, List.findIdx?_append, hnone]
      simp [hunsent]
    · rw [onTextSend_concat hrows]
      exact hup
    · rw [onTextSend_concat hrows, hrows, modify_concat]

/-! ### What has been counted -/

/-- The rows agree with what has been counted, while every notification has marked the row it
should. -/
structure Tallied (chat : Chat) : Prop where
  up : chat.crashed = false
  unsent : chat.listWidget.countP ChatMessage.unsent = chat.waiting
  own : chat.own = true ↔ ∃ last, chat.listWidget.getLast? = some last ∧ last.userType = .me
  fresh : chat.own = true → 0 < chat.waiting →
    ∃ last, chat.listWidget.getLast? = some last ∧ last.unsent = true

namespace Tallied

variable {chat : Chat}

theorem init : Tallied {} where
  up := rfl
  unsent := rfl
  own := by simp
  fresh := by simp

/-- Where the rows agree with the counts, the counts say what a notification does. -/
theorem marks_iff_inTime (h : Tallied chat) (e : ChatEvent) :
    MarksOldest chat e ↔ InTime chat e := by
  cases e with
  | textSent =>
      rw [marksOldest_textSent h.up]
      constructor
      · rintro ⟨front, last, hrows, hunsent, hbefore⟩
        have hme : last.userType = .me := (by simpa [ChatMessage.unsent] using hunsent : _ ∧ _).1
        have hcount := h.unsent
        rw [hrows, List.countP_append, hbefore, List.countP_singleton, if_pos hunsent] at hcount
        exact ⟨h.own.mpr ⟨last, by rw [hrows, List.getLast?_concat], hme⟩, hcount.symm⟩
      · rintro ⟨hown, hwaiting⟩
        obtain ⟨last, hlast, hunsent⟩ := h.fresh hown (by omega)
        obtain ⟨front, hrows⟩ := List.getLast?_eq_some_iff.mp hlast
        have hcount := h.unsent
        rw [hrows, List.countP_append, List.countP_singleton, if_pos hunsent, hwaiting] at hcount
        exact ⟨front, last, hrows, hunsent, by omega⟩
  | sendMsgClicked plainText time localIp => exact Iff.rfl
  | textRecv text time ip => exact Iff.rfl
  | resetMeetingUi => exact Iff.rfl
  | setDisabled disabled => exact Iff.rfl

/-- A separator is put in front of a row, or not; nothing counts it. -/
theorem dealMessageTime_eq (chat : Chat) (time : Nat) : ∃ rows : List ChatMessage,
    chat.dealMessageTime time = { chat with listWidget := chat.listWidget ++ rows } ∧
      rows.countP ChatMessage.unsent = 0 := by
  rw [dealMessageTime]
  split_ifs
  · exact ⟨[timeRow time], rfl, rfl⟩
  · exact ⟨[], by rw [List.append_nil], rfl⟩

theorem sendMsgClicked (h : Tallied chat) (plainText : List Char) (time : Nat)
    (localIp : UInt32) : Tallied (chat.onSendMsgClicked isSpace plainText time localIp) := by
  unfold onSendMsgClicked
  simp only []
  split
  · exact h
  · obtain ⟨rows, heq, hnone⟩ := dealMessageTime_eq chat time
    rw [heq]
    refine ⟨h.up, ?_, ?_, ?_⟩
    · show ((chat.listWidget ++ rows) ++ [_]).countP _ = chat.waiting + 1
      rw [List.countP_append, List.countP_append, h.unsent, hnone]
      rfl
    · simp [dealMessage, addRow]
    · intro _ _
      refine ⟨_, List.getLast?_concat, ?_⟩
      simp [ChatMessage.unsent]

theorem textRecv (h : Tallied chat) (text : List Char) (time : Nat) (ip : UInt32) :
    Tallied (chat.handleTextRecv text time ip) := by
  obtain ⟨rows, heq, hnone⟩ := dealMessageTime_eq chat time
  rw [handleTextRecv, heq]
  refine ⟨h.up, ?_, ?_, ?_⟩
  · show ((chat.listWidget ++ rows) ++ [_]).countP _ = chat.waiting
    rw [List.countP_append, List.countP_append, h.unsent, hnone]
    rfl
  · simp [dealMessage, addRow]
  · intro hown
    exact absurd hown (by simp)

theorem textSent (h : Tallied chat) (hmarks : MarksOldest chat .textSent) (underway : Nat) :
    Tallied { chat.onTextSend with underway := underway, waiting := chat.waiting - 1 } := by
  obtain ⟨hown, hwaiting⟩ := (h.marks_iff_inTime .textSent).mp hmarks
  obtain ⟨front, last, hrows, hunsent, hbefore⟩ := (marksOldest_textSent h.up).mp hmarks
  have hme : last.userType = .me := (by simpa [ChatMessage.unsent] using hunsent : _ ∧ _).1
  rw [onTextSend_concat hrows]
  refine ⟨h.up, ?_, ?_, ?_⟩
  · show (front ++ [last.setTextSuccess]).countP _ = chat.waiting - 1
    rw [List.countP_append, hbefore, List.countP_singleton, unsent_setTextSuccess, hwaiting]
    rfl
  · refine ⟨fun _ => ⟨last.setTextSuccess, List.getLast?_concat, hme⟩, fun _ => hown⟩
  · intro _ hmore
    have hmore' : 0 < chat.waiting - 1 := hmore
    omega

/-- **A right notification, or anything else, keeps the rows in agreement with the counts.** -/
theorem step (h : Tallied chat) {e : ChatEvent} (hmarks : MarksOldest chat e) {chat' : Chat}
    (hstep : chat.step isSpace e = some chat') : Tallied chat' := by
  unfold Chat.step at hstep
  rw [if_neg (by simp [h.up])] at hstep
  cases e with
  | sendMsgClicked plainText time localIp =>
      simp only [Option.ite_none_right_eq_some, Option.some.injEq] at hstep
      rw [← hstep.2]
      exact h.sendMsgClicked plainText time localIp
  | textRecv text time ip =>
      simp only [Option.some.injEq] at hstep
      rw [← hstep]
      exact h.textRecv text time ip
  | resetMeetingUi =>
      simp only [Option.some.injEq] at hstep
      rw [← hstep]
      exact ⟨h.up, rfl, by simp [Chat.resetMeetingUi], by simp [Chat.resetMeetingUi]⟩
  | textSent =>
      simp only [Option.ite_none_right_eq_some, Option.some.injEq] at hstep
      obtain ⟨-, rfl⟩ := hstep
      exact h.textSent hmarks _
  | setDisabled disabled =>
      simp only [Option.some.injEq] at hstep
      rw [← hstep]
      exact ⟨h.up, h.unsent, h.own, h.fresh⟩

end Tallied

variable (isSpace) in
/-- **A run in which every notification marks the right row** is one in which each comes while
the row of its text is still the last and no other text waits. -/
theorem marksOldest_iff (es : List ChatEvent) :
    Steps (step isSpace) MarksOldest {} es ↔ Steps (step isSpace) InTime {} es := by
  constructor
  · exact Steps.mono_of_invariant (fun _ _ _ h hmarks hstep => h.step hmarks hstep)
      (fun _ e h hmarks => (h.marks_iff_inTime e).mp hmarks) Tallied.init
  · exact Steps.mono_of_invariant
      (fun _ e _ h hin hstep => h.step ((h.marks_iff_inTime e).mpr hin) hstep)
      (fun _ e h hin => (h.marks_iff_inTime e).mpr hin) Tallied.init

/-- An answer to the user's text comes before the notification, and is marked instead. -/
theorem answerMarked : ¬ Steps (step Char.isWhitespace) MarksOldest {}
    [.setDisabled false, .sendMsgClicked ['a'] 0 1, .textRecv ['b'] 5 2, .textSent] := by
  intro h
  have hmarks := (((h.2 _ rfl).2 _ rfl).2 _ rfl).1
  obtain ⟨i, hfind, -, hmarked⟩ := hmarks
  have hi : i = 1 := (Option.some.inj hfind).symm
  subst hi
  exact absurd hmarked (by decide)

/-! ### Separators -/

/-- Which rows are separators, and the times of all. -/
def marks (chat : Chat) : List (Bool × Nat) :=
  chat.listWidget.map fun row => (decide (row.userType = .time), row.time)

/-- A separator says the time of the row behind it, more than a minute after the row before it.
Where there is none, there is no such gap. -/
def Spaced (a b : Bool × Nat) : Prop :=
  if b.1 then a.1 = false ∧ 60 < secondsOf b.2 - secondsOf a.2
  else secondsOf b.2 - secondsOf a.2 ≤ 60 ∧ (a.1 = true → b.2 = a.2)

/-- The list begins with a separator, does not end with one, and has one in each gap. -/
structure Separated (rows : List (Bool × Nat)) : Prop where
  first : ∀ a, rows.head? = some a → a.1 = true
  last : ∀ a, rows.getLast? = some a → a.1 = false
  spaced : rows.IsChain Spaced

theorem separated_nil : Separated [] := ⟨by simp, by simp, .nil⟩

/-- Rows that go behind the last one, as a gap or its absence calls for. -/
theorem Separated.append {rows : List (Bool × Nat)} (h : Separated rows) {last : Bool × Nat}
    (hlast : rows.getLast? = some last) {row : Bool × Nat} {more : List (Bool × Nat)}
    (hmore : (row :: more).IsChain Spaced) (hnext : Spaced last row)
    (hend : ∀ a, (row :: more).getLast? = some a → a.1 = false) :
    Separated (rows ++ row :: more) where
  first := by
    intro a ha
    cases rows with
    | nil => simp at hlast
    | cons b rows => exact h.first a ha
  last := by
    intro a ha
    rw [List.getLast?_append_of_ne_nil _ (List.cons_ne_nil row more)] at ha
    exact hend a ha
  spaced := by
    rw [List.isChain_append]
    refine ⟨h.spaced, hmore, ?_⟩
    intro a ha b hb
    rw [hlast, Option.mem_some_iff] at ha
    obtain rfl : row = b := by simpa using hb
    exact ha ▸ hnext

theorem marks_addRow (chat : Chat) (row : ChatMessage) :
    (chat.addRow row).marks = chat.marks ++ [(decide (row.userType = .time), row.time)] := by
  simp [marks, addRow]

/-- A text goes into the list, behind a separator where the gap calls for one. -/
theorem separated_dealMessage {chat : Chat} (h : Separated chat.marks) (text : List Char)
    (time : Nat) (ip : UInt32) {type : UserType} (htype : type ≠ .time) :
    Separated ((chat.dealMessageTime time).dealMessage text time ip type).marks := by
  have hpair : [(true, time), (false, time)].IsChain Spaced := by simp [Spaced]
  have hself : Spaced (true, time) (false, time) := by simp [Spaced]
  rw [dealMessage, marks_addRow]
  simp only [htype, decide_false]
  rw [dealMessageTime]
  cases hlast : chat.listWidget.getLast? with
  | none =>
      have hnil : chat.marks = [] := by
        rw [marks, List.getLast?_eq_none_iff.mp hlast]
        rfl
      simp only [if_true]
      rw [marks_addRow, hnil]
      exact ⟨by simp [timeRow], by simp, hpair⟩
  | some last =>
      have hmark : chat.marks.getLast? = some (decide (last.userType = .time), last.time) := by
        rw [marks, List.getLast?_map, hlast]
        rfl
      have htext : decide (last.userType = .time) = false := h.last _ hmark
      by_cases hgap : secondsOf time - secondsOf last.time > 60
      · simp only [hgap, decide_true, if_true]
        rw [marks_addRow, List.append_assoc]
        refine h.append hmark hpair ?_ (by simp)
        simpa [Spaced, timeRow] using ⟨by simpa using htext, hgap⟩
      · simp only [hgap, decide_false]
        refine h.append hmark (.singleton _) ?_ (by simp)
        simp only [Spaced, htext]
        simpa using hgap

/-- Marking a row as sent is no matter of times. -/
theorem marks_onTextSend (chat : Chat) : chat.onTextSend.marks = chat.marks := by
  rcases List.eq_nil_or_concat chat.listWidget with hnil | ⟨front, last, hrows⟩
  · simp [onTextSend, marks, hnil]
  · rw [List.concat_eq_append] at hrows
    rw [onTextSend_concat hrows, marks, marks, hrows]
    simp [ChatMessage.setTextSuccess]

theorem separated_step {chat chat' : Chat} (h : Separated chat.marks) {e : ChatEvent}
    (hstep : chat.step isSpace e = some chat') : Separated chat'.marks := by
  unfold step at hstep
  by_cases hcrashed : chat.crashed = true
  · rw [if_pos hcrashed] at hstep
    simp at hstep
  rw [if_neg hcrashed] at hstep
  cases e with
  | sendMsgClicked plainText time localIp =>
      simp only [Option.ite_none_right_eq_some, Option.some.injEq] at hstep
      obtain ⟨-, rfl⟩ := hstep
      unfold onSendMsgClicked
      simp only []
      split
      · exact h
      · exact separated_dealMessage h _ time localIp (by decide)
  | textRecv text time ip =>
      obtain rfl := Option.some.inj hstep
      exact separated_dealMessage h text time ip (by decide)
  | resetMeetingUi =>
      obtain rfl := Option.some.inj hstep
      exact separated_nil
  | textSent =>
      simp only [Option.ite_none_right_eq_some, Option.some.injEq] at hstep
      obtain ⟨-, rfl⟩ := hstep
      show Separated chat.onTextSend.marks
      rw [marks_onTextSend]
      exact h
  | setDisabled disabled =>
      obtain rfl := Option.some.inj hstep
      exact h

variable (isSpace) in
/-- **There is a separator at the beginning and in every gap of more than a minute**, and nowhere
else, whatever the clock says. -/
theorem separators (es : List ChatEvent) :
    Throughout (step isSpace) (fun chat => Separated chat.marks) {} es :=
  throughout_of_step (P := fun _ _ => True) (fun _ _ _ h _ hstep => separated_step h hstep)
    separated_nil (Steps.of_forall (fun _ _ => trivial) _ es)

end Chat

end CloudMeeting.Client
