/-
Room numbers as they are typed.

A room number is read twice, by `std::stoul` for the request and by `QString::toInt` for the
window.  The second one reads numerals and nothing else.  The first one reads what is at the
front, a sign included, and the result is cut to 32 bits where an `unsigned long` has more; so
some strings that are no room number are read as one.  Which ones is a matter of the number in
front and of the target (`Vanishes`).
-/
import CloudMeeting.Client.Widget
import Mathlib.Data.List.TakeWhile

namespace CloudMeeting.Client

/-- The string is a decimal numeral of `n`; leading zeros are allowed. -/
structure Numeral (s : Bytes) (n : Nat) : Prop where
  nonempty : s ≠ []
  digits : ∀ b ∈ s, isDigit b = true
  value : digitsValue s = n

/-- What follows white space and one sign. -/
def unsigned (s : Bytes) : Bytes :=
  let s := s.dropWhile isSpace
  if s.head? = some 43 ∨ s.head? = some 45 then s.drop 1 else s

/-- There is no number in front, or one that is too large to be read, or a multiple of 2^32. -/
def Vanishes (model : DataModel) (s : Bytes) : Prop :=
  (unsigned s).takeWhile isDigit = [] ∨ model.ulongSize ≤ digitsValue (unsigned s) ∨
    2 ^ 32 ∣ digitsValue (unsigned s)

/-- The request is for the room typed, for none if no room was typed, and the window shows the
room where it can. -/
structure ReadExactly (model : DataModel) (s : Bytes) : Prop where
  request : ∀ n, 0 < n → ((roomNoU32 model s).toNat = n ↔ Numeral s n ∧ n ≤ 2 ^ 32 - 1)
  none : (¬ ∃ n, Numeral s n ∧ 1 ≤ n ∧ n ≤ 2 ^ 32 - 1) → roomNoU32 model s = 0
  shown : ∀ n, Numeral s n → 1 ≤ n → n ≤ 2 ^ 31 - 1 → ∀ w : MeetingWidget, ∀ ip port,
    w.visible = true → w.sessionEnding = false →
      (w.onConnectFinished true ⟨ip, port, .joinMeeting, s⟩).1.roomNo = n

/-! ### What is at the front -/

variable {model : DataModel}

theorem stoul_eq (model : DataModel) (s : Bytes) : stoul model s =
    if (unsigned s).takeWhile isDigit = [] then none
    else if model.ulongSize ≤ digitsValue (unsigned s) then none
    else if (s.dropWhile isSpace).head? = some 45 then
      some ((model.ulongSize - digitsValue (unsigned s)) % model.ulongSize)
    else some (digitsValue (unsigned s)) := rfl

/-- Every 32-bit number is an `unsigned long`. -/
theorem le_ulongSize (model : DataModel) : 2 ^ 32 ≤ model.ulongSize := by
  cases model with
  | llp64 => decide
  | lp64 => decide

theorem ofNat_eq_zero_iff (n : Nat) : UInt32.ofNat n = 0 ↔ 2 ^ 32 ∣ n := by
  rw [← UInt32.toNat_inj, UInt32.toNat_ofNat', UInt32.toNat_zero, Nat.dvd_iff_mod_eq_zero]

/-- **The request is for no room exactly when there is nothing left of the number in front.** -/
theorem roomNoU32_eq_zero_iff (s : Bytes) : roomNoU32 model s = 0 ↔ Vanishes model s := by
  unfold roomNoU32 Vanishes
  split
  · rename_i hs
    subst hs
    simp [unsigned]
  rw [stoul_eq]
  by_cases hdigits : (unsigned s).takeWhile isDigit = []
  · simp [hdigits]
  by_cases hlarge : model.ulongSize ≤ digitsValue (unsigned s)
  · simp [hdigits, hlarge]
  rw [if_neg hdigits, if_neg hlarge]
  simp only [hdigits, hlarge, false_or]
  split
  · rename_i n hn
    split at hn
    · -- a minus sign negates modulo a multiple of 2^32
      obtain rfl := Option.some.inj hn
      rw [ofNat_eq_zero_iff, Nat.dvd_iff_mod_eq_zero, Nat.dvd_iff_mod_eq_zero]
      cases model <;> simp only [DataModel.ulongSize] at hlarge ⊢ <;> omega
    · obtain rfl := Option.some.inj hn
      exact ofNat_eq_zero_iff _
  · rename_i hn
    split at hn <;> simp at hn

/-! ### Numerals -/

theorem isSpace_of_isDigit {b : UInt8} (h : isDigit b = true) : isSpace b = false := by
  simp only [isDigit, isSpace, decide_eq_true_eq, decide_eq_false_iff_not,
    UInt8.le_iff_toNat_le, ← UInt8.toNat_inj] at h ⊢
  have h48 : (48 : UInt8).toNat = 48 := rfl
  have h32 : (32 : UInt8).toNat = 32 := rfl
  have h13 : (13 : UInt8).toNat = 13 := rfl
  omega

theorem ne_sign_of_isDigit {b : UInt8} (h : isDigit b = true) : b ≠ 43 ∧ b ≠ 45 := by
  refine ⟨?_, ?_⟩
  · rintro rfl
    exact absurd h (by decide)
  · rintro rfl
    exact absurd h (by decide)

namespace Numeral

variable {s : Bytes} {n : Nat}

theorem dropWhile_isSpace (h : Numeral s n) : s.dropWhile isSpace = s := by
  rw [List.dropWhile_eq_self_iff]
  intro hlen
  rw [isSpace_of_isDigit (h.digits _ (List.getElem_mem hlen))]
  exact Bool.false_ne_true

theorem takeWhile_isDigit (h : Numeral s n) : s.takeWhile isDigit = s :=
  List.takeWhile_eq_self_iff.mpr h.digits

theorem head?_ne_sign (h : Numeral s n) : s.head? ≠ some 43 ∧ s.head? ≠ some 45 := by
  refine ⟨?_, ?_⟩
  · intro hhead
    exact (ne_sign_of_isDigit (h.digits 43 (List.mem_of_head? hhead))).1 rfl
  · intro hhead
    exact (ne_sign_of_isDigit (h.digits 45 (List.mem_of_head? hhead))).2 rfl

theorem unsigned_eq (h : Numeral s n) : unsigned s = s := by
  obtain ⟨hplus, hminus⟩ := h.head?_ne_sign
  simp only [unsigned, h.dropWhile_isSpace]
  rw [if_neg (by simp [hplus, hminus])]

theorem stoul_eq (h : Numeral s n) (hn : n < model.ulongSize) : stoul model s = some n := by
  obtain ⟨-, hminus⟩ := h.head?_ne_sign
  rw [Client.stoul_eq, h.unsigned_eq, h.takeWhile_isDigit, h.dropWhile_isSpace, h.value,
    if_neg h.nonempty, if_neg (Nat.not_le.mpr hn), if_neg hminus]

/-- A numeral is read as its number, as long as that fits. -/
theorem roomNoU32_eq (h : Numeral s n) (hn : n < 2 ^ 32) : (roomNoU32 model s).toNat = n := by
  have hstoul := h.stoul_eq (Nat.lt_of_lt_of_le hn (le_ulongSize model))
  rw [roomNoU32, if_neg h.nonempty, hstoul]
  exact UInt32.toNat_ofNat_of_lt' hn

/-- `QString::toInt` reads it as the same number, as long as that fits. -/
theorem toInt_eq (h : Numeral s n) (hn : n < 2 ^ 31) : toInt s = n := by
  have hend : (s.reverse.dropWhile isSpace).reverse = s := by
    have hreverse : Numeral s.reverse (digitsValue s.reverse) :=
      ⟨by simpa using h.nonempty, fun b hb => h.digits b (List.mem_reverse.mp hb), rfl⟩
    rw [hreverse.dropWhile_isSpace, List.reverse_reverse]
  obtain ⟨hplus, hminus⟩ := h.head?_ne_sign
  simp only [toInt, h.dropWhile_isSpace, hend, hplus, hminus, or_false, if_false, h.value]
  rw [if_pos ⟨h.nonempty, List.all_eq_true.mpr h.digits, by omega, by omega⟩]

/-- The window shows a number that is read. -/
theorem roomNo_eq (h : Numeral s n) (hn : n < 2 ^ 31) (w : MeetingWidget) (ip port : String)
    (hvisible : w.visible = true) (hending : w.sessionEnding = false) :
    (w.onConnectFinished true ⟨ip, port, .joinMeeting, s⟩).1.roomNo = n := by
  rw [← h.toInt_eq hn]
  simp [MeetingWidget.onConnectFinished, MeetingWidget.connectServerFinished,
    MeetingWidget.onConnectServerFinished, hvisible, hending]

/-- A string is a numeral of one number only. -/
theorem unique {m : Nat} (h : Numeral s n) (hm : Numeral s m) : n = m := h.value.symm.trans hm.value

end Numeral

/-! ### Which strings are read exactly -/

theorem ReadExactly.of_numeral {s : Bytes} {n : Nat} (h : Numeral s n) (hn : n < 2 ^ 32) :
    ReadExactly model s := by
  have hroom : (roomNoU32 model s).toNat = n := h.roomNoU32_eq hn
  constructor
  case request =>
    intro m hm
    rw [hroom]
    constructor
    · rintro rfl
      exact ⟨h, by omega⟩
    · rintro ⟨hnumeral, -⟩
      exact h.unique hnumeral
  case none =>
    intro hnone
    have hzero : n = 0 := by
      by_contra hne
      exact hnone ⟨n, h, by omega, by omega⟩
    rw [← UInt32.toNat_inj, hroom, hzero, UInt32.toNat_zero]
  case shown =>
    intro m hnumeral hpos hm w ip port
    exact hnumeral.roomNo_eq (by omega) w ip port

/-- What is read as no room is read exactly: the numerals of rooms are not among it. -/
theorem ReadExactly.of_vanishes {s : Bytes} (h : Vanishes model s) : ReadExactly model s := by
  have hroom := (roomNoU32_eq_zero_iff s).mpr h
  constructor
  case request =>
    intro n hn
    rw [hroom, UInt32.toNat_zero]
    constructor
    · intro hzero
      omega
    · rintro ⟨hnumeral, hle⟩
      rw [← hnumeral.roomNoU32_eq (by omega), hroom, UInt32.toNat_zero]
  case none => exact fun _ => hroom
  case shown =>
    intro n hnumeral hpos hn w ip port
    exact hnumeral.roomNo_eq (by omega) w ip port

/-- **A room number is read exactly if it is a numeral that fits 32 bits, and otherwise only if
nothing is left of the number in front.** -/
theorem readExactly_iff (model : DataModel) (s : Bytes) :
    ReadExactly model s ↔ (∃ n, n < 2 ^ 32 ∧ Numeral s n) ∨ Vanishes model s := by
  constructor
  · intro h
    by_cases hzero : roomNoU32 model s = 0
    · exact Or.inr ((roomNoU32_eq_zero_iff s).mp hzero)
    · have hpos : 0 < (roomNoU32 model s).toNat := by
        rw [Nat.pos_iff_ne_zero]
        intro htoNat
        exact hzero (UInt32.toNat_inj.mp htoNat)
      have hnumeral := ((h.request _ hpos).mp rfl).1
      exact Or.inl ⟨_, UInt32.toNat_lt _, hnumeral⟩
  · rintro (⟨n, hn, hnumeral⟩ | hvanishes)
    · exact ReadExactly.of_numeral hnumeral hn
    · exact ReadExactly.of_vanishes hvanishes

/-- `12abc` is no numeral, but the request is for room 12, whatever the target. -/
theorem trailingGarbage :
    ¬ ReadExactly .llp64 [49, 50, 97, 98, 99] ∧ ¬ ReadExactly .lp64 [49, 50, 97, 98, 99] := by
  have hread : ∀ model, (roomNoU32 model [49, 50, 97, 98, 99]).toNat = 12 →
      ¬ ReadExactly model [49, 50, 97, 98, 99] := by
    intro model hroom h
    have hdigit := ((h.request 12 (by decide)).mp hroom).1.digits 97 (by decide)
    exact absurd hdigit (by decide)
  exact ⟨hread .llp64 (by decide), hread .lp64 (by decide)⟩

/-- 2^32 + 1 is no room with 32 bits, and room 1 with 64. -/
example : roomNoU32 .llp64 [52, 50, 57, 52, 57, 54, 55, 50, 57, 55] = 0 ∧
    roomNoU32 .lp64 [52, 50, 57, 52, 57, 54, 55, 50, 57, 55] = 1 := by decide

end CloudMeeting.Client
