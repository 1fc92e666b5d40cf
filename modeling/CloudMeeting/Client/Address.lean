/-
The address typed into the main window.

`Connection::validateIpPort` checks the address of a server against two patterns, before
anything is connected, and `connectOnIoThread` then reads the port with `toUShort`.  The
patterns are alternations over the first digits of a number.  `validateIpPort_iff` says
that they let through what they are meant to: four numbers up to 255, with or without
zeros in front, and the numeral of a port, which is then read as that port.

A string is the list of its UTF-16 code units.  A validator accepts an input that its
pattern matches as a whole, so the anchors of the source's patterns are left out.
-/
import CloudMeeting.Client.Widget
import CloudMeeting.Lib.Numerals
import Mathlib.Data.List.TakeWhile
import Mathlib.Tactic.NormNum

namespace CloudMeeting.Client.Address

open Numerals RegularExpression

/-! ### Strings -/

abbrev QString := List UInt16

/-- The code unit of a character of the basic plane. -/
def unit (c : Char) : UInt16 := c.val.toUInt16

def isDigit (c : UInt16) : Bool := unit '0' ≤ c ∧ c ≤ unit '9'

/-- The number that a string of digits stands for. -/
def value (s : QString) : Nat := s.foldl (fun n c => 10 * n + (c.toNat - 48)) 0

/-- `QChar::isSpace`. -/
def isSpace (c : UInt16) : Bool :=
  (9 ≤ c ∧ c ≤ 13) ∨ c = 0x20 ∨ c = 0x85 ∨ c = 0xa0 ∨ c = 0x1680 ∨ (0x2000 ≤ c ∧ c ≤ 0x200a) ∨
    c = 0x2028 ∨ c = 0x2029 ∨ c = 0x202f ∨ c = 0x205f ∨ c = 0x3000

def trimmed (s : QString) : QString :=
  ((s.dropWhile isSpace).reverse.dropWhile isSpace).reverse

/-- `QString::toUShort` in base ten, 0 where it fails. -/
def toUShort (s : QString) : Nat :=
  let s := trimmed s
  let digits := if s.head? = some (unit '+') then s.drop 1 else s
  if digits ≠ [] ∧ digits.all isDigit ∧ value digits ≤ 65535 then value digits else 0

/-! ### `Connection::validateIpPort` -/

def lit (c : Char) : RegularExpression UInt16 := char (unit c)

/-- `[lo-hi]`, for digits. -/
def digits (lo hi : Nat) : RegularExpression UInt16 := range unit lo hi

/-- `\d`. -/
def anyDigit : RegularExpression UInt16 := digits 0 9

/-- `P?`. -/
def opt (P : RegularExpression UInt16) : RegularExpression UInt16 := 1 + P

/-- `25[0-5]|2[0-4][0-9]|[01]?[0-9][0-9]?` -/
def octetPattern : RegularExpression UInt16 :=
  lit '2' * lit '5' * digits 0 5 + lit '2' * digits 0 4 * digits 0 9 +
    opt (digits 0 1) * digits 0 9 * opt (digits 0 9)

def ipPattern : RegularExpression UInt16 := (octetPattern * lit '.') ^ 3 * octetPattern

def portPattern : RegularExpression UInt16 :=
  digits 0 9 + digits 1 9 * anyDigit + digits 1 9 * anyDigit ^ 2 + digits 1 9 * anyDigit ^ 3 +
    digits 1 5 * anyDigit ^ 4 + lit '6' * digits 0 4 * anyDigit ^ 3 +
    lit '6' * lit '5' * digits 0 4 * anyDigit ^ 2 +
    lit '6' * lit '5' * lit '5' * digits 0 2 * anyDigit +
    lit '6' * lit '5' * lit '5' * lit '3' * digits 0 5

/-- Whether `validate` returns `Acceptable`. -/
def acceptable (pattern : RegularExpression UInt16) (input : QString) : Bool :=
  pattern.rmatch input

def validateIpPort (ip port : QString) : Bool × List Effect :=
  if ¬ acceptable ipPattern ip then (false, [.messageBox "Input Error" "Ip Error"])
  else if ¬ acceptable portPattern port then (false, [.messageBox "Input Error" "Port Error"])
  else (true, [])

/-! ### The grammar -/

/-- One to three digits, for a number up to 255. -/
structure Group (s : QString) : Prop where
  nonempty : 1 ≤ s.length
  short : s.length ≤ 3
  digits : ∀ c ∈ s, isDigit c = true
  value : value s ≤ 255

/-- Four groups, with single dots between them. -/
def Dotted (s : QString) : Prop :=
  ∃ a b c d, Group a ∧ Group b ∧ Group c ∧ Group d ∧
    s = a ++ [unit '.'] ++ b ++ [unit '.'] ++ c ++ [unit '.'] ++ d

/-- The decimal numeral of a port, without leading zeros. -/
def IsPort (s : QString) (n : Nat) : Prop := n ≤ 65535 ∧ s = numeral unit n

/-! ### Digits and the numbers they stand for -/

theorem toNat_digit {d : Nat} (h : d < 10) : (digit unit d).toNat = 48 + d := by
  rw [digit, unit, UInt32.toNat_toUInt16]
  have hchar : (Nat.digitChar d).val.toNat = 48 + d := Nat.toNat_digitChar_of_lt_ten h
  rw [hchar]
  omega

theorem isDigit_iff (c : UInt16) : isDigit c = true ↔ 48 ≤ c.toNat ∧ c.toNat ≤ 57 := by
  simp only [isDigit, decide_eq_true_eq, UInt16.le_iff_toNat_le]
  rfl

theorem isDigit_digit {d : Nat} (h : d < 10) : isDigit (digit unit d) = true := by
  rw [isDigit_iff, toNat_digit h]
  omega

theorem digit_of_isDigit {c : UInt16} (h : isDigit c = true) :
    digit unit (c.toNat - 48) = c := by
  rw [isDigit_iff] at h
  rw [← UInt16.toNat_inj, toNat_digit (by omega)]
  omega

theorem value_snoc (s : QString) (c : UInt16) :
    value (s ++ [c]) = 10 * value s + (c.toNat - 48) := by
  simp [value]

theorem value_lt {s : QString} (h : ∀ c ∈ s, isDigit c = true) : value s < 10 ^ s.length := by
  induction s using List.reverseRecOn with
  | nil => simp [value]
  | append_singleton s c ih =>
      have hfront := ih fun c hc => h c (by simp [hc])
      have hc := (isDigit_iff c).mp (h c (by simp))
      rw [value_snoc, List.length_append, List.length_singleton, pow_succ]
      omega

/-- A string of digits is its number, with as many places. -/
theorem padded_value {s : QString} (h : ∀ c ∈ s, isDigit c = true) :
    padded unit s.length (value s) = s := by
  induction s using List.reverseRecOn with
  | nil => rfl
  | append_singleton s c ih =>
      have hfront := ih fun c hc => h c (by simp [hc])
      have hlast := h c (by simp)
      have hc := (isDigit_iff c).mp hlast
      rw [value_snoc, List.length_append, List.length_singleton, padded_succ _ _ (by omega),
        hfront, digit_of_isDigit hlast]

theorem length_padded (k n : Nat) : (padded unit k n).length = k := by
  induction k generalizing n with
  | zero => rfl
  | succ k ih => rw [padded, List.length_append, ih, List.length_singleton]

theorem isDigit_of_mem_padded {k n : Nat} : ∀ c ∈ padded unit k n, isDigit c = true := by
  induction k generalizing n with
  | zero => simp [padded]
  | succ k ih =>
      intro c hc
      rw [padded, List.mem_append, List.mem_singleton] at hc
      obtain hc | rfl := hc
      · exact ih c hc
      · exact isDigit_digit (Nat.mod_lt n (by omega))

theorem value_padded {k n : Nat} (h : n < 10 ^ k) : value (padded unit k n) = n := by
  induction k generalizing n with
  | zero =>
      have hzero : n = 0 := by simpa using h
      simp [padded, value, hzero]
  | succ k ih =>
      rw [pow_succ] at h
      rw [padded, value_snoc, ih (by omega), toNat_digit (Nat.mod_lt n (by omega))]
      omega

/-- Strings of digits of one length, by their number. -/
theorem mem_fixed_iff {k b : Nat} (hb : b ≤ 10 ^ k) (s : QString) :
    s ∈ fixed unit k 0 b ↔ s.length = k ∧ (∀ c ∈ s, isDigit c = true) ∧ value s < b := by
  rw [mem_interval]
  constructor
  · intro hs
    obtain ⟨n, -, hn, rfl⟩ := hs
    rw [value_padded (lt_of_lt_of_le hn hb)]
    exact ⟨length_padded k n, isDigit_of_mem_padded, hn⟩
  · intro hs
    obtain ⟨rfl, hdigits, hvalue⟩ := hs
    exact ⟨value s, Nat.zero_le _, hvalue, (padded_value hdigits).symm⟩

/-! ### What the patterns match -/

theorem digits_matches' (lo : Nat) {hi : Nat} (h : hi < 10) :
    (digits lo hi).matches' = fixed unit 1 lo (hi + 1) := range_matches' lo h

theorem anyDigit_matches' : anyDigit.matches' = fixed unit 1 0 10 := digits_matches' 0 (by omega)

/-- A digit in a pattern stands for itself. -/
theorem lit_matches' {d : Nat} (h : d < 10) {c : Char} (hc : Nat.digitChar d = c) :
    (lit c).matches' = fixed unit 1 d (d + 1) := by
  subst hc
  show (char (digit unit d)).matches' = _
  exact char_matches' h

theorem octet_matches' : octetPattern.matches'
    = fixed unit 1 0 10 + fixed unit 2 0 100 + fixed unit 3 0 256 := by
  have htwo := lit_matches' (d := 2) (c := '2') (by omega) rfl
  have hfive := lit_matches' (d := 5) (c := '5') (by omega) rfl
  have hhigh : (lit '2' * lit '5' * digits 0 5).matches' = fixed unit 3 250 256 := by
    rw [matches'_mul, matches'_mul, htwo, hfive, digits_matches' 0 (by omega),
      fixed_mul_range 1 2 5 (by omega), fixed_mul_range 2 25 0 (by omega)]
  have hmiddle : (lit '2' * digits 0 4 * digits 0 9).matches' = fixed unit 3 200 250 := by
    rw [matches'_mul, matches'_mul, htwo, digits_matches' 0 (by omega),
      digits_matches' 0 (by omega), fixed_mul_range 1 2 0 (by omega), fixed_mul_digit]
  have hlow : (opt (digits 0 1) * digits 0 9 * opt (digits 0 9)).matches'
      = fixed unit 1 0 10 + (fixed unit 2 0 100 + fixed unit 2 0 20) + fixed unit 3 0 200 := by
    simp only [opt, matches'_mul, matches'_add, matches'_epsilon]
    rw [digits_matches' 0 (by omega), digits_matches' 0 (by omega)]
    simp only [mul_add, add_mul, one_mul, mul_one]
    rw [fixed_mul_digit, fixed_mul_digit, fixed_mul_digit]
    abel
  -- two digits starting with a zero or a one are among all of two digits
  have htwice : fixed unit 2 0 100 + fixed unit 2 0 20 = fixed unit 2 0 100 := by
    have hsplit : fixed unit 2 0 20 + fixed unit 2 20 100 = fixed unit 2 0 100 :=
      interval_add _ (by omega) (by omega)
    rw [← hsplit, add_right_comm, add_idem]
  calc octetPattern.matches'
      = fixed unit 3 250 256 + fixed unit 3 200 250 +
          (fixed unit 1 0 10 + fixed unit 2 0 100 + fixed unit 3 0 200) := by
        rw [octetPattern, matches'_add, matches'_add, hhigh, hmiddle, hlow, htwice]
    _ = fixed unit 1 0 10 + fixed unit 2 0 100 +
          (fixed unit 3 0 200 + fixed unit 3 200 250 + fixed unit 3 250 256) := by abel
    _ = fixed unit 1 0 10 + fixed unit 2 0 100 + fixed unit 3 0 256 := by
        rw [interval_add _ (by omega) (by omega), interval_add _ (by omega) (by omega)]

theorem mem_octet_iff (s : QString) : s ∈ octetPattern.matches' ↔ Group s := by
  rw [octet_matches', Language.mem_add, Language.mem_add, mem_fixed_iff (by omega),
    mem_fixed_iff (by omega), mem_fixed_iff (by omega)]
  constructor
  · intro hs
    obtain (⟨hlength, hdigits, hvalue⟩ | ⟨hlength, hdigits, hvalue⟩) | ⟨hlength, hdigits, hvalue⟩ :=
      hs
    · exact ⟨by omega, by omega, hdigits, by omega⟩
    · exact ⟨by omega, by omega, hdigits, by omega⟩
    · exact ⟨by omega, by omega, hdigits, by omega⟩
  · intro h
    have hlt := value_lt h.digits
    have hvalue := h.value
    have hcases : s.length = 1 ∨ s.length = 2 ∨ s.length = 3 := by
      have := h.nonempty
      have := h.short
      omega
    obtain hlength | hlength | hlength := hcases
    · rw [hlength] at hlt
      exact Or.inl (Or.inl ⟨hlength, h.digits, hlt⟩)
    · rw [hlength] at hlt
      exact Or.inl (Or.inr ⟨hlength, h.digits, hlt⟩)
    · exact Or.inr ⟨hlength, h.digits, by omega⟩

theorem mem_ip_iff (s : QString) : s ∈ ipPattern.matches' ↔ Dotted s := by
  have hgroups : ipPattern.matches' = octetPattern.matches' * {[unit '.']} *
      (octetPattern.matches' * {[unit '.']}) * (octetPattern.matches' * {[unit '.']}) *
      octetPattern.matches' := by
    rw [ipPattern, matches'_mul, matches'_pow, matches'_mul, lit, matches'_char, pow_succ, pow_two]
  rw [hgroups]
  constructor
  · intro hs
    obtain ⟨_, ⟨_, ⟨_, ⟨a, ha, _, rfl, rfl⟩, _, ⟨b, hb, _, rfl, rfl⟩, rfl⟩, _,
      ⟨c, hc, _, rfl, rfl⟩, rfl⟩, d, hd, rfl⟩ := hs
    refine ⟨a, b, c, d, (mem_octet_iff a).mp ha, (mem_octet_iff b).mp hb, (mem_octet_iff c).mp hc,
      (mem_octet_iff d).mp hd, ?_⟩
    simp only [List.append_assoc]
  · intro hs
    obtain ⟨a, b, c, d, ha, hb, hc, hd, rfl⟩ := hs
    have hdot : ∀ x, Group x → x ++ [unit '.'] ∈ octetPattern.matches' * {[unit '.']} := by
      intro x hx
      exact Language.append_mem_mul ((mem_octet_iff x).mpr hx) rfl
    have habc := Language.append_mem_mul (Language.append_mem_mul (hdot a ha) (hdot b hb))
      (hdot c hc)
    have hall := Language.append_mem_mul habc ((mem_octet_iff d).mpr hd)
    simpa only [List.append_assoc] using hall

/-- A first digit, and some free ones. -/
theorem first_matches' {lo hi : Nat} (hlo : 0 < lo) (hhi : hi < 10) (j : Nat) :
    (digits lo hi * anyDigit ^ j).matches' = numerals unit (lo * 10 ^ j) ((hi + 1) * 10 ^ j) := by
  rw [matches'_mul, matches'_pow, digits_matches' lo hhi, anyDigit_matches',
    fixed_one lo (by omega), numerals_mul_pow hlo]

/-- A number that is fixed, and a digit. -/
theorem next_matches' {P : RegularExpression UInt16} {m : Nat} (hm : 0 < m)
    (hP : P.matches' = numerals unit m (m + 1)) (lo : Nat) {hi : Nat} (hhi : hi < 10) :
    (P * digits lo hi).matches' = numerals unit (10 * m + lo) (10 * m + (hi + 1)) := by
  rw [matches'_mul, hP, digits_matches' lo hhi, numerals_mul_range hm lo (by omega)]

/-- The same, and some free digits. -/
theorem next_pow_matches' {P : RegularExpression UInt16} {m : Nat} (hm : 0 < m)
    (hP : P.matches' = numerals unit m (m + 1)) (lo : Nat) {hi : Nat} (hhi : hi < 10) (j : Nat) :
    (P * digits lo hi * anyDigit ^ j).matches'
      = numerals unit ((10 * m + lo) * 10 ^ j) ((10 * m + (hi + 1)) * 10 ^ j) := by
  rw [matches'_mul, next_matches' hm hP lo hhi, matches'_pow, anyDigit_matches',
    numerals_mul_pow (by omega)]

/-- A number that is fixed, and a literal digit. -/
theorem lit_snoc_matches' {P : RegularExpression UInt16} {m : Nat} (hm : 0 < m)
    (hP : P.matches' = numerals unit m (m + 1)) {d : Nat} (hd : d < 10) {c : Char}
    (hc : Nat.digitChar d = c) :
    (P * lit c).matches' = numerals unit (10 * m + d) (10 * m + d + 1) := by
  rw [matches'_mul, hP, lit_matches' hd hc, numerals_mul_range hm d (by omega), add_assoc]

/-- The branches match the ports from 0 on, each from where the one before it ends. -/
theorem port_matches' : portPattern.matches' = numerals unit 0 65536 := by
  have h6 : (lit '6').matches' = numerals unit 6 7 := by
    rw [lit_matches' (d := 6) (c := '6') (by omega) rfl, fixed_one 6 (by omega)]
  have h65 : (lit '6' * lit '5').matches' = numerals unit 65 66 :=
    lit_snoc_matches' (by omega) h6 (d := 5) (by omega) rfl
  have h655 : (lit '6' * lit '5' * lit '5').matches' = numerals unit 655 656 :=
    lit_snoc_matches' (by omega) h65 (d := 5) (by omega) rfl
  have h6553 : (lit '6' * lit '5' * lit '5' * lit '3').matches' = numerals unit 6553 6554 :=
    lit_snoc_matches' (by omega) h655 (d := 3) (by omega) rfl
  have hone : (digits 0 9).matches' = numerals unit 0 10 := by
    rw [digits_matches' 0 (by omega), fixed_one 0 (by omega)]
  have htwo : (digits 1 9 * anyDigit).matches' = numerals unit 10 100 := by
    rw [matches'_mul, digits_matches' 1 (by omega), anyDigit_matches', fixed_one 1 (by omega),
      numerals_mul_digit (by omega)]
  have htens : (lit '6' * lit '5' * lit '5' * digits 0 2 * anyDigit).matches'
      = numerals unit 65500 65530 := by
    rw [matches'_mul, next_matches' (by omega) h655 0 (by omega), anyDigit_matches',
      numerals_mul_digit (by omega)]
  calc portPattern.matches'
      = numerals unit 0 10 + numerals unit 10 100 + numerals unit 100 1000 +
          numerals unit 1000 10000 + numerals unit 10000 60000 + numerals unit 60000 65000 +
          numerals unit 65000 65500 + numerals unit 65500 65530 + numerals unit 65530 65536 := by
        simp only [portPattern, matches'_add]
        rw [hone, htwo, htens, first_matches' (by omega) (by omega),
          first_matches' (by omega) (by omega), first_matches' (by omega) (by omega),
          next_pow_matches' (by omega) h6 0 (by omega),
          next_pow_matches' (by omega) h65 0 (by omega),
          next_matches' (by omega) h6553 0 (by omega)]
        norm_num
    _ = numerals unit 0 65536 := by
        iterate 8 rw [interval_add _ (by omega) (by omega)]

/-! ### Reading the port -/

/-- A string of digits, for this number. -/
structure Spells (s : QString) (n : Nat) : Prop where
  nonempty : s ≠ []
  digits : ∀ c ∈ s, isDigit c = true
  value : value s = n

theorem numeral_spells (n : Nat) : Spells (numeral unit n) n := by
  induction n using Nat.strong_induction_on with
  | _ n ih =>
      by_cases hn : n < 10
      · rw [numeral_of_lt hn]
        refine ⟨List.cons_ne_nil _ _, ?_, ?_⟩
        · intro c hc
          rw [List.mem_singleton.mp hc]
          exact isDigit_digit hn
        · simp [value, toNat_digit hn]
      · obtain ⟨m, d, hd, rfl⟩ : ∃ m d, d < 10 ∧ n = 10 * m + d :=
          ⟨n / 10, n % 10, Nat.mod_lt n (by omega), by omega⟩
        have hm : 0 < m := by omega
        have hfront := ih m (by omega)
        rw [numeral_snoc hm hd]
        refine ⟨by simp, ?_, ?_⟩
        · intro c hc
          rw [List.mem_append, List.mem_singleton] at hc
          obtain hc | rfl := hc
          · exact hfront.digits c hc
          · exact isDigit_digit hd
        · rw [value_snoc, hfront.value, toNat_digit hd]
          omega

theorem not_isSpace_of_isDigit {c : UInt16} (h : isDigit c = true) : isSpace c = false := by
  rw [isDigit_iff] at h
  simp only [isSpace, decide_eq_false_iff_not, UInt16.le_iff_toNat_le, ← UInt16.toNat_inj]
  simp only [UInt16.toNat_ofNat]
  omega

namespace Spells

variable {s : QString} {n : Nat}

theorem dropWhile_isSpace (h : ∀ c ∈ s, isDigit c = true) : s.dropWhile isSpace = s := by
  rw [List.dropWhile_eq_self_iff]
  intro hlen
  rw [not_isSpace_of_isDigit (h _ (List.getElem_mem hlen))]
  exact Bool.false_ne_true

theorem trimmed_eq (h : Spells s n) : trimmed s = s := by
  have hreverse : ∀ c ∈ s.reverse, isDigit c = true := by
    intro c hc
    exact h.digits c (List.mem_reverse.mp hc)
  rw [trimmed, dropWhile_isSpace h.digits, dropWhile_isSpace hreverse, List.reverse_reverse]

theorem head?_ne_plus (h : Spells s n) : s.head? ≠ some (unit '+') := by
  intro hhead
  have hplus := h.digits _ (List.mem_of_head? hhead)
  exact absurd hplus (by decide)

/-- Digits are read as their number, as long as that fits. -/
theorem toUShort_eq (h : Spells s n) (hn : n ≤ 65535) : toUShort s = n := by
  have hall : s.all isDigit = true := List.all_eq_true.mpr h.digits
  simp only [toUShort, h.trimmed_eq, if_neg h.head?_ne_plus, h.value]
  rw [if_pos ⟨h.nonempty, hall, hn⟩]

end Spells

/-! ### What is accepted -/

theorem acceptable_iff (pattern : RegularExpression UInt16) (s : QString) :
    acceptable pattern s = true ↔ s ∈ pattern.matches' := rmatch_iff_matches' pattern s

theorem isPort_iff (s : QString) : acceptable portPattern s = true ↔ ∃ n, IsPort s n := by
  rw [acceptable_iff, port_matches', mem_interval]
  constructor
  · intro hs
    obtain ⟨n, -, hn, hs⟩ := hs
    exact ⟨n, by omega, hs⟩
  · intro hs
    obtain ⟨n, hn, hs⟩ := hs
    exact ⟨n, Nat.zero_le n, by omega, hs⟩

/-- **Exactly the addresses of the grammar are accepted**, and an accepted port is read as the
number it is the numeral of. -/
theorem validateIpPort_iff (ip port : QString) :
    ((validateIpPort ip port).1 = true ↔ Dotted ip ∧ ∃ n, IsPort port n) ∧
      ((validateIpPort ip port).1 = true → ∀ n, port = numeral unit n → toUShort port = n) := by
  have haccepts : (validateIpPort ip port).1 = true ↔ Dotted ip ∧ ∃ n, IsPort port n := by
    rw [← mem_ip_iff, ← acceptable_iff, ← isPort_iff, validateIpPort]
    by_cases hip : acceptable ipPattern ip = true
    · by_cases hport : acceptable portPattern port = true
      · simp [hip, hport]
      · simp [hip, hport]
    · simp [hip]
  refine ⟨haccepts, fun hvalid n hn => ?_⟩
  obtain ⟨-, m, hm, hport⟩ := haccepts.mp hvalid
  -- a string is the numeral of one number only
  have hsame : n = m := by
    rw [← (numeral_spells n).value, ← hn, hport, (numeral_spells m).value]
  rw [hn, hsame]
  exact (numeral_spells m).toUShort_eq hm

end CloudMeeting.Client.Address
