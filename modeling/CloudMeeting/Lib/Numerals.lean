/-
Languages of decimal digits.

A pattern that is to match the numbers in a range is written as an alternation, each
branch of which fixes some digits and leaves the others free.  Such a branch matches the
digit strings of one length for an interval of numbers (`fixed`), and a longer pattern
is built from a shorter one by a product, whose interval is ten times as large.  So what
an alternation matches comes down to whether its intervals cover the range.

The alphabet is arbitrary; `code` gives the letter of each character.
-/
import Mathlib.Algebra.Order.Group.Nat
import Mathlib.Computability.RegularExpressions
import Mathlib.Tactic.Abel

namespace CloudMeeting.Numerals

variable {α : Type} (code : Char → α)

/-- The decimal numeral of a number, without leading zeros. -/
def numeral (n : Nat) : List α := (Nat.toDigits 10 n).map code

def digit (d : Nat) : α := code (Nat.digitChar d)

/-- The last `k` digits of a number, zeros in front included. -/
def padded : Nat → Nat → List α
  | 0, _ => []
  | k + 1, n => padded k (n / 10) ++ [digit code (n % 10)]

/-- The class of the digits from `lo` to `hi`. -/
def range (lo hi : Nat) : RegularExpression α :=
  ((List.range' lo (hi + 1 - lo)).map fun d => .char (digit code d)).foldr (· + ·) 0

/-- The words for the numbers from `a` on and below `b`. -/
def interval (word : Nat → List α) (a b : Nat) : Language α :=
  {s | ∃ n, a ≤ n ∧ n < b ∧ s = word n}

/-- The strings of `k` digits for such numbers. -/
abbrev fixed (k a b : Nat) : Language α := interval (padded code k) a b

abbrev numerals (a b : Nat) : Language α := interval (numeral code) a b

variable {code}

theorem mem_interval {word : Nat → List α} {a b : Nat} {s : List α} :
    s ∈ interval word a b ↔ ∃ n, a ≤ n ∧ n < b ∧ s = word n := Iff.rfl

/-! ### One digit after another -/

theorem padded_succ (k m : Nat) {d : Nat} (hd : d < 10) :
    padded code (k + 1) (10 * m + d) = padded code k m ++ [digit code d] := by
  have hfront : (10 * m + d) / 10 = m := by omega
  have hlast : (10 * m + d) % 10 = d := by omega
  rw [padded, hfront, hlast]

theorem padded_one {d : Nat} (hd : d < 10) : padded code 1 d = [digit code d] := by
  have hlast : padded code (0 + 1) (10 * 0 + d) = padded code 0 0 ++ [digit code d] :=
    padded_succ 0 0 hd
  simpa [padded] using hlast

theorem numeral_of_lt {n : Nat} (hn : n < 10) : numeral code n = [digit code n] := by
  rw [numeral, Nat.toDigits_of_lt_base hn]
  rfl

theorem numeral_snoc {m d : Nat} (hm : 0 < m) (hd : d < 10) :
    numeral code (10 * m + d) = numeral code m ++ [digit code d] := by
  rw [numeral, ← Nat.toDigits_append_toDigits (by omega) hm hd, List.map_append,
    Nat.toDigits_of_lt_base hd]
  rfl

/-! ### What the classes and their products match -/

theorem mem_foldr_char (l : List Nat) (s : List α) :
    s ∈ ((l.map fun d => RegularExpression.char (digit code d)).foldr (· + ·) 0).matches' ↔
      ∃ d ∈ l, s = [digit code d] := by
  induction l with
  | nil => simp
  | cons d l ih =>
      simp only [List.map_cons, List.foldr_cons, RegularExpression.matches'_add,
        Language.mem_add, ih, RegularExpression.matches'_char, List.exists_mem_cons_iff]
      rfl

theorem range_matches' (lo : Nat) {hi : Nat} (h : hi < 10) :
    (range code lo hi).matches' = fixed code 1 lo (hi + 1) := by
  ext s
  rw [range, mem_foldr_char, mem_interval]
  constructor
  · intro hs
    obtain ⟨d, hd, rfl⟩ := hs
    rw [List.mem_range'_1] at hd
    exact ⟨d, hd.1, by omega, (padded_one (by omega)).symm⟩
  · intro hs
    obtain ⟨d, hlo, hhi, rfl⟩ := hs
    exact ⟨d, List.mem_range'_1.mpr ⟨hlo, by omega⟩, padded_one (by omega)⟩

theorem char_matches' {d : Nat} (h : d < 10) :
    (RegularExpression.char (digit code d)).matches' = fixed code 1 d (d + 1) := by
  ext s
  rw [RegularExpression.matches'_char, mem_interval]
  constructor
  · intro hs
    exact ⟨d, le_rfl, Nat.lt_succ_self d, (padded_one h).symm ▸ hs⟩
  · intro hs
    obtain ⟨n, hlo, hhi, rfl⟩ := hs
    obtain rfl : n = d := by omega
    rw [padded_one h]
    exact Set.mem_singleton _

section Products

variable {word word' : Nat → List α}

/-- A last digit after one word. -/
theorem interval_mul_range {m : Nat}
    (hword : ∀ d < 10, word' (10 * m + d) = word m ++ [digit code d]) (lo : Nat) {hi : Nat}
    (h : hi ≤ 10) :
    interval word m (m + 1) * fixed code 1 lo hi = interval word' (10 * m + lo) (10 * m + hi) := by
  ext s
  rw [Language.mem_mul, mem_interval]
  constructor
  · intro hs
    obtain ⟨x, ⟨n, hn, hn', rfl⟩, y, ⟨d, hd, hd', rfl⟩, rfl⟩ := hs
    obtain rfl : n = m := by omega
    refine ⟨10 * n + d, by omega, by omega, ?_⟩
    rw [hword d (by omega), padded_one (by omega)]
  · intro hs
    obtain ⟨n, hn, hn', rfl⟩ := hs
    obtain ⟨d, rfl⟩ := Nat.exists_eq_add_of_le (show 10 * m ≤ n by omega)
    refine ⟨_, ⟨m, le_rfl, Nat.lt_succ_self m, rfl⟩, _, ⟨d, by omega, by omega, rfl⟩, ?_⟩
    rw [hword d (by omega), padded_one (by omega)]

/-- Any last digit, after any of some words. -/
theorem interval_mul_digit {a : Nat} (b : Nat)
    (hword : ∀ m, a ≤ m → ∀ d < 10, word' (10 * m + d) = word m ++ [digit code d]) :
    interval word a b * fixed code 1 0 10 = interval word' (10 * a) (10 * b) := by
  ext s
  rw [Language.mem_mul, mem_interval]
  constructor
  · intro hs
    obtain ⟨x, ⟨n, hn, hn', rfl⟩, y, ⟨d, -, hd, rfl⟩, rfl⟩ := hs
    refine ⟨10 * n + d, by omega, by omega, ?_⟩
    rw [hword n hn d hd, padded_one hd]
  · intro hs
    obtain ⟨n, hn, hn', rfl⟩ := hs
    have hlast : n % 10 < 10 := Nat.mod_lt n (by omega)
    refine ⟨_, ⟨n / 10, by omega, by omega, rfl⟩, _, ⟨n % 10, by omega, hlast, rfl⟩, ?_⟩
    rw [padded_one hlast, ← hword (n / 10) (by omega) (n % 10) hlast, Nat.div_add_mod]

end Products

theorem fixed_mul_range (k m lo : Nat) {hi : Nat} (h : hi ≤ 10) :
    fixed code k m (m + 1) * fixed code 1 lo hi
      = fixed code (k + 1) (10 * m + lo) (10 * m + hi) :=
  interval_mul_range (fun _ hd => padded_succ k m hd) lo h

theorem fixed_mul_digit (k a b : Nat) :
    fixed code k a b * fixed code 1 0 10 = fixed code (k + 1) (10 * a) (10 * b) :=
  interval_mul_digit b fun m _ _ hd => padded_succ k m hd

theorem numerals_mul_range {m : Nat} (hm : 0 < m) (lo : Nat) {hi : Nat} (h : hi ≤ 10) :
    numerals code m (m + 1) * fixed code 1 lo hi = numerals code (10 * m + lo) (10 * m + hi) :=
  interval_mul_range (fun _ hd => numeral_snoc hm hd) lo h

theorem numerals_mul_digit {a : Nat} (ha : 0 < a) (b : Nat) :
    numerals code a b * fixed code 1 0 10 = numerals code (10 * a) (10 * b) :=
  interval_mul_digit b fun _ hm _ hd => numeral_snoc (lt_of_lt_of_le ha hm) hd

theorem numerals_mul_pow {a : Nat} (ha : 0 < a) (b j : Nat) :
    numerals code a b * fixed code 1 0 10 ^ j = numerals code (a * 10 ^ j) (b * 10 ^ j) := by
  have hten : ∀ c j, 10 * (c * 10 ^ j) = c * 10 ^ (j + 1) := by
    intro c j
    rw [pow_succ, mul_comm 10, mul_assoc]
  induction j with
  | zero => simp
  | succ j ih =>
      have hpos : 0 < a * 10 ^ j := Nat.mul_pos ha (Nat.pow_pos (by omega))
      calc numerals code a b * fixed code 1 0 10 ^ (j + 1)
          = numerals code a b * fixed code 1 0 10 ^ j * fixed code 1 0 10 := by
            rw [pow_succ, mul_assoc]
        _ = numerals code (10 * (a * 10 ^ j)) (10 * (b * 10 ^ j)) := by
            rw [ih, numerals_mul_digit hpos]
        _ = numerals code (a * 10 ^ (j + 1)) (b * 10 ^ (j + 1)) := by
            rw [hten, hten]

/-! ### Putting intervals together -/

theorem interval_add (word : Nat → List α) {a b c : Nat} (hab : a ≤ b) (hbc : b ≤ c) :
    interval word a b + interval word b c = interval word a c := by
  ext s
  rw [Language.mem_add, mem_interval, mem_interval, mem_interval]
  constructor
  · intro hs
    obtain ⟨n, hn, hn', rfl⟩ | ⟨n, hn, hn', rfl⟩ := hs
    · exact ⟨n, hn, by omega, rfl⟩
    · exact ⟨n, by omega, hn', rfl⟩
  · intro hs
    obtain ⟨n, hn, hn', rfl⟩ := hs
    by_cases hb : n < b
    · exact Or.inl ⟨n, hn, hb, rfl⟩
    · exact Or.inr ⟨n, Nat.not_lt.mp hb, hn', rfl⟩

/-- A single digit is a numeral. -/
theorem fixed_one (a : Nat) {b : Nat} (hb : b ≤ 10) : fixed code 1 a b = numerals code a b := by
  have hsame : ∀ n < b, padded code 1 n = numeral code n := by
    intro n hn
    rw [padded_one (by omega), numeral_of_lt (by omega)]
  ext s
  rw [mem_interval, mem_interval]
  constructor
  · intro hs
    obtain ⟨n, ha, hn, rfl⟩ := hs
    exact ⟨n, ha, hn, hsame n hn⟩
  · intro hs
    obtain ⟨n, ha, hn, rfl⟩ := hs
    exact ⟨n, ha, hn, (hsame n hn).symm⟩

end CloudMeeting.Numerals
