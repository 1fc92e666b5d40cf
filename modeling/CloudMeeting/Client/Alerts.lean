/-
Who is alerted by a mention.

A member plays a sound when a text that comes in contains an `@` and then its own address.
Nothing says that the address has to end there: a mention of `10.0.0.12` contains one of
`10.0.0.1`.  `alerts_iff` says who is alerted by a text with mentions: whoever has the
address of one of them, or that address with some of its last digits left out.
-/
import CloudMeeting.Client.Mentions

namespace CloudMeeting.Client

open Numerals
open Address (QString unit numeral_spells)
open TextEdit (atSign)

/-! ### Marks in a list -/

section Marks

variable {α : Type} {x : α} {s s' t t' : List α}

/-- Where neither part contains the mark, both end at the same mark. -/
theorem prefix_mark_iff (hs : x ∉ s) (hs' : x ∉ s') :
    s ++ x :: t <+: s' ++ x :: t' ↔ s = s' ∧ t <+: t' := by
  induction s generalizing s' with
  | nil =>
      cases s' with
      | nil => simp
      | cons b s' =>
          have hne : x ≠ b := fun heq => hs' (heq ▸ List.mem_cons_self)
          simp [hne]
  | cons a s ih =>
      cases s' with
      | nil =>
          have hne : a ≠ x := fun heq => hs (heq ▸ List.mem_cons_self)
          simp [hne]
      | cons b s' =>
          have hrest := ih (fun h => hs (List.mem_cons_of_mem a h))
            (fun h => hs' (List.mem_cons_of_mem b h))
          rw [List.cons_append, List.cons_append, List.cons_prefix_cons, hrest]
          simp [and_assoc]

/-- A list without the head of what follows does not reach into it. -/
theorem prefix_append_iff (h : ∀ c, t.head? = some c → c ∉ s) : s <+: s' ++ t ↔ s <+: s' := by
  induction s' generalizing s with
  | nil =>
      cases s with
      | nil => simp
      | cons a s =>
          cases t with
          | nil => simp
          | cons c t =>
              have hne : a ≠ c := fun heq => h c rfl (heq ▸ List.mem_cons_self)
              simp [hne]
  | cons b s' ih =>
      cases s with
      | nil => simp
      | cons a s =>
          have hrest := ih fun c hc hmem => h c hc (List.mem_cons_of_mem a hmem)
          rw [List.cons_append, List.cons_prefix_cons, List.cons_prefix_cons, hrest]

theorem infix_append_iff (hs : x ∉ s') : x :: s <:+: s' ++ t ↔ x :: s <:+: t := by
  induction s' with
  | nil => rfl
  | cons b s' ih =>
      have hne : x ≠ b := fun heq => hs (heq ▸ List.mem_cons_self)
      rw [List.cons_append, List.infix_cons_iff, List.cons_prefix_cons,
        ih fun hmem => hs (List.mem_cons_of_mem b hmem)]
      simp [hne]

/-- Where every mark begins a part, a list with a mark in front is found at one of them. -/
theorem infix_parts_iff (hs : x ∉ s) {front : List α} (hfront : x ∉ front) {parts : List (List α)}
    (hparts : ∀ part ∈ parts, x ∉ part) :
    x :: s <:+: front ++ parts.flatMap (x :: ·) ↔ ∃ part ∈ parts, s <+: part := by
  rw [infix_append_iff hfront]
  induction parts with
  | nil => simp
  | cons part parts ih =>
      have hnext : ∀ c, (parts.flatMap (x :: ·)).head? = some c → c ∉ s := by
        intro c hc
        cases parts with
        | nil => simp at hc
        | cons other parts =>
            obtain rfl : x = c := by simpa using hc
            exact hs
      rw [List.flatMap_cons, List.cons_append, List.infix_cons_iff, List.cons_prefix_cons,
        prefix_append_iff hnext, infix_append_iff (hparts part List.mem_cons_self),
        ih fun other hother => hparts other (List.mem_cons_of_mem part hother)]
      simp

end Marks

/-! ### Addresses and numerals -/

/-- `QHostAddress(ip).toString()`. -/
def dotted (ip : UInt32) : QString :=
  numeral unit (ip.toNat / 2 ^ 24) ++ unit '.' :: (numeral unit (ip.toNat / 2 ^ 16 % 256) ++
    unit '.' :: (numeral unit (ip.toNat / 2 ^ 8 % 256) ++
      unit '.' :: numeral unit (ip.toNat % 256)))

/-- The tag that stands for a member in a text. -/
def atTag (ip : UInt32) : QString := atSign :: dotted ip

/-- `handle_text_recv` plays a sound. -/
def alerts (localIp : UInt32) (str : QString) : Bool := decide (atTag localIp <:+: str)

theorem numeral_inj {m n : Nat} : numeral unit m = numeral unit n ↔ m = n := by
  constructor
  · intro h
    rw [← (numeral_spells m).value, h, (numeral_spells n).value]
  · rintro rfl
    rfl

theorem not_mem_numeral {c : UInt16} (h : Address.isDigit c = false) (n : Nat) :
    c ∉ numeral unit n := by
  intro hmem
  rw [(numeral_spells n).digits c hmem] at h
  simp at h

theorem numeral_prefix_digit {m n : Nat} (hn : n < 10) :
    numeral unit m <+: numeral unit n ↔ m = n := by
  constructor
  · intro h
    rw [numeral_of_lt hn] at h
    have hlength := h.length_le
    rw [List.length_singleton] at hlength
    have hpos := List.length_pos_of_ne_nil (numeral_spells m).nonempty
    have heq := h.eq_of_length (by rw [List.length_singleton]; omega)
    rwa [← numeral_of_lt hn, numeral_inj] at heq
  · rintro rfl
    exact List.prefix_refl _

/-- A numeral begins with another one where that is what is left when digits are taken off. -/
theorem numeral_prefix_iff (m n : Nat) :
    numeral unit m <+: numeral unit n ↔ ∃ k, n / 10 ^ k = m ∧ (m = 0 → n = 0) := by
  induction n using Nat.strong_induction_on with
  | _ n ih =>
      by_cases hn : n < 10
      · rw [numeral_prefix_digit hn]
        constructor
        · rintro rfl
          exact ⟨0, by simp, id⟩
        · rintro ⟨k, hk, hzero⟩
          cases k with
          | zero => simpa using hk.symm
          | succ k =>
              have hle : 10 ≤ 10 ^ (k + 1) := Nat.le_self_pow (by omega) 10
              rw [Nat.div_eq_of_lt (by omega)] at hk
              omega
      · obtain ⟨q, d, hd, rfl⟩ : ∃ q d, d < 10 ∧ n = 10 * q + d :=
          ⟨n / 10, n % 10, Nat.mod_lt n (by omega), by omega⟩
        have hq : 0 < q := by omega
        have hdrop : ∀ k, (10 * q + d) / 10 ^ (k + 1) = q / 10 ^ k := by
          intro k
          have htens : (10 * q + d) / 10 = q := by omega
          rw [pow_succ', ← Nat.div_div_eq_div_mul, htens]
        rw [numeral_snoc hq hd, List.prefix_concat_iff, ← numeral_snoc hq hd, numeral_inj,
          ih q (by omega)]
        constructor
        · rintro (rfl | ⟨k, hk, hzero⟩)
          · exact ⟨0, by simp, id⟩
          · exact ⟨k + 1, by rw [hdrop, hk], fun hm => absurd (hzero hm) (by omega)⟩
        · rintro ⟨k, hk, hzero⟩
          cases k with
          | zero => exact Or.inl (by simpa using hk.symm)
          | succ k => exact Or.inr ⟨k, by rw [← hdrop, hk], fun hm => by have := hzero hm; omega⟩

/-! ### Who is alerted -/

/-- The address of a member, or one that becomes it when digits are added behind. -/
def Shortened (mine ip : UInt32) : Prop :=
  mine.toNat / 256 = ip.toNat / 256 ∧
    ∃ k, ip.toNat % 256 / 10 ^ k = mine.toNat % 256 ∧ (mine.toNat % 256 = 0 → ip.toNat % 256 = 0)

/-- An address is found in front of another one, and of what follows it, where the last digits of
the other one are left out; what follows does not lengthen it. -/
theorem dotted_prefix_iff (mine ip : UInt32) {rest : QString}
    (h : ∀ c, rest.head? = some c → Address.isDigit c = false) :
    dotted mine <+: dotted ip ++ rest ↔ Shortened mine ip := by
  have hdot : Address.isDigit (unit '.') = false := by decide
  have hend : ∀ c, rest.head? = some c → c ∉ numeral unit (mine.toNat % 256) :=
    fun c hc => not_mem_numeral (h c hc) _
  unfold dotted Shortened
  simp only [List.append_assoc, List.cons_append]
  rw [prefix_mark_iff (not_mem_numeral hdot _) (not_mem_numeral hdot _),
    prefix_mark_iff (not_mem_numeral hdot _) (not_mem_numeral hdot _),
    prefix_mark_iff (not_mem_numeral hdot _) (not_mem_numeral hdot _),
    prefix_append_iff hend, numeral_inj, numeral_inj, numeral_inj, numeral_prefix_iff]
  have hmine := mine.toNat_lt
  have hip := ip.toNat_lt
  constructor
  · rintro ⟨h₁, h₂, h₃, hlast⟩
    exact ⟨by omega, hlast⟩
  · rintro ⟨hfront, hlast⟩
    exact ⟨by omega, by omega, by omega, hlast⟩

theorem atSign_not_mem_dotted (ip : UInt32) : atSign ∉ dotted ip := by
  have hat : Address.isDigit atSign = false := by decide
  have hdot : atSign ≠ unit '.' := by decide
  simp [dotted, not_mem_numeral hat, hdot]

/-- A text with mentions in it. -/
def withMentions (front : QString) (mentions : List (UInt32 × QString)) : QString :=
  front ++ mentions.flatMap fun m => atTag m.1 ++ m.2

/-- **Who is alerted by a text**: those it mentions, and those whose address is a mentioned one
without some of its last digits. -/
theorem alerts_iff (mine : UInt32) {front : QString} (hfront : atSign ∉ front)
    {mentions : List (UInt32 × QString)} (hplain : ∀ m ∈ mentions, atSign ∉ m.2)
    (hends : ∀ m ∈ mentions, ∀ c, m.2.head? = some c → Address.isDigit c = false) :
    alerts mine (withMentions front mentions) = true ↔ ∃ m ∈ mentions, Shortened mine m.1 := by
  have hparts : withMentions front mentions
      = front ++ (mentions.map fun m => dotted m.1 ++ m.2).flatMap (atSign :: ·) := by
    rw [withMentions, List.flatMap_map]
    rfl
  have hmarks : ∀ part ∈ mentions.map (fun m => dotted m.1 ++ m.2), atSign ∉ part := by
    intro part hpart
    obtain ⟨m, hm, rfl⟩ := List.mem_map.mp hpart
    rw [List.mem_append, not_or]
    exact ⟨atSign_not_mem_dotted m.1, hplain m hm⟩
  rw [alerts, decide_eq_true_eq, hparts, atTag,
    infix_parts_iff (atSign_not_mem_dotted mine) hfront hmarks]
  simp only [List.mem_map, exists_exists_and_eq_and]
  constructor
  · rintro ⟨m, hm, hprefix⟩
    exact ⟨m, hm, (dotted_prefix_iff mine m.1 (hends m hm)).mp hprefix⟩
  · rintro ⟨m, hm, hshort⟩
    exact ⟨m, hm, (dotted_prefix_iff mine m.1 (hends m hm)).mpr hshort⟩

/-- A mention of 10.0.0.12, with a space behind it, alerts 10.0.0.1. -/
theorem alerts_iff_sample :
    alerts 0x0a000001 (withMentions [] [(0x0a00000c, [TextEdit.space])]) = true := by
  have hends : ∀ m ∈ [((0x0a00000c : UInt32), [TextEdit.space])], ∀ c,
      m.2.head? = some c → Address.isDigit c = false := by
    intro m hm c hc
    obtain rfl := List.mem_singleton.mp hm
    obtain rfl := Option.some.inj hc
    decide
  refine (alerts_iff 0x0a000001 (by simp) (by decide) hends).mpr ?_
  exact ⟨_, List.mem_singleton_self _, by decide, 1, by decide, by decide⟩

end CloudMeeting.Client
