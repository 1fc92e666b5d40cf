/-
The text editor of the chat, and its mentions.

`MyTextEdit` is an editor in which a member can be mentioned.  `ipspan` holds where in
the text the mentions are, and `eventFilter` takes the Backspace and Delete keys before
the editor does, to remove a mention as a whole.  `exact_iff` says when it does just
that: only for a Backspace at the very end of a mention with no other mention behind it.
From inside a mention one character more is removed, or nothing, and the mentions behind
are left where they were.

What a key does to a text has nothing to do with what its characters are, so an editor
is generic in them; which characters are removed can then be read off a text whose
characters carry their places (`labelled`).
-/
import CloudMeeting.Lib.Run
import Mathlib.Data.List.InsertIdx

namespace CloudMeeting.Client.TextEdit

/-! ### The editor -/

/-- A range of the text, with what was inserted for it; nothing reads the latter. -/
structure Mention (α : Type) where
  first : Nat
  second : Nat
  block : List α
deriving DecidableEq, Repr

structure Editor (α : Type) where
  text : List α := []
  /-- `edit->textCursor().position()`. -/
  cursor : Nat := 0
  ipspan : List (Mention α) := []
  /-- The prefix that was completed last, once there is a completer. -/
  completionPrefix : Option (List α) := none
deriving DecidableEq, Repr

/-- The text from one position to another. -/
def slice {α : Type} (text : List α) (first second : Nat) : List α :=
  (text.drop first).take (second - first)

inductive Key where
  | backspace
  | delete
  | other
deriving DecidableEq, Repr

namespace Mention

variable {α : Type}

/-- The key would remove a character of the mention. -/
def hit (m : Mention α) (key : Key) (p : Nat) : Bool :=
  (key = .backspace ∧ m.first < p ∧ p ≤ m.second) ∨
    (key = .delete ∧ m.first ≤ p ∧ p < m.second)

def slice (m : Mention α) (text : List α) : List α := TextEdit.slice text m.first m.second

end Mention

namespace Editor

variable {α : Type}

/-- Positions behind the end of the text are ignored. -/
def setCursor (e : Editor α) (p : Nat) : Editor α :=
  { e with cursor := if p ≤ e.text.length then p else e.cursor }

/-- Where the selection that is removed with a mention ends, the cursor having been at `p`. -/
def selectionEnd (text : List α) (m : Mention α) (p : Nat) : Nat :=
  let target := if p = m.second then m.second else m.second + 1
  if target ≤ text.length then target else m.first

/-- `removeSelectedText`; a cursor inside or behind moves along. -/
def removeSelected (e : Editor α) (first second : Nat) : Editor α :=
  { e with
    text := e.text.take first ++ e.text.drop second
    cursor :=
      if e.cursor ≤ first then e.cursor
      else if e.cursor < second then first
      else e.cursor - (second - first) }

def eventFilterLoop (key : Key) (p : Nat) : Nat → List (Mention α) → Editor α → Editor α × Bool
  | _, [], e => (e, false)
  | i, m :: rest, e =>
      if m.hit key p then
        let e := e.removeSelected m.first (selectionEnd e.text m p)
        ({ e with ipspan := e.ipspan.eraseIdx i }, true)
      else if m.first ≤ p ∧ p ≤ m.second then
        eventFilterLoop key p (i + 1) rest (e.setCursor m.second)
      else eventFilterLoop key p (i + 1) rest e

/-- `eventFilter`, for a key pressed in the editor, and whether the key has been dealt with. -/
def eventFilter (key : Key) (e : Editor α) : Editor α × Bool :=
  eventFilterLoop key e.cursor 0 e.ipspan e

end Editor

/-! ### Slices -/

section Slices

variable {α : Type} {text : List α} {first second : Nat}

theorem slice_eq_nil (h : second ≤ first) : slice text first second = [] := by
  simp [slice, h]

theorem getElem?_slice {k : Nat} (h : first + k < second) :
    (slice text first second)[k]? = text[first + k]? := by
  rw [slice, List.getElem?_take, if_pos (by omega), List.getElem?_drop]

/-- Texts that agree up to a position have the same slices there. -/
theorem slice_congr {text' : List α} (h : text'.take second = text.take second) :
    slice text' first second = slice text first second := by
  rw [slice, slice, ← List.drop_take, ← List.drop_take, h]

end Slices

/-! ### A key that hits a mention -/

/-- No character is in two of the mentions, and all of them are in the text. -/
structure Laid {α : Type} (e : Editor α) : Prop where
  inside : ∀ m ∈ e.ipspan, m.first ≤ m.second ∧ m.second ≤ e.text.length
  disjoint : e.ipspan.Pairwise fun m n =>
    ∀ k, ¬ ((m.first ≤ k ∧ k < m.second) ∧ n.first ≤ k ∧ k < n.second)

namespace Mention

variable {α : Type} {m n : Mention α} {key : Key} {p : Nat}

/-- A key that hits a mention is about one of its characters. -/
theorem exists_of_hit (h : m.hit key p = true) (h' : n.hit key p = true) :
    ∃ k, (m.first ≤ k ∧ k < m.second) ∧ n.first ≤ k ∧ k < n.second := by
  simp only [hit, decide_eq_true_eq] at h h'
  cases key with
  | backspace => exact ⟨p - 1, by simp at h h'; omega⟩
  | delete => exact ⟨p, by simp at h h'; omega⟩
  | other => simp at h

theorem bounds_of_hit (h : m.hit key p = true) : m.first ≤ p ∧ p ≤ m.second ∧
    m.first < m.second := by
  simp only [hit, decide_eq_true_eq] at h
  omega

end Mention

namespace Editor

variable {α : Type} {key : Key} {p : Nat} {m : Mention α}

/-- The first mention that is hit is removed; those before it only move the cursor. -/
theorem loop_hit (hhit : m.hit key p = true) (before after : List (Mention α))
    (hbefore : ∀ n ∈ before, n.hit key p = false) {passed : List (Mention α)} {e : Editor α}
    (hspans : e.ipspan = passed ++ (before ++ m :: after)) :
    ∃ cursor, eventFilterLoop key p passed.length (before ++ m :: after) e =
      ({ e with
          text := e.text.take m.first ++ e.text.drop (selectionEnd e.text m p)
          cursor := cursor
          ipspan := passed ++ (before ++ after) }, true) := by
  induction before generalizing passed e with
  | nil =>
      rw [List.nil_append] at hspans ⊢
      rw [eventFilterLoop, if_pos hhit]
      have herase : e.ipspan.eraseIdx passed.length = passed ++ after := by
        rw [hspans, List.eraseIdx_append_of_length_le (Nat.le_refl _), Nat.sub_self,
          List.eraseIdx_zero, List.tail_cons]
      refine ⟨(e.removeSelected m.first (selectionEnd e.text m p)).cursor, ?_⟩
      simp only [removeSelected, herase, List.nil_append]
  | cons n before ih =>
      have hn := hbefore n List.mem_cons_self
      have hlater : ∀ n' ∈ before, n'.hit key p = false := by
        intro n' hn'
        exact hbefore n' (List.mem_cons_of_mem n hn')
      have hpassed : passed ++ (n :: before ++ m :: after)
          = (passed ++ [n]) ++ (before ++ m :: after) := by simp
      have hlength : passed.length + 1 = (passed ++ [n]).length := by simp
      rw [List.cons_append, eventFilterLoop, if_neg (by simp [hn]), hlength]
      split
      · have hmoved : (e.setCursor n.second).ipspan
            = (passed ++ [n]) ++ (before ++ m :: after) := hspans.trans hpassed
        obtain ⟨cursor, hcursor⟩ := ih hlater hmoved
        refine ⟨cursor, ?_⟩
        rw [hcursor]
        simp [setCursor]
      · obtain ⟨cursor, hcursor⟩ := ih hlater (hspans.trans hpassed)
        refine ⟨cursor, ?_⟩
        rw [hcursor]
        simp

theorem split_of_getElem? {l : List (Mention α)} {i : Nat} (h : l[i]? = some m) :
    l = l.take i ++ m :: l.drop (i + 1) := by
  obtain ⟨hi, hget⟩ := List.getElem?_eq_some_iff.mp h
  rw [← hget, ← List.drop_eq_getElem_cons hi, List.take_append_drop]

/-- **What a key does that hits a mention**: the mention is dropped, and the text from its start to
the end of the selection. -/
theorem eventFilter_hit {e : Editor α} (hlaid : Laid e) {i : Nat} (hm : e.ipspan[i]? = some m)
    (hhit : m.hit key e.cursor = true) :
    ∃ cursor, e.eventFilter key =
      ({ e with
          text := e.text.take m.first ++ e.text.drop (selectionEnd e.text m e.cursor)
          cursor := cursor
          ipspan := e.ipspan.eraseIdx i }, true) := by
  have hsplit := split_of_getElem? hm
  -- no mention before this one shares the character with it
  have hbefore : ∀ n ∈ e.ipspan.take i, n.hit key e.cursor = false := by
    intro n hn
    have hpairs := hlaid.disjoint
    rw [hsplit, List.pairwise_append] at hpairs
    by_contra hother
    rw [Bool.not_eq_false] at hother
    obtain ⟨k, hk⟩ := Mention.exists_of_hit hother hhit
    exact hpairs.2.2 n hn m List.mem_cons_self k hk
  have hspans : e.ipspan = [] ++ (e.ipspan.take i ++ m :: e.ipspan.drop (i + 1)) := hsplit
  obtain ⟨cursor, hcursor⟩ := loop_hit hhit _ _ hbefore hspans
  refine ⟨cursor, ?_⟩
  rw [← hsplit] at hcursor
  rw [eventFilter, List.eraseIdx_eq_take_drop_succ]
  exact hcursor

end Editor

/-! ### Texts with places -/

section Labels

variable {α β : Type}

def Mention.map (f : α → β) (m : Mention α) : Mention β := ⟨m.first, m.second, m.block.map f⟩

namespace Editor

def map (f : α → β) (e : Editor α) : Editor β where
  text := e.text.map f
  cursor := e.cursor
  ipspan := e.ipspan.map (Mention.map f)
  completionPrefix := e.completionPrefix.map (List.map f)

/-- Every character with its place in the text. -/
def labelled (e : Editor α) : Editor (α × Nat) where
  text := e.text.zipIdx
  cursor := e.cursor
  ipspan := e.ipspan.map fun m => ⟨m.first, m.second, m.block.zipIdx⟩
  completionPrefix := e.completionPrefix.map List.zipIdx

theorem map_labelled (e : Editor α) : e.labelled.map Prod.fst = e := by
  obtain ⟨text, cursor, ipspan, completionPrefix⟩ := e
  simp only [labelled, map, List.zipIdx_map_fst, List.map_map, Option.map_map]
  congr 1
  · refine (List.map_congr_left fun m _ => ?_).trans (List.map_id ipspan)
    simp [Mention.map]
  · cases completionPrefix with
    | none => rfl
    | some l => exact congrArg some (List.zipIdx_map_fst 0 l)

theorem map_removeSelected (f : α → β) (e : Editor α) (first second : Nat) :
    (e.map f).removeSelected first second = (e.removeSelected first second).map f := by
  simp only [removeSelected, map, List.map_append, List.map_take, List.map_drop]
  rfl

theorem map_setCursor (f : α → β) (e : Editor α) (p : Nat) :
    (e.map f).setCursor p = (e.setCursor p).map f := by
  simp only [setCursor, map, List.length_map]

theorem selectionEnd_map (f : α → β) (text : List α) (m : Mention α) (p : Nat) :
    selectionEnd (text.map f) (m.map f) p = selectionEnd text m p := by
  unfold selectionEnd
  rw [List.length_map]
  rfl

theorem loop_map (f : α → β) (key : Key) (p i : Nat) (spans : List (Mention α)) (e : Editor α) :
    eventFilterLoop key p i (spans.map (Mention.map f)) (e.map f)
      = ((eventFilterLoop key p i spans e).1.map f, (eventFilterLoop key p i spans e).2) := by
  induction spans generalizing i e with
  | nil => rfl
  | cons m spans ih =>
      have hhit : (m.map f).hit key p = m.hit key p := rfl
      rw [List.map_cons, eventFilterLoop, eventFilterLoop, hhit]
      by_cases hm : m.hit key p = true
      · rw [if_pos hm, if_pos hm]
        have hend : selectionEnd (e.map f).text (m.map f) p = selectionEnd e.text m p :=
          selectionEnd_map f e.text m p
        rw [hend]
        simp only [Mention.map, map_removeSelected]
        simp [map, removeSelected, List.eraseIdx_map]
      · rw [if_neg hm, if_neg hm]
        by_cases hin : m.first ≤ p ∧ p ≤ m.second
        · rw [if_pos hin, if_pos (show (m.map f).first ≤ p ∧ p ≤ (m.map f).second from hin), ← ih,
            ← map_setCursor]
          rfl
        · rw [if_neg hin, if_neg (show ¬ ((m.map f).first ≤ p ∧ p ≤ (m.map f).second) from hin), ih]

/-- **A key does to the characters what it does to their places.** -/
theorem eventFilter_labelled (key : Key) (e : Editor α) :
    ((e.labelled.eventFilter key).1.map Prod.fst, (e.labelled.eventFilter key).2)
      = e.eventFilter key := by
  have hmap := loop_map Prod.fst key e.cursor 0 e.labelled.ipspan e.labelled
  have hspans : e.labelled.ipspan.map (Mention.map Prod.fst) = e.ipspan :=
    congrArg ipspan e.map_labelled
  rw [hspans, map_labelled] at hmap
  exact hmap.symm

end Editor

end Labels

/-! ### When a mention is removed exactly -/

section Removal

variable {β : Type} {text : List β} {first second : Nat}

theorem getElem?_removed {k : Nat} (hle : first ≤ second) (hlength : second ≤ text.length)
    (hk : first ≤ k) :
    (text.take first ++ text.drop second)[k]? = text[k + (second - first)]? := by
  have htake : (text.take first).length = first := by
    rw [List.length_take]
    omega
  rw [List.getElem?_append_right (by omega), htake, List.getElem?_drop]
  congr 1
  omega

/-- What is removed is what lies up to where the selection ends. -/
theorem removed_eq_iff {stop : Nat} (hstop : stop ≤ text.length) (hlength : second ≤ text.length) :
    text.take first ++ text.drop stop = text.take first ++ text.drop second ↔ stop = second := by
  constructor
  · intro hsame
    have hlengths := congrArg List.length (List.append_cancel_left hsame)
    rw [List.length_drop, List.length_drop] at hlengths
    omega
  · intro hsame
    rw [hsame]

/-- Where no character occurs twice, a slice that does not share any with those removed is the
same afterwards exactly if it lies before them. -/
theorem slice_removed_iff
    (hinj : ∀ (k l : Nat) (x : β), text[k]? = some x → text[l]? = some x → k = l) {c d : Nat}
    (hlt : first < second) (hlength : second ≤ text.length) (hcd : c < d) (hd : d ≤ text.length)
    (hdisjoint : ∀ k, ¬ ((first ≤ k ∧ k < second) ∧ c ≤ k ∧ k < d)) :
    slice (text.take first ++ text.drop second) c d = slice text c d ↔ d ≤ first := by
  constructor
  · intro hsame
    by_contra hbehind
    have hc : second ≤ c := by
      by_contra hbefore
      exact hdisjoint (max first c) (by omega)
    have hfirst := congrArg (fun l => l[0]?) hsame
    simp only [getElem?_slice (show c + 0 < d from hcd), Nat.add_zero] at hfirst
    rw [getElem?_removed (by omega) hlength (by omega)] at hfirst
    obtain ⟨x, hget⟩ : ∃ x, text[c]? = some x := ⟨_, List.getElem?_eq_getElem (by omega)⟩
    rw [hget] at hfirst
    have hplaces := hinj _ _ _ hfirst hget
    omega
  · intro hbefore
    refine slice_congr ?_
    rw [List.take_append_of_le_length (by rw [List.length_take]; omega), List.take_take,
      Nat.min_eq_left hbefore]

end Removal

namespace Editor

variable {α : Type} {key : Key} {m : Mention α} {e : Editor α}

/-- The key removes the characters of the mention and no others, and the mention; the other
mentions are for the characters they were for before. -/
structure Exact (e : Editor α) (key : Key) (m : Mention α) (i : Nat) : Prop where
  removed : (e.labelled.eventFilter key).1.text
    = e.labelled.text.take m.first ++ e.labelled.text.drop m.second
  others : (e.labelled.eventFilter key).1.ipspan.map
      (fun n => n.slice (e.labelled.eventFilter key).1.text)
    = (e.labelled.ipspan.eraseIdx i).map fun n => n.slice e.labelled.text

theorem laid_labelled (h : Laid e) : Laid e.labelled := by
  constructor
  · intro n hn
    obtain ⟨n', hn', rfl⟩ := List.mem_map.mp hn
    simpa [labelled] using h.inside n' hn'
  · exact List.pairwise_map.mpr h.disjoint

/-- No two places are the same. -/
theorem labelled_inj (text : List α) (k l : Nat) (x : α × Nat) (hk : text.zipIdx[k]? = some x)
    (hl : text.zipIdx[l]? = some x) : k = l := by
  rw [List.getElem?_zipIdx, Option.map_eq_some_iff] at hk hl
  obtain ⟨c, -, rfl⟩ := hk
  obtain ⟨c', -, hsame⟩ := hl
  have hplace := congrArg Prod.snd hsame
  simp only [Nat.zero_add] at hplace
  exact hplace.symm

theorem selectionEnd_spec {text : List α} {p : Nat} (hlt : m.first < m.second)
    (hlength : m.second ≤ text.length) :
    selectionEnd text m p ≤ text.length ∧ (selectionEnd text m p = m.second ↔ p = m.second) := by
  unfold selectionEnd
  simp only []
  by_cases hp : p = m.second
  · rw [if_pos hp, if_pos hlength]
    exact ⟨hlength, iff_of_true rfl hp⟩
  · rw [if_neg hp]
    split
    · exact ⟨by assumption, iff_of_false (by omega) hp⟩
    · exact ⟨by omega, iff_of_false (by omega) hp⟩

/-- A mention shares no character with the others. -/
theorem disjoint_of_mem_eraseIdx (hlaid : Laid e) {i : Nat} (hm : e.ipspan[i]? = some m)
    {n : Mention α} (hn : n ∈ e.ipspan.eraseIdx i) :
    ∀ k, ¬ ((m.first ≤ k ∧ k < m.second) ∧ n.first ≤ k ∧ k < n.second) := by
  have hpairs := hlaid.disjoint
  rw [split_of_getElem? hm, List.pairwise_append, List.pairwise_cons] at hpairs
  obtain ⟨-, ⟨hafter, -⟩, hacross⟩ := hpairs
  rw [List.eraseIdx_eq_take_drop_succ, List.mem_append] at hn
  obtain hbefore | hbehind := hn
  · intro k hk
    exact hacross n hbefore m List.mem_cons_self k ⟨hk.2, hk.1⟩
  · exact hafter n hbehind

theorem second_le_labelled (hlaid : Laid e) (hm : m ∈ e.ipspan) :
    m.second ≤ e.labelled.text.length := by
  simpa [labelled] using (hlaid.inside m hm).2

theorem eraseIdx_labelled (e : Editor α) (i : Nat) : e.labelled.ipspan.eraseIdx i
    = (e.ipspan.eraseIdx i).map fun n => ⟨n.first, n.second, n.block.zipIdx⟩ :=
  List.eraseIdx_map _ _ _

/-- What the key does to the places of the characters. -/
theorem labelled_hit {i : Nat} (hlaid : Laid e) (hm : e.ipspan[i]? = some m)
    (hhit : m.hit key e.cursor = true) :
    (e.labelled.eventFilter key).1.text = e.labelled.text.take m.first
        ++ e.labelled.text.drop
          (selectionEnd e.labelled.text ⟨m.first, m.second, m.block.zipIdx⟩ e.cursor) ∧
      (e.labelled.eventFilter key).1.ipspan = e.labelled.ipspan.eraseIdx i := by
  have hm' : e.labelled.ipspan[i]? = some ⟨m.first, m.second, m.block.zipIdx⟩ := by
    simp [labelled, hm]
  obtain ⟨cursor, hrun⟩ := eventFilter_hit (laid_labelled hlaid) hm' hhit
  rw [hrun]
  exact ⟨rfl, rfl⟩

/-- Another mention is for the characters it was for exactly if it lies before the one removed. -/
theorem other_iff {i : Nat} (hlaid : Laid e) (hm : e.ipspan[i]? = some m)
    (hhit : m.hit key e.cursor = true) {n : Mention α} (hn : n ∈ e.ipspan.eraseIdx i)
    (hne : n.first < n.second) :
    slice (e.labelled.text.take m.first ++ e.labelled.text.drop m.second) n.first n.second
      = slice e.labelled.text n.first n.second ↔ n.second ≤ m.first := by
  obtain ⟨-, -, hlt⟩ := Mention.bounds_of_hit hhit
  have hlength := second_le_labelled hlaid (List.mem_of_getElem? hm)
  have hinside := second_le_labelled hlaid (List.mem_of_mem_eraseIdx hn)
  exact slice_removed_iff (labelled_inj e.text) hlt hlength hne hinside
    (disjoint_of_mem_eraseIdx hlaid hm hn)

/-- **When a key removes a mention exactly**, and leaves the other mentions what they were: when the
cursor is at its end, and no other mention is behind it. -/
theorem exact_iff (e : Editor α) (key : Key) (m : Mention α) (i : Nat) (hlaid : Laid e)
    (hm : e.ipspan[i]? = some m) (hhit : m.hit key e.cursor = true) :
    Exact e key m i ↔ e.cursor = m.second ∧
      ∀ n ∈ e.ipspan.eraseIdx i, n.first < n.second → n.second ≤ m.first := by
  obtain ⟨-, -, hlt⟩ := Mention.bounds_of_hit hhit
  have hlength := second_le_labelled hlaid (List.mem_of_getElem? hm)
  obtain ⟨htext, hipspan⟩ := labelled_hit hlaid hm hhit
  obtain ⟨hstop, hend⟩ := selectionEnd_spec (m := ⟨m.first, m.second, m.block.zipIdx⟩)
    (p := e.cursor) hlt hlength
  constructor
  · intro hexact
    have hremoved := hexact.removed
    rw [htext, removed_eq_iff hstop hlength, hend] at hremoved
    refine ⟨hremoved, fun n hn hne => (other_iff hlaid hm hhit hn hne).mp ?_⟩
    have hsame := hexact.others
    rw [hexact.removed, hipspan, eraseIdx_labelled, List.map_map, List.map_map] at hsame
    exact List.map_inj_left.mp hsame n hn
  · intro h
    obtain ⟨hcursor, hbefore⟩ := h
    have hremoved : (e.labelled.eventFilter key).1.text
        = e.labelled.text.take m.first ++ e.labelled.text.drop m.second := by
      rw [htext, removed_eq_iff hstop hlength]
      exact hend.mpr hcursor
    refine ⟨hremoved, ?_⟩
    rw [hremoved, hipspan, eraseIdx_labelled, List.map_map, List.map_map]
    refine List.map_congr_left fun n hn => ?_
    by_cases hne : n.first < n.second
    · exact (other_iff hlaid hm hhit hn hne).mpr (hbefore n hn hne)
    · have hempty := Nat.le_of_not_lt hne
      exact (slice_eq_nil hempty).trans (slice_eq_nil hempty).symm

def firstMention : Mention Char := ⟨3, 6, ['@', '1', ' ']⟩

def secondMention : Mention Char := ⟨6, 9, ['@', '2', ' ']⟩

/-- A text that ends with two mentions. -/
def sampleEditor (cursor : Nat) : Editor Char where
  text := ['h', 'i', ' ', '@', '1', ' ', '@', '2', ' ']
  cursor := cursor
  ipspan := [firstMention, secondMention]

theorem laid_sample (cursor : Nat) : Laid (sampleEditor cursor) := by
  constructor
  · simp [sampleEditor, firstMention, secondMention]
  · simp only [sampleEditor, firstMention, secondMention, List.pairwise_cons, List.mem_singleton,
      forall_eq]
    simp
    omega

theorem exact_iff_sample :
    Exact (sampleEditor 9) .backspace secondMention 1 ↔
      (sampleEditor 9).cursor = secondMention.second ∧
        ∀ n ∈ (sampleEditor 9).ipspan.eraseIdx 1, n.first < n.second →
          n.second ≤ secondMention.first :=
  exact_iff (sampleEditor 9) .backspace secondMention 1 (laid_sample 9) rfl (by decide)

/-- **Delete removes a mention with one character too many, and Backspace from inside the last
mention removes only its entry.** -/
theorem notExact :
    ((sampleEditor 3).eventFilter .delete).1.text = ['h', 'i', ' ', '2', ' '] ∧
      ¬ Exact (sampleEditor 3) .delete firstMention 0 ∧
      ((sampleEditor 7).eventFilter .backspace).1.text = (sampleEditor 7).text ∧
      ((sampleEditor 7).eventFilter .backspace).1.ipspan = [firstMention] ∧
      ¬ Exact (sampleEditor 7) .backspace secondMention 1 := by
  refine ⟨by decide, fun hexact => ?_, by decide, by decide, fun hexact => ?_⟩
  · exact absurd hexact.removed (by decide)
  · exact absurd hexact.removed (by decide)

end Editor

end CloudMeeting.Client.TextEdit
