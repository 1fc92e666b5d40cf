/-
What becomes of mentions while a message is written.

A completed mention is pushed onto `ipspan` as a range of the text.  Nothing but a key
that removes it touches a range again, so it is right only as long as nothing in front of
its end changes length: `tracked` says what may be done to the text so that every range
keeps holding the block that was inserted for it.  Sending a message is not among it, for
the text is replaced and the ranges stay (`leftovers`).

Where a word ends is the toolkit's business; `endOfWord` is a parameter.
-/
import CloudMeeting.Client.Address
import CloudMeeting.Client.TextEdit

namespace CloudMeeting.Client.TextEdit

open Address (QString unit)
open Run

def atSign : UInt16 := unit '@'

def space : UInt16 := unit ' '

/-! ### What is done to the text -/

/-- `QString::right`. -/
def right (s : QString) (n : Int) : QString :=
  if n < 0 ∨ s.length < n then s else s.drop (s.length - n.toNat)

/-- The last `@` before a position, looked for as `changeCompletion` does; without one its loop
leaves the text. -/
def findAt (str : QString) : Nat → Option Nat
  | 0 => none
  | pos + 1 => if str[pos]? = some atSign then some pos else findAt str pos

namespace Editor

/-- `complete`, which runs whenever the text or its format has changed. -/
def complete (e : Editor UInt16) : Editor UInt16 :=
  if e.completionPrefix.isSome ∧ e.text.getLast? = some atSign then
    { e with completionPrefix := some [atSign] }
  else e

/-- The editor's own edits: a part of the text is replaced. -/
def replace (i j : Nat) (s : QString) (e : Editor UInt16) : Editor UInt16 :=
  let e' := { e with text := e.text.take i ++ s ++ e.text.drop j, cursor := i + s.length }
  if i = j ∧ s = [] then e' else e'.complete

def setPlainText (s : QString) (e : Editor UInt16) : Editor UInt16 :=
  { e with text := s, cursor := 0 }.complete

def setCompleter (e : Editor UInt16) : Editor UInt16 :=
  { e with completionPrefix := some (e.completionPrefix.getD []) }

/-- The second half of `changeCompletion`: the mention found at `pos` is highlighted, ended with a
space and noted. -/
def pushMention (text : QString) (pos : Nat) (e : Editor UInt16) : Editor UInt16 :=
  let str := e.text
  let e := e.complete.replace str.length str.length [space]
  { e with ipspan := e.ipspan ++ [⟨pos, str.length + 1, text ++ [space]⟩] }

/-- `changeCompletion`, which needs a completer, and an `@` in the text. -/
def changeCompletion (endOfWord : QString → Nat → Nat) (text : QString) (e : Editor UInt16) :
    Option (Editor UInt16) :=
  match e.completionPrefix with
  | none => none
  | some completionPrefix =>
      let len : Int := text.length - completionPrefix.length
      let position := endOfWord e.text e.cursor
      let e := e.replace position position (right text len)
      (findAt e.text e.text.length).map fun pos => e.pushMention text pos

/-- A key that is pressed, as far as `eventFilter` deals with it. -/
def keyPress (key : Key) (e : Editor UInt16) : Editor UInt16 :=
  let e' := (e.eventFilter key).1
  if e'.text = e.text then e' else e'.complete

end Editor

inductive Event where
  | setCompleter
  | moveCursor (p : Nat)
  | replace (i j : Nat) (s : QString)
  | keyPress (key : Key)
  | changeCompletion (text : QString)
  | setPlainText (s : QString)
deriving DecidableEq, Repr

def step (endOfWord : QString → Nat → Nat) (e : Editor UInt16) : Event → Option (Editor UInt16)
  | .setCompleter => some e.setCompleter
  | .moveCursor p => some (e.setCursor p)
  | .replace i j s => if i ≤ j ∧ j ≤ e.text.length then some (e.replace i j s) else none
  | .keyPress key => some (e.keyPress key)
  | .changeCompletion text => e.changeCompletion endOfWord text
  | .setPlainText s => some (e.setPlainText s)

/-! ### Ranges that hold their blocks -/

/-- Every range is in the text and holds the block inserted for it, and no two overlap. -/
structure Tracks (e : Editor UInt16) : Prop where
  inside : ∀ m ∈ e.ipspan, m.first < m.second ∧ m.second ≤ e.text.length
  block : ∀ m ∈ e.ipspan, m.slice e.text = m.block
  disjoint : e.ipspan.Pairwise fun m n => m.second ≤ n.first ∨ n.second ≤ m.first

/-- An `@` and what follows it is completed, at the end of the text. -/
def Completes (endOfWord : QString → Nat → Nat) (e : Editor UInt16) (text : QString) :
    Option QString → Prop
  | none => True
  | some completionPrefix =>
      endOfWord e.text e.cursor = e.text.length ∧ completionPrefix <:+ e.text ∧
        completionPrefix <+: text ∧ text.head? = some atSign ∧ atSign ∉ text.tail

/-- The event leaves the ranges right: a change of length is behind all of them. -/
def Keeps (endOfWord : QString → Nat → Nat) (e : Editor UInt16) : Event → Prop
  | .replace i j s => ∀ m ∈ e.ipspan, m.second ≤ i ∨ (j ≤ m.first ∧ s.length = j - i)
  | .keyPress key =>
      ∀ m ∈ e.ipspan, m.hit key e.cursor = true → ∀ n ∈ e.ipspan, n.first ≤ m.first
  | .changeCompletion text => Completes endOfWord e text e.completionPrefix
  | .setPlainText _ => e.ipspan = []
  | _ => True

instance (endOfWord : QString → Nat → Nat) (e : Editor UInt16) (text : QString) :
    ∀ front, Decidable (Completes endOfWord e text front)
  | none => isTrue trivial
  | some _ => inferInstanceAs (Decidable (_ ∧ _ ∧ _ ∧ _ ∧ _))

instance (endOfWord : QString → Nat → Nat) (e : Editor UInt16) :
    ∀ event, Decidable (Keeps endOfWord e event)
  | .setCompleter => isTrue trivial
  | .moveCursor _ => isTrue trivial
  | .replace i j s =>
      inferInstanceAs (Decidable (∀ m ∈ e.ipspan, m.second ≤ i ∨ (j ≤ m.first ∧ s.length = j - i)))
  | .keyPress key =>
      inferInstanceAs (Decidable (∀ m ∈ e.ipspan, m.hit key e.cursor = true →
        ∀ n ∈ e.ipspan, n.first ≤ m.first))
  | .changeCompletion text => inferInstanceAs (Decidable (Completes _ _ text _))
  | .setPlainText _ => inferInstanceAs (Decidable (e.ipspan = []))

/-! ### The invariant -/

/-- Beside the ranges: what is inserted ends with a space, and what is completed is at most an
`@`. -/
structure Inv (e : Editor UInt16) : Prop extends Tracks e where
  ends : ∀ m ∈ e.ipspan, m.block.getLast? = some space
  started : ∀ completionPrefix, e.completionPrefix = some completionPrefix →
    completionPrefix = [] ∨ completionPrefix = [atSign]

theorem inv_init : Inv {} := by
  constructor
  · constructor <;> simp
  · simp
  · simp

namespace Editor

variable {e : Editor UInt16}

@[simp] theorem complete_text (e : Editor UInt16) : e.complete.text = e.text := by
  unfold complete
  split <;> rfl

@[simp] theorem complete_ipspan (e : Editor UInt16) : e.complete.ipspan = e.ipspan := by
  unfold complete
  split <;> rfl

@[simp] theorem replace_text (e : Editor UInt16) (i j : Nat) (s : QString) :
    (e.replace i j s).text = e.text.take i ++ s ++ e.text.drop j := by
  unfold replace
  simp only []
  split
  · rfl
  · rw [complete_text]

@[simp] theorem replace_ipspan (e : Editor UInt16) (i j : Nat) (s : QString) :
    (e.replace i j s).ipspan = e.ipspan := by
  unfold replace
  simp only []
  split
  · rfl
  · rw [complete_ipspan]

end Editor

/-- Ranges that are kept, on a text that holds the same there, are still right. -/
theorem Inv.keep {e e' : Editor UInt16} (h : Inv e) (hspans : e'.ipspan.Sublist e.ipspan)
    (hpre : e'.completionPrefix = e.completionPrefix)
    (htext : ∀ m ∈ e'.ipspan, m.second ≤ e'.text.length ∧ m.slice e'.text = m.slice e.text) :
    Inv e' := by
  refine ⟨⟨fun m hm => ?_, fun m hm => ?_, h.disjoint.sublist hspans⟩, fun m hm => ?_, ?_⟩
  · exact ⟨(h.inside m (hspans.subset hm)).1, (htext m hm).1⟩
  · rw [(htext m hm).2]
    exact h.block m (hspans.subset hm)
  · exact h.ends m (hspans.subset hm)
  · rw [hpre]
    exact h.started

theorem Inv.complete {e : Editor UInt16} (h : Inv e) : Inv e.complete := by
  unfold Editor.complete
  split
  · refine ⟨⟨h.inside, h.block, h.disjoint⟩, h.ends, ?_⟩
    intro completionPrefix hpre
    exact Or.inr (Option.some.inj hpre).symm
  · exact h

/-! ### Edits -/

section Edits

variable {text s : QString} {i j : Nat} {m : Mention UInt16}

/-- A range that ends before the edit. -/
theorem slice_before (hi : i ≤ text.length) (h : m.second ≤ i) :
    m.second ≤ (text.take i ++ s ++ text.drop j).length ∧
      m.slice (text.take i ++ s ++ text.drop j) = m.slice text := by
  have htake : (text.take i).length = i := by
    rw [List.length_take]
    omega
  constructor
  · rw [List.append_assoc, List.length_append, htake]
    omega
  · refine slice_congr ?_
    rw [List.append_assoc, List.take_append_of_le_length (by omega), List.take_take,
      Nat.min_eq_left h]

/-- A range that starts behind an edit that does not change the length. -/
theorem slice_behind (hij : i ≤ j) (hj : j ≤ text.length) (h : j ≤ m.first)
    (hs : s.length = j - i) (hsecond : m.second ≤ text.length) :
    m.second ≤ (text.take i ++ s ++ text.drop j).length ∧
      m.slice (text.take i ++ s ++ text.drop j) = m.slice text := by
  have hfront : (text.take i ++ s).length = j := by
    rw [List.length_append, List.length_take]
    omega
  constructor
  · rw [List.length_append, hfront, List.length_drop]
    omega
  · rw [Mention.slice, Mention.slice, slice, slice]
    congr 1
    rw [List.drop_append, hfront, List.drop_eq_nil_of_le (by omega), List.nil_append,
      List.drop_drop]
    congr 1
    omega

end Edits

theorem Inv.replace {e : Editor UInt16} (h : Inv e) {i j : Nat} {s : QString} (hij : i ≤ j)
    (hj : j ≤ e.text.length)
    (hkeeps : ∀ m ∈ e.ipspan, m.second ≤ i ∨ (j ≤ m.first ∧ s.length = j - i)) :
    Inv (e.replace i j s) := by
  have hedited : Inv { e with
      text := e.text.take i ++ s ++ e.text.drop j, cursor := i + s.length } := by
    refine h.keep (List.Sublist.refl _) rfl fun m hm => ?_
    obtain hbefore | ⟨hbehind, hs⟩ := hkeeps m hm
    · exact slice_before (le_trans hij hj) hbefore
    · exact slice_behind hij hj hbehind hs (h.inside m hm).2
  unfold Editor.replace
  split
  · exact hedited
  · exact hedited.complete

/-! ### Keys -/

theorem Tracks.laid {e : Editor UInt16} (h : Tracks e) : Laid e := by
  constructor
  · intro m hm
    exact ⟨Nat.le_of_lt (h.inside m hm).1, (h.inside m hm).2⟩
  · refine h.disjoint.imp fun hapart k hk => ?_
    omega

/-- A key that hits no mention is left to the editor. -/
theorem loop_miss {α : Type} {key : Key} {p : Nat} {spans : List (Mention α)}
    (hmiss : ∀ m ∈ spans, m.hit key p = false) (i : Nat) (e : Editor α) :
    ∃ cursor, Editor.eventFilterLoop key p i spans e = ({ e with cursor := cursor }, false) := by
  induction spans generalizing i e with
  | nil => exact ⟨e.cursor, rfl⟩
  | cons m spans ih =>
      have hm := hmiss m List.mem_cons_self
      have hlater : ∀ n ∈ spans, n.hit key p = false := by
        intro n hn
        exact hmiss n (List.mem_cons_of_mem m hn)
      rw [Editor.eventFilterLoop, if_neg (by simp [hm])]
      split
      · exact ih hlater (i + 1) (e.setCursor m.second)
      · exact ih hlater (i + 1) e

/-- The mentions that are left after a hit end before it. -/
theorem Inv.eventFilter {e : Editor UInt16} (h : Inv e) {key : Key}
    (hkeeps : ∀ m ∈ e.ipspan, m.hit key e.cursor = true → ∀ n ∈ e.ipspan, n.first ≤ m.first) :
    Inv (e.eventFilter key).1 := by
  by_cases hhit : ∃ m ∈ e.ipspan, m.hit key e.cursor = true
  · obtain ⟨m, hm, hhit⟩ := hhit
    obtain ⟨i, hi⟩ := List.getElem?_of_mem hm
    obtain ⟨cursor, hrun⟩ := Editor.eventFilter_hit h.laid hi hhit
    rw [hrun]
    refine h.keep (List.eraseIdx_sublist _ _) rfl fun n hn => ?_
    have hn' := List.mem_of_mem_eraseIdx hn
    have hdisjoint := Editor.disjoint_of_mem_eraseIdx h.laid hi hn
    have hbefore : n.second ≤ m.first := by
      have hfirst := hkeeps m hm hhit n hn'
      have hnonempty := (h.inside m hm).1
      by_contra hover
      exact hdisjoint m.first (by omega)
    have hcut := (h.inside m hm).1.le.trans (h.inside m hm).2
    simpa using slice_before (s := []) (j := Editor.selectionEnd e.text m e.cursor) hcut hbefore
  · have hmiss : ∀ m ∈ e.ipspan, m.hit key e.cursor = false := by
      intro m hm
      by_contra hnot
      exact hhit ⟨m, hm, by simpa using hnot⟩
    obtain ⟨cursor, hrun⟩ := loop_miss hmiss 0 e
    rw [Editor.eventFilter, hrun]
    exact h.keep (List.Sublist.refl _) rfl fun m hm => ⟨(h.inside m hm).2, rfl⟩

theorem Inv.keyPress {e : Editor UInt16} (h : Inv e) {key : Key}
    (hkeeps : ∀ m ∈ e.ipspan, m.hit key e.cursor = true → ∀ n ∈ e.ipspan, n.first ≤ m.first) :
    Inv (e.keyPress key) := by
  unfold Editor.keyPress
  simp only []
  split
  · exact h.eventFilter hkeeps
  · exact (h.eventFilter hkeeps).complete

/-! ### Completions -/

/-- The last `@` is found. -/
theorem findAt_eq {str : QString} {k : Nat} (hk : str[k]? = some atSign)
    (hlast : ∀ pos, k < pos → str[pos]? ≠ some atSign) {n : Nat} (hn : k < n) :
    findAt str n = some k := by
  induction n with
  | zero => omega
  | succ n ih =>
      rw [findAt]
      by_cases hend : k = n
      · rw [← hend, if_pos hk]
      · rw [if_neg (hlast n (by omega)), ih (by omega)]

/-- The `@` that a block at the end of the text begins with is the last one. -/
theorem findAt_append (base : QString) {text : QString} (hhead : text.head? = some atSign)
    (htail : atSign ∉ text.tail) :
    findAt (base ++ text) (base ++ text).length = some base.length := by
  obtain ⟨tail, rfl⟩ : ∃ tail, text = atSign :: tail := by
    cases text with
    | nil => simp at hhead
    | cons c tail => exact ⟨tail, by simpa using hhead⟩
  refine findAt_eq ?_ (fun pos hpos => ?_) (by simp)
  · rw [List.getElem?_append_right le_rfl, Nat.sub_self]
    rfl
  · obtain ⟨k, rfl⟩ := Nat.exists_eq_add_of_lt hpos
    rw [List.getElem?_append_right (by omega),
      show base.length + k + 1 - base.length = k + 1 by omega, List.getElem?_cons_succ]
    intro hat
    exact htail (List.mem_of_getElem? hat)

/-- With what is there already in front, the rest is on the right. -/
theorem right_of_append (front rest : QString) :
    right (front ++ rest) ((front ++ rest).length - front.length) = rest := by
  have hlength : (((front ++ rest).length : Int) - front.length) = rest.length := by
    rw [List.length_append]
    omega
  rw [right, hlength, if_neg (by rw [List.length_append]; omega), Int.toNat_natCast,
    List.length_append, Nat.add_sub_cancel, List.drop_left]

/-- A mention that ends a text, with a space, is not about an `@` at the end. -/
theorem Inv.second_le {e : Editor UInt16} (h : Inv e) {base front : QString}
    (hfront : front = [] ∨ front = [atSign]) (htext : base ++ front = e.text)
    {m : Mention UInt16} (hm : m ∈ e.ipspan) : m.second ≤ base.length := by
  obtain ⟨hlt, hle⟩ := h.inside m hm
  obtain rfl | rfl := hfront
  · rw [List.append_nil] at htext
    rwa [htext]
  · by_contra hover
    have hlength : e.text.length = base.length + 1 := by rw [← htext, List.length_append]; rfl
    have hlast : (m.slice e.text)[m.second - m.first - 1]? = some atSign := by
      rw [Mention.slice, getElem?_slice (by omega), ← htext,
        show m.first + (m.second - m.first - 1) = base.length by omega, List.getElem?_concat_length]
    have hspace := h.ends m hm
    have hsize : (m.slice e.text).length = m.second - m.first := by
      rw [Mention.slice, slice, List.length_take, List.length_drop]
      omega
    rw [← h.block m hm, List.getLast?_eq_getElem?, hsize, hlast, Option.some.injEq] at hspace
    exact absurd hspace (by decide)

/-- A range behind the others that holds its block. -/
theorem Inv.push {e : Editor UInt16} (h : Inv e) {n : Mention UInt16}
    (hinside : n.first < n.second ∧ n.second ≤ e.text.length) (hblock : n.slice e.text = n.block)
    (hends : n.block.getLast? = some space) (hbefore : ∀ m ∈ e.ipspan, m.second ≤ n.first) :
    Inv { e with ipspan := e.ipspan ++ [n] } := by
  have hmem : ∀ m ∈ e.ipspan ++ [n], m ∈ e.ipspan ∨ m = n := by
    intro m hm
    rwa [List.mem_append, List.mem_singleton] at hm
  refine ⟨⟨fun m hm => ?_, fun m hm => ?_, ?_⟩, fun m hm => ?_, h.started⟩
  · obtain hold | rfl := hmem m hm
    · exact h.inside m hold
    · exact hinside
  · obtain hold | rfl := hmem m hm
    · exact h.block m hold
    · exact hblock
  · refine List.pairwise_append.mpr ⟨h.disjoint, List.pairwise_singleton _ _, ?_⟩
    intro m hm n' hn'
    rw [List.mem_singleton.mp hn']
    exact Or.inl (hbefore m hm)
  · obtain hold | rfl := hmem m hm
    · exact h.ends m hold
    · exact hends

/-- The block that ends the text becomes a mention. -/
theorem Inv.pushMention {e : Editor UInt16} (h : Inv e) {base text : QString}
    (htext : e.text = base ++ text) (hbefore : ∀ m ∈ e.ipspan, m.second ≤ base.length) :
    Inv (e.pushMention text base.length) := by
  have hspaced : Inv (e.complete.replace e.text.length e.text.length [space]) := by
    refine h.complete.replace le_rfl (by simp) fun m hm => Or.inl ?_
    rw [Editor.complete_ipspan] at hm
    exact (h.inside m hm).2
  have hspacedText : (e.complete.replace e.text.length e.text.length [space]).text
      = base ++ (text ++ [space]) := by
    rw [Editor.replace_text, Editor.complete_text, List.take_length, List.drop_length,
      List.append_nil, htext, List.append_assoc]
  have hlength : e.text.length = base.length + text.length := by rw [htext, List.length_append]
  refine hspaced.push ⟨?_, ?_⟩ ?_ ?_ ?_
  · show base.length < e.text.length + 1
    omega
  · show e.text.length + 1 ≤ _
    rw [hspacedText, hlength, List.length_append, List.length_append, List.length_singleton]
    omega
  · show slice _ base.length (e.text.length + 1) = text ++ [space]
    have hrest : e.text.length + 1 - base.length = (text ++ [space]).length := by
      rw [hlength, List.length_append, List.length_singleton]
      omega
    rw [hspacedText, slice, List.drop_left, hrest, List.take_length]
  · exact List.getLast?_concat
  · intro m hm
    rw [Editor.replace_ipspan, Editor.complete_ipspan] at hm
    exact hbefore m hm

/-- Completing an `@` at the end of the text inserts a block there, behind the mentions so far. -/
theorem Inv.changeCompletion {endOfWord : QString → Nat → Nat} {e e' : Editor UInt16} (h : Inv e)
    {text : QString} (hcompletes : Completes endOfWord e text e.completionPrefix)
    (hstep : e.changeCompletion endOfWord text = some e') : Inv e' := by
  cases hpre : e.completionPrefix with
  | none => simp [Editor.changeCompletion, hpre] at hstep
  | some front =>
      rw [hpre] at hcompletes
      obtain ⟨hend, ⟨base, hbase⟩, ⟨rest, hrest⟩, hhead, htail⟩ := hcompletes
      have hbefore : ∀ m ∈ e.ipspan, m.second ≤ base.length := by
        intro m hm
        exact h.second_le (h.started front hpre) hbase hm
      have hright : right text (text.length - front.length) = rest := by
        rw [← hrest]
        exact right_of_append front rest
      -- what is inserted brings the text to its end
      have htext : (e.replace e.text.length e.text.length rest).text = base ++ text := by
        rw [Editor.replace_text, List.take_length, List.drop_length, List.append_nil, ← hbase,
          ← hrest, List.append_assoc]
      have hinserted : Inv (e.replace e.text.length e.text.length rest) :=
        h.replace le_rfl le_rfl fun m hm => Or.inl (h.inside m hm).2
      have hfound := findAt_append base hhead htail
      have hresult : e' = (e.replace e.text.length e.text.length rest).pushMention text
          base.length := by
        simp only [Editor.changeCompletion, hpre, hend, hright, htext, hfound, Option.map_some,
          Option.some.injEq] at hstep
        exact hstep.symm
      rw [hresult]
      refine hinserted.pushMention htext fun m hm => ?_
      rw [Editor.replace_ipspan] at hm
      exact hbefore m hm

/-! ### Runs -/

/-- Every event that leaves the ranges right keeps the invariant. -/
theorem Inv.step {endOfWord : QString → Nat → Nat} {e e' : Editor UInt16} {event : Event}
    (h : Inv e) (hkeeps : Keeps endOfWord e event) (hstep : step endOfWord e event = some e') :
    Inv e' := by
  cases event with
  | setCompleter =>
      obtain rfl := Option.some.inj hstep
      refine ⟨⟨h.inside, h.block, h.disjoint⟩, h.ends, fun completionPrefix hpre => ?_⟩
      obtain rfl := Option.some.inj hpre
      cases hold : e.completionPrefix with
      | none => exact Or.inl rfl
      | some front => exact h.started front hold
  | moveCursor p =>
      obtain rfl := Option.some.inj hstep
      exact ⟨⟨h.inside, h.block, h.disjoint⟩, h.ends, h.started⟩
  | replace i j s =>
      rw [TextEdit.step] at hstep
      split at hstep
      · rename_i hrange
        obtain rfl := Option.some.inj hstep
        exact h.replace hrange.1 hrange.2 hkeeps
      · simp at hstep
  | keyPress key =>
      obtain rfl := Option.some.inj hstep
      exact h.keyPress hkeeps
  | changeCompletion text => exact h.changeCompletion hkeeps hstep
  | setPlainText s =>
      obtain rfl := Option.some.inj hstep
      have hnone : e.ipspan = [] := hkeeps
      refine Inv.complete ?_
      refine h.keep (List.Sublist.refl _) rfl fun m hm => ?_
      simp [hnone] at hm

/-- **The ranges hold their mentions throughout**, as long as nothing in front of the end of one
changes length. -/
theorem tracked (endOfWord : QString → Nat → Nat) (events : List Event)
    (h : Steps (step endOfWord) (Keeps endOfWord) {} events) :
    Throughout (step endOfWord) Tracks {} events := by
  have hinv : Throughout (step endOfWord) Inv {} events :=
    throughout_of_step (fun _ _ _ hi hk hs => hi.step hk hs) inv_init h
  exact hinv.mono fun _ hi => hi.toTracks

/-- Where the cursor is behind the last word, that word ends with the text. -/
def endOfText (text : QString) (_ : Nat) : Nat := text.length

/-- The member that is mentioned. -/
def member : QString := [atSign, unit '1']

/-- A member is mentioned twice, the second mention is removed, and more is typed. -/
def sampleEvents : List Event :=
  [.setCompleter, .replace 0 0 [atSign], .changeCompletion member, .replace 3 3 [atSign],
    .changeCompletion member, .keyPress .backspace, .replace 3 3 [unit 'x'], .moveCursor 0,
    .keyPress .other]

theorem tracked_sample : Throughout (step endOfText) Tracks {} sampleEvents :=
  tracked endOfText sampleEvents (by decide)

/-- What is left in the editor when a message with a mention has been sent. -/
def sentEditor : Editor UInt16 where
  ipspan := [⟨0, 3, member ++ [space]⟩]
  completionPrefix := some [atSign]

/-- **Sending leaves a range behind**, of a text that is no longer there. -/
theorem leftovers :
    run (step endOfText) {} [.setCompleter, .replace 0 0 [atSign], .changeCompletion member,
        .setPlainText []] = some sentEditor ∧
      ¬ Tracks sentEditor := by
  refine ⟨by decide, fun htracks => ?_⟩
  have hinside := (htracks.inside ⟨0, 3, member ++ [space]⟩ (by simp [sentEditor])).2
  simp [sentEditor] at hinside

end CloudMeeting.Client.TextEdit
