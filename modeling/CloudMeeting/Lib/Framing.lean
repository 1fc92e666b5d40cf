/-
Cutting a stream into frames as it arrives.

A receiver holds the elements it has not used yet and asks of them, again and
again, one question: is there a whole frame in front?  A `Cutter` is the answer to
that question, with the two properties that make the answer usable on a stream.
A frame it takes is not empty and lies inside what it was shown, and a decision
once made is not changed by elements arriving behind it.

`Cuts` is what a receiver has done so far: it has cut some frames off the front
and holds a rest.  `drain` cuts until nothing more can be cut.  The result that
matters is `feed_eq_drain`: draining after every chunk, however the stream is
chunked, gives the frames and the rest of draining the whole stream once.

Where a header says how long its frame is, a receiver can cut without looking at anything
else (`Sizing`), and one that looks at more cuts in the same places (`drain_map`).
-/
import Mathlib.Tactic.Common
import Mathlib.Data.List.Basic

namespace CloudMeeting.Framing

variable {β α γ : Type}

/-- What a cutter makes of the elements in front of it. -/
inductive Next (α : Type) where
  /-- No decision yet: more elements are needed. -/
  | wait
  /-- There is no frame in front, whatever follows. -/
  | reject
  /-- The first `n` elements are a frame that says `a`. -/
  | take (a : α) (n : Nat)

/-- A frame recogniser that can be asked on every prefix of a stream. -/
structure Cutter (β α : Type) where
  next : List β → Next α
  pos : ∀ {bs a n}, next bs = .take a n → 0 < n
  le : ∀ {bs a n}, next bs = .take a n → n ≤ bs.length
  stable : ∀ {bs}, next bs ≠ .wait → ∀ more, next (bs ++ more) = next bs

/-- Nothing can be cut off the front of `bs`. -/
def Cutter.Stuck (c : Cutter β α) (bs : List β) : Prop :=
  ∀ a n, c.next bs ≠ .take a n

/-- Cutting the frames `as` off the front of the stream leaves the rest. -/
inductive Cuts (c : Cutter β α) : List β → List α → List β → Prop
  | done (bs : List β) : Cuts c bs [] bs
  | step {bs rest : List β} {a : α} {n : Nat} {as : List α}
      (h : c.next bs = .take a n) (hrest : Cuts c (bs.drop n) as rest) :
      Cuts c bs (a :: as) rest

/-- Cut until nothing more can be cut, at most `fuel` times. -/
def drainFuel (c : Cutter β α) : Nat → List β → List α × List β
  | 0, bs => ([], bs)
  | fuel + 1, bs =>
      match c.next bs with
      | .take a n => (a :: (drainFuel c fuel (bs.drop n)).1, (drainFuel c fuel (bs.drop n)).2)
      | _ => ([], bs)

/-- Cut until nothing more can be cut. -/
def drain (c : Cutter β α) (bs : List β) : List α × List β :=
  drainFuel c bs.length bs

/-- Drain after every chunk, keeping the rest for the next one. -/
def feed (c : Cutter β α) : List β → List (List β) → List α × List β
  | held, [] => ([], held)
  | held, chunk :: chunks =>
      let cut := drain c (held ++ chunk)
      (cut.1 ++ (feed c cut.2 chunks).1, (feed c cut.2 chunks).2)

variable {c : Cutter β α}

theorem Cutter.stuck_nil (c : Cutter β α) : c.Stuck [] := by
  intro a n h
  have hpos := c.pos h
  have hle := c.le h
  simp only [List.length_nil] at hle
  omega

/-! ### What has been cut stays cut -/

namespace Cuts

theorem trans {bs mid rest : List β} {as as' : List α}
    (h : Cuts c bs as mid) (h' : Cuts c mid as' rest) : Cuts c bs (as ++ as') rest := by
  induction h with
  | done bs => exact h'
  | step hn _ ih => exact Cuts.step hn (ih h')

theorem snoc {bs rest : List β} {as : List α} {a : α} {n : Nat}
    (h : Cuts c bs as rest) (hn : c.next rest = .take a n) :
    Cuts c bs (as ++ [a]) (rest.drop n) :=
  h.trans (Cuts.step hn (Cuts.done _))

/-- Elements arriving behind the stream only lengthen the rest. -/
theorem append {bs rest : List β} {as : List α} (h : Cuts c bs as rest) (more : List β) :
    Cuts c (bs ++ more) as (rest ++ more) := by
  induction h with
  | done bs => exact Cuts.done _
  | @step bs rest a n as hn _ ih =>
      refine Cuts.step (n := n) ?_ ?_
      · rw [c.stable (by rw [hn]; simp), hn]
      · rwa [List.drop_append_of_le_length (c.le hn)]

/-- Two ways of cutting one stream agree as far as the shorter one goes. -/
theorem isPrefix {bs rest rest' : List β} {as as' : List α}
    (h : Cuts c bs as rest) (h' : Cuts c bs as' rest') (hstuck : c.Stuck rest') :
    as <+: as' := by
  induction h generalizing as' with
  | done bs => exact List.nil_prefix
  | step hn _ ih =>
      cases h' with
      | done => exact absurd hn (hstuck _ _)
      | step hn' hrest' =>
          rw [hn] at hn'
          cases hn'
          exact (List.prefix_cons_inj _).mpr (ih hrest')

/-- Cutting as far as possible has one result. -/
theorem unique {bs rest rest' : List β} {as as' : List α}
    (h : Cuts c bs as rest) (hs : c.Stuck rest)
    (h' : Cuts c bs as' rest') (hs' : c.Stuck rest') : as = as' ∧ rest = rest' := by
  induction h generalizing as' with
  | done bs =>
      cases h' with
      | done => exact ⟨rfl, rfl⟩
      | step hn _ => exact absurd hn (hs _ _)
  | step hn _ ih =>
      cases h' with
      | done => exact absurd hn (hs' _ _)
      | step hn' hrest' =>
          rw [hn] at hn'
          cases hn'
          obtain ⟨has, hr⟩ := ih hs hrest'
          exact ⟨by rw [has], hr⟩

/-- A stream of encoded frames is cut into those frames. -/
theorem flatten {enc : γ → List β} {dec : γ → α} {xs : List γ}
    (henc : ∀ x ∈ xs, ∀ more, c.next (enc x ++ more) = .take (dec x) (enc x).length)
    (more : List β) : Cuts c ((xs.map enc).flatten ++ more) (xs.map dec) more := by
  induction xs with
  | nil => exact Cuts.done _
  | cons x xs ih =>
      have hhead := henc x (by simp) ((xs.map enc).flatten ++ more)
      have htail := ih (fun y hy => henc y (by simp [hy]))
      simp only [List.map_cons, List.flatten_cons, List.append_assoc]
      apply Cuts.step hhead
      simpa using htail

end Cuts

/-! ### Draining -/

theorem drainFuel_cuts (fuel : Nat) (bs : List β) :
    Cuts c bs (drainFuel c fuel bs).1 (drainFuel c fuel bs).2 := by
  induction fuel generalizing bs with
  | zero => exact Cuts.done _
  | succ fuel ih =>
      rw [drainFuel]
      split
      · rename_i a n hn
        exact Cuts.step hn (ih _)
      · exact Cuts.done _

theorem drainFuel_stuck (fuel : Nat) (bs : List β) (hfuel : bs.length ≤ fuel) :
    c.Stuck (drainFuel c fuel bs).2 := by
  induction fuel generalizing bs with
  | zero =>
      have hnil : bs = [] := List.length_eq_zero_iff.mp (by omega)
      subst hnil
      exact c.stuck_nil
  | succ fuel ih =>
      rw [drainFuel]
      split
      · rename_i a n hn
        have hpos := c.pos hn
        apply ih _
        rw [List.length_drop]
        omega
      · rename_i hn
        intro a n h
        exact hn a n h

theorem drain_cuts (bs : List β) : Cuts c bs (drain c bs).1 (drain c bs).2 :=
  drainFuel_cuts _ _

theorem drain_stuck (bs : List β) : c.Stuck (drain c bs).2 :=
  drainFuel_stuck _ _ (Nat.le_refl _)

/-- Cutting until stuck is draining. -/
theorem Cuts.drain_eq {bs rest : List β} {as : List α} (h : Cuts c bs as rest)
    (hs : c.Stuck rest) : drain c bs = (as, rest) := by
  obtain ⟨h1, h2⟩ := (drain_cuts bs).unique (drain_stuck bs) h hs
  exact Prod.ext h1 h2

theorem drain_of_stuck {bs : List β} (h : c.Stuck bs) : drain c bs = ([], bs) :=
  (Cuts.done bs).drain_eq h

/-- Cutting some frames first and draining the rest is draining. -/
theorem Cuts.drain_append {bs mid : List β} {as : List α} (h : Cuts c bs as mid) :
    drain c bs = (as ++ (drain c mid).1, (drain c mid).2) :=
  (h.trans (drain_cuts mid)).drain_eq (drain_stuck mid)

/-! ### However the stream is chunked -/

/-- **Draining after every chunk is draining the whole stream.** -/
theorem feed_eq_drain (held : List β) (chunks : List (List β)) (hs : c.Stuck held) :
    feed c held chunks = drain c (held ++ chunks.flatten) := by
  induction chunks generalizing held with
  | nil =>
      rw [feed, List.flatten_nil, List.append_nil]
      exact (drain_of_stuck hs).symm
  | cons chunk chunks ih =>
      have hcut := (drain_cuts (c := c) (held ++ chunk)).append chunks.flatten
      rw [feed, ih _ (drain_stuck _), List.flatten_cons, ← List.append_assoc, hcut.drain_append]

/-- Encoded frames come back one by one, with nothing left over. -/
theorem drain_flatten {enc : γ → List β} {dec : γ → α} {xs : List γ}
    (henc : ∀ x ∈ xs, ∀ more, c.next (enc x ++ more) = .take (dec x) (enc x).length) :
    drain c (xs.map enc).flatten = (xs.map dec, []) := by
  have h := Cuts.flatten henc []
  rw [List.append_nil] at h
  exact h.drain_eq c.stuck_nil

/-! ### Streams that have arrived in part -/

/-- How much of an unfinished frame is among the first `n` elements, when the frames of the
stream have these sizes. -/
def pending : List Nat → Nat → Nat
  | [], n => n
  | size :: sizes, n => if n < size then n else pending sizes (n - size)

/-- The elements of the unfinished frame. -/
def unfinished (sizes : List Nat) (bs : List β) : List β :=
  bs.drop (bs.length - pending sizes bs.length)

theorem pending_le (sizes : List Nat) (n : Nat) : pending sizes n ≤ n := by
  induction sizes generalizing n with
  | nil => exact Nat.le_refl n
  | cons size sizes ih =>
      rw [pending]
      split
      · exact Nat.le_refl n
      · exact Nat.le_trans (ih _) (Nat.sub_le _ _)

@[simp] theorem length_unfinished (sizes : List Nat) (bs : List β) :
    (unfinished sizes bs).length = pending sizes bs.length := by
  have hle := pending_le sizes bs.length
  rw [unfinished, List.length_drop]
  omega

theorem unfinished_of_lt {size : Nat} {sizes : List Nat} {bs : List β} (h : bs.length < size) :
    unfinished (size :: sizes) bs = bs := by
  rw [unfinished, pending, if_pos h, Nat.sub_self, List.drop_zero]

theorem unfinished_append (frame : List β) (sizes : List Nat) (bs : List β) :
    unfinished (frame.length :: sizes) (frame ++ bs) = unfinished sizes bs := by
  have hle := pending_le sizes bs.length
  have hlen : (frame ++ bs).length - frame.length = bs.length := by simp
  have hdrop : (frame ++ bs).length - pending sizes bs.length
      = frame.length + (bs.length - pending sizes bs.length) := by
    rw [List.length_append]; omega
  rw [unfinished, unfinished, pending, if_neg (by simp), hlen, hdrop, List.drop_append]
  simp

/-- A frame that is not all there cannot be cut off. -/
theorem Cutter.stuck_of_short {bs more : List β} {a : α} {n : Nat}
    (h : c.next (bs ++ more) = .take a n) (hlt : bs.length < n) : c.Stuck bs := by
  intro a' n' h'
  have hsame := c.stable (by rw [h']; simp) more
  rw [h, h'] at hsame
  cases hsame
  have hle := c.le h'
  omega

/-- The whole frames of a stream that has arrived in part come back, and the rest is held. -/
theorem drain_arrived {enc : γ → List β} {dec : γ → α} {xs : List γ}
    (henc : ∀ x ∈ xs, ∀ more, c.next (enc x ++ more) = .take (dec x) (enc x).length)
    {bs : List β} (h : bs <+: (xs.map enc).flatten) :
    (drain c bs).2 = unfinished (xs.map fun x => (enc x).length) bs := by
  induction xs generalizing bs with
  | nil =>
      obtain rfl : bs = [] := List.prefix_nil.mp h
      rw [drain_of_stuck c.stuck_nil]
      rfl
  | cons x xs ih =>
      have hhead := henc x (by simp)
      have htail := fun y (hy : y ∈ xs) => henc y (by simp [hy])
      rw [List.map_cons, List.flatten_cons] at h
      by_cases hlt : bs.length < (enc x).length
      · obtain ⟨more, hmore⟩ := List.prefix_of_prefix_length_le h (List.prefix_append _ _)
          (Nat.le_of_lt hlt)
        have hwhole : c.next (bs ++ more) = .take (dec x) (enc x).length := by
          rw [hmore]
          simpa using hhead []
        have hstuck := Cutter.stuck_of_short hwhole hlt
        rw [drain_of_stuck hstuck, List.map_cons, unfinished_of_lt hlt]
      · obtain ⟨bs, rfl⟩ := List.prefix_of_prefix_length_le (List.prefix_append _ _) h
          (Nat.le_of_not_lt hlt)
        have hcut : Cuts c (enc x ++ bs) [dec x] bs := by
          apply Cuts.step (hhead bs)
          rw [List.drop_left]
          exact Cuts.done bs
        rw [hcut.drain_append, List.map_cons, unfinished_append]
        exact ih htail ((List.prefix_append_right_inj _).mp h)

/-! ### Cutting by size alone -/

/-- What is made of the same elements when their frame is read on. -/
def Next.map (f : α → γ) : Next α → Next γ
  | .wait => .wait
  | .reject => .reject
  | .take a n => .take (f a) n

/-- A cutter that cuts where another one does, and reads what that one cuts off. -/
theorem drain_map {c' : Cutter β γ} {f : α → γ}
    (h : ∀ bs, c'.next bs = (c.next bs).map f) (bs : List β) :
    drain c' bs = ((drain c bs).1.map f, (drain c bs).2) := by
  have hfuel : ∀ fuel bs, drainFuel c' fuel bs
      = ((drainFuel c fuel bs).1.map f, (drainFuel c fuel bs).2) := by
    intro fuel
    induction fuel with
    | zero => exact fun _ => rfl
    | succ fuel ih =>
        intro bs
        rw [drainFuel, drainFuel, h]
        cases c.next bs with
        | take a n => simp only [Next.map, ih, List.map_cons]
        | _ => rfl
  exact hfuel bs.length bs

/-- Once the first `header` elements are there, they say how long the piece is. -/
structure Sizing (β : Type) where
  header : Nat
  size : List β → Nat
  pos : ∀ bs, 0 < size bs
  le : ∀ bs, header ≤ size bs
  stable : ∀ {bs}, header ≤ bs.length → ∀ more, size (bs ++ more) = size bs

namespace Sizing

variable (s : Sizing β)

/-- The header of a piece is there, and just as many elements as it says. -/
structure Whole (piece : List β) : Prop where
  header : s.header ≤ piece.length
  size : piece.length = s.size piece

/-- The header is not there, or not as many elements as it says. -/
def Unfinished (bs : List β) : Prop := bs.length < s.header ∨ bs.length < s.size bs

def cutter : Cutter β (List β) where
  next bs :=
    if bs.length < s.header then .wait
    else if bs.length < s.size bs then .wait
    else .take (bs.take (s.size bs)) (s.size bs)
  pos := by
    intro bs a n h
    split at h
    · simp at h
    split at h
    · simp at h
    simp only [Next.take.injEq] at h
    exact h.2 ▸ s.pos bs
  le := by
    intro bs a n h
    split at h
    · simp at h
    split at h
    · simp at h
    simp only [Next.take.injEq] at h
    omega
  stable := by
    intro bs h more
    have hheader : s.header ≤ bs.length := by
      by_contra hshort
      rw [if_pos (by omega)] at h
      exact h rfl
    rw [if_neg (by omega)] at h
    have hwhole : s.size bs ≤ bs.length := by
      by_contra hshort
      rw [if_pos (by omega)] at h
      exact h rfl
    have hlength : (bs ++ more).length = bs.length + more.length := List.length_append
    rw [s.stable hheader, if_neg (by omega), if_neg (by omega), if_neg (by omega),
      if_neg (by omega), List.take_append_of_le_length hwhole]

variable {s}

theorem stuck_iff {bs : List β} : s.cutter.Stuck bs ↔ s.Unfinished bs := by
  constructor
  · intro hstuck
    by_contra hfinished
    rw [Unfinished, not_or] at hfinished
    exact hstuck (bs.take (s.size bs)) (s.size bs)
      ((if_neg hfinished.1).trans (if_neg hfinished.2))
  · intro hunfinished a n h
    simp only [cutter] at h
    split at h
    · simp at h
    · rename_i hheader
      rw [if_pos (hunfinished.resolve_left hheader)] at h
      simp at h

/-- A whole piece is cut off the front, whatever follows it. -/
theorem next_whole {piece : List β} (h : s.Whole piece) (more : List β) :
    s.cutter.next (piece ++ more) = .take piece piece.length := by
  have hsize : s.size (piece ++ more) = piece.length := by
    rw [s.stable h.header, ← h.size]
  have hlength : (piece ++ more).length = piece.length + more.length := List.length_append
  have hheader := h.header
  simp only [cutter, hsize]
  rw [if_neg (by omega), if_neg (by omega), List.take_left]

/-- What is cut off is whole, and was in front. -/
theorem whole_of_next {bs piece : List β} {n : Nat} (h : s.cutter.next bs = .take piece n) :
    s.Whole piece ∧ bs = piece ++ bs.drop n := by
  simp only [cutter] at h
  split at h
  · simp at h
  rename_i hheader
  split at h
  · simp at h
  rename_i hsize
  simp only [Next.take.injEq] at h
  obtain ⟨rfl, rfl⟩ := h
  have hlength : (bs.take (s.size bs)).length = s.size bs := by
    rw [List.length_take]
    omega
  have hheader : s.header ≤ (bs.take (s.size bs)).length := by
    rw [hlength]
    exact s.le bs
  have hsame := s.stable hheader (bs.drop (s.size bs))
  rw [List.take_append_drop] at hsame
  exact ⟨⟨hheader, hlength.trans hsame⟩, (List.take_append_drop _ _).symm⟩

/-- Whole pieces and an unfinished one behind them are taken apart. -/
theorem drain_whole {pieces : List (List β)} (h : ∀ piece ∈ pieces, s.Whole piece) {rest : List β}
    (hrest : s.Unfinished rest) : drain s.cutter (pieces.flatten ++ rest) = (pieces, rest) := by
  have hcuts : Cuts s.cutter ((pieces.map id).flatten ++ rest) (pieces.map id) rest :=
    Cuts.flatten (fun piece hpiece more => next_whole (h piece hpiece) more) rest
  rw [List.map_id] at hcuts
  exact hcuts.drain_eq (stuck_iff.mpr hrest)

theorem whole_of_cuts {bs rest : List β} {pieces : List (List β)}
    (h : Cuts s.cutter bs pieces rest) :
    bs = pieces.flatten ++ rest ∧ ∀ piece ∈ pieces, s.Whole piece := by
  induction h with
  | done bs => exact ⟨rfl, fun _ hpiece => absurd hpiece List.not_mem_nil⟩
  | step hnext _ ih =>
      obtain ⟨hwhole, hfront⟩ := whole_of_next hnext
      obtain ⟨hflatten, hpieces⟩ := ih
      refine ⟨?_, fun piece hpiece => ?_⟩
      · rw [List.flatten_cons, List.append_assoc, ← hflatten]
        exact hfront
      · rcases List.mem_cons.mp hpiece with rfl | hpiece
        · exact hwhole
        · exact hpieces piece hpiece

end Sizing

end CloudMeeting.Framing
