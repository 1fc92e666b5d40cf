/-
Cutting a list into blocks of equal length.

`blocks n xs` are the complete blocks of `n` elements, in order; fewer than `n` elements may
be left over at the end, and those are dropped.  A loop that turns one block after another
into output computes `(blocks n xs).flatMap f`.

Two facts carry the rest.  A complete block in front is the first block (`blocks_append_left`),
so where a list of whole blocks ends the cutting starts anew (`blocks_append`); and output
made of equal blocks is cut into just these (`blocks_flatMap`).

A list that comes in pieces may be cut piece by piece.  That makes no difference when the
sizes of the pieces are `Aligned` (`flatMap_blocks_of_aligned`), and otherwise it does for some
contents (`aligned_of_flatMap_blocks`).
-/
import Mathlib.Tactic.Common
import Mathlib.Algebra.Order.BigOperators.Group.List
import Mathlib.Algebra.GroupWithZero.Nat
import Mathlib.Algebra.Order.Group.Nat

namespace CloudMeeting.Blocks

variable {α β : Type} {n : Nat}

/-- The `i`-th block. -/
def block (n : Nat) (xs : List α) (i : Nat) : List α := (xs.drop (i * n)).take n

def blocks (n : Nat) (xs : List α) : List (List α) :=
  (List.range (xs.length / n)).map (block n xs)

@[simp] theorem length_blocks (n : Nat) (xs : List α) : (blocks n xs).length = xs.length / n := by
  rw [blocks, List.length_map, List.length_range]

theorem length_block {xs : List α} {i : Nat} (hi : i < xs.length / n) :
    (block n xs i).length = n := by
  have hle : (i + 1) * n ≤ xs.length :=
    (Nat.mul_le_mul_right n hi).trans (Nat.div_mul_le_self ..)
  rw [Nat.add_mul, Nat.one_mul] at hle
  rw [block, List.length_take, List.length_drop]
  omega

theorem length_of_mem_blocks {xs b : List α} (hb : b ∈ blocks n xs) : b.length = n := by
  obtain ⟨i, hi, rfl⟩ := List.mem_map.mp hb
  exact length_block (List.mem_range.mp hi)

theorem getElem?_blocks {xs : List α} {i : Nat} (hi : i < xs.length / n) :
    (blocks n xs)[i]? = some (block n xs i) := by
  rw [blocks, List.getElem?_map, List.getElem?_range hi]
  rfl

/-- Too short for a block. -/
theorem blocks_of_lt {xs : List α} (h : xs.length < n) : blocks n xs = [] := by
  rw [blocks, Nat.div_eq_of_lt h]
  rfl

/-- A complete block in front is the first block. -/
theorem blocks_append_left (hn : 0 < n) {b : List α} (hb : b.length = n) (xs : List α) :
    blocks n (b ++ xs) = b :: blocks n xs := by
  have hcount : (b ++ xs).length / n = xs.length / n + 1 := by
    rw [List.length_append, hb, Nat.add_div_left _ hn]
  have hfirst : block n (b ++ xs) 0 = b := by
    rw [block, Nat.zero_mul, List.drop_zero, ← hb, List.take_left]
  have hlater : ∀ i, block n (b ++ xs) (i + 1) = block n xs i := by
    intro i
    rw [block, block, Nat.add_mul, Nat.one_mul, Nat.add_comm, ← List.drop_drop]
    congr 2
    exact List.drop_left' hb
  rw [blocks, hcount, List.range_succ_eq_map, List.map_cons, List.map_map, hfirst]
  congr 1
  exact List.map_congr_left fun i _ => hlater i

/-- Blocks put together are cut into the same blocks. -/
theorem blocks_flatten_append (hn : 0 < n) {bs : List (List α)} (hbs : ∀ b ∈ bs, b.length = n)
    (xs : List α) : blocks n (bs.flatten ++ xs) = bs ++ blocks n xs := by
  induction bs with
  | nil => rfl
  | cons b bs ih =>
      rw [List.flatten_cons, List.append_assoc, blocks_append_left hn (hbs b List.mem_cons_self),
        ih fun b' hb' => hbs b' (List.mem_cons_of_mem b hb')]
      rfl

/-- The blocks are the list up to the last complete one. -/
theorem flatten_blocks (n : Nat) (xs : List α) :
    (blocks n xs).flatten = xs.take (xs.length / n * n) := by
  rw [blocks]
  generalize hk : xs.length / n = k
  have hle : k * n ≤ xs.length := by
    rw [← hk]
    exact Nat.div_mul_le_self ..
  clear hk
  induction k with
  | zero => simp
  | succ k ih =>
      have hle' : k * n ≤ xs.length := (Nat.mul_le_mul_right n (Nat.le_succ k)).trans hle
      rw [List.range_succ, List.map_append, List.flatten_append, ih hle', List.map_singleton,
        List.flatten_singleton, block, Nat.add_mul, Nat.one_mul, List.take_add]

/-- A list of whole blocks is its blocks. -/
theorem flatten_blocks_of_dvd {xs : List α} (h : n ∣ xs.length) : (blocks n xs).flatten = xs := by
  rw [flatten_blocks, Nat.div_mul_cancel h, List.take_length]

/-- **Where whole blocks end, the cutting starts anew.** -/
theorem blocks_append (hn : 0 < n) {xs : List α} (h : n ∣ xs.length) (ys : List α) :
    blocks n (xs ++ ys) = blocks n xs ++ blocks n ys := by
  conv_lhs => rw [← flatten_blocks_of_dvd h]
  exact blocks_flatten_append hn (fun b hb => length_of_mem_blocks hb) ys

/-- What does not complete a block adds none. -/
theorem blocks_append_of_div_eq {xs ys : List α}
    (h : (xs.length + ys.length) / n = xs.length / n) : blocks n (xs ++ ys) = blocks n xs := by
  rw [blocks, blocks, List.length_append, h]
  apply List.map_congr_left
  intro i hi
  have hle : (i + 1) * n ≤ xs.length :=
    (Nat.mul_le_mul_right n (List.mem_range.mp hi)).trans (Nat.div_mul_le_self ..)
  rw [Nat.add_mul, Nat.one_mul] at hle
  rw [block, block, List.drop_append_of_le_length (by omega),
    List.take_append_of_le_length (by rw [List.length_drop]; omega)]

/-- **What a loop over the blocks puts out is cut into what it puts out for each.** -/
theorem blocks_flatMap {m : Nat} (hm : 0 < m) {f : List α → List β} {xs : List α}
    (hf : ∀ b ∈ blocks n xs, (f b).length = m) :
    blocks m ((blocks n xs).flatMap f) = (blocks n xs).map f := by
  have hnone : blocks m ([] : List β) = [] := blocks_of_lt hm
  have hall : ∀ b ∈ (blocks n xs).map f, b.length = m := by
    intro b hb
    obtain ⟨a, ha, rfl⟩ := List.mem_map.mp hb
    exact hf a ha
  have hcut := blocks_flatten_append hm hall []
  rw [List.append_nil, hnone, List.append_nil] at hcut
  rw [List.flatMap_def]
  exact hcut

/-- The length of what a loop over the blocks puts out. -/
theorem length_flatMap_blocks {m : Nat} {f : List α → List β} {xs : List α}
    (hf : ∀ b ∈ blocks n xs, (f b).length = m) :
    ((blocks n xs).flatMap f).length = xs.length / n * m := by
  rw [List.length_flatMap, List.map_congr_left hf, List.map_const', List.sum_replicate_nat,
    length_blocks]

/-! ### Piece by piece -/

/-- Every piece is made of whole blocks, up to one after which no further block is completed. -/
def Aligned (n : Nat) : List Nat → Prop
  | [] => True
  | size :: sizes =>
      n ∣ size ∧ Aligned n sizes ∨ 0 < n ∧ (size + sizes.sum) / n = size / n

theorem lt_of_add_div_eq (hn : 0 < n) {size more : Nat} (h : (size + more) / n = size / n) :
    more < n := by
  have hcount := Nat.div_add_mod (size + more) n
  have hlt := Nat.mod_lt (size + more) hn
  have hle := Nat.div_mul_le_self size n
  rw [h, Nat.mul_comm] at hcount
  omega

/-- Without the pieces that are too short for a block the others are still aligned. -/
theorem Aligned.filter {sizes : List Nat} (h : Aligned n sizes) :
    Aligned n (sizes.filter (n ≤ ·)) := by
  induction sizes with
  | nil => exact trivial
  | cons size sizes ih =>
      rw [List.filter_cons]
      rcases h with ⟨hwhole, hrest⟩ | ⟨hn, hlast⟩
      · split
        · exact Or.inl ⟨hwhole, ih hrest⟩
        · exact ih hrest
      · have hnone : sizes.filter (n ≤ ·) = [] := by
          rw [List.filter_eq_nil_iff]
          intro later hlater
          have hle := List.le_sum_of_mem hlater
          have hlt := lt_of_add_div_eq hn hlast
          simp only [decide_eq_true_eq]
          omega
        rw [hnone]
        split
        · exact Or.inr ⟨hn, rfl⟩
        · exact trivial

theorem aligned_zero {sizes : List Nat} : Aligned 0 sizes ↔ sizes.sum = 0 := by
  induction sizes with
  | nil => exact ⟨fun _ => rfl, fun _ => trivial⟩
  | cons size sizes ih =>
      rw [List.sum_cons, Nat.add_eq_zero_iff, ← ih]
      constructor
      · rintro (⟨hzero, hrest⟩ | ⟨hpos, -⟩)
        · exact ⟨Nat.zero_dvd.mp hzero, hrest⟩
        · exact absurd hpos (Nat.lt_irrefl 0)
      · rintro ⟨rfl, hrest⟩
        exact Or.inl ⟨Nat.dvd_refl 0, hrest⟩

/-- Aligned pieces can be cut one by one. -/
theorem flatMap_blocks_of_aligned (hn : 0 < n) {pieces : List (List α)}
    (h : Aligned n (pieces.map List.length)) :
    pieces.flatMap (blocks n) = blocks n pieces.flatten := by
  induction pieces with
  | nil => rw [List.flatten_nil, blocks_of_lt (by simpa using hn), List.flatMap_nil]
  | cons piece pieces ih =>
      rw [List.flatMap_cons, List.flatten_cons]
      rcases h with ⟨hwhole, hrest⟩ | ⟨-, hlast⟩
      · rw [blocks_append hn hwhole, ih hrest]
      · have hnone : pieces.flatMap (blocks n) = [] := by
          rw [List.flatMap_eq_nil_iff]
          intro later hlater
          have hle := List.le_sum_of_mem (List.mem_map_of_mem (f := List.length) hlater)
          have hlt := lt_of_add_div_eq hn hlast
          exact blocks_of_lt (by omega)
        rw [hnone, List.append_nil]
        refine (blocks_append_of_div_eq ?_).symm
        rw [List.length_flatten]
        exact hlast

/-- Pieces of any sizes there are. -/
theorem map_length_replicate (a : α) (sizes : List Nat) :
    (sizes.map fun size => List.replicate size a).map List.length = sizes := by
  rw [List.map_map]
  exact (List.map_congr_left fun size _ => List.length_replicate).trans (List.map_id sizes)

/-- A piece that is all `a` as far as it makes blocks, and `b` from there. -/
def marked (n : Nat) (a b : α) (size : Nat) : List α :=
  List.replicate (size / n * n) a ++ List.replicate (size % n) b

theorem length_marked (n : Nat) (a b : α) (size : Nat) : (marked n a b size).length = size := by
  rw [marked, List.length_append, List.length_replicate, List.length_replicate, Nat.mul_comm]
  exact Nat.div_add_mod size n

/-- Cut on its own the piece loses what is not `a`. -/
theorem not_mem_blocks_marked {a b : α} (hab : a ≠ b) (size : Nat) :
    b ∉ (blocks n (marked n a b size)).flatten := by
  rw [flatten_blocks, length_marked, marked, List.take_left' List.length_replicate]
  intro hb
  exact hab (List.eq_of_mem_replicate hb).symm

/-- Where more completes a block, nothing of the piece is lost. -/
theorem mem_blocks_marked (hn : 0 < n) (a b : α) {size : Nat} (hpart : ¬ n ∣ size)
    {more : List α} (hmore : (size + more.length) / n ≠ size / n) :
    b ∈ (blocks n (marked n a b size ++ more)).flatten := by
  have hrest : 0 < size % n := Nat.pos_of_ne_zero fun hz => hpart (Nat.dvd_of_mod_eq_zero hz)
  have hsize := Nat.div_add_mod size n
  rw [Nat.mul_comm] at hsize
  have hat : (marked n a b size ++ more)[size / n * n]? = some b := by
    rw [List.getElem?_append_left (by rw [length_marked]; omega), marked,
      List.getElem?_append_right (by rw [List.length_replicate]), List.length_replicate,
      Nat.sub_self, List.getElem?_replicate_of_lt hrest]
  have hbefore : size / n * n < (size + more.length) / n * n := by
    have hle : size / n ≤ (size + more.length) / n := Nat.div_le_div_right (by omega)
    exact Nat.mul_lt_mul_of_pos_right (by omega) hn
  rw [flatten_blocks, List.length_append, length_marked]
  apply List.mem_of_getElem?
  rw [List.getElem?_take_of_lt hbefore]
  exact hat

/-- Where the pieces are not aligned, some contents are cut differently. -/
theorem aligned_of_flatMap_blocks {a b : α} (hab : a ≠ b) (hn : 0 < n) {sizes : List Nat}
    (h : ∀ pieces : List (List α), pieces.map List.length = sizes →
      pieces.flatMap (blocks n) = blocks n pieces.flatten) : Aligned n sizes := by
  induction sizes with
  | nil => exact trivial
  | cons size sizes ih =>
      by_cases hwhole : n ∣ size
      · refine Or.inl ⟨hwhole, ih fun pieces hpieces => ?_⟩
        have hlength : (List.replicate size a).length = size := List.length_replicate
        have hall := h (List.replicate size a :: pieces) (by rw [List.map_cons, hlength, hpieces])
        rw [List.flatMap_cons, List.flatten_cons, blocks_append hn (by rwa [hlength])] at hall
        exact List.append_cancel_left hall
      · refine Or.inr ⟨hn, ?_⟩
        by_contra hmore
        let later := sizes.map fun size => List.replicate size a
        have hlater : later.map List.length = sizes := map_length_replicate a sizes
        have hall := h (marked n a b size :: later) (by rw [List.map_cons, length_marked, hlater])
        have hleft : b ∉ ((marked n a b size :: later).flatMap (blocks n)).flatten := by
          intro hb
          obtain ⟨blk, hblk, hb⟩ := List.mem_flatten.mp hb
          obtain ⟨piece, hpiece, hblk⟩ := List.mem_flatMap.mp hblk
          have hin : b ∈ (blocks n piece).flatten := List.mem_flatten.mpr ⟨blk, hblk, hb⟩
          rcases List.mem_cons.mp hpiece with rfl | hpiece
          · exact not_mem_blocks_marked hab size hin
          · obtain ⟨k, -, rfl⟩ := List.mem_map.mp hpiece
            rw [flatten_blocks] at hin
            exact hab (List.eq_of_mem_replicate (List.mem_of_mem_take hin)).symm
        have hright : b ∈ (blocks n (marked n a b size :: later).flatten).flatten := by
          apply mem_blocks_marked hn a b hwhole
          rw [List.length_flatten, hlater]
          exact hmore
        rw [hall] at hleft
        exact hleft hright

end CloudMeeting.Blocks
