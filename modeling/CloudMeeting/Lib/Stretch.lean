/-
One stretch of a list.

A predicate is `Unbroken` on a list if nothing between two elements it holds of fails it.  Such a
predicate cuts the list in three: it fails in front, holds in the middle and fails behind
(`stretch`).
-/
import Mathlib.Tactic.Common
import Mathlib.Data.List.Basic

namespace CloudMeeting.Stretch

variable {α : Type} {p : α → Bool} {l : List α}

/-- Whatever comes between two elements that `p` holds of, `p` holds of as well. -/
def Unbroken (p : α → Bool) (l : List α) : Prop :=
  ∀ x y z, [x, y, z].Sublist l → p x = true → p z = true → p y = true

theorem Unbroken.tail {a : α} (h : Unbroken p (a :: l)) : Unbroken p l := by
  intro x y z hsub
  exact h x y z (hsub.cons a)

/-- Behind an element that `p` holds of, it holds up to some place and fails from there on. -/
theorem Unbroken.from_here {a : α} (h : Unbroken p (a :: l)) (ha : p a = true) :
    ∃ mid back, l = mid ++ back ∧ (∀ x ∈ mid, p x = true) ∧ ∀ x ∈ back, p x = false := by
  induction l with
  | nil => exact ⟨[], [], rfl, by simp, by simp⟩
  | cons b l ih =>
      cases hb : p b with
      | true =>
          have hskip : Unbroken p (a :: l) := by
            intro x y z hsub
            refine h x y z (hsub.trans ?_)
            exact (List.sublist_cons_self b l).cons_cons a
          obtain ⟨mid, back, rfl, hmid, hback⟩ := ih hskip
          refine ⟨b :: mid, back, rfl, ?_, hback⟩
          intro x hx
          rcases List.mem_cons.mp hx with rfl | hx
          · exact hb
          · exact hmid x hx
      | false =>
          refine ⟨[], b :: l, rfl, by simp, ?_⟩
          intro x hx
          rcases List.mem_cons.mp hx with rfl | hx
          · exact hb
          · by_contra hpx
            have hsub : [a, b, x].Sublist (a :: b :: l) :=
              ((List.singleton_sublist.mpr hx).cons_cons b).cons_cons a
            have hbetween := h a b x hsub ha (by simpa using hpx)
            rw [hb] at hbetween
            simp at hbetween

/-- **An unbroken predicate holds in one stretch.** -/
theorem stretch (h : Unbroken p l) : ∃ front mid back, l = front ++ mid ++ back ∧
    (∀ x ∈ front, p x = false) ∧ (∀ x ∈ mid, p x = true) ∧ ∀ x ∈ back, p x = false := by
  induction l with
  | nil => exact ⟨[], [], [], rfl, by simp, by simp, by simp⟩
  | cons a l ih =>
      cases ha : p a with
      | true =>
          obtain ⟨mid, back, rfl, hmid, hback⟩ := h.from_here ha
          refine ⟨[], a :: mid, back, rfl, by simp, ?_, hback⟩
          intro x hx
          rcases List.mem_cons.mp hx with rfl | hx
          · exact ha
          · exact hmid x hx
      | false =>
          obtain ⟨front, mid, back, rfl, hfront, hmid, hback⟩ := ih h.tail
          refine ⟨a :: front, mid, back, rfl, ?_, hmid, hback⟩
          intro x hx
          rcases List.mem_cons.mp hx with rfl | hx
          · exact ha
          · exact hfront x hx

/-! ### Elements that a list of others gives rise to -/

section FilterMap

variable {β : Type} {f : β → Option α} {xs : List β}

/-- The first of some elements comes from a place with what the others come from behind it. -/
theorem split_of_sublist {a : α} {rest : List α} (h : (a :: rest).Sublist (xs.filterMap f)) :
    ∃ front x back, xs = front ++ x :: back ∧ f x = some a ∧ rest.Sublist (back.filterMap f) := by
  obtain ⟨l₁, l₂, happend, ha, hrest⟩ := List.cons_sublist_iff.mp h
  obtain ⟨xs₁, xs₂, rfl, rfl, rfl⟩ := List.filterMap_eq_append_iff.mp happend
  obtain ⟨x, hx, hfx⟩ := List.mem_filterMap.mp ha
  obtain ⟨front, back, rfl⟩ := List.append_of_mem hx
  refine ⟨front, x, back ++ xs₂, by simp, hfx, ?_⟩
  rw [List.filterMap_append]
  exact hrest.trans (List.sublist_append_right _ _)

/-- Unbrokenness of what a list gives rise to, in terms of the places it comes from. -/
theorem unbroken_filterMap (h : ∀ front x mid y mid' z back a b c,
      xs = front ++ x :: (mid ++ y :: (mid' ++ z :: back)) → f x = some a → f y = some b →
      f z = some c → p a = true → p c = true → p b = true) : Unbroken p (xs.filterMap f) := by
  intro a b c hsub ha hc
  obtain ⟨front, x, back, rfl, hx, hsub⟩ := split_of_sublist hsub
  obtain ⟨mid, y, back, rfl, hy, hsub⟩ := split_of_sublist hsub
  obtain ⟨mid', z, back, rfl, hz, -⟩ := split_of_sublist hsub
  exact h front x mid y mid' z back a b c rfl hx hy hz ha hc

end FilterMap

/-- The middle is what is left when the rest is filtered out. -/
theorem filter_stretch {front mid back : List α} (hfront : ∀ x ∈ front, p x = false)
    (hmid : ∀ x ∈ mid, p x = true) (hback : ∀ x ∈ back, p x = false) :
    (front ++ mid ++ back).filter p = mid := by
  rw [List.filter_append, List.filter_append, List.filter_eq_self.mpr hmid,
    List.filter_eq_nil_iff.mpr (by simpa using hfront),
    List.filter_eq_nil_iff.mpr (by simpa using hback), List.nil_append, List.append_nil]

end CloudMeeting.Stretch
