/-
Who a member believes is in the room with it.

A viewer keeps a set of addresses.  An admission puts in its own, an introduction or
a list puts in those of the parties named, something said may put in the speaker's,
and a farewell takes one out.  Addresses are all the viewer has, and two parties may
share one.

The result is that the set is exactly the addresses of the room's members, as long as
nobody it sees leave leaves behind a member with the same address.  That side condition
is forced: a farewell names an address, not a party.
-/
import Mathlib.Data.Finset.Image
import CloudMeeting.Conference.Introduction

namespace CloudMeeting.Conference

variable {ρ κ μ ι : Type} [DecidableEq ρ] [DecidableEq κ] [DecidableEq ι]

section Viewer

variable (address : κ → ι) (admits reveals : μ → Bool) (d : κ)

/-- What viewer `d` makes of one note. -/
def react (view : Finset ι) : Note κ μ → Finset ι
  | .reply m => if admits m then insert (address d) view else view
  | .joined c => insert (address c) view
  | .roster cs => view ∪ (cs.map address).toFinset
  | .relayed c m => if reveals m then insert (address c) view else view
  | .left c => view.erase (address c)

/-- The addresses `d` has in view after everything it has been told. -/
def view (H : List (Happening ρ κ μ)) : Finset ι :=
  (notes d H).foldl (react address admits reveals d) ∅

/-- `d` has been told that it is admitted. -/
def Admitted (H : List (Happening ρ κ μ)) : Prop :=
  ∃ m, Note.reply m ∈ notes d H ∧ admits m = true

/-- Nobody whom `d` saw leave left behind a member with its own address. -/
def Exclusive (H : List (Happening ρ κ μ)) : Prop :=
  ∀ r c rest, .left r c rest ∈ H → d ∈ rest → ∀ e ∈ rest, address e ≠ address c

end Viewer

variable {address : κ → ι} {admits reveals : μ → Bool} {d : κ}

omit [DecidableEq ρ] in
theorem view_snoc (H : List (Happening ρ κ μ)) (e : Happening ρ κ μ) :
    view address admits reveals d (H ++ [e])
      = (noteFor d e).foldl (react address admits reveals d) (view address admits reveals d H) := by
  simp [view]

/-- The address list of a room, as a set. -/
def addresses (address : κ → ι) (cs : List κ) : Finset ι := (cs.map address).toFinset

omit [DecidableEq κ] in
@[simp] theorem mem_addresses {cs : List κ} {a : ι} :
    a ∈ addresses address cs ↔ ∃ c ∈ cs, address c = a := by
  simp [addresses]

/-- The view of a party that has not entered, or that sits in a room. -/
structure Sees (address : κ → ι) (admits reveals : μ → Bool) (d : κ)
    (H : List (Happening ρ κ μ)) : Prop where
  /-- Before taking a seat, a viewer has nobody but possibly itself in view. -/
  before : ¬ Entered H d → ∀ a ∈ view address admits reveals d H, a = address d
  /-- In a room it sees the members, itself possibly excepted. -/
  inside : ∀ {r}, d ∈ members H r → ∀ a,
    (a = address d ∨ a ∈ view address admits reveals d H) ↔ ∃ c ∈ members H r, address c = a
  /-- Once admitted it also sees itself. -/
  itself : Admitted admits d H → (¬ Entered H d ∨ ∃ r, d ∈ members H r) →
    address d ∈ view address admits reveals d H

omit [DecidableEq ρ] in
private theorem admitted_snoc (H : List (Happening ρ κ μ)) (e : Happening ρ κ μ) :
    Admitted admits d (H ++ [e])
      ↔ Admitted admits d H ∨ ∃ m, Note.reply m ∈ noteFor d e ∧ admits m = true := by
  simp only [Admitted, notes_snoc, List.mem_append]
  constructor
  · intro hadmitted
    obtain ⟨m, hm | hm, ha⟩ := hadmitted
    · exact Or.inl ⟨m, hm, ha⟩
    · exact Or.inr ⟨m, hm, ha⟩
  · intro hadmitted
    rcases hadmitted with ⟨m, hm, ha⟩ | ⟨m, hm, ha⟩
    · exact ⟨m, Or.inl hm, ha⟩
    · exact ⟨m, Or.inr hm, ha⟩

/-- A happening that tells `d` nothing and leaves its own room alone. -/
private theorem Sees.quiet {H : List (Happening ρ κ μ)}
    (h : Sees address admits reveals d H) {e : Happening ρ κ μ} (hnote : noteFor d e = [])
    (hroom : ∀ r, d ∈ seat (members H) e r → d ∈ members H r ∧ seat (members H) e r = members H r) :
    Sees address admits reveals d (H ++ [e]) := by
  have hview : view address admits reveals d (H ++ [e]) = view address admits reveals d H := by
    rw [view_snoc, hnote, List.foldl_nil]
  refine ⟨?_, ?_, ?_⟩
  · intro hn a ha
    rw [entered_snoc, not_or] at hn
    exact h.before hn.1 a (hview ▸ ha)
  · intro r hd a
    rw [members_snoc] at hd ⊢
    obtain ⟨hd', heq⟩ := hroom r hd
    rw [hview, heq]
    exact h.inside hd' a
  · intro hadm hwhere
    rw [hview]
    rw [admitted_snoc, hnote] at hadm
    rcases hadm with hadm | ⟨m, hm, -⟩
    · apply h.itself hadm
      rcases hwhere with hn | ⟨r, hd⟩
      · rw [entered_snoc, not_or] at hn
        exact Or.inl hn.1
      · rw [members_snoc] at hd
        exact Or.inr ⟨r, (hroom r hd).1⟩
    · simp at hm

/-- Taking a seat: the answer, and the list of whoever is there. -/
private theorem Sees.enter {H : List (Happening ρ κ μ)}
    (h : Sees address admits reveals d H) {e : Happening ρ κ μ} (m : μ)
    (present : List κ) (hnew : ¬ Entered H d) (hseats : e.Seats d)
    (hview : view address admits reveals d (H ++ [e])
      = react address admits reveals d (view address admits reveals d H) (.reply m)
        ∪ addresses address present)
    (hreply : ∀ m', Note.reply m' ∈ noteFor d e → m' = m)
    (hroom : ∀ r', d ∈ seat (members H) e r' → ∀ x,
      x ∈ seat (members H) e r' ↔ x ∈ present ∨ x = d) :
    Sees address admits reveals d (H ++ [e]) := by
  have hmem : ∀ a, (a = address d ∨ a ∈ view address admits reveals d (H ++ [e]))
      ↔ a = address d ∨ ∃ c ∈ present, address c = a := by
    intro a
    rw [hview, Finset.mem_union, mem_addresses, react]
    have hbefore := h.before hnew a
    split
    · rw [Finset.mem_insert]
      grind
    · grind
  refine ⟨?_, ?_, ?_⟩
  · intro hn
    exact absurd ((entered_snoc _ _ _).mpr (Or.inr hseats)) hn
  · intro r' hd a
    rw [members_snoc] at hd ⊢
    rw [hmem]
    have := hroom r' hd
    grind
  · intro hadm _
    rw [hview, Finset.mem_union, react]
    rcases (admitted_snoc _ _).mp hadm with hadm | ⟨m', hm', ha⟩
    · have := h.itself hadm (Or.inl hnew)
      left
      split
      · exact Finset.mem_insert_of_mem this
      · exact this
    · rw [hreply m' hm'] at ha
      rw [if_pos ha]
      exact Or.inl (Finset.mem_insert_self _ _)

/-- A note about another member that moves its address in or out of view. -/
private theorem Sees.hear {H : List (Happening ρ κ μ)} (hv : Valid H)
    (h : Sees address admits reveals d H) {e : Happening ρ κ μ} {r : ρ} {n : Note κ μ}
    (hnote : noteFor d e = [n]) (hn : ∀ m, n ≠ .reply m)
    (hd : d ∈ members H r)
    (hseat : ∀ r', d ∈ seat (members H) e r' → r' = r)
    (hset : ∀ V : Finset ι, (∀ a, (a = address d ∨ a ∈ V) ↔ ∃ c ∈ members H r, address c = a) →
      ∀ a, (a = address d ∨ a ∈ react address admits reveals d V n)
        ↔ ∃ c ∈ seat (members H) e r, address c = a)
    (hself : ∀ V : Finset ι, address d ∈ V → address d ∈ react address admits reveals d V n) :
    Sees address admits reveals d (H ++ [e]) := by
  have hview : view address admits reveals d (H ++ [e])
      = react address admits reveals d (view address admits reveals d H) n := by
    rw [view_snoc, hnote]
    rfl
  have hentered := hv.seated.entered hd
  refine ⟨?_, ?_, ?_⟩
  · intro hout
    exact absurd ((entered_snoc _ _ _).mpr (Or.inl hentered)) hout
  · intro r' hd' a
    rw [members_snoc] at hd' ⊢
    rw [hseat r' hd', hview]
    exact hset _ (fun a => h.inside hd a) a
  · intro hadm _
    rw [hview]
    refine hself _ (h.itself ?_ (Or.inr ⟨r, hd⟩))
    rcases (admitted_snoc _ _).mp hadm with hadm | ⟨m, hm, -⟩
    · exact hadm
    · rw [hnote, List.mem_singleton] at hm
      exact absurd hm.symm (hn m)

private theorem Sees.joined {H : List (Happening ρ κ μ)} (hv : Valid H)
    (h : Sees address admits reveals d H) {r : ρ} {x : κ} {m : μ} {present : List κ}
    (hfits : Fits H (.joined r x m present)) :
    Sees address admits reveals d (H ++ [.joined r x m present]) := by
  obtain ⟨hperm, hnew⟩ := hfits
  by_cases hxd : x = d
  · subst hxd
    refine h.enter m present hnew rfl ?_ ?_ ?_
    · rw [view_snoc, noteFor, if_pos rfl]
      rfl
    · intro m' hm'
      simpa [noteFor] using hm'
    · intro r' hd y
      rw [seat, Function.update_apply] at hd ⊢
      by_cases hr : r' = r
      · rw [if_pos hr, List.mem_append, List.mem_singleton, hperm.mem_iff]
      · rw [if_neg hr] at hd
        exact absurd (hv.seated.entered hd) hnew
  · by_cases hd : d ∈ present
    · have hdr : d ∈ members H r := hperm.mem_iff.mp hd
      refine h.hear hv (r := r) (n := .joined x) (by simp [noteFor, hxd, hd]) (by simp) hdr ?_ ?_ ?_
      · intro r' hd'
        rw [seat, Function.update_apply] at hd'
        split at hd'
        · rename_i hr; exact hr
        · exact hv.seated.single hd' hdr
      · intro V hV a
        have := hV a
        rw [seat, Function.update_self, react, Finset.mem_insert]
        simp only [List.mem_append, List.mem_singleton]
        grind
      · intro V hin
        exact Finset.mem_insert_of_mem hin
    · apply h.quiet (by simp [noteFor, hxd, hd])
      intro r' hd'
      rw [seat, Function.update_apply] at hd' ⊢
      by_cases hr : r' = r
      · rw [if_pos hr, List.mem_append, List.mem_singleton] at hd'
        rcases hd' with hd' | hd'
        · exact absurd (hperm.mem_iff.mpr hd') hd
        · exact absurd hd'.symm hxd
      · rw [if_neg hr] at hd' ⊢
        exact ⟨hd', rfl⟩

private theorem Sees.spoke {H : List (Happening ρ κ μ)} (hv : Valid H)
    (h : Sees address admits reveals d H) {x : κ} {m : μ} {audience : List κ}
    (hfits : Fits H (.spoke x m audience)) :
    Sees address admits reveals d (H ++ [.spoke x m audience]) := by
  by_cases hd : d ∈ audience
  · obtain ⟨-, r, hxr, hdr⟩ := hfits.audience hv.seated hd
    refine h.hear hv (r := r) (n := .relayed x m) (by simp [noteFor, hd]) (by simp) hdr
      (fun r' hd' => hv.seated.single hd' hdr) ?_ ?_
    · intro V hV a
      have := hV a
      have := hV (address x)
      show _ ↔ ∃ c ∈ members H r, address c = a
      rw [react]
      split
      · rw [Finset.mem_insert]
        grind
      · grind
    · intro V hin
      rw [react]
      split
      · exact Finset.mem_insert_of_mem hin
      · exact hin
  · exact h.quiet (by simp [noteFor, hd]) (fun r hr => ⟨hr, rfl⟩)

private theorem Sees.left {H : List (Happening ρ κ μ)} (hv : Valid H)
    (h : Sees address admits reveals d H) {r : ρ} {x : κ} {rest : List κ}
    (hfits : Fits H (.left r x rest : Happening ρ κ μ))
    (hexcl : d ∈ rest → ∀ e ∈ rest, address e ≠ address x) :
    Sees address admits reveals d (H ++ [.left r x rest]) := by
  have hmem : ∀ y, y ∈ (members H r).erase x ↔ y ≠ x ∧ y ∈ members H r :=
    fun y => (hv.seated.nodup r).mem_erase_iff
  by_cases hd : d ∈ rest
  · obtain ⟨hdx, hxr, hdr⟩ := hfits.remaining hv.seated hd
    refine h.hear hv (r := r) (n := .left x) (by simp [noteFor, hd]) (by simp) hdr ?_ ?_ ?_
    · intro r' hd'
      rw [seat, Function.update_apply] at hd'
      split at hd'
      · rename_i hr; exact hr
      · exact hv.seated.single hd' hdr
    · intro V hV a
      have hVa := hV a
      have hgone : ∀ c ∈ members H r, c ≠ x → address c ≠ address x := fun c hc hcx =>
        hexcl hd c (hfits.2.mem_iff.mpr ((hmem c).mpr ⟨hcx, hc⟩))
      have hself := hgone d hdr hdx
      rw [seat, Function.update_self, react, Finset.mem_erase]
      simp only [hmem]
      grind
    · intro V hin
      exact Finset.mem_erase_of_ne_of_mem (hexcl hd d hd) hin
  · apply h.quiet (by simp [noteFor, hd])
    intro r' hd'
    rw [seat, Function.update_apply] at hd' ⊢
    by_cases hr : r' = r
    · rw [if_pos hr] at hd'
      exact absurd (hfits.2.mem_iff.mpr hd') hd
    · rw [if_neg hr] at hd' ⊢
      exact ⟨hd', rfl⟩

private theorem Sees.hosted {H : List (Happening ρ κ μ)} (hv : Valid H)
    (h : Sees address admits reveals d H) {r : ρ} {x : κ} {m : μ}
    (hnew : ¬ Entered H x) : Sees address admits reveals d (H ++ [.hosted r x m]) := by
  by_cases hxd : x = d
  · subst hxd
    refine h.enter m [] hnew rfl ?_ ?_ ?_
    · rw [view_snoc, noteFor, if_pos rfl]
      simp [addresses]
    · intro m' hm'
      simpa [noteFor] using hm'
    · intro r' hd y
      rw [seat, Function.update_apply] at hd ⊢
      by_cases hr : r' = r
      · simp [hr]
      · rw [if_neg hr] at hd
        exact absurd (hv.seated.entered hd) hnew
  · apply h.quiet (by simp [noteFor, hxd])
    intro r' hd'
    rw [seat, Function.update_apply] at hd' ⊢
    by_cases hr : r' = r
    · rw [if_pos hr, List.mem_singleton] at hd'
      exact absurd hd'.symm hxd
    · rw [if_neg hr] at hd' ⊢
      exact ⟨hd', rfl⟩

private theorem Sees.dissolved {H : List (Happening ρ κ μ)}
    (h : Sees address admits reveals d H) (r : ρ) :
    Sees address admits reveals d (H ++ [.dissolved r]) := by
  apply h.quiet (by simp [noteFor])
  intro r' hd'
  rw [seat, Function.update_apply] at hd' ⊢
  by_cases hr : r' = r
  · rw [if_pos hr] at hd'
    simp at hd'
  · rw [if_neg hr] at hd' ⊢
    exact ⟨hd', rfl⟩

/-- A bare answer puts nobody but the viewer in view. -/
private theorem Sees.answered {H : List (Happening ρ κ μ)}
    (h : Sees address admits reveals d H) (x : κ) (m : μ) :
    Sees address admits reveals d (H ++ [.answered x m]) := by
  by_cases hxd : x = d
  · subst hxd
    have hview : view address admits reveals x (H ++ [.answered x m])
        = react address admits reveals x (view address admits reveals x H) (.reply m) := by
      rw [view_snoc, noteFor, if_pos rfl]
      rfl
    refine ⟨?_, ?_, ?_⟩
    · intro hn a ha
      rw [entered_snoc, not_or] at hn
      rw [hview, react] at ha
      split at ha
      · rcases Finset.mem_insert.mp ha with ha | ha
        · exact ha
        · exact h.before hn.1 a ha
      · exact h.before hn.1 a ha
    · intro r hd a
      rw [members_snoc] at hd ⊢
      have hsame := h.inside hd a
      rw [hview, react]
      show _ ↔ ∃ c ∈ members H r, address c = a
      split
      · rw [Finset.mem_insert, ← or_assoc, or_self]
        exact hsame
      · exact hsame
    · intro hadm hwhere
      rw [hview, react]
      split
      · exact Finset.mem_insert_self _ _
      · rename_i hno
        rcases (admitted_snoc _ _).mp hadm with hadm | ⟨m', hm', ha⟩
        · apply h.itself hadm
          rcases hwhere with hn | ⟨r, hd⟩
          · rw [entered_snoc, not_or] at hn
            exact Or.inl hn.1
          · rw [members_snoc] at hd
            exact Or.inr ⟨r, hd⟩
        · have hm : m' = m := by simpa [noteFor] using hm'
          exact absurd (hm ▸ ha) hno
  · exact h.quiet (by simp [noteFor, hxd]) (fun r hr => ⟨hr, rfl⟩)

variable (admits reveals d) in
/-- What every valid history without ambiguous farewells keeps true of a viewer. -/
theorem Valid.sees {H : List (Happening ρ κ μ)} (h : Valid H) (hexcl : Exclusive address d H) :
    Sees address admits reveals d H := by
  induction h with
  | nil =>
      refine ⟨fun _ a ha => absurd ha (by simp [view]), by simp, ?_⟩
      intro hadmitted
      obtain ⟨m, hm, -⟩ := hadmitted
      simp at hm
  | @snoc H e hv hfits ih =>
      have hsee := ih fun r c rest hx => hexcl r c rest (List.mem_append_left _ hx)
      cases e with
      | joined r x m present => exact hsee.joined hv hfits
      | spoke x m audience => exact hsee.spoke hv hfits
      | left r x rest => exact hsee.left hv hfits (hexcl r x rest (by simp))
      | hosted r x m => exact hsee.hosted hv hfits.2
      | dissolved r => exact hsee.dissolved r
      | answered x m => exact hsee.answered x m

/-- **An admitted member sees exactly the addresses of its room.** -/
theorem Valid.view_eq {H : List (Happening ρ κ μ)} (h : Valid H) (hexcl : Exclusive address d H)
    (hadm : Admitted admits d H) {r : ρ} (hd : d ∈ members H r) :
    view address admits reveals d H = addresses address (members H r) := by
  have hsee := h.sees admits reveals d hexcl
  have hself := hsee.itself hadm (Or.inr ⟨r, hd⟩)
  ext a
  rw [mem_addresses, ← hsee.inside hd a]
  constructor
  · exact Or.inr
  · intro hin
    rcases hin with rfl | ha
    · exact hself
    · exact ha

end CloudMeeting.Conference
