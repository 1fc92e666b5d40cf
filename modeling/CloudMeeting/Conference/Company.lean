/-
How long two members are in each other's company.

Nobody takes a seat twice.  So whoever has left sits nowhere from then on (`Valid.stays_out`),
and two members who sit together at one time and at a later one have been together in
between, in the same room (`Valid.together_between`).
-/
import CloudMeeting.Conference.History
import Mathlib.Data.List.Induction

namespace CloudMeeting.Conference

variable {ρ κ μ : Type} [DecidableEq ρ] [DecidableEq κ] {H H' : List (Happening ρ κ μ)}
variable {e : Happening ρ κ μ} {c d : κ} {r : ρ}

theorem Valid.of_append (h : Valid (H ++ H')) : Valid H := by
  induction H' using List.reverseRecOn with
  | nil => simpa using h
  | append_singleton H' e ih =>
      rw [← List.append_assoc] at h
      generalize hall : H ++ H' ++ [e] = all at h
      cases h with
      | nil => simp at hall
      | @snoc H₁ e₁ hv _ =>
          obtain ⟨rfl, -⟩ := List.append_inj' hall rfl
          exact ih hv

theorem Valid.fits (h : Valid (H ++ [e])) : Fits H e := by
  generalize hall : H ++ [e] = all at h
  cases h with
  | nil => simp at hall
  | @snoc H₁ e₁ _ hfits =>
      obtain ⟨rfl, hlast⟩ := List.append_inj' hall rfl
      obtain rfl := List.singleton_inj.mp hlast
      exact hfits

/-- A seat is kept, or given up for good. -/
theorem seat_cases (hs : Seated H) (hfits : Fits H e) (hc : c ∈ members H r) :
    c ∈ members (H ++ [e]) r ∨ ∀ r', c ∉ members (H ++ [e]) r' := by
  have hentered := hs.entered hc
  rw [members_snoc]
  cases e with
  | answered x m => exact Or.inl hc
  | spoke x m audience => exact Or.inl hc
  | hosted r' x m =>
      refine Or.inl ?_
      have hne : r ≠ r' := by
        rintro rfl
        rw [hfits.1] at hc
        simp at hc
      rwa [seat, Function.update_of_ne hne]
  | joined r' x m present =>
      refine Or.inl ?_
      rw [seat, Function.update_apply]
      split
      · rename_i hr
        exact List.mem_append_left _ (hr ▸ hc)
      · exact hc
  | left r' x rest =>
      by_cases hx : x = c
      · refine Or.inr fun r'' hin => ?_
        subst hx
        have hr' : r' = r := hs.single hfits.1 hc
        subst hr'
        rw [seat, Function.update_apply] at hin
        split at hin
        · exact (((hs.nodup r').mem_erase_iff).mp hin).1 rfl
        · rename_i hne
          exact hne (hs.single hin hc)
      · refine Or.inl ?_
        rw [seat, Function.update_apply]
        split
        · rename_i hr
          exact (List.mem_erase_of_ne (Ne.symm hx)).mpr (hr ▸ hc)
        · exact hc
  | dissolved r' =>
      by_cases hr : r = r'
      · refine Or.inr fun r'' hin => ?_
        rw [seat, Function.update_apply] at hin
        split at hin
        · simp at hin
        · rename_i hne
          exact hne ((hs.single hin hc).trans hr)
      · refine Or.inl ?_
        rwa [seat, Function.update_of_ne hr]

/-- Whoever has had a seat and has none gets none. -/
theorem Valid.stays_out (h : Valid (H ++ H')) (hentered : Entered H c)
    (hout : ∀ r, c ∉ members H r) : ∀ r, c ∉ members (H ++ H') r := by
  induction H' using List.reverseRecOn with
  | nil => simpa using hout
  | append_singleton H' e ih =>
      rw [← List.append_assoc] at h ⊢
      have hnone := ih h.of_append
      have hfits := h.fits
      have hstill : Entered (H ++ H') c := by
        obtain ⟨x, hx, hseats⟩ := hentered
        exact ⟨x, List.mem_append_left _ hx, hseats⟩
      intro r hin
      rw [members_snoc] at hin
      cases e with
      | answered x m => exact hnone r hin
      | spoke x m audience => exact hnone r hin
      | hosted r' x m =>
          rw [seat, Function.update_apply] at hin
          split at hin
          · rw [List.mem_singleton] at hin
            exact hfits.2 (hin ▸ hstill)
          · exact hnone r hin
      | joined r' x m present =>
          rw [seat, Function.update_apply] at hin
          split at hin
          · rcases List.mem_append.mp hin with hin | hin
            · exact hnone r' hin
            · rw [List.mem_singleton] at hin
              exact hfits.2 (hin ▸ hstill)
          · exact hnone r hin
      | left r' x rest =>
          rw [seat, Function.update_apply] at hin
          split at hin
          · exact hnone r' (List.mem_of_mem_erase hin)
          · exact hnone r hin
      | dissolved r' =>
          rw [seat, Function.update_apply] at hin
          split at hin
          · simp at hin
          · exact hnone r hin

/-- Whoever sits in a room still sits there later, or sits nowhere. -/
theorem Valid.stays (h : Valid (H ++ H')) (hc : c ∈ members H r) :
    c ∈ members (H ++ H') r ∨ ∀ r', c ∉ members (H ++ H') r' := by
  induction H' using List.reverseRecOn with
  | nil => simpa using Or.inl hc
  | append_singleton H' e ih =>
      rw [← List.append_assoc] at h ⊢
      have hfront := h.of_append
      rcases ih hfront with hstill | hgone
      · exact seat_cases hfront.seated h.fits hstill
      · refine Or.inr (h.stays_out ?_ hgone)
        obtain ⟨x, hx, hseats⟩ := (hfront.of_append).seated.entered hc
        exact ⟨x, List.mem_append_left _ hx, hseats⟩

/-- A member who is there early and late is there in between, in one room. -/
theorem Valid.stays_between {H₁ H₂ : List (Happening ρ κ μ)} (h : Valid (H ++ H₁ ++ H₂)) {r' : ρ}
    (hearly : c ∈ members H r) (hlate : c ∈ members (H ++ H₁ ++ H₂) r') :
    c ∈ members (H ++ H₁) r := by
  have hmid := h.of_append
  rcases hmid.stays hearly with hstill | hgone
  · exact hstill
  · have hentered : Entered (H ++ H₁) c := by
      obtain ⟨x, hx, hseats⟩ := (hmid.of_append).seated.entered hearly
      exact ⟨x, List.mem_append_left _ hx, hseats⟩
    exact absurd hlate (h.stays_out hentered hgone r')

/-- They sit in one room. -/
def SitTogether (H : List (Happening ρ κ μ)) (c d : κ) : Prop :=
  ∃ r, c ∈ members H r ∧ d ∈ members H r

/-- **Two members who are together early and late are together in between.** -/
theorem Valid.together_between {H₁ H₂ : List (Happening ρ κ μ)} (h : Valid (H ++ H₁ ++ H₂))
    (hearly : SitTogether H c d) (hlate : SitTogether (H ++ H₁ ++ H₂) c d) :
    SitTogether (H ++ H₁) c d := by
  obtain ⟨r, hc, hd⟩ := hearly
  obtain ⟨r', hc', hd'⟩ := hlate
  exact ⟨r, h.stays_between hc hc', h.stays_between hd hd'⟩

end CloudMeeting.Conference
