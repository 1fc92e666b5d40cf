/-
What a conference is, before any server.

Members sit in rooms.  What has happened so far is a list of happenings: someone
hosts a room, someone joins one, a member speaks, a member leaves, a room is
dissolved, a request is answered without admitting anybody.  Everything else is
read off the list.  `members` says who sits where, and `notes` says what each party
has been told, in order.

A happening names the parties it reaches: a joiner the members already present, a
speech its audience, a departure those who remain.  `Valid` asks that these lists are
the truth about the history before, and that nobody takes a seat twice.  Those two
conditions are all the later files need; the server is shown to produce only valid
histories.
-/
import Mathlib.Tactic.Common
import Mathlib.Logic.Function.Basic
import Mathlib.Data.List.Perm.Basic
import Mathlib.Data.List.Nodup

namespace CloudMeeting.Conference

variable {ρ κ μ : Type}

/-- Something a party is told. -/
inductive Note (κ μ : Type) where
  /-- The answer to its own request. -/
  | reply (m : μ)
  /-- `c` has joined the room it sits in. -/
  | joined (c : κ)
  /-- The members present when it joined. -/
  | roster (cs : List κ)
  /-- `c` said `m`. -/
  | relayed (c : κ) (m : μ)
  /-- `c` has left the room it sits in. -/
  | left (c : κ)
deriving DecidableEq

/-- Something that happens in a conference. -/
inductive Happening (ρ κ μ : Type) where
  | answered (c : κ) (m : μ)
  | hosted (r : ρ) (c : κ) (m : μ)
  | joined (r : ρ) (c : κ) (m : μ) (present : List κ)
  | spoke (c : κ) (m : μ) (audience : List κ)
  | left (r : ρ) (c : κ) (remaining : List κ)
  | dissolved (r : ρ)

/-- Whether the note is about `c`. -/
def Note.about [DecidableEq κ] (c : κ) : Note κ μ → Bool
  | .reply _ => false
  | .joined x => x = c
  | .roster cs => c ∈ cs
  | .relayed x _ => x = c
  | .left x => x = c

/-- Whether the note lists the members present. -/
def Note.isRoster : Note κ μ → Bool
  | .roster _ => true
  | _ => false

/-- The happening gives `c` a seat. -/
def Happening.Seats (c : κ) : Happening ρ κ μ → Prop
  | .hosted _ x _ => x = c
  | .joined _ x _ _ => x = c
  | _ => False

variable [DecidableEq ρ] [DecidableEq κ]

/-- Who sits where after one more happening. -/
def seat (seats : ρ → List κ) : Happening ρ κ μ → ρ → List κ
  | .hosted r c _ => Function.update seats r [c]
  | .joined r c _ _ => Function.update seats r (seats r ++ [c])
  | .left r c _ => Function.update seats r ((seats r).erase c)
  | .dissolved r => Function.update seats r []
  | _ => seats

/-- Who sits in which room, in order of arrival. -/
def members (H : List (Happening ρ κ μ)) : ρ → List κ :=
  H.foldl seat fun _ => []

/-- What one happening tells `d`. -/
def noteFor (d : κ) : Happening ρ κ μ → List (Note κ μ)
  | .answered c m => if c = d then [.reply m] else []
  | .hosted _ c m => if c = d then [.reply m] else []
  | .joined _ c m present =>
      if c = d then [.reply m, .roster present]
      else if d ∈ present then [.joined c] else []
  | .spoke c m audience => if d ∈ audience then [.relayed c m] else []
  | .left _ c remaining => if d ∈ remaining then [.left c] else []
  | .dissolved _ => []

/-- Everything `d` has been told, in order. -/
def notes (d : κ) (H : List (Happening ρ κ μ)) : List (Note κ μ) :=
  H.flatMap (noteFor d)

/-- `c` has taken a seat at some time. -/
def Entered (H : List (Happening ρ κ μ)) (c : κ) : Prop := ∃ e ∈ H, e.Seats c

/-- `c` has left a room that stayed open. -/
def Departed (H : List (Happening ρ κ μ)) (c : κ) : Prop := ∃ r rest, .left r c rest ∈ H

/-- The lists a happening carries are the truth about the history before it. -/
def Fits (H : List (Happening ρ κ μ)) : Happening ρ κ μ → Prop
  | .answered _ _ => True
  | .hosted r c _ => members H r = [] ∧ ¬ Entered H c
  | .joined r c _ present => present.Perm (members H r) ∧ ¬ Entered H c
  | .spoke c _ audience =>
      audience = [] ∨ ∃ r, c ∈ members H r ∧ audience.Perm ((members H r).erase c)
  | .left r c remaining => c ∈ members H r ∧ remaining.Perm ((members H r).erase c)
  | .dissolved _ => True

/-- Histories in which every happening fits what came before. -/
inductive Valid : List (Happening ρ κ μ) → Prop
  | nil : Valid []
  | snoc {H : List (Happening ρ κ μ)} {e : Happening ρ κ μ} (h : Valid H) (hfits : Fits H e) :
      Valid (H ++ [e])

/-! ### Reading a history one happening at a time -/

@[simp] theorem members_nil (r : ρ) : members ([] : List (Happening ρ κ μ)) r = [] := rfl

@[simp] theorem members_snoc (H : List (Happening ρ κ μ)) (e : Happening ρ κ μ) :
    members (H ++ [e]) = seat (members H) e := by
  simp [members]

omit [DecidableEq ρ] in
@[simp] theorem notes_nil (d : κ) : notes d ([] : List (Happening ρ κ μ)) = [] := rfl

omit [DecidableEq ρ] in
@[simp] theorem notes_snoc (d : κ) (H : List (Happening ρ κ μ)) (e : Happening ρ κ μ) :
    notes d (H ++ [e]) = notes d H ++ noteFor d e := by
  simp [notes]

omit [DecidableEq ρ] [DecidableEq κ] in
@[simp] theorem entered_snoc (H : List (Happening ρ κ μ)) (e : Happening ρ κ μ) (c : κ) :
    Entered (H ++ [e]) c ↔ Entered H c ∨ e.Seats c := by
  constructor
  · intro hentered
    obtain ⟨x, hx, hs⟩ := hentered
    rcases List.mem_append.mp hx with hx | hx
    · exact Or.inl ⟨x, hx, hs⟩
    · exact Or.inr (List.mem_singleton.mp hx ▸ hs)
  · intro hentered
    rcases hentered with ⟨x, hx, hs⟩ | hs
    · exact ⟨x, List.mem_append_left _ hx, hs⟩
    · exact ⟨e, by simp, hs⟩

omit [DecidableEq ρ] [DecidableEq κ] in
@[simp] theorem not_entered_nil (c : κ) : ¬ Entered ([] : List (Happening ρ κ μ)) c := by
  intro hentered
  obtain ⟨x, hx, -⟩ := hentered
  exact absurd hx (by simp)

/-! ### Seats

One seat per party, taken once: the room lists have no repetitions, no party is in two
of them, whoever sits has entered, and whoever has left a room sits nowhere.
-/

structure Seated (H : List (Happening ρ κ μ)) : Prop where
  nodup : ∀ r, (members H r).Nodup
  entered : ∀ {r c}, c ∈ members H r → Entered H c
  single : ∀ {r r' c}, c ∈ members H r → c ∈ members H r' → r = r'
  departed : ∀ {r c}, c ∈ members H r → ¬ Departed H c
  left_entered : ∀ {c}, Departed H c → Entered H c

namespace Seated

variable {H : List (Happening ρ κ μ)}

/-- Taking a first seat in `r`, behind whoever sits there. -/
private theorem enter (h : Seated H) {e : Happening ρ κ μ} {r : ρ} {c : κ}
    (hseat : ∀ r', seat (members H) e r'
      = if r' = r then members H r ++ [c] else members H r')
    (hseats : ∀ x, e.Seats x ↔ c = x) (hnew : ¬ Entered H c)
    (hleft : ∀ x, Departed (H ++ [e]) x ↔ Departed H x) : Seated (H ++ [e]) := by
  have hmem : ∀ r' x, x ∈ members (H ++ [e]) r' ↔ x ∈ members H r' ∨ r' = r ∧ x = c := by
    intro r' x
    rw [members_snoc, hseat]
    by_cases hr : r' = r <;> simp [hr]
  have hfresh : ∀ r', c ∉ members H r' := fun r' hc => hnew (h.entered hc)
  refine ⟨?_, ?_, ?_, ?_, ?_⟩
  · intro r'
    rw [members_snoc, hseat]
    split
    · exact List.nodup_append.mpr ⟨h.nodup r, by simp, by
        intro x hx y hy hxy
        rw [List.mem_singleton] at hy
        exact hfresh r (hy ▸ hxy ▸ hx)⟩
    · exact h.nodup r'
  · intro r' x hx
    rw [entered_snoc]
    rcases (hmem r' x).mp hx with hx | ⟨-, rfl⟩
    · exact Or.inl (h.entered hx)
    · exact Or.inr ((hseats _).mpr rfl)
  · intro r₁ r₂ x h₁ h₂
    rcases (hmem r₁ x).mp h₁ with h₁ | ⟨rfl, rfl⟩ <;> rcases (hmem r₂ x).mp h₂ with h₂ | ⟨h₂, hx⟩
    · exact h.single h₁ h₂
    · exact absurd (hx ▸ h₁) (hfresh r₁)
    · exact absurd h₂ (hfresh r₂)
    · exact h₂.symm
  · intro r' x hx hd
    rw [hleft] at hd
    rcases (hmem r' x).mp hx with hx | ⟨-, rfl⟩
    · exact h.departed hx hd
    · exact hnew (h.left_entered hd)
  · intro x hd
    rw [hleft] at hd
    exact (entered_snoc _ _ _).mpr (Or.inl (h.left_entered hd))

/-- Giving up seats, without taking any. -/
private theorem vacate (h : Seated H) {e : Happening ρ κ μ}
    (hnodup : ∀ r, (seat (members H) e r).Nodup)
    (hsub : ∀ r x, x ∈ seat (members H) e r → x ∈ members H r)
    (hleft : ∀ x, Departed (H ++ [e]) x → Departed H x ∨ (∃ r, x ∈ members H r) ∧
      ∀ r, x ∉ seat (members H) e r) : Seated (H ++ [e]) := by
  refine ⟨by simpa using hnodup, ?_, ?_, ?_, ?_⟩
  · intro r x hx
    rw [members_snoc] at hx
    exact (entered_snoc _ _ _).mpr (Or.inl (h.entered (hsub r x hx)))
  · intro r r' x hx hx'
    rw [members_snoc] at hx hx'
    exact h.single (hsub r x hx) (hsub r' x hx')
  · intro r x hx hd
    rw [members_snoc] at hx
    rcases hleft x hd with hd | ⟨-, hout⟩
    · exact h.departed (hsub r x hx) hd
    · exact hout r hx
  · intro x hd
    refine (entered_snoc _ _ _).mpr (Or.inl ?_)
    rcases hleft x hd with hd | ⟨⟨r, hr⟩, -⟩
    · exact h.left_entered hd
    · exact h.entered hr

omit [DecidableEq ρ] [DecidableEq κ] in
private theorem departed_snoc {e : Happening ρ κ μ} (he : ∀ r c rest, e ≠ .left r c rest) (x : κ) :
    Departed (H ++ [e]) x ↔ Departed H x := by
  constructor
  · intro hgone
    obtain ⟨r, rest, hx⟩ := hgone
    rcases List.mem_append.mp hx with hx | hx
    · exact ⟨r, rest, hx⟩
    · exact absurd (List.mem_singleton.mp hx).symm (he _ _ _)
  · intro hgone
    obtain ⟨r, rest, hx⟩ := hgone
    exact ⟨r, rest, List.mem_append_left _ hx⟩

/-- A happening that moves nobody. -/
private theorem still (h : Seated H) {e : Happening ρ κ μ}
    (hseat : seat (members H) e = members H) (he : ∀ r c rest, e ≠ .left r c rest) :
    Seated (H ++ [e]) := by
  refine h.vacate ?_ ?_ ?_
  · intro r; rw [hseat]; exact h.nodup r
  · intro r x hx; rwa [hseat] at hx
  · intro x hd; exact Or.inl ((departed_snoc he x).mp hd)

end Seated

/-- **In a valid history everybody has at most one seat and takes it once.** -/
theorem Valid.seated {H : List (Happening ρ κ μ)} (h : Valid H) : Seated H := by
  induction h with
  | nil =>
      refine ⟨by simp, by simp, by simp, by simp, ?_⟩
      intro c hgone
      obtain ⟨r, rest, hx⟩ := hgone
      simp at hx
  | @snoc H e _ hfits ih =>
      cases e with
      | answered c m => exact ih.still rfl (by simp)
      | spoke c m audience => exact ih.still rfl (by simp)
      | hosted r c m =>
          refine ih.enter (r := r) (c := c) ?_ (fun x => Iff.rfl) hfits.2
            (Seated.departed_snoc (by simp))
          intro r'
          rw [seat, Function.update_apply, hfits.1]
          rfl
      | joined r c m present =>
          refine ih.enter (r := r) (c := c) ?_ (fun x => Iff.rfl) hfits.2
            (Seated.departed_snoc (by simp))
          intro r'
          rw [seat, Function.update_apply]
      | left r c rest =>
          have hsub : ∀ r' x, x ∈ seat (members H) (.left r c rest : Happening ρ κ μ) r' →
              x ∈ members H r' := by
            intro r' x hx
            rw [seat, Function.update_apply] at hx
            split at hx
            · rename_i hr
              exact hr ▸ List.mem_of_mem_erase hx
            · exact hx
          refine ih.vacate ?_ hsub ?_
          · intro r'
            rw [seat, Function.update_apply]
            split
            · exact (ih.nodup r).erase c
            · exact ih.nodup r'
          · intro x hgone
            obtain ⟨r₀, rest₀, hx⟩ := hgone
            rcases List.mem_append.mp hx with hx | hx
            · exact Or.inl ⟨r₀, rest₀, hx⟩
            · simp only [List.mem_singleton, Happening.left.injEq] at hx
              obtain ⟨-, rfl, -⟩ := hx
              refine Or.inr ⟨⟨r, hfits.1⟩, fun r' hin => ?_⟩
              have hr' : r' = r := ih.single (hsub r' x hin) hfits.1
              rw [seat, Function.update_apply, if_pos hr', (ih.nodup r).mem_erase_iff] at hin
              exact hin.1 rfl
      | dissolved r =>
          refine ih.vacate ?_ ?_ ?_
          · intro r'
            rw [seat, Function.update_apply]
            split
            · exact List.nodup_nil
            · exact ih.nodup r'
          · intro r' x hx
            rw [seat, Function.update_apply] at hx
            split at hx
            · simp at hx
            · exact hx
          · intro x hd
            exact Or.inl ((Seated.departed_snoc (by simp) x).mp hd)

end CloudMeeting.Conference
