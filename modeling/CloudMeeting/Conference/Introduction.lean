/-
What a member hears about another member.

In a valid history the notes one party gets about another tell a short story.  They
begin with one introduction, go on with what the other says, and end, if the other
leaves while both still share the room, with one farewell.  Parties that never share
a room hear nothing of each other.

The proof follows the history one happening at a time.  Seats are taken once, so the
introduction cannot be repeated; whoever speaks or leaves still sits in the room, so
nothing can come before the introduction or after the farewell.
-/
import CloudMeeting.Conference.History

namespace CloudMeeting.Conference

variable {ρ κ μ : Type}

/-- `c` joined a room in which `d` was already sitting. -/
def JoinedAfter (H : List (Happening ρ κ μ)) (c d : κ) : Prop :=
  ∃ r m present, .joined r c m present ∈ H ∧ d ∈ present

/-- `c` and `d` have shared a room: one of them joined while the other was there. -/
def Met (H : List (Happening ρ κ μ)) (c d : κ) : Prop :=
  JoinedAfter H c d ∨ JoinedAfter H d c

/-- `c` left a room in which `d` stayed behind. -/
def SeenOff (H : List (Happening ρ κ μ)) (c d : κ) : Prop :=
  ∃ r rest, .left r c rest ∈ H ∧ d ∈ rest

/-- The note that introduces `c` to `d`. -/
def Introduces (H : List (Happening ρ κ μ)) (c d : κ) (n : Note κ μ) : Prop :=
  (JoinedAfter H c d ∧ n = .joined c) ∨
    ∃ r m present, .joined r d m present ∈ H ∧ c ∈ present ∧ n = .roster present

variable [DecidableEq ρ] [DecidableEq κ]

/-- The notes `d` has got about `c`. -/
def concerning (c d : κ) (H : List (Happening ρ κ μ)) : List (Note κ μ) :=
  (notes d H).filter fun n => n.about c

omit [DecidableEq ρ] in
theorem concerning_snoc (c d : κ) (H : List (Happening ρ κ μ)) (e : Happening ρ κ μ) :
    concerning c d (H ++ [e])
      = concerning c d H ++ (noteFor d e).filter (fun n => n.about c) := by
  simp [concerning]

omit [DecidableEq ρ] [DecidableEq κ] in
private theorem mem_snoc {H : List (Happening ρ κ μ)} {e x : Happening ρ κ μ} :
    x ∈ H ++ [e] ↔ x ∈ H ∨ x = e := by
  simp

/-! ### Whoever a happening names has a seat -/

theorem Fits.audience {H : List (Happening ρ κ μ)} (hs : Seated H) {c d : κ} {m : μ}
    {audience : List κ} (h : Fits H (.spoke c m audience)) (hd : d ∈ audience) :
    d ≠ c ∧ ∃ r, c ∈ members H r ∧ d ∈ members H r := by
  rcases h with rfl | ⟨r, hc, hperm⟩
  · simp at hd
  · have hmem := ((hs.nodup r).mem_erase_iff).mp (hperm.mem_iff.mp hd)
    exact ⟨hmem.1, r, hc, hmem.2⟩

theorem Fits.remaining {H : List (Happening ρ κ μ)} (hs : Seated H) {r : ρ} {c d : κ}
    {rest : List κ} (h : Fits H (.left r c rest : Happening ρ κ μ)) (hd : d ∈ rest) :
    d ≠ c ∧ c ∈ members H r ∧ d ∈ members H r := by
  have hmem := ((hs.nodup r).mem_erase_iff).mp (h.2.mem_iff.mp hd)
  exact ⟨hmem.1, h.1, hmem.2⟩

theorem Valid.joinedAfter_entered {H : List (Happening ρ κ μ)} (h : Valid H) {c d : κ}
    (hj : JoinedAfter H c d) : Entered H c ∧ Entered H d := by
  induction h with
  | nil => obtain ⟨r, m, p, hx, -⟩ := hj; simp at hx
  | @snoc H e hv hfits ih =>
      obtain ⟨r, m, p, hx, hd⟩ := hj
      rw [entered_snoc, entered_snoc]
      rcases mem_snoc.mp hx with hx | rfl
      · have := ih ⟨r, m, p, hx, hd⟩
        exact ⟨Or.inl this.1, Or.inl this.2⟩
      · exact ⟨Or.inr rfl, Or.inl (hv.seated.entered (hfits.1.mem_iff.mp hd))⟩

/-- Two parties cannot each have found the other already there. -/
theorem Valid.joinedAfter_asymm {H : List (Happening ρ κ μ)} (h : Valid H) {c d : κ}
    (hcd : JoinedAfter H c d) : ¬ JoinedAfter H d c := by
  induction h generalizing c d with
  | nil => obtain ⟨r, m, p, hx, -⟩ := hcd; simp at hx
  | @snoc H e hv hfits ih =>
      intro hdc
      obtain ⟨r', m', p', hx', hc⟩ := hdc
      obtain ⟨r, m, p, hx, hd⟩ := hcd
      rcases mem_snoc.mp hx with hx | rfl <;> rcases mem_snoc.mp hx' with hx' | heq
      · exact ih ⟨r, m, p, hx, hd⟩ ⟨r', m', p', hx', hc⟩
      · rw [← heq] at hfits
        exact hfits.2 (hv.joinedAfter_entered ⟨r, m, p, hx, hd⟩).2
      · exact hfits.2 (hv.joinedAfter_entered ⟨r', m', p', hx', hc⟩).2
      · simp only [Happening.joined.injEq] at heq
        obtain ⟨-, rfl, -, rfl⟩ := heq
        exact hfits.2 (hv.seated.entered (hfits.1.mem_iff.mp hd))

/-- Whoever sits in one room has met. -/
theorem Valid.met_of_members {H : List (Happening ρ κ μ)} (h : Valid H) {r : ρ} {c d : κ}
    (hc : c ∈ members H r) (hd : d ∈ members H r) (hne : c ≠ d) : Met H c d := by
  induction h with
  | nil => simp at hc
  | @snoc H e hv hfits ih =>
      have lift : Met H c d → Met (H ++ [e]) c d := by
        intro hmet
        rcases hmet with ⟨r, m, p, hx, hp⟩ | ⟨r, m, p, hx, hp⟩
        · exact Or.inl ⟨r, m, p, mem_snoc.mpr (Or.inl hx), hp⟩
        · exact Or.inr ⟨r, m, p, mem_snoc.mpr (Or.inl hx), hp⟩
      rw [members_snoc] at hc hd
      cases e with
      | answered x m => exact lift (ih hc hd)
      | spoke x m audience => exact lift (ih hc hd)
      | hosted r₀ x m =>
          rw [seat, Function.update_apply] at hc hd
          split at hc
          · rename_i hr
            rw [if_pos hr] at hd
            simp only [List.mem_singleton] at hc hd
            exact absurd (hc.trans hd.symm) hne
          · rename_i hr
            rw [if_neg hr] at hd
            exact lift (ih hc hd)
      | joined r₀ x m present =>
          rw [seat, Function.update_apply] at hc hd
          split at hc
          · rename_i hr
            rw [if_pos hr] at hd
            simp only [List.mem_append, List.mem_singleton] at hc hd
            rcases hc with hc | rfl <;> rcases hd with hd | rfl
            · exact lift (ih (hr ▸ hc) (hr ▸ hd))
            · exact Or.inr ⟨r₀, m, present, mem_snoc.mpr (Or.inr rfl), hfits.1.mem_iff.mpr hc⟩
            · exact Or.inl ⟨r₀, m, present, mem_snoc.mpr (Or.inr rfl), hfits.1.mem_iff.mpr hd⟩
            · exact absurd rfl hne
          · rename_i hr
            rw [if_neg hr] at hd
            exact lift (ih hc hd)
      | left r₀ x rest =>
          rw [seat, Function.update_apply] at hc hd
          split at hc
          · rename_i hr
            rw [if_pos hr] at hd
            exact lift (ih (hr ▸ List.mem_of_mem_erase hc) (hr ▸ List.mem_of_mem_erase hd))
          · rename_i hr
            rw [if_neg hr] at hd
            exact lift (ih hc hd)
      | dissolved r₀ =>
          rw [seat, Function.update_apply] at hc hd
          split at hc
          · simp at hc
          · rename_i hr
            rw [if_neg hr] at hd
            exact lift (ih hc hd)

/-- Whoever has no seat yet has been told nothing but answers. -/
theorem Valid.notes_of_not_entered {H : List (Happening ρ κ μ)} (h : Valid H) {d : κ}
    (hd : ¬ Entered H d) : ∀ n ∈ notes d H, ∃ m, n = .reply m := by
  induction h with
  | nil => simp
  | @snoc H e hv hfits ih =>
      intro n hn
      rw [entered_snoc, not_or] at hd
      rw [notes_snoc, List.mem_append] at hn
      rcases hn with hn | hn
      · exact ih hd.1 n hn
      · cases e with
        | answered c m =>
            rw [noteFor] at hn
            split at hn
            · exact ⟨m, by simpa using hn⟩
            · simp at hn
        | hosted r c m =>
            have hne : c ≠ d := hd.2
            rw [noteFor, if_neg hne] at hn
            simp at hn
        | joined r c m present =>
            have hout : d ∉ present := fun hp =>
              hd.1 (hv.seated.entered (hfits.1.mem_iff.mp hp))
            have hne : c ≠ d := hd.2
            rw [noteFor, if_neg hne, if_neg hout] at hn
            simp at hn
        | spoke c m audience =>
            have hout : d ∉ audience := fun hp => by
              obtain ⟨-, r, -, hr⟩ := hfits.audience hv.seated hp
              exact hd.1 (hv.seated.entered hr)
            rw [noteFor, if_neg hout] at hn
            simp at hn
        | left r c rest =>
            have hout : d ∉ rest := fun hp =>
              hd.1 (hv.seated.entered (hfits.remaining hv.seated hp).2.2)
            rw [noteFor, if_neg hout] at hn
            simp at hn
        | dissolved r => simp [noteFor] at hn

/-! ### The story one happening adds to -/

/-- What `d` has heard about `c` so far. -/
def Story (H : List (Happening ρ κ μ)) (c d : κ) : Prop :=
  (¬ Met H c d ∧ concerning c d H = []) ∨
    ∃ intro media tail, Met H c d ∧ concerning c d H = intro :: (media ++ tail) ∧
      Introduces H c d intro ∧ (∀ n ∈ media, ∃ m, n = .relayed c m) ∧
      ((¬ SeenOff H c d ∧ tail = []) ∨ (SeenOff H c d ∧ tail = [.left c]))

omit [DecidableEq ρ] in
/-- A happening that tells `d` nothing about `c` and is no meeting and no farewell. -/
private theorem Story.quiet {H : List (Happening ρ κ μ)} {c d : κ} (h : Story H c d)
    {e : Happening ρ κ μ} (hnote : (noteFor d e).filter (fun n => n.about c) = [])
    (hcd : JoinedAfter (H ++ [e]) c d ↔ JoinedAfter H c d)
    (hdc : JoinedAfter (H ++ [e]) d c ↔ JoinedAfter H d c)
    (hoff : SeenOff (H ++ [e]) c d ↔ SeenOff H c d) : Story (H ++ [e]) c d := by
  have hmet : Met (H ++ [e]) c d ↔ Met H c d := by rw [Met, Met, hcd, hdc]
  rw [Story, concerning_snoc, hnote, List.append_nil, hmet, hoff]
  rcases h with h | ⟨intro, media, tail, hm, hc, hi, hmedia, htail⟩
  · exact Or.inl h
  · refine Or.inr ⟨intro, media, tail, hm, hc, ?_, hmedia, htail⟩
    rcases hi with ⟨hj, rfl⟩ | ⟨r, m, p, hx, hp, rfl⟩
    · exact Or.inl ⟨hcd.mpr hj, rfl⟩
    · exact Or.inr ⟨r, m, p, mem_snoc.mpr (Or.inl hx), hp, rfl⟩

omit [DecidableEq ρ] [DecidableEq κ] in
private theorem joinedAfter_snoc {H : List (Happening ρ κ μ)} {e : Happening ρ κ μ} {c d : κ}
    (he : ∀ r m present, e = .joined r c m present → d ∉ present) :
    JoinedAfter (H ++ [e]) c d ↔ JoinedAfter H c d := by
  constructor
  · intro hafter
    obtain ⟨r, m, p, hx, hp⟩ := hafter
    rcases mem_snoc.mp hx with hx | rfl
    · exact ⟨r, m, p, hx, hp⟩
    · exact absurd hp (he r m p rfl)
  · intro hafter
    obtain ⟨r, m, p, hx, hp⟩ := hafter
    exact ⟨r, m, p, mem_snoc.mpr (Or.inl hx), hp⟩

omit [DecidableEq ρ] [DecidableEq κ] in
private theorem seenOff_snoc {H : List (Happening ρ κ μ)} {e : Happening ρ κ μ} {c d : κ}
    (he : ∀ r rest, e = .left r c rest → d ∉ rest) :
    SeenOff (H ++ [e]) c d ↔ SeenOff H c d := by
  constructor
  · intro hoff
    obtain ⟨r, rest, hx, hp⟩ := hoff
    rcases mem_snoc.mp hx with hx | rfl
    · exact ⟨r, rest, hx, hp⟩
    · exact absurd hp (he r rest rfl)
  · intro hoff
    obtain ⟨r, rest, hx, hp⟩ := hoff
    exact ⟨r, rest, mem_snoc.mpr (Or.inl hx), hp⟩

/-- A member that still sits in a room has not been seen off. -/
private theorem Seated.not_seenOff {H : List (Happening ρ κ μ)} (hs : Seated H) {r : ρ} {c d : κ}
    (hc : c ∈ members H r) : ¬ SeenOff H c d := by
  intro hoff
  obtain ⟨r', rest, hx, -⟩ := hoff
  exact hs.departed hc ⟨r', rest, hx⟩

private theorem Story.joined {H : List (Happening ρ κ μ)} (hv : Valid H) {c d x : κ}
    (hne : c ≠ d) (h : Story H c d) {r : ρ} {m : μ} {present : List κ}
    (hfits : Fits H (.joined r x m present)) :
    Story (H ++ [.joined r x m present]) c d := by
  obtain ⟨hperm, hnew⟩ := hfits
  have hoff : SeenOff (H ++ [.joined r x m present]) c d ↔ SeenOff H c d :=
    seenOff_snoc (by simp)
  by_cases hxd : x = d
  · subst hxd
    have hcd : JoinedAfter (H ++ [.joined r x m present]) c x ↔ JoinedAfter H c x :=
      joinedAfter_snoc (by intro r' m' p' heq; simp at heq; exact absurd heq.2.1.symm hne)
    have hnone : ¬ Met H c x := by
      intro hmet
      rcases hmet with hj | hj
      · exact hnew (hv.joinedAfter_entered hj).2
      · exact hnew (hv.joinedAfter_entered hj).1
    by_cases hc : c ∈ present
    · -- the newcomer's list is its introduction to everybody already there
      rcases h with ⟨-, hnil⟩ | ⟨_, _, _, hm, _⟩
      · refine Or.inr ⟨.roster present, [], [], Or.inr ⟨r, m, present, by simp, hc⟩, ?_,
          Or.inr ⟨r, m, present, by simp, hc, rfl⟩, by simp, Or.inl ⟨?_, rfl⟩⟩
        · rw [concerning_snoc, hnil]
          simp [noteFor, Note.about, hc]
        · rw [hoff]
          exact hv.seated.not_seenOff (hperm.mem_iff.mp hc)
      · exact absurd hm hnone
    · refine h.quiet ?_ hcd (joinedAfter_snoc ?_) hoff
      · simp [noteFor, Note.about, hc]
      · intro r' m' p' heq
        simp only [Happening.joined.injEq] at heq
        exact heq.2.2.2 ▸ hc
  · have hdc : JoinedAfter (H ++ [.joined r x m present]) d c ↔ JoinedAfter H d c :=
      joinedAfter_snoc (by intro r' m' p' heq; simp at heq; exact absurd heq.2.1 hxd)
    by_cases hin : x = c ∧ d ∈ present
    · obtain ⟨rfl, hd⟩ := hin
      rcases h with ⟨-, hnil⟩ | ⟨_, _, _, hm, _⟩
      · have hafter : JoinedAfter (H ++ [.joined r x m present]) x d :=
          ⟨r, m, present, by simp, hd⟩
        refine Or.inr ⟨.joined x, [], [], Or.inl hafter, ?_, Or.inl ⟨hafter, rfl⟩, by simp,
          Or.inl ⟨?_, rfl⟩⟩
        · rw [concerning_snoc, hnil]
          simp [noteFor, hxd, hd, Note.about]
        · rw [hoff]
          intro hleft
          obtain ⟨r', rest, hx, -⟩ := hleft
          exact hnew (hv.seated.left_entered ⟨r', rest, hx⟩)
      · rcases hm with hj | hj
        · exact absurd (hv.joinedAfter_entered hj).1 hnew
        · exact absurd (hv.joinedAfter_entered hj).2 hnew
    · refine h.quiet ?_ (joinedAfter_snoc ?_) hdc hoff
      · by_cases hd : d ∈ present
        · have hxc : x ≠ c := fun hc => hin ⟨hc, hd⟩
          simp [noteFor, hxd, hd, Note.about, hxc]
        · simp [noteFor, hxd, hd]
      · intro r' m' p' heq hd
        simp only [Happening.joined.injEq] at heq
        exact hin ⟨heq.2.1, heq.2.2.2 ▸ hd⟩

private theorem Story.spoke {H : List (Happening ρ κ μ)} (hv : Valid H) {c d x : κ}
    (hne : c ≠ d) (h : Story H c d) {m : μ} {audience : List κ}
    (hfits : Fits H (.spoke x m audience)) : Story (H ++ [.spoke x m audience]) c d := by
  have hcd : JoinedAfter (H ++ [.spoke x m audience]) c d ↔ JoinedAfter H c d :=
    joinedAfter_snoc (by simp)
  have hdc : JoinedAfter (H ++ [.spoke x m audience]) d c ↔ JoinedAfter H d c :=
    joinedAfter_snoc (by simp)
  have hoff : SeenOff (H ++ [.spoke x m audience]) c d ↔ SeenOff H c d := seenOff_snoc (by simp)
  by_cases hin : x = c ∧ d ∈ audience
  · obtain ⟨rfl, hd⟩ := hin
    obtain ⟨-, r, hxr, hdr⟩ := hfits.audience hv.seated hd
    rcases h with ⟨hn, -⟩ | ⟨intro, media, tail, hm, hc, hi, hmedia, htail⟩
    · exact absurd (hv.met_of_members hxr hdr hne) hn
    · -- the speaker still sits in the room, so no farewell has been said
      have hnot := hv.seated.not_seenOff (d := d) hxr
      rcases htail with ⟨-, rfl⟩ | ⟨hs, -⟩
      · refine Or.inr ⟨intro, media ++ [.relayed x m], [], ?_, ?_, ?_, ?_, Or.inl ⟨?_, rfl⟩⟩
        · rw [Met, hcd, hdc]; exact hm
        · rw [concerning_snoc, hc]
          simp [noteFor, hd, Note.about]
        · rcases hi with ⟨hj, rfl⟩ | ⟨r', m', p, hx, hp, rfl⟩
          · exact Or.inl ⟨hcd.mpr hj, rfl⟩
          · exact Or.inr ⟨r', m', p, mem_snoc.mpr (Or.inl hx), hp, rfl⟩
        · intro n hn
          rcases List.mem_append.mp hn with hn | hn
          · exact hmedia n hn
          · exact ⟨m, by simpa using hn⟩
        · rw [hoff]; exact hnot
      · exact absurd hs hnot
  · refine h.quiet ?_ hcd hdc hoff
    by_cases hd : d ∈ audience
    · have hxc : x ≠ c := fun hc => hin ⟨hc, hd⟩
      simp [noteFor, hd, Note.about, hxc]
    · simp [noteFor, hd]

private theorem Story.left {H : List (Happening ρ κ μ)} (hv : Valid H) {c d x : κ}
    (hne : c ≠ d) (h : Story H c d) {r : ρ} {rest : List κ}
    (hfits : Fits H (.left r x rest : Happening ρ κ μ)) :
    Story (H ++ [.left r x rest]) c d := by
  have hcd : JoinedAfter (H ++ [.left r x rest]) c d ↔ JoinedAfter H c d :=
    joinedAfter_snoc (by simp)
  have hdc : JoinedAfter (H ++ [.left r x rest]) d c ↔ JoinedAfter H d c :=
    joinedAfter_snoc (by simp)
  by_cases hin : x = c ∧ d ∈ rest
  · obtain ⟨rfl, hd⟩ := hin
    obtain ⟨-, hxr, hdr⟩ := hfits.remaining hv.seated hd
    rcases h with ⟨hn, -⟩ | ⟨intro, media, tail, hm, hc, hi, hmedia, htail⟩
    · exact absurd (hv.met_of_members hxr hdr hne) hn
    · rcases htail with ⟨-, rfl⟩ | ⟨hs, -⟩
      · refine Or.inr ⟨intro, media, [.left x], ?_, ?_, ?_, hmedia, Or.inr ⟨?_, rfl⟩⟩
        · rw [Met, hcd, hdc]; exact hm
        · rw [concerning_snoc, hc]
          simp [noteFor, hd, Note.about]
        · rcases hi with ⟨hj, rfl⟩ | ⟨r', m', p, hx, hp, rfl⟩
          · exact Or.inl ⟨hcd.mpr hj, rfl⟩
          · exact Or.inr ⟨r', m', p, mem_snoc.mpr (Or.inl hx), hp, rfl⟩
        · exact ⟨r, rest, by simp, hd⟩
      · exact absurd hs (hv.seated.not_seenOff hxr)
  · refine h.quiet ?_ hcd hdc (seenOff_snoc ?_)
    · by_cases hd : d ∈ rest
      · have hxc : x ≠ c := fun hc => hin ⟨hc, hd⟩
        simp [noteFor, hd, Note.about, hxc]
      · simp [noteFor, hd]
    · intro r' rest' heq hd
      simp only [Happening.left.injEq] at heq
      exact hin ⟨heq.2.1, heq.2.2 ▸ hd⟩

/-- **One introduction, then what the other says, then at most one farewell.** -/
theorem Valid.story {H : List (Happening ρ κ μ)} (h : Valid H) {c d : κ} (hne : c ≠ d) :
    Story H c d := by
  induction h with
  | nil =>
      refine Or.inl ⟨?_, rfl⟩
      intro hmet
      rcases hmet with ⟨r, m, p, hx, -⟩ | ⟨r, m, p, hx, -⟩ <;> simp at hx
  | @snoc H e hv hfits ih =>
      cases e with
      | joined r x m present => exact ih.joined hv hne hfits
      | spoke x m audience => exact ih.spoke hv hne hfits
      | left r x rest => exact ih.left hv hne hfits
      | answered x m =>
          refine ih.quiet ?_ (joinedAfter_snoc (by simp)) (joinedAfter_snoc (by simp))
            (seenOff_snoc (by simp))
          by_cases hx : x = d <;> simp [noteFor, hx, Note.about]
      | hosted r x m =>
          refine ih.quiet ?_ (joinedAfter_snoc (by simp)) (joinedAfter_snoc (by simp))
            (seenOff_snoc (by simp))
          by_cases hx : x = d <;> simp [noteFor, hx, Note.about]
      | dissolved r =>
          exact ih.quiet (by simp [noteFor]) (joinedAfter_snoc (by simp))
            (joinedAfter_snoc (by simp)) (seenOff_snoc (by simp))

/-! ### The list of members present -/

/-- The members a joiner finds are listed once each. -/
theorem Valid.present_nodup {H : List (Happening ρ κ μ)} (h : Valid H) {r : ρ} {d : κ} {m : μ}
    {present : List κ} (hx : .joined r d m present ∈ H) : present.Nodup := by
  induction h with
  | nil => simp at hx
  | @snoc H e hv hfits ih =>
      rcases mem_snoc.mp hx with hx | rfl
      · exact ih hx
      · exact hfits.1.nodup_iff.mpr (hv.seated.nodup r)

/-- **A joiner gets one list, right behind the answer to its request.** -/
theorem Valid.single_roster {H : List (Happening ρ κ μ)} (h : Valid H) {r : ρ} {d : κ} {m : μ}
    {present : List κ} (hx : .joined r d m present ∈ H) :
    ∃ pre post, notes d H = pre ++ [.reply m, .roster present] ++ post ∧
      ∀ n ∈ pre ++ post, n.isRoster = false := by
  induction h with
  | nil => simp at hx
  | @snoc H e hv hfits ih =>
      rcases mem_snoc.mp hx with hx | rfl
      · obtain ⟨pre, post, hn, hroster⟩ := ih hx
        refine ⟨pre, post ++ noteFor d e, by simp [hn], ?_⟩
        intro n hn
        rw [← List.append_assoc, List.mem_append] at hn
        rcases hn with hn | hn
        · exact hroster n hn
        · -- only a join of `d` brings a list, and `d` has joined already
          have hentered : Entered H d := ⟨_, hx, rfl⟩
          cases e with
          | joined r' x m' p' =>
              have hne : x ≠ d := fun hxd => hfits.2 (hxd ▸ hentered)
              rw [noteFor, if_neg hne] at hn
              split at hn
              · rw [List.mem_singleton.mp hn]; rfl
              · simp at hn
          | answered x m' | hosted r' x m' | spoke x m' p' | left r' x p' =>
              rw [noteFor] at hn
              split at hn
              · rw [List.mem_singleton.mp hn]; rfl
              · simp at hn
          | dissolved r' => simp [noteFor] at hn
      · refine ⟨notes d H, [], by simp [noteFor], ?_⟩
        intro n hn
        rw [List.append_nil] at hn
        obtain ⟨m', rfl⟩ := hv.notes_of_not_entered hfits.2 n hn
        rfl

end CloudMeeting.Conference
