/-
Runs of a system given by a partial step function.

`step s e` is the state after event `e`, or nothing when `e` cannot happen in `s`.
A run is a list of events.  Two things are said about runs over and over: that
every step of one meets a condition on the state before it (`Steps`), and that a
property holds in every state one passes through (`Throughout`).  An invariant is
proved once, on a single step, and `throughout_of_step` carries it along the run.

Where steps bring things in and take things out, `gathered` lists them along a run,
and `balance` carries from a step to a run that what was there and came in is what
is there and went out.
-/
import Mathlib.Tactic.Common

namespace CloudMeeting.Run

variable {σ ε : Type}

/-- The state after a list of events, when each can happen in its turn. -/
def run (step : σ → ε → Option σ) : σ → List ε → Option σ
  | s, [] => some s
  | s, e :: es => (step s e).bind fun s' => run step s' es

/-- Reached from `init` by some run. -/
def Reachable (step : σ → ε → Option σ) (init s : σ) : Prop :=
  ∃ es, run step init es = some s

/-- Every step of the run meets `P` in the state it is taken in. -/
def Steps (step : σ → ε → Option σ) (P : σ → ε → Prop) : σ → List ε → Prop
  | _, [] => True
  | s, e :: es => P s e ∧ ∀ s', step s e = some s' → Steps step P s' es

/-- `I` holds in every state the run passes through. -/
def Throughout (step : σ → ε → Option σ) (I : σ → Prop) : σ → List ε → Prop
  | s, [] => I s
  | s, e :: es => I s ∧ ∀ s', step s e = some s' → Throughout step I s' es

/-- What the steps of a run bring forth, in their order. -/
def gathered {α : Type} (step : σ → ε → Option σ) (out : σ → ε → List α) : σ → List ε → List α
  | _, [] => []
  | s, e :: es =>
      out s e ++ match step s e with
        | some s' => gathered step out s' es
        | none => []

variable {step : σ → ε → Option σ}

@[simp] theorem run_nil (s : σ) : run step s [] = some s := rfl

theorem run_cons (s : σ) (e : ε) (es : List ε) :
    run step s (e :: es) = (step s e).bind fun s' => run step s' es := rfl

theorem run_cons_some {s t : σ} {e : ε} {es : List ε} (h : run step s (e :: es) = some t) :
    ∃ s', step s e = some s' ∧ run step s' es = some t := by
  rw [run_cons, Option.bind_eq_some_iff] at h
  exact h

theorem run_append (s : σ) (es es' : List ε) :
    run step s (es ++ es') = (run step s es).bind fun s' => run step s' es' := by
  induction es generalizing s with
  | nil => rfl
  | cons e es ih =>
      rw [List.cons_append, run_cons, run_cons, Option.bind_assoc]
      congr 1
      funext s'
      exact ih s'

/-- What one step preserves, a run preserves. -/
theorem run_invariant {I : σ → Prop} (hstep : ∀ s e s', I s → step s e = some s' → I s')
    {es : List ε} {s t : σ} (hs : I s) (h : run step s es = some t) : I t := by
  induction es generalizing s with
  | nil =>
      rw [run_nil, Option.some.injEq] at h
      exact h ▸ hs
  | cons e es ih =>
      obtain ⟨s', he, hrest⟩ := run_cons_some h
      exact ih (hstep s e s' hs he) hrest

theorem Reachable.invariant {I : σ → Prop} {init s : σ} (h : Reachable step init s)
    (hinit : I init) (hstep : ∀ s e s', I s → step s e = some s' → I s') : I s := by
  obtain ⟨es, hes⟩ := h
  exact run_invariant hstep hinit hes

theorem Reachable.run {init s t : σ} (h : Reachable step init s) {es : List ε}
    (hes : run step s es = some t) : Reachable step init t := by
  obtain ⟨es', hes'⟩ := h
  exact ⟨es' ++ es, by rw [run_append, hes', Option.bind_some, hes]⟩

theorem Reachable.next {init s s' : σ} (h : Reachable step init s) {e : ε}
    (he : step s e = some s') : Reachable step init s' := by
  have hone : Run.run step s [e] = some s' := by
    rw [run_cons, he]
    rfl
  exact h.run hone

theorem Throughout.head {I : σ → Prop} {s : σ} {es : List ε} (h : Throughout step I s es) :
    I s := by
  cases es with
  | nil => exact h
  | cons e es => exact h.1

/-- Where a step is taken the rest of the run is what follows it. -/
theorem throughout_cons_some {I : σ → Prop} {s s' : σ} {e : ε} {es : List ε} (hs : I s)
    (he : step s e = some s') : Throughout step I s (e :: es) ↔ Throughout step I s' es := by
  constructor
  · intro h
    exact h.2 s' he
  · intro h
    refine ⟨hs, fun s'' he' => ?_⟩
    rw [he, Option.some.injEq] at he'
    exact he' ▸ h

theorem Steps.of_forall {P : σ → ε → Prop} (h : ∀ s e, P s e) (s : σ) (es : List ε) :
    Steps step P s es := by
  induction es generalizing s with
  | nil => exact trivial
  | cons e es ih => exact ⟨h s e, fun s' _ => ih s'⟩

theorem Steps.of_mem {P : σ → ε → Prop} {es : List ε} (h : ∀ s, ∀ e ∈ es, P s e) {s : σ} :
    Steps step P s es := by
  induction es generalizing s with
  | nil => exact trivial
  | cons e es ih =>
      refine ⟨h s e List.mem_cons_self, fun s' _ => ih fun s₁ e₁ he₁ => ?_⟩
      exact h s₁ e₁ (List.mem_cons_of_mem e he₁)

/-- An invariant of the steps that meet a condition holds along a run of such steps. -/
theorem throughout_of_step {I : σ → Prop} {P : σ → ε → Prop}
    (hstep : ∀ s e s', I s → P s e → step s e = some s' → I s')
    {es : List ε} {s : σ} (hs : I s) (h : Steps step P s es) : Throughout step I s es := by
  induction es generalizing s with
  | nil => exact hs
  | cons e es ih =>
      refine ⟨hs, fun s' he => ih (hstep s e s' hs h.1 he) (h.2 s' he)⟩

/-- Where breaking a condition spoils the next state, a run without spoiled states keeps it. -/
theorem steps_of_throughout {I : σ → Prop} {P : σ → ε → Prop}
    (hspoil : ∀ s e, I s → ¬ P s e → ∃ s', step s e = some s' ∧ ¬ I s')
    {es : List ε} {s : σ} (h : Throughout step I s es) : Steps step P s es := by
  induction es generalizing s with
  | nil => exact trivial
  | cons e es ih =>
      refine ⟨?_, fun s' he => ih (h.2 s' he)⟩
      by_contra hbroken
      obtain ⟨s', he, hspoiled⟩ := hspoil s e h.1 hbroken
      exact hspoiled (h.2 s' he).head

/-- Where an invariant holds, one condition on the steps may follow from another. -/
theorem Steps.mono_of_invariant {I : σ → Prop} {P Q : σ → ε → Prop}
    (hstep : ∀ s e s', I s → P s e → step s e = some s' → I s')
    (hPQ : ∀ s e, I s → P s e → Q s e) {es : List ε} {s : σ} (hs : I s)
    (h : Steps step P s es) : Steps step Q s es := by
  induction es generalizing s with
  | nil => exact trivial
  | cons e es ih =>
      exact ⟨hPQ s e hs h.1, fun s' he => ih (hstep s e s' hs h.1 he) (h.2 s' he)⟩

theorem gathered_cons {α : Type} {out : σ → ε → List α} {s s' : σ} {e : ε}
    (he : step s e = some s') (es : List ε) :
    gathered step out s (e :: es) = out s e ++ gathered step out s' es := by
  rw [gathered, he]

/-- What was there and came in is what is there and went out. -/
theorem balance {α : Type} (held : σ → Nat) (gain loss : σ → ε → List α) (p : α → Bool)
    {I : σ → Prop} {P : σ → ε → Prop}
    (hkeep : ∀ s e s', I s → P s e → step s e = some s' → I s')
    (hstep : ∀ s e s', I s → P s e → step s e = some s' →
      held s' + (loss s e).countP p = held s + (gain s e).countP p)
    {es : List ε} {s t : σ} (hs : I s) (h : Steps step P s es) (hrun : run step s es = some t) :
    held t + (gathered step loss s es).countP p =
      held s + (gathered step gain s es).countP p := by
  induction es generalizing s with
  | nil =>
      rw [run_nil, Option.some.injEq] at hrun
      subst hrun
      rfl
  | cons e es ih =>
      obtain ⟨s', he, hrest⟩ := run_cons_some hrun
      have hfirst := hstep s e s' hs h.1 he
      have hlater := ih (hkeep s e s' hs h.1 he) (h.2 s' he) hrest
      rw [gathered_cons he, gathered_cons he, List.countP_append, List.countP_append]
      omega

/-- Where each step is matched by one of an abstract model, a run is, and is never stuck. -/
theorem run_simulates {τ : Type} {spec : τ → ε → τ} {R : σ → τ → Prop} {P : σ → ε → Prop}
    (hstep : ∀ s a e, R s a → P s e → ∃ s', step s e = some s' ∧ R s' (spec a e))
    {es : List ε} {s : σ} {a : τ} (hs : R s a) (h : Steps step P s es) :
    ∃ t, run step s es = some t ∧ R t (es.foldl spec a) ∧
      Throughout step (fun s => ∃ a, R s a) s es := by
  induction es generalizing s a with
  | nil => exact ⟨s, rfl, hs, a, hs⟩
  | cons e es ih =>
      obtain ⟨s', he, hnext⟩ := hstep s a e hs h.1
      obtain ⟨t, hrun, hend, hthroughout⟩ := ih hnext (h.2 s' he)
      refine ⟨t, by rw [run_cons, he, Option.bind_some, hrun], hend, ?_⟩
      exact (throughout_cons_some ⟨a, hs⟩ he).mpr hthroughout

instance Steps.decidable {P : σ → ε → Prop} [∀ s e, Decidable (P s e)] :
    ∀ s es, Decidable (Steps step P s es)
  | _, [] => isTrue trivial
  | s, e :: es =>
      have : Decidable (∀ s', step s e = some s' → Steps step P s' es) :=
        match h : step s e with
        | none => isTrue fun s' hs' => by simp at hs'
        | some s₁ =>
            have := Steps.decidable (P := P) s₁ es
            decidable_of_iff (Steps step P s₁ es) (by simp)
      inferInstanceAs (Decidable (_ ∧ _))

theorem Throughout.mono {I J : σ → Prop} (hIJ : ∀ s, I s → J s) {es : List ε} {s : σ}
    (h : Throughout step I s es) : Throughout step J s es := by
  induction es generalizing s with
  | nil => exact hIJ s h
  | cons e es ih => exact ⟨hIJ s h.1, fun s' he => ih (h.2 s' he)⟩

/-- What every step preserves holds along with anything else. -/
theorem Throughout.and_invariant {I J : σ → Prop}
    (hJ : ∀ s e s', J s → step s e = some s' → J s') {es : List ε} {s : σ} (hs : J s)
    (h : Throughout step I s es) : Throughout step (fun s => I s ∧ J s) s es := by
  induction es generalizing s with
  | nil => exact ⟨h, hs⟩
  | cons e es ih => exact ⟨⟨h.1, hs⟩, fun s' he => ih (hJ s e s' hs he) (h.2 s' he)⟩

/-- The last state of a run is one it passes through. -/
theorem Throughout.last {I : σ → Prop} {es : List ε} {s t : σ}
    (h : Throughout step I s es) (hrun : run step s es = some t) : I t := by
  induction es generalizing s with
  | nil =>
      rw [run_nil, Option.some.injEq] at hrun
      exact hrun ▸ h
  | cons e es ih =>
      obtain ⟨s', he, hrest⟩ := run_cons_some hrun
      exact ih (h.2 s' he) hrest

end CloudMeeting.Run
