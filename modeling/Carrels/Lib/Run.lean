/-
Runs of a step function.

A component is a state type, an event type and a partial step: `step s e` is the
state after the event `e`, or `none` when the component cannot take it (the event
is not enabled, or the component has halted).  `Reaches step ok s₀ s` says that a
run from `s₀` ends in `s` and that every step of it met `ok`, which reads the
state before the step together with the event.

The second half relates two levels of one component.  A step of the upper level is
`Refines`d by the lower level when it is one control action, or a sequence of
internal actions; an invariant of the actions is then an invariant of every run.
-/
import Mathlib.Logic.Relation

namespace StepSystem

universe u v

variable {σ : Type u} {ε : Type v}

/-- A run of `step` whose every step meets `ok` leads from `s₀` to `s`. -/
inductive Reaches (step : σ → ε → Option σ) (ok : σ → ε → Prop) (s₀ : σ) : σ → Prop
  | refl : Reaches step ok s₀ s₀
  | tail {s s' : σ} {e : ε} :
      Reaches step ok s₀ s → ok s e → step s e = some s' → Reaches step ok s₀ s'

/-- Every event is allowed. -/
def anyEvent (_ : σ) (_ : ε) : Prop := True

namespace Reaches

variable {step : σ → ε → Option σ} {ok ok' : σ → ε → Prop} {s₀ s : σ}

/-- What holds at the start and is kept by every allowed step holds of every
state a run reaches. -/
theorem invariant {I : σ → Prop} (h₀ : I s₀)
    (hstep : ∀ s e s', I s → ok s e → step s e = some s' → I s')
    (h : Reaches step ok s₀ s) : I s := by
  induction h with
  | refl => exact h₀
  | tail _ hok hs ih => exact hstep _ _ _ ih hok hs

theorem mono (hle : ∀ s e, ok s e → ok' s e) (h : Reaches step ok s₀ s) :
    Reaches step ok' s₀ s := by
  induction h with
  | refl => exact refl
  | tail _ hok hs ih => exact ih.tail (hle _ _ hok) hs

theorem trans {s₁ : σ} (h₁ : Reaches step ok s₀ s₁) (h₂ : Reaches step ok s₁ s) :
    Reaches step ok s₀ s := by
  induction h₂ with
  | refl => exact h₁
  | tail _ hok hs ih => exact ih.tail hok hs

theorem head {s₁ : σ} {e : ε} (hok : ok s₀ e) (hs : step s₀ e = some s₁)
    (h : Reaches step ok s₁ s) : Reaches step ok s₀ s :=
  (refl.tail hok hs).trans h

end Reaches

/-- Take the events in order, stopping when one is not enabled. -/
def run (step : σ → ε → Option σ) : σ → List ε → Option σ
  | s, [] => some s
  | s, e :: es => (step s e).bind fun s' => run step s' es

/-- Every step of the run of `es` meets `ok`. -/
def RunMeets (step : σ → ε → Option σ) (ok : σ → ε → Prop) : σ → List ε → Prop
  | _, [] => True
  | s, e :: es => ok s e ∧ ∀ s' ∈ step s e, RunMeets step ok s' es

theorem RunMeets.mono {step : σ → ε → Option σ} {ok ok' : σ → ε → Prop} {es : List ε} {s : σ}
    (hle : ∀ s e, ok s e → ok' s e) (h : RunMeets step ok s es) : RunMeets step ok' s es := by
  induction es generalizing s with
  | nil => trivial
  | cons e es ih => exact ⟨hle s e h.1, fun s' hs' => ih (h.2 s' hs')⟩

instance decidableRunMeets (step : σ → ε → Option σ) (ok : σ → ε → Prop)
    [∀ s e, Decidable (ok s e)] : ∀ (s : σ) (es : List ε), Decidable (RunMeets step ok s es)
  | _, [] => .isTrue trivial
  | s, e :: es =>
    have := fun s' => decidableRunMeets step ok s' es
    inferInstanceAs (Decidable (ok s e ∧ ∀ s' ∈ step s e, RunMeets step ok s' es))

theorem run_append (step : σ → ε → Option σ) (s : σ) (es fs : List ε) :
    run step s (es ++ fs) = (run step s es).bind fun s' => run step s' fs := by
  induction es generalizing s with
  | nil => rfl
  | cons e es ih =>
    rw [List.cons_append, run, run]
    cases step s e with
    | none => rfl
    | some s' => exact ih s'

theorem reaches_of_run {step : σ → ε → Option σ} {ok : σ → ε → Prop} {es : List ε} {s s' : σ}
    (hok : RunMeets step ok s es) (h : run step s es = some s') : Reaches step ok s s' := by
  induction es generalizing s with
  | nil =>
    rw [run, Option.some.injEq] at h
    exact h ▸ .refl
  | cons e es ih =>
    obtain ⟨s₁, hs₁, hrun⟩ := Option.bind_eq_some_iff.mp h
    exact .head hok.1 hs₁ (ih (hok.2 s₁ hs₁) hrun)

theorem runMeets_anyEvent (step : σ → ε → Option σ) (s : σ) (es : List ε) :
    RunMeets step anyEvent s es := by
  induction es generalizing s with
  | nil => trivial
  | cons e es ih => exact ⟨trivial, fun s' _ => ih s'⟩

/-- A condition that does not read the state is met by a run as soon as every
event of it meets the condition. -/
theorem runMeets_of_forall {step : σ → ε → Option σ} {ok : σ → ε → Prop} (es : List ε)
    (h : ∀ e ∈ es, ∀ s, ok s e) (s : σ) : RunMeets step ok s es := by
  induction es generalizing s with
  | nil => trivial
  | cons e es ih =>
    exact ⟨h e List.mem_cons_self s,
      fun s' _ => ih (fun e' he' => h e' (List.mem_cons_of_mem e he')) s'⟩

/-- The events that a run does not keep change nothing, so it comes out the same without them. -/
theorem run_filter {step : σ → ε → Option σ} {ok : σ → ε → Prop} {I : σ → Prop} {keep : ε → Bool}
    (hI : ∀ s e s', I s → ok s e → step s e = some s' → I s')
    (hskip : ∀ s e, I s → ok s e → keep e = false → step s e = some s) {es : List ε} {s : σ}
    (h : I s) (hok : RunMeets step ok s es) : run step s es = run step s (es.filter keep) := by
  induction es generalizing s with
  | nil => rfl
  | cons e es ih =>
    cases hkeep : keep e with
    | false =>
      have hs := hskip s e h hok.1 hkeep
      rw [List.filter_cons_of_neg (by simp [hkeep]), run, hs, Option.bind_some]
      exact ih h (hok.2 s hs)
    | true =>
      rw [List.filter_cons_of_pos hkeep, run, run]
      cases hs : step s e with
      | none => rfl
      | some s' => exact ih (hI s e s' h hok.1 hs) (hok.2 s' hs)

/-! ## Two levels -/

section Refinement

variable {α : Type*}

/-- The step from `s` to `s'` is one control action taken at `s`, or a sequence of
internal actions. -/
inductive Refines (control : σ → α → σ → Prop) (internal : σ → σ → Prop)
    (allowed : α → Prop) (s s' : σ) : Prop
  | control (a : α) (ha : allowed a) (h : control s a s')
  | internal (h : Relation.ReflTransGen internal s s')

theorem preserved_of_reflTransGen {internal : σ → σ → Prop} {I : σ → Prop}
    (hint : ∀ s s', I s → internal s s' → I s') {s s' : σ}
    (h : Relation.ReflTransGen internal s s') (hI : I s) : I s' := by
  induction h with
  | refl => exact hI
  | tail _ hs ih => exact hint _ _ ih hs

/-- What the control action and the internal actions keep, the step keeps. -/
theorem Refines.preserves {control : σ → α → σ → Prop} {internal : σ → σ → Prop}
    {allowed : α → Prop} {s s' : σ} {I : σ → Prop}
    (h : Refines control internal allowed s s') (hI : I s)
    (hctl : ∀ a, allowed a → control s a s' → I s')
    (hint : ∀ t t', I t → internal t t' → I t') : I s' := by
  cases h with
  | control a ha h => exact hctl a ha h
  | internal h => exact preserved_of_reflTransGen hint h hI

end Refinement

end StepSystem
