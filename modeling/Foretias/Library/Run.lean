import Mathlib.Data.List.Basic

/-!
# Labelled runs and their invariants

A step relation `step : σ → ι → σ → Prop` takes a state and an input to a next state; `Run step`
is its closure along a list of inputs. A run whose every step is taken in a state that meets a
condition `G` is a run of `Guarded step G`, so a property that holds only under a condition on
the states before the steps is stated over guarded runs, without a separate notion of execution.

The induction over runs is made once (`Run.invariant`); every prefix of a run is a run
(`Run.append_iff`), so an invariant proved at the end of a run holds at each state passed.
-/

variable {σ ι : Type*}

/-- The states joined by a list of inputs. -/
inductive Run (step : σ → ι → σ → Prop) : σ → List ι → σ → Prop
  | nil (s : σ) : Run step s [] s
  | cons {s t u : σ} {i : ι} {is : List ι} :
      step s i t → Run step t is u → Run step s (i :: is) u

/-- The steps of `step` taken in a state that admits the input. -/
def Guarded (step : σ → ι → σ → Prop) (G : σ → ι → Prop) (s : σ) (i : ι) (t : σ) : Prop :=
  G s i ∧ step s i t

namespace Run

variable {step step' : σ → ι → σ → Prop} {s t u : σ} {i : ι} {is js : List ι}

@[simp] theorem nil_iff : Run step s [] t ↔ s = t := by
  constructor
  · rintro ⟨⟩
    rfl
  · rintro rfl
    exact .nil _

@[simp] theorem cons_iff : Run step s (i :: is) u ↔ ∃ t, step s i t ∧ Run step t is u := by
  constructor
  · rintro (_ | ⟨h, hs⟩)
    exact ⟨_, h, hs⟩
  · rintro ⟨t, h, hs⟩
    exact .cons h hs

/-- A run over a concatenation splits at a state between the two parts. -/
theorem append_iff : Run step s (is ++ js) u ↔ ∃ t, Run step s is t ∧ Run step t js u := by
  induction is generalizing s with
  | nil => simp
  | cons i is ih =>
    simp only [List.cons_append, cons_iff, ih]
    constructor
    · rintro ⟨t, h, v, hv, hu⟩
      exact ⟨v, ⟨t, h, hv⟩, hu⟩
    · rintro ⟨v, ⟨t, h, hv⟩, hu⟩
      exact ⟨t, h, v, hv, hu⟩

theorem concat_iff : Run step s (is ++ [i]) u ↔ ∃ t, Run step s is t ∧ step t i u := by
  simp [append_iff]

/-- Every input of a run is taken by a step of it. -/
theorem exists_step_of_mem (hrun : Run step s is t) (hi : i ∈ is) :
    ∃ pre u v post, is = pre ++ i :: post ∧ Run step s pre u ∧ step u i v ∧ Run step v post t := by
  obtain ⟨pre, post, rfl⟩ := List.append_of_mem hi
  obtain ⟨u, hpre, hpost⟩ := append_iff.1 hrun
  obtain ⟨v, hv, hpost⟩ := cons_iff.1 hpost
  exact ⟨pre, u, v, post, rfl, hpre, hv, hpost⟩

/-- What every step preserves, every run preserves. -/
theorem invariant {I : σ → Prop} (hstep : ∀ {s i t}, I s → step s i t → I t)
    (hrun : Run step s is t) (h : I s) : I t := by
  induction hrun with
  | nil => exact h
  | cons hst _ ih => exact ih (hstep h hst)

/-- A run of fewer steps is a run of more. -/
theorem mono (hle : ∀ {s i t}, step s i t → step' s i t) (hrun : Run step s is t) :
    Run step' s is t := by
  induction hrun with
  | nil => exact .nil _
  | cons hst _ ih => exact .cons (hle hst) ih

/-- A guarded run is a run. -/
theorem of_guarded {G : σ → ι → Prop} (hrun : Run (Guarded step G) s is t) : Run step s is t :=
  hrun.mono And.right

/-! ### All steps of a run -/

/-- Every step of a run over a list of inputs satisfies `p`. -/
def AllSteps (step p : σ → ι → σ → Prop) : σ → List ι → Prop
  | _, [] => True
  | s, i :: is => ∀ t, step s i t → p s i t ∧ AllSteps step p t is

/-- Two conditions on steps that say the same where an invariant holds, and under which the
invariant is kept, say the same of all steps of a run. -/
theorem allSteps_congr {I : σ → Prop} {p q : σ → ι → σ → Prop}
    (hiff : ∀ {s i t}, I s → step s i t → (p s i t ↔ q s i t))
    (hkeep : ∀ {s i t}, I s → step s i t → p s i t → I t) (h : I s) :
    AllSteps step p s is ↔ AllSteps step q s is := by
  induction is generalizing s with
  | nil => exact Iff.rfl
  | cons i is ih =>
    refine forall₂_congr fun t hst ↦ ?_
    rw [← hiff h hst]
    exact and_congr_right fun hp ↦ ih (hkeep h hst hp)

/-- When every step is determined by the state and the input, so is the run. -/
theorem unique (hdet : ∀ {s i t u}, step s i t → step s i u → t = u)
    (ht : Run step s is t) (hu : Run step s is u) : t = u := by
  induction ht with
  | nil => exact nil_iff.1 hu
  | cons hst _ ih =>
    obtain ⟨v, hv, hrest⟩ := cons_iff.1 hu
    rw [hdet hst hv] at ih
    exact ih hrest

end Run
