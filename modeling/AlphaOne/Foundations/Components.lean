import AlphaOne.Foundations.Run
import Mathlib.Logic.Function.Basic

/-!
# Systems of independent components

A system of components, each with a state and a step function of its own, that take their steps in
any order. What happens to one of them is what would happen if the others did not exist:
`run_componentStep`. An invariant of all components is kept if each of them keeps it
(`Always.of_components`).
-/

namespace AlphaOne.Foundations

variable {κ σ ι : Type*} [DecidableEq κ] (step : κ → σ → ι → σ)

/-- The component the input is for takes its step. -/
def componentStep (s : κ → σ) (e : κ × ι) : κ → σ := Function.update s e.1 (step e.1 (s e.1) e.2)

/-- The inputs for one component, in their order. -/
def inputsOf (k : κ) (es : List (κ × ι)) : List ι :=
  es.filterMap fun e => if e.1 = k then some e.2 else none

theorem componentStep_self (s : κ → σ) (k : κ) (i : ι) :
    componentStep step s (k, i) k = step k (s k) i := Function.update_self ..

theorem componentStep_of_ne (s : κ → σ) {k : κ} {e : κ × ι} (h : e.1 ≠ k) :
    componentStep step s e k = s k := Function.update_of_ne (Ne.symm h) ..

/-- **A component does not notice the others.** -/
theorem run_componentStep (s : κ → σ) (es : List (κ × ι)) (k : κ) :
    run (componentStep step) s es k = run (step k) (s k) (inputsOf k es) := by
  induction es generalizing s with
  | nil => rfl
  | cons e es ih =>
    rw [run_cons, ih]
    by_cases h : e.1 = k
    · subst h
      have hinputs : inputsOf e.1 (e :: es) = e.2 :: inputsOf e.1 es := by simp [inputsOf]
      rw [hinputs, run_cons, componentStep_self step s e.1 e.2]
    · have hinputs : inputsOf k (e :: es) = inputsOf k es := by simp [inputsOf, h]
      rw [hinputs, componentStep_of_ne step s h]

variable {step}

/-- An invariant of the components, under a condition on the steps of the whole system. -/
theorem Always.of_components {P : κ → σ → Prop} {C : (κ → σ) → κ × ι → Prop} {s : κ → σ}
    {es : List (κ × ι)} (hstep : ∀ s k i, P k (s k) → C s (k, i) → P k (step k (s k) i))
    (hs : ∀ k, P k (s k)) (hg : Guarded (componentStep step) C s es) :
    Always (componentStep step) (fun s => ∀ k, P k (s k)) s es := by
  refine Always.of_guarded (fun s e hP hC k => ?_) hs hg
  by_cases h : e.1 = k
  · subst h
    rw [componentStep_self step s e.1 e.2]
    exact hstep s e.1 e.2 (hP e.1) hC
  · rw [componentStep_of_ne step s h]
    exact hP k

end AlphaOne.Foundations
