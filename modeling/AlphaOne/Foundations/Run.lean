import Mathlib.Data.List.Basic

/-!
# Runs of a step function

A system that takes one input after another is a step function `σ → ι → σ`; its run over a list
of inputs is the left fold. This module is the vocabulary in which the properties of whole runs
are stated, and the induction each of them goes through.

* `Always step P s is`: `P` holds in every state the run over `is` visits, from `s` on.
* `Guarded step C s is`: every input of the run meets the condition `C` in the state in which
  it is taken.
* `Always.of_guarded`: an invariant that is kept by every step meeting `C` holds along every
  run whose steps meet `C`; `always_iff_guarded_of_invariant` is the exact form, when a step
  leads to `P` if and only if it meets `C`.
-/

namespace AlphaOne.Foundations

variable {σ ι : Type*} (step : σ → ι → σ)

/-- The state a run reaches from `s` by taking the inputs in order. -/
def run (s : σ) (is : List ι) : σ := is.foldl step s

@[simp] theorem run_nil (s : σ) : run step s [] = s := rfl

@[simp] theorem run_cons (s : σ) (i : ι) (is : List ι) :
    run step s (i :: is) = run step (step s i) is := rfl

theorem run_append (s : σ) (is js : List ι) :
    run step s (is ++ js) = run step (run step s is) js :=
  List.foldl_append ..

/-- `P` holds in every state the run visits, the first and the last included. -/
def Always (P : σ → Prop) : σ → List ι → Prop
  | s, [] => P s
  | s, i :: is => P s ∧ Always P (step s i) is

/-- Every input of the run meets `C` in the state in which it is taken. -/
def Guarded (C : σ → ι → Prop) : σ → List ι → Prop
  | _, [] => True
  | s, i :: is => C s i ∧ Guarded C (step s i) is

instance decidableAlways (P : σ → Prop) [DecidablePred P] :
    ∀ s is, Decidable (Always step P s is)
  | s, [] => inferInstanceAs (Decidable (P s))
  | s, i :: is =>
    have := decidableAlways P (step s i) is
    inferInstanceAs (Decidable (P s ∧ Always step P (step s i) is))

instance decidableGuarded (C : σ → ι → Prop) [∀ s i, Decidable (C s i)] :
    ∀ s is, Decidable (Guarded step C s is)
  | _, [] => inferInstanceAs (Decidable True)
  | s, i :: is =>
    have := decidableGuarded C (step s i) is
    inferInstanceAs (Decidable (C s i ∧ Guarded step C (step s i) is))

variable {step} {P Q : σ → Prop} {C : σ → ι → Prop}

theorem Always.head {s : σ} {is : List ι} (h : Always step P s is) : P s := by
  cases is with
  | nil => exact h
  | cons i is => exact h.1

/-- The last state of a run is one of those it visits. -/
theorem Always.last {s : σ} {is : List ι} (h : Always step P s is) : P (run step s is) := by
  induction is generalizing s with
  | nil => exact h
  | cons i is ih => exact ih h.2

theorem Always.mono {s : σ} {is : List ι} (h : Always step P s is) (hPQ : ∀ s, P s → Q s) :
    Always step Q s is := by
  induction is generalizing s with
  | nil => exact hPQ _ h
  | cons i is ih => exact ⟨hPQ _ h.1, ih h.2⟩

/-- An invariant every step keeps holds along every run. -/
theorem Always.of_step {s : σ} (hstep : ∀ s i, P s → P (step s i)) (hs : P s) (is : List ι) :
    Always step P s is := by
  induction is generalizing s with
  | nil => exact hs
  | cons i is ih => exact ⟨hs, ih (hstep s i hs)⟩

/-- An invariant that steps meeting `C` keep holds along every run whose steps meet `C`. -/
theorem Always.of_guarded {s : σ} {is : List ι} (hstep : ∀ s i, P s → C s i → P (step s i))
    (hs : P s) (hg : Guarded step C s is) : Always step P s is := by
  induction is generalizing s with
  | nil => exact hs
  | cons i is ih => exact ⟨hs, ih (hstep s i hs hg.1) hg.2⟩

/-- Two systems that take the same inputs stay related when each step keeps them so. -/
theorem run_relates {τ : Type*} {step' : τ → ι → τ} {R : σ → τ → Prop} {s : σ} {t : τ}
    {is : List ι} (hstep : ∀ s t, ∀ i ∈ is, R s t → R (step s i) (step' t i)) (h : R s t) :
    R (run step s is) (run step' t is) := by
  induction is generalizing s t with
  | nil => exact h
  | cons i is ih =>
    have hhead := hstep s t i (by simp) h
    exact ih (fun s t j hj => hstep s t j (by simp [hj])) hhead

theorem guarded_append {s : σ} {is js : List ι} : Guarded step C s (is ++ js) ↔
    Guarded step C s is ∧ Guarded step C (run step s is) js := by
  induction is generalizing s with
  | nil => simp [Guarded]
  | cons i is ih => simp [Guarded, ih, and_assoc]

theorem Guarded.mono {D : σ → ι → Prop} {s : σ} {is : List ι} (hg : Guarded step C s is)
    (hCD : ∀ s i, C s i → D s i) : Guarded step D s is := by
  induction is generalizing s with
  | nil => trivial
  | cons i is ih => exact ⟨hCD _ _ hg.1, ih hg.2⟩

/-- A condition that every step meets. -/
theorem Guarded.of_forall (h : ∀ s i, C s i) (s : σ) (is : List ι) : Guarded step C s is := by
  induction is generalizing s with
  | nil => trivial
  | cons i is ih => exact ⟨h s i, ih _⟩

/-- What all inputs of a run have in common can be added to its condition. -/
theorem Guarded.and_forall {D : ι → Prop} {s : σ} {is : List ι} (hg : Guarded step C s is)
    (h : ∀ i ∈ is, D i) : Guarded step (fun s i => C s i ∧ D i) s is := by
  induction is generalizing s with
  | nil => trivial
  | cons i is ih => exact ⟨⟨hg.1, h i (by simp)⟩, ih hg.2 fun j hj => h j (by simp [hj])⟩

/-- A property of steps that follows from their condition and an invariant of the states. -/
theorem Guarded.of_invariant {I : σ → Prop} {D : σ → ι → Prop} {s : σ} {is : List ι}
    (hkeep : ∀ s i, I s → C s i → I (step s i)) (hprop : ∀ s i, I s → C s i → D s i) (hs : I s)
    (hg : Guarded step C s is) : Guarded step D s is := by
  induction is generalizing s with
  | nil => trivial
  | cons i is ih => exact ⟨hprop s i hs hg.1, ih (hkeep s i hs hg.1) hg.2⟩

/-- The exact form for runs whose inputs meet `A`, and with an invariant that implies `P`: steps
that meet `C` keep the invariant, and a step that leads to `P` has met `C`. -/
theorem always_iff_guarded_of_invariant {I : σ → Prop} {A : σ → ι → Prop} {s : σ} {is : List ι}
    (hprop : ∀ s, I s → P s) (hkeep : ∀ s i, I s → A s i → C s i → I (step s i))
    (hback : ∀ s i, I s → A s i → P (step s i) → C s i) (hs : I s) (hA : Guarded step A s is) :
    Always step P s is ↔ Guarded step C s is := by
  induction is generalizing s with
  | nil => exact ⟨fun _ => trivial, fun _ => hprop s hs⟩
  | cons i is ih =>
    constructor
    · rintro ⟨-, h⟩
      have hC := hback s i hs hA.1 h.head
      exact ⟨hC, (ih (hkeep s i hs hA.1 hC) hA.2).1 h⟩
    · rintro ⟨hC, hg⟩
      exact ⟨hprop s hs, (ih (hkeep s i hs hA.1 hC) hA.2).2 hg⟩

end AlphaOne.Foundations
