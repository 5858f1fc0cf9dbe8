import AlphaOne.Foundations.Causal

/-!
# Columns of a changed table

When every row of a table is changed in the same way, a column computed from it changes too, and
often again row by row: with other units the mean of a column is the old mean in these units.
`Carries g h f f'` says that the column `f'` of the changed table is the column `f`, changed. The two
columns differ where a change turns one into another, as a change of sign turns a largest entry
into a smallest one.

As for causal columns, what is built from such columns is again one: `Carries.comp`,
`Carries.zipWith`, `Carries.zip`, `carries_states` and `carries_withPrevious`.
-/

namespace AlphaOne.Foundations

variable {α α' β β' γ γ' δ δ' σ τ : Type*}

/-- The change `g` of the rows turns the column `f` into the column `f'`, whose entries are those of
`f` changed by `h`. -/
def Carries (g : α → α') (h : β → β') (f : List α → List β) (f' : List α' → List β') : Prop :=
  ∀ xs, f' (xs.map g) = (f xs).map h

theorem carries_id (g : α → α') : Carries g g (fun xs => xs) (fun xs => xs) := fun _ => rfl

theorem carries_map {g : α → α'} {h : β → β'} {k : α → β} {k' : α' → β'}
    (heq : ∀ x, k' (g x) = h (k x)) : Carries g h (List.map k) (List.map k') := by
  intro xs
  rw [List.map_map, List.map_map]
  exact List.map_congr_left fun x _ => heq x

variable {g : α → α'} {h : β → β'} {i : γ → γ'}

theorem Carries.comp {f : List β → List γ} {f' : List β' → List γ'} {k : List α → List β}
    {k' : List α' → List β'} (hf : Carries h i f f') (hk : Carries g h k k') :
    Carries g i (fun xs => f (k xs)) (fun xs => f' (k' xs)) := by
  intro xs
  change f' (k' (xs.map g)) = (f (k xs)).map i
  rw [hk, hf]

theorem Carries.zipWith {j : δ → δ'} {f : List α → List β} {f' : List α' → List β'}
    {k : List α → List γ} {k' : List α' → List γ'} (hf : Carries g h f f')
    (hk : Carries g i k k') {op : β → γ → δ} {op' : β' → γ' → δ'}
    (heq : ∀ x y, op' (h x) (i y) = j (op x y)) :
    Carries g j (fun xs => List.zipWith op (f xs) (k xs))
      (fun xs => List.zipWith op' (f' xs) (k' xs)) := by
  intro xs
  change List.zipWith op' (f' (xs.map g)) (k' (xs.map g)) = (List.zipWith op (f xs) (k xs)).map j
  rw [hf, hk, List.zipWith_map, List.map_zipWith]
  congr 1
  funext x y
  exact heq x y

theorem Carries.zip {f : List α → List β} {f' : List α' → List β'} {k : List α → List γ}
    {k' : List α' → List γ'} (hf : Carries g h f f') (hk : Carries g i k k') :
    Carries g (Prod.map h i) (fun xs => (f xs).zip (k xs)) (fun xs => (f' xs).zip (k' xs)) :=
  hf.zipWith hk fun _ _ => rfl

/-- The changed inputs take a machine through the changed states, if its steps do so from the states
that it can reach. -/
theorem carries_states_of {step : σ → α → σ} {step' : τ → α' → τ} {t : σ → τ} {I : σ → Prop}
    {s : σ} (hs : I s) (hkeep : ∀ s x, I s → I (step s x))
    (heq : ∀ s x, I s → step' (t s) (g x) = t (step s x)) :
    Carries g t (states step s) (states step' (t s)) := by
  intro xs
  induction xs generalizing s with
  | nil => rfl
  | cons x xs ih =>
    rw [List.map_cons, states, states, List.map_cons, heq s x hs, ih (hkeep s x hs)]

theorem carries_states {step : σ → α → σ} {step' : τ → α' → τ} {t : σ → τ}
    (heq : ∀ s x, step' (t s) (g x) = t (step s x)) (s : σ) :
    Carries g t (states step s) (states step' (t s)) :=
  carries_states_of (I := fun _ => True) trivial (fun _ _ _ => trivial) fun s x _ => heq s x

theorem carries_withPrevious {f : Option α → α → β} {f' : Option α' → α' → β'}
    (heq : ∀ prev x, f' (prev.map g) (g x) = h (f prev x)) :
    Carries g h (withPrevious f none) (withPrevious f' none) := by
  have hprev : ∀ (xs : List α) (prev : Option α),
      withPrevious f' (prev.map g) (xs.map g) = (withPrevious f prev xs).map h := by
    intro xs
    induction xs with
    | nil => intro _; rfl
    | cons x xs ih =>
      intro prev
      rw [List.map_cons, withPrevious, withPrevious, List.map_cons, heq]
      exact congrArg _ (ih (some x))
  exact fun xs => hprev xs none

end AlphaOne.Foundations
