import AlphaOne.Foundations.Interleaving
import Mathlib.Data.List.Count
import Mathlib.Logic.Function.Basic

/-!
# Registers in a shared table

A table holds a row for a key, or none, and rows are never deleted. Callers read a row, put a value
whether there is a row or not, or replace the value of a row that is there. A put selects the row
first and commits an insert or an update later, and between the two statements any other caller may
commit: the insert then meets the unique index, and an update that would not change what was selected
is not sent at all.

Nevertheless the table is linearisable. `takesEffect` says at which of its own moves a call does what
it asks for: a put of the selected value at its select, and any other put at its commit.

* `Pool.order`: the calls of a run in the order in which they take effect.
* `store_eq`: the table is that of the calls in this order, one after another.
* `count_order`: a call that has returned is in the order once, and one that has failed is not.
* `read_eq`: a read returns the row at its place in the order.
* `put_before_failed`: a put fails only if another put of the row has taken effect.
-/

namespace AlphaOne.Foundations

variable {κ ν : Type*} [DecidableEq κ] [DecidableEq ν]

inductive RegisterOp (κ ν : Type*)
  | read (key : κ)
  /-- Write a row, which may be new. -/
  | put (key : κ) (value : ν)
  /-- Write a row that is there. -/
  | replace (key : κ) (value : ν)
  deriving DecidableEq, Repr

/-- What a call does to the table, as a whole. -/
def RegisterOp.apply (table : κ → Option ν) : RegisterOp κ ν → κ → Option ν
  | .read _ => table
  | .put key value => Function.update table key (some value)
  | .replace key value => Function.update table key ((table key).map fun _ => value)

inductive RegisterStage (ν : Type*)
  | start
  /-- The row that was selected. -/
  | selected (seen : Option ν)
  /-- The call has returned; a read returns a row. -/
  | returned (row : Option ν)
  /-- The insert met the unique index. -/
  | failed
  deriving DecidableEq, Repr

structure RegisterCall (κ ν : Type*) where
  op : RegisterOp κ ν
  stage : RegisterStage ν := .start
  deriving DecidableEq, Repr

namespace RegisterCall

/-- The commit of a value, where `seen` is the row that was selected. -/
def commit (table : κ → Option ν) (key : κ) (value : ν) (seen : Option ν) :
    (κ → Option ν) × RegisterStage ν :=
  match seen with
  | none =>
    match table key with
    | none => (Function.update table key (some value), .returned none)
    | some _ => (table, .failed)
  | some selected =>
    if value = selected then (table, .returned none)
    else (Function.update table key ((table key).map fun _ => value), .returned none)

/-- The next statement of a call. -/
def move (call : RegisterCall κ ν) (table : κ → Option ν) : (κ → Option ν) × RegisterCall κ ν :=
  match call.stage, call.op with
  | .start, .read key => (table, { call with stage := .returned (table key) })
  | .start, .put key _ => (table, { call with stage := .selected (table key) })
  | .start, .replace key _ =>
    match table key with
    | none => (table, { call with stage := .returned none })
    | some seen => (table, { call with stage := .selected (some seen) })
  | .selected seen, .put key value | .selected seen, .replace key value =>
    let (table, stage) := commit table key value seen
    (table, { call with stage })
  | _, _ => (table, call)

/-- The next statement of a call is the one at which it takes effect. -/
def takesEffect (call : RegisterCall κ ν) (table : κ → Option ν) : Bool :=
  match call.stage, call.op with
  | .start, .read _ => true
  | .start, .put key value => table key = some value
  | .start, .replace key value => table key = none ∨ table key = some value
  | .selected none, .put key _ => table key = none
  | .selected (some seen), .put _ value | .selected (some seen), .replace _ value => value ≠ seen
  | _, _ => false

/-- How often a call has taken effect so far. -/
def effects (call : RegisterCall κ ν) : ℕ :=
  match call.stage, call.op with
  | .returned _, _ => 1
  | .selected (some seen), .put _ value | .selected (some seen), .replace _ value =>
    if value = seen then 1 else 0
  | _, _ => 0

/-- What a call has selected is still there; only a put goes on without a row. -/
def Kept (table : κ → Option ν) (call : RegisterCall κ ν) : Prop :=
  match call.stage, call.op with
  | .selected (some _), .put key _ | .selected (some _), .replace key _ => (table key).isSome
  | .selected none, .put _ _ => True
  | .selected _, _ => False
  | _, _ => True

variable {call : RegisterCall κ ν} {table : κ → Option ν}

@[simp] theorem move_op (call : RegisterCall κ ν) (table : κ → Option ν) :
    (call.move table).2.op = call.op := by
  obtain ⟨op, stage⟩ := call
  cases stage <;> cases op <;> simp only [move]
  split <;> rfl

omit [DecidableEq ν] in
theorem update_same {table : κ → Option ν} {key : κ} {row : Option ν} (h : table key = row) :
    Function.update table key row = table := h ▸ Function.update_eq_self key table

/-- **One statement**: the call takes effect on the table that it finds, or leaves it. -/
theorem move_cases (h : call.Kept table) :
    (call.move table).1 = (if call.takesEffect table then call.op.apply table else table) ∧
      (call.move table).2.effects =
        call.effects + (if call.takesEffect table then 1 else 0) := by
  obtain ⟨op, stage⟩ := call
  cases stage with
  | start =>
    cases op with
    | read key => simp [move, takesEffect, effects, RegisterOp.apply]
    | put key value =>
      cases hrow : table key with
      | none => simp [move, takesEffect, effects, hrow]
      | some seen =>
        by_cases hseen : seen = value
        · subst hseen
          simp [move, takesEffect, effects, hrow, RegisterOp.apply, update_same hrow]
        · simp [move, takesEffect, effects, hrow, hseen, Ne.symm hseen]
    | replace key value =>
      cases hrow : table key with
      | none => simp [move, takesEffect, effects, hrow, RegisterOp.apply, update_same hrow]
      | some seen =>
        by_cases hseen : seen = value
        · subst hseen
          simp [move, takesEffect, effects, hrow, RegisterOp.apply, update_same hrow]
        · simp [move, takesEffect, effects, hrow, hseen, Ne.symm hseen]
  | selected seen =>
    cases op with
    | read key => cases seen <;> exact h.elim
    | put key value =>
      cases seen with
      | none =>
        cases hrow : table key with
        | none => simp [move, commit, takesEffect, effects, hrow, RegisterOp.apply]
        | some other => simp [move, commit, takesEffect, effects, hrow]
      | some seen =>
        obtain ⟨row, hrow⟩ := Option.isSome_iff_exists.1 h
        by_cases hseen : value = seen
        · simp [move, commit, takesEffect, effects, hseen]
        · simp [move, commit, takesEffect, effects, hseen, hrow, RegisterOp.apply]
    | replace key value =>
      cases seen with
      | none => exact h.elim
      | some seen =>
        by_cases hseen : value = seen
        · simp [move, commit, takesEffect, effects, hseen]
        · simp [move, commit, takesEffect, effects, hseen, RegisterOp.apply]
  | returned row => simp [move, takesEffect, effects]
  | failed => simp [move, takesEffect, effects]

omit [DecidableEq ν] in
/-- A row that is there stays there. -/
theorem isSome_apply (op : RegisterOp κ ν) {key : κ} (h : (table key).isSome) :
    (op.apply table key).isSome := by
  cases op with
  | read other => exact h
  | put other value =>
    by_cases heq : key = other
    · simp [RegisterOp.apply, heq]
    · simpa [RegisterOp.apply, Function.update_of_ne heq] using h
  | replace other value =>
    by_cases heq : key = other
    · subst heq
      simpa [RegisterOp.apply] using h
    · simpa [RegisterOp.apply, Function.update_of_ne heq] using h

omit [DecidableEq ν] in
theorem Kept.apply (h : call.Kept table) (op : RegisterOp κ ν) : call.Kept (op.apply table) := by
  obtain ⟨own, stage⟩ := call
  cases stage with
  | start => trivial
  | selected seen =>
    cases own <;> cases seen
    all_goals first
      | exact h
      | exact isSome_apply op h
  | returned row => trivial
  | failed => trivial

theorem Kept.move (h : call.Kept table) : (call.move table).2.Kept (call.move table).1 := by
  obtain ⟨op, stage⟩ := call
  cases stage with
  | start =>
    cases op with
    | read key => trivial
    | put key value =>
      cases hrow : table key <;> simp [RegisterCall.move, Kept, hrow]
    | replace key value =>
      cases hrow : table key <;> simp [RegisterCall.move, Kept, hrow]
  | selected seen =>
    cases op with
    | read key => cases seen <;> exact h.elim
    | put key value | replace key value =>
      simp only [RegisterCall.move, commit]
      split
      · split <;> trivial
      · split <;> trivial
  | returned row => exact h
  | failed => exact h

/-- Whoever moves, the other calls keep what they have selected. -/
theorem registers_stable : Stable (move (κ := κ) (ν := ν)) (fun _ => True)
    (fun table call => call.Kept table) (fun _ _ => True) (fun _ _ => True) where
  symm := by simp
  store := by simp
  own _ _ _ h _ := h.move
  others table call other _ h _ hother _ := by
    refine ⟨?_, trivial⟩
    rw [(move_cases h).1]
    split
    · exact hother.apply call.op
    · exact hother

end RegisterCall

/-! ## Runs -/

section Runs

open RegisterCall

variable {table : κ → Option ν} {calls : List (RegisterCall κ ν)}

/-- The calls in the order in which they take effect. -/
def Pool.order (c : Pool (κ → Option ν) (RegisterCall κ ν)) : List ℕ → List ℕ
  | [] => []
  | i :: is =>
    let rest := Pool.order (c.step RegisterCall.move i) is
    if c.procs[i]?.any fun call => call.takesEffect c.store then i :: rest else rest

/-- The operations of some calls. -/
def opsOf (calls : List (RegisterCall κ ν)) (order : List ℕ) : List (RegisterOp κ ν) :=
  order.filterMap fun i => calls[i]?.map RegisterCall.op

theorem op_step (c : Pool (κ → Option ν) (RegisterCall κ ν)) (i j : ℕ) :
    (c.step RegisterCall.move i).procs[j]?.map RegisterCall.op =
      c.procs[j]?.map RegisterCall.op := by
  rw [Pool.getElem?_step]
  split
  · rw [Option.map_map]
    congr 1
    funext call
    exact move_op call c.store
  · rfl

/-- A caller keeps to its call. -/
theorem op_run (c : Pool (κ → Option ν) (RegisterCall κ ν)) (is : List ℕ) (j : ℕ) :
    (run (Pool.step RegisterCall.move) c is).procs[j]?.map RegisterCall.op =
      c.procs[j]?.map RegisterCall.op := by
  induction is generalizing c with
  | nil => rfl
  | cons i is ih => rw [run_cons, ih, op_step]

theorem opsOf_step (c : Pool (κ → Option ν) (RegisterCall κ ν)) (i : ℕ) (order : List ℕ) :
    opsOf (c.step RegisterCall.move i).procs order = opsOf c.procs order :=
  List.filterMap_congr fun j _ => op_step c i j

/-- What one move does to the table. -/
theorem store_step {c : Pool (κ → Option ν) (RegisterCall κ ν)}
    (hc : ∀ call ∈ c.procs, call.Kept c.store) (i : ℕ) :
    (c.step RegisterCall.move i).store =
      run RegisterOp.apply c.store
        (opsOf c.procs (if c.procs[i]?.any fun call => call.takesEffect c.store then [i] else [])) := by
  unfold Pool.step
  cases hi : c.procs[i]? with
  | none => rfl
  | some call =>
    simp only [Option.any_some]
    rw [(move_cases (hc call (List.mem_of_getElem? hi))).1]
    split
    · simp [opsOf, hi]
    · rfl

/-- Calls of which none has begun, or which have kept what they have selected. -/
theorem kept_step {c : Pool (κ → Option ν) (RegisterCall κ ν)}
    (hc : ∀ call ∈ c.procs, call.Kept c.store) (i : ℕ) :
    ∀ call ∈ (c.step RegisterCall.move i).procs,
      call.Kept (c.step RegisterCall.move i).store :=
  (registers_stable.step ⟨trivial, hc, List.pairwise_of_forall (by simp)⟩
    fun _ _ => trivial).procs

/-- **The table of a run** is that of its calls, one after another in their order. -/
theorem store_eq {c : Pool (κ → Option ν) (RegisterCall κ ν)}
    (hc : ∀ call ∈ c.procs, call.Kept c.store) (is : List ℕ) :
    (run (Pool.step RegisterCall.move) c is).store =
      run RegisterOp.apply c.store (opsOf c.procs (c.order is)) := by
  induction is generalizing c with
  | nil => rfl
  | cons i is ih =>
    rw [run_cons, ih (kept_step hc i), store_step hc i, opsOf_step, ← run_append, Pool.order]
    congr 1
    split
    · exact (List.filterMap_append (l := [i])).symm
    · rfl

/-- **A call takes effect** as often as its stage says. -/
theorem count_order {c : Pool (κ → Option ν) (RegisterCall κ ν)}
    (hc : ∀ call ∈ c.procs, call.Kept c.store) {i : ℕ} {call : RegisterCall κ ν}
    (hi : c.procs[i]? = some call) (is : List ℕ) :
    ∃ after, (run (Pool.step RegisterCall.move) c is).procs[i]? = some after ∧
      (c.order is).count i + call.effects = after.effects := by
  induction is generalizing c call with
  | nil => exact ⟨call, hi, by simp [Pool.order]⟩
  | cons j is ih =>
    have hstep := c.getElem?_step RegisterCall.move i j
    rw [hi, Option.map_some] at hstep
    by_cases hij : j = i
    · subst hij
      rw [if_pos rfl] at hstep
      obtain ⟨after, hafter, hcount⟩ := ih (kept_step hc j) hstep
      have heffects := (move_cases (hc call (List.mem_of_getElem? hi))).2
      refine ⟨after, hafter, ?_⟩
      rw [Pool.order, hi, Option.any_some]
      cases heffect : call.takesEffect c.store <;> simp [heffect] at heffects ⊢ <;> omega
    · rw [if_neg hij] at hstep
      obtain ⟨after, hafter, hcount⟩ := ih (kept_step hc j) hstep
      refine ⟨after, hafter, ?_⟩
      rw [Pool.order]
      split
      · rwa [List.count_cons_of_ne hij]
      · exact hcount

/-- A call that has returned does nothing more. -/
theorem returned_run {c : Pool (κ → Option ν) (RegisterCall κ ν)} {i : ℕ}
    {op : RegisterOp κ ν} {row : Option ν} (hi : c.procs[i]? = some { op, stage := .returned row })
    (is : List ℕ) : (run (Pool.step RegisterCall.move) c is).procs[i]? =
      some { op, stage := .returned row } := by
  induction is generalizing c with
  | nil => exact hi
  | cons j is ih =>
    refine ih ?_
    rw [Pool.getElem?_step, hi]
    split <;> rfl

/-- **A read** returns the row at its place in the order. -/
theorem read_eq {c : Pool (κ → Option ν) (RegisterCall κ ν)}
    (hc : ∀ call ∈ c.procs, call.Kept c.store) {i : ℕ} {key : κ}
    (hi : c.procs[i]? = some { op := .read key }) {is : List ℕ} {row : Option ν}
    (hrow : (run (Pool.step RegisterCall.move) c is).procs[i]? =
      some { op := .read key, stage := .returned row }) :
    ∃ before after, c.order is = before ++ i :: after ∧
      row = run RegisterOp.apply c.store (opsOf c.procs before) key := by
  induction is generalizing c with
  | nil =>
    rw [run_nil, hi] at hrow
    cases hrow
  | cons j is ih =>
    have hstep := c.getElem?_step RegisterCall.move i j
    rw [hi, Option.map_some] at hstep
    rw [run_cons] at hrow
    by_cases hij : j = i
    · subst hij
      rw [if_pos rfl] at hstep
      have hreturned : (c.step RegisterCall.move j).procs[j]? =
          some { op := .read key, stage := .returned (c.store key) } := hstep
      rw [returned_run hreturned] at hrow
      cases hrow
      exact ⟨[], (c.step RegisterCall.move j).order is, by simp [Pool.order, hi, takesEffect], rfl⟩
    · rw [if_neg hij] at hstep
      obtain ⟨before, after, horder, hvalue⟩ := ih (kept_step hc j) hstep hrow
      rw [store_step hc j, opsOf_step, ← run_append] at hvalue
      rw [Pool.order, horder]
      split
      · rename_i heffect
        rw [if_pos heffect] at hvalue
        refine ⟨j :: before, after, rfl, ?_⟩
        rwa [opsOf, ← List.singleton_append, List.filterMap_append]
      · rename_i heffect
        rw [if_neg heffect] at hvalue
        exact ⟨before, after, rfl, hvalue⟩

/-- What takes effect in the rest of a run does so in the run. -/
theorem mem_opsOf_cons {c : Pool (κ → Option ν) (RegisterCall κ ν)} {op : RegisterOp κ ν} {i : ℕ}
    {is : List ℕ}
    (h : op ∈ opsOf (c.step RegisterCall.move i).procs ((c.step RegisterCall.move i).order is)) :
    op ∈ opsOf c.procs (c.order (i :: is)) := by
  rw [opsOf_step] at h
  rw [Pool.order]
  split
  · rw [opsOf, ← List.singleton_append, List.filterMap_append]
    exact List.mem_append_right _ h
  · exact h

/-- An update does not fail. -/
theorem not_failed_of_selected_some {c : Pool (κ → Option ν) (RegisterCall κ ν)} {i : ℕ} {key : κ}
    {value seen : ν}
    (hi : c.procs[i]? = some { op := .put key value, stage := .selected (some seen) })
    (is : List ℕ) : (run (Pool.step RegisterCall.move) c is).procs[i]? ≠
      some { op := .put key value, stage := .failed } := by
  induction is generalizing c with
  | nil =>
    rw [run_nil, hi]
    simp
  | cons j is ih =>
    have hstep := c.getElem?_step RegisterCall.move i j
    rw [hi, Option.map_some] at hstep
    rw [run_cons]
    split at hstep
    · have hreturned : (c.step RegisterCall.move j).procs[i]? =
          some { op := .put key value, stage := .returned none } := by
        rw [hstep]
        simp only [RegisterCall.move, commit]
        split <;> rfl
      rw [returned_run hreturned]
      simp
    · exact ih hstep

omit [DecidableEq ν] in
/-- Only a put makes a new row. -/
theorem eq_put_of_isSome {op : RegisterOp κ ν} {key : κ} (hnone : table key = none)
    (hsome : (op.apply table key).isSome) : ∃ value, op = .put key value := by
  cases op with
  | read other => simp [RegisterOp.apply, hnone] at hsome
  | put other value =>
    by_cases heq : key = other
    · exact ⟨value, heq ▸ rfl⟩
    · simp [RegisterOp.apply, Function.update_of_ne heq, hnone] at hsome
  | replace other value =>
    by_cases heq : key = other
    · subst heq
      simp [RegisterOp.apply, hnone] at hsome
    · simp [RegisterOp.apply, Function.update_of_ne heq, hnone] at hsome

/-- A put that has found no row fails only if another one has taken effect. -/
theorem put_before_failed_of_selected {c : Pool (κ → Option ν) (RegisterCall κ ν)}
    (hc : ∀ call ∈ c.procs, call.Kept c.store) {i : ℕ} {key : κ} {value : ν}
    (hnone : c.store key = none)
    (hi : c.procs[i]? = some { op := .put key value, stage := .selected none }) {is : List ℕ}
    (hfailed : (run (Pool.step RegisterCall.move) c is).procs[i]? =
      some { op := .put key value, stage := .failed }) :
    ∃ other, .put key other ∈ opsOf c.procs (c.order is) := by
  induction is generalizing c with
  | nil =>
    rw [run_nil, hi] at hfailed
    cases hfailed
  | cons j is ih =>
    have hstep := c.getElem?_step RegisterCall.move i j
    have hstore := store_step hc j
    rw [hi, Option.map_some] at hstep
    rw [run_cons] at hfailed
    by_cases hij : j = i
    · -- its own commit makes the row
      subst hij
      have hreturned : (c.step RegisterCall.move j).procs[j]? =
          some { op := .put key value, stage := .returned none } := by
        rw [hstep]
        simp [RegisterCall.move, commit, hnone]
      rw [returned_run hreturned] at hfailed
      cases hfailed
    · rw [if_neg hij] at hstep
      by_cases hrow : (c.step RegisterCall.move j).store key = none
      · obtain ⟨other, hother⟩ := ih (kept_step hc j) hrow hstep hfailed
        exact ⟨other, mem_opsOf_cons hother⟩
      · -- the move has made the row
        split at hstore
        · rename_i heffect
          obtain ⟨call, hcall, -⟩ := Option.any_eq_true _ _ |>.1 heffect
          rw [hstore] at hrow
          simp only [opsOf, List.filterMap_cons, hcall, Option.map_some, List.filterMap_nil,
            run_cons, run_nil] at hrow
          obtain ⟨other, hother⟩ := eq_put_of_isSome hnone (Option.ne_none_iff_isSome.1 hrow)
          refine ⟨other, ?_⟩
          rw [Pool.order, if_pos heffect, opsOf, List.filterMap_cons, hcall, Option.map_some, hother]
          exact List.mem_cons_self
        · rw [hstore] at hrow
          exact absurd hnone hrow

/-- **No put is lost**: a put fails only if another put of the row has taken effect. -/
theorem put_before_failed {c : Pool (κ → Option ν) (RegisterCall κ ν)}
    (hc : ∀ call ∈ c.procs, call.Kept c.store) {i : ℕ} {key : κ} {value : ν}
    (hi : c.procs[i]? = some { op := .put key value }) {is : List ℕ}
    (hfailed : (run (Pool.step RegisterCall.move) c is).procs[i]? =
      some { op := .put key value, stage := .failed }) :
    ∃ other, .put key other ∈ opsOf c.procs (c.order is) := by
  induction is generalizing c with
  | nil =>
    rw [run_nil, hi] at hfailed
    cases hfailed
  | cons j is ih =>
    have hstep := c.getElem?_step RegisterCall.move i j
    rw [hi, Option.map_some] at hstep
    rw [run_cons] at hfailed
    split at hstep
    · rename_i hij
      subst hij
      have hstore : (c.step RegisterCall.move j).store = c.store := by simp [Pool.step, hi, move]
      cases hrow : c.store key with
      | none =>
        obtain ⟨other, hother⟩ := put_before_failed_of_selected (kept_step hc j) (hstore ▸ hrow)
          (by simpa [RegisterCall.move, hrow] using hstep) hfailed
        exact ⟨other, mem_opsOf_cons hother⟩
      | some seen =>
        exact absurd hfailed (not_failed_of_selected_some
          (by simpa [RegisterCall.move, hrow] using hstep) is)
    · obtain ⟨other, hother⟩ := ih (kept_step hc j) hstep hfailed
      exact ⟨other, mem_opsOf_cons hother⟩

end Runs

end AlphaOne.Foundations
