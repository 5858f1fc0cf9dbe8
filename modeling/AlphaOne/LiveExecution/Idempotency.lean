import AlphaOne.Foundations.Interleaving
import AlphaOne.LiveExecution.Executor

/-!
# Idempotent execution

Any number of calls of the executor may be under way for one idempotency key, each looking it up,
inserting, losing against the unique index, reading back. The call whose insert goes through owns
the row, and it alone evaluates the gates and attempts an order; every other call ends with the row
it finds.

What matters for this is the `Footprint` of the store: which rows exist under which keys, the keys
whose gates were evaluated and those under which an order was attempted. `move_footprint` says what
each statement does to it, and `idempotent` is the invariant for all interleavings.
-/

namespace AlphaOne.Live

open Foundations

/-! ## What a statement does -/

/-- The rows that exist, by id and key, and what was done under which key. -/
structure Footprint where
  rows : List (ℕ × String)
  evaluated : List String
  attempted : List String
  deriving DecidableEq, Repr

def LiveStore.footprint (s : LiveStore) : Footprint :=
  { rows := s.executions.map fun e => (e.id, e.idempotencyKey)
    evaluated := s.evaluated
    attempted := s.attempted.map OrderRequest.clientOrderId }

/-- The row a call has inserted and is working on. -/
def ExecutionStage.owned : ExecutionStage → Option LiveExecution
  | .received e | .parsed e | .countingOpen e _ | .readingConflict e _ _ | .readingBudget e _ _ _
  | .evaluated e _ | .riskApproved e | .attempted e => some e
  | .start | .inserting | .rolledBack _ | .ended _ => none

/-- The key a call works under. -/
def ExecutionCall.key (call : ExecutionCall) : String := call.candidate.key

theorem updateExecution_footprint (id : ℕ) (change : LiveExecution → LiveExecution) (s : LiveStore)
    (h : ∀ e, (change e).id = e.id ∧ (change e).idempotencyKey = e.idempotencyKey) :
    (updateExecution id change s).footprint = s.footprint := by
  simp only [LiveStore.footprint, updateExecution, List.map_map]
  congr 1
  refine List.map_congr_left fun e _ => ?_
  by_cases he : e.id = id
  · simp [he, h e]
  · simp [he]

theorem decide_keeps (report : GateReport) (e : LiveExecution) :
    (e.decide report).id = e.id ∧ (e.decide report).idempotencyKey = e.idempotencyKey := by
  unfold LiveExecution.decide
  split <;> exact ⟨rfl, rfl⟩

theorem getExistingExecution_none {key : String} {s : LiveStore} :
    getExistingExecution key s = none ↔ key ∉ s.footprint.rows.map Prod.snd := by
  unfold getExistingExecution
  rw [lookup_eq_none_iff]
  simp [LiveStore.footprint]

theorem mem_of_getExistingExecution {key : String} {s : LiveStore} {e : LiveExecution}
    (h : getExistingExecution key s = some e) :
    (e.id, key) ∈ s.footprint.rows ∧ e.idempotencyKey = key := by
  have hkey : e.idempotencyKey = key := key_of_lookup h
  refine ⟨?_, hkey⟩
  rw [← hkey]
  exact List.mem_map_of_mem (mem_of_lookup h)

/-- The insert of a key that has no row, -/
theorem insertExecution_of_none {c : LiveExecutionCandidate} {s : LiveStore}
    (h : getExistingExecution c.key s = none) :
    insertExecution c s =
      ({ s with nextId := s.nextId + 1
                executions := s.executions ++ [receivedExecution c s.nextId] },
        .received (receivedExecution c s.nextId)) := by
  have hnext : getExistingExecution c.key { s with nextId := s.nextId + 1 } = none := h
  simp only [insertExecution, hnext]

/-- and of one that has a row. -/
theorem insertExecution_of_some {c : LiveExecutionCandidate} {s : LiveStore} {e : LiveExecution}
    (h : getExistingExecution c.key s = some e) :
    insertExecution c s =
      ({ s with nextId := s.nextId + 1 }, .rolledBack (receivedExecution c s.nextId)) := by
  have hnext : getExistingExecution c.key { s with nextId := s.nextId + 1 } = some e := h
  simp only [insertExecution, hnext]

section

variable (settings : Settings) (client : OrderClient)

/-- **What a statement does to the footprint**: the insert of a new key adds its row, the owner of a
row records its evaluation and its order, and nothing else changes. -/
theorem move_footprint (call : ExecutionCall) (s : LiveStore) :
    (call.move settings client s).1.footprint =
      match call.stage with
      | .inserting =>
        match getExistingExecution call.key s with
        | some _ => s.footprint
        | none => { s.footprint with rows := s.footprint.rows ++ [(s.nextId, call.key)] }
      | .parsed _ => { s.footprint with evaluated := s.footprint.evaluated ++ [call.key] }
      | .attempted _ => { s.footprint with attempted := s.footprint.attempted ++ [call.key] }
      | _ => s.footprint := by
  unfold ExecutionCall.move
  cases hs : call.stage with
  | start =>
    dsimp only
    split <;> rfl
  | inserting =>
    dsimp only [ExecutionCall.key]
    cases hlookup : getExistingExecution call.candidate.key s with
    | none =>
      rw [insertExecution_of_none hlookup]
      simp [LiveStore.footprint, receivedExecution]
    | some e =>
      rw [insertExecution_of_some hlookup]
      rfl
  | rolledBack e => rfl
  | received e => exact updateExecution_footprint _ _ _ fun _ => ⟨rfl, rfl⟩
  | parsed e => rfl
  | countingOpen e b => rfl
  | readingConflict e b n => rfl
  | readingBudget e b n c => rfl
  | evaluated e report => exact updateExecution_footprint _ _ _ (decide_keeps report)
  | riskApproved e => exact updateExecution_footprint _ _ _ fun _ => ⟨rfl, rfl⟩
  | attempted e =>
    have hlog : LiveStore.footprint { s with attempted := s.attempted ++ [orderOf call.candidate] } =
        { s.footprint with attempted := s.footprint.attempted ++ [call.key] } := by
      simp [LiveStore.footprint, orderOf, ExecutionCall.key]
    simp only [attemptOrder]
    split
    · exact hlog
    · rename_i message _
      have hkeep := updateExecution_footprint e.id (LiveExecution.refuse message)
        { s with attempted := s.attempted ++ [orderOf call.candidate] } fun _ => ⟨rfl, rfl⟩
      exact hkeep.trans hlog
  | ended e => rfl

/-! ## The invariant -/

/-- One row under each key, at most one evaluation and at most one order, and these for keys that
have a row. -/
structure Footprint.Sound (f : Footprint) : Prop where
  unique : (f.rows.map Prod.snd).Nodup
  evaluated : f.evaluated.Nodup
  attempted : f.attempted.Nodup
  evaluated_row : ∀ k ∈ f.evaluated, k ∈ f.rows.map Prod.snd
  attempted_row : ∀ k ∈ f.attempted, k ∈ f.rows.map Prod.snd

/-- The row that is held exists under the key. -/
def Holds (f : Footprint) (key : String) (e : LiveExecution) : Prop :=
  (e.id, key) ∈ f.rows ∧ e.idempotencyKey = key

/-- What a call relies on: its row, and that nobody has done for its key what is left to it. -/
def ExecutionCall.Knows (f : Footprint) (call : ExecutionCall) : Prop :=
  match call.stage with
  | .start | .inserting => True
  | .rolledBack _ => call.key ∈ f.rows.map Prod.snd
  | .received e | .parsed e =>
    Holds f call.key e ∧ call.key ∉ f.attempted ∧ call.key ∉ f.evaluated
  | .countingOpen e _ | .readingConflict e _ _ | .readingBudget e _ _ _ | .evaluated e _
  | .riskApproved e | .attempted e => Holds f call.key e ∧ call.key ∉ f.attempted
  | .ended e => Holds f call.key e

/-- Two owners have different keys. -/
def Apart (p q : ExecutionCall) : Prop :=
  p.stage.owned.isSome = true → q.stage.owned.isSome = true → p.key ≠ q.key

/-- What a call knows outlives a step that keeps the rows and does nothing under its key that is
left to it. -/
theorem ExecutionCall.Knows.mono {f f' : Footprint} {call : ExecutionCall} (h : call.Knows f)
    (hrows : ∀ r ∈ f.rows, r ∈ f'.rows)
    (hattempted : call.stage.owned.isSome = true → call.key ∉ f.attempted →
      call.key ∉ f'.attempted)
    (hevaluated : call.stage.owned.isSome = true → call.key ∉ f.evaluated →
      call.key ∉ f'.evaluated) : call.Knows f' := by
  have hholds : ∀ e, Holds f call.key e → Holds f' call.key e := fun e he => ⟨hrows _ he.1, he.2⟩
  unfold ExecutionCall.Knows at *
  cases hs : call.stage with
  | start | inserting => trivial
  | rolledBack e =>
    rw [hs] at h
    obtain ⟨r, hr, hk⟩ := List.mem_map.1 h
    exact List.mem_map.2 ⟨r, hrows r hr, hk⟩
  | received e | parsed e =>
    rw [hs] at h hattempted hevaluated
    exact ⟨hholds e h.1, hattempted rfl h.2.1, hevaluated rfl h.2.2⟩
  | countingOpen e | readingConflict e | readingBudget e | evaluated e | riskApproved e
  | attempted e =>
    rw [hs] at h hattempted
    exact ⟨hholds e h.1, hattempted rfl h.2⟩
  | ended e =>
    rw [hs] at h
    exact hholds e h

theorem ExecutionCall.Knows.owned_row {f : Footprint} {call : ExecutionCall} (h : call.Knows f)
    {e : LiveExecution} (he : call.stage.owned = some e) : (e.id, call.key) ∈ f.rows := by
  unfold ExecutionCall.Knows at h
  cases hs : call.stage <;> rw [hs] at h he <;> cases he <;> exact h.1.1

/-- The rows only grow. -/
theorem rows_subset_move (call : ExecutionCall) (s : LiveStore) :
    ∀ r ∈ s.footprint.rows, r ∈ (call.move settings client s).1.footprint.rows := by
  intro r hr
  rw [move_footprint]
  split
  · split
    · exact hr
    · exact List.mem_append_left _ hr
  · exact hr
  · exact hr
  · exact hr

theorem sound_move {call : ExecutionCall} {s : LiveStore} (h : s.footprint.Sound)
    (hcall : call.Knows s.footprint) : (call.move settings client s).1.footprint.Sound := by
  rw [move_footprint]
  cases hs : call.stage with
  | inserting =>
    dsimp only
    cases hlookup : getExistingExecution call.key s with
    | some e => exact h
    | none =>
      have hnew := getExistingExecution_none.1 hlookup
      refine ⟨?_, h.evaluated, h.attempted, ?_, ?_⟩
      · rw [List.map_append]
        exact nodup_append_singleton h.unique hnew
      · intro k hk
        simpa using Or.inl (List.mem_map.1 (h.evaluated_row k hk))
      · intro k hk
        simpa using Or.inl (List.mem_map.1 (h.attempted_row k hk))
  | parsed e =>
    simp only [ExecutionCall.Knows, hs] at hcall
    obtain ⟨⟨hrow, -⟩, -, hnew⟩ := hcall
    refine ⟨h.unique, nodup_append_singleton h.evaluated hnew, h.attempted, ?_, h.attempted_row⟩
    · intro k hk
      rcases List.mem_append.1 hk with hk | hk
      · exact h.evaluated_row k hk
      · obtain rfl : k = call.key := by simpa using hk
        exact List.mem_map.2 ⟨_, hrow, rfl⟩
  | attempted e =>
    simp only [ExecutionCall.Knows, hs] at hcall
    obtain ⟨⟨hrow, -⟩, hnew⟩ := hcall
    refine ⟨h.unique, h.evaluated, nodup_append_singleton h.attempted hnew, h.evaluated_row, ?_⟩
    · intro k hk
      rcases List.mem_append.1 hk with hk | hk
      · exact h.attempted_row k hk
      · obtain rfl : k = call.key := by simpa using hk
        exact List.mem_map.2 ⟨_, hrow, rfl⟩
  | start | rolledBack | received | countingOpen | readingConflict | readingBudget | evaluated
  | riskApproved | ended => exact h

theorem knows_move {call : ExecutionCall} {s : LiveStore} (hcall : call.Knows s.footprint)
    (hsound : s.footprint.Sound) :
    (call.move settings client s).2.Knows (call.move settings client s).1.footprint := by
  rw [move_footprint]
  unfold ExecutionCall.move ExecutionCall.Knows
  have hcall' := hcall
  unfold ExecutionCall.Knows at hcall'
  cases hs : call.stage with
  | start =>
    dsimp only
    cases hlookup : getExistingExecution call.candidate.key s with
    | none => trivial
    | some e => exact mem_of_getExistingExecution hlookup
  | inserting =>
    dsimp only [ExecutionCall.key]
    cases hlookup : getExistingExecution call.candidate.key s with
    | some e =>
      rw [insertExecution_of_some hlookup]
      have hrow := (mem_of_getExistingExecution hlookup).1
      exact List.mem_map.2 ⟨_, hrow, rfl⟩
    | none =>
      rw [insertExecution_of_none hlookup]
      have hnew := getExistingExecution_none.1 hlookup
      refine ⟨⟨List.mem_append_right _ (List.mem_singleton.2 rfl), rfl⟩, ?_, ?_⟩
      · exact fun hk => hnew (hsound.attempted_row _ hk)
      · exact fun hk => hnew (hsound.evaluated_row _ hk)
  | rolledBack e =>
    rw [hs] at hcall'
    cases hlookup : getExistingExecution call.candidate.key s with
    | none => exact absurd hcall' (getExistingExecution_none.1 hlookup)
    | some w =>
      simp only [hlookup, Option.getD_some]
      exact mem_of_getExistingExecution hlookup
  | received e =>
    rw [hs] at hcall'
    exact hcall'
  | parsed e =>
    rw [hs] at hcall'
    exact ⟨hcall'.1, hcall'.2.1⟩
  | countingOpen e | readingConflict e | readingBudget e | riskApproved e =>
    rw [hs] at hcall'
    exact hcall'
  | evaluated e report =>
    rw [hs] at hcall'
    obtain ⟨hid, hkey⟩ := decide_keeps report e
    have hholds : Holds s.footprint call.key (e.decide report) :=
      ⟨hid ▸ hcall'.1.1, hkey.trans hcall'.1.2⟩
    cases hr : report.approved with
    | true =>
      simp only [hr, if_true]
      exact ⟨hholds, hcall'.2⟩
    | false =>
      simp only [hr, Bool.false_eq_true, if_false]
      exact hholds
  | attempted e =>
    rw [hs] at hcall'
    cases hsubmit : client.submitFuturesOrder (orderOf call.candidate) with
    | ok =>
      simp only [attemptOrder, hsubmit]
      exact hcall'.1
    | error message =>
      simp only [attemptOrder, hsubmit]
      exact hcall'.1
  | ended e =>
    rw [hs] at hcall'
    exact hcall'

/-- Only the owner of a row records anything under its key. -/
theorem records_move (call : ExecutionCall) (s : LiveStore) {k : String}
    (hk : call.stage.owned.isSome = true → k ≠ call.key) :
    (k ∉ s.footprint.attempted → k ∉ (call.move settings client s).1.footprint.attempted) ∧
      (k ∉ s.footprint.evaluated → k ∉ (call.move settings client s).1.footprint.evaluated) := by
  rw [move_footprint]
  cases hs : call.stage with
  | inserting =>
    dsimp only
    split <;> exact ⟨id, id⟩
  | parsed e =>
    rw [hs] at hk
    refine ⟨id, fun hnot hmem => ?_⟩
    rcases List.mem_append.1 hmem with hmem | hmem
    · exact hnot hmem
    · exact hk rfl (List.mem_singleton.1 hmem)
  | attempted e =>
    rw [hs] at hk
    refine ⟨fun hnot hmem => ?_, id⟩
    rcases List.mem_append.1 hmem with hmem | hmem
    · exact hnot hmem
    · exact hk rfl (List.mem_singleton.1 hmem)
  | start | rolledBack | received | countingOpen | readingConflict | readingBudget | evaluated
  | riskApproved | ended => exact ⟨id, id⟩

/-- A statement makes a call an owner only by inserting a key that has no row. -/
theorem owned_move {call : ExecutionCall} {s : LiveStore}
    (h : (call.move settings client s).2.stage.owned.isSome = true) :
    call.stage.owned.isSome = true ∨ call.key ∉ s.footprint.rows.map Prod.snd := by
  unfold ExecutionCall.move at h
  cases hs : call.stage with
  | start =>
    rw [hs] at h
    dsimp only at h
    split at h <;> cases h
  | inserting =>
    refine Or.inr (getExistingExecution_none.1 ?_)
    rw [hs] at h
    cases hlookup : getExistingExecution call.candidate.key s with
    | none => exact hlookup
    | some e =>
      dsimp only at h
      rw [insertExecution_of_some hlookup] at h
      cases h
  | rolledBack e =>
    rw [hs] at h
    cases h
  | ended e =>
    rw [hs] at h
    cases h
  | received | parsed | countingOpen | readingConflict | readingBudget | evaluated | riskApproved
  | attempted => exact Or.inl rfl

/-- **One statement** keeps the store sound, what every call knows, and the owners apart. -/
theorem executionCalls_stable : Stable (ExecutionCall.move settings client)
    (fun s => s.footprint.Sound) (fun s call => call.Knows s.footprint) Apart
    (fun _ _ => True) where
  symm p q h hq hp := (h hp hq).symm
  store s call h hcall _ := sound_move settings client h hcall
  own s call h hcall _ := knows_move settings client hcall h
  others s call other h hcall _ hother hapart := by
    have hkey : other.stage.owned.isSome = true → call.stage.owned.isSome = true →
        other.key ≠ call.key := fun ho hc => (hapart hc ho).symm
    refine ⟨?_, ?_⟩
    · refine hother.mono (rows_subset_move settings client call s) ?_ ?_
      · exact fun ho => (records_move settings client call s (hkey ho)).1
      · exact fun ho => (records_move settings client call s (hkey ho)).2
    · intro hcall' ho
      rcases owned_move settings client hcall' with hc | hnew
      · exact hapart hc ho
      · -- the row of the other owner has its key already
        intro heq
        obtain ⟨e, he⟩ := Option.isSome_iff_exists.1 ho
        have hrow := hother.owned_row he
        exact hnew (List.mem_map.2 ⟨_, hrow, heq.symm⟩)

/-! ## Any number of calls -/

/-- The database before a run: it enforces the unique index, and nothing has been done in the run.
-/
structure LiveStore.Initial (s : LiveStore) : Prop where
  unique : UniqueKey LiveExecution.idempotencyKey s.executions
  evaluated : s.evaluated = []
  attempted : s.attempted = []

theorem LiveStore.Initial.sound {s : LiveStore} (h : s.Initial) : s.footprint.Sound := by
  have hrows : s.footprint.rows.map Prod.snd = s.executions.map LiveExecution.idempotencyKey := by
    simp [LiveStore.footprint, Function.comp_def]
  constructor
  · rw [hrows]
    exact h.unique
  · simp [LiveStore.footprint, h.evaluated]
  · simp [LiveStore.footprint, h.attempted]
  · simp [LiveStore.footprint, h.evaluated]
  · simp [LiveStore.footprint, h.attempted]

/-- The number of statements a call has left at most. -/
def ExecutionStage.left : ExecutionStage → ℕ
  | .start => 10
  | .inserting => 9
  | .received _ => 8
  | .parsed _ => 7
  | .countingOpen _ _ => 6
  | .readingConflict _ _ _ => 5
  | .readingBudget _ _ _ _ => 4
  | .evaluated _ _ => 3
  | .riskApproved _ => 2
  | .attempted _ | .rolledBack _ => 1
  | .ended _ => 0

theorem left_move (s : LiveStore) (call : ExecutionCall) :
    (call.move settings client s).2.stage.left ≤ call.stage.left - 1 := by
  unfold ExecutionCall.move
  cases hs : call.stage with
  | start =>
    dsimp only
    split <;> simp [ExecutionStage.left]
  | inserting =>
    simp only [insertExecution]
    split <;> simp [ExecutionStage.left]
  | evaluated e report =>
    dsimp only
    split <;> simp [ExecutionStage.left]
  | attempted e =>
    simp only [attemptOrder]
    split <;> simp [ExecutionStage.left]
  | rolledBack | received | parsed | countingOpen | readingConflict | readingBudget | riskApproved
  | ended => exact le_rfl

/-- What holds of the store and the calls at any time: one row under a key, its gates evaluated and
its order attempted at most once, and every call that has returned has returned that row. -/
structure Idempotent (c : Pool LiveStore ExecutionCall) : Prop where
  unique : UniqueKey LiveExecution.idempotencyKey c.store.executions
  evaluated : c.store.evaluated.Nodup
  attempted : (c.store.attempted.map OrderRequest.clientOrderId).Nodup
  returned : ∀ call ∈ c.procs, ∀ e, call.stage = .ended e →
    ∃ row, c.store.executions.filter (fun r => r.idempotencyKey = call.key) = [row] ∧
      e.id = row.id ∧ e.idempotencyKey = call.key

theorem idempotent_of_invariant {c : Pool LiveStore ExecutionCall}
    (h : c.Invariant (fun s => s.footprint.Sound) (fun s call => call.Knows s.footprint) Apart) :
    Idempotent c := by
  have hunique : UniqueKey LiveExecution.idempotencyKey c.store.executions := by
    have := h.store.unique
    simpa [LiveStore.footprint, Function.comp_def, UniqueKey] using this
  refine ⟨hunique, h.store.evaluated, h.store.attempted, ?_⟩
  intro call hcall e he
  have hknows := h.procs call hcall
  simp only [ExecutionCall.Knows, he] at hknows
  obtain ⟨hrow, hkey⟩ := hknows
  obtain ⟨row, hmem, heq⟩ := List.mem_map.1 hrow
  obtain ⟨hid, hrowkey⟩ := Prod.mk.inj heq
  refine ⟨row, ?_, hid.symm, hkey⟩
  rw [← hrowkey]
  exact hunique.filter_key hmem

/-- **Idempotent execution**: in any interleaving of any number of calls, of one key or of several,
there is at any time one row at most under each key, its gates are evaluated and its order attempted
at most once, and every call that has returned has returned the one row of its key. A call that is
given ten turns has returned. -/
theorem idempotent {s : LiveStore} (h : s.Initial)
    (candidates : List (LiveExecutionCandidate × GateInputs)) (schedule : List ℕ) :
    Always (Pool.step (ExecutionCall.move settings client)) Idempotent
        ⟨s, executionCalls candidates⟩ schedule ∧
      ∀ i < candidates.length, 10 ≤ schedule.count i → ∃ call e,
        (run (Pool.step (ExecutionCall.move settings client)) ⟨s, executionCalls candidates⟩
          schedule).procs[i]? = some call ∧ call.stage = .ended e := by
  have hstart : Pool.Invariant (fun s : LiveStore => s.footprint.Sound)
      (fun s call => ExecutionCall.Knows s.footprint call) Apart
      ⟨s, executionCalls candidates⟩ := by
    refine ⟨h.sound, ?_, ?_⟩
    · intro call hcall
      obtain ⟨c, -, rfl⟩ := List.mem_map.1 hcall
      trivial
    · refine List.pairwise_map.2 (List.pairwise_of_forall fun _ _ howned => ?_)
      cases howned
  have hall := (executionCalls_stable settings client).always hstart
    (Guarded.of_forall (fun _ _ _ _ => trivial) _ schedule)
  refine ⟨hall.mono fun _ hc => idempotent_of_invariant hc, ?_⟩
  intro i hi hturns
  have hp : (executionCalls candidates)[i]? =
      some { candidate := candidates[i].1, inputs := candidates[i].2 } := by
    simp [executionCalls, hi]
  obtain ⟨call, hcall, hle⟩ := run_measure (μ := fun call => call.stage.left)
    (ExecutionCall.move settings client) (left_move settings client)
    (c := ⟨s, executionCalls candidates⟩) hp schedule
  have hten : call.stage.left ≤ 10 - schedule.count i := hle
  have hzero : call.stage.left = 0 := by omega
  refine ⟨call, ?_⟩
  cases hs : call.stage <;> rw [hs] at hzero <;> simp [ExecutionStage.left] at hzero
  exact ⟨_, hcall, rfl⟩

end

/-- A candidate of an external signal. -/
def candidateOf (signalId : String) : LiveExecutionCandidate × GateInputs :=
  ({ source := "TELEGRAM_EXTERNAL", symbol := "BTC/USDT", direction := "LONG", entryPrice := 100,
     stopLoss := some 95, takeProfit1 := some 110, signalId := some signalId },
   { usdtInrRate := none, marketDataHealthy := true, coindcxAccountHealthy := true,
     dailyLossOk := true, dailyLossReason := "OK", reconciliationOk := true,
     reconciliationReason := "OK", now := 0 })

/-- Two calls of one key, both of which look it up before either inserts: the second loses against
the index and returns the row of the first. -/
theorem idempotent_two_calls :
    Always (Pool.step (ExecutionCall.move {} orderClient)) Idempotent
      ⟨{}, executionCalls [candidateOf "1", candidateOf "1"]⟩
      [0, 1, 0, 1, 1, 0, 0, 0, 0, 0, 0, 0, 0, 0, 1, 1, 1, 1, 1, 1, 1] :=
  (idempotent {} orderClient (s := {})
    ⟨List.nodup_nil, rfl, rfl⟩ [candidateOf "1", candidateOf "1"] _).1

end AlphaOne.Live
