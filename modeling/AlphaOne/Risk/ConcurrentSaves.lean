import AlphaOne.Foundations.Interleaving
import AlphaOne.Risk.StateStore
import Mathlib.Data.List.Permutation

/-!
# Concurrent saves of the risk engine

A request loads the row of the risk engine, changes the engine in memory, selects the row once more
and commits the whole engine over it. Nothing locks the row in between, and a request that commits
late writes over what others have committed since it loaded.

The requests of a run take effect one after another, each as a whole, when every request finds at
its second select and at its commit the row it has loaded (`saves_serialise`). Two exits that both
load before either commits lose one of the two results.
-/

namespace AlphaOne.Risk

open Foundations

/-- How far a request has come. -/
inductive SaveStage
  | start
  /-- The engine is loaded from `row` and changed; `save_risk_engine` is about to select. -/
  | loaded (row : Option RiskPayload) (engine : RiskEngine)
  /-- `save_risk_engine` has found `seen` and is about to commit. -/
  | selected (row : Option RiskPayload) (engine : RiskEngine) (seen : Option RiskPayload)
  /-- The request has returned, or its insert met the unique index on `bot_state.key`. -/
  | ended (ok : Bool)
  deriving DecidableEq, Repr

structure SaveCall where
  request : RiskRequest
  stage : SaveStage := .start
  deriving DecidableEq, Repr

/-- The commit of an engine, where `seen` is the row the save has selected: an insert if there was
none, and an update if the value differs. -/
def commitEngine (engine : RiskEngine) (seen row : Option RiskPayload) :
    Option RiskPayload × SaveStage :=
  match seen with
  | none =>
    match row with
    | none => (some (serialize engine), .ended true)
    | some _ => (row, .ended false)
  | some value =>
    if serialize engine = value then (row, .ended true)
    else (row.map fun _ => serialize engine, .ended true)

/-- The next statement of a request. -/
def SaveCall.move (call : SaveCall) (row : Option RiskPayload) : Option RiskPayload × SaveCall :=
  match call.stage with
  | .start =>
    if call.request.op.touchesEngine then
      (row, { call with
        stage := .loaded row (call.request.op.apply (loadRiskEngine call.request.today row)) })
    else (row, { call with stage := .ended true })
  | .loaded loaded engine => (row, { call with stage := .selected loaded engine row })
  | .selected _ engine seen =>
    let (row, stage) := commitEngine engine seen row
    (row, { call with stage })
  | .ended _ => (row, call)

/-- Requests of which none has begun. -/
def saveCalls (requests : List RiskRequest) : List SaveCall := requests.map fun r => { request := r }

/-- The request has returned. -/
def SaveCall.returned (call : SaveCall) : Bool := call.stage = .ended true

/-- On the row it has selected, a save stores its engine. -/
theorem commitEngine_unchanged (engine : RiskEngine) (row : Option RiskPayload) :
    commitEngine engine row row = (some (serialize engine), .ended true) := by
  cases row with
  | none => rfl
  | some value =>
    by_cases h : serialize engine = value
    · simp [commitEngine, h]
    · simp [commitEngine, h]

/-- A request that nobody interrupts. -/
theorem saveCall_alone (request : RiskRequest) (row : Option RiskPayload) :
    alone SaveCall.move { request } row 3 =
      (request.perform row, { request, stage := .ended true }) := by
  by_cases h : request.op.touchesEngine = true
  · simp only [alone, SaveCall.move, RiskRequest.perform, h, if_true, commitEngine_unchanged]
  · simp only [alone, SaveCall.move, RiskRequest.perform, if_neg h]

/-- **Nobody interferes**: the row is the one that the request has loaded, when it is selected once
more and when it is written. -/
def SaveCall.Undisturbed (row : Option RiskPayload) (call : SaveCall) : Prop :=
  match call.stage with
  | .loaded loaded _ | .selected loaded _ _ => row = loaded
  | .start | .ended _ => True

instance (row : Option RiskPayload) (call : SaveCall) : Decidable (call.Undisturbed row) :=
  match h : call.stage with
  | .loaded loaded _ | .selected loaded _ _ =>
    decidable_of_iff (row = loaded) (by simp [SaveCall.Undisturbed, h])
  | .start | .ended _ => isTrue (by simp [SaveCall.Undisturbed, h])

/-- What a request that has not been disturbed holds: the engine it has changed is that of the row
it has loaded, and so is the row it has selected. -/
def SaveCall.Loaded (call : SaveCall) : Prop :=
  match call.stage with
  | .start => True
  | .loaded row engine => call.request.op.touchesEngine = true ∧
      engine = call.request.op.apply (loadRiskEngine call.request.today row)
  | .selected row engine seen => call.request.op.touchesEngine = true ∧
      engine = call.request.op.apply (loadRiskEngine call.request.today row) ∧ seen = row
  | .ended ok => ok = true

theorem SaveCall.Loaded.move {call : SaveCall} {row : Option RiskPayload} (h : call.Loaded)
    (hrow : call.Undisturbed row) : (call.move row).2.Loaded := by
  obtain ⟨request, stage⟩ := call
  cases stage with
  | start =>
    by_cases ht : request.op.touchesEngine = true
    · simp [SaveCall.move, SaveCall.Loaded, ht]
    · simp [SaveCall.move, SaveCall.Loaded, ht]
  | loaded loaded engine =>
    obtain ⟨ht, he⟩ := h
    exact ⟨ht, he, hrow⟩
  | selected loaded engine seen =>
    obtain ⟨-, -, rfl⟩ := h
    obtain rfl : row = seen := hrow
    simp [SaveCall.move, commitEngine_unchanged, SaveCall.Loaded]
  | ended ok => exact h

/-- One statement of a request leaves the row, or performs the whole request on it. -/
theorem SaveCall.move_cases {call : SaveCall} {row : Option RiskPayload} (h : call.Loaded)
    (hrow : call.Undisturbed row) :
    ((call.move row).1 = row ∧ (call.move row).2.returned = call.returned) ∨
      (call.returned = false ∧ (call.move row).2.returned = true ∧
        (call.move row).1 = call.request.perform row) := by
  obtain ⟨request, stage⟩ := call
  cases stage with
  | start =>
    by_cases ht : request.op.touchesEngine = true
    · exact Or.inl (by simp [SaveCall.move, SaveCall.returned, ht])
    · exact Or.inr (by simp [SaveCall.move, SaveCall.returned, RiskRequest.perform, ht])
  | loaded loaded engine => exact Or.inl ⟨rfl, by simp [SaveCall.move, SaveCall.returned]⟩
  | selected loaded engine seen =>
    obtain ⟨ht, he, rfl⟩ := h
    obtain rfl : row = seen := hrow
    dsimp only at ht he
    subst he
    refine Or.inr ?_
    simp [SaveCall.move, commitEngine_unchanged, SaveCall.returned, RiskRequest.perform, ht]
  | ended ok => exact Or.inl ⟨rfl, rfl⟩

theorem saveCalls_stable : Stable SaveCall.move (fun _ => True) (fun _ call => call.Loaded)
    (fun _ _ => True) (fun row call => call.Undisturbed row) where
  symm := by simp
  store := by simp
  own _ _ _ h hrow := h.move hrow
  others _ _ _ _ _ _ h _ := ⟨h, trivial⟩

@[simp] theorem SaveCall.move_request (row : Option RiskPayload) (call : SaveCall) :
    (call.move row).2.request = call.request := by
  obtain ⟨request, stage⟩ := call
  cases stage with
  | start =>
    by_cases ht : request.op.touchesEngine = true <;> simp [SaveCall.move, ht]
  | loaded | selected | ended => rfl

/-- The requests that have returned. -/
def returnedRequests (c : Pool (Option RiskPayload) SaveCall) : List RiskRequest :=
  Stable.requests SaveCall.request SaveCall.returned c.procs

/-- **No lost risk update**: in any interleaving of any number of exits and resets in which nobody
interferes with a request between its load and its commit, the row is at any time the result of the
requests that have returned, performed one after another in some order; and when no request is
under way any more, of all requests. -/
theorem saves_serialise (row : Option RiskPayload) (requests : List RiskRequest) {schedule : List ℕ}
    (h : Guarded (Pool.step SaveCall.move) (Pool.Meets fun row call => call.Undisturbed row)
      ⟨row, saveCalls requests⟩ schedule) :
    Always (Pool.step SaveCall.move)
        (fun c => ∃ order, order.Perm (returnedRequests c) ∧
          c.store = run RiskRequest.perform row order)
        ⟨row, saveCalls requests⟩ schedule ∧
      ((∀ call ∈ (run (Pool.step SaveCall.move) ⟨row, saveCalls requests⟩ schedule).procs,
          ∃ ok, call.stage = .ended ok) →
        ∃ order, order.Perm requests ∧
          (run (Pool.step SaveCall.move) ⟨row, saveCalls requests⟩ schedule).store =
            run RiskRequest.perform row order) := by
  have hstart : Pool.Invariant (fun _ => True) (fun _ call => SaveCall.Loaded call)
      (fun _ _ => True) ⟨row, saveCalls requests⟩ := by
    refine ⟨trivial, ?_, List.pairwise_of_forall (by simp)⟩
    intro call hcall
    obtain ⟨r, -, rfl⟩ := List.mem_map.1 hcall
    trivial
  have hnone : ∀ call ∈ saveCalls requests, SaveCall.returned call = false := by
    intro call hcall
    obtain ⟨r, -, rfl⟩ := List.mem_map.1 hcall
    rfl
  have hserial : Always (Pool.step SaveCall.move)
      (fun c => ∃ order, order.Perm (returnedRequests c) ∧
        c.store = run RiskRequest.perform row order) ⟨row, saveCalls requests⟩ schedule :=
    saveCalls_stable.serialises (fun row call => SaveCall.move_request row call)
      (fun _ _ _ hl hu => SaveCall.move_cases hl hu) hstart hnone h
  refine ⟨hserial, fun hended => ?_⟩
  obtain ⟨order, hperm, hstore⟩ := hserial.last
  have hloaded := (saveCalls_stable.always hstart h).last.procs
  have hreturned : ∀ call ∈ (run (Pool.step SaveCall.move) ⟨row, saveCalls requests⟩
      schedule).procs, call.returned = true := by
    intro call hcall
    obtain ⟨ok, hok⟩ := hended call hcall
    have hl := hloaded call hcall
    simp only [SaveCall.Loaded, hok] at hl
    simp [SaveCall.returned, hok, hl]
  have hall := Stable.requests_of_all (fun row call => SaveCall.move_request row call) hreturned
  refine ⟨order, ?_, hstore⟩
  have hrequests : (saveCalls requests).map SaveCall.request = requests := by
    simp [saveCalls, Function.comp_def]
  rwa [returnedRequests, hall, hrequests] at hperm

/-- The stored engine of an account that has lost nothing yet. -/
def freshRow : Option RiskPayload := some (serialize (RiskEngine.new {} 10000 0))

/-- The exit of a trade that is closed with a loss. -/
def losingExit (tradeId : String) (pnl : ℚ) : RiskRequest :=
  { op := .exitManualTrade
      { tradeId, symbol := "BTC/USDT", side := .long, status := .closed, entryPrice := 100,
        quantity := 1, pnl, entryTime := 0, exitTime := some 60 } 60
    today := 0 }

/-- Two exits, the second of which loads after the first has committed. -/
theorem saves_serialise_in_turn :
    ∃ order, order.Perm [losingExit "MANUAL-1" (-60), losingExit "MANUAL-2" (-150)] ∧
      (run (Pool.step SaveCall.move)
        ⟨freshRow, saveCalls [losingExit "MANUAL-1" (-60), losingExit "MANUAL-2" (-150)]⟩
        [0, 0, 0, 1, 1, 1]).store = run RiskRequest.perform freshRow order :=
  (saves_serialise freshRow [losingExit "MANUAL-1" (-60), losingExit "MANUAL-2" (-150)]
    (by decide +kernel : Guarded _ _ _ [0, 0, 0, 1, 1, 1])).2 (by
      have hended : ∀ call ∈ (run (Pool.step SaveCall.move)
          ⟨freshRow, saveCalls [losingExit "MANUAL-1" (-60), losingExit "MANUAL-2" (-150)]⟩
          [0, 0, 0, 1, 1, 1]).procs, call.stage = .ended true := by decide +kernel
      exact fun call hcall => ⟨true, hended call hcall⟩)

/-- Two exits that both load before either commits: the row that is left has one of the two losses
only, which is no result of performing both. -/
theorem overlapping_saves_lose_a_loss :
    ¬ ∃ order, order.Perm [losingExit "MANUAL-1" (-60), losingExit "MANUAL-2" (-150)] ∧
      (run (Pool.step SaveCall.move)
        ⟨freshRow, saveCalls [losingExit "MANUAL-1" (-60), losingExit "MANUAL-2" (-150)]⟩
        [0, 1, 0, 0, 1, 1]).store = run RiskRequest.perform freshRow order := by
  rintro ⟨order, hperm, hstore⟩
  rcases List.perm_pair.1 hperm with rfl | rfl
  · revert hstore
    decide +kernel
  · revert hstore
    decide +kernel

end AlphaOne.Risk
