import AlphaOne.Foundations.Registers
import AlphaOne.Schema.Models

/-!
# The emergency stop under concurrency

`services/live_execution/kill_switch.py` and the pause of the signal generation in
`services/signal_engine/live_signal.py` keep their flags in rows of `bot_state`, beside those of
other components. The scheduler, the routers and an operator's shell have sessions of their own, and
every call is one or two statements between which others may commit.

* `kill_switch_linearisable`: in every interleaving the flags are those of the calls one after
  another, in the order in which they take effect.
* `activation_stops`: an activation is not lost, also where its insert meets the unique index.
-/

namespace AlphaOne.Live

open Foundations

/-- `EMERGENCY_STOP_KEY` -/
def emergencyStopKey : String := "emergency_stop_active"

/-- `PAUSE_STATE_KEY` -/
def pauseStateKey : String := "signal_generation_paused"

/-- What a JSON object holds under a name. -/
inductive JsonField
  | bool (b : Bool)
  | text (s : String)
  /-- `isoformat()` of a time. -/
  | isoformat (time : Datetime)
  deriving DecidableEq, Repr

/-- `bool(...)` -/
def JsonField.truth : JsonField → Bool
  | .bool b => b
  | .text s => s ≠ ""
  | .isoformat _ => true

abbrev JsonObject := List (String × JsonField)

/-- A flag of a row; a missing one is false. -/
def flag (name : String) (row : Option JsonObject) : Bool :=
  match row with
  | none => false
  | some value => ((value.lookup name).map JsonField.truth).getD false

/-- `is_emergency_stop_active`, of the row it has selected. -/
def emergencyStopOf : Option JsonObject → Bool := flag "active"

/-- `is_signal_generation_paused`, of the row it has selected. -/
def pausedOf : Option JsonObject → Bool := flag "paused"

/-- The keys of the other components. -/
def OtherKey : Type := { key : String // key ≠ emergencyStopKey ∧ key ≠ pauseStateKey }

/-- The calls of the sessions. -/
inductive BotCall
  | isEmergencyStopActive
  | getEmergencyStopDetail
  | activateEmergencyStop (reason : String) (now : Datetime)
  | clearEmergencyStop (now : Datetime)
  | isSignalGenerationPaused
  | setSignalGenerationPaused (paused : Bool)
  /-- Another component writes a row of its own. -/
  | other (key : OtherKey) (value : JsonObject)

namespace BotCall

/-- The value of an activation. -/
def activated (reason : String) (now : Datetime) : JsonObject :=
  [("active", .bool true), ("reason", .text reason), ("activated_at", .isoformat now)]

/-- What a call does to the rows. -/
def op : BotCall → RegisterOp String JsonObject
  | isEmergencyStopActive | getEmergencyStopDetail => .read emergencyStopKey
  | activateEmergencyStop reason now => .put emergencyStopKey (activated reason now)
  | clearEmergencyStop now =>
    .replace emergencyStopKey [("active", .bool false), ("cleared_at", .isoformat now)]
  | isSignalGenerationPaused => .read pauseStateKey
  | setSignalGenerationPaused paused => .put pauseStateKey [("paused", .bool paused)]
  | other key value => .put key.1 value

/-- What a call makes of the emergency stop. -/
def stopAfter (active : Bool) : BotCall → Bool
  | activateEmergencyStop _ _ => true
  | clearEmergencyStop _ => false
  | _ => active

/-- What a call makes of the pause. -/
def pausedAfter (paused : Bool) : BotCall → Bool
  | setSignalGenerationPaused paused => paused
  | _ => paused

/-- A session that has not begun its call. -/
def session (call : BotCall) : RegisterCall String JsonObject := { op := call.op }

end BotCall

open BotCall

variable {table : String → Option JsonObject}

theorem emergencyStopOf_apply (call : BotCall) :
    emergencyStopOf (call.op.apply table emergencyStopKey) =
      stopAfter (emergencyStopOf (table emergencyStopKey)) call := by
  cases call with
  | isEmergencyStopActive | getEmergencyStopDetail | isSignalGenerationPaused => rfl
  | activateEmergencyStop reason now =>
    simp only [op, RegisterOp.apply, Function.update_self]
    rfl
  | clearEmergencyStop now =>
    simp only [op, RegisterOp.apply, Function.update_self]
    cases table emergencyStopKey <;> rfl
  | setSignalGenerationPaused paused =>
    simp only [op, RegisterOp.apply]
    rw [Function.update_of_ne (by decide)]
    rfl
  | other key value =>
    simp only [op, RegisterOp.apply]
    rw [Function.update_of_ne (Ne.symm key.2.1)]
    rfl

theorem pausedOf_apply (call : BotCall) :
    pausedOf (call.op.apply table pauseStateKey) =
      pausedAfter (pausedOf (table pauseStateKey)) call := by
  cases call with
  | isEmergencyStopActive | getEmergencyStopDetail | isSignalGenerationPaused => rfl
  | activateEmergencyStop reason now =>
    simp only [op, RegisterOp.apply]
    rw [Function.update_of_ne (by decide)]
    rfl
  | clearEmergencyStop now =>
    simp only [op, RegisterOp.apply]
    rw [Function.update_of_ne (by decide)]
    rfl
  | setSignalGenerationPaused paused =>
    simp only [op, RegisterOp.apply, Function.update_self]
    rfl
  | other key value =>
    simp only [op, RegisterOp.apply]
    rw [Function.update_of_ne (Ne.symm key.2.2)]
    rfl

/-- The flags after some calls, one after another. -/
theorem flags_run (calls : List BotCall) :
    emergencyStopOf (run RegisterOp.apply table (calls.map op) emergencyStopKey) =
        run stopAfter (emergencyStopOf (table emergencyStopKey)) calls ∧
      pausedOf (run RegisterOp.apply table (calls.map op) pauseStateKey) =
        run pausedAfter (pausedOf (table pauseStateKey)) calls := by
  induction calls generalizing table with
  | nil => exact ⟨rfl, rfl⟩
  | cons call calls ih =>
    rw [List.map_cons, run_cons, run_cons, run_cons, ← emergencyStopOf_apply, ← pausedOf_apply]
    exact ih

section Sessions

variable (table) (calls : List BotCall) (schedule : List ℕ)

/-- Sessions that have not begun. -/
def sessions : Pool (String → Option JsonObject) (RegisterCall String JsonObject) :=
  ⟨table, calls.map session⟩

/-- What a schedule makes of them. -/
def afterwards : Pool (String → Option JsonObject) (RegisterCall String JsonObject) :=
  run (Pool.step RegisterCall.move) (sessions table calls) schedule

/-- The places of the calls, in the order in which they take effect. -/
def effectOrder : List ℕ := (sessions table calls).order schedule

/-- The calls at some places. -/
def callsAt (places : List ℕ) : List BotCall := places.filterMap (calls[·]?)

theorem opsOf_sessions (places : List ℕ) :
    opsOf (sessions table calls).procs places = (callsAt calls places).map op := by
  rw [opsOf, callsAt, List.map_filterMap]
  refine List.filterMap_congr fun i _ => ?_
  simp [sessions, session, Function.comp_def]

theorem kept_sessions :
    ∀ call ∈ (sessions table calls).procs, call.Kept (sessions table calls).store := by
  intro call hcall
  obtain ⟨own, -, rfl⟩ := List.mem_map.1 hcall
  trivial

/-- A session is at the call it has begun with, and has had the effects of its stage. -/
theorem session_run {i : ℕ} {after : RegisterCall String JsonObject}
    (hafter : (afterwards table calls schedule).procs[i]? = some after) :
    (∃ call, calls[i]? = some call ∧ after.op = call.op) ∧
      (effectOrder table calls schedule).count i = after.effects := by
  have hop := op_run (sessions table calls) schedule i
  have hsession : (sessions table calls).procs[i]? = calls[i]?.map session := List.getElem?_map
  rw [show run _ _ _ = afterwards table calls schedule from rfl, hafter, hsession] at hop
  cases hcall : calls[i]? with
  | none =>
    rw [hcall] at hop
    cases hop
  | some call =>
    rw [hcall] at hop hsession
    obtain ⟨final, hfinal, hcount⟩ := count_order (kept_sessions table calls) hsession schedule
    have hsame : after = final := Option.some.inj (hafter.symm.trans hfinal)
    refine ⟨⟨call, rfl, Option.some.inj hop⟩, ?_⟩
    rw [hsame, ← hcount]
    rfl

theorem effects_le_one (call : RegisterCall String JsonObject) : call.effects ≤ 1 := by
  unfold RegisterCall.effects
  split <;> first | rfl | split <;> decide | exact Nat.zero_le 1

/-- **The flags are linearisable.** Whatever the interleaving of the sessions, the flags are those
of the calls one after another, in the order in which they take effect. Each call takes effect at one
of its own statements: once if it has returned, not at all if it has failed. A session that asks for
the emergency stop gets the answer of its place in the order. -/
theorem kill_switch_linearisable :
    emergencyStopOf ((afterwards table calls schedule).store emergencyStopKey) =
        run stopAfter (emergencyStopOf (table emergencyStopKey))
          (callsAt calls (effectOrder table calls schedule)) ∧
      pausedOf ((afterwards table calls schedule).store pauseStateKey) =
        run pausedAfter (pausedOf (table pauseStateKey))
          (callsAt calls (effectOrder table calls schedule)) ∧
      (∀ i call, (afterwards table calls schedule).procs[i]? = some call →
        (effectOrder table calls schedule).count i ≤ 1 ∧
        (∀ row, call.stage = .returned row → (effectOrder table calls schedule).count i = 1) ∧
        (call.stage = .failed → (effectOrder table calls schedule).count i = 0)) ∧
      ∀ i row, calls[i]? = some isEmergencyStopActive →
        ((afterwards table calls schedule).procs[i]?.map RegisterCall.stage) =
          some (.returned row) →
        ∃ before later, effectOrder table calls schedule = before ++ i :: later ∧
          emergencyStopOf row =
            run stopAfter (emergencyStopOf (table emergencyStopKey)) (callsAt calls before) := by
  refine ⟨?_, ?_, ?_, ?_⟩
  · rw [afterwards, store_eq (kept_sessions table calls), opsOf_sessions]
    exact (flags_run _).1
  · rw [afterwards, store_eq (kept_sessions table calls), opsOf_sessions]
    exact (flags_run _).2
  · intro i after hafter
    rw [(session_run table calls schedule hafter).2]
    refine ⟨effects_le_one after, fun row hrow => ?_, fun hfailed => ?_⟩
    · simp [RegisterCall.effects, hrow]
    · simp [RegisterCall.effects, hfailed]
  · intro i row hi hrow
    obtain ⟨after, hafter, hstage⟩ := Option.map_eq_some_iff.1 hrow
    obtain ⟨call, hcall, hop⟩ := (session_run table calls schedule hafter).1
    obtain rfl : isEmergencyStopActive = call := Option.some.inj (hi.symm.trans hcall)
    have hread : (sessions table calls).procs[i]? = some { op := .read emergencyStopKey } := by
      simp [sessions, hi, session, op]
    have hreturned : (afterwards table calls schedule).procs[i]? =
        some { op := .read emergencyStopKey, stage := .returned row } := by
      obtain ⟨own, stage⟩ := after
      obtain rfl : own = _ := hop
      obtain rfl : stage = _ := hstage
      exact hafter
    obtain ⟨before, later, horder, hvalue⟩ := read_eq (kept_sessions table calls) hread hreturned
    refine ⟨before, later, horder, ?_⟩
    rw [hvalue, opsOf_sessions]
    exact (flags_run _).1

theorem mem_callsAt {call : BotCall} {places : List ℕ} :
    call ∈ callsAt calls places ↔ ∃ i ∈ places, calls[i]? = some call := List.mem_filterMap

/-- Without a clearing, an activation is the last word. -/
theorem stopped_of_mem {calls : List BotCall} {active : Bool}
    (hclear : ∀ now, clearEmergencyStop now ∉ calls)
    (h : active = true ∨ ∃ reason now, activateEmergencyStop reason now ∈ calls) :
    run stopAfter active calls = true := by
  induction calls generalizing active with
  | nil => simpa using h
  | cons call calls ih =>
    refine ih (fun now hmem => hclear now (List.mem_cons_of_mem _ hmem)) ?_
    cases call with
    | activateEmergencyStop reason now => exact Or.inl rfl
    | clearEmergencyStop now => exact absurd List.mem_cons_self (hclear now)
    | isEmergencyStopActive | getEmergencyStopDetail | isSignalGenerationPaused
    | setSignalGenerationPaused _ | other _ _ =>
      exact h.imp_right fun ⟨reason, now, hmem⟩ =>
        ⟨reason, now, (List.mem_cons.1 hmem).resolve_left (by simp)⟩

/-- **No activation is lost**, not even one that fails: whatever the interleaving, when the session
of an activation has ended, an activation has taken effect, its own or the one whose row it has met.
Unless a session clears it the emergency stop is active from there on. -/
theorem activation_stops {i : ℕ} {reason : String} {now : Datetime}
    {after : RegisterCall String JsonObject}
    (hi : calls[i]? = some (activateEmergencyStop reason now))
    (hafter : (afterwards table calls schedule).procs[i]? = some after)
    (hended : after.stage = .failed ∨ ∃ row, after.stage = .returned row) :
    (∃ j ∈ effectOrder table calls schedule, ∃ reason now,
        calls[j]? = some (activateEmergencyStop reason now)) ∧
      ((∀ now, clearEmergencyStop now ∉ calls) →
        emergencyStopOf ((afterwards table calls schedule).store emergencyStopKey) = true) := by
  have heffect : ∃ j ∈ effectOrder table calls schedule, ∃ reason now,
      calls[j]? = some (activateEmergencyStop reason now) := by
    rcases hended with hfailed | ⟨row, hreturned⟩
    · obtain ⟨call, hcall, hop⟩ := (session_run table calls schedule hafter).1
      obtain rfl : activateEmergencyStop reason now = call := Option.some.inj (hi.symm.trans hcall)
      have hput : (afterwards table calls schedule).procs[i]? =
          some { op := .put emergencyStopKey (activated reason now), stage := .failed } := by
        obtain ⟨own, stage⟩ := after
        obtain rfl : own = _ := hop
        obtain rfl : stage = _ := hfailed
        exact hafter
      obtain ⟨value, hmem⟩ := put_before_failed (kept_sessions table calls)
        (by simp [sessions, hi, session, op]) hput
      rw [opsOf_sessions] at hmem
      obtain ⟨call, hcall, hop⟩ := List.mem_map.1 hmem
      obtain ⟨j, hj, hplace⟩ := (mem_callsAt calls).1 hcall
      refine ⟨j, hj, ?_⟩
      -- only an activation puts this row
      cases call with
      | activateEmergencyStop reason now => exact ⟨reason, now, hplace⟩
      | isEmergencyStopActive | getEmergencyStopDetail | clearEmergencyStop _
      | isSignalGenerationPaused => cases hop
      | setSignalGenerationPaused paused => simp [op, pauseStateKey, emergencyStopKey] at hop
      | other key value =>
        simp only [op, RegisterOp.put.injEq] at hop
        exact absurd hop.1 key.2.1
    · have hcount := (session_run table calls schedule hafter).2
      refine ⟨i, List.count_pos_iff.1 ?_, reason, now, hi⟩
      rw [hcount, RegisterCall.effects, hreturned]
      exact Nat.one_pos
  refine ⟨heffect, fun hclear => ?_⟩
  obtain ⟨j, hj, reason, now, hplace⟩ := heffect
  rw [afterwards, store_eq (kept_sessions table calls), opsOf_sessions, (flags_run _).1]
  refine stopped_of_mem (fun now hmem => ?_) (Or.inr ⟨reason, now, ?_⟩)
  · obtain ⟨k, -, hk⟩ := (mem_callsAt calls).1 hmem
    exact hclear now (List.mem_of_getElem? hk)
  · exact (mem_callsAt calls).2 ⟨j, hj, hplace⟩

end Sessions

/-- Two activations that have both found no row: the second one fails. -/
theorem activation_stops_overlapping :
    let calls := [activateEmergencyStop "drawdown" 0,
      activateEmergencyStop "manual" 1]
    ((afterwards (fun _ => none) calls [0, 1, 0, 1]).procs[1]?.map RegisterCall.stage =
        some .failed) ∧
      emergencyStopOf ((afterwards (fun _ => none) calls [0, 1, 0, 1]).store emergencyStopKey) =
        true :=
  ⟨rfl, (activation_stops (fun _ => none) _ [0, 1, 0, 1] (i := 1) rfl rfl (Or.inl rfl)).2
    (by simp)⟩

end AlphaOne.Live
