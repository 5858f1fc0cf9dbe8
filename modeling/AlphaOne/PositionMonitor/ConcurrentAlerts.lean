import AlphaOne.Foundations.Interleaving
import AlphaOne.Foundations.Table
import AlphaOne.PositionMonitor.Monitor
import AlphaOne.Schema.Widths

/-!
# Exit alerts from several callers

The scheduled job and every `GET /exit-alerts` go through `get_new_exit_alerts`, which selects the
row of an alert, adds one when there is none, and commits the added rows at the end. No unique index
backs the selection: a call may commit a row that another has found missing. From then on the
selection itself raises, because it finds two rows where it expects one at most.

A call sees the committed rows and its own. A database that enforces the widths of the columns
refuses the rows of all alerts; SQLite does not. `alerts_once_iff` is the exact account of the
interleavings in which every breach is alerted once.
-/

namespace AlphaOne.PositionMonitor

open Foundations Journal

/-! ## Calls -/

/-- The committed rows. -/
structure AlertStore where
  enforcesWidths : Bool := false
  logs : List NotificationLog := []
  deriving DecidableEq, Repr

/-- How a call raises. -/
inductive CallError
  | multipleResultsFound
  /-- A text is too long for its column. -/
  | dataError
  deriving DecidableEq, Repr

inductive AlertStage
  /-- About to read the open trades. -/
  | start
  /-- About to select the row of the first of the remaining alerts. -/
  | looking (remaining new : List ExitAlert)
  /-- About to commit the rows of the new alerts. -/
  | committing (new : List ExitAlert)
  | ended (result : Except CallError (List ExitAlert))
  deriving DecidableEq

/-- A call of `get_new_exit_alerts`, with the tables it finds when it reads the open trades. -/
structure AlertCall where
  db : Tables
  /-- The unique index on `trades.trade_id`. -/
  unique : UniqueKey Trade.tradeId db.trades
  accountId : ℕ
  currentPrice : ℚ
  symbol : String
  stage : AlertStage := .start

/-- The commit of the added rows. -/
def commitAlerts (new : List ExitAlert) (s : AlertStore) : AlertStore × AlertStage :=
  let rows := new.map alertLog
  if s.enforcesWidths ∧ ∃ l ∈ rows, ¬AllFit l.varchars then (s, .ended (.error .dataError))
  else ({ s with logs := s.logs ++ rows }, .ended (.ok new))

/-- The next statement of a call. -/
def AlertCall.move (call : AlertCall) (s : AlertStore) : AlertStore × AlertCall :=
  let (s, stage) : AlertStore × AlertStage :=
    match call.stage with
    | .start =>
      (s, .looking (checkOpenPositions call.db call.accountId call.currentPrice call.symbol) [])
    | .looking [] new => (s, if new = [] then .ended (.ok []) else .committing new)
    | .looking (alert :: remaining) new =>
      match alreadyAlerted (s.logs ++ new.map alertLog) (dedupKey alert) with
      | .error _ => (s, .ended (.error .multipleResultsFound))
      | .ok true => (s, .looking remaining new)
      | .ok false => (s, .looking remaining (new ++ [alert]))
    | .committing new => commitAlerts new s
    | .ended result => (s, .ended result)
  (s, { call with stage })

/-- The alerts a call has returned as new. -/
def AlertStage.returned : AlertStage → List ExitAlert
  | .ended (.ok new) => new
  | _ => []

/-- What a breach is about. -/
def ExitAlert.breach (alert : ExitAlert) : String × AlertReason := (alert.tradeId, alert.reason)

/-- At most one row has the key of an alert. -/
def OnePerAlert (logs : List NotificationLog) : Prop :=
  ∀ alert : ExitAlert, (logs.filter fun l => l.messageType = dedupKey alert).length ≤ 1

/-- Every breach has been returned once at most, has one row at most, and no call has raised because
several rows match. -/
def AlertsOnce (c : Pool AlertStore AlertCall) : Prop :=
  ((c.procs.flatMap fun call => call.stage.returned).map ExitAlert.breach).Nodup ∧
    OnePerAlert c.store.logs ∧
    ∀ call ∈ c.procs, call.stage ≠ .ended (.error .multipleResultsFound)

/-- **What a call has found missing is still missing** when it commits the rows, unless they are
refused. -/
def AlertCall.FindsMissing (s : AlertStore) (call : AlertCall) : Prop :=
  ∀ new, call.stage = .committing new →
    (s.enforcesWidths = true → ∀ alert ∈ new, AllFit (alertLog alert).varchars) →
    ∀ alert ∈ new, ∀ l ∈ s.logs, l.messageType ≠ dedupKey alert

instance (s : AlertStore) (call : AlertCall) : Decidable (call.FindsMissing s) :=
  match h : call.stage with
  | .committing new => decidable_of_iff
      ((s.enforcesWidths = true → ∀ alert ∈ new, AllFit (alertLog alert).varchars) →
        ∀ alert ∈ new, ∀ l ∈ s.logs, l.messageType ≠ dedupKey alert)
      (by simp [AlertCall.FindsMissing, h])
  | .start | .looking _ _ | .ended _ => isTrue (by simp [AlertCall.FindsMissing, h])

/-! ## Keys -/

/-- The key of a breach. -/
def breachKey (breach : String × AlertReason) : String :=
  "exit_alert:" ++ breach.1 ++ ":" ++ breach.2.text

theorem map_dedupKey (alerts : List ExitAlert) :
    alerts.map dedupKey = (alerts.map ExitAlert.breach).map breachKey := by
  rw [List.map_map]
  rfl

/-- A key says which breach it is of: the two reasons end differently. -/
theorem breachKey_injective {a b : String × AlertReason} (h : breachKey a = breachKey b) :
    a = b := by
  obtain ⟨tradeA, reasonA⟩ := a
  obtain ⟨tradeB, reasonB⟩ := b
  have h' := congrArg String.toList h
  simp only [breachKey, String.toList_append, List.append_assoc] at h'
  have hrest := List.append_cancel_left h'
  have hreason : reasonA = reasonB := by
    have hlast := congrArg (fun l => l.reverse.take 5) hrest
    simp only [List.reverse_append, List.append_assoc] at hlast
    cases reasonA <;> cases reasonB <;> first | rfl | exact absurd hlast (by simp [AlertReason.text])
  subst hreason
  rw [String.toList_inj.1 (List.append_cancel_right hrest)]

theorem tradeId_checkTrade {trade : Trade} {currentPrice : ℚ} {alert : ExitAlert}
    (h : checkTrade trade currentPrice = some alert) : alert.tradeId = trade.tradeId := by
  unfold checkTrade at h
  dsimp only at h
  split at h
  · obtain rfl := Option.some.inj h
    rfl
  · obtain rfl := Option.some.inj h
    rfl
  · cases h

/-- The alerts of a call are about different trades. -/
theorem nodup_checkOpenPositions {db : Tables} (hu : UniqueKey Trade.tradeId db.trades)
    (accountId : ℕ) (currentPrice : ℚ) (symbol : String) :
    ((checkOpenPositions db accountId currentPrice symbol).map dedupKey).Nodup := by
  have hpairs : db.trades.Pairwise fun t u => t.tradeId ≠ u.tradeId := List.pairwise_map.1 hu
  have hbreaches : ((checkOpenPositions db accountId currentPrice symbol).map
      ExitAlert.breach).Nodup := by
    unfold checkOpenPositions getOpenTrades
    refine List.pairwise_map.2 (List.pairwise_filterMap.2 ?_)
    refine ((hpairs.filter _).filter _).imp fun hne a ha b hb hbreach => hne ?_
    rw [← tradeId_checkTrade ha, ← tradeId_checkTrade hb]
    exact congrArg Prod.fst hbreach
  rw [map_dedupKey]
  exact hbreaches.map fun _ _ => breachKey_injective

/-! ## Rows -/

/-- The rows under a key, after the rows of new alerts have been added. -/
theorem filter_append_alertLog (logs : List NotificationLog) (new : List ExitAlert) (key : String) :
    ((logs ++ new.map alertLog).filter fun l => l.messageType = key).length =
      (logs.filter fun l => l.messageType = key).length + (new.map dedupKey).count key := by
  rw [List.filter_append, List.length_append]
  congr 1
  rw [List.count_eq_countP, List.countP_map, List.filter_map, List.length_map,
    List.countP_eq_length_filter]
  rfl

/-- **The rows of new alerts leave one row per alert exactly if none of them is there already.** -/
theorem onePerAlert_append {logs : List NotificationLog} (h : OnePerAlert logs)
    {new : List ExitAlert} (hnew : (new.map dedupKey).Nodup) :
    OnePerAlert (logs ++ new.map alertLog) ↔
      ∀ alert ∈ new, ∀ l ∈ logs, l.messageType ≠ dedupKey alert := by
  unfold OnePerAlert
  simp only [filter_append_alertLog]
  constructor
  · intro hone alert halert l hl hkey
    have hrow : 0 < (logs.filter fun l => l.messageType = dedupKey alert).length :=
      List.length_pos_of_mem (List.mem_filter.2 ⟨hl, decide_eq_true hkey⟩)
    have hcount : 0 < (new.map dedupKey).count (dedupKey alert) :=
      List.count_pos_iff.2 (List.mem_map_of_mem halert)
    have hle := hone alert
    omega
  · intro hfree alert
    by_cases halert : dedupKey alert ∈ new.map dedupKey
    · obtain ⟨other, hother, hkey⟩ := List.mem_map.1 halert
      have hnone : (logs.filter fun l => l.messageType = dedupKey alert) = [] := by
        refine List.filter_eq_nil_iff.2 fun l hl => ?_
        rw [← hkey]
        simpa using hfree other hother l hl
      rw [hnone, List.length_nil, Nat.zero_add]
      exact List.nodup_iff_count_le_one.1 hnew _
    · rw [List.count_eq_zero_of_not_mem halert]
      exact h alert

/-- Where every alert has one row at most, the selection of an alert that is not among the new ones
does not raise. -/
theorem alreadyAlerted_ok {logs : List NotificationLog} (h : OnePerAlert logs)
    {new : List ExitAlert} {alert : ExitAlert} (hother : dedupKey alert ∉ new.map dedupKey) :
    ∃ known, alreadyAlerted (logs ++ new.map alertLog) (dedupKey alert) = .ok known := by
  have hone : ((logs ++ new.map alertLog).filter fun l =>
      l.messageType = dedupKey alert).length ≤ 1 := by
    rw [filter_append_alertLog, List.count_eq_zero_of_not_mem hother]
    exact h alert
  unfold alreadyAlerted
  split
  · exact ⟨false, rfl⟩
  · exact ⟨true, rfl⟩
  · next hnil hsingle =>
    exfalso
    match hrows : (logs ++ new.map alertLog).filter fun l => l.messageType = dedupKey alert with
    | [] => exact hnil hrows
    | [l] => exact hsingle l hrows
    | _ :: _ :: _ =>
      rw [hrows] at hone
      simp at hone

/-! ## Any number of calls -/

/-- What a call relies on: its new alerts differ from each other and from those to come, and once it
has returned them they have their rows. -/
def AlertStage.Sound (s : AlertStore) : AlertStage → Prop
  | .start => True
  | .looking remaining new => ((new ++ remaining).map dedupKey).Nodup
  | .committing new => (new.map dedupKey).Nodup
  | .ended (.ok new) =>
    (new.map dedupKey).Nodup ∧ ∀ alert ∈ new, ∃ l ∈ s.logs, l.messageType = dedupKey alert
  | .ended (.error e) => e ≠ .multipleResultsFound

/-- Two calls have not returned the same breach. -/
def AlertCall.Apart (p q : AlertCall) : Prop :=
  ∀ a ∈ p.stage.returned, ∀ b ∈ q.stage.returned, dedupKey a ≠ dedupKey b

theorem AlertStage.Sound.mono {s s' : AlertStore} {stage : AlertStage} (h : stage.Sound s)
    (hlogs : s.logs ⊆ s'.logs) : stage.Sound s' := by
  cases stage with
  | ended result =>
    cases result with
    | error e => exact h
    | ok new =>
      refine ⟨h.1, fun alert halert => ?_⟩
      obtain ⟨l, hl, hkey⟩ := h.2 alert halert
      exact ⟨l, hlogs hl, hkey⟩
  | start | looking | committing => exact h

/-- The commit is refused for the width of a column, or adds the rows. -/
theorem commitAlerts_cases (new : List ExitAlert) (s : AlertStore) :
    ((s.enforcesWidths = true ∧ ∃ alert ∈ new, ¬AllFit (alertLog alert).varchars) ∧
        commitAlerts new s = (s, .ended (.error .dataError))) ∨
      (s.enforcesWidths = true → ∀ alert ∈ new, AllFit (alertLog alert).varchars) ∧
        commitAlerts new s = ({ s with logs := s.logs ++ new.map alertLog }, .ended (.ok new)) := by
  by_cases hrefused : s.enforcesWidths = true ∧ ∃ l ∈ new.map alertLog, ¬AllFit l.varchars
  · refine Or.inl ⟨?_, by simp only [commitAlerts, if_pos hrefused]⟩
    obtain ⟨henforces, l, hl, hfit⟩ := hrefused
    obtain ⟨alert, halert, rfl⟩ := List.mem_map.1 hl
    exact ⟨henforces, alert, halert, hfit⟩
  · refine Or.inr ⟨fun henforces alert halert => ?_, by simp only [commitAlerts, if_neg hrefused]⟩
    by_contra hfit
    exact hrefused ⟨henforces, _, List.mem_map_of_mem halert, hfit⟩

/-- The selection for the next alert finds one row at most, and the alerts stay different whether it
is new or not. -/
theorem looking_sound {alert : ExitAlert} {remaining new : List ExitAlert} {s : AlertStore}
    (hs : OnePerAlert s.logs) (h : (AlertStage.looking (alert :: remaining) new).Sound s) :
    ∃ known, alreadyAlerted (s.logs ++ new.map alertLog) (dedupKey alert) = .ok known ∧
      (AlertStage.looking remaining new).Sound s ∧
      (AlertStage.looking remaining (new ++ [alert])).Sound s := by
  have hnodup : ((new ++ alert :: remaining).map dedupKey).Nodup := h
  rw [List.map_append, List.map_cons] at hnodup
  obtain ⟨hout, hrest⟩ := List.nodup_cons.1 (List.nodup_middle.1 hnodup)
  have hother : dedupKey alert ∉ new.map dedupKey :=
    fun hmem => hout (List.mem_append_left _ hmem)
  obtain ⟨known, hknown⟩ := alreadyAlerted_ok hs hother
  refine ⟨known, hknown, ?_, ?_⟩
  · show ((new ++ remaining).map dedupKey).Nodup
    rwa [List.map_append]
  · show ((new ++ [alert] ++ remaining).map dedupKey).Nodup
    simpa using hnodup

/-- **One statement** of a call changes nothing in the store and returns nothing, or commits the
rows of its new alerts and returns them. -/
theorem AlertCall.move_cases {call : AlertCall} {s : AlertStore} (hs : OnePerAlert s.logs)
    (h : call.stage.Sound s) :
    ((call.move s).1 = s ∧ (call.move s).2.stage.returned = call.stage.returned ∧
        (call.move s).2.stage.Sound s ∧
        ∀ new, call.stage = .committing new → s.enforcesWidths = true ∧
          ∃ alert ∈ new, ¬AllFit (alertLog alert).varchars) ∨
      ∃ new, call.stage = .committing new ∧
        (s.enforcesWidths = true → ∀ alert ∈ new, AllFit (alertLog alert).varchars) ∧
        (call.move s).1 = { s with logs := s.logs ++ new.map alertLog } ∧
        (call.move s).2.stage = .ended (.ok new) := by
  cases hstage : call.stage with
  | start =>
    refine Or.inl ?_
    simp only [AlertCall.move, hstage]
    refine ⟨trivial, rfl, ?_, nofun⟩
    exact nodup_checkOpenPositions call.unique call.accountId call.currentPrice call.symbol
  | looking remaining new =>
    rw [hstage] at h
    refine Or.inl ?_
    cases remaining with
    | nil =>
      simp only [AlertCall.move, hstage]
      split_ifs with hnil
      · exact ⟨trivial, rfl, ⟨List.nodup_nil, by simp⟩, nofun⟩
      · refine ⟨trivial, rfl, ?_, nofun⟩
        simpa [AlertStage.Sound] using h
    | cons alert remaining =>
      obtain ⟨known, hknown, hold, hnew⟩ := looking_sound hs h
      simp only [AlertCall.move, hstage, hknown]
      cases known with
      | true => exact ⟨rfl, rfl, hold, nofun⟩
      | false => exact ⟨rfl, rfl, hnew, nofun⟩
  | committing new =>
    rcases commitAlerts_cases new s with ⟨hrefused, hcommit⟩ | ⟨hfits, hcommit⟩
    · refine Or.inl ?_
      simp only [AlertCall.move, hstage, hcommit]
      refine ⟨trivial, rfl, nofun, ?_⟩
      rintro _ ⟨⟩
      exact hrefused
    · refine Or.inr ⟨new, rfl, hfits, ?_⟩
      simp only [AlertCall.move, hstage, hcommit]
      exact ⟨trivial, trivial⟩
  | ended result =>
    refine Or.inl ?_
    simp only [AlertCall.move, hstage]
    exact ⟨trivial, trivial, hstage ▸ h, nofun⟩

theorem alertCalls_stable : Stable AlertCall.move (fun s => OnePerAlert s.logs)
    (fun s call => call.stage.Sound s) AlertCall.Apart
    (fun s call => call.FindsMissing s) where
  symm p q h a ha b hb := (h b hb a ha).symm
  store s p hs hp hmissing := by
    rcases p.move_cases hs hp with ⟨hsame, -⟩ | ⟨new, hstage, hfits, hstore, -⟩
    · rwa [hsame]
    · rw [hstage] at hp
      rw [hstore]
      exact (onePerAlert_append hs hp).2 (hmissing new hstage hfits)
  own s p hs hp hmissing := by
    rcases p.move_cases hs hp with ⟨hsame, -, hsound, -⟩ | ⟨new, hstage, -, hstore, hended⟩
    · rwa [hsame]
    · rw [hstage] at hp
      rw [hended]
      refine ⟨hp, fun alert halert => ⟨alertLog alert, ?_, rfl⟩⟩
      rw [hstore]
      exact List.mem_append_right _ (List.mem_map_of_mem halert)
  others s p q hs hp hmissing hq hpq := by
    rcases p.move_cases hs hp with ⟨hsame, hreturned, -⟩ | ⟨new, hstage, hfits, hstore, hended⟩
    · rw [hsame]
      refine ⟨hq, ?_⟩
      unfold AlertCall.Apart
      rwa [hreturned]
    · refine ⟨hq.mono ?_, ?_⟩
      · rw [hstore]
        exact List.subset_append_left _ _
      · -- what `q` has returned has rows, and what `p` commits had none
        intro a ha b hb hkey
        rw [hended] at ha
        have hrow : ∃ l ∈ s.logs, l.messageType = dedupKey b := by
          cases hqs : q.stage with
          | ended result =>
            cases result with
            | ok returned =>
              rw [hqs] at hq hb
              exact hq.2 b hb
            | error e =>
              rw [hqs] at hb
              cases hb
          | start | looking | committing =>
            rw [hqs] at hb
            cases hb
        obtain ⟨l, hl, hlb⟩ := hrow
        exact hmissing new hstage hfits a ha l hl (hlb.trans hkey.symm)

theorem AlertStage.Sound.nodup_returned {s : AlertStore} {stage : AlertStage}
    (h : stage.Sound s) : (stage.returned.map ExitAlert.breach).Nodup := by
  cases stage with
  | ended result =>
    cases result with
    | ok new =>
      have hkeys := h.1
      rw [map_dedupKey] at hkeys
      exact hkeys.of_map _
    | error e => exact List.nodup_nil
  | start | looking | committing => exact List.nodup_nil

/-- The calls, none of them begun. -/
def begun (calls : List AlertCall) : List AlertCall :=
  calls.map fun call => { call with stage := .start }

/-- **Exit alerts are raised once**, exactly: along any interleaving of any number of calls every
breach is returned as new at most once, has at most one row, and no call raises because several
rows match, if and only if every commit finds its rows as missing as the selections have. -/
theorem alerts_once_iff {s : AlertStore} (h : OnePerAlert s.logs) (calls : List AlertCall)
    (schedule : List ℕ) :
    Always (Pool.step AlertCall.move) AlertsOnce ⟨s, begun calls⟩ schedule ↔
      Guarded (Pool.step AlertCall.move) (Pool.Meets fun s call => call.FindsMissing s)
        ⟨s, begun calls⟩ schedule := by
  apply alertCalls_stable.always_iff
  · intro c hc
    refine ⟨?_, hc.store, fun call hcall hraised => ?_⟩
    · rw [List.map_flatMap, List.nodup_flatMap]
      refine ⟨fun call hcall => (hc.procs call hcall).nodup_returned, hc.pairs.imp ?_⟩
      intro p q hpq breach hp hq
      obtain ⟨a, ha, rfl⟩ := List.mem_map.1 hp
      obtain ⟨b, hb, hbreach⟩ := List.mem_map.1 hq
      have hkey : breachKey a.breach = breachKey b.breach := congrArg breachKey hbreach.symm
      exact hpq a ha b hb hkey
    · have hsound := hc.procs call hcall
      rw [hraised] at hsound
      exact hsound rfl
  · intro c l₁ call l₂ hc hprocs hafter new hstage hfits
    have hsound := hc.procs call (by simp [hprocs])
    rcases call.move_cases hc.store hsound with ⟨-, -, -, hrefused⟩ | ⟨new', hstage', -, hstore, -⟩
    · obtain ⟨henforces, alert, halert, hfit⟩ := hrefused new hstage
      exact absurd (hfits henforces alert halert) hfit
    · obtain rfl : new = new' := by
        rw [hstage] at hstage'
        exact AlertStage.committing.inj hstage'
      have hone := hafter.2.1
      simp only [hstore] at hone
      rw [hstage] at hsound
      exact (onePerAlert_append hc.store hsound).1 hone
  · refine ⟨h, ?_, ?_⟩
    · intro call hcall
      obtain ⟨call', -, rfl⟩ := List.mem_map.1 hcall
      trivial
    · refine List.pairwise_map.2 (List.pairwise_of_forall fun _ _ => ?_)
      exact fun a ha => absurd ha List.not_mem_nil

/-! ## The job and a request -/

/-- An open trade whose stop is at 90, seen at the price 80. -/
def stoppedOut : AlertCall where
  db := { trades := [{
    tradeId := "T1", symbol := "BTC/USDT", side := .long, status := .open_, entryPrice := 100
    quantity := 1, entryTime := 0, stopLoss := some 90, accountId := some 0 }] }
  unique := List.nodup_singleton _
  accountId := 0
  currentPrice := 80
  symbol := "BTC/USDT"

/-- The job first, and then the request: it finds the row. -/
theorem alerts_once_iff_in_turn :
    Always (Pool.step AlertCall.move) AlertsOnce ⟨{}, begun [stoppedOut, stoppedOut]⟩
      [0, 0, 0, 0, 1, 1, 1] :=
  (alerts_once_iff (fun _ => Nat.zero_le _) _ _).2 (by decide +kernel)

/-- **A request that overlaps the job raises the alert again**, and every call after them fails. -/
theorem overlapping_calls_alert_twice :
    let calls := begun [stoppedOut, stoppedOut, stoppedOut]
    let schedule := [0, 0, 1, 1, 0, 0, 1, 1, 2, 2]
    let c := run (Pool.step AlertCall.move) ⟨{}, calls⟩ schedule
    c.procs.map (fun call => call.stage.returned.length) = [1, 1, 0] ∧
      c.procs.map (fun call => decide (call.stage = .ended (.error .multipleResultsFound))) =
        [false, false, true] ∧
      ¬Always (Pool.step AlertCall.move) AlertsOnce ⟨{}, calls⟩ schedule := by
  refine ⟨by decide +kernel, by decide +kernel, fun h => ?_⟩
  have htwice := h.last.1
  revert htwice
  decide +kernel

end AlphaOne.PositionMonitor
