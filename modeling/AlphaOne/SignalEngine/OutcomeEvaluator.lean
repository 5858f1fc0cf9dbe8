import AlphaOne.Foundations.FirstHit
import AlphaOne.Schema.Models
import Mathlib.Data.List.Sort

/-!
# The outcome of a signal

`services/signal_engine/outcome_evaluator.py`. A signal is won if its take-profit is touched before
its stop-loss, lost the other way round, and expires when neither is touched within the horizon; on
a bar that touches both, the stop counts.

`resolve_decided` reads the loop of `_resolve` as the first bar that decides, and
`candlesAfter_eq` the query as the bars after the signal's.
-/

namespace AlphaOne.SignalEngine

open Foundations

/-- What a signal resolves to. -/
inductive ResolvedOutcome
  | win
  | loss
  | expired
  deriving DecidableEq, Repr

/-- The dictionary that `_resolve` returns. -/
structure Resolution where
  outcome : ResolvedOutcome
  exitPrice : Option ℚ
  pnlPct : Option ℚ
  evaluatedAt : Datetime
  deriving DecidableEq, Repr

/-- What `_resolve` may raise. -/
inductive ResolveError
  | zeroDivisionError
  | indexError
  deriving DecidableEq, Repr

/-- `_candles_after`: the valid candles after a time, in their order. -/
def candlesAfter (candles : List Candle) (symbol timeframe : String) (after : Datetime)
    (limit : ℕ) : List Candle :=
  ((candles.filter fun c => c.symbol = symbol ∧ c.timeframe = timeframe ∧ after < c.timestamp ∧
    c.qualityStatus = .valid).insertionSort fun a b => a.timestamp ≤ b.timestamp).take limit

/-- `hit_stop`. -/
def hitStop (signalType : SignalType) (stopLoss : ℚ) (candle : Candle) : Prop :=
  if signalType = .long then candle.low ≤ stopLoss else candle.high ≥ stopLoss

/-- `hit_target`. -/
def hitTarget (signalType : SignalType) (takeProfit : ℚ) (candle : Candle) : Prop :=
  if signalType = .long then candle.high ≥ takeProfit else candle.low ≤ takeProfit

instance (signalType : SignalType) (stopLoss : ℚ) (candle : Candle) :
    Decidable (hitStop signalType stopLoss candle) := by
  unfold hitStop
  infer_instance

instance (signalType : SignalType) (takeProfit : ℚ) (candle : Candle) :
    Decidable (hitTarget signalType takeProfit candle) := by
  unfold hitTarget
  infer_instance

/-- `pnl_pct` of an exit. -/
def pnlPct (signalType : SignalType) (entryPrice exitPrice : ℚ) : Except ResolveError ℚ :=
  if entryPrice = 0 then .error .zeroDivisionError
  else if signalType = .long then .ok ((exitPrice - entryPrice) / entryPrice * 100)
  else .ok ((entryPrice - exitPrice) / entryPrice * 100)

/-- The resolution at a level that a candle touches. -/
def resolution (signalType : SignalType) (entryPrice : ℚ) (outcome : ResolvedOutcome)
    (exitPrice : ℚ) (candle : Candle) : Except ResolveError (Option Resolution) := do
  let pnl ← pnlPct signalType entryPrice exitPrice
  return some ⟨outcome, some exitPrice, some pnl, candle.timestamp⟩

/-- The loop of `_resolve`. -/
def resolveLoop (signalType : SignalType) (entryPrice stopLoss takeProfit : ℚ) :
    List Candle → Except ResolveError (Option Resolution)
  | [] => .ok none
  | candle :: rest =>
    if hitStop signalType stopLoss candle then
      resolution signalType entryPrice .loss stopLoss candle
    else if hitTarget signalType takeProfit candle then
      resolution signalType entryPrice .win takeProfit candle
    else resolveLoop signalType entryPrice stopLoss takeProfit rest

/-- `candles[max_horizon_bars - 1]`, which for a horizon of zero is the last one. -/
def lastOfHorizon (candles : List Candle) (maxHorizonBars : ℕ) : Option Candle :=
  if maxHorizonBars = 0 then candles.getLast? else candles[maxHorizonBars - 1]?

/-- `_resolve`: no resolution when it is too early to decide. -/
def resolve (signal : Signal) (candles : List Candle) (maxHorizonBars : ℕ) :
    Except ResolveError (Option Resolution) :=
  match signal.entryPrice, signal.stopLoss, signal.takeProfit1 with
  | some entryPrice, some stopLoss, some takeProfit => do
    let resolved ← resolveLoop signal.signalType entryPrice stopLoss takeProfit
      (candles.take maxHorizonBars)
    match resolved with
    | some resolution => return some resolution
    | none =>
      if maxHorizonBars ≤ candles.length then
        match lastOfHorizon candles maxHorizonBars with
        | some candle => return some ⟨.expired, none, none, candle.timestamp⟩
        | none => throw .indexError
      else return none
  | _, _, _ => return none

/-- The level that a resolution found touched, and when. -/
def Resolution.decided (r : Resolution) : Option (ResolvedOutcome × Datetime) :=
  if r.outcome = .expired then none else some (r.outcome, r.evaluatedAt)

/-! ## The first candle that decides -/

/-- What a candle decides about a trade, the stop before the target. -/
def decides (signalType : SignalType) (stopLoss takeProfit : ℚ) (candle : Candle) :
    Option ResolvedOutcome :=
  if hitStop signalType stopLoss candle then some .loss
  else if hitTarget signalType takeProfit candle then some .win
  else none

section Resolve

variable {signalType : SignalType} {entryPrice stopLoss takeProfit : ℚ} {candles : List Candle}

/-- The loop stops at the first candle that decides. -/
theorem resolveLoop_eq (signalType : SignalType) (hentry : entryPrice ≠ 0)
    (stopLoss takeProfit : ℚ) (candles : List Candle) :
    ∃ resolved, resolveLoop signalType entryPrice stopLoss takeProfit candles = .ok resolved ∧
      (resolved.map fun r => (r.outcome, r.evaluatedAt)) =
        (firstHit (decides signalType stopLoss takeProfit) candles).bind fun d =>
          candles[d.1]?.map fun c => (d.2, c.timestamp) := by
  have hpnl : ∀ exitPrice, ∃ pnl, pnlPct signalType entryPrice exitPrice = .ok pnl := by
    intro exitPrice
    unfold pnlPct
    rw [if_neg hentry]
    split
    · exact ⟨_, rfl⟩
    · exact ⟨_, rfl⟩
  induction candles with
  | nil => exact ⟨none, rfl, rfl⟩
  | cons candle rest ih =>
    rw [resolveLoop]
    by_cases hstop : hitStop signalType stopLoss candle
    · obtain ⟨pnl, hpnl⟩ := hpnl stopLoss
      have hdecides : decides signalType stopLoss takeProfit candle = some .loss := if_pos hstop
      rw [if_pos hstop, resolution, hpnl, firstHit_cons_of_some hdecides]
      exact ⟨_, rfl, rfl⟩
    · by_cases htarget : hitTarget signalType takeProfit candle
      · obtain ⟨pnl, hpnl⟩ := hpnl takeProfit
        have hdecides : decides signalType stopLoss takeProfit candle = some .win := by
          rw [decides, if_neg hstop, if_pos htarget]
        rw [if_neg hstop, if_pos htarget, resolution, hpnl, firstHit_cons_of_some hdecides]
        exact ⟨_, rfl, rfl⟩
      · have hdecides : decides signalType stopLoss takeProfit candle = none := by
          rw [decides, if_neg hstop, if_neg htarget]
        rw [if_neg hstop, if_neg htarget, firstHit_cons_of_none hdecides]
        obtain ⟨resolved, hloop, hread⟩ := ih
        refine ⟨resolved, hloop, hread.trans ?_⟩
        cases firstHit (decides signalType stopLoss takeProfit) rest <;> rfl

theorem decides_ne_expired {candle : Candle} :
    decides signalType stopLoss takeProfit candle ≠ some .expired := by
  unfold decides
  split_ifs <;> simp

/-- **A signal is judged on the first candle of its horizon that decides.** -/
theorem resolve_decided (signal : Signal) (candles : List Candle) (hentry : entryPrice ≠ 0)
    (hsignal : signal.entryPrice = some entryPrice) (hstop : signal.stopLoss = some stopLoss)
    (htarget : signal.takeProfit1 = some takeProfit) {maxHorizonBars : ℕ}
    (hpos : 0 < maxHorizonBars) :
    ∃ resolved, resolve signal candles maxHorizonBars = .ok resolved ∧
      resolved.bind Resolution.decided =
        (firstHit (decides signal.signalType stopLoss takeProfit)
          (candles.take maxHorizonBars)).bind fun d =>
            (candles.take maxHorizonBars)[d.1]?.map fun c => (d.2, c.timestamp) := by
  obtain ⟨resolved, hloop, hread⟩ := resolveLoop_eq signal.signalType hentry stopLoss takeProfit
    (candles.take maxHorizonBars)
  unfold resolve
  rw [hsignal, hstop, htarget]
  dsimp only
  rw [hloop]
  cases hhit : firstHit (decides signal.signalType stopLoss takeProfit)
      (candles.take maxHorizonBars) with
  | none =>
    rw [hhit] at hread
    obtain rfl : resolved = none := by simpa using hread
    by_cases hfull : maxHorizonBars ≤ candles.length
    · obtain ⟨last, hlast⟩ : ∃ last, lastOfHorizon candles maxHorizonBars = some last := by
        rw [lastOfHorizon, if_neg hpos.ne', List.getElem?_eq_getElem (by omega)]
        exact ⟨_, rfl⟩
      refine ⟨some ⟨.expired, none, none, last.timestamp⟩, ?_, rfl⟩
      change (if _ then _ else _) = _
      rw [if_pos hfull, hlast]
      rfl
    · refine ⟨none, ?_, rfl⟩
      change (if _ then _ else _) = _
      rw [if_neg hfull]
      rfl
  | some d =>
    rw [hhit] at hread
    obtain ⟨⟨c, hc, hdecides⟩, -⟩ := firstHit_eq_some_iff.1 hhit
    rw [Option.bind_some, hc, Option.map_some] at hread ⊢
    obtain ⟨r, rfl, hr⟩ := Option.map_eq_some_iff.1 hread
    have hout : r.outcome = d.2 := congrArg Prod.fst hr
    have hkind : r.outcome ≠ .expired := by
      rw [hout]
      exact fun h => decides_ne_expired (h ▸ hdecides)
    refine ⟨some r, rfl, ?_⟩
    rw [Option.bind_some, Resolution.decided, if_neg hkind, ← hr]

end Resolve

/-- In a history in order, the query finds the candles after the signal's. -/
theorem candlesAfter_eq {history : List Candle} {symbol timeframe : String}
    (hrows : ∀ c ∈ history, c.symbol = symbol ∧ c.timeframe = timeframe ∧
      c.qualityStatus = .valid)
    (horder : history.Pairwise (·.timestamp < ·.timestamp)) {t : ℕ} {c : Candle}
    (hc : history[t]? = some c) (limit : ℕ) :
    candlesAfter history symbol timeframe c.timestamp limit =
      (history.drop (t + 1)).take limit := by
  obtain ⟨ht, hget⟩ := List.getElem?_eq_some_iff.1 hc
  have hbefore : ∀ d ∈ history.take (t + 1), ¬c.timestamp < d.timestamp := by
    intro d hd
    obtain ⟨j, hj, rfl⟩ := List.mem_iff_getElem.1 hd
    rw [List.length_take] at hj
    rw [List.getElem_take, ← hget]
    rcases (show j ≤ t by omega).lt_or_eq with hlt | rfl
    · exact not_lt.2 (List.pairwise_iff_getElem.1 horder j t (by omega) ht hlt).le
    · exact lt_irrefl _
  have hafter : ∀ d ∈ history.drop (t + 1), c.timestamp < d.timestamp := by
    intro d hd
    obtain ⟨j, hj, rfl⟩ := List.mem_iff_getElem.1 hd
    rw [List.length_drop] at hj
    rw [List.getElem_drop, ← hget]
    exact List.pairwise_iff_getElem.1 horder t (t + 1 + j) ht (by omega) (by omega)
  have hfilter : (history.filter fun d => d.symbol = symbol ∧ d.timeframe = timeframe ∧
      c.timestamp < d.timestamp ∧ d.qualityStatus = .valid) = history.drop (t + 1) := by
    conv_lhs => rw [← List.take_append_drop (t + 1) history]
    rw [List.filter_append, List.filter_eq_nil_iff.2 fun d hd => ?_, List.nil_append,
      List.filter_eq_self.2 fun d hd => ?_]
    · obtain ⟨hsymbol, htimeframe, hvalid⟩ := hrows d (List.mem_of_mem_drop hd)
      exact decide_eq_true ⟨hsymbol, htimeframe, hafter d hd, hvalid⟩
    · rw [decide_eq_true_iff]
      exact fun h => hbefore d hd h.2.2.1
  have hsorted : (history.drop (t + 1)).Pairwise fun a b => a.timestamp ≤ b.timestamp :=
    (horder.sublist (List.drop_sublist _ _)).imp le_of_lt
  rw [candlesAfter, hfilter, hsorted.insertionSort_eq]

end AlphaOne.SignalEngine
