import AlphaOne.Backtester.LookAhead
import AlphaOne.ML.Simulators
import AlphaOne.SignalEngine.Engine

/-!
# The signals of a validated model

`_make_model_signal_func` of `ml/evaluation/validator.py`: the walk-forward validator trades the
predictions of a classifier through the signal engine and the backtester.

`model_trades_follow_engine` traces every trade of such a backtest to the bar it was decided on: the
prediction for its row warrants the side in the regime of the rows through it, and the trade has the
levels of the engine.
-/

namespace AlphaOne.Backtester

open Foundations

variable {γ : Type*}

/-- A trade was opened at the open of the bar at `T + 1` by the decision on the bar at `T`. -/
def OpenedBy (b : Backtest γ) (df : List (Bar γ)) (t : BacktestTrade) (T : ℕ) (signal : Signal)
    (bar : Bar γ) : Prop :=
  b.signalFunc (df.take (T + 1)) = some signal ∧ df[T + 1]? = some bar ∧
    ∃ risk id, t.entry = (openTrade b.config risk signal bar.open_ bar.timestamp id).entry

/-- **Every trade of a run is opened by a decision.** -/
theorem run_openedBy (b : Backtest γ) (df : List (Bar γ)) :
    ∀ t ∈ (b.run df).trades, ∃ T signal bar, OpenedBy b df t T signal bar := by
  have hupTo : ∀ k ≤ (Backtest.bars df).length, ∀ e ∈ (b.upTo df k).entries,
      ∃ T signal bar risk id, b.signalFunc (df.take (T + 1)) = some signal ∧
        df[T + 1]? = some bar ∧
        e = (openTrade b.config risk signal bar.open_ bar.timestamp id).entry := by
    intro k hk
    induction k with
    | zero => simp [Backtest.upTo, Backtest.init, State.entries]
    | succ k ih =>
      intro e he
      obtain ⟨bar, hbar⟩ := bar_of_lt_bars hk
      rw [Backtest.upTo, run_bars_succ b _ hbar, step_entries] at he
      rcases fillPending_entries b (b.upTo df k) bar with heq | ⟨signal, hsignal, risk, id, heq⟩
      · exact ih (Nat.le_of_succ_le hk) e (heq ▸ he)
      · rcases List.mem_append.1 (heq ▸ he) with he | he
        · exact ih (Nat.le_of_succ_le hk) e he
        · have hdecided := (upTo_decided b df (Nat.le_of_succ_le hk)).pending signal hsignal
          exact ⟨k, signal, bar, risk, id, hdecided.2, hbar, List.mem_singleton.1 he⟩
  intro t ht
  have hentry : t.entry ∈ (b.upTo df (Backtest.bars df).length).entries := by
    rw [Backtest.upTo, List.take_length, ← finish_entries b _ df]
    exact List.mem_map_of_mem (List.mem_append_left _ ht)
  obtain ⟨T, signal, bar, risk, id, hsignal, hbar, heq⟩ := hupTo _ le_rfl _ hentry
  exact ⟨T, signal, bar, hsignal, hbar, risk, id, heq⟩

end AlphaOne.Backtester

namespace AlphaOne.ML

open Backtester FeatureEngine SignalEngine

/-- The arguments of `_make_model_signal_func`, with what its frames are besides their rows: the
series of their candles and the names of their feature columns. -/
structure ModelSignal where
  predictProba : List ℚ → Proba
  featureCols : List String
  signalEngine : Engine := {}
  symbol : String := "BTC/USDT"
  timeframe : String
  columnNames : List String

namespace ModelSignal

variable (m : ModelSignal)

/-- The frame that `d` is for the regime detector. -/
def frameOf (d : List (Bar Columns)) : Frame where
  candles := d.map (candleOf m.symbol m.timeframe)
  columns := m.columnNames.map fun name => (name, d.map fun bar => bar.columns name)

/-- `_signal`, the function that `_make_model_signal_func` returns. -/
def signal (d : List (Bar Columns)) : Option Backtester.Signal :=
  if d.length < 2 then none
  else do
    let row ← d.getLast?
    let features ← m.featureCols.mapM row.columns
    let output := m.signalEngine.generateSignal (m.predictProba features) (m.frameOf d) row.close
    let levels ← output.levels
    some
      { signalType := output.signalType
        stopLoss := some levels.stopLoss
        takeProfit1 := some levels.takeProfit1
        leverage := 1 }

/-- The backtest of a period of the validation. -/
def backtest (config : BacktestConfig) (today : ℤ) (fundingRates : List FundingEvent) :
    Backtest Columns where
  config
  today
  signalFunc := m.signal
  fundingRates

variable {m}

/-- **What a signal says of its bar.** -/
theorem signal_eq_some {d : List (Bar Columns)} {s : Backtester.Signal}
    (h : m.signal d = some s) :
    ∃ row features, d.getLast? = some row ∧ m.featureCols.mapM row.columns = some features ∧
      (s.signalType = .long ∨ s.signalType = .short) ∧
      Engine.Warrants m.signalEngine (m.predictProba features)
        (MarketRegimeDetector.detect (m.frameOf d)) s.signalType ∧
      let levels := Engine.calculateLevels row.close s.signalType (m.frameOf d)
      s.stopLoss = some levels.stopLoss ∧ s.takeProfit1 = some levels.takeProfit1 ∧
        s.leverage = 1 := by
  unfold signal at h
  split_ifs at h with hlength
  simp only [Option.bind_eq_bind, Option.bind_eq_some_iff] at h
  obtain ⟨row, hrow, features, hfeatures, levels, hlevels, hs⟩ := h
  obtain rfl := Option.some.inj hs
  set regime := MarketRegimeDetector.detect (m.frameOf d)
  have hout : (if m.signalEngine.determineSignalType (m.predictProba features) regime = .long ∨
      m.signalEngine.determineSignalType (m.predictProba features) regime = .short then
        some (Engine.calculateLevels row.close
          (m.signalEngine.determineSignalType (m.predictProba features) regime) (m.frameOf d))
      else none) = some levels := hlevels
  split_ifs at hout with hside
  obtain rfl := Option.some.inj hout
  exact ⟨row, features, hrow, hfeatures, hside,
    (Engine.determineSignalType_eq_iff hside).1 rfl, rfl, rfl, rfl⟩

end ModelSignal

/-- What a trade of a validated model goes back to: a row `T` and the bar after it. -/
structure FollowsEngine (m : ModelSignal) (config : BacktestConfig) (df : List (Bar Columns))
    (t : BacktestTrade) (T : ℕ) (row bar : Bar Columns) (features : List ℚ) : Prop where
  decided : df[T]? = some row
  filled : df[T + 1]? = some bar
  /-- No feature of the row is missing. -/
  complete : m.featureCols.mapM row.columns = some features
  /-- The detector needs 50 rows. -/
  warmedUp : 49 ≤ T
  side : t.side = .long ∨ t.side = .short
  warrants : Engine.Warrants m.signalEngine (m.predictProba features)
    (MarketRegimeDetector.detect (m.frameOf (df.take (T + 1)))) t.side
  entryTime : t.entryTime = bar.timestamp
  stopLoss : t.stopLoss = some
    (Engine.calculateLevels row.close t.side (m.frameOf (df.take (T + 1)))).stopLoss
  takeProfit : t.takeProfit = some
    (Engine.calculateLevels row.close t.side (m.frameOf (df.take (T + 1)))).takeProfit1
  leverage : t.leverage = min 1 config.riskConfig.maxLeverage

/-- **The trades of a validated model follow the signal engine.** Every trade of its backtest, on
any frame and for any classifier, goes back to a row that has all its features. The prediction for
it warrants the side of the trade in the regime of the rows through it: the market was calm and did
not trend against the side. The trade is filled on the next bar, with the levels that the engine
puts around the close. -/
theorem model_trades_follow_engine (m : ModelSignal) (config : BacktestConfig) (today : ℤ)
    (fundingRates : List FundingEvent) (df : List (Bar Columns)) :
    ∀ t ∈ ((m.backtest config today fundingRates).run df).trades,
      ∃ T row bar features, FollowsEngine m config df t T row bar features := by
  intro t ht
  obtain ⟨T, signal, bar, hsignal, hbar, risk, id, hentry⟩ := run_openedBy _ df t ht
  obtain ⟨row, features, hrow, hfeatures, hside, hwarrants, hstop, htarget, hleverage⟩ :=
    ModelSignal.signal_eq_some hsignal
  obtain ⟨hlt, -⟩ := List.getElem?_eq_some_iff.1 hbar
  have hlast : df[T]? = some row := by
    rwa [List.getLast?_eq_getElem?, List.length_take, Nat.min_eq_left (by omega),
      Nat.add_sub_cancel, List.getElem?_take_of_lt (Nat.lt_succ_self T)] at hrow
  have hrows : 50 ≤ ((m.frameOf (df.take (T + 1))).candles).length := hwarrants.rows
  have htside : t.side = signal.signalType := congrArg BacktestTrade.side hentry
  have htstop : t.stopLoss = signal.stopLoss := congrArg BacktestTrade.stopLoss hentry
  have httarget : t.takeProfit = signal.takeProfit1 := congrArg BacktestTrade.takeProfit hentry
  have htleverage : t.leverage = min signal.leverage config.riskConfig.maxLeverage :=
    congrArg BacktestTrade.leverage hentry
  refine ⟨T, row, bar, features, hlast, hbar, hfeatures, ?_, ?_, ?_,
    congrArg BacktestTrade.entryTime hentry, ?_, ?_, ?_⟩
  · simp only [ModelSignal.frameOf, List.length_map, List.length_take] at hrows
    omega
  · rwa [htside]
  · rwa [htside]
  · rw [htstop, htside, hstop]
  · rw [httarget, htside, htarget]
  · rw [htleverage, hleverage]

section Example

/-- A classifier that is sure of a rise. -/
def sureModel : ModelSignal where
  predictProba _ := ⟨1 / 10, 1 / 5, 7 / 10⟩
  featureCols := ["atr_14"]
  timeframe := "1h"
  columnNames := ["atr_14", "adx_14", "ema_50", "ema_200"]

/-- A bar of a strong upward trend. -/
def trendBar (i : ℕ) : Bar Columns where
  timestamp := i
  open_ := 100 + i
  high := 102 + i
  low := 99 + i
  close := 101 + i
  columns name :=
    [("atr_14", (1 : ℚ)), ("adx_14", 30), ("ema_50", 101), ("ema_200", 99)].lookup name

theorem model_trades_follow_engine_trend :
    ∃ t ∈ ((sureModel.backtest {} 0 []).run ((List.range 54).map trendBar)).trades,
      ∃ T row bar features, FollowsEngine sureModel {} ((List.range 54).map trendBar) t T row bar
        features := by
  obtain ⟨t, ht⟩ := List.exists_mem_of_length_pos (show 0 < ((sureModel.backtest {} 0 []).run
    ((List.range 54).map trendBar)).trades.length by decide +kernel)
  exact ⟨t, ht, model_trades_follow_engine sureModel {} 0 [] _ t ht⟩

end Example

end AlphaOne.ML
