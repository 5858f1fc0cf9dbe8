import AlphaOne.SignalEngine.OutcomeSchedule
import Mathlib.Data.List.Induction

/-!
# The timeframe a signal is judged on

`evaluate_pending_signal_outcomes` selects the pending signals by their symbol alone, and judges
them all on the candles of the timeframe it is called with. Signals of every timeframe are pending
together, the scheduler and the API choose the timeframe of a call, and a resolved row is never
looked at again.

`judged_on_own_timeframe` is the law that holds: in a run whose evaluations find no signal of
another timeframe that their candles decide (`OnOwnTimeframe`), every row was resolved as the
candles of its signal's own timeframe resolve it.
-/

namespace AlphaOne.SignalEngine

open Foundations

/-- The timeframe of a signal: a row that predates the column is one of the 4h strategy. -/
def ownTimeframe (signal : Signal) : String := signal.timeframe.getD "4h"

/-- Candles decide nothing about a signal: a price is missing, or they touch neither of its levels
and do not fill the horizon. -/
def Undecided (signal : Signal) (candles : List Candle) (maxHorizonBars : ℕ) : Prop :=
  ∀ _ ∈ signal.entryPrice, ∀ stopLoss ∈ signal.stopLoss, ∀ takeProfit ∈ signal.takeProfit1,
    candles.length < maxHorizonBars ∧
      ∀ c ∈ candles, decides signal.signalType stopLoss takeProfit c = none

instance (signal : Signal) (candles : List Candle) (maxHorizonBars : ℕ) :
    Decidable (Undecided signal candles maxHorizonBars) := by
  unfold Undecided; infer_instance

/-- The arguments of `evaluate_pending_signal_outcomes`. -/
structure OutcomeCall where
  symbol : String := "BTC/USDT"
  timeframe : String := "4h"
  maxHorizonBars : ℕ := 30
  deriving DecidableEq, Repr

/-- What happens to the tables, evaluations with their arguments. -/
inductive OutcomeOp
  | storeCandles (candles : List Candle)
  | persistSignal (signal : Signal)
  | evaluate (call : OutcomeCall)
  deriving DecidableEq, Repr

namespace OutcomeStore

/-- The step of `OutcomeStore.step` with the arguments of the call, when there is one. -/
def opStep (s : OutcomeStore) : OutcomeOp → OutcomeStore
  | .storeCandles candles => { s with candles := s.candles ++ candles }
  | .persistSignal signal =>
    if ∃ t ∈ s.signals, t.signalId = signal.signalId then s
    else
      { s with
        signals := s.signals ++ [signal]
        outcomes := s.outcomes ++ [.initial signal] }
  | .evaluate call =>
    (s.evaluatePendingSignalOutcomes call.symbol call.timeframe call.maxHorizonBars).2

/-- The valid candles of a signal's own timeframe after its timestamp. -/
def ownCandles (s : OutcomeStore) (signal : Signal) (limit : ℕ) : List Candle :=
  candlesAfter s.candles signal.symbol (ownTimeframe signal) signal.timestamp limit

/-- A call makes `o'` of the pending row `o` as the candles of the signal's own timeframe resolve
it. -/
def JudgedBy (s : OutcomeStore) (call : OutcomeCall) (o o' : OutcomeRow) : Prop :=
  ∃ signal ∈ s.pendingSignal? call.symbol o, ∃ r,
    SignalEngine.resolve signal (s.ownCandles signal call.maxHorizonBars) call.maxHorizonBars =
      .ok (some r) ∧ o' = o.resolve signal r

/-- The row was resolved so by one of the calls. -/
def Judged (ops : List OutcomeOp) (o' : OutcomeRow) : Prop :=
  ∃ pre call post, ops = pre ++ .evaluate call :: post ∧
    ∃ o ∈ (run opStep {} pre).outcomes, JudgedBy (run opStep {} pre) call o o'

/-- The pending signals of a call are of its timeframe, or not decided by its candles. -/
def OnOwnTimeframe (s : OutcomeStore) : OutcomeOp → Prop
  | .evaluate call => ∀ o ∈ s.outcomes, ∀ signal ∈ s.pendingSignal? call.symbol o,
      ownTimeframe signal = call.timeframe ∨
        Undecided signal
          (candlesAfter s.candles call.symbol call.timeframe signal.timestamp call.maxHorizonBars)
          call.maxHorizonBars
  | .storeCandles _ | .persistSignal _ => True

instance : ∀ (s : OutcomeStore) (op : OutcomeOp), Decidable (s.OnOwnTimeframe op)
  | _, .evaluate _ => inferInstanceAs (Decidable (∀ o ∈ _, _))
  | _, .storeCandles _ => inferInstanceAs (Decidable True)
  | _, .persistSignal _ => inferInstanceAs (Decidable True)

/-! ## One evaluation -/

variable {s : OutcomeStore} {call : OutcomeCall} {signal : Signal} {o o' : OutcomeRow}
  {ops : List OutcomeOp}

/-- The loop passes candles that decide nothing. -/
theorem resolveLoop_of_undecided {signalType : SignalType} (entryPrice : ℚ)
    {stopLoss takeProfit : ℚ} {candles : List Candle}
    (h : ∀ c ∈ candles, decides signalType stopLoss takeProfit c = none) :
    resolveLoop signalType entryPrice stopLoss takeProfit candles = .ok none := by
  induction candles with
  | nil => rfl
  | cons c rest ih =>
    have hc := h c (by simp)
    unfold decides at hc
    split at hc
    · cases hc
    · rename_i hstop
      split at hc
      · cases hc
      · rename_i htarget
        rw [resolveLoop, if_neg hstop, if_neg htarget]
        exact ih fun d hd => h d (by simp [hd])

theorem resolve_undecided {candles : List Candle} {maxHorizonBars : ℕ}
    (h : Undecided signal candles maxHorizonBars) :
    SignalEngine.resolve signal candles maxHorizonBars = .ok none := by
  unfold SignalEngine.resolve
  split
  · rename_i entryPrice stopLoss takeProfit hentry hstop htarget
    obtain ⟨hlength, hnone⟩ := h entryPrice hentry stopLoss hstop takeProfit htarget
    have hloop := resolveLoop_of_undecided entryPrice
      (fun c (hc : c ∈ candles.take maxHorizonBars) => hnone c (List.mem_of_mem_take hc))
    rw [hloop]
    change (if _ then _ else _) = _
    rw [if_neg (not_le.2 hlength)]
    rfl
  · rfl

theorem symbol_of_pendingSignal? {symbol : String} (h : signal ∈ s.pendingSignal? symbol o) :
    signal.symbol = symbol := by
  unfold pendingSignal? at h
  split at h
  · exact of_decide_eq_true (Option.mem_filter_iff.1 h).2
  · cases h

/-- What a call on its own timeframe changes, it judges by the candles of that timeframe. -/
theorem evaluateOutcome_judged (hown : s.OnOwnTimeframe (.evaluate call)) (ho : o ∈ s.outcomes)
    (h : s.evaluateOutcome call.symbol call.timeframe call.maxHorizonBars o = .ok o') :
    o' = o ∨ JudgedBy s call o o' := by
  unfold evaluateOutcome at h
  cases hpending : s.pendingSignal? call.symbol o with
  | none =>
    rw [hpending] at h
    exact .inl (Except.ok.inj h).symm
  | some signal =>
    rw [hpending] at h
    dsimp only at h
    have hsymbol := symbol_of_pendingSignal? hpending
    split at h
    · cases h
    · exact .inl (Except.ok.inj h).symm
    · rename_i r hr
      obtain rfl := Except.ok.inj h
      rcases hown o ho signal hpending with htimeframe | hundecided
      · refine .inr ⟨signal, hpending, r, ?_, rfl⟩
        rw [ownCandles, hsymbol, htimeframe]
        exact hr
      · rw [resolve_undecided hundecided] at hr
        cases hr

/-! ## Runs -/

theorem Judged.mono {more : List OutcomeOp} (h : Judged ops o) : Judged (ops ++ more) o := by
  obtain ⟨pre, call, post, rfl, hjudged⟩ := h
  exact ⟨pre, call, post ++ more, by simp, hjudged⟩

/-- A row after an operation was there before it, is new, or is judged by the operation. -/
theorem mem_opStep {op : OutcomeOp} (hown : s.OnOwnTimeframe op)
    (ho' : o' ∈ (s.opStep op).outcomes) :
    o' ∈ s.outcomes ∨ (∃ signal, o' = .initial signal) ∨
      ∃ call, op = .evaluate call ∧ ∃ o ∈ s.outcomes, JudgedBy s call o o' := by
  cases op with
  | storeCandles candles => exact .inl ho'
  | persistSignal signal =>
    unfold opStep at ho'
    dsimp only at ho'
    split_ifs at ho'
    · exact .inl ho'
    · rcases List.mem_append.1 ho' with ho' | ho'
      · exact .inl ho'
      · exact .inr (.inl ⟨signal, List.mem_singleton.1 ho'⟩)
  | evaluate call =>
    obtain ⟨-, -, hsame | hrows⟩ :=
      @evaluate_cases call.symbol call.timeframe call.maxHorizonBars s
    · rw [opStep, hsame] at ho'
      exact .inl ho'
    · obtain ⟨o, ho, heval⟩ := (partner_of_mem hrows).2 o' ho'
      rcases evaluateOutcome_judged hown ho heval with rfl | hjudged
      · exact .inl ho
      · exact .inr (.inr ⟨call, rfl, o, ho, hjudged⟩)

/-- **Signals are judged on their own timeframe** in every run whose evaluations find pending only
signals of the timeframe they are called with, and signals that their candles leave undecided. -/
theorem judged_on_own_timeframe (ops : List OutcomeOp) (hown : Guarded opStep OnOwnTimeframe {} ops)
    (o : OutcomeRow) (ho : o ∈ (run opStep {} ops).outcomes) (r : ResolvedOutcome)
    (hresolved : o.outcome = .resolved r) : Judged ops o := by
  induction ops using List.reverseRecOn with
  | nil => simp at ho
  | append_singleton ops op ih =>
    obtain ⟨hbefore, hlast, -⟩ := guarded_append.1 hown
    rw [run_append] at ho
    rcases mem_opStep hlast ho with ho | ⟨signal, rfl⟩ | ⟨call, rfl, p, hp, hjudged⟩
    · exact (ih hbefore ho).mono
    · unfold OutcomeRow.initial at hresolved
      dsimp only at hresolved
      split_ifs at hresolved
    · exact ⟨ops, call, [], rfl, p, hp, hjudged⟩

/-! ## A signal of the hour -/

/-- A signal on the hourly candles, with the target at 110. -/
def hourlySignal : Signal :=
  { signalId := "SIG-a", timestamp := 0, signalType := .long, entryPrice := some 100
    stopLoss := some 90, takeProfit1 := some 110, timeframe := some "1h" }

/-- It is pending when a candle of `timeframe` reaches the target and that timeframe is
evaluated. -/
def judgedOn (timeframe : String) : List OutcomeOp :=
  [.persistSignal hourlySignal,
    .storeCandles [{ timestamp := 1, timeframe := timeframe, open_ := 100, high := 115, low := 100
                     close := 110, volume := 1 }],
    .evaluate { timeframe := timeframe }]

theorem judged_on_own_timeframe_hourly :
    (run opStep {} (judgedOn "1h")).outcomes.map OutcomeRow.outcome = [.resolved .win] ∧
      ∀ o ∈ (run opStep {} (judgedOn "1h")).outcomes, Judged (judgedOn "1h") o := by
  have hwon : ∀ o ∈ (run opStep {} (judgedOn "1h")).outcomes, o.outcome = .resolved .win := by
    decide +kernel
  exact ⟨by decide +kernel, fun o ho =>
    judged_on_own_timeframe (judgedOn "1h") (by decide +kernel) o ho .win (hwon o ho)⟩

/-- **The job on the 4h candles decides an hourly signal**, of whose candles none is stored. -/
theorem hourly_signal_judged_on_4h :
    (run opStep {} (judgedOn "4h")).outcomes.map OutcomeRow.outcome = [.resolved .win] ∧
      ¬∀ ops : List OutcomeOp, ∀ o ∈ (run opStep {} ops).outcomes, ∀ r,
        o.outcome = .resolved r → Judged ops o := by
  refine ⟨by decide +kernel, fun h => ?_⟩
  obtain ⟨o, ho, hwon⟩ : ∃ o ∈ (run opStep {} (judgedOn "4h")).outcomes,
      o.outcome = .resolved .win := by decide +kernel
  obtain ⟨pre, call, post, hops, p, hp, signal, hsignal, r, hresolve, -⟩ :=
    h (judgedOn "4h") o ho .win hwon
  -- the one call of the run is its last operation
  obtain ⟨rfl, rfl⟩ : pre = (judgedOn "4h").take 2 ∧ call = { timeframe := "4h" } := by
    match pre, hops with
    | [], hops => simp [judgedOn] at hops
    | [_], hops => simp [judgedOn] at hops
    | [_, _], hops =>
      simp only [judgedOn, List.cons_append, List.nil_append, List.cons.injEq,
        OutcomeOp.evaluate.injEq] at hops
      obtain ⟨rfl, rfl, rfl, -⟩ := hops
      exact ⟨rfl, rfl⟩
    | _ :: _ :: _ :: _, hops => simp [judgedOn] at hops
  have hnone : ∀ p ∈ (run opStep {} ((judgedOn "4h").take 2)).outcomes,
      ∀ signal ∈ (run opStep {} ((judgedOn "4h").take 2)).pendingSignal? "BTC/USDT" p,
        SignalEngine.resolve signal
          ((run opStep {} ((judgedOn "4h").take 2)).ownCandles signal 30) 30 = .ok none := by
    decide +kernel
  rw [hnone p hp signal hsignal] at hresolve
  cases hresolve

end OutcomeStore

end AlphaOne.SignalEngine
