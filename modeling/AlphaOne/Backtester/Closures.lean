import AlphaOne.Backtester.LookAhead

/-!
# Strategies that are closures

`Backtester.run` calls its `signal_func` once at every bar, and the function may keep variables of
its own between the calls (`fired` of `buy_and_hold_signal_func`). `Closure` is such a function, and
`runClosure` the loop that calls it.

The loop reads the prices of a bar only. Two frames with the same prices, whatever their columns
are, give the same run when the strategies answer alike on the frames so far; for a closure this is
to be shown along an invariant of its variables (`runClosure_eq`).
-/

namespace AlphaOne.Backtester

open Foundations Risk

variable {γ δ : Type*}

/-- A bar without its columns. -/
def Bar.prices (bar : Bar γ) : Bar Unit :=
  ⟨bar.timestamp, bar.open_, bar.high, bar.low, bar.close, ()⟩

/-- A `signal_func` with the variables that it keeps. -/
structure Closure (γ : Type*) where
  Vars : Type
  init : Vars
  call : Vars → List (Bar γ) → Option Signal × Vars

/-- A `signal_func` that keeps nothing. -/
def Closure.pure (signalFunc : List (Bar γ) → Option Signal) : Closure γ :=
  ⟨Unit, (), fun _ seen => (signalFunc seen, ())⟩

namespace Backtest

/-- The backtest whose strategy has given an answer. -/
def answered (b : Backtest γ) (signal : Option Signal) : Backtest γ :=
  { b with signalFunc := fun _ => signal }

variable (b : Backtest γ) (f : Closure γ)

/-- The loop body with a closure, which is called once. -/
def closureStep (s : State × f.Vars) (input : Bar γ × List (Bar γ)) : State × f.Vars :=
  let (signal, vars) := f.call s.2 input.2
  ((b.answered signal).step s.1 input, vars)

/-- The loop through the position `k` of the frame. -/
def closureUpTo (df : List (Bar γ)) (k : ℕ) : State × f.Vars :=
  Foundations.run (b.closureStep f) (b.init, f.init) ((bars df).take k)

/-- `Backtester.run` with a closure; the strategy of `b` is not asked. -/
def runClosure (df : List (Bar γ)) : State := b.finish df (b.closureUpTo f df df.length).1

end Backtest

/-! ## The loop reads prices -/

section Prices

variable {b : Backtest γ} {b' : Backtest δ}

/-- Two backtests that differ at most in their strategies. -/
structure SameSettings (b : Backtest γ) (b' : Backtest δ) : Prop where
  config : b.config = b'.config
  today : b.today = b'.today
  fundingRates : b.fundingRates = b'.fundingRates

theorem SameSettings.init_eq (h : SameSettings b b') : b.init = b'.init := by
  rw [Backtest.init, Backtest.init, h.config, h.today, h.fundingRates]

/-- **A bar does the same** at the same prices, after the same answer of the strategy. -/
theorem step_eq_of_prices (h : SameSettings b b') (s : State) {bar : Bar γ} {bar' : Bar δ}
    (hprices : bar.prices = bar'.prices) {seen : List (Bar γ)} {seen' : List (Bar δ)}
    (hsignal : b.signalFunc seen = b'.signalFunc seen') :
    b.step s (bar, seen) = b'.step s (bar', seen') := by
  obtain ⟨timestamp, open_, high, low, close, columns⟩ := bar
  obtain ⟨timestamp', open', high', low', close', columns'⟩ := bar'
  simp only [Bar.prices, Bar.mk.injEq, and_true] at hprices
  obtain ⟨rfl, rfl, rfl, rfl, rfl⟩ := hprices
  have hfunding : b.useRealFunding = b'.useRealFunding := by
    rw [Backtest.useRealFunding, Backtest.useRealFunding, h.fundingRates]
  unfold Backtest.step Backtest.decide Backtest.manage Backtest.chargeFunding Backtest.fillPending
    Backtest.recordEquity
  simp only [h.config, hfunding, hsignal]

theorem finish_eq_of_prices (h : SameSettings b b') (s : State) {df : List (Bar γ)}
    {df' : List (Bar δ)} (hprices : df.map Bar.prices = df'.map Bar.prices) :
    b.finish df s = b'.finish df' s := by
  have hlast : df.getLast?.map Bar.prices = df'.getLast?.map Bar.prices := by
    rw [← List.getLast?_map, ← List.getLast?_map, hprices]
  have hfunding : b.useRealFunding = b'.useRealFunding := by
    rw [Backtest.useRealFunding, Backtest.useRealFunding, h.fundingRates]
  unfold Backtest.finish
  rw [← h.config, ← hfunding]
  cases hopen : s.openTrade with
  | none => rfl
  | some t =>
    cases hd : df.getLast? with
    | none =>
      rw [hd, Option.map_none, eq_comm, Option.map_eq_none_iff] at hlast
      rw [hlast]
    | some last =>
      rw [hd, Option.map_some, eq_comm, Option.map_eq_some_iff] at hlast
      obtain ⟨last', hd', hbar⟩ := hlast
      simp only [Bar.prices, Bar.mk.injEq, and_true] at hbar
      simp only [hd', hbar]

end Prices

/-! ## A closure and a function of the bars -/

section Closures

variable {b : Backtest γ} {b' : Backtest δ} {f : Closure γ} {df : List (Bar γ)} {df' : List (Bar δ)}

/-- The variables of a closure satisfy an invariant at every bar, along which it answers what a
function of the bars so far answers. -/
structure Answers (f : Closure γ) (df : List (Bar γ)) (signalFunc : List (Bar δ) → Option Signal)
    (df' : List (Bar δ)) (Inv : ℕ → f.Vars → Prop) : Prop where
  init : Inv 0 f.init
  signal : ∀ n vars, n + 1 < df.length → Inv n vars →
    (f.call vars (df.take (n + 2))).1 = signalFunc (df'.take (n + 2))
  keeps : ∀ n vars, n + 1 < df.length → Inv n vars → Inv (n + 1) (f.call vars (df.take (n + 2))).2

theorem closureUpTo_eq (h : SameSettings b b') (hprices : df.map Bar.prices = df'.map Bar.prices)
    {Inv : ℕ → f.Vars → Prop} (hf : Answers f df b'.signalFunc df' Inv) (k : ℕ)
    (hk : k < df.length ∨ k = 0) :
    (b.closureUpTo f df k).1 = b'.upTo df' k ∧ Inv k (b.closureUpTo f df k).2 := by
  induction k with
  | zero => exact ⟨h.init_eq, hf.init⟩
  | succ k ih =>
    have hlt : k + 1 < df.length := by omega
    obtain ⟨hstate, hinv⟩ := ih (Or.inl (by omega))
    obtain ⟨bar, hbar⟩ : ∃ bar, df[k + 1]? = some bar := ⟨_, List.getElem?_eq_getElem hlt⟩
    have hsame : (df[k + 1]?).map Bar.prices = (df'[k + 1]?).map Bar.prices := by
      rw [← List.getElem?_map, ← List.getElem?_map, hprices]
    rw [hbar, Option.map_some, eq_comm, Option.map_eq_some_iff] at hsame
    obtain ⟨bar', hbar', hbarPrices⟩ := hsame
    have hrun : b.closureUpTo f df (k + 1) =
        b.closureStep f (b.closureUpTo f df k) (bar, df.take (k + 2)) := by
      rw [Backtest.closureUpTo, List.take_add_one, bars_getElem?, hbar, Option.map_some,
        Option.toList_some, run_append]
      rfl
    have hrun' : b'.upTo df' (k + 1) = b'.step (b'.upTo df' k) (bar', df'.take (k + 2)) :=
      run_bars_succ b' b'.init hbar'
    rw [hrun, hrun', ← hstate]
    refine ⟨?_, hf.keeps k _ hlt hinv⟩
    refine step_eq_of_prices (b := b.answered _) ⟨h.config, h.today, h.fundingRates⟩ _
      hbarPrices.symm ?_
    exact hf.signal k _ hlt hinv

/-- The loop has ended with the last bar. -/
theorem bars_take_of_le {k : ℕ} (hk : df.length ≤ k + 1) :
    (Backtest.bars df).take k = (Backtest.bars df).take (df.length - 1) := by
  have hlength : (Backtest.bars df).length = df.length - 1 := by simp [Backtest.bars]
  rw [List.take_of_length_le (by omega), List.take_of_length_le (by omega)]

/-- **A closure is run as the function that it answers as.** -/
theorem runClosure_eq (h : SameSettings b b') (hprices : df.map Bar.prices = df'.map Bar.prices)
    {Inv : ℕ → f.Vars → Prop} (hf : Answers f df b'.signalFunc df' Inv) :
    (∀ k, (b.closureUpTo f df k).1 = b'.upTo df' k) ∧ b.runClosure f df = b'.run df' := by
  have hlength : df.length = df'.length := by simpa using congrArg List.length hprices
  have hupTo : ∀ k, (b.closureUpTo f df k).1 = b'.upTo df' k := by
    intro k
    rcases Nat.lt_or_ge (k + 1) df.length with hk | hk
    · exact (closureUpTo_eq h hprices hf k (Or.inl (by omega))).1
    · have hend : (Backtest.bars df').take k = (Backtest.bars df').take (df.length - 1) := by
        rw [hlength]
        exact bars_take_of_le (by omega)
      rw [Backtest.closureUpTo, Backtest.upTo, bars_take_of_le hk, hend]
      exact (closureUpTo_eq h hprices hf _ (by omega)).1
  refine ⟨hupTo, ?_⟩
  have hrun : b'.run df' = b'.finish df' (b'.upTo df' df.length) := by
    rw [Backtest.run, Backtest.upTo, List.take_of_length_le (by simp [Backtest.bars, hlength])]
  rw [Backtest.runClosure, hupTo, hrun, finish_eq_of_prices h _ hprices]

end Closures

end AlphaOne.Backtester
