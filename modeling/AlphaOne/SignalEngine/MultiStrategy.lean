import AlphaOne.Foundations.Interleaving
import AlphaOne.SignalEngine.LiveSignal

/-!
# The registry, evaluated without interruption

`evaluate_all_strategies_for_timeframe` of `multi_strategy_engine.py` as the job that calls it sees
it: what it returns or raises, and the store it leaves. `evaluateAll_alone` says that this is what
the call of `LiveSignal` comes to when no other writer moves in between.

Signals are committed one by one. When a later statement raises, those before it stay
(`evaluateAll_persists`), and nobody is told of them.
-/

namespace AlphaOne.SignalEngine

open Foundations Scheduler

/-- What the evaluation does with the result of a strategy, before it goes on with `next`. -/
def checkAndPersist (uuidHex : ℕ → String)
    (next : RegistryLoop → SignalStore → Except SignalFailure (List Signal) × SignalStore)
    (loop : RegistryLoop) (result : StrategySignal) (s : SignalStore) :
    Except SignalFailure (List Signal) × SignalStore :=
  if result.signalType = .noTrade then next loop s
  else
    match signalAlreadyExistsForCandle (loop.draft result).key s.signals with
    | .error e => (.error e, s)
    | .ok true => next loop s
    | .ok false =>
      match persistNewSignal (loop.draft result) (uuidHex loop.persisted.length) s with
      | (.error e, s) => (.error e, s)
      | (.ok signal, s) => next { loop with persisted := loop.persisted ++ [signal] } s

/-- The loop over the registry. -/
def evaluateDefinitions (uuidHex : ℕ → String) : List StrategyDefinition → RegistryLoop →
    SignalStore → Except SignalFailure (List Signal) × SignalStore
  | [], loop, s => (.ok loop.persisted, s)
  | d :: rest, loop, s =>
    if d.timeframe ≠ loop.timeframe ∨ d.productionStatus ≠ .productionEligible then
      evaluateDefinitions uuidHex rest loop s
    else
      match d.strategy with
      | .single generate =>
        checkAndPersist uuidHex (evaluateDefinitions uuidHex rest) loop (generate loop.df) s
      | .mtfTrend generateWithDaily =>
        let daily :=
          loop.daily.getD (loadRecentCandles s.candles loop.symbol "1d" defaultLookbackBars)
        let loop := { loop with daily := some daily }
        if daily.length < minBarsRequired then evaluateDefinitions uuidHex rest loop s
        else
          checkAndPersist uuidHex (evaluateDefinitions uuidHex rest) loop
            (generateWithDaily loop.df daily) s

/-- `evaluate_all_strategies_for_timeframe`. -/
def evaluateAllStrategiesForTimeframe (engine : Strategies) (symbol timeframe : String)
    (daily : Option (List Candle)) (uuidHex : ℕ → String) (s : SignalStore) :
    Except SignalFailure (List Signal) × SignalStore :=
  if isSignalGenerationPaused s then (.ok [], s)
  else
    let df := loadRecentCandles s.candles symbol timeframe defaultLookbackBars
    match df.getLast? with
    | none => (.ok [], s)
    | some lastCandle =>
      if df.length < minBarsRequired then (.ok [], s)
      else
        evaluateDefinitions uuidHex engine.registry
          { symbol, timeframe, df, timestamp := lastCandle.timestamp,
            regime := engine.detectRegime df, daily, definitions := engine.registry,
            persisted := [] } s

/-! ## What it persists -/

/-- The rows `new` have been added to the signals: none of them is a `NO_TRADE`, and their ids are
new and differ from each other. -/
structure Persists (s s' : SignalStore) (new : List Signal) : Prop where
  signals : s'.signals = s.signals ++ new
  fires : ∀ x ∈ new, fires x = true
  distinct : UniqueKey Signal.signalId new
  fresh : ∀ x ∈ new, ∀ t ∈ s.signals, t.signalId ≠ x.signalId

theorem Persists.refl (s : SignalStore) : Persists s s [] where
  signals := (List.append_nil _).symm
  fires _ h := by cases h
  distinct := List.nodup_nil
  fresh _ h := by cases h

/-- A signal that is persisted, and then the rest. -/
theorem Persists.cons {s s₁ s₂ : SignalStore} {x : Signal} {new : List Signal}
    (h₁ : Persists s s₁ [x]) (h₂ : Persists s₁ s₂ new) : Persists s s₂ (x :: new) where
  signals := by rw [h₂.signals, h₁.signals, List.append_assoc, List.singleton_append]
  fires := by
    intro y hy
    rcases List.mem_cons.1 hy with rfl | hy
    · exact h₁.fires y (by simp)
    · exact h₂.fires y hy
  distinct := by
    refine List.nodup_cons.2 ⟨fun hx => ?_, h₂.distinct⟩
    obtain ⟨y, hy, hyx⟩ := List.mem_map.1 hx
    exact h₂.fresh y hy x (by simp [h₁.signals]) hyx.symm
  fresh := by
    intro y hy t ht
    rcases List.mem_cons.1 hy with rfl | hy
    · exact h₁.fresh y (by simp) t ht
    · exact h₂.fresh y hy t (by simp [h₁.signals, ht])

/-- A commit adds the signal of its draft, or changes nothing. -/
theorem persistNewSignal_cases (d : Draft) (uuidHex : String) (s : SignalStore)
    (hd : d.result.signalType ≠ .noTrade) :
    persistNewSignal d uuidHex s = (.error .integrityError, s) ∨
      ∃ s', persistNewSignal d uuidHex s = (.ok (d.row uuidHex), s') ∧
        Persists s s' [d.row uuidHex] := by
  by_cases htaken : ∃ t ∈ s.signals, t.signalId = (d.row uuidHex).signalId
  · exact Or.inl (if_pos htaken)
  · refine Or.inr ⟨_, if_neg htaken, rfl, ?_, List.nodup_singleton _, ?_⟩
    · intro x hx
      rw [List.mem_singleton.1 hx]
      exact decide_eq_true hd
    · intro x hx t ht hid
      rw [List.mem_singleton.1 hx] at hid
      exact htaken ⟨t, ht, hid⟩

/-- An evaluation that had persisted `before` adds further signals, and returns them all when it
returns. -/
def PersistsFrom (before : List Signal) (s : SignalStore)
    (r : Except SignalFailure (List Signal) × SignalStore) : Prop :=
  ∃ new, Persists s r.2 new ∧ ∀ signals, r.1 = .ok signals → signals = before ++ new

/-- Nothing is added. -/
theorem PersistsFrom.nothing (before : List Signal) (s : SignalStore) :
    PersistsFrom before s (.ok before, s) := by
  refine ⟨[], .refl s, fun signals h => ?_⟩
  rw [List.append_nil]
  exact (Except.ok.inj h).symm

theorem checkAndPersist_persists (uuidHex : ℕ → String)
    {next : RegistryLoop → SignalStore → Except SignalFailure (List Signal) × SignalStore}
    (hnext : ∀ loop s, PersistsFrom loop.persisted s (next loop s)) (loop : RegistryLoop)
    (result : StrategySignal) (s : SignalStore) :
    PersistsFrom loop.persisted s (checkAndPersist uuidHex next loop result s) := by
  unfold checkAndPersist
  split_ifs with hno
  · exact hnext loop s
  · split
    · exact ⟨[], .refl s, nofun⟩
    · exact hnext loop s
    · rcases persistNewSignal_cases (loop.draft result) (uuidHex loop.persisted.length) s hno
        with h | ⟨s', h, hone⟩
      · rw [h]
        exact ⟨[], .refl s, nofun⟩
      · rw [h]
        obtain ⟨new, hnew, hreturns⟩ := hnext { loop with persisted := loop.persisted ++ [_] } s'
        refine ⟨_ :: new, hone.cons hnew, fun signals h => ?_⟩
        rw [hreturns signals h, List.append_assoc, List.singleton_append]

theorem evaluateDefinitions_persists (uuidHex : ℕ → String)
    (definitions : List StrategyDefinition) (loop : RegistryLoop) (s : SignalStore) :
    PersistsFrom loop.persisted s (evaluateDefinitions uuidHex definitions loop s) := by
  induction definitions generalizing loop s with
  | nil => exact .nothing loop.persisted s
  | cons d rest ih =>
    unfold evaluateDefinitions
    dsimp only
    split
    · exact ih loop s
    · split
      · exact checkAndPersist_persists uuidHex ih loop _ s
      · split
        · exact ih { loop with daily := some _ } s
        · exact checkAndPersist_persists uuidHex ih { loop with daily := some _ } _ s

/-- **The evaluation adds new signals and returns what it has added**; when it raises, those before
stay. -/
theorem evaluateAll_persists (engine : Strategies) (symbol timeframe : String)
    (daily : Option (List Candle)) (uuidHex : ℕ → String) (s : SignalStore) :
    PersistsFrom [] s
      (evaluateAllStrategiesForTimeframe engine symbol timeframe daily uuidHex s) := by
  unfold evaluateAllStrategiesForTimeframe
  dsimp only
  split
  · exact .nothing [] s
  · split
    · exact .nothing [] s
    · split
      · exact .nothing [] s
      · exact evaluateDefinitions_persists uuidHex engine.registry _ s

/-! ## The call that nobody interrupts -/

/-- The loop does not look at the definitions its local variables hold. -/
theorem evaluateDefinitions_definitions (uuidHex : ℕ → String)
    (definitions : List StrategyDefinition) (loop : RegistryLoop)
    (others : List StrategyDefinition) (s : SignalStore) :
    evaluateDefinitions uuidHex definitions { loop with definitions := others } s =
      evaluateDefinitions uuidHex definitions loop s := by
  induction definitions generalizing loop s with
  | nil => rfl
  | cons d rest ih =>
    have hcheck (loop : RegistryLoop) (result : StrategySignal) :
        checkAndPersist uuidHex (evaluateDefinitions uuidHex rest)
            { loop with definitions := others } result s =
          checkAndPersist uuidHex (evaluateDefinitions uuidHex rest) loop result s := by
      simp only [checkAndPersist, RegistryLoop.draft, ih loop]
      split_ifs
      · rfl
      · split
        · rfl
        · rfl
        · split
          · rfl
          · exact ih { loop with persisted := loop.persisted ++ [_] } _
    unfold evaluateDefinitions
    dsimp only
    rw [ih loop]
    split
    · rfl
    · split
      · exact hcheck loop _
      · rw [ih { loop with daily := some _ }, hcheck { loop with daily := some _ }]

section

variable {engine : Strategies} {call : WriterCall} {rest : List StrategyDefinition}

/-- The call reaches its end from a stage, with a result and a store. -/
def Ends (engine : Strategies) (call : WriterCall) (stage : WriterStage) (s : SignalStore)
    (r : Except SignalFailure (List Signal) × SignalStore) : Prop :=
  Reaches (WriterCall.move engine) { call with stage } s { call with stage := .ended r.1 } r.2

/-- A result of a strategy that is checked, committed and followed by the rest of the loop. -/
theorem checking_ends
    (hrest : ∀ loop s, Ends engine call (advance loop rest) s
      (evaluateDefinitions call.uuidHex rest loop s))
    (loop : RegistryLoop) (result : StrategySignal) (s : SignalStore) :
    Ends engine call
      (if result.signalType = .noTrade then advance loop rest
        else .checking (loop.draft result).key (some (loop.draft result))
          (some { loop with definitions := rest })) s
      (checkAndPersist call.uuidHex (evaluateDefinitions call.uuidHex rest) loop result s) := by
  have hrest' (loop : RegistryLoop) (s : SignalStore) :
      Ends engine call (advance { loop with definitions := rest } rest) s
        (evaluateDefinitions call.uuidHex rest loop s) := by
    have h := hrest { loop with definitions := rest } s
    rwa [evaluateDefinitions_definitions] at h
  unfold checkAndPersist
  split_ifs with hno
  · exact hrest loop s
  · cases hcheck : signalAlreadyExistsForCandle (loop.draft result).key s.signals with
    | error e => exact .single (by simp only [WriterCall.move, hcheck, afterCheck])
    | ok known =>
      cases known with
      | true => exact .head (by simp only [WriterCall.move, hcheck, afterCheck]) (hrest' loop s)
      | false =>
        refine .head (by simp only [WriterCall.move, hcheck, afterCheck]; rfl) ?_
        rcases persistNewSignal_cases (loop.draft result) (call.uuidHex loop.persisted.length) s hno
          with h | ⟨s', h, -⟩
        · rw [h]
          exact .single (by simp only [WriterCall.move, persistedCount, h, afterInsert])
        · rw [h]
          exact .head (by simp only [WriterCall.move, persistedCount, h, afterInsert])
            (hrest' { loop with persisted := loop.persisted ++ [_] } s')

/-- A definition of the daily trend, once the daily candles are loaded. -/
theorem daily_ends
    (hrest : ∀ loop s, Ends engine call (advance loop rest) s
      (evaluateDefinitions call.uuidHex rest loop s))
    (d : StrategyDefinition) (loop : RegistryLoop) {daily : List Candle}
    (hdaily : loop.daily = some daily) (s : SignalStore) :
    Ends engine call (advance loop (d :: rest)) s
      (evaluateDefinitions call.uuidHex (d :: rest) loop s) := by
  obtain ⟨symbol, timeframe, df, timestamp, regime, _, definitions, persisted⟩ := loop
  obtain rfl := hdaily
  unfold advance evaluateDefinitions
  dsimp only
  split
  · exact hrest _ s
  · cases d.strategy with
    | single generate => exact checking_ends hrest _ _ s
    | mtfTrend generateWithDaily =>
      dsimp only [Option.getD_some]
      split
      · exact hrest _ s
      · exact checking_ends hrest _ _ s

/-- The loop over the registry, alone. -/
theorem advance_ends (definitions : List StrategyDefinition) (loop : RegistryLoop)
    (s : SignalStore) : Ends engine call (advance loop definitions) s
      (evaluateDefinitions call.uuidHex definitions loop s) := by
  induction definitions generalizing loop s with
  | nil => exact .refl
  | cons d rest ih =>
    cases hdaily : loop.daily with
    | some daily => exact daily_ends ih d loop hdaily s
    | none =>
      unfold advance evaluateDefinitions
      dsimp only
      split
      · exact ih loop s
      · next hskip =>
        cases hd : d.strategy with
        | single generate => exact checking_ends ih loop _ s
        | mtfTrend generateWithDaily =>
          -- the daily candles are loaded, and the definition is looked at again
          let daily := loadRecentCandles s.candles loop.symbol "1d" defaultLookbackBars
          have h := daily_ends ih d { loop with definitions := d :: rest, daily := some daily } rfl s
          rw [evaluateDefinitions_definitions call.uuidHex (d :: rest)
            { loop with daily := some daily } (d :: rest), evaluateDefinitions] at h
          simp only [hskip, if_false, hd, Option.getD_some] at h
          simp only [hdaily, Option.getD_none]
          exact .head rfl h

/-- **A call that nobody interrupts comes to what the evaluation computes.** -/
theorem evaluateAll_alone {symbol timeframe : String} {daily : Option (List Candle)}
    (hwriter : call.writer = .evaluateAllStrategies symbol timeframe daily) (s : SignalStore) :
    Ends engine call .start s
      (evaluateAllStrategiesForTimeframe engine symbol timeframe daily call.uuidHex s) := by
  by_cases hpaused : isSignalGenerationPaused s = true
  · rw [evaluateAllStrategiesForTimeframe, if_pos hpaused]
    exact .single (by simp only [WriterCall.move, hwriter, begin, if_pos hpaused])
  · rw [evaluateAllStrategiesForTimeframe, if_neg hpaused]
    let df := loadRecentCandles s.candles symbol timeframe defaultLookbackBars
    have hstart : WriterCall.move engine { call with stage := .start } s =
        (s, { call with stage := .unpaused }) := by
      simp only [WriterCall.move, hwriter, begin, if_neg hpaused]
    have hload : WriterCall.move engine { call with stage := .unpaused } s =
        (s, { call with stage := afterLoadAll engine symbol timeframe daily df }) := by
      simp only [WriterCall.move, hwriter, loadAndEvaluate, df]
    refine .head hstart (.head hload ?_)
    unfold afterLoadAll
    cases hlast : df.getLast? with
    | none =>
      simp only [df] at hlast
      simp only [hlast]
      exact .refl
    | some lastCandle =>
      simp only [df] at hlast ⊢
      simp only [hlast]
      split
      · exact .refl
      · exact advance_ends engine.registry _ s

end

end AlphaOne.SignalEngine
