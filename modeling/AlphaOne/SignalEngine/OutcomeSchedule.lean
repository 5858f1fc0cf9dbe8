import AlphaOne.Foundations.Run
import AlphaOne.Foundations.Table
import AlphaOne.SignalEngine.OutcomeEvaluator

/-!
# When outcomes are evaluated

`evaluate_pending_signal_outcomes` of `services/signal_engine/outcome_evaluator.py` resolves the
pending outcomes of a symbol against the candles stored so far, and commits them together. Over
candles that are only ever appended, a signal that is resolved early is resolved to the same
outcome later, so that it does not matter how often and when the evaluation runs, as long as it
returns. A signal whose entry price is zero makes it raise once a level is touched, and then no
outcome is committed.

`schedule_independent` is this statement for all schedules.
-/

namespace AlphaOne.SignalEngine

open Foundations

/-- `SignalOutcomeType`. -/
inductive OutcomeStatus
  | pending
  | noTrade
  | resolved (outcome : ResolvedOutcome)
  deriving DecidableEq, Repr

/-- A row of `signal_outcomes`. -/
structure OutcomeRow where
  signalId : String
  outcome : OutcomeStatus := .pending
  hypotheticalEntryPrice : Option ℚ := none
  hypotheticalExitPrice : Option ℚ := none
  hypotheticalPnlPct : Option ℚ := none
  evaluatedAt : Option Datetime := none
  deriving DecidableEq, Repr

/-- The tables of the evaluation. -/
structure OutcomeStore where
  candles : List Candle := []
  signals : List Signal := []
  outcomes : List OutcomeRow := []
  deriving DecidableEq, Repr

/-- The row of a signal that has just been persisted. -/
def OutcomeRow.initial (signal : Signal) : OutcomeRow :=
  { signalId := signal.signalId
    outcome := if signal.signalType = .noTrade then .noTrade else .pending
    hypotheticalEntryPrice := signal.entryPrice }

/-- The row of a signal that has been resolved. -/
def OutcomeRow.resolve (o : OutcomeRow) (signal : Signal) (r : Resolution) : OutcomeRow :=
  { o with
    outcome := .resolved r.outcome
    hypotheticalEntryPrice := signal.entryPrice
    hypotheticalExitPrice := r.exitPrice
    hypotheticalPnlPct := r.pnlPct
    evaluatedAt := some r.evaluatedAt }

namespace OutcomeStore

variable (symbol timeframe : String) (maxHorizonBars : ℕ)

/-- The signal an outcome is selected with: the outcome is pending, and the signal, of which the id
is unique, is one of the symbol. -/
def pendingSignal? (s : OutcomeStore) (o : OutcomeRow) : Option Signal :=
  if o.outcome = .pending then
    (s.signals.find? fun signal => signal.signalId = o.signalId).filter fun signal =>
      signal.symbol = symbol
  else none

/-- What an evaluation makes of a row. -/
def evaluateOutcome (s : OutcomeStore) (o : OutcomeRow) : Except ResolveError OutcomeRow :=
  match s.pendingSignal? symbol o with
  | none => .ok o
  | some signal =>
    let candles := candlesAfter s.candles symbol timeframe signal.timestamp maxHorizonBars
    match SignalEngine.resolve signal candles maxHorizonBars with
    | .error e => .error e
    | .ok none => .ok o
    | .ok (some r) => .ok (o.resolve signal r)

/-- `evaluate_pending_signal_outcomes`: the number of outcomes it has updated. When it raises,
nothing is committed. -/
def evaluatePendingSignalOutcomes (s : OutcomeStore) : Except ResolveError ℕ × OutcomeStore :=
  match s.outcomes.mapM (s.evaluateOutcome symbol timeframe maxHorizonBars) with
  | .error e => (.error e, s)
  | .ok outcomes =>
    let isPending (o : OutcomeRow) : Bool := o.outcome = .pending
    (.ok (s.outcomes.countP isPending - outcomes.countP isPending), { s with outcomes })

/-- What happens to the tables. -/
inductive Event
  | storeCandles (candles : List Candle)
  /-- A writer persists a signal, with its outcome. -/
  | persistSignal (signal : Signal)
  | evaluate
  deriving DecidableEq, Repr

def step (s : OutcomeStore) : Event → OutcomeStore
  | .storeCandles candles => { s with candles := s.candles ++ candles }
  | .persistSignal signal =>
    if ∃ t ∈ s.signals, t.signalId = signal.signalId then s
    else
      { s with
        signals := s.signals ++ [signal]
        outcomes := s.outcomes ++ [.initial signal] }
  | .evaluate => (s.evaluatePendingSignalOutcomes symbol timeframe maxHorizonBars).2

/-- A candle the query can select. -/
def IsRelevant (c : Candle) : Prop :=
  c.symbol = symbol ∧ c.timeframe = timeframe ∧ c.qualityStatus = .valid

instance (c : Candle) : Decidable (IsRelevant symbol timeframe c) := by
  unfold IsRelevant; infer_instance

/-- The candles of the market have been appended in the order of time. -/
def AppendOnly (candles : List Candle) : Prop :=
  (candles.filter fun c => IsRelevant symbol timeframe c).Pairwise fun a b =>
    a.timestamp < b.timestamp

instance (candles : List Candle) : Decidable (AppendOnly symbol timeframe candles) := by
  unfold AppendOnly; infer_instance

/-- A signal whose entry price is zero has not touched a level within its horizon. -/
def Divides (s : OutcomeStore) : Prop :=
  ∀ o ∈ s.outcomes, ∀ signal ∈ s.pendingSignal? symbol o, signal.entryPrice = some 0 →
    ∀ stopLoss ∈ signal.stopLoss, ∀ takeProfit ∈ signal.takeProfit1,
      ∀ c ∈ candlesAfter s.candles symbol timeframe signal.timestamp maxHorizonBars,
        decides signal.signalType stopLoss takeProfit c = none

instance (s : OutcomeStore) : Decidable (s.Divides symbol timeframe maxHorizonBars) := by
  unfold Divides; infer_instance

/-! ## More candles -/

/-- What the loop decides on some candles it decides on more of them. -/
theorem resolveLoop_append (signalType : SignalType) (entryPrice stopLoss takeProfit : ℚ)
    (xs ys : List Candle) :
    resolveLoop signalType entryPrice stopLoss takeProfit xs = .ok none ∨
      resolveLoop signalType entryPrice stopLoss takeProfit xs =
        resolveLoop signalType entryPrice stopLoss takeProfit (xs ++ ys) := by
  induction xs with
  | nil => exact .inl rfl
  | cons c xs ih =>
    rw [List.cons_append, resolveLoop, resolveLoop]
    by_cases hstop : hitStop signalType stopLoss c
    · rw [if_pos hstop, if_pos hstop]
      exact .inr rfl
    · rw [if_neg hstop, if_neg hstop]
      by_cases htarget : hitTarget signalType takeProfit c
      · rw [if_pos htarget, if_pos htarget]
        exact .inr rfl
      · rw [if_neg htarget, if_neg htarget]
        exact ih

/-- **A signal that is decided is decided for good**: more candles change neither its resolution
nor the error it raises. -/
theorem resolve_append (signal : Signal) {maxHorizonBars : ℕ} (hpos : 1 ≤ maxHorizonBars)
    (xs ys : List Candle) :
    SignalEngine.resolve signal xs maxHorizonBars = .ok none ∨
      SignalEngine.resolve signal xs maxHorizonBars =
        SignalEngine.resolve signal (xs ++ ys) maxHorizonBars := by
  unfold SignalEngine.resolve
  split
  · next entryPrice stopLoss takeProfit _ _ _ =>
    by_cases hfull : maxHorizonBars ≤ xs.length
    · -- the horizon is reached, and nothing behind it is looked at
      have htake : (xs ++ ys).take maxHorizonBars = xs.take maxHorizonBars :=
        List.take_append_of_le_length hfull
      have hlast : lastOfHorizon (xs ++ ys) maxHorizonBars = lastOfHorizon xs maxHorizonBars := by
        rw [lastOfHorizon, lastOfHorizon, if_neg (by omega), if_neg (by omega),
          List.getElem?_append_left (by omega)]
      have hlen : maxHorizonBars ≤ (xs ++ ys).length := by
        rw [List.length_append]
        omega
      rw [htake, hlast]
      simp only [if_pos hfull, if_pos hlen, or_true]
    · have htake : (xs ++ ys).take maxHorizonBars =
          xs.take maxHorizonBars ++ ys.take (maxHorizonBars - xs.length) := List.take_append
      rw [htake]
      rcases resolveLoop_append signal.signalType entryPrice stopLoss takeProfit
        (xs.take maxHorizonBars) (ys.take (maxHorizonBars - xs.length)) with hnone | hsame
      · rw [hnone]
        exact .inl (if_neg hfull)
      · rw [← hsame]
        cases hloop : resolveLoop signal.signalType entryPrice stopLoss takeProfit
            (xs.take maxHorizonBars) with
        | error e => exact .inr rfl
        | ok resolved =>
          cases resolved with
          | none => exact .inl (if_neg hfull)
          | some r => exact .inr rfl
  · exact .inl rfl

variable {symbol timeframe maxHorizonBars} {s t u : OutcomeStore}

/-- The query over candles that were appended finds the first of them, in their order. -/
theorem candlesAfter_of_appendOnly {candles : List Candle}
    (h : AppendOnly symbol timeframe candles) (after : Datetime) (limit : ℕ) :
    candlesAfter candles symbol timeframe after limit =
      (candles.filter fun c => c.symbol = symbol ∧ c.timeframe = timeframe ∧
        after < c.timestamp ∧ c.qualityStatus = .valid).take limit := by
  have hsub : (candles.filter fun c => c.symbol = symbol ∧ c.timeframe = timeframe ∧
      after < c.timestamp ∧ c.qualityStatus = .valid).Sublist
      (candles.filter fun c => IsRelevant symbol timeframe c) := by
    refine List.monotone_filter_right candles fun c hc => ?_
    simp only [decide_eq_true_eq] at hc ⊢
    exact ⟨hc.1, hc.2.1, hc.2.2.2⟩
  have hsorted : (candles.filter fun c => c.symbol = symbol ∧ c.timeframe = timeframe ∧
      after < c.timestamp ∧ c.qualityStatus = .valid).Pairwise fun a b =>
        a.timestamp ≤ b.timestamp := (List.Pairwise.sublist hsub h).imp le_of_lt
  rw [candlesAfter, hsorted.insertionSort_eq]

theorem AppendOnly.left {xs ys : List Candle} (h : AppendOnly symbol timeframe (xs ++ ys)) :
    AppendOnly symbol timeframe xs := by
  unfold AppendOnly at h
  rw [List.filter_append] at h
  exact (List.pairwise_append.1 h).1

/-- More candles extend what the query finds. -/
theorem candlesAfter_append {xs ys : List Candle} (h : AppendOnly symbol timeframe (xs ++ ys))
    (after : Datetime) (limit : ℕ) :
    ∃ more, candlesAfter (xs ++ ys) symbol timeframe after limit =
      candlesAfter xs symbol timeframe after limit ++ more := by
  rw [candlesAfter_of_appendOnly h, candlesAfter_of_appendOnly h.left, List.filter_append,
    List.take_append]
  exact ⟨_, rfl⟩

/-- A later state of the tables. -/
structure Grows (s u : OutcomeStore) : Prop where
  candles : ∃ more, u.candles = s.candles ++ more
  signals : ∃ more, u.signals = s.signals ++ more

theorem Grows.pendingSignal? (h : Grows s u) {o : OutcomeRow} {signal : Signal}
    (hs : s.pendingSignal? symbol o = some signal) :
    u.pendingSignal? symbol o = some signal := by
  obtain ⟨more, hmore⟩ := h.signals
  unfold OutcomeStore.pendingSignal? at hs ⊢
  split_ifs at hs ⊢ with hpending
  obtain ⟨hfind, hsymbol⟩ := Option.filter_eq_some_iff.1 hs
  rw [hmore, List.find?_append, hfind, Option.some_or]
  exact Option.filter_eq_some_iff.2 ⟨rfl, hsymbol⟩

/-- **An outcome that is evaluated early is evaluated as later**, or left as it is. -/
theorem evaluateOutcome_grows (hpos : 1 ≤ maxHorizonBars) (h : Grows s u)
    (happend : AppendOnly symbol timeframe u.candles) (o : OutcomeRow) :
    s.evaluateOutcome symbol timeframe maxHorizonBars o = .ok o ∨
      s.evaluateOutcome symbol timeframe maxHorizonBars o =
        u.evaluateOutcome symbol timeframe maxHorizonBars o := by
  unfold evaluateOutcome
  cases hs : s.pendingSignal? symbol o with
  | none => exact .inl rfl
  | some signal =>
    obtain ⟨more, hmore⟩ := h.candles
    obtain ⟨later, hlater⟩ :=
      candlesAfter_append (hmore ▸ happend) signal.timestamp maxHorizonBars
    rw [h.pendingSignal? hs]
    dsimp only
    rw [hmore, hlater]
    rcases resolve_append signal hpos
      (candlesAfter s.candles symbol timeframe signal.timestamp maxHorizonBars) later with
      hnone | hsame
    · rw [hnone]
      exact .inl rfl
    · rw [← hsame]
      exact .inr rfl

/-! ## An evaluation that returns -/

/-- With an entry price of zero the loop raises on the first candle that decides. -/
theorem resolveLoop_zero (signalType : SignalType) (stopLoss takeProfit : ℚ) (xs : List Candle) :
    resolveLoop signalType 0 stopLoss takeProfit xs =
      if ∀ c ∈ xs, decides signalType stopLoss takeProfit c = none then .ok none
      else .error .zeroDivisionError := by
  induction xs with
  | nil => simp [resolveLoop]
  | cons c xs ih =>
    rw [resolveLoop, ih]
    simp only [List.forall_mem_cons]
    by_cases hstop : hitStop signalType stopLoss c
    · have hdecides : decides signalType stopLoss takeProfit c = some .loss := if_pos hstop
      rw [if_pos hstop, if_neg (by simp [hdecides])]
      simp [SignalEngine.resolution, pnlPct]
    · by_cases htarget : hitTarget signalType takeProfit c
      · have hdecides : decides signalType stopLoss takeProfit c = some .win := by
          rw [decides, if_neg hstop, if_pos htarget]
        rw [if_neg hstop, if_pos htarget, if_neg (by simp [hdecides])]
        simp [SignalEngine.resolution, pnlPct]
      · have hdecides : decides signalType stopLoss takeProfit c = none := by
          rw [decides, if_neg hstop, if_neg htarget]
        simp [hstop, htarget, hdecides]

/-- A signal that no candle of its horizon decides is resolved without an error. -/
theorem resolve_of_undecided (signal : Signal) {entryPrice stopLoss takeProfit : ℚ}
    (hentry : signal.entryPrice = some entryPrice) (hstop : signal.stopLoss = some stopLoss)
    (htarget : signal.takeProfit1 = some takeProfit) (hpos : 1 ≤ maxHorizonBars) {xs : List Candle}
    (hnone : resolveLoop signal.signalType entryPrice stopLoss takeProfit
      (xs.take maxHorizonBars) = .ok none) :
    ∃ r, SignalEngine.resolve signal xs maxHorizonBars = .ok r := by
  unfold SignalEngine.resolve
  rw [hentry, hstop, htarget]
  dsimp only
  rw [hnone]
  by_cases hfull : maxHorizonBars ≤ xs.length
  · obtain ⟨last, hlast⟩ : ∃ last, lastOfHorizon xs maxHorizonBars = some last := by
      rw [lastOfHorizon, if_neg (by omega), List.getElem?_eq_getElem (by omega)]
      exact ⟨_, rfl⟩
    refine ⟨some ⟨.expired, none, none, last.timestamp⟩, ?_⟩
    change (if _ then _ else _) = _
    rw [if_pos hfull, hlast]
    rfl
  · exact ⟨none, if_neg hfull⟩

/-- `_resolve` divides by the entry price of a decided signal, and by nothing else. -/
theorem resolve_returns_iff (signal : Signal) (hpos : 1 ≤ maxHorizonBars) {xs : List Candle}
    (hlen : xs.length ≤ maxHorizonBars) :
    (∃ r, SignalEngine.resolve signal xs maxHorizonBars = .ok r) ↔
      (signal.entryPrice = some 0 → ∀ stopLoss ∈ signal.stopLoss,
        ∀ takeProfit ∈ signal.takeProfit1, ∀ c ∈ xs,
          decides signal.signalType stopLoss takeProfit c = none) := by
  cases hentry : signal.entryPrice with
  | none => simp [SignalEngine.resolve, hentry, pure, Except.pure]
  | some entryPrice =>
    cases hstop : signal.stopLoss with
    | none => simp [SignalEngine.resolve, hentry, hstop, pure, Except.pure]
    | some stopLoss =>
      cases htarget : signal.takeProfit1 with
      | none => simp [SignalEngine.resolve, hentry, hstop, htarget, pure, Except.pure]
      | some takeProfit =>
        by_cases hzero : entryPrice = 0
        · subst hzero
          have hloop := resolveLoop_zero signal.signalType stopLoss takeProfit xs
          have htake : xs.take maxHorizonBars = xs := List.take_of_length_le hlen
          by_cases hnone : ∀ c ∈ xs, decides signal.signalType stopLoss takeProfit c = none
          · rw [if_pos hnone, ← htake] at hloop
            exact iff_of_true (resolve_of_undecided signal hentry hstop htarget hpos hloop)
              (by simpa using hnone)
          · rw [if_neg hnone] at hloop
            refine iff_of_false ?_ (by simpa using hnone)
            rintro ⟨r, hr⟩
            rw [SignalEngine.resolve, hentry, hstop, htarget, htake] at hr
            dsimp only at hr
            rw [hloop] at hr
            cases hr
        · obtain ⟨r, hr, -⟩ := resolve_decided signal xs hzero hentry hstop htarget hpos
          exact iff_of_true ⟨r, hr⟩ (by simp [hzero])

theorem length_candlesAfter_le (candles : List Candle) (symbol timeframe : String)
    (after : Datetime) (limit : ℕ) :
    (candlesAfter candles symbol timeframe after limit).length ≤ limit :=
  List.length_take_le ..

/-- The condition is that no row makes the evaluation raise. -/
theorem divides_iff (hpos : 1 ≤ maxHorizonBars) (s : OutcomeStore) :
    s.Divides symbol timeframe maxHorizonBars ↔ ∀ o ∈ s.outcomes,
      ∃ o', s.evaluateOutcome symbol timeframe maxHorizonBars o = .ok o' := by
  refine forall₂_congr fun o _ => ?_
  unfold evaluateOutcome
  cases hs : s.pendingSignal? symbol o with
  | none => simp
  | some signal =>
    have hreturns := resolve_returns_iff signal hpos
      (length_candlesAfter_le s.candles symbol timeframe signal.timestamp maxHorizonBars)
    simp only [Option.mem_def, Option.some.injEq, forall_eq'] at hreturns ⊢
    rw [← hreturns]
    constructor
    · rintro ⟨r, hr⟩
      rw [hr]
      cases r with
      | none => exact ⟨_, rfl⟩
      | some r => exact ⟨_, rfl⟩
    · rintro ⟨o', ho'⟩
      cases hr : SignalEngine.resolve signal
          (candlesAfter s.candles symbol timeframe signal.timestamp maxHorizonBars)
          maxHorizonBars with
      | ok r => exact ⟨r, rfl⟩
      | error e =>
        rw [hr] at ho'
        cases ho'

/-- A list is mapped when all its entries are. -/
theorem mapM_ok_iff {α β ε : Type} {f : α → Except ε β} {xs : List α} {ys : List β} :
    xs.mapM f = .ok ys ↔ List.Forall₂ (fun x y => f x = .ok y) xs ys := by
  induction xs generalizing ys with
  | nil => simp [pure, Except.pure, eq_comm]
  | cons x xs ih =>
    rw [List.mapM_cons, List.forall₂_cons_left_iff]
    cases hx : f x with
    | error e => simp [bind, Except.bind]
    | ok y =>
      cases hxs : xs.mapM f with
      | error e =>
        simp only [bind, Except.bind, reduceCtorEq, false_iff, not_exists, not_and]
        rintro y' ys' - htail
        rw [← ih, hxs] at htail
        cases htail
      | ok ys' =>
        simp only [bind, Except.bind, pure, Except.pure, Except.ok.injEq, exists_and_left,
          exists_eq_left']
        constructor
        · rintro rfl
          exact ⟨ys', ih.1 hxs, rfl⟩
        · rintro ⟨zs, hzs, rfl⟩
          rw [← ih, hxs] at hzs
          rw [Except.ok.inj hzs]

theorem mapM_returns_iff {α β ε : Type} {f : α → Except ε β} {xs : List α} :
    (∃ ys, xs.mapM f = .ok ys) ↔ ∀ x ∈ xs, ∃ y, f x = .ok y := by
  simp only [mapM_ok_iff]
  induction xs with
  | nil => simp
  | cons x xs ih => simp [List.forall₂_cons_left_iff, ← ih]

/-- **The evaluation returns** if and only if it divides by no zero. -/
theorem evaluate_returns_iff (hpos : 1 ≤ maxHorizonBars) (s : OutcomeStore) :
    (∃ n, (s.evaluatePendingSignalOutcomes symbol timeframe maxHorizonBars).1 = .ok n) ↔
      s.Divides symbol timeframe maxHorizonBars := by
  rw [divides_iff hpos, ← mapM_returns_iff]
  unfold evaluatePendingSignalOutcomes
  cases s.outcomes.mapM (s.evaluateOutcome symbol timeframe maxHorizonBars) with
  | ok outcomes => simp
  | error e => simp

/-- An evaluation changes the outcomes only, each by its own evaluation or not at all. -/
theorem evaluate_cases (s : OutcomeStore) :
    let s' := (s.evaluatePendingSignalOutcomes symbol timeframe maxHorizonBars).2
    s'.candles = s.candles ∧ s'.signals = s.signals ∧ (s'.outcomes = s.outcomes ∨
      List.Forall₂ (fun o o' => s.evaluateOutcome symbol timeframe maxHorizonBars o = .ok o')
        s.outcomes s'.outcomes) := by
  unfold evaluatePendingSignalOutcomes
  cases hmap : s.outcomes.mapM (s.evaluateOutcome symbol timeframe maxHorizonBars) with
  | ok outcomes => exact ⟨rfl, rfl, .inr (mapM_ok_iff.1 hmap)⟩
  | error e => exact ⟨rfl, rfl, .inl rfl⟩

/-! ## Schedules -/

/-- A row is ahead of another when it is the same, or what its evaluation makes of the other. -/
def RowAhead (symbol timeframe : String) (maxHorizonBars : ℕ) (u : OutcomeStore)
    (o p : OutcomeRow) : Prop :=
  o = p ∨ o.outcome ≠ .pending ∧ u.evaluateOutcome symbol timeframe maxHorizonBars p = .ok o

/-- The tables of a schedule are ahead of those of the schedule without its evaluations. -/
structure Ahead (symbol timeframe : String) (maxHorizonBars : ℕ) (t u : OutcomeStore) : Prop where
  candles : t.candles = u.candles
  signals : t.signals = u.signals
  outcomes : List.Forall₂ (RowAhead symbol timeframe maxHorizonBars u) t.outcomes u.outcomes

/-- An outcome that is not pending stays as it is. -/
theorem evaluateOutcome_of_resolved {o : OutcomeRow} (h : o.outcome ≠ .pending) :
    s.evaluateOutcome symbol timeframe maxHorizonBars o = .ok o := by
  rw [evaluateOutcome, OutcomeStore.pendingSignal?, if_neg h]

/-- An outcome that is still pending after its evaluation has not been changed by it. -/
theorem evaluateOutcome_pending {o o' : OutcomeRow}
    (h : s.evaluateOutcome symbol timeframe maxHorizonBars o = .ok o') :
    o' = o ∨ o'.outcome ≠ .pending := by
  unfold evaluateOutcome at h
  split at h
  · exact .inl (Except.ok.inj h).symm
  · dsimp only at h
    split at h
    · cases h
    · exact .inl (Except.ok.inj h).symm
    · obtain rfl := Except.ok.inj h
      exact .inr nofun

/-- Rows stay ahead as the tables grow. -/
theorem RowAhead.grows (hpos : 1 ≤ maxHorizonBars) (h : Grows s u)
    (happend : AppendOnly symbol timeframe u.candles) {o p : OutcomeRow}
    (ho : RowAhead symbol timeframe maxHorizonBars s o p) :
    RowAhead symbol timeframe maxHorizonBars u o p := by
  rcases ho with rfl | ⟨hresolved, heval⟩
  · exact .inl rfl
  · rcases evaluateOutcome_grows hpos h happend p with hnone | hsame
    · exact .inl (Except.ok.inj (heval.symm.trans hnone))
    · exact .inr ⟨hresolved, hsame ▸ heval⟩

/-- Tables of the same candles and signals evaluate a row alike. -/
theorem Ahead.evaluateOutcome_eq (h : Ahead symbol timeframe maxHorizonBars t u) (o : OutcomeRow) :
    t.evaluateOutcome symbol timeframe maxHorizonBars o =
      u.evaluateOutcome symbol timeframe maxHorizonBars o := by
  unfold evaluateOutcome OutcomeStore.pendingSignal?
  rw [h.candles, h.signals]

/-- An evaluation takes the tables further ahead. -/
theorem Ahead.evaluate (h : Ahead symbol timeframe maxHorizonBars t u) :
    Ahead symbol timeframe maxHorizonBars
      (t.evaluatePendingSignalOutcomes symbol timeframe maxHorizonBars).2 u := by
  obtain ⟨hcandles, hsignals, houtcomes⟩ := t.evaluate_cases
  refine ⟨hcandles.trans h.candles, hsignals.trans h.signals, ?_⟩
  rcases houtcomes with hsame | hrows
  · rw [hsame]
    exact h.outcomes
  · refine forall₂_meet (fun o o' p heval hahead => ?_) hrows h.outcomes
    rcases hahead with rfl | ⟨hresolved, hp⟩
    · rcases evaluateOutcome_pending heval with rfl | hresolved
      · exact .inl rfl
      · rw [h.evaluateOutcome_eq] at heval
        exact .inr ⟨hresolved, heval⟩
    · rw [evaluateOutcome_of_resolved hresolved] at heval
      obtain rfl := Except.ok.inj heval
      exact .inr ⟨hresolved, hp⟩

theorem step_grows (s : OutcomeStore) (e : Event) :
    Grows s (s.step symbol timeframe maxHorizonBars e) := by
  cases e with
  | storeCandles candles => exact ⟨⟨candles, rfl⟩, ⟨[], (List.append_nil _).symm⟩⟩
  | persistSignal signal =>
    unfold step
    dsimp only
    split_ifs
    · exact ⟨⟨[], (List.append_nil _).symm⟩, ⟨[], (List.append_nil _).symm⟩⟩
    · exact ⟨⟨[], (List.append_nil _).symm⟩, ⟨[signal], rfl⟩⟩
  | evaluate =>
    obtain ⟨hcandles, hsignals, -⟩ := s.evaluate_cases
    exact ⟨⟨[], hcandles.trans (List.append_nil _).symm⟩,
      ⟨[], hsignals.trans (List.append_nil _).symm⟩⟩

theorem run_grows (s : OutcomeStore) (events : List Event) :
    ∃ more, (run (step symbol timeframe maxHorizonBars) s events).candles = s.candles ++ more := by
  induction events generalizing s with
  | nil => exact ⟨[], (List.append_nil _).symm⟩
  | cons e events ih =>
    obtain ⟨first, hfirst⟩ := (s.step_grows e).candles
    obtain ⟨rest, hrest⟩ := ih (s.step symbol timeframe maxHorizonBars e)
    exact ⟨first ++ rest, by rw [run_cons, hrest, hfirst, List.append_assoc]⟩

/-- A schedule without its evaluations. -/
def silent (events : List Event) : List Event := events.filter (· ≠ .evaluate)

/-- An event that is no evaluation keeps the one ahead of the other. -/
theorem Ahead.both (hpos : 1 ≤ maxHorizonBars) (h : Ahead symbol timeframe maxHorizonBars t u)
    {e : Event} (he : e ≠ .evaluate)
    (happend : AppendOnly symbol timeframe (u.step symbol timeframe maxHorizonBars e).candles) :
    Ahead symbol timeframe maxHorizonBars (t.step symbol timeframe maxHorizonBars e)
      (u.step symbol timeframe maxHorizonBars e) := by
  have hrows := h.outcomes.imp fun o p ho => ho.grows hpos (u.step_grows e) happend
  cases e with
  | storeCandles candles => exact ⟨congrArg (· ++ candles) h.candles, h.signals, hrows⟩
  | persistSignal signal =>
    unfold OutcomeStore.step at hrows ⊢
    dsimp only at hrows ⊢
    rw [h.signals]
    split_ifs at hrows ⊢ with hexists
    · exact ⟨h.candles, h.signals, hrows⟩
    · exact ⟨h.candles, rfl, List.rel_append hrows (.cons (.inl rfl) .nil)⟩
  | evaluate => exact absurd rfl he

/-- **A schedule is ahead of itself without its evaluations.** -/
theorem Ahead.schedule (hpos : 1 ≤ maxHorizonBars) (h : Ahead symbol timeframe maxHorizonBars t u)
    (events : List Event) (happend : AppendOnly symbol timeframe
      (run (step symbol timeframe maxHorizonBars) u (silent events)).candles) :
    Ahead symbol timeframe maxHorizonBars
      (run (step symbol timeframe maxHorizonBars) t events)
      (run (step symbol timeframe maxHorizonBars) u (silent events)) := by
  induction events generalizing t u with
  | nil => exact h
  | cons e events ih =>
    by_cases he : e = .evaluate
    · subst he
      exact ih h.evaluate happend
    · have hsilent : silent (e :: events) = e :: silent events := by simp [silent, he]
      rw [hsilent] at happend ⊢
      refine ih (h.both hpos he ?_) happend
      obtain ⟨more, hmore⟩ := (u.step symbol timeframe maxHorizonBars e).run_grows (silent events)
      rw [run_cons, hmore] at happend
      exact happend.left

/-- An evaluation of tables that are ahead leaves what that of the others leaves. -/
theorem Ahead.evaluate_eq (hpos : 1 ≤ maxHorizonBars)
    (h : Ahead symbol timeframe maxHorizonBars t u)
    (hdivides : u.Divides symbol timeframe maxHorizonBars) :
    (t.evaluatePendingSignalOutcomes symbol timeframe maxHorizonBars).2 =
      (u.evaluatePendingSignalOutcomes symbol timeframe maxHorizonBars).2 := by
  obtain ⟨outcomes, hu⟩ := mapM_returns_iff.2 ((divides_iff hpos u).1 hdivides)
  -- each row of the one is evaluated to the result of its counterpart
  have ht : t.outcomes.mapM (t.evaluateOutcome symbol timeframe maxHorizonBars) = .ok outcomes := by
    have hback : List.Forall₂ (fun p o => RowAhead symbol timeframe maxHorizonBars u o p)
        u.outcomes t.outcomes := h.outcomes.flip
    refine mapM_ok_iff.2 (forall₂_meet (fun p o p' ho hp => ?_) hback (mapM_ok_iff.1 hu))
    rcases ho with rfl | ⟨hresolved, heval⟩
    · exact (h.evaluateOutcome_eq _).trans hp
    · rw [evaluateOutcome_of_resolved hresolved, ← heval, hp]
  unfold evaluatePendingSignalOutcomes
  rw [ht, hu]
  dsimp only
  rw [h.candles, h.signals]

/-- An evaluation leaves the outcomes that are not pending as they are. -/
theorem evaluate_keeps {i : ℕ} {o : OutcomeRow} (ho : s.outcomes[i]? = some o)
    (hresolved : o.outcome ≠ .pending) :
    (s.evaluatePendingSignalOutcomes symbol timeframe maxHorizonBars).2.outcomes[i]? = some o := by
  obtain ⟨-, -, hsame | hrows⟩ := s.evaluate_cases
  · rw [hsame]
    exact ho
  · obtain ⟨hi, rfl⟩ := List.getElem?_eq_some_iff.1 ho
    have heval := hrows.get hi (hrows.length_eq ▸ hi)
    rw [List.get_eq_getElem, evaluateOutcome_of_resolved hresolved] at heval
    exact List.getElem?_eq_some_iff.2 ⟨hrows.length_eq ▸ hi, (Except.ok.inj heval).symm⟩

theorem RowAhead.refl_all (u : OutcomeStore) (rows : List OutcomeRow) :
    List.Forall₂ (RowAhead symbol timeframe maxHorizonBars u) rows rows :=
  List.forall₂_same.2 fun _ _ => .inl rfl

/-- A schedule of evaluations ends as a single evaluation at its end. -/
theorem run_evaluate_eq (hpos : 1 ≤ maxHorizonBars) (s : OutcomeStore) (events : List Event)
    (happend : AppendOnly symbol timeframe
      (run (step symbol timeframe maxHorizonBars) s (silent events)).candles)
    (hdivides : (run (step symbol timeframe maxHorizonBars) s (silent events)).Divides symbol
      timeframe maxHorizonBars) :
    run (step symbol timeframe maxHorizonBars) s (events ++ [.evaluate]) =
      run (step symbol timeframe maxHorizonBars) s (silent events ++ [.evaluate]) := by
  have hahead : Ahead symbol timeframe maxHorizonBars s s := ⟨rfl, rfl, RowAhead.refl_all s _⟩
  rw [run_append, run_append]
  exact (hahead.schedule hpos events happend).evaluate_eq hpos hdivides

/-- **It does not matter when outcomes are evaluated**, as long as no entry price of zero is divided
by: what an evaluation resolves over the first candles of a history it resolves in the same way over
more of them, and a schedule of evaluations ends as a single one at its end. -/
theorem schedule_independent (symbol timeframe : String) (maxHorizonBars : ℕ)
    (hpos : 1 ≤ maxHorizonBars) (s : OutcomeStore) :
    (∀ more, let later : OutcomeStore := { s with candles := s.candles ++ more }
      AppendOnly symbol timeframe later.candles → later.Divides symbol timeframe maxHorizonBars →
      ∀ (i : ℕ) (o : OutcomeRow),
        (s.evaluatePendingSignalOutcomes symbol timeframe maxHorizonBars).2.outcomes[i]? = some o →
        o.outcome ≠ .pending →
        (later.evaluatePendingSignalOutcomes symbol timeframe maxHorizonBars).2.outcomes[i]? =
          some o) ∧
    ∀ events, let once := run (step symbol timeframe maxHorizonBars) s (silent events)
      AppendOnly symbol timeframe once.candles → once.Divides symbol timeframe maxHorizonBars →
      run (step symbol timeframe maxHorizonBars) s (events ++ [.evaluate]) =
        run (step symbol timeframe maxHorizonBars) s (silent events ++ [.evaluate]) := by
  constructor
  · intro more later happend hdivides i o ho hresolved
    have hsame := run_evaluate_eq hpos s [.evaluate, .storeCandles more] happend hdivides
    have hlater : (later.evaluatePendingSignalOutcomes symbol timeframe maxHorizonBars).2 =
        run (step symbol timeframe maxHorizonBars) s
          (silent [.evaluate, .storeCandles more] ++ [.evaluate]) := rfl
    rw [hlater, ← hsame]
    exact evaluate_keeps ho hresolved
  · intro events once happend hdivides
    exact run_evaluate_eq hpos s events happend hdivides

/-- A signal that is won on the first candle after it, evaluated before and after the second. -/
theorem schedule_independent_of_win :
    let signal : Signal :=
      { signalId := "SIG-a", timestamp := 0, signalType := .long, entryPrice := some 100
        stopLoss := some 90, takeProfit1 := some 110 }
    let candle (timestamp : Datetime) (high : ℚ) : Candle :=
      { timestamp := timestamp, timeframe := "4h", open_ := 100, high := high, low := 100
        close := 100, volume := 1 }
    let events : List Event := [.persistSignal signal, .storeCandles [candle 1 115], .evaluate,
      .storeCandles [candle 2 105]]
    let once := run (step "BTC/USDT" "4h" 30) {} (silent events)
    AppendOnly "BTC/USDT" "4h" once.candles ∧ once.Divides "BTC/USDT" "4h" 30 ∧
      run (step "BTC/USDT" "4h" 30) {} (events ++ [.evaluate]) =
        run (step "BTC/USDT" "4h" 30) {} (silent events ++ [.evaluate]) := by
  intro signal candle events once
  have happend : AppendOnly "BTC/USDT" "4h" once.candles := by decide +kernel
  have hdivides : once.Divides "BTC/USDT" "4h" 30 := by decide +kernel
  exact ⟨happend, hdivides,
    (schedule_independent "BTC/USDT" "4h" 30 (by decide) {}).2 events happend hdivides⟩

/-- **An entry price of zero keeps other outcomes pending.** The first signal is won on the first
candle; the second, whose entry price is zero, touches its target on the second candle. Evaluated
after the first candle, the first signal is won; evaluated after both, nothing is. -/
theorem zero_entry_keeps_pending :
    let won : Signal :=
      { signalId := "SIG-a", timestamp := 0, signalType := .long, entryPrice := some 100
        stopLoss := some 90, takeProfit1 := some 110 }
    let zero : Signal :=
      { signalId := "SIG-b", timestamp := 0, signalType := .long, entryPrice := some 0
        stopLoss := some 50, takeProfit1 := some 120 }
    let candle (timestamp : Datetime) (high : ℚ) : Candle :=
      { timestamp := timestamp, timeframe := "4h", open_ := 100, high := high, low := 100
        close := 100, volume := 1 }
    let stored : List Event := [.persistSignal won, .persistSignal zero,
      .storeCandles [candle 1 115]]
    let more : Event := .storeCandles [candle 2 125]
    let after (events : List Event) : OutcomeStore := run (step "BTC/USDT" "4h" 30) {} events
    AppendOnly "BTC/USDT" "4h" (after (stored ++ [more])).candles ∧
      (after (stored ++ [.evaluate, more, .evaluate])).outcomes.map OutcomeRow.outcome =
        [.resolved .win, .pending] ∧
      (after (stored ++ [more, .evaluate])).outcomes.map OutcomeRow.outcome =
        [.pending, .pending] ∧
      after (stored ++ [.evaluate, more, .evaluate]) ≠ after (stored ++ [more, .evaluate]) := by
  decide +kernel

end OutcomeStore

end AlphaOne.SignalEngine
