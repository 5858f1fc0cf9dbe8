import AlphaOne.Paper.Ledger
import AlphaOne.TelegramSignals.PaperExecution

/-!
# The exposure of a fixed-margin position

An external signal is executed with a margin of ₹200 at ten times leverage. The quantity of the
position is that of the leveraged notional, and the leverage is kept in the position as well, so
that `compute_slice_pnl` multiplies the P&L of its exits by it once more. However the exits are
split, the P&L of the whole position is that of a hundredfold exposure (`gross_eq_hundredfold`).
-/

namespace AlphaOne.TelegramSignals

open Foundations Journal Risk Paper

/-! ## The position of a signal -/

/-- What a fixed-margin trade is sized with. -/
theorem checkFixedMarginTrade_sizing {trades : List Trade} {entry : ℚ} {rate : Option ℚ}
    {now : Datetime} {sizing : FixedMarginSizing}
    (h : checkFixedMarginTrade trades (some entry) rate now = .ok sizing) :
    ∃ r, rate = some r ∧ 0 < r ∧ 0 < entry ∧ sizing.leverage = fixedLeverage ∧
      sizing.quantity = fixedMarginInr / r * fixedLeverage / entry := by
  unfold checkFixedMarginTrade sizeFixedMarginTrade at h
  dsimp only at h
  split at h
  · cases rate with
    | none => cases h
    | some r =>
      dsimp only at h
      split at h
      · cases h
      · rename_i hrate
        split at h
        · cases h
        · rename_i hentry
          cases h
          exact ⟨r, rfl, not_le.1 hrate, not_le.1 hentry, rfl, rfl⟩
  · cases h

variable {call : ExecuteCall} {db : Tables} {plan : TradePlan} {position : PaperPosition}

/-- The size of the position that a call enters. -/
theorem gates_sizing (h : gates call db = .ok (plan, position)) :
    ∃ r, call.usdtInrRate = some r ∧ 0 < r ∧ 0 < position.entryPrice ∧
      position.leverage = fixedLeverage ∧
      position.quantity = fixedMarginInr / r * fixedLeverage / position.entryPrice := by
  unfold gates at h
  split at h
  · cases h
  · split at h
    · cases h
    · split at h
      · cases h
      · rename_i sizing hcheck
        simp only [Except.ok.injEq, Prod.mk.injEq] at h
        obtain ⟨rfl, rfl⟩ := h
        exact checkFixedMarginTrade_sizing hcheck

theorem gates_fresh (h : gates call db = .ok (plan, position)) : position.Fresh := by
  obtain ⟨r, -, hr, hentry, -, hquantity⟩ := gates_sizing h
  obtain ⟨-, -, sizing, rfl⟩ := gates_ok h
  refine ⟨?_, rfl, rfl, rfl, rfl⟩
  rw [hquantity]
  exact div_pos (mul_pos (div_pos (by decide +kernel) hr) (by decide +kernel)) hentry

/-! ## A session of the trader -/

/-- A call on the multi-coin trader. -/
inductive TraderOp
  | processCandle (candle : Candle) (clock : String → Datetime)
  /-- The position of another signal is entered. -/
  | enter (position : PaperPosition)
  | pause
  | resume

/-- The trader, with the events it has emitted so far. -/
structure Session where
  trader : PaperTrader
  events : List PaperEvent := []

namespace Session

def step (s : Session) : TraderOp → Session
  | .processCandle candle clock =>
    let (events, trader) := s.trader.processCandle candle clock
    { trader, events := s.events ++ events }
  | .enter position => { s with trader := enter position s.trader }
  | .pause => { s with trader := s.trader.pause }
  | .resume => { s with trader := s.trader.resume }

/-- The events of a position: its exits. -/
def exitsOf (s : Session) (p : PaperPosition) : List PaperEvent :=
  s.events.filter fun e => e.tradeId = p.tradeId


/-- What is followed of a position: the book has one position under an id, and the fills of the
position have led it to where it stands. -/
structure Followed (p : PaperPosition) (s : Session) : Prop where
  unique : UniqueKey PaperPosition.tradeId s.trader.positions
  follows : p.Follows (lookup PaperPosition.tradeId p.tradeId s.trader.positions)
    ((s.exitsOf p).map PaperEvent.fill)

variable {p : PaperPosition} {s : Session}

theorem followed_processCandle (h : Followed p s) (candle : Candle) (clock : String → Datetime) :
    Followed p (s.step (.processCandle candle clock)) := by
  cases hpaused : s.trader.isPaused with
  | true =>
    have hstep : s.step (.processCandle candle clock) = s := by
      simp [step, PaperTrader.processCandle, hpaused]
    rw [hstep]
    exact h
  | false =>
    have hspec := PaperTrader.processCandle_spec candle clock h.unique hpaused
    have hbook : (s.step (.processCandle candle clock)).trader.positions =
        PaperTrader.after candle s.trader.positions := hspec.positions
    refine ⟨?_, ?_⟩
    · rw [hbook]
      exact PaperTrader.uniqueKey_after candle h.unique
    · have hfollows := h.follows
      rw [hbook, PaperTrader.lookup_after h.unique]
      change p.Follows _ (((s.events ++ (s.trader.processCandle candle clock).1).filter
        fun e => e.tradeId = p.tradeId).map PaperEvent.fill)
      rw [List.filter_append, List.map_append, PaperTrader.fills_processCandle h.unique hpaused]
      cases hlookup : lookup PaperPosition.tradeId p.tradeId s.trader.positions with
      | none =>
        rw [hlookup] at hfollows
        simpa [exitsOf] using hfollows
      | some pos =>
        rw [hlookup] at hfollows
        exact PaperPosition.follows_react hfollows candle

/-- **A call keeps a position followed**, if it does not replace it by another of its id. -/
theorem followed_step (h : Followed p s) {op : TraderOp}
    (hop : ∀ q, op = .enter q → q.tradeId ≠ p.tradeId) : Followed p (s.step op) := by
  cases op with
  | processCandle candle clock => exact followed_processCandle h candle clock
  | enter q =>
    refine ⟨h.unique.upsert, ?_⟩
    change p.Follows (lookup PaperPosition.tradeId p.tradeId
      (upsert PaperPosition.tradeId q s.trader.positions)) _
    rw [lookup_upsert_of_ne (hop q rfl).symm]
    exact h.follows
  | pause => exact ⟨h.unique, h.follows⟩
  | resume => exact ⟨h.unique, h.follows⟩

/-- **Any number of calls.** -/
theorem followed_run (h : Followed p s) {ops : List TraderOp}
    (hops : ∀ q, .enter q ∈ ops → q.tradeId ≠ p.tradeId) : Followed p (run step s ops) := by
  induction ops generalizing s with
  | nil => exact h
  | cons op ops ih =>
    have hstep : Followed p (s.step op) :=
      followed_step h fun q hq => hops q (hq ▸ List.mem_cons_self)
    exact ih hstep fun q hq => hops q (List.mem_cons_of_mem op hq)

end Session

/-! ## The gross P&L of the exits -/

/-- The P&L that the trader books for an exit, before the fee. -/
def grossPnl (p : PaperPosition) (e : PaperEvent) : ℚ :=
  let slice := computeSlicePnl p.side p.entryPrice e.exitPrice e.quantity p.leverage
  slice.pnl + slice.fees

theorem grossPnl_eq (p : PaperPosition) (e : PaperEvent) :
    grossPnl p e = p.side.sign * p.leverage * (e.exitPrice - p.entryPrice) * e.quantity := by
  unfold grossPnl
  dsimp only
  rw [computeSlicePnl_pnl, sub_add_cancel]

/-- Exits at one price are worth one exit of their whole quantity. -/
theorem sum_grossPnl (p : PaperPosition) {events : List PaperEvent} {exitPrice : ℚ}
    (h : ∀ e ∈ events, e.exitPrice = exitPrice) :
    (events.map (grossPnl p)).sum = p.side.sign * p.leverage * (exitPrice - p.entryPrice) *
      Ledger.taken (events.map PaperEvent.fill) := by
  have hgross : events.map (grossPnl p) = events.map fun e =>
      p.side.sign * p.leverage * (exitPrice - p.entryPrice) * e.quantity :=
    List.map_congr_left fun e he => by rw [grossPnl_eq, h e he]
  rw [hgross, List.sum_map_mul_left, Ledger.taken, List.map_map]
  rfl

/-- The session after a call that was executed, and any calls on the trader. -/
def sessionAfter (call : ExecuteCall) (db : Tables) (trader : PaperTrader) (ops : List TraderOp) :
    Session :=
  run Session.step { trader := (executeValidSignal call db trader).multiCoinPaperTrader } ops

theorem sessionAfter_followed {trader : PaperTrader} (h : gates call db = .ok (plan, position))
    (hu : UniqueKey PaperPosition.tradeId trader.positions) {ops : List TraderOp}
    (hops : ∀ q, .enter q ∈ ops → q.tradeId ≠ position.tradeId) :
    Session.Followed position (sessionAfter call db trader ops) := by
  refine Session.followed_run ⟨?_, ?_⟩ hops
  · rw [(executeValidSignal_entered h).1]
    exact hu.upsert
  · have hentered : lookup PaperPosition.tradeId position.tradeId
        (executeValidSignal call db trader).multiCoinPaperTrader.positions = some position := by
      rw [(executeValidSignal_entered h).1]
      exact (lookup_eq_some_iff hu.upsert).2 ⟨mem_upsert.2 (Or.inr rfl), rfl⟩
    rw [hentered]
    exact (gates_fresh h).alive

/-- **The P&L of a whole position is that of a hundredfold exposure** on its margin, however its
exits are split. -/
theorem gross_eq_hundredfold {trader : PaperTrader} {r exitPrice : ℚ}
    (h : gates call db = .ok (plan, position)) (hrate : call.usdtInrRate = some r)
    (hu : UniqueKey PaperPosition.tradeId trader.positions) {ops : List TraderOp}
    (hops : ∀ q, .enter q ∈ ops → q.tradeId ≠ position.tradeId)
    (hclosed : ∀ q ∈ (sessionAfter call db trader ops).trader.positions,
      q.tradeId ≠ position.tradeId)
    (hprice : ∀ e ∈ (sessionAfter call db trader ops).exitsOf position,
      e.exitPrice = exitPrice) :
    (((sessionAfter call db trader ops).exitsOf position).map (grossPnl position)).sum =
      10 * (10 * (200 / r) * position.side.sign * (exitPrice - position.entryPrice) /
        position.entryPrice) := by
  have hfollows := (sessionAfter_followed h hu hops).follows
  rw [lookup_eq_none_iff.2 hclosed] at hfollows
  obtain ⟨r', hrate', -, -, hleverage, hquantity⟩ := gates_sizing h
  obtain rfl : r = r' := Option.some.inj (hrate.symm.trans hrate')
  rw [sum_grossPnl position hprice, Ledger.taken_exited hfollows, hleverage, hquantity]
  simp only [fixedLeverage, fixedMarginInr]
  push_cast
  ring

/-- **A position has tenfold exposure on its margin if and only if it is closed at its entry
price**: for every executed signal, rate, side and any way its exits are split. -/
theorem tenfold_exposure_iff (call : ExecuteCall) (db : Tables) (trader : PaperTrader)
    (plan : TradePlan) (position : PaperPosition) (r exitPrice : ℚ) (ops : List TraderOp)
    (h : gates call db = .ok (plan, position)) (hrate : call.usdtInrRate = some r)
    (hu : UniqueKey PaperPosition.tradeId trader.positions)
    (hops : ∀ q, .enter q ∈ ops → q.tradeId ≠ position.tradeId)
    (hclosed : ∀ q ∈ (sessionAfter call db trader ops).trader.positions,
      q.tradeId ≠ position.tradeId)
    (hprice : ∀ e ∈ (sessionAfter call db trader ops).exitsOf position,
      e.exitPrice = exitPrice) :
    (((sessionAfter call db trader ops).exitsOf position).map (grossPnl position)).sum =
        10 * (200 / r) * position.side.sign * (exitPrice - position.entryPrice) /
          position.entryPrice ↔
      exitPrice = position.entryPrice := by
  rw [gross_eq_hundredfold h hrate hu hops hclosed hprice]
  obtain ⟨r', hrate', hr, hentry, -, -⟩ := gates_sizing h
  obtain rfl : r = r' := Option.some.inj (hrate.symm.trans hrate')
  have hsign : position.side.sign ≠ 0 := by
    cases position.side <;> decide +kernel
  constructor
  · intro heq
    have hzero : 10 * (200 / r) * position.side.sign * (exitPrice - position.entryPrice) /
        position.entryPrice = 0 := by linarith
    have hr' := hr.ne'
    have hentry' := hentry.ne'
    simp only [div_eq_zero_iff, mul_eq_zero, hr', hentry', hsign, sub_eq_zero, or_false] at hzero
    simpa using hzero
  · intro hexit
    rw [hexit]
    ring

section Example

open PaperSystem (sampleCall)

def sampleTradePlan : TradePlan := ⟨"ETH/USDT", .short, 100, 120, 90⟩

/-- The position of the sample call: 200 / 80 USDT at ten times leverage are 1 / 4 at 100. -/
def sampleShort : PaperPosition :=
  positionOf sampleCall sampleTradePlan { notionalUsdt := 25, quantity := 1 / 4 }

/-- A candle that reaches its target. -/
def reachTarget : List TraderOp :=
  [.processCandle (sampleCandle 60 101 89 "ETH/USDT") fun _ => 0]

theorem gates_sampleCall : gates sampleCall {} = .ok (sampleTradePlan, sampleShort) := by
  decide +kernel

/-- The law at a fall of ten percent: the position does not have tenfold exposure. -/
theorem tenfold_exposure_iff_sampleCall :
    ((((sessionAfter sampleCall {} (liveMultiCoinPaperTrader 0) reachTarget).exitsOf
        sampleShort).map (grossPnl sampleShort)).sum =
      10 * (200 / 80) * sampleShort.side.sign * (90 - sampleShort.entryPrice) /
        sampleShort.entryPrice) ↔ 90 = sampleShort.entryPrice :=
  tenfold_exposure_iff sampleCall {} (liveMultiCoinPaperTrader 0) sampleTradePlan sampleShort 80 90
    reachTarget gates_sampleCall rfl List.nodup_nil (by simp [reachTarget]) (by decide +kernel)
    (by decide +kernel)

/-- It gains ten times its margin of 5 / 2 USDT. -/
theorem short_gains_hundredfold :
    gates sampleCall {} = .ok (sampleTradePlan, sampleShort) ∧
      (sessionAfter sampleCall {} (liveMultiCoinPaperTrader 0) reachTarget).trader.positions = [] ∧
      ((sessionAfter sampleCall {} (liveMultiCoinPaperTrader 0) reachTarget).exitsOf
        sampleShort).map PaperEvent.exitPrice = [90] ∧
      (((sessionAfter sampleCall {} (liveMultiCoinPaperTrader 0) reachTarget).exitsOf
        sampleShort).map (grossPnl sampleShort)).sum = 25 ∧
      10 * (200 / 80) * sampleShort.side.sign * (90 - sampleShort.entryPrice) /
        sampleShort.entryPrice = 5 / 2 := by
  decide +kernel

end Example

end AlphaOne.TelegramSignals
