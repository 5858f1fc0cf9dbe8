import AlphaOne.Paper.Books

/-!
# Ledger and books over the runs of the process

The operations of the process on ledger and books: each of them keeps the agreement under its
condition `KeepsLedger`, which says that the operation does not run into one of the three ways in
which the program loses it. A restart forgets the positions of open rows; a position whose insert
fails, on a trade id that is taken or on a commit that is refused, stays in the book without a
row; and an event whose commit is refused is never recorded.
-/

namespace AlphaOne.Paper

open Foundations Journal Risk Scheduler ModelMonitor TelegramSignals

variable {db : Tables} {book post : List PaperPosition} {trader : PaperTrader}
  {s : PaperSystem} {tick : Tick} {signals : List Signal} {call : ExecuteCall}

/-! ## The books through the sub-steps of a tick -/

theorem BookAgrees.processCandle (candle : Candle) (clock : String → Datetime)
    (h : BookAgrees db (trader.positions ++ post)) :
    BookAgrees (recordEvents db (trader.processCandle candle clock).1)
      ((trader.processCandle candle clock).2.positions ++ post) := by
  cases hpaused : trader.isPaused with
  | true =>
    have hnothing : trader.processCandle candle clock = ([], trader) := by
      simp [PaperTrader.processCandle, hpaused]
    rw [hnothing]
    exact h
  | false =>
    have hu : UniqueKey PaperPosition.tradeId trader.positions :=
      h.book_unique.sublist ((List.sublist_append_left _ post).map _)
    obtain ⟨hevents, hpositions, -, -⟩ := PaperTrader.processCandle_spec candle clock hu hpaused
    rw [← recordEvents_bare, hevents, hpositions]
    exact @BookAgrees.reactions _ _ [] _ candle h

/-- A position under an id without a row is not in the book. -/
theorem BookAgrees.upsert_eq (h : BookAgrees db (book ++ post)) {p : PaperPosition}
    (hfree : db.trade? p.tradeId = none) :
    upsert PaperPosition.tradeId p book = book ++ [p] := by
  refine upsert_of_new fun q hq hid => ?_
  obtain ⟨row, hrow, -, hmatch⟩ := h.row_of_position q (List.mem_append_left _ hq)
  exact lookup_eq_none_iff.1 hfree row hrow (hmatch.tradeId.trans hid)

/-- Whenever the loop over the signals opens a position, no row has its id and its commit is
accepted. -/
def InsertsOpened (tick : Tick) : List Signal → Tables → PaperTrader → Prop
  | [], _, _ => True
  | signal :: rest, db, trader =>
    tick.enriches signal = true →
      match trader.openPosition signal (tick.now signal) with
      | (none, trader) => InsertsOpened tick rest db trader
      | (some position, trader) =>
        db.trade? position.tradeId = none ∧ tick.commitsOpen position = true ∧
          InsertsOpened tick rest
            (persistPaperOpen position tick.symbol .aiPaper true db).2 trader

instance decidableInsertsOpened (tick : Tick) :
    ∀ signals db trader, Decidable (InsertsOpened tick signals db trader)
  | [], _, _ => inferInstanceAs (Decidable True)
  | signal :: rest, db, trader => by
    have := decidableInsertsOpened tick rest
    unfold InsertsOpened
    split <;> infer_instance

theorem BookAgrees.openPositions (h : BookAgrees db (trader.positions ++ post))
    (hinserts : InsertsOpened tick signals db trader) :
    BookAgrees (openPositions tick signals db trader).tables
      ((openPositions tick signals db trader).paperTrader.positions ++ post) := by
  induction signals generalizing db trader with
  | nil => exact h
  | cons signal rest ih =>
    unfold InsertsOpened at hinserts
    unfold Scheduler.openPositions
    split
    · exact h
    · rename_i henriches
      have hinserts := hinserts (by simpa using henriches)
      cases ho : trader.openPosition signal (tick.now signal) with
      | mk o trader' =>
      rw [ho] at hinserts
      cases o with
      | none =>
        refine ih ?_ hinserts
        rw [(openPosition_skip ho).1]
        exact h
      | some position =>
        obtain ⟨hfree, hcommits, hrest⟩ := hinserts
        have hopened : (trader.openPosition signal (tick.now signal)).1 = some position := by
          rw [ho]
        have hopened := PaperTrader.openPosition_some hopened
        rw [ho] at hopened
        have hpersist : ∀ commits, commits = true →
            persistPaperOpen position tick.symbol .aiPaper commits db =
              (.ok (paperTrade position tick.symbol .aiPaper),
                { trades := db.trades ++ [paperTrade position tick.symbol .aiPaper]
                  executions := db.executions ++ [entryExecution position] }) := by
          rintro _ rfl
          simp [persistPaperOpen, hfree]
        simp only [hpersist _ hcommits]
        rw [hpersist true rfl] at hrest
        refine ih ?_ hrest
        rw [hopened.positions, h.upsert_eq hfree]
        have hins := h.insert tick.symbol .aiPaper hfree hopened.remainingQuantity
        refine hins.perm ?_
        rw [List.append_assoc, List.append_assoc]
        exact List.perm_append_comm.append_left trader.positions

/-! ## The operations of the process -/

namespace PaperSystem

/-- The positions in memory. -/
def inMemory (s : PaperSystem) : List PaperPosition :=
  s.paperTrader.positions ++ s.multiCoinPaperTrader.positions

def processStep (s : PaperSystem) : ProcessOp → PaperSystem
  | .op op => s.step op
  | .restart today => s.restart today

/-- Ledger and books agree, so that the row that blocks a symbol is that of a position which the
process holds. -/
structure Agrees (s : PaperSystem) : Prop where
  books : BookAgrees s.tables s.inMemory
  blocked : ∀ symbol source row, getOpenPaperTrade symbol source s.tables = some row →
    row.symbol = symbol ∧ ∃ p ∈ s.inMemory, RowOf s.tables p row

theorem agrees_of_books (h : BookAgrees s.tables s.inMemory) : s.Agrees where
  books := h
  blocked := by
    intro symbol source row hrow
    obtain ⟨hmem, hsymbol, hmode, hstatus, -⟩ := mem_of_getOpenPaperTrade hrow
    exact ⟨hsymbol, h.position_of_row row hmem ⟨hmode, hstatus⟩⟩

/-- The operation does not run into a way of losing the agreement: a tick records all its events
and inserts every position it opens, a call inserts the position it opens, and a restart finds
both books empty. -/
def KeepsLedger (s : PaperSystem) : ProcessOp → Prop
  | .op (.store _ _) => True
  | .op (.tick t) =>
    match shownCandle s.candles t.symbol t.timeframe with
    | none => True
    | some c =>
      let (events, trader) := s.paperTrader.processCandle c t.clock
      let db := recordEvents s.tables events
      (∀ e ∈ events, t.commitsEvent e = true) ∧
        (evaluateModelHealth db.trades t.predictions ≠ .disabled →
          InsertsOpened t (signalsOf s.signals t.symbol t.timeframe c.timestamp) db trader)
  | .op (.execute call) =>
    match gates call s.tables with
    | .error _ => True
    | .ok (_, position) => s.tables.trade? position.tradeId = none ∧ call.commits = true
  | .restart _ => s.inMemory = []

instance (s : PaperSystem) (op : ProcessOp) : Decidable (s.KeepsLedger op) := by
  unfold KeepsLedger
  split
  · infer_instance
  · split <;> infer_instance
  · split <;> infer_instance
  · infer_instance

theorem agrees_tick (h : s.Agrees) (hc : s.KeepsLedger (.op (.tick tick))) :
    (s.step (.tick tick)).Agrees := by
  refine agrees_of_books ?_
  change BookAgrees (s.ticked tick).tables
    ((s.ticked tick).paperTrader.positions ++ s.multiCoinPaperTrader.positions)
  have hbooks := h.books
  unfold KeepsLedger at hc
  cases hshown : shownCandle s.candles tick.symbol tick.timeframe with
  | none =>
    rw [ticked_of_none hshown]
    exact hbooks
  | some c =>
    simp only [hshown] at hc
    obtain ⟨hcommits, hinserts⟩ := hc
    have hcandle := BookAgrees.processCandle c tick.clock hbooks
    simp only [ticked, aiPaperTradingJob, hshown, persistPaperEvents_of_accepted hcommits]
    split
    · exact hcandle
    · rename_i hhealth
      exact hcandle.openPositions (hinserts hhealth)

theorem agrees_execute (h : s.Agrees) (hc : s.KeepsLedger (.op (.execute call))) :
    (s.step (.execute call)).Agrees := by
  refine agrees_of_books ?_
  have hbooks := h.books
  unfold KeepsLedger at hc
  simp only [step, inMemory]
  cases hg : gates call s.tables with
  | error reason =>
    rw [executeValidSignal_refused hg]
    exact hbooks
  | ok planned =>
    obtain ⟨plan, position⟩ := planned
    simp only [hg] at hc
    obtain ⟨hfree, hcommits⟩ := hc
    obtain ⟨hbook, htables⟩ := @executeValidSignal_entered _ _ s.multiCoinPaperTrader _ _ hg
    obtain ⟨-, -, sizing, hposition⟩ := gates_ok hg
    have hrem : position.remainingQuantity = position.quantity := by
      rw [hposition]
      rfl
    have hnew : upsert PaperPosition.tradeId position s.multiCoinPaperTrader.positions =
        s.multiCoinPaperTrader.positions ++ [position] :=
      (hbooks.perm List.perm_append_comm).upsert_eq hfree
    rw [hbook, htables, hcommits]
    simp only [enter, persistPaperOpen, hfree, Option.isSome_none, Bool.false_eq_true, if_false,
      Bool.not_true, hnew]
    rw [← List.append_assoc]
    exact hbooks.insert plan.symbol .telegramExternal hfree hrem

theorem agrees_restart {today : ℤ} (h : s.Agrees) (hc : s.KeepsLedger (.restart today)) :
    (s.restart today).Agrees := by
  have hbooks := h.books
  rw [show s.inMemory = [] from hc] at hbooks
  exact agrees_of_books hbooks

theorem agrees_step (s : PaperSystem) (op : ProcessOp) (h : s.Agrees) (hc : s.KeepsLedger op) :
    (s.processStep op).Agrees := by
  cases op with
  | op op =>
    cases op with
    | store candles signals => exact agrees_of_books h.books
    | tick t => exact agrees_tick h hc
    | execute call => exact agrees_execute h hc
  | restart today => exact agrees_restart h hc

/-- **Ledger and books**: in every run, over paper opens of both kinds, ticks and restarts, whose
operations do not run into a way of losing the agreement, the open paper rows are the rows of the
positions in memory after every operation. -/
theorem books_agree (s : PaperSystem) (ops : List ProcessOp) (hs : s.Agrees)
    (hc : Guarded processStep KeepsLedger s ops) : Always processStep Agrees s ops :=
  Always.of_guarded agrees_step hs hc

/-- An external signal to go short on ETH. -/
def sampleExternalSignal : ExternalSignal :=
  { id := "7f", messageId := 1, sourceChannel := "signals", status := .valid
    symbol := some "ETH/USDT", direction := some .short, entryPrice := some 100,
    stopLoss := some 120, takeProfit1 := some 90 }

/-- The executing of the sample signal. -/
def sampleCall : ExecuteCall :=
  { signal := sampleExternalSignal, usdtInrRate := some 80, utcnow := 0 }

/-- A restart on empty books, a trade of the AI book from its signal to its target, and a trade of
the multi-coin book. -/
def agreeingRun : List ProcessOp :=
  [.restart 0, .op (.store quietCandles [sampleSignal "S1" 59]), .op (.tick sampleTick),
    .op (.execute sampleCall), .op (.store [sampleCandle 60 111 99] []), .op (.tick sampleTick)]

theorem agrees_sampleStart : sampleStart.system.Agrees := agrees_of_books bookAgrees_nil

/-- The law on a run in which both books trade. -/
theorem books_agree_agreeingRun : Always processStep Agrees sampleStart.system agreeingRun ∧
    (run processStep sampleStart.system agreeingRun).tables.trades.map Trade.status =
      [.closed, .open_] :=
  ⟨books_agree _ _ agrees_sampleStart (by decide +kernel), by decide +kernel⟩

/-- A restart with an open position leaves its row open: it blocks the symbol for good. -/
theorem restart_orphans_row : sampleStart.system.Agrees ∧
    ¬Always processStep Agrees sampleStart.system
      [.op (.store quietCandles [sampleSignal "S1" 59]), .op (.tick sampleTick), .restart 0] := by
  refine ⟨agrees_sampleStart, fun h => ?_⟩
  have hlast := h.last.books.position_of_row
  have hrow : ∃ row ∈ (run processStep sampleStart.system [.op (.store quietCandles
      [sampleSignal "S1" 59]), .op (.tick sampleTick), .restart 0]).tables.trades,
      IsOpenRow row := by
    decide +kernel
  obtain ⟨row, hrow, hopen⟩ := hrow
  obtain ⟨p, hp, -⟩ := hlast row hrow hopen
  exact List.not_mem_nil hp

end PaperSystem

end AlphaOne.Paper
