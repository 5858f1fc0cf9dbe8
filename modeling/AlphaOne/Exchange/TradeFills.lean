import AlphaOne.Exchange.CoinDCXSync
import AlphaOne.Foundations.LastWriter
import AlphaOne.Foundations.Rounding

/-!
# The ingestion of raw fills

`sync_trade_fills` of `services/exchange/coindcx_sync.py`. Every fill that the exchange reports for
a symbol becomes a row of `trade_executions`, under a key that is made of the fields of the fill,
and is attached to the synced trade of the symbol that was entered last. A fill whose key has a row
is left out; the lookup sees the rows of the batch, since the session flushes before it reads.

* `syncTradeFills_eq`: a call is a bulk insert without conflict.
* `fills_ingested_once`: what any sequence of calls leaves.
-/

namespace AlphaOne.Exchange

open Foundations Journal

/-- A number in the answer of the exchange, bare or in quotes: how it is written in a text, and its
value. -/
structure Numeral where
  text : String
  value : ℚ
  quoted : Bool := false
  deriving DecidableEq, Repr

/-- Only a bare zero is false. -/
def Numeral.truthy (n : Numeral) : Bool := n.quoted || n.value ≠ 0

/-- A fill as the exchange reports it; every field may be missing. -/
structure RawFill where
  orderId : Option String := none
  /-- In milliseconds since the epoch. -/
  timestamp : Option Numeral := none
  price : Option Numeral := none
  quantity : Option Numeral := none
  side : Option String := none
  deriving DecidableEq, Repr

/-- `_exchange_transaction_id`. A missing field is written `None`. -/
def exchangeTransactionId (fill : RawFill) : String :=
  let written (field : Option String) := field.getD "None"
  written fill.orderId ++ ":" ++ written (fill.timestamp.map Numeral.text) ++ ":" ++
    written (fill.price.map Numeral.text) ++ ":" ++ written (fill.quantity.map Numeral.text) ++
    ":" ++ written fill.side

/-- A call of `sync_trade_fills`: its symbol, the answer to `get_trade_history`, and the clock for a
fill without a time, by the key of the fill. -/
structure FillsCall where
  symbol : String := "BTC/USDT"
  history : Option (List RawFill)
  clock : String → Datetime

def FillsCall.fills (call : FillsCall) : List RawFill := call.history.getD []

/-- A trade that came from a position of the exchange. -/
def IsSynced (symbol : String) (trade : Trade) : Bool :=
  trade.exchangePositionId.isSome && trade.symbol = symbol

/-- The synced trade of a symbol that was entered last. -/
def latestSynced (symbol : String) (trades : List Trade) : Option Trade :=
  (run keepNewest none ((trades.filter (IsSynced symbol)).map fun t => (t.entryTime, t))).map
    Prod.snd

/-- The row of a fill. -/
def executionOf (call : FillsCall) (trade : Trade) (fill : RawFill) : TradeExecution :=
  { tradeId := trade.tradeId
    executionType := .entry
    price := (fill.price.map Numeral.value).getD 0
    quantity := (fill.quantity.map Numeral.value).getD 0
    timestamp :=
      match fill.timestamp.filter Numeral.truthy with
      | some ms => roundHalfEven (ms.value * 1000)
      | none => call.clock (exchangeTransactionId fill)
    exchangeTransactionId := some (exchangeTransactionId fill)
    note := some (.rawFill fill.side) }

/-- The body of the loop over the fills, on the count of the rows that are inserted. -/
def ingestFill (call : FillsCall) (s : ℕ × Tables) (fill : RawFill) : ℕ × Tables :=
  if ∃ e ∈ s.2.executions, e.exchangeTransactionId = some (exchangeTransactionId fill) then s
  else
    match latestSynced call.symbol s.2.trades with
    | none => s
    | some trade =>
      (s.1 + 1, { s.2 with executions := s.2.executions ++ [executionOf call trade fill] })

/-- `sync_trade_fills`: the count it returns and the tables it leaves. -/
def syncTradeFills (call : FillsCall) (db : Tables) : ℕ × Tables :=
  run (ingestFill call) (0, db) call.fills

/-- The tables after calls that are made one after another. -/
def syncAllFills (db : Tables) (calls : List FillsCall) : Tables :=
  run (fun db call => (syncTradeFills call db).2) db calls

/-! ## One call -/

variable {call : FillsCall} {db : Tables} {trade : Trade}

/-- There is a trade to attach a fill to exactly when one of the symbol is synced. -/
theorem exists_latestSynced {symbol : String} {trades : List Trade}
    (h : ∃ t ∈ trades, IsSynced symbol t = true) :
    ∃ t, latestSynced symbol trades = some t := by
  obtain ⟨t, ht, hsynced⟩ := h
  have hmem : t ∈ trades.filter (IsSynced symbol) := List.mem_filter.2 ⟨ht, hsynced⟩
  obtain ⟨kept, hkept, -⟩ := exists_newest_run
    (List.ne_nil_of_mem (List.mem_map_of_mem (f := fun t : Trade => (t.entryTime, t)) hmem))
  exact ⟨kept.2, by rw [latestSynced, hkept, Option.map_some]⟩

/-- The body of the loop inserts without conflict, and counts what it inserts. -/
theorem ingestFill_eq {s : ℕ × Tables} (h : latestSynced call.symbol s.2.trades = some trade)
    (fill : RawFill) :
    (ingestFill call s fill).2 =
      { s.2 with
        executions := insertNew TradeExecution.exchangeTransactionId s.2.executions
          (executionOf call trade fill) } ∧
    (ingestFill call s fill).1 + s.2.executions.length =
      s.1 + (ingestFill call s fill).2.executions.length := by
  have hkey : (executionOf call trade fill).exchangeTransactionId =
      some (exchangeTransactionId fill) := rfl
  rw [ingestFill, insertNew, hkey]
  by_cases hfound : ∃ e ∈ s.2.executions,
      e.exchangeTransactionId = some (exchangeTransactionId fill)
  · rw [if_pos hfound, if_pos hfound]
    exact ⟨rfl, rfl⟩
  · rw [if_neg hfound, if_neg hfound, h]
    refine ⟨rfl, ?_⟩
    simp only [List.length_append, List.length_singleton]
    omega

/-- The loop leaves the trades alone and makes a bulk insert without conflict. -/
theorem run_ingestFill_eq {s : ℕ × Tables} (h : latestSynced call.symbol s.2.trades = some trade)
    (fills : List RawFill) :
    (run (ingestFill call) s fills).2 =
      { s.2 with
        executions := insertAllNew TradeExecution.exchangeTransactionId s.2.executions
          (fills.map (executionOf call trade)) } ∧
    (run (ingestFill call) s fills).1 + s.2.executions.length =
      s.1 + (run (ingestFill call) s fills).2.executions.length := by
  induction fills generalizing s with
  | nil => exact ⟨rfl, rfl⟩
  | cons fill fills ih =>
    obtain ⟨htables, hcount⟩ := ingestFill_eq h fill
    have hlatest : latestSynced call.symbol (ingestFill call s fill).2.trades = some trade := by
      rw [htables]
      exact h
    obtain ⟨hrest, hcount'⟩ := ih hlatest
    rw [run_cons]
    refine ⟨?_, by omega⟩
    rw [hrest, htables]
    rfl

/-- **A call is a bulk insert without conflict**, when there is a trade to attach the fills to, and
returns how many rows it inserts. -/
theorem syncTradeFills_eq (h : latestSynced call.symbol db.trades = some trade) :
    (syncTradeFills call db).2 =
      { db with
        executions := insertAllNew TradeExecution.exchangeTransactionId db.executions
          (call.fills.map (executionOf call trade)) } ∧
    (syncTradeFills call db).1 + db.executions.length =
      (syncTradeFills call db).2.executions.length := by
  obtain ⟨htables, hcount⟩ := run_ingestFill_eq (s := (0, db)) h call.fills
  exact ⟨htables, by rwa [Nat.zero_add] at hcount⟩

/-! ## Calls one after another -/

/-- There is a synced trade for the symbol of every call. -/
def AllSynced (trades : List Trade) (calls : List FillsCall) : Prop :=
  ∀ call ∈ calls, ∃ t ∈ trades, IsSynced call.symbol t = true

/-- The keys of the fills that a call is given. -/
def FillsCall.keys (call : FillsCall) : List (Option String) :=
  call.fills.map fun fill => some (exchangeTransactionId fill)

/-- What calls keep and add: the trades stay, and the rows that are added are entries under keys
that were seen. -/
structure Ingested (db : Tables) (keys : List (Option String)) (db' : Tables) : Prop where
  trades : db'.trades = db.trades
  added : ∃ added, db'.executions = db.executions ++ added ∧
    ∀ e ∈ added, e.executionType = .entry ∧ e.exchangeTransactionId ∈ keys
  unique : UniqueWhere TradeExecution.exchangeTransactionId db'.executions
  seen : ∀ k ∈ keys, k ∈ db'.executions.map TradeExecution.exchangeTransactionId

/-- One call. -/
theorem ingested_syncTradeFills
    (hu : UniqueWhere TradeExecution.exchangeTransactionId db.executions)
    (h : ∃ t ∈ db.trades, IsSynced call.symbol t = true) :
    Ingested db call.keys (syncTradeFills call db).2 := by
  obtain ⟨trade, htrade⟩ := exists_latestSynced h
  rw [(syncTradeFills_eq htrade).1]
  have hkeys : (call.fills.map (executionOf call trade)).map
      TradeExecution.exchangeTransactionId = call.keys := by
    rw [List.map_map]
    rfl
  refine ⟨rfl, ?_, ?_, fun k hk => ?_⟩
  · obtain ⟨added, heq, hadded⟩ := exists_insertAllNew_eq TradeExecution.exchangeTransactionId
      db.executions (call.fills.map (executionOf call trade))
    refine ⟨added, heq, fun e he => ?_⟩
    obtain ⟨fill, hfill, rfl⟩ := List.mem_map.1 (hadded e he)
    exact ⟨rfl, List.mem_map.2 ⟨fill, hfill, rfl⟩⟩
  · refine hu.insertAllNew fun e he => ?_
    obtain ⟨fill, -, rfl⟩ := List.mem_map.1 he
    rfl
  · exact key_mem_insertAllNew.2 (.inr (hkeys ▸ hk))

/-- Calls after calls. -/
theorem Ingested.trans {db' db'' : Tables} {keys keys' : List (Option String)}
    (h : Ingested db keys db') (h' : Ingested db' keys' db'') :
    Ingested db (keys ++ keys') db'' := by
  obtain ⟨added, heq, hadded⟩ := h.added
  obtain ⟨added', heq', hadded'⟩ := h'.added
  refine ⟨h'.trades.trans h.trades, ⟨added ++ added', ?_, fun e he => ?_⟩, h'.unique,
    fun k hk => ?_⟩
  · rw [heq', heq, List.append_assoc]
  · rcases List.mem_append.1 he with he | he
    · exact ⟨(hadded e he).1, List.mem_append_left _ (hadded e he).2⟩
    · exact ⟨(hadded' e he).1, List.mem_append_right _ (hadded' e he).2⟩
  · rcases List.mem_append.1 hk with hk | hk
    · rw [heq', List.map_append]
      exact List.mem_append_left _ (h.seen k hk)
    · exact h'.seen k hk

theorem ingested_syncAllFills {calls : List FillsCall}
    (hu : UniqueWhere TradeExecution.exchangeTransactionId db.executions)
    (h : AllSynced db.trades calls) :
    Ingested db (calls.flatMap FillsCall.keys) (syncAllFills db calls) := by
  induction calls generalizing db with
  | nil => exact ⟨rfl, ⟨[], by simp [syncAllFills], by simp⟩, hu, by simp⟩
  | cons call calls ih =>
    have hcall := ingested_syncTradeFills hu (h call List.mem_cons_self)
    rw [List.flatMap_cons, syncAllFills, run_cons, ← syncAllFills]
    refine hcall.trans (ih hcall.unique ?_)
    rw [hcall.trades]
    exact fun other hother => h other (List.mem_cons_of_mem call hother)

/-- The journal computes the remaining quantity of a trade as before. -/
theorem Ingested.exits {db' : Tables} {keys : List (Option String)} (h : Ingested db keys db')
    (tradeId : String) : db'.exits tradeId = db.exits tradeId := by
  obtain ⟨added, heq, hadded⟩ := h.added
  have hnone : added.filter (fun e => decide (e.tradeId = tradeId ∧ e.isExit = true)) = [] := by
    refine List.filter_eq_nil_iff.2 fun e he => ?_
    simp [TradeExecution.isExit, (hadded e he).1]
  rw [Tables.exits, heq, List.filter_append, hnone, List.append_nil]
  rfl

/-- A call whose keys all have rows inserts nothing. -/
theorem syncTradeFills_of_seen (h : ∃ t ∈ db.trades, IsSynced call.symbol t = true)
    (hseen : ∀ k ∈ call.keys, k ∈ db.executions.map TradeExecution.exchangeTransactionId) :
    syncTradeFills call db = (0, db) := by
  obtain ⟨trade, htrade⟩ := exists_latestSynced h
  obtain ⟨htables, hcount⟩ := syncTradeFills_eq htrade
  have hnothing : insertAllNew TradeExecution.exchangeTransactionId db.executions
      (call.fills.map (executionOf call trade)) = db.executions := by
    refine insertAllNew_eq_self fun e he => ?_
    obtain ⟨fill, hfill, rfl⟩ := List.mem_map.1 he
    exact List.mem_map.1 (hseen _ (List.mem_map.2 ⟨fill, hfill, rfl⟩))
  rw [hnothing] at htables
  rw [htables] at hcount
  exact Prod.ext (by simpa using hcount) htables

/-- **Fills are ingested once.** Whatever rows there are under the unique index, after any calls of
`sync_trade_fills` for symbols with a synced trade, with any fills, every key that was seen has one
row, the trades and the exits of every trade are as before and the rows that are added are entries
under keys that were seen, so that the journal computes the same remaining quantities, and
repeating any of the calls inserts nothing. -/
theorem fills_ingested_once (db : Tables)
    (hu : UniqueWhere TradeExecution.exchangeTransactionId db.executions) (calls : List FillsCall)
    (h : AllSynced db.trades calls) :
    (∀ call ∈ calls, ∀ fill ∈ call.fills, ((syncAllFills db calls).executions.filter fun e =>
        e.exchangeTransactionId = some (exchangeTransactionId fill)).length = 1) ∧
      (syncAllFills db calls).trades = db.trades ∧
      (∀ tradeId, (syncAllFills db calls).exits tradeId = db.exits tradeId ∧
        closedQuantity (syncAllFills db calls) tradeId = closedQuantity db tradeId) ∧
      (∃ added, (syncAllFills db calls).executions = db.executions ++ added ∧
        ∀ e ∈ added, e.executionType = .entry ∧
          ∃ call ∈ calls, e.exchangeTransactionId ∈ call.keys) ∧
      ∀ call ∈ calls, syncTradeFills call (syncAllFills db calls) =
        (0, syncAllFills db calls) := by
  have hall := ingested_syncAllFills hu h
  have hseen : ∀ call ∈ calls, ∀ k ∈ call.keys,
      k ∈ (syncAllFills db calls).executions.map TradeExecution.exchangeTransactionId :=
    fun call hcall k hk => hall.seen k (List.mem_flatMap.2 ⟨call, hcall, hk⟩)
  refine ⟨fun call hcall fill hfill => ?_, hall.trades, fun tradeId => ?_, ?_,
    fun call hcall => ?_⟩
  · exact hall.unique.length_filter (hseen call hcall _ (List.mem_map.2 ⟨fill, hfill, rfl⟩))
  · exact ⟨hall.exits tradeId, by rw [closedQuantity, closedQuantity, hall.exits tradeId]⟩
  · obtain ⟨added, heq, hadded⟩ := hall.added
    exact ⟨added, heq, fun e he => ⟨(hadded e he).1, List.mem_flatMap.1 (hadded e he).2⟩⟩
  · refine syncTradeFills_of_seen ?_ (hseen call hcall)
    rw [hall.trades]
    exact h call hcall

/-! ## Two overlapping histories -/

/-- A position in bitcoin, as a synced trade. -/
def syncedBtc : Trade :=
  tradeOfPosition { account := { id := 1 } } "0123456789" 0
    { exchangePositionId := "p1"
      symbol := "B-BTC_USDT"
      side := .long
      quantity := 1
      entryPrice := 100
      markPrice := none
      liquidationPrice := none
      leverage := none
      margin := 20
      unrealizedPnl := none
      quantity_pos := one_pos }

/-- A fill of half a bitcoin at 100. -/
def fillOf (orderId : String) : RawFill where
  orderId := some orderId
  timestamp := some { text := "1000", value := 1000 }
  price := some { text := "100.0", value := 100 }
  quantity := some { text := "0.5", value := 1 / 2 }
  side := some "buy"

def callOf (fills : List RawFill) : FillsCall where
  history := some fills
  clock _ := 0

/-- A fill is repeated within a history, and another is in both: each has one row. -/
theorem fills_ingested_once_overlapping :
    let db : Tables := { trades := [syncedBtc] }
    let calls := [callOf [fillOf "o1", fillOf "o1", fillOf "o2"], callOf [fillOf "o2", fillOf "o3"]]
    (syncAllFills db calls).executions.length = 3 ∧
      ((syncAllFills db calls).executions.filter fun e =>
        e.exchangeTransactionId = some (exchangeTransactionId (fillOf "o2"))).length = 1 ∧
      syncTradeFills (callOf [fillOf "o2", fillOf "o3"]) (syncAllFills db calls) =
        (0, syncAllFills db calls) := by
  intro db calls
  have hsynced : AllSynced db.trades calls := by
    intro call hcall
    refine ⟨syncedBtc, List.mem_singleton_self syncedBtc, ?_⟩
    simp only [calls, List.mem_cons, List.not_mem_nil, or_false] at hcall
    rcases hcall with rfl | rfl <;> decide +kernel
  have hresult := fills_ingested_once db List.nodup_nil calls hsynced
  exact ⟨by decide +kernel, hresult.1 _ (List.mem_cons_self) (fillOf "o2") (by simp [callOf,
    FillsCall.fills]), hresult.2.2.2.2 _ (List.mem_cons_of_mem _ List.mem_cons_self)⟩

end AlphaOne.Exchange
