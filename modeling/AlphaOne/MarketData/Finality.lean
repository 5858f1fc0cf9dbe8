import AlphaOne.Foundations.Run
import AlphaOne.MarketData.Completeness

/-!
# Whether a stored candle is final

A candle of the exchange moves until it closes; a response shows it as it stands when the response
is produced. A `LiveExchange` is an exchange over time, and the calls are `backfill`, which drops
the candles that have not closed by a clock it reads after the response, and
`fetch_and_store_candles`, which drops none. An insert never replaces a row, so what a candle is
stored with is what it stays with (`step_keeps`).

`stored_final` says which calls store final candles only: those in which no new candle passes that
was still forming when the response was produced.
-/

namespace AlphaOne.MarketData

open Foundations

/-- An exchange whose candles form over time, with the clock of the program that reads it. -/
structure LiveExchange extends Environment where
  /-- `exchange.fetch_ohlcv(symbol, timeframe, since=None, limit)`, `none` when it raises. -/
  fetchLatest : ℕ → String → String → ℕ → Option (List OHLCV)
  /-- When the response of a turn is produced; the clock of the turn is read after it. -/
  answeredAt : ℕ → Datetime
  answered_le : ∀ n, answeredAt n ≤ utcnow n
  /-- How long a candle of a timeframe forms. -/
  duration : String → Timedelta
  duration_known : ∀ timeframe d, timeframeToTimedelta timeframe = some d → duration timeframe = d
  /-- The candle of a symbol and a timeframe that opens at `timestamp`, as it stands at a time. -/
  candleAt : (symbol timeframe : String) → (timestamp : Datetime) → Datetime → OHLCV
  finalCandle : (symbol timeframe : String) → (timestamp : Datetime) → OHLCV
  labelled : ∀ symbol timeframe timestamp,
    (finalCandle symbol timeframe timestamp).symbol = symbol ∧
      (finalCandle symbol timeframe timestamp).timeframe = timeframe
  closed : ∀ symbol timeframe timestamp t, timestamp + duration timeframe ≤ t →
    candleAt symbol timeframe timestamp t = finalCandle symbol timeframe timestamp
  /-- A response shows the candles as they stand when it is produced. -/
  shown : ∀ n symbol timeframe since limit candles,
    fetchOhlcv n symbol timeframe since limit = some candles →
    ∀ c ∈ candles, c = candleAt symbol timeframe c.timestamp (answeredAt n)
  shownLatest : ∀ n symbol timeframe limit candles,
    fetchLatest n symbol timeframe limit = some candles →
    ∀ c ∈ candles, c = candleAt symbol timeframe c.timestamp (answeredAt n)

/-- The candle has no row yet. -/
def Session.IsNew (s : Session) (c : OHLCV) : Prop := ∀ r ∈ s.candles, r.key ≠ c.toRow.key

namespace LiveExchange

variable (ex : LiveExchange)

/-- `exchange.fetch_ohlcv` at a turn. -/
def fetch (n : ℕ) (symbol timeframe : String) (since : Option Datetime) (limit : ℕ) :
    Option (List OHLCV) :=
  match since with
  | some since => ex.fetchOhlcv n symbol timeframe since limit
  | none => ex.fetchLatest n symbol timeframe limit

/-- `fetch_and_store_candles`. -/
def fetchAndStoreCandles (symbol timeframe : String) (since : Option Datetime) (limit : ℕ)
    (s : Session) : Option ℕ × Session :=
  let turn := s.turn
  let s := { s with turn := turn + 1 }
  match ex.fetch turn symbol timeframe since limit with
  | none => (none, s)
  | some candles =>
    let (stored, s) := bulkInsertCandles candles s
    (some stored, s)

/-- A call that stores candles. -/
inductive Call
  | backfill (symbol timeframe : String) (start : Datetime) (end_ : Option Datetime)
      (pageLimit : ℕ)
  | fetchAndStoreCandles (symbol timeframe : String) (since : Option Datetime) (limit : ℕ)
  deriving DecidableEq, Repr

/-- The session a call leaves, whether it returns or raises. -/
def step (s : Session) : Call → Session
  | .backfill symbol timeframe start (some end_) pageLimit =>
    (MarketData.backfill ex.toEnvironment symbol timeframe start end_ pageLimit s).2
  | .backfill symbol timeframe start none pageLimit =>
    (backfillUntilNow ex.toEnvironment symbol timeframe start pageLimit s).2
  | .fetchAndStoreCandles symbol timeframe since limit =>
    (ex.fetchAndStoreCandles symbol timeframe since limit s).2

/-- Every stored candle is the final one of its symbol, timeframe and timestamp. -/
def AllFinal (s : Session) : Prop :=
  ∀ r ∈ s.candles, r = (ex.finalCandle r.symbol r.timeframe r.timestamp).toRow

/-- The candle had closed when the response of the turn was produced. -/
def ClosedWhenAnswered (n : ℕ) (timeframe : String) (c : OHLCV) : Prop :=
  c.timestamp + ex.duration timeframe ≤ ex.answeredAt n

/-- In a backfill, the new candles that have closed by the clock of their turn had closed when the
response was produced. -/
def BackfillSettles (symbol timeframe : String) (start end_ : Datetime) (pageLimit : ℕ)
    (s s' : Session) : Prop :=
  ∀ n since candles, s.turn ≤ n → n < s'.turn →
    ex.fetchOhlcv n symbol timeframe since pageLimit = some candles → ∀ c ∈ candles,
      Requested symbol timeframe start end_ s c.timestamp → s.IsNew c →
        c.timestamp + interval timeframe ≤ ex.utcnow n → ex.ClosedWhenAnswered n timeframe c

/-- No new candle gets past the call that was still forming when the response was produced. -/
def Settles (s : Session) : Call → Prop
  | .backfill symbol timeframe start (some end_) pageLimit =>
    ex.BackfillSettles symbol timeframe start end_ pageLimit s
      (ex.step s (.backfill symbol timeframe start (some end_) pageLimit))
  | .backfill symbol timeframe start none pageLimit =>
    ex.BackfillSettles symbol timeframe start (ex.utcnow s.turn) pageLimit
      { s with turn := s.turn + 1 } (ex.step s (.backfill symbol timeframe start none pageLimit))
  | .fetchAndStoreCandles symbol timeframe since limit =>
    ∀ candles, ex.fetch s.turn symbol timeframe since limit = some candles →
      ∀ c ∈ candles, s.IsNew c → ex.ClosedWhenAnswered s.turn timeframe c

end LiveExchange

/-! ## What the calls store -/

/-- The rows of `s` are kept, and the others are new candles with `P` at a turn in between. -/
structure Stores (P : ℕ → OHLCV → Prop) (s s' : Session) : Prop where
  turn_le : s.turn ≤ s'.turn
  kept : ∀ r ∈ s.candles, r ∈ s'.candles
  stored : ∀ r ∈ s'.candles, r ∈ s.candles ∨
    ∃ n c, s.turn ≤ n ∧ n < s'.turn ∧ P n c ∧ s.IsNew c ∧ r = c.toRow

section Stores

variable {P Q : ℕ → OHLCV → Prop} {s s' s'' : Session}

/-- A call that stores nothing takes its turns. -/
theorem Stores.of_candles (h : s'.candles = s.candles) (hturn : s.turn ≤ s'.turn) :
    Stores P s s' where
  turn_le := hturn
  kept := fun _ hr => h ▸ hr
  stored := fun _ hr => Or.inl (h ▸ hr)

theorem Stores.mono (h : Stores P s s') (hPQ : ∀ n c, P n c → Q n c) : Stores Q s s' where
  turn_le := h.turn_le
  kept := h.kept
  stored := by
    intro r hr
    rcases h.stored r hr with hr | ⟨n, c, hle, hlt, hP, hnew, rfl⟩
    · exact Or.inl hr
    · exact Or.inr ⟨n, c, hle, hlt, hPQ n c hP, hnew, rfl⟩

theorem Stores.trans (h : Stores P s s') (h' : Stores P s' s'') : Stores P s s'' where
  turn_le := h.turn_le.trans h'.turn_le
  kept := fun r hr => h'.kept r (h.kept r hr)
  stored := by
    intro r hr
    rcases h'.stored r hr with hr | ⟨n, c, hle, hlt, hP, hnew, rfl⟩
    · rcases h.stored r hr with hr | ⟨n, c, hle, hlt, hP, hnew, rfl⟩
      · exact Or.inl hr
      · exact Or.inr ⟨n, c, hle, hlt.trans_le h'.turn_le, hP, hnew, rfl⟩
    · exact Or.inr ⟨n, c, h.turn_le.trans hle, hlt, hP, fun r hr => hnew r (h.kept r hr), rfl⟩

/-- One page, inserted after its turn. -/
theorem Stores.page {candles : List OHLCV} (hP : ∀ c ∈ candles, P s.turn c) :
    Stores P s (bulkInsertCandles candles { s with turn := s.turn + 1 }).2 where
  turn_le := Nat.le_succ _
  kept := fun r hr => mem_insertAllNew_of_mem hr
  stored := by
    intro r hr
    rcases mem_insertAllNew hr with hr | ⟨hr, hnew⟩
    · exact Or.inl hr
    · obtain ⟨c, hc, rfl⟩ := List.mem_map.1 hr
      exact Or.inr ⟨s.turn, c, le_rfl, Nat.lt_succ_self _, hP c hc, hnew, rfl⟩

end Stores

/-- A candle that a page of the range shows, closed by the clock of its turn. -/
structure ShownClosed (env : Environment) (symbol timeframe : String) (pageLimit : ℕ)
    (rangeStart rangeEnd : Datetime) (n : ℕ) (c : OHLCV) : Prop where
  fetched : ∃ since candles, env.fetchOhlcv n symbol timeframe since pageLimit = some candles ∧
    c ∈ candles
  start_le : rangeStart ≤ c.timestamp
  le_end : c.timestamp ≤ rangeEnd
  closed : c.timestamp + interval timeframe ≤ env.utcnow n

section Backfill

variable (env : Environment) (symbol timeframe : String)

/-- The closed candles of a page that lie in the range. -/
theorem stores_page (rangeStart rangeEnd : Datetime) {since : Datetime} {pageLimit : ℕ}
    {s : Session} {fetched : List OHLCV}
    (hfetch : env.fetchOhlcv s.turn symbol timeframe since pageLimit = some fetched) :
    Stores (ShownClosed env symbol timeframe pageLimit rangeStart rangeEnd) s
      (bulkInsertCandles (completeBy timeframe (env.utcnow s.turn)
        (inRange rangeStart rangeEnd fetched)) { s with turn := s.turn + 1 }).2 := by
  refine Stores.page fun c hc => ?_
  simp only [completeBy, inRange, List.mem_filter, decide_eq_true_eq] at hc
  obtain ⟨⟨hc, hstart, hend⟩, hclosed⟩ := hc
  exact ⟨⟨since, fetched, hfetch, hc⟩, hstart, hend, hclosed⟩

/-- **The loop stores what its pages show closed.** -/
theorem backfillLoop_stores (rangeStart rangeEnd : Datetime) (pageLimit : ℕ) (since : Datetime)
    (empties total : ℕ) (s : Session) :
    Stores (ShownClosed env symbol timeframe pageLimit rangeStart rangeEnd) s
      (backfillLoop env symbol timeframe rangeStart rangeEnd pageLimit since empties total
        s).2 := by
  fun_induction backfillLoop env symbol timeframe rangeStart rangeEnd pageLimit since empties
    total s with
  | case3 since empties total s hlt turn s' fetched hfetch candles hempty hstop ih =>
    have hturn : Stores (ShownClosed env symbol timeframe pageLimit rangeStart rangeEnd) s s' :=
      .of_candles rfl (Nat.le_succ _)
    exact hturn.trans ih
  | case5 since empties total s hlt turn s' fetched hfetch candles hne complete last hlast stored
      s'' hinsert hback =>
    have hpage : Stores _ s (bulkInsertCandles complete s').2 :=
      stores_page env symbol timeframe rangeStart rangeEnd hfetch
    rw [hinsert] at hpage
    exact hpage
  | case6 since empties total s hlt turn s' fetched hfetch candles hne complete last hlast stored
      s'' hinsert hback ih =>
    have hpage : Stores _ s (bulkInsertCandles complete s').2 :=
      stores_page env symbol timeframe rangeStart rangeEnd hfetch
    rw [hinsert] at hpage
    exact hpage.trans ih
  | case7 => exact Stores.of_candles rfl le_rfl
  | _ => exact Stores.of_candles rfl (Nat.le_succ _)

/-- A requested candle that a page shows, closed by the clock of its turn. -/
structure PassedFilter (pageLimit : ℕ) (start end_ : Datetime) (s : Session) (n : ℕ)
    (c : OHLCV) : Prop where
  fetched : ∃ since candles, env.fetchOhlcv n symbol timeframe since pageLimit = some candles ∧
    c ∈ candles
  requested : Requested symbol timeframe start end_ s c.timestamp
  closed : c.timestamp + interval timeframe ≤ env.utcnow n

theorem backfillHistorical_stores (start end_ : Datetime) (pageLimit : ℕ) (s : Session) :
    Stores (PassedFilter env symbol timeframe pageLimit start end_ s) s
      (backfillHistorical env symbol timeframe start pageLimit s).2 := by
  have hI := interval_pos timeframe
  unfold backfillHistorical
  split
  · rename_i u hmin
    split
    · refine (backfillLoop_stores ..).mono fun n c h => ⟨h.fetched, ⟨h.start_le, ?_⟩, h.closed⟩
      have hle := h.le_end
      exact Or.inr ⟨u, hmin, by lia⟩
    · exact Stores.of_candles rfl le_rfl
  · exact Stores.of_candles rfl le_rfl

/-- **A backfill stores requested candles that its pages show closed.** -/
theorem backfill_stores (start end_ : Datetime) (pageLimit : ℕ) (s : Session) :
    Stores (PassedFilter env symbol timeframe pageLimit start end_ s) s
      (backfill env symbol timeframe start end_ pageLimit s).2 := by
  have hhistorical := backfillHistorical_stores env symbol timeframe start end_ pageLimit s
  have hforward : ∀ mid, Stores (PassedFilter env symbol timeframe pageLimit start end_ s) mid
      (backfillRange env symbol timeframe (forwardStart symbol timeframe start s) end_ pageLimit
        mid).2 := by
    intro mid
    refine (backfillLoop_stores ..).mono fun n c h => ⟨h.fetched, ⟨?_, Or.inl h.le_end⟩, h.closed⟩
    exact (le_forwardStart symbol timeframe start s).trans h.start_le
  unfold backfill
  rcases hr : backfillHistorical env symbol timeframe start pageLimit s with ⟨_ | total, mid⟩
  · rw [hr] at hhistorical
    exact hhistorical
  · rw [hr] at hhistorical
    dsimp only
    split
    · have hrange := hhistorical.trans (hforward mid)
      rcases hf : backfillRange env symbol timeframe (forwardStart symbol timeframe start s) end_
        pageLimit mid with ⟨_ | stored, s'⟩
      all_goals
        rw [hf] at hrange
        exact hrange
    · exact hhistorical

end Backfill

/-! ## Final candles -/

namespace LiveExchange

variable {ex : LiveExchange} {symbol timeframe : String} {s s' : Session} {n : ℕ} {c : OHLCV}

/-- A candle shown after it closed is the final one. -/
theorem final_of_closed
    (hshown : c = ex.candleAt symbol timeframe c.timestamp (ex.answeredAt n))
    (hclosed : ex.ClosedWhenAnswered n timeframe c) :
    c.toRow = (ex.finalCandle c.toRow.symbol c.toRow.timeframe c.toRow.timestamp).toRow := by
  have hfinal : c = ex.finalCandle symbol timeframe c.timestamp :=
    hshown.trans (ex.closed symbol timeframe c.timestamp _ hclosed)
  obtain ⟨hsymbol, htimeframe⟩ := ex.labelled symbol timeframe c.timestamp
  have hlabels : c.toRow.symbol = symbol ∧ c.toRow.timeframe = timeframe :=
    ⟨(congrArg OHLCV.symbol hfinal).trans hsymbol,
      (congrArg OHLCV.timeframe hfinal).trans htimeframe⟩
  rw [hlabels.1, hlabels.2]
  exact congrArg OHLCV.toRow hfinal

/-- New rows that are final keep a table of final rows. -/
theorem AllFinal.of_stores {P : ℕ → OHLCV → Prop} (hs : ex.AllFinal s) (h : Stores P s s')
    (hfinal : ∀ n c, s.turn ≤ n → n < s'.turn → P n c → s.IsNew c →
      c.toRow = (ex.finalCandle c.toRow.symbol c.toRow.timeframe c.toRow.timestamp).toRow) :
    ex.AllFinal s' := by
  intro r hr
  rcases h.stored r hr with hr | ⟨n, c, hle, hlt, hP, hnew, rfl⟩
  · exact hs r hr
  · exact hfinal n c hle hlt hP hnew

theorem backfill_final {start end_ : Datetime} {pageLimit : ℕ} (hs : ex.AllFinal s)
    (h : ex.BackfillSettles symbol timeframe start end_ pageLimit s
      (backfill ex.toEnvironment symbol timeframe start end_ pageLimit s).2) :
    ex.AllFinal (backfill ex.toEnvironment symbol timeframe start end_ pageLimit s).2 := by
  refine hs.of_stores (backfill_stores ..) fun n c hle hlt hP hnew => ?_
  obtain ⟨since, candles, hfetch, hc⟩ := hP.fetched
  have hclosed := h n since candles hle hlt hfetch c hc hP.requested hnew hP.closed
  exact final_of_closed (ex.shown n symbol timeframe since pageLimit candles hfetch c hc) hclosed

theorem fetch_shown {since : Option Datetime} {limit : ℕ} {candles : List OHLCV}
    (h : ex.fetch n symbol timeframe since limit = some candles) (hc : c ∈ candles) :
    c = ex.candleAt symbol timeframe c.timestamp (ex.answeredAt n) := by
  unfold fetch at h
  split at h
  · exact ex.shown n symbol timeframe _ limit candles h c hc
  · exact ex.shownLatest n symbol timeframe limit candles h c hc

/-- `fetch_and_store_candles` stores the whole response. -/
theorem fetchAndStoreCandles_stores (symbol timeframe : String) (since : Option Datetime)
    (limit : ℕ) (s : Session) :
    Stores (fun n c => n = s.turn ∧
        ∃ candles, ex.fetch s.turn symbol timeframe since limit = some candles ∧ c ∈ candles) s
      (ex.fetchAndStoreCandles symbol timeframe since limit s).2 := by
  cases hfetch : ex.fetch s.turn symbol timeframe since limit with
  | none =>
    simp only [fetchAndStoreCandles, hfetch]
    exact Stores.of_candles rfl (Nat.le_succ _)
  | some candles =>
    simp only [fetchAndStoreCandles, hfetch]
    exact Stores.page fun c hc => ⟨rfl, candles, rfl, hc⟩

/-- **A call that settles keeps the table final.** -/
theorem step_final (s : Session) (call : Call) (hs : ex.AllFinal s) (h : ex.Settles s call) :
    ex.AllFinal (ex.step s call) := by
  match call with
  | .backfill symbol timeframe start (some end_) pageLimit => exact backfill_final hs h
  | .backfill symbol timeframe start none pageLimit =>
    exact backfill_final (s := { s with turn := s.turn + 1 }) hs h
  | .fetchAndStoreCandles symbol timeframe since limit =>
    refine hs.of_stores (fetchAndStoreCandles_stores symbol timeframe since limit s)
      fun n c _ _ hP hnew => ?_
    obtain ⟨rfl, candles, hfetch, hc⟩ := hP
    exact final_of_closed (fetch_shown hfetch hc) (h candles hfetch c hc hnew)

/-- **A row is never changed.** What a call finds stored it leaves stored. -/
theorem step_keeps (s : Session) (call : Call) : ∀ r ∈ s.candles, r ∈ (ex.step s call).candles := by
  match call with
  | .backfill symbol timeframe start (some end_) pageLimit =>
    exact (backfill_stores ..).kept
  | .backfill symbol timeframe start none pageLimit =>
    exact (backfill_stores ex.toEnvironment symbol timeframe start (ex.utcnow s.turn) pageLimit
      { s with turn := s.turn + 1 }).kept
  | .fetchAndStoreCandles symbol timeframe since limit =>
    exact (fetchAndStoreCandles_stores symbol timeframe since limit s).kept

/-- **Stored candles are final** in every state of every run of backfills and fetches in which no
new candle gets past a call that was still forming when its response was produced. -/
theorem stored_final (ex : LiveExchange) (calls : List Call) (s : Session) (hs : ex.AllFinal s)
    (h : Guarded ex.step ex.Settles s calls) : Always ex.step ex.AllFinal s calls :=
  Always.of_guarded step_final hs h

/-- A backfill settles when its clock is read at the time of the response, on a timeframe whose
length the program knows. -/
theorem backfillSettles_of_prompt {start end_ : Datetime} {pageLimit : ℕ} {d : Timedelta}
    (hknown : timeframeToTimedelta timeframe = some d)
    (hprompt : ∀ n, ex.answeredAt n = ex.utcnow n) :
    ex.BackfillSettles symbol timeframe start end_ pageLimit s s' := by
  intro n since candles _ _ _ c _ _ _ hclosed
  have hduration : ex.duration timeframe = interval timeframe := by
    rw [ex.duration_known timeframe d hknown, interval, hknown, Option.getD_some]
  rw [ClosedWhenAnswered, hduration, hprompt n]
  exact hclosed

/-! ## One candle -/

/-- A candle that opens at 100 and closes at the given price. -/
def movingCandle (symbol timeframe : String) (timestamp : Datetime) (close : ℚ) : OHLCV :=
  { timestamp, open_ := 100, high := 105, low := 100, close, volume := 1, timeframe, symbol }

/-- An exchange with one candle, which opens at 0, stands at 100 while it forms and closes at
105. -/
def oneCandle (answeredAt utcnow : ℕ → Datetime) (h : ∀ n, answeredAt n ≤ utcnow n) :
    LiveExchange where
  fetchOhlcv n symbol timeframe since _ := some <|
    if since ≤ 0 then
      [movingCandle symbol timeframe 0 (if interval timeframe ≤ answeredAt n then 105 else 100)]
    else []
  fetchLatest n symbol timeframe _ := some
    [movingCandle symbol timeframe 0 (if interval timeframe ≤ answeredAt n then 105 else 100)]
  utcnow
  answeredAt
  answered_le := h
  duration := interval
  duration_known timeframe d hd := by rw [interval, hd, Option.getD_some]
  candleAt symbol timeframe timestamp t := movingCandle symbol timeframe timestamp
    (if timestamp + interval timeframe ≤ t then 105 else 100)
  finalCandle symbol timeframe timestamp := movingCandle symbol timeframe timestamp 105
  labelled _ _ _ := ⟨rfl, rfl⟩
  closed symbol timeframe timestamp t ht := by rw [if_pos ht]
  shown n symbol timeframe since limit candles hfetch c hc := by
    obtain rfl := Option.some.inj hfetch
    split at hc
    · rw [List.mem_singleton.1 hc]
      simp [movingCandle]
    · cases hc
  shownLatest n symbol timeframe limit candles hfetch c hc := by
    obtain rfl := Option.some.inj hfetch
    rw [List.mem_singleton.1 hc]
    simp [movingCandle]

instance (ex : LiveExchange) (s : Session) : Decidable (ex.AllFinal s) :=
  inferInstanceAs (Decidable (∀ r ∈ s.candles, _))

/-- The exchange answers an hour after the candle closed. -/
def fetchedLate : LiveExchange :=
  oneCandle (fun _ => Timedelta.hours 5) (fun _ => Timedelta.hours 5) fun _ => le_rfl

/-- Answered after five hours, the calls store the final candle. -/
theorem stored_final_closed : fetchedLate.AllFinal {} ∧
    Always fetchedLate.step fetchedLate.AllFinal {}
      [.backfill "BTC/USDT" "4h" 0 none 10, .fetchAndStoreCandles "BTC/USDT" "4h" none 10] := by
  have hempty : fetchedLate.AllFinal {} := by decide +kernel
  refine ⟨hempty, stored_final fetchedLate _ {} hempty ⟨?_, ?_, trivial⟩⟩
  · exact backfillSettles_of_prompt rfl fun _ => rfl
  · intro candles hfetch c hc _
    obtain rfl := Option.some.inj hfetch
    rw [List.mem_singleton.1 hc]
    show 0 + interval "4h" ≤ Timedelta.hours 5
    decide

/-- The exchange answers an hour after the candle opened. -/
def fetchedEarly : LiveExchange :=
  oneCandle (fun _ => Timedelta.hours 1) (fun _ => Timedelta.hours 1) fun _ => le_rfl

/-- The first response is produced a second before the candle closes, and the clock is read two
seconds later. -/
def filteredLate : LiveExchange :=
  oneCandle (fun n => if n = 0 then Timedelta.seconds 14399 else Timedelta.hours 5)
    (fun n => if n = 0 then Timedelta.seconds 14401 else Timedelta.hours 5)
    (fun n => by split <;> decide)

/-- Both entry points store the forming candle, and fetching the closed one afterwards does not
repair it. -/
theorem forming_candle_stored :
    ¬fetchedEarly.AllFinal (run fetchedEarly.step {}
      [.fetchAndStoreCandles "BTC/USDT" "4h" none 10]) ∧
    ¬filteredLate.AllFinal (run filteredLate.step {}
      [.backfill "BTC/USDT" "4h" 0 (some (Timedelta.hours 4)) 10,
        .fetchAndStoreCandles "BTC/USDT" "4h" none 10]) := by
  constructor <;> decide +kernel

end LiveExchange

end AlphaOne.MarketData
