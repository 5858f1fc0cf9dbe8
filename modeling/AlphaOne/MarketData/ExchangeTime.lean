import AlphaOne.MarketData.FundingBackfill
import AlphaOne.MarketData.Milliseconds
import AlphaOne.MarketData.Paging

/-!
# Exchange time

`services/market_data/binance.py`: the exchange counts milliseconds since the epoch, the program
keeps naive UTC datetimes. Coming from the exchange a time is read as UTC (`_ms_to_utc_naive`);
going to it, `since.timestamp()` reads the naive datetime in the zone of the host. Both go through
a double.

`roundTrips_iff` says for which hosts and times the one conversion undoes the other.
-/

namespace AlphaOne

/-- The zone of the host: what its clock reads at each second of UTC, both in seconds since
1970-01-01T00:00:00. -/
abbrev Zone := ℤ → ℤ

/-! ## `datetime.timestamp` of a naive datetime -/

namespace Datetime

section Mktime

variable (zone : Zone) (fold : Bool)

/-- `local`: what the clock reads at the second `u` of UTC, `none` when that is not in a year from 1
to 9999 and a `ValueError` is raised. -/
def localSeconds (u : ℤ) : Option ℤ :=
  if InRange (Timedelta.seconds (zone u)) then some (zone u) else none

/-- A day (`max_fold_seconds`) before `u`, or after it in a fold. -/
def dayAway (u : ℤ) : ℤ := if fold then u + 86400 else u - 86400

/-- The end of `_mktime`: the solution for the offset `b`, or the first solution `u₁` if the clock
reads `t` there, or one of the two in a gap. -/
def secondGuess (t u₁ t₁ b : ℤ) : Option ℤ := do
  let u₂ := t - b
  let t₂ ← localSeconds zone u₂
  if t₂ = t then return u₂
  if t₁ = t then return u₁
  return if fold then min u₁ u₂ else max u₁ u₂

/-- `_mktime`: the second of UTC at which the clock of the host reads `t`. -/
def mktime (t : ℤ) : Option ℤ := do
  let t₀ ← localSeconds zone t
  let a := t₀ - t
  let u₁ := t - a
  let t₁ ← localSeconds zone u₁
  if t₁ = t then
    let u₂ := dayAway fold u₁
    let t₂ ← localSeconds zone u₂
    let b := t₂ - u₂
    if a = b then return u₁
    secondGuess zone fold t u₁ t₁ b
  else
    secondGuess zone fold t u₁ t₁ (t₁ - u₁)

/-- `since.timestamp()`. -/
def timestamp (since : Datetime) : Option ℚ := do
  let seconds ← mktime zone fold (since / Timedelta.seconds 1)
  return MarketData.timestampAt seconds (since % Timedelta.seconds 1)

/-- The clock of the host reads UTC at the second `t`. Either it reads `t` at `t`, and the other
second at which it might read `t`, found from the offset a day away, is none or reads something
else. Or it never reads `t`, being put forward over it, and was at UTC before (in a fold: is put
back, and at UTC after). -/
def ReadsUtc (t : ℤ) : Prop :=
  (zone t = t ∧ ∃ v, localSeconds zone (dayAway fold t) = some v ∧ (v = dayAway fold t ∨
    ∃ w, localSeconds zone (t - (v - dayAway fold t)) = some w ∧ w ≠ t)) ∨
  ∃ v, localSeconds zone t = some v ∧ (if fold then v < t else t < v) ∧
    localSeconds zone (t - (v - t)) = some (t - (v - t))

end Mktime

variable {zone : Zone} {fold : Bool} {t v u₁ t₁ b : ℤ}

theorem localSeconds_eq_some (h : localSeconds zone t = some v) : zone t = v := by
  unfold localSeconds at h
  split at h
  · exact Option.some.inj h
  · cases h

/-- The whole seconds of a datetime are one. -/
theorem InRange.second {since : Datetime} (h : since.InRange) :
    InRange (Timedelta.seconds (since / Timedelta.seconds 1)) := by
  obtain ⟨hmin, hmax⟩ := h
  unfold InRange Timedelta.seconds
  constructor <;> lia

theorem localSeconds_of_reads (ht : InRange (Timedelta.seconds t)) (h : zone t = t) :
    localSeconds zone t = some t := by
  rw [localSeconds, h, if_pos ht]

/-- Where the clock does not read `t` at `t`, the second guess is `t` in a gap only. -/
theorem secondGuess_eq_some_self_iff (hv : localSeconds zone t = some v) (hne : v ≠ t)
    (hu : u₁ ≠ t) :
    secondGuess zone fold t u₁ t₁ b = some t ↔
      t₁ ≠ t ∧ b = 0 ∧ (if fold then t < u₁ else u₁ < t) := by
  by_cases hb : b = 0
  · subst hb
    simp only [secondGuess, sub_zero, hv, Option.bind_eq_bind, Option.bind_some, if_neg hne]
    by_cases ht : t₁ = t
    · simp [ht, hu]
    · cases fold <;> simp [ht, lt_iff_le_and_ne, hu, hu.symm]
  · have hguess : t - b ≠ t := by omega
    simp only [hb, false_and, and_false, iff_false, secondGuess, Option.bind_eq_bind]
    rcases localSeconds zone (t - b) with _ | t₂
    · simp
    · rw [Option.bind_some]
      split_ifs with h₂ h₁ hf
      · simpa using hguess
      · simpa using hu
      · rcases min_choice u₁ (t - b) with hmin | hmin
        · simpa [hmin] using hu
        · simpa [hmin] using hguess
      · rcases max_choice u₁ (t - b) with hmax | hmax
        · simpa [hmax] using hu
        · simpa [hmax] using hguess

/-- Where the clock reads `t` at `t`, that is the answer unless the second guess is a solution. -/
theorem mktime_of_reads (h : localSeconds zone t = some t) :
    mktime zone fold t = (localSeconds zone (dayAway fold t)).bind fun v =>
      if v = dayAway fold t then some t
      else (localSeconds zone (t - (v - dayAway fold t))).map fun w =>
        if w = t then t - (v - dayAway fold t) else t := by
  simp only [mktime, secondGuess, Option.bind_eq_bind, h, Option.bind_some, sub_self, sub_zero,
    if_true]
  congr 1
  funext v
  by_cases hv : v = dayAway fold t
  · simp [hv]
  · rw [if_neg (by omega), if_neg hv]
    rcases localSeconds zone (t - (v - dayAway fold t)) with _ | w
    · rfl
    · rw [Option.bind_some, Option.map_some]
      split_ifs <;> rfl

/-- Where the clock reads `v` at `t` instead, the answer is not `t` but in a gap next to UTC. -/
theorem mktime_eq_some_self_iff_of_ne (h : localSeconds zone t = some v) (hne : v ≠ t) :
    mktime zone fold t = some t ↔
      (if fold then v < t else t < v) ∧ localSeconds zone (t - (v - t)) = some (t - (v - t)) := by
  have hu : t - (v - t) ≠ t := by omega
  simp only [mktime, Option.bind_eq_bind, h, Option.bind_some]
  rcases h₁ : localSeconds zone (t - (v - t)) with _ | t₁
  · simp
  · rw [Option.bind_some]
    by_cases ht₁ : t₁ = t
    · -- the first solution is found, and it is not `t`
      rw [if_pos ht₁]
      have hnot : ¬some t₁ = some (t - (v - t)) := by simp [ht₁, hu.symm]
      rw [iff_false_right fun hboth => hnot hboth.2]
      rcases localSeconds zone (dayAway fold (t - (v - t))) with _ | t₂
      · simp
      · rw [Option.bind_some]
        split_ifs
        · simpa using hu
        · rw [secondGuess_eq_some_self_iff h hne hu]
          exact fun hguess => hguess.1 ht₁
    · rw [if_neg ht₁, secondGuess_eq_some_self_iff h hne hu, Option.some.injEq, sub_eq_zero]
      cases fold
      · simp only [Bool.false_eq_true, if_false]
        omega
      · simp only [if_true]
        omega

/-- **When a naive datetime is read as UTC.** -/
theorem mktime_eq_some_self_iff (ht : InRange (Timedelta.seconds t)) :
    mktime zone fold t = some t ↔ ReadsUtc zone fold t := by
  by_cases hz : zone t = t
  · have hgap : ¬∃ v, localSeconds zone t = some v ∧ (if fold then v < t else t < v) ∧
        localSeconds zone (t - (v - t)) = some (t - (v - t)) := by
      rintro ⟨v, hv, hlt, -⟩
      rw [← localSeconds_eq_some hv, hz] at hlt
      cases fold <;> exact absurd hlt (lt_irrefl t)
    rw [mktime_of_reads (localSeconds_of_reads ht hz), ReadsUtc, and_iff_right hz, or_iff_left hgap]
    rcases localSeconds zone (dayAway fold t) with _ | v
    · simp
    · by_cases hv : v = dayAway fold t
      · simp [hv]
      · have hguess : t - (v - dayAway fold t) ≠ t := by omega
        simp only [Option.bind_some, Option.some.injEq, exists_eq_left', hv, false_or]
        rcases localSeconds zone (t - (v - dayAway fold t)) with _ | w
        · simp
        · by_cases hw : w = t
          · simpa [hw] using hguess
          · simp [hw]
  · rw [ReadsUtc, or_iff_right fun h => hz h.1]
    rcases h : localSeconds zone t with _ | v
    · simp [mktime, h]
    · have hne : v ≠ t := fun heq => hz ((localSeconds_eq_some h).trans heq)
      rw [mktime_eq_some_self_iff_of_ne h hne]
      simp

end Datetime

namespace MarketData

open Foundations

section

variable (zone : Zone) (fold : Bool)

/-- `int(since.timestamp() * 1000) if since else None`. -/
def sinceMs : Option Datetime → Option (Option ℤ)
  | none => some none
  | some since => do
    let seconds ← since.timestamp zone fold
    return some (toMs seconds)

end

/-! ## The exchange -/

/-- A row of `fetch_ohlcv` of the exchange. -/
structure OhlcvRow where
  ms : ℤ
  open_ : ℚ
  high : ℚ
  low : ℚ
  close : ℚ
  volume : ℚ
  deriving DecidableEq, Repr

/-- An item of `fetch_funding_rate_history` of the exchange. -/
structure FundingItem where
  timestamp : ℤ
  fundingRate : Option ℚ
  deriving DecidableEq, Repr

/-- The exchange behind `ccxt` and the retries, `none` where a call raises in the end. -/
structure Ccxt where
  fetchOhlcv : String → String → Option ℤ → ℕ → Option (List OhlcvRow)
  fetchFundingRateHistory : String → Option ℤ → ℕ → Option (List FundingItem)

/-- A row as a candle of a symbol and a timeframe. -/
def OhlcvRow.toOHLCV (symbol timeframe : String) (timestamp : Datetime) (row : OhlcvRow) : OHLCV :=
  { timestamp
    open_ := row.open_
    high := row.high
    low := row.low
    close := row.close
    volume := row.volume
    timeframe
    symbol }

/-- An item as a funding event of a symbol. -/
def FundingItem.toFundingRate (symbol : String) (timestamp : Datetime) (h : FundingItem) :
    FundingRate :=
  { timestamp, rate := h.fundingRate.getD 0, symbol }

namespace BinanceExchange

variable (zone : Zone) (fold : Bool) (exchange : Ccxt)

/-- `fetch_ohlcv`. `TIMEFRAME_MAP` maps every timeframe to itself. -/
def fetchOhlcv (symbol timeframe : String) (since : Option Datetime) (limit : ℕ) :
    Option (List OHLCV) := do
  let ms ← sinceMs zone fold since
  let raw ← exchange.fetchOhlcv symbol timeframe ms limit
  raw.mapM fun row => do
    return row.toOHLCV symbol timeframe (← msToUtcNaive row.ms)

/-- `fetch_funding_rate_history`. -/
def fetchFundingRateHistory (symbol : String) (since : Option Datetime) (limit : ℕ) :
    Option (List FundingRate) := do
  let ms ← sinceMs zone fold since
  let history ← exchange.fetchFundingRateHistory symbol ms limit
  history.mapM fun h => do
    return h.toFundingRate symbol (← msToUtcNaive h.timestamp)

end BinanceExchange

/-! ## The round trip -/

section RoundTrip

variable {zone : Zone} {fold : Bool} {since : Datetime} {u : ℤ}

/-- The whole second and the microseconds of a time in milliseconds. -/
theorem second_and_micros (hms : 1000 ∣ since) :
    since / Timedelta.seconds 1 = since / 1000 / 1000 ∧
      since % Timedelta.seconds 1 = since / 1000 % 1000 * 1000 := by
  unfold Timedelta.seconds
  constructor <;> lia

theorem sinceMs_of_mktime (hms : 1000 ∣ since)
    (h : Datetime.mktime zone fold (since / Timedelta.seconds 1) = some u) :
    sinceMs zone fold (some since) =
      some (some (toMs (timestampAt u (since / 1000 % 1000 * 1000)))) := by
  rw [← (second_and_micros hms).2]
  simp [sinceMs, Datetime.timestamp, h]

/-- The round trip of a time: what is sent for `since` is read back as `since`, and so a page from
there on does not start after the candle that opens then. -/
def RoundTrips (zone : Zone) (fold : Bool) (since : Datetime) : Prop :=
  ∃ ms : ℤ, sinceMs zone fold (some since) = some (some ms) ∧ msToUtcNaive ms = some since ∧
    ∀ opens : ℤ, msToUtcNaive opens = some since → ms ≤ opens

/-- Where the clock reads UTC and the double is near enough, the milliseconds of `since` are
sent. -/
theorem sinceMs_of_readsUtc (hrange : since.InRange) (hms : 1000 ∣ since)
    (h : Datetime.ReadsUtc zone fold (since / Timedelta.seconds 1))
    (hsent : SentExactly (since / 1000)) :
    sinceMs zone fold (some since) = some (some (since / 1000)) := by
  have hutc := (Datetime.mktime_eq_some_self_iff hrange.second).2 h
  have hsmall : (since / 1000).natAbs < 2 ^ 48 :=
    natAbs_lt_of_inRange (by rwa [Int.mul_ediv_cancel' hms])
  rw [sinceMs_of_mktime hms hutc, (second_and_micros hms).1,
    (toMs_timestampAt_iff hsmall).2 hsent]

theorem RoundTrips.conditions (h : RoundTrips zone fold since) (hrange : since.InRange)
    (hms : 1000 ∣ since) : Datetime.ReadsUtc zone fold (since / Timedelta.seconds 1) ∧
      SentExactly (since / 1000) ∧ ReadExactly (since / 1000) := by
  obtain ⟨ms, hsent, hback, -⟩ := h
  have hmillis : 1000 * (since / 1000) = since := Int.mul_ediv_cancel' hms
  have hrange' : Datetime.InRange (1000 * (since / 1000)) := hmillis.symm ▸ hrange
  have hsmall := natAbs_lt_of_inRange hrange'
  rw [← hmillis] at hback
  obtain rfl := eq_of_msToUtcNaive hback
  rcases hread : Datetime.mktime zone fold (since / Timedelta.seconds 1) with _ | u
  · simp [sinceMs, Datetime.timestamp, hread] at hsent
  · rw [sinceMs_of_mktime hms hread, Option.some.injEq, Option.some.injEq] at hsent
    obtain rfl := second_eq hsmall hsent
    rw [← (second_and_micros hms).1] at hread
    exact ⟨(Datetime.mktime_eq_some_self_iff hrange.second).1 hread,
      (toMs_timestampAt_iff hsmall).1 hsent, (msToUtcNaive_eq_iff hrange').1 hback⟩

/-- **A time makes the round trip exactly if the clock of the host reads UTC then**, and the doubles
on the way there and back are near enough. -/
theorem roundTrips_iff (zone : Zone) (fold : Bool) (hrange : since.InRange) (hms : 1000 ∣ since) :
    RoundTrips zone fold since ↔ Datetime.ReadsUtc zone fold (since / Timedelta.seconds 1) ∧
      SentExactly (since / 1000) ∧ ReadExactly (since / 1000) := by
  refine ⟨fun h => h.conditions hrange hms, fun ⟨hutc, hsent, hread⟩ => ?_⟩
  have hmillis : 1000 * (since / 1000) = since := Int.mul_ediv_cancel' hms
  refine ⟨since / 1000, sinceMs_of_readsUtc hrange hms hutc hsent, ?_, fun opens hopens => ?_⟩
  · have hback := (msToUtcNaive_eq_iff (hmillis.symm ▸ hrange)).2 hread
    rwa [hmillis] at hback
  · rw [← hmillis] at hopens
    exact (eq_of_msToUtcNaive hopens).ge

/-- Midnight of New Year's Day 2024 on a host in UTC. -/
theorem roundTrips_iff_newYear :
    let since : Datetime := 1704067200000000
    since.InRange ∧ 1000 ∣ since ∧ (RoundTrips id false since ↔
      Datetime.ReadsUtc id false (since / Timedelta.seconds 1) ∧
        SentExactly (since / 1000) ∧ ReadExactly (since / 1000)) := by
  intro since
  have hrange : since.InRange := by decide
  have hms : 1000 ∣ since := by decide
  exact ⟨hrange, hms, roundTrips_iff id false hrange hms⟩

theorem mapM_eq_some_map {α β : Type} {f : α → Option β} {g : α → β} {l : List α}
    (h : ∀ x ∈ l, f x = some (g x)) : l.mapM f = some (l.map g) := by
  induction l with
  | nil => rfl
  | cons x l ih =>
    rw [List.mapM_cons, h x List.mem_cons_self, ih fun y hy => h y (List.mem_cons_of_mem x hy)]
    rfl

/-- A page of rows by their milliseconds, read row by row, is the page of what is read. -/
theorem mapM_page {ρ α : Type} {ms : ρ → ℤ} {read : ρ → Datetime → α} {key : α → Datetime}
    {rows : List ρ} (n : ℤ) (limit : ℕ) (hkey : ∀ row t, key (read row t) = t)
    (hrows : ∀ row ∈ rows, Datetime.InRange (1000 * ms row) ∧ ReadExactly (ms row)) :
    (page ms n limit rows).mapM (fun row => (msToUtcNaive (ms row)).bind fun t =>
        some (read row t)) =
      some (page key (1000 * n) limit (rows.map fun row => read row (1000 * ms row))) := by
  have hcursor : page (fun row => key (read row (1000 * ms row))) (1000 * n) limit rows =
      page ms n limit rows := by
    refine congrArg (List.take limit) (List.filter_congr fun row _ => ?_)
    simp [hkey]
  rw [page_map, hcursor]
  refine mapM_eq_some_map fun row hrow => ?_
  obtain ⟨hrange, hread⟩ := hrows row (page_sublist.subset hrow)
  rw [(msToUtcNaive_eq_iff hrange).2 hread, Option.bind_some]

section Fetch

variable {exchange : Ccxt} {symbol timeframe : String} {limit : ℕ}

/-- **Where a time makes the round trip, the page fetched is the page at `since`.** -/
theorem BinanceExchange.fetchOhlcv_page {rows : List OhlcvRow} (hrange : since.InRange)
    (hms : 1000 ∣ since) (h : RoundTrips zone fold since)
    (hhonest : ∀ ms, exchange.fetchOhlcv symbol timeframe (some ms) limit =
      some (page OhlcvRow.ms ms limit rows))
    (hrows : ∀ row ∈ rows, Datetime.InRange (1000 * row.ms) ∧ ReadExactly row.ms) :
    BinanceExchange.fetchOhlcv zone fold exchange symbol timeframe (some since) limit =
      some (page OHLCV.timestamp since limit
        (rows.map fun row => row.toOHLCV symbol timeframe (1000 * row.ms))) := by
  obtain ⟨hutc, hexact, -⟩ := h.conditions hrange hms
  have hsent := sinceMs_of_readsUtc hrange hms hutc hexact
  obtain ⟨n, rfl⟩ := hms
  rw [Int.mul_ediv_cancel_left n (by norm_num)] at hsent
  simp only [BinanceExchange.fetchOhlcv, hsent, hhonest, Option.bind_eq_bind, Option.bind_some]
  exact mapM_page n limit (fun _ _ => rfl) hrows

/-- **Likewise a page of the funding history.** -/
theorem BinanceExchange.fetchFundingRateHistory_page {items : List FundingItem}
    (hrange : since.InRange) (hms : 1000 ∣ since) (h : RoundTrips zone fold since)
    (hhonest : ∀ ms, exchange.fetchFundingRateHistory symbol (some ms) limit =
      some (page FundingItem.timestamp ms limit items))
    (hitems : ∀ h ∈ items, Datetime.InRange (1000 * h.timestamp) ∧ ReadExactly h.timestamp) :
    BinanceExchange.fetchFundingRateHistory zone fold exchange symbol (some since) limit =
      some (page FundingRate.timestamp since limit
        (items.map fun h => h.toFundingRate symbol (1000 * h.timestamp))) := by
  obtain ⟨hutc, hexact, -⟩ := h.conditions hrange hms
  have hsent := sinceMs_of_readsUtc hrange hms hutc hexact
  obtain ⟨n, rfl⟩ := hms
  rw [Int.mul_ediv_cancel_left n (by norm_num)] at hsent
  simp only [BinanceExchange.fetchFundingRateHistory, hsent, hhonest, Option.bind_eq_bind,
    Option.bind_some]
  exact mapM_page n limit (fun _ _ => rfl) hitems

end Fetch

/-! ## Hosts with a fixed offset -/

/-- A host whose clock is always `offset` seconds ahead of UTC. -/
def fixedOffset (offset : ℤ) : Zone := fun u => u + offset

/-- **In a zone with a fixed offset, no time makes the round trip.** -/
theorem not_roundTrips_fixedOffset {offset : ℤ} (hne : offset ≠ 0) (hrange : since.InRange)
    (hms : 1000 ∣ since) : ¬RoundTrips (fixedOffset offset) fold since := by
  intro h
  rcases (h.conditions hrange hms).1 with ⟨hreads, -⟩ | ⟨v, hv, -, hbefore⟩
  · unfold fixedOffset at hreads
    omega
  · have hv := Datetime.localSeconds_eq_some hv
    have hbefore := Datetime.localSeconds_eq_some hbefore
    unfold fixedOffset at hv hbefore
    omega

/-- **A host five hours behind UTC asks for a later page**: for midnight it sends five in the
morning, and the candle of midnight is not on the page. And on a host in UTC the double of a
millisecond of 2004 is sent as the whole second before it. -/
theorem not_roundTrips :
    let since : Datetime := 1704067200000000
    let since' : Datetime := 1078099200001000
    (sinceMs (fixedOffset (-18000)) false (some since) = some (some (since / 1000 + 18000000)) ∧
      msToUtcNaive (since / 1000 : ℤ) = some since ∧
      ¬RoundTrips (fixedOffset (-18000)) false since) ∧
    sinceMs id false (some since') = some (some (since' / 1000 - 1)) ∧
      msToUtcNaive (since' / 1000 - 1 : ℤ) = some (since' - 1000) ∧
      ¬RoundTrips id false since' := by
  intro since since'
  refine ⟨⟨by decide +kernel, by decide +kernel, ?_⟩, by decide +kernel, by decide +kernel, ?_⟩
  · exact not_roundTrips_fixedOffset (by decide) (by decide) (by decide)
  · intro h
    have hsent := (h.conditions (by decide) (by decide)).2.1
    revert hsent
    decide +kernel

end RoundTrip

end MarketData

end AlphaOne
