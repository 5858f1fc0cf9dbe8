import AlphaOne.Foundations.ExpiringCache
import Mathlib.Algebra.Order.Field.Rat
import Mathlib.Tactic.Linarith

/-!
# The USDT/INR rate

`services/exchange/fx.py`. The rate of the public ticker is kept for thirty seconds in one variable
that all callers share, and a caller that finds it too old fetches a new one: between its look at
the variable and its write other callers run. Times are seconds since the epoch.

`rates_are_genuine` says what the callers are given in any such run.
-/

namespace AlphaOne.Exchange

open Foundations

/-- `STALE_AFTER_SECONDS`. -/
def rateStaleAfterSeconds : ℚ := 300

/-- `CACHE_TTL_SECONDS`. -/
def rateCacheTtlSeconds : ℚ := 30

/-- `USDT_INR_MARKET`. -/
def usdtInrMarket : String := "USDTINR"

/-- `CONVERSION_SOURCE`. -/
def conversionSource : String := "CoinDCX USDT/INR spot ticker"

structure ConversionRate where
  rate : ℚ
  rateTimestamp : ℚ
  fetchedAt : ℚ
  source : String := conversionSource
  deriving DecidableEq, Repr

inductive ConversionStatus
  | live
  | stale
  | unavailable
  deriving DecidableEq, Repr

/-- `ConversionRate.status`. -/
def ConversionRate.status (r : ConversionRate) (now : ℚ) : ConversionStatus :=
  if rateStaleAfterSeconds < now - r.fetchedAt then .stale else .live

/-- A row of the public ticker. -/
structure SpotRow where
  market : Option String
  /-- `float(row["last_price"])`, where it does not raise. -/
  lastPrice : Option ℚ
  /-- `row.get("timestamp")`, if there is one, and `float` of it, where that does not raise. -/
  timestamp : Option (Option ℚ) := none
  deriving DecidableEq, Repr

/-- How a request for the ticker ends. -/
inductive SpotTicker
  | rows (rows : List SpotRow)
  /-- One of the exceptions that are caught. -/
  | failed
  deriving DecidableEq, Repr

/-- What `get_usdt_inr_rate` makes of the ticker it has asked for at `now`. -/
def rateOfTicker (now : ℚ) : SpotTicker → Option ConversionRate
  | .failed => none
  | .rows rows => do
    let row ← rows.find? (·.market = some usdtInrMarket)
    let rate ← row.lastPrice
    let rateTimestamp ← row.timestamp.getD (some now)
    pure { rate, rateTimestamp, fetchedAt := now }

/-- The cache of the rate: it has one slot. -/
def rateCache : CachePolicy Unit Unit SpotTicker ConversionRate ℚ where
  slot _ := ()
  fresh now r := now - r.fetchedAt < rateCacheTtlSeconds
  accept _ askedAt _ ticker := rateOfTicker askedAt ticker

/-- `get_usdt_inr_rate` of a caller that nobody interrupts, with `_cache` before and after it. -/
def getUsdtInrRate (cache : Option ConversionRate) (now : ℚ) (ticker : SpotTicker) :
    Option ConversionRate × Option ConversionRate :=
  let call := rateCache.get (fun _ => cache) () false now now ticker
  (call.1, call.2 ())

/-- `convert_usdt_to_inr`. -/
def convertUsdtToInr (amountUsdt : Option ℚ) (rate : Option ConversionRate) : Option ℚ :=
  match amountUsdt, rate with
  | some amountUsdt, some rate => some (amountUsdt * rate.rate)
  | _, _ => none

structure ConversionMeta where
  conversionRate : Option ℚ
  conversionTimestamp : Option ℚ
  conversionSource : Option String
  conversionStatus : ConversionStatus
  deriving DecidableEq, Repr

/-- `conversion_meta`, at the time `now`. -/
def conversionMeta (rate : Option ConversionRate) (now : ℚ) : ConversionMeta :=
  match rate with
  | none => ⟨none, none, none, .unavailable⟩
  | some r => ⟨some r.rate, some r.rateTimestamp, some r.source, r.status now⟩

/-! ## What the callers are given -/

/-- The ticker quotes the rate: it is the price of the first row of the market. -/
def Quotes (ticker : SpotTicker) (rate : ℚ) : Prop :=
  ∃ before row after, ticker = .rows (before ++ row :: after) ∧
    (∀ r ∈ before, r.market ≠ some usdtInrMarket) ∧ row.market = some usdtInrMarket ∧
      row.lastPrice = some rate

/-- A rate is made of a ticker that quotes it, and carries the time at which it was asked for. -/
theorem quotes_of_rateOfTicker {now : ℚ} {ticker : SpotTicker} {r : ConversionRate}
    (h : rateOfTicker now ticker = some r) : r.fetchedAt = now ∧ Quotes ticker r.rate := by
  cases ticker with
  | failed => cases h
  | rows rows =>
    simp only [rateOfTicker, Option.bind_eq_bind, Option.pure_def, Option.bind_eq_some_iff,
      Option.some.injEq] at h
    obtain ⟨row, hrow, rate, hrate, stamp, -, rfl⟩ := h
    obtain ⟨hmarket, before, after, rfl, hbefore⟩ := List.find?_eq_some_iff_append.1 hrow
    refine ⟨rfl, before, row, after, rfl, fun r hr => ?_, by simpa using hmarket, hrate⟩
    simpa using hbefore r hr

/-- What holds of an answer: a rate that some ticker has quoted, no more than thirty seconds old
when it was asked for, and the same ticker for everything that is converted with it; or, where no
rate is given, the caller's own request has failed. -/
structure AnswerGenuine (responses : List (CacheResponse Unit SpotTicker ℚ))
    (a : CacheAnswer Unit ConversionRate ℚ) : Prop where
  quoted : ∀ v, a.value = some v → ∃ r ∈ responses, Quotes r.response v.rate ∧
    r.request.askedAt = v.fetchedAt ∧ r.answeredAt ≤ a.servedAt
  age : ∀ v, a.value = some v → v.fetchedAt ≤ a.request.askedAt ∧
    a.request.askedAt < v.fetchedAt + rateCacheTtlSeconds
  shownLive : ∀ v, a.value = some v → ∀ t,
    t ≤ a.request.askedAt + (rateStaleAfterSeconds - rateCacheTtlSeconds) →
      (conversionMeta a.value t).conversionStatus = .live
  refused : a.value = none →
    ∃ r ∈ responses, r.request = a.request ∧ rateOfTicker r.request.askedAt r.response = none

theorem AnswerGenuine.of_sound {s : CacheSystem Unit Unit SpotTicker ConversionRate ℚ}
    (hs : s.Sound rateCache) {a : CacheAnswer Unit ConversionRate ℚ} (ha : a ∈ s.answers) :
    AnswerGenuine s.responses a := by
  have hvalue : ∀ v, a.value = some v → (∃ r ∈ s.responses, Quotes r.response v.rate ∧
      r.request.askedAt = v.fetchedAt ∧ r.answeredAt ≤ a.servedAt) ∧
      v.fetchedAt ≤ a.request.askedAt ∧ a.request.askedAt < v.fetchedAt + rateCacheTtlSeconds := by
    intro v hv
    rcases hs.answers a ha with ⟨-, hat, w, hw, hfresh, r, hr, -, haccept, hby⟩ |
      ⟨-, r, hr, hown, hat, haccept⟩
    · obtain rfl : v = w := Option.some.inj (hv.symm.trans hw)
      obtain ⟨hstamp, hquotes⟩ := quotes_of_rateOfTicker haccept
      have hle := hs.responses r hr
      have hage : a.servedAt - v.fetchedAt < rateCacheTtlSeconds := of_decide_eq_true hfresh
      refine ⟨⟨r, hr, hquotes, hstamp.symm, hby⟩, ?_, ?_⟩
      · rw [hstamp, ← hat]
        exact hle.trans hby
      · rw [← hat]
        linarith
    · rw [hv] at haccept
      obtain ⟨hstamp, hquotes⟩ := quotes_of_rateOfTicker haccept
      refine ⟨⟨r, hr, hquotes, hstamp.symm, hat.le⟩, ?_, ?_⟩
      · rw [hstamp, hown]
      · rw [hstamp, hown, rateCacheTtlSeconds]
        linarith
  refine ⟨fun v hv => (hvalue v hv).1, fun v hv => (hvalue v hv).2, fun v hv t ht => ?_,
    fun hv => ?_⟩
  · have hage := (hvalue v hv).2.2
    rw [hv]
    exact if_neg (by linarith)
  · rcases hs.answers a ha with ⟨-, -, w, hw, -⟩ | ⟨-, r, hr, hown, -, haccept⟩
    · rw [hv] at hw
      cases hw
    · exact ⟨r, hr, hown, haccept.trans hv⟩

/-- The function is the moves of a caller that nobody interrupts. -/
theorem getUsdtInrRate_alone {s : CacheSystem Unit Unit SpotTicker ConversionRate ℚ}
    (h : s.pending = []) (now : ℚ) (ticker : SpotTicker) :
    let after := run (CacheSystem.step rateCache) s [.ask () false now, .respond 0 now ticker]
    let call := getUsdtInrRate (s.slots ()) now ticker
    after.slots () = call.2 ∧ after.pending = [] ∧
      after.answers.map CacheAnswer.value = s.answers.map CacheAnswer.value ++ [call.1] := by
  have hrun := CacheSystem.run_get rateCache h () false now now ticker
  exact ⟨congrFun hrun.1 (), hrun.2⟩

/-- **No caller is given a rate that is made up or old**, however the calls interleave. -/
theorem rates_are_genuine {moves : List (CacheMove Unit SpotTicker ℚ)}
    (hsorted : (moves.map CacheMove.time).Pairwise (· ≤ ·)) :
    Always (CacheSystem.step rateCache) (fun s => ∀ a ∈ s.answers, AnswerGenuine s.responses a)
      CacheSystem.empty moves :=
  (CacheSystem.Sound.always hsorted).mono fun _ hs _ ha => .of_sound hs ha

/-- Two callers at once: the second is answered first, and the first overwrites its rate. A third
finds that older rate, and it is still fresh. -/
def overlappingCalls : List (CacheMove Unit SpotTicker ℚ) :=
  let quote (rate : ℚ) : SpotTicker := .rows [⟨some usdtInrMarket, some rate, none⟩]
  [.ask () false 0, .ask () false 4, .respond 1 5 (quote 84), .respond 0 9 (quote 83),
    .ask () false 20]

theorem rates_are_genuine_overlapping :
    (run (CacheSystem.step rateCache) CacheSystem.empty overlappingCalls).answers.map
        (fun a => a.value.map ConversionRate.rate) = [some 84, some 83, some 83] ∧
      Always (CacheSystem.step rateCache) (fun s => ∀ a ∈ s.answers, AnswerGenuine s.responses a)
        CacheSystem.empty overlappingCalls :=
  ⟨by decide +kernel, rates_are_genuine (by decide +kernel)⟩

end AlphaOne.Exchange
