import AlphaOne.Backtester.Engine

/-!
# Triple-barrier labels

`ml/labeling.py`. For every bar, a long and a short trade are entered at the next bar, with a stop
and a target at multiples of the bar's ATR, and followed for `horizon_bars` bars more: the label
says which of the two, if only one, touches its target before its stop.

The loop over the horizon finds the first touch of each trade (`hits_eq`).
-/

namespace AlphaOne.ML

open Foundations Backtester

/-- The feature columns of a row; `none` is a NaN or a column that is missing. -/
abbrev Columns := String → Option ℚ

/-- A column of prices. -/
inductive PriceColumn
  | open_
  | high
  | low
  | close
  deriving DecidableEq, Repr

def PriceColumn.of (col : PriceColumn) (bar : Bar Columns) : ℚ :=
  match col with
  | .open_ => bar.open_
  | .high => bar.high
  | .low => bar.low
  | .close => bar.close

structure TripleBarrierConfig where
  horizonBars : ℕ := 12
  atrCol : String := "atr_14"
  tpAtrMultiple : ℚ := 2
  slAtrMultiple : ℚ := 1
  minRiskReward : ℚ := 3 / 2
  entryCol : PriceColumn := .open_
  deriving DecidableEq, Repr

/-- `min_rr_ok`. -/
def TripleBarrierConfig.MinRrOk (config : TripleBarrierConfig) : Prop :=
  config.minRiskReward ≤ config.tpAtrMultiple / config.slAtrMultiple

instance (config : TripleBarrierConfig) : Decidable config.MinRrOk :=
  inferInstanceAs (Decidable (_ ≤ _))

/-- What a hypothetical trade touches first: `"tp"` or `"sl"`. -/
inductive Touch
  | tp
  | sl
  deriving DecidableEq, Repr

/-- The stop and the target of a trade. -/
structure Barriers where
  stop : ℚ
  target : ℚ
  deriving DecidableEq, Repr

/-- The barriers of a long trade. -/
def longBarriers (config : TripleBarrierConfig) (entryPrice a : ℚ) : Barriers where
  stop := entryPrice - config.slAtrMultiple * a
  target := entryPrice + config.tpAtrMultiple * a

/-- The barriers of a short trade. -/
def shortBarriers (config : TripleBarrierConfig) (entryPrice a : ℚ) : Barriers where
  stop := entryPrice + config.slAtrMultiple * a
  target := entryPrice - config.tpAtrMultiple * a

/-- What a bar touches of a long trade; the stop is tested first. -/
def touchLong (b : Barriers) (bar : Bar Columns) : Option Touch :=
  if bar.low ≤ b.stop then some .sl else if bar.high ≥ b.target then some .tp else none

/-- What a bar touches of a short trade; the stop is tested first. -/
def touchShort (b : Barriers) (bar : Bar Columns) : Option Touch :=
  if bar.high ≥ b.stop then some .sl else if bar.low ≤ b.target then some .tp else none

/-- `long_hit`, `short_hit` and `last_bar_seen`. -/
structure Hits where
  long : Option Touch := none
  short : Option Touch := none
  lastBarSeen : ℕ
  deriving DecidableEq, Repr

/-- The loop over the bars of the horizon, of which the first is at `h`. -/
def followBarriers (long short : Barriers) : List (Bar Columns) → ℕ → Hits → Hits
  | [], _, hits => hits
  | bar :: rest, h, hits =>
    let hits : Hits :=
      { long := hits.long.or (touchLong long bar)
        short := hits.short.or (touchShort short bar)
        lastBarSeen := h }
    if hits.long.isSome ∧ hits.short.isSome then hits
    else followBarriers long short rest (h + 1) hits

/-- The columns that the labels add to a row. -/
structure LabelRow where
  /-- `LONG_LABEL`, `SHORT_LABEL` or `NO_TRADE_LABEL`; a row without one is dropped. -/
  label : Option ℤ := none
  labelOutcome : String := ""
  labelEntryPrice : Option ℚ := none
  labelLongTarget : Option ℚ := none
  labelLongStop : Option ℚ := none
  labelShortTarget : Option ℚ := none
  labelShortStop : Option ℚ := none
  labelEndIdx : ℤ := -1
  deriving DecidableEq, Repr

/-- The bars of the horizon of a trade that is decided at `t`. -/
def horizonOf (config : TripleBarrierConfig) (df : List (Bar Columns)) (t : ℕ) :
    List (Bar Columns) :=
  (df.drop (t + 1)).take (config.horizonBars + 1)

/-- What the two trades touch over the horizon. -/
def hits (config : TripleBarrierConfig) (df : List (Bar Columns)) (t : ℕ) (entryPrice a : ℚ) :
    Hits :=
  followBarriers (longBarriers config entryPrice a) (shortBarriers config entryPrice a)
    (horizonOf config df t) (t + 1) { lastBarSeen := t + 1 }

/-- The label of a favorable long or short trade. -/
def verdict (hits : Hits) : ℤ × String :=
  if hits.long = some .tp ∧ hits.short ≠ some .tp then (1, "long_win")
  else if hits.short = some .tp ∧ hits.long ≠ some .tp then (-1, "short_win")
  else (0, "no_trade")

/-- The body of the loop of `compute_triple_barrier_labels`, at the bar `t`. -/
def labelAt (config : TripleBarrierConfig) (df : List (Bar Columns)) (t : ℕ) : LabelRow :=
  match df[t]?, df[t + 1]? with
  | some bar, some entry =>
    if df.length ≤ t + 1 + config.horizonBars then { labelOutcome := "insufficient_data" }
    else
      match bar.columns config.atrCol with
      | none => { label := some 0, labelOutcome := "no_trade", labelEndIdx := t + 1 }
      | some a =>
        if a ≤ 0 ∨ ¬config.MinRrOk then
          { label := some 0, labelOutcome := "no_trade", labelEndIdx := t + 1 }
        else
          let entryPrice := config.entryCol.of entry
          let long := longBarriers config entryPrice a
          let short := shortBarriers config entryPrice a
          let hits := hits config df t entryPrice a
          { label := some (verdict hits).1
            labelOutcome := (verdict hits).2
            labelEntryPrice := some entryPrice
            labelLongTarget := some long.target
            labelLongStop := some long.stop
            labelShortTarget := some short.target
            labelShortStop := some short.stop
            labelEndIdx := hits.lastBarSeen }
  | _, _ => {}

/-- `compute_triple_barrier_labels`: the rows that have a label, with their positions. -/
def computeTripleBarrierLabels (config : TripleBarrierConfig) (df : List (Bar Columns)) :
    List (ℕ × LabelRow) :=
  ((List.range df.length).map fun t => (t, labelAt config df t)).filter fun r =>
    r.2.label.isSome

/-! ## First touches -/

/-- The loop leaves off once both trades are decided, and then the rest of the horizon could change
neither: each trade's hit is the first touch among the bars, unless it has one already. -/
theorem followBarriers_eq (long short : Barriers) (bars : List (Bar Columns)) (h : ℕ)
    (hits : Hits) : (followBarriers long short bars h hits).long =
        hits.long.or (bars.findSome? (touchLong long)) ∧
      (followBarriers long short bars h hits).short =
        hits.short.or (bars.findSome? (touchShort short)) := by
  induction bars generalizing h hits with
  | nil => simp [followBarriers]
  | cons bar rest ih =>
    have hcons : ∀ f : Bar Columns → Option Touch,
        (bar :: rest).findSome? f = (f bar).or (rest.findSome? f) := by
      intro f
      rw [List.findSome?_cons]
      cases f bar <;> rfl
    rw [followBarriers, hcons, hcons, ← Option.or_assoc, ← Option.or_assoc]
    dsimp only
    split_ifs with hboth
    · obtain ⟨l, hl⟩ := Option.isSome_iff_exists.1 hboth.1
      obtain ⟨r, hr⟩ := Option.isSome_iff_exists.1 hboth.2
      rw [hl, hr]
      exact ⟨rfl, rfl⟩
    · exact ih _ _

/-- **The hits of a label are the first touches of its horizon.** -/
theorem hits_eq (config : TripleBarrierConfig) (df : List (Bar Columns)) (t : ℕ)
    (entryPrice a : ℚ) :
    (hits config df t entryPrice a).long =
        (horizonOf config df t).findSome? (touchLong (longBarriers config entryPrice a)) ∧
      (hits config df t entryPrice a).short =
        (horizonOf config df t).findSome? (touchShort (shortBarriers config entryPrice a)) :=
  followBarriers_eq _ _ _ _ _

end AlphaOne.ML
