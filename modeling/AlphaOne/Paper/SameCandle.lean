import AlphaOne.Paper.Equity
import AlphaOne.Paper.Replay

/-!
# The same candle again

The paper trading job runs every fifteen minutes and shows the trader the newest candle of a
four-hour series, the same one many times. A candle that a trader has processed leaves only
positions it does not touch (`not_touched_after`), and a candle that touches no position of the
book does nothing (`processCandle_of_untouched`), whatever the clock of the risk engine says.

`processCandle_again` is the result for every trader that operations on its book can reach.
-/

namespace AlphaOne.Paper.PaperTrader

open Foundations Risk

variable {candle : Candle} {clock : String → Datetime} {now : Datetime} {t : PaperTrader}
  {pos : PaperPosition} {book : List PaperPosition} {op : BookOp} {ops : List BookOp}

/-- The candle reaches no level of a position of the book. -/
def Untouched (candle : Candle) (book : List PaperPosition) : Prop :=
  ∀ pos ∈ book, ¬pos.Touched candle

/-- Pausing or resuming. -/
def IsSwitch : BookOp → Prop
  | .pause | .resume => True
  | .openPosition _ _ | .enter _ | .candle _ _ => False

instance : DecidablePred IsSwitch
  | .pause => inferInstanceAs (Decidable True)
  | .resume => inferInstanceAs (Decidable True)
  | .openPosition _ _ => inferInstanceAs (Decidable False)
  | .enter _ => inferInstanceAs (Decidable False)
  | .candle _ _ => inferInstanceAs (Decidable False)

/-! ## A candle that touches nothing -/

theorem processPosition_of_not_touched (h : ¬pos.Touched candle) :
    t.processPosition candle now pos = ([], t) := by
  unfold PaperPosition.Touched at h
  push Not at h
  obtain ⟨hstop, htarget⟩ := h
  rw [processPosition, if_neg hstop]
  change takeProfits candle now pos.targetsLeft pos t = ([], t)
  cases hl : pos.targetsLeft with
  | nil => rfl
  | cons target rest =>
    have hmiss : ¬pos.TargetHit candle target := htarget target (by simp [hl])
    rw [takeProfits, if_pos hmiss]

theorem processPositions_of_untouched (h : Untouched candle book) :
    processPositions candle clock book t = ([], t) := by
  induction book with
  | nil => rfl
  | cons pos rest ih =>
    have hpos : t.processPosition candle (clock pos.tradeId) pos = ([], t) :=
      processPosition_of_not_touched (h pos (by simp))
    have hrest := ih fun q hq => h q (by simp [hq])
    simp only [processPositions, hpos, hrest, List.append_nil]

theorem processCandle_of_untouched (h : Untouched candle t.positions) :
    t.processCandle candle clock = ([], t) := by
  rw [processCandle]
  split
  · rfl
  · exact processPositions_of_untouched h

/-! ## What a candle leaves -/

theorem not_touched_after (h : pos ∈ after candle book) : ¬pos.Touched candle := by
  obtain ⟨q, -, hq⟩ := mem_after.1 h
  exact PaperPosition.not_touched_of_react hq

variable (clock) in
/-- A trader that is not paused leaves nothing the candle touches. -/
theorem untouched_processCandle (hu : UniqueKey PaperPosition.tradeId t.positions)
    (hpaused : t.isPaused = false) :
    Untouched candle (t.processCandle candle clock).2.positions := by
  rw [(processCandle_spec candle clock hu hpaused).positions]
  exact fun pos hpos => not_touched_after hpos

theorem bookStep_isSwitch (h : IsSwitch op) :
    t.bookStep op = { t with isPaused := (t.bookStep op).isPaused } := by
  cases op with
  | pause => rfl
  | resume => rfl
  | openPosition => exact h.elim
  | enter => exact h.elim
  | candle => exact h.elim

/-- Pausing and resuming change the switch only. -/
theorem run_isSwitch (h : ∀ op ∈ ops, IsSwitch op) :
    run bookStep t ops = { t with isPaused := (run bookStep t ops).isPaused } := by
  induction ops generalizing t with
  | nil => rfl
  | cons op rest ih =>
    rw [run_cons]
    have hrest := ih (t := t.bookStep op) fun o ho => h o (by simp [ho])
    rw [bookStep_isSwitch (h op (by simp))] at hrest ⊢
    exact hrest

/-- **The same candle again changes nothing.** Of every trader that is reached by operations on its
book, and every candle: a second call with the candle emits no event and leaves the trader as it
is. When the first call was not made to a paused trader, this stays so however often it is paused
and resumed in between. -/
theorem processCandle_again (config : RiskConfig) (initialEquity : ℚ) (today : ℤ)
    (ops : List BookOp) (candle : Candle) (clock clock' : String → Datetime) :
    let t := run bookStep (new config initialEquity today) ops
    let t' := (t.processCandle candle clock).2
    t'.processCandle candle clock' = ([], t') ∧
    (t.isPaused = false → ∀ switches : List BookOp, (∀ op ∈ switches, IsSwitch op) →
      (run bookStep t' switches).processCandle candle clock' =
        ([], { t' with isPaused := (run bookStep t' switches).isPaused })) := by
  intro t t'
  have hnew : UniqueKey PaperPosition.tradeId (new config initialEquity today).positions :=
    List.nodup_nil
  have hunique : UniqueKey PaperPosition.tradeId t.positions :=
    (Always.of_step (P := fun t : PaperTrader => UniqueKey PaperPosition.tradeId t.positions)
      (fun _ op ht => bookStep_uniqueKey ht op) hnew ops).last
  constructor
  · cases hpaused : t.isPaused with
    | true =>
      have hsame : t' = t := by simp only [t', processCandle, hpaused, if_true]
      rw [hsame, processCandle, if_pos hpaused]
    | false => exact processCandle_of_untouched (untouched_processCandle clock hunique hpaused)
  · intro hpaused switches hswitches
    have hrun := run_isSwitch (t := t') hswitches
    have huntouched : Untouched candle (run bookStep t' switches).positions := by
      rw [hrun]
      exact untouched_processCandle clock hunique hpaused
    rw [processCandle_of_untouched huntouched]
    exact congrArg (Prod.mk []) hrun

section Example

/-- A trader with a position of two targets, 110 and 120. -/
def scaledOut : List BookOp :=
  [.openPosition { longSignal 90 with takeProfit2 := some 120 } 0]

/-- The candle takes the first target once: half of the position is sold by the first call, and a
call after a pause does nothing. -/
theorem processCandle_again_scaledOut :
    let t := run bookStep (new {} 10000 0) scaledOut
    let first := t.processCandle targetCandle fun _ => 1
    (first.1.map PaperEvent.quantity, first.2.positions.map PaperPosition.remainingQuantity) =
      ([5 / 2], [5 / 2]) ∧
    ((run bookStep first.2 [.pause, .resume]).processCandle targetCandle fun _ => 2).1 = [] :=
  ⟨by decide +kernel,
    congrArg Prod.fst
      ((processCandle_again {} 10000 0 scaledOut targetCandle (fun _ => 1) (fun _ => 2)).2
        (by decide +kernel) [.pause, .resume] (by decide))⟩

end Example

end AlphaOne.Paper.PaperTrader
