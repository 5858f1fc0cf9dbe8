import AlphaOne.Paper.Reaction
import AlphaOne.TelegramSignals.PaperExecution

/-!
# The two equities of the paper trader

The paper trader adds the P&L of each slice to its own equity; its risk engine compounds, when a
trade is closed, the percentage the trade's P&L is of its own notional. `drift` is what the
first has over the second once the slices of open positions are set aside. Only a close changes
it, by the P&L less what the engine makes of it (`processPosition_drift`): nothing, exactly when
the P&L is zero or the notional is the whole equity of the engine (`NoGap`).

* `equities_agree`: in a run whose closes are all of this kind the drift stays zero, so that the
  two equities agree whenever the book is flat.
* When positions are opened only on a flat book, this is exact: the two equities agree in every
  flat state of the run if and only if all closes are of this kind.
-/

namespace AlphaOne.Paper

open Foundations Journal Risk TelegramSignals

/-! ## The P&L a candle closes a position with -/

namespace PaperPosition

/-- `original_notional`. -/
def originalNotional (pos : PaperPosition) : ℚ := pos.entryPrice * pos.quantity

/-- The P&L of the whole trade when what remains is closed at a price. -/
def totalPnlAt (exitPrice : ℚ) (pos : PaperPosition) : ℚ :=
  pos.realizedPnl + (computeSlicePnl pos.side pos.entryPrice exitPrice pos.remainingQuantity
    pos.leverage).pnl

/-- The P&L of the trade when the candle's way through the targets left closes it. -/
def targetsPnl (candle : Candle) : List ℚ → PaperPosition → Option ℚ
  | [], _ => none
  | target :: rest, pos =>
    if ¬pos.TargetHit candle target then none
    else if rest = [] then some (pos.totalPnlAt target)
    else targetsPnl candle rest (pos.afterSlice target)

/-- The P&L of the trade, if the candle closes it. -/
def closingPnl (candle : Candle) (pos : PaperPosition) : Option ℚ :=
  if pos.StopHit candle then some (pos.totalPnlAt pos.stopLoss)
  else targetsPnl candle pos.targetsLeft pos

/-- The percentage the risk engine is told when the trade is closed with a P&L. -/
def totalPnlPct (pnl : ℚ) (pos : PaperPosition) : ℚ :=
  if pos.originalNotional > 0 then pnl / pos.originalNotional * 100 else 0

/-- The engine gains exactly the P&L: there is none, or the notional is the engine's equity. -/
def NoGap (engineEquity pnl : ℚ) (pos : PaperPosition) : Prop :=
  pnl = 0 ∨ 0 < pos.originalNotional ∧ pos.originalNotional = engineEquity

instance (engineEquity pnl : ℚ) (pos : PaperPosition) : Decidable (pos.NoGap engineEquity pnl) :=
  inferInstanceAs (Decidable (_ ∨ _ ∧ _))

/-- **What the percentage of the notional makes of the engine's equity.** -/
theorem noGap_iff (engineEquity pnl : ℚ) (pos : PaperPosition) :
    pos.NoGap engineEquity pnl ↔
      engineEquity * (1 + pos.totalPnlPct pnl / 100) = engineEquity + pnl := by
  unfold NoGap totalPnlPct
  split_ifs with hpos
  · have hne : pos.originalNotional ≠ 0 := ne_of_gt hpos
    have hgain : engineEquity * (1 + pnl / pos.originalNotional * 100 / 100) =
        engineEquity + engineEquity * pnl / pos.originalNotional := by
      field_simp
    rw [hgain, add_right_inj, div_eq_iff hne, mul_comm pnl]
    constructor
    · rintro (rfl | ⟨-, rfl⟩)
      · simp
      · rfl
    · intro h
      by_cases hpnl : pnl = 0
      · exact Or.inl hpnl
      · exact Or.inr ⟨hpos, (mul_right_cancel₀ hpnl h).symm⟩
  · constructor
    · rintro (rfl | ⟨h, -⟩)
      · simp
      · exact absurd h hpos
    · intro h
      left
      simpa using h

/-- The realized P&L of what is left of a position. -/
def realized? (pos : Option PaperPosition) : ℚ := (pos.map realizedPnl).getD 0

end PaperPosition

/-- The realized P&L of the open positions. -/
def openRealized (book : List PaperPosition) : ℚ := (book.map PaperPosition.realizedPnl).sum

namespace PaperTrader

variable {candle : Candle} {clock : String → Datetime} {now : Datetime} {t : PaperTrader}
  {pos : PaperPosition} {pre post book : List PaperPosition}

/-- The risk engine's equity. -/
abbrev engineEquity (t : PaperTrader) : ℚ := t.riskEngine.state.currentEquity

/-- What the trader's equity has over the engine's, the slices of open positions set aside. -/
def drift (t : PaperTrader) : ℚ := t.equity - openRealized t.positions - t.engineEquity

/-- What treating a position does to the two equities: the P&L of its closed slices is added to
the trader's; the engine is told of a close only. -/
structure Settles (t : PaperTrader) (candle : Candle) (pos : PaperPosition) (closing : Option ℚ)
    (left : Option PaperPosition) (t' : PaperTrader) : Prop where
  open_ : closing = none → t'.equity = t.equity + (PaperPosition.realized? left - pos.realizedPnl) ∧
    t'.engineEquity = t.engineEquity
  closed : ∀ pnl ∈ closing, left = none ∧ t'.equity = t.equity + (pnl - pos.realizedPnl) ∧
    t'.engineEquity = t.engineEquity * (1 + pos.totalPnlPct pnl / 100)

theorem closeRemaining_settles (exitPrice : ℚ) (timestamp : Datetime) (reason : ExitReason) :
    Settles t candle pos (some (pos.totalPnlAt exitPrice)) none
      (t.closeRemaining pos exitPrice timestamp reason now).2 where
  open_ h := by cases h
  closed := by
    rintro _ ⟨⟩
    refine ⟨rfl, ?_, ?_⟩
    · simp only [closeRemaining, PaperPosition.totalPnlAt]
      ring
    · simp only [closeRemaining, engineEquity, RiskEngine.recordPositionClose_currentEquity,
        RiskEngine.recordTradeResult_currentEquity]
      rfl

theorem takeProfits_settles {targets : List ℚ} :
    Settles t candle pos (pos.targetsPnl candle targets) (pos.reactTargets candle targets).2
      (t.takeProfits candle now targets pos).2 := by
  induction targets generalizing t pos with
  | nil => exact ⟨fun _ => ⟨by simp [takeProfits, PaperPosition.reactTargets,
      PaperPosition.realized?], rfl⟩, by simp [PaperPosition.targetsPnl]⟩
  | cons target rest ih =>
    unfold takeProfits PaperPosition.reactTargets PaperPosition.targetsPnl
    split
    · exact ⟨fun _ => ⟨by simp [PaperPosition.realized?], rfl⟩, by simp⟩
    · split
      · exact closeRemaining_settles target candle.timestamp .takeProfit
      · -- The slice's P&L is in the position and in the trader's equity.
        have hslice := @ih ((t.partialExit pos target candle.timestamp pos.nextTargetIdx).2.2.put
          (pos.afterSlice target)) (pos.afterSlice target)
        have hequity : ((t.partialExit pos target candle.timestamp pos.nextTargetIdx).2.2.put
            (pos.afterSlice target)).equity =
            t.equity + ((pos.afterSlice target).realizedPnl - pos.realizedPnl) := by
          simp only [put, partialExit, PaperPosition.afterSlice]
          ring
        refine ⟨fun hopen => ?_, fun pnl hpnl => ?_⟩
        · obtain ⟨he, hengine⟩ := hslice.open_ hopen
          refine ⟨?_, hengine⟩
          rw [hequity] at he
          exact he.trans (by ring)
        · obtain ⟨hleft, he, hengine⟩ := hslice.closed pnl hpnl
          refine ⟨hleft, ?_, hengine⟩
          rw [hequity] at he
          exact he.trans (by ring)

variable (candle now) in
theorem processPosition_settles (t : PaperTrader) (pos : PaperPosition) :
    Settles t candle pos (pos.closingPnl candle) (pos.react candle).2
      (t.processPosition candle now pos).2 := by
  unfold processPosition PaperPosition.closingPnl PaperPosition.react
  split
  · exact closeRemaining_settles pos.stopLoss candle.timestamp .stopLoss
  · exact takeProfits_settles

variable (candle now) in
/-- **Only a close changes the drift**: by the P&L less what the engine makes of it. -/
theorem processPosition_drift (hu : UniqueKey PaperPosition.tradeId t.positions)
    (hpos : t.positions = pre ++ pos :: post) :
    (pos.closingPnl candle = none → (t.processPosition candle now pos).2.drift = t.drift ∧
      (t.processPosition candle now pos).2.engineEquity = t.engineEquity) ∧
    ∀ pnl ∈ pos.closingPnl candle, (t.processPosition candle now pos).2.drift =
        t.drift + (t.engineEquity + pnl - (t.processPosition candle now pos).2.engineEquity) ∧
      (t.processPosition candle now pos).2.engineEquity =
        t.engineEquity * (1 + pos.totalPnlPct pnl / 100) := by
  have hsettles := processPosition_settles candle now t pos
  have hbook := (processPosition_reacted candle now hu hpos).positions
  have hbefore : openRealized t.positions =
      openRealized pre + pos.realizedPnl + openRealized post := by
    simp [hpos, openRealized, add_assoc]
  have hafter : openRealized (t.processPosition candle now pos).2.positions =
      openRealized pre + PaperPosition.realized? (pos.react candle).2 + openRealized post := by
    rw [hbook]
    cases (pos.react candle).2 <;> simp [openRealized, PaperPosition.realized?, add_assoc]
  constructor
  · intro hopen
    obtain ⟨hequity, hengine⟩ := hsettles.open_ hopen
    refine ⟨?_, hengine⟩
    rw [drift, drift, hafter, hbefore, hequity, hengine]
    ring
  · intro pnl hpnl
    obtain ⟨hleft, hequity, hengine⟩ := hsettles.closed pnl hpnl
    refine ⟨?_, hengine⟩
    rw [drift, drift, hafter, hbefore, hequity, hleft]
    simp only [PaperPosition.realized?, Option.map_none, Option.getD_none]
    ring

/-! ## Books -/

/-- The closes of a candle leave no gap: each has no P&L, or the notional of its trade is the
engine's equity at that moment, the earlier closes of the candle included. -/
def FairCloses (candle : Candle) : ℚ → List PaperPosition → Prop
  | _, [] => True
  | engineEquity, pos :: rest =>
    match pos.closingPnl candle with
    | none => FairCloses candle engineEquity rest
    | some pnl => pos.NoGap engineEquity pnl ∧ FairCloses candle (engineEquity + pnl) rest

instance decidableFairCloses (candle : Candle) :
    ∀ engineEquity book, Decidable (FairCloses candle engineEquity book)
  | _, [] => inferInstanceAs (Decidable True)
  | engineEquity, pos :: rest =>
    match h : pos.closingPnl candle with
    | none =>
      have := decidableFairCloses candle engineEquity rest
      decidable_of_iff (FairCloses candle engineEquity rest) (by rw [FairCloses, h])
    | some pnl =>
      have := decidableFairCloses candle (engineEquity + pnl) rest
      decidable_of_iff (pos.NoGap engineEquity pnl ∧ FairCloses candle (engineEquity + pnl) rest)
        (by rw [FairCloses, h])

theorem processPositions_drift {done : List PaperPosition}
    (hu : UniqueKey PaperPosition.tradeId t.positions) (hbook : t.positions = done ++ book)
    (hfair : FairCloses candle t.engineEquity book) :
    (processPositions candle clock book t).2.drift = t.drift := by
  induction book generalizing t done with
  | nil => rfl
  | cons pos rest ih =>
    obtain ⟨hopen, hclosed⟩ := processPosition_drift candle (clock pos.tradeId) hu hbook
    have hu' := processPosition_uniqueKey candle (clock pos.tradeId) hu hbook
    have hbook' := (processPosition_reacted candle (clock pos.tradeId) hu hbook).positions
    rw [FairCloses] at hfair
    cases hc : pos.closingPnl candle with
    | none =>
      rw [hc] at hfair
      obtain ⟨hdrift, hengine⟩ := hopen hc
      exact (ih hu' hbook' (hengine ▸ hfair)).trans hdrift
    | some pnl =>
      rw [hc] at hfair
      obtain ⟨hdrift, hengine⟩ := hclosed pnl hc
      rw [(PaperPosition.noGap_iff _ _ _).1 hfair.1] at hengine
      refine (ih hu' hbook' (hengine ▸ hfair.2)).trans ?_
      rw [hdrift, hengine]
      ring

/-! ## Operations -/

/-- What is done with a paper trader: a signal or a position from elsewhere is taken into the book,
a candle is processed, the trader is paused or resumed. Such a position comes from its constructor,
with nothing realized. -/
inductive BookOp
  | openPosition (signal : Signal) (now : Datetime)
  | enter (position : {p : PaperPosition // p.realizedPnl = 0})
  | candle (candle : Candle) (clock : String → Datetime)
  | pause
  | resume

def bookStep (t : PaperTrader) : BookOp → PaperTrader
  | .openPosition signal now => (t.openPosition signal now).2
  | .enter position => TelegramSignals.enter position t
  | .candle candle clock => (t.processCandle candle clock).2
  | .pause => t.pause
  | .resume => t.resume

/-- An operation that leaves the drift as it is: the closes of a candle leave no gap, and a new
position does not replace one of its id that has realized P&L. -/
def Fair (t : PaperTrader) : BookOp → Prop
  | .openPosition _ _ =>
    ∀ q ∈ t.positions, q.tradeId = paperTradeId (t.tradeCounter + 1) → q.realizedPnl = 0
  | .enter position => ∀ q ∈ t.positions, q.tradeId = position.1.tradeId → q.realizedPnl = 0
  | .candle candle _ => t.isPaused = false → FairCloses candle t.engineEquity t.positions
  | .pause | .resume => True

instance : ∀ (t : PaperTrader) (op : BookOp), Decidable (t.Fair op)
  | _, .openPosition _ _ => inferInstanceAs (Decidable (∀ q ∈ _, _ → _))
  | _, .enter _ => inferInstanceAs (Decidable (∀ q ∈ _, _ → _))
  | _, .candle _ _ => inferInstanceAs (Decidable (_ → _))
  | _, .pause => inferInstanceAs (Decidable True)
  | _, .resume => inferInstanceAs (Decidable True)

/-- Positions are opened on a flat book only. -/
def OnFlat (t : PaperTrader) : BookOp → Prop
  | .openPosition _ _ | .enter _ => t.positions = []
  | .candle _ _ | .pause | .resume => True

instance : ∀ (t : PaperTrader) (op : BookOp), Decidable (t.OnFlat op)
  | t, .openPosition _ _ => inferInstanceAs (Decidable (t.positions = []))
  | t, .enter _ => inferInstanceAs (Decidable (t.positions = []))
  | _, .candle _ _ => inferInstanceAs (Decidable True)
  | _, .pause => inferInstanceAs (Decidable True)
  | _, .resume => inferInstanceAs (Decidable True)

/-- The two equities agree when the book is flat. -/
def AgreesWhenFlat (t : PaperTrader) : Prop := t.positions = [] → t.engineEquity = t.equity

instance (t : PaperTrader) : Decidable t.AgreesWhenFlat :=
  inferInstanceAs (Decidable (t.positions = [] → t.engineEquity = t.equity))

/-- Writing a position over one without realized P&L, or adding it, leaves the sum as it is. -/
theorem openRealized_upsert {p : PaperPosition} (hp : p.realizedPnl = 0)
    (h : ∀ q ∈ book, q.tradeId = p.tradeId → q.realizedPnl = 0) :
    openRealized (upsert PaperPosition.tradeId p book) = openRealized book := by
  unfold upsert openRealized
  split
  · refine congrArg List.sum ?_
    rw [save, List.map_map]
    refine List.map_congr_left fun q hq => ?_
    by_cases hid : q.tradeId = p.tradeId
    · simp [hid, hp, h q hq hid]
    · simp [hid]
  · simp [hp]

theorem openPosition_effect (signal : Signal) (now : Datetime) (t : PaperTrader) :
    (t.openPosition signal now).2.equity = t.equity ∧
      (t.openPosition signal now).2.engineEquity = t.engineEquity ∧
      ((t.openPosition signal now).2.positions = t.positions ∨
        ∃ p : PaperPosition, p.tradeId = paperTradeId (t.tradeCounter + 1) ∧ p.realizedPnl = 0 ∧
          (t.openPosition signal now).2.positions = upsert PaperPosition.tradeId p t.positions) := by
  have hcan : (t.riskEngine.canTrade now).2.state.currentEquity = t.engineEquity :=
    RiskEngine.canTrade_currentEquity _ _
  unfold openPosition
  split
  · exact ⟨rfl, rfl, Or.inl rfl⟩
  · dsimp only
    split
    · exact ⟨rfl, hcan, Or.inl rfl⟩
    · split
      · exact ⟨rfl, hcan, Or.inl rfl⟩
      · exact ⟨rfl, hcan, Or.inr ⟨_, rfl, rfl, rfl⟩⟩

/-- **A fair operation leaves the drift as it is.** -/
theorem bookStep_drift (hu : UniqueKey PaperPosition.tradeId t.positions) {op : BookOp}
    (h : t.Fair op) : (t.bookStep op).drift = t.drift := by
  cases op with
  | openPosition signal now =>
    obtain ⟨hequity, hengine, hsame | ⟨p, hid, hp, hbook⟩⟩ := openPosition_effect signal now t
    · simp only [bookStep, drift, hequity, hengine, hsame]
    · have hsum := openRealized_upsert hp fun q hq hq' => h q hq (hq'.trans hid)
      simp only [bookStep, drift, hequity, hengine, hbook, hsum]
  | enter position =>
    have hsum := openRealized_upsert position.2 h
    simp only [bookStep, drift, enter, engineEquity, hsum,
      RiskEngine.recordPositionOpen_currentEquity]
  | candle candle clock =>
    simp only [bookStep, processCandle]
    cases hpaused : t.isPaused with
    | true => rfl
    | false => exact processPositions_drift hu (List.nil_append _).symm (h hpaused)
  | pause => rfl
  | resume => rfl

theorem bookStep_uniqueKey (hu : UniqueKey PaperPosition.tradeId t.positions) (op : BookOp) :
    UniqueKey PaperPosition.tradeId (t.bookStep op).positions := by
  cases op with
  | openPosition signal now =>
    obtain ⟨-, -, hsame | ⟨p, -, -, hbook⟩⟩ := openPosition_effect signal now t
    · exact hsame ▸ hu
    · exact hbook ▸ hu.upsert
  | enter position => exact hu.upsert
  | candle candle clock =>
    cases hpaused : t.isPaused with
    | true => simpa [bookStep, processCandle, hpaused] using hu
    | false =>
      rw [bookStep, (processCandle_spec candle clock hu hpaused).positions]
      exact uniqueKey_after candle hu
  | pause => exact hu
  | resume => exact hu

/-- Opened on a flat book only, positions stay alone. -/
theorem bookStep_alone (hu : UniqueKey PaperPosition.tradeId t.positions)
    (halone : t.positions.length ≤ 1) {op : BookOp} (h : t.OnFlat op) :
    (t.bookStep op).positions.length ≤ 1 := by
  cases op with
  | openPosition signal now =>
    have hflat : t.positions = [] := h
    obtain ⟨-, -, hsame | ⟨p, -, -, hbook⟩⟩ := openPosition_effect signal now t
    · simp [bookStep, hsame, hflat]
    · simp [bookStep, hbook, hflat, upsert]
  | enter position =>
    have hflat : t.positions = [] := h
    simp [bookStep, TelegramSignals.enter, hflat, upsert]
  | candle candle clock =>
    cases hpaused : t.isPaused with
    | true => simpa [bookStep, processCandle, hpaused] using halone
    | false =>
      rw [bookStep, (processCandle_spec candle clock hu hpaused).positions]
      exact (List.length_filterMap_le _ _).trans halone
  | pause => exact halone
  | resume => exact halone

theorem agreesWhenFlat_of_drift (h : t.drift = 0) : t.AgreesWhenFlat := by
  intro hflat
  simp only [drift, hflat, openRealized, List.map_nil, List.sum_nil] at h
  linarith

/-- A step from a lone position that leaves agreement in a flat book has been fair. -/
theorem fair_of_agrees (hu : UniqueKey PaperPosition.tradeId t.positions)
    (halone : t.positions.length ≤ 1) (hdrift : t.drift = 0) {op : BookOp} (h : t.OnFlat op)
    (hagrees : (t.bookStep op).AgreesWhenFlat) : t.Fair op := by
  cases op with
  | openPosition signal now =>
    have hflat : t.positions = [] := h
    simp [Fair, hflat]
  | enter position =>
    have hflat : t.positions = [] := h
    simp [Fair, hflat]
  | candle candle clock =>
    intro hpaused
    cases hbook : t.positions with
    | nil => trivial
    | cons pos rest =>
      have hrest : rest = [] := by
        rw [hbook, List.length_cons] at halone
        exact List.length_eq_zero_iff.1 (by omega)
      rw [hrest] at hbook ⊢
      rw [FairCloses]
      cases hc : pos.closingPnl candle with
      | none => trivial
      | some pnl =>
        refine ⟨(PaperPosition.noGap_iff _ _ _).2 ?_, trivial⟩
        have hcut : t.positions = [] ++ pos :: [] := hbook
        have hleft := (processPosition_settles candle (clock pos.tradeId) t pos).closed pnl hc
        obtain ⟨hd, hengine⟩ := (processPosition_drift candle (clock pos.tradeId) hu hcut).2 pnl hc
        have hout : t.bookStep (.candle candle clock) =
            (t.processPosition candle (clock pos.tradeId) pos).2 := by
          simp [bookStep, processCandle, hpaused, hbook, processPositions]
        have hnone : (t.bookStep (.candle candle clock)).positions = [] := by
          rw [hout, (processPosition_reacted candle (clock pos.tradeId) hu hcut).positions, hleft.1]
          rfl
        have hzero : (t.bookStep (.candle candle clock)).drift = 0 := by
          simp [drift, hnone, openRealized, hagrees hnone]
        rw [← hout, hzero, hdrift] at hd
        rw [← hengine, ← hout]
        change _ = t.engineEquity + pnl
        linarith
  | pause => trivial
  | resume => trivial

/-- **The two equities.** In a run whose operations are all fair the drift is zero throughout, so
that the equities agree whenever the book is flat. When positions are opened on a flat book only,
the equities agree in every flat state of the run exactly when all operations are fair. -/
theorem equities_agree (config : RiskConfig) (initialEquity : ℚ) (today : ℤ)
    (ops : List BookOp) :
    (Guarded bookStep Fair (new config initialEquity today) ops →
      Always bookStep AgreesWhenFlat (new config initialEquity today) ops) ∧
    (Guarded bookStep OnFlat (new config initialEquity today) ops →
      (Always bookStep AgreesWhenFlat (new config initialEquity today) ops ↔
        Guarded bookStep Fair (new config initialEquity today) ops)) := by
  have hnew : (new config initialEquity today).drift = 0 := by
    simp [drift, new, openRealized, engineEquity]
  have hunique : UniqueKey PaperPosition.tradeId (new config initialEquity today).positions :=
    List.nodup_nil
  constructor
  · intro hfair
    have hrun : Always bookStep
        (fun t => UniqueKey PaperPosition.tradeId t.positions ∧ t.drift = 0)
        (new config initialEquity today) ops :=
      Always.of_guarded (fun t op ht h =>
        ⟨bookStep_uniqueKey ht.1 op, (bookStep_drift ht.1 h).trans ht.2⟩) ⟨hunique, hnew⟩ hfair
    exact hrun.mono fun t ht => agreesWhenFlat_of_drift ht.2
  · intro hflat
    refine always_iff_guarded_of_invariant
      (I := fun t => UniqueKey PaperPosition.tradeId t.positions ∧ t.positions.length ≤ 1 ∧
        t.drift = 0) (fun t ht => agreesWhenFlat_of_drift ht.2.2) ?_ ?_
      ⟨hunique, by simp [new], hnew⟩ hflat
    · rintro t op ⟨hu, halone, hdrift⟩ honly hfair
      exact ⟨bookStep_uniqueKey hu op, bookStep_alone hu halone honly,
        (bookStep_drift hu hfair).trans hdrift⟩
    · rintro t op ⟨hu, halone, hdrift⟩ honly hagrees
      exact fair_of_agrees hu halone hdrift honly hagrees

section Example

/-- A signal to go long at 100 with the target at 110. -/
def longSignal (stopLoss : ℚ) : Signal :=
  { signalId := "S-1", timestamp := 0, signalType := .long, entryPrice := some 100,
    stopLoss := some stopLoss, takeProfit1 := some 110 }

/-- A candle that reaches the target. -/
def targetCandle : Candle :=
  { symbol := "BTC/USDT", timeframe := "4h", timestamp := 1, open_ := 100, high := 111, low := 100,
    close := 110, volume := 1 }

/-- The signal is opened and its target reached. -/
def roundTrip (stopLoss : ℚ) : List BookOp :=
  [.openPosition (longSignal stopLoss) 0, .candle targetCandle fun _ => 1]

/-- **The two equities differ after one trade**: five units bought at 100 out of an equity of 10000
earn the trader about 50 and the engine about ten percent. -/
theorem equities_differ_after_roundTrip :
    ¬∀ (config : RiskConfig) (initialEquity : ℚ) (today : ℤ) (ops : List BookOp),
      Always bookStep AgreesWhenFlat (new config initialEquity today) ops := by
  intro h
  have hlast := (h {} 10000 0 (roundTrip 90)).last
  exact absurd hlast (by decide +kernel)

/-- A stop close enough to put the whole equity in keeps them together. -/
theorem equities_agree_roundTrip :
    Always bookStep AgreesWhenFlat (new {} 10000 0) (roundTrip (199 / 2)) :=
  ((equities_agree {} 10000 0 (roundTrip (199 / 2))).2 (by decide +kernel)).2 (by decide +kernel)

end Example

end PaperTrader

end AlphaOne.Paper
