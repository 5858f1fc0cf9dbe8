import AlphaOne.Foundations.Table
import AlphaOne.ML.Serving
import AlphaOne.ML.Signal
import AlphaOne.SignalEngine.RegimeDetector

/-!
# AI evidence

`enrich_signal_with_ai_evidence` of `services/signal_engine/ai_orchestrator.py`. Its local variables
are assigned one by one inside one `try`, whose handler logs and resets nothing: what was assigned
before an exception stays (`evaluateModel`). The row of `predictions` is inserted at the end of it,
under the unique id of the signal, and a failed insert is not rolled back.

A session whose insert has failed refuses every statement until it is rolled back, and so does the
reading of an object that it has loaded, because the failure expires it.

`step_allOrNothing_iff` says when one evaluation gives all of the evidence or none, and
`enrichAll_clean_iff` which runs of evaluations do throughout.
-/

namespace AlphaOne.SignalEngine

open Foundations FeatureEngine ML

/-- A row of `predictions`. -/
structure Prediction where
  signalId : String
  timestamp : Datetime
  symbol : String
  signalType : SignalType
  longProbability : ℚ
  shortProbability : ℚ
  noTradeProbability : ℚ
  confidence : ℚ
  marketRegime : String
  modelVersion : Option String
  featureVersion : Option String
  deriving DecidableEq, Repr

/-- The session of a tick: the committed predictions, whose `signal_id` is unique, and whether an
insert has failed that has not been rolled back. -/
structure Session where
  predictions : List Prediction
  failed : Bool := false
  unique : UniqueKey Prediction.signalId predictions

/-- There is a prediction for a signal. -/
def Session.Has (s : Session) (signalId : String) : Prop :=
  signalId ∈ s.predictions.map Prediction.signalId

instance (s : Session) (signalId : String) : Decidable (s.Has signalId) :=
  inferInstanceAs (Decidable (_ ∈ _))

/-- A new session on the same tables. -/
def Session.renew (s : Session) : Session := { s with failed := false }

/-- `session.add` and `session.commit`, which the database may not accept. -/
def Session.insert (s : Session) (row : Prediction) (accepted : Bool) : Session :=
  if s.failed then s
  else if h : s.Has row.signalId then { s with failed := true }
  else if !accepted then { s with failed := true }
  else
    { s with
      predictions := s.predictions ++ [row]
      unique := s.unique.append_singleton fun r hr heq => h (List.mem_map.2 ⟨r, hr, heq⟩) }

/-- What `_load_deployed_model` returns when a model is deployed. -/
structure DeployedModel where
  predictProba : List ℚ → Proba
  featureCols : List String
  barrierConfig : TripleBarrierConfig := {}
  modelVersion : String
  featureVersion : Option String := none

inductive ModelStatus
  | noModelDeployed
  | modelBacked
  deriving DecidableEq, Repr

/-- A place in the evaluation of the model where something may raise. -/
inductive EvaluationPoint
  | assembling
  | predicting
  | expectedValue
  | committing
  deriving DecidableEq, Repr

/-- A call of the function, with what it finds. -/
structure EvidenceCall where
  signal : Signal
  /-- `signal.quality`. -/
  quality : Option String := none
  df : List Candle
  symbol : String := "BTC/USDT"
  deployed : Option DeployedModel
  /-- Where a library or the database raises. -/
  raisesAt : Option EvaluationPoint := none
  /-- The signal is an object that the session has loaded. -/
  attached : Bool := true
  /-- The call is the first one of a session. -/
  newSession : Bool := true

structure AIDecision where
  symbol : String
  market : String
  timeframe : String
  strategySources : List (Option String)
  direction : SignalType
  probabilityLong : Option ℚ
  probabilityShort : Option ℚ
  probabilityNoTrade : Option ℚ
  expectedReturn : Option ℚ
  expectedVolatility : Option ℚ
  regime : String
  confidence : String
  entry : ℚ
  stopLoss : Option ℚ
  takeProfit1 : Option ℚ
  takeProfit2 : Option ℚ
  takeProfit3 : Option ℚ
  riskReward : Option ℚ
  timestamp : Datetime
  modelVersion : Option String
  modelStatus : ModelStatus
  deriving DecidableEq, Repr

/-- The local variables that the evaluation of the model assigns. -/
structure ModelEvidence where
  probabilityLong : Option ℚ := none
  probabilityShort : Option ℚ := none
  probabilityNoTrade : Option ℚ := none
  expectedReturn : Option ℚ := none
  modelVersion : Option String := none
  modelStatus : ModelStatus := .noModelDeployed
  deriving DecidableEq, Repr

/-- What the function raises. -/
inductive EvidenceError
  | indexError
  | pendingRollback
  deriving DecidableEq, Repr

/-- The class with the largest probability, of equal ones the first. -/
def predictedClass (proba : Proba) : SignalType :=
  if proba.noTrade ≤ proba.short ∧ proba.long ≤ proba.short then .short
  else if proba.long ≤ proba.noTrade then .noTrade
  else .long

/-- The probability of the signal's own side. -/
def favorable (signalType : SignalType) (proba : Proba) : ℚ :=
  if signalType = .long then proba.long else proba.short

/-- The row that is inserted. -/
def predictionRow (call : EvidenceCall) (model : DeployedModel) (proba : Proba) (regime : String) :
    Prediction where
  signalId := call.signal.signalId
  timestamp := call.signal.timestamp
  symbol := call.symbol
  signalType := predictedClass proba
  longProbability := proba.long
  shortProbability := proba.short
  noTradeProbability := proba.noTrade
  confidence := max (max proba.long proba.short) proba.noTrade
  marketRegime := regime
  modelVersion := some model.modelVersion
  featureVersion := model.featureVersion

section Evaluate

variable (np : Numpy)

/-- The probabilities of the model, when the features are there and the model returns. -/
def probaOf (call : EvidenceCall) (model : DeployedModel) : Option Proba :=
  if call.raisesAt = some .assembling then none
  else
    match modelInput (servedRow np call.df model.featureCols) with
    | none => none
    | some x => if call.raisesAt = some .predicting then none else some (model.predictProba x)

/-- The `try` of the function: the variables and the session after it. -/
def evaluateModel (call : EvidenceCall) (regime : String) (s : Session) : ModelEvidence × Session :=
  match call.deployed with
  | none => ({}, s)
  | some model =>
    match probaOf np call model with
    | none => ({}, s)
    | some proba =>
      let evidence : ModelEvidence :=
        { probabilityLong := some proba.long
          probabilityShort := some proba.short
          probabilityNoTrade := some proba.noTrade
          modelVersion := some model.modelVersion
          modelStatus := .modelBacked }
      let barrier := model.barrierConfig
      -- the division by the stop's multiple, or the computation after it
      if barrier.slAtrMultiple = 0 ∨ call.raisesAt = some .expectedValue then (evidence, s)
      else
        let rewardR := barrier.tpAtrMultiple / barrier.slAtrMultiple
        let expectedReturn := roundTo
          (expectedValueR (favorable call.signal.signalType proba) rewardR 1 (5 / 100)) 3
        ({ evidence with expectedReturn := some expectedReturn },
          s.insert (predictionRow call model proba regime) (call.raisesAt ≠ some .committing))

/-- `expected_volatility`, before it is rounded. -/
def expectedVolatility (df : List Candle) (last : Candle) : Option ℚ :=
  match (back (atr df 14) 0).join with
  | none => none
  | some atrVal => if atrVal = 0 ∨ last.close = 0 then none else some (atrVal / last.close)

/-- A level that is given and not zero. -/
def given (price : Option ℚ) : Option ℚ := price.filter (· ≠ 0)

/-- `risk_reward`. -/
def riskReward (signal : Signal) : Option ℚ := do
  let entry ← given signal.entryPrice
  let stop ← given signal.stopLoss
  let target ← given signal.takeProfit1
  let risk := |entry - stop|
  if risk > 0 then some (roundTo (|target - entry| / risk) 2) else none

/-- `confidence`. -/
def confidenceText (call : EvidenceCall) (evidence : ModelEvidence) : String :=
  if evidence.modelStatus = .modelBacked then
    let p := if call.signal.signalType = .long then evidence.probabilityLong
      else evidence.probabilityShort
    toString (roundHalfEven (p.getD 0 * 100)) ++ "% calibrated probability"
  else
    match call.quality with
    | some quality => if quality = "" then "LOW" else quality
    | none => "LOW"

/-- `enrich_signal_with_ai_evidence`. The signal is read before and after the evaluation. -/
def enrichSignalWithAiEvidence (call : EvidenceCall) (s : Session) :
    Except EvidenceError AIDecision × Session :=
  match call.df.getLast? with
  | none => (.error .indexError, s)
  | some last =>
    let regime := (MarketRegimeDetector.detect { candles := call.df }).value
    if s.failed ∧ call.attached then (.error .pendingRollback, s)
    else
      let (evidence, s) := evaluateModel np call regime s
      if s.failed ∧ call.attached then (.error .pendingRollback, s)
      else
        (.ok
          { symbol := call.symbol
            market := "CoinDCX BTC/USDT Perpetual"
            timeframe := call.signal.timeframe.getD "4h"
            strategySources := [call.signal.strategyName]
            direction := call.signal.signalType
            probabilityLong := evidence.probabilityLong
            probabilityShort := evidence.probabilityShort
            probabilityNoTrade := evidence.probabilityNoTrade
            expectedReturn := evidence.expectedReturn
            expectedVolatility := (expectedVolatility call.df last).map (roundTo · 5)
            regime
            confidence := confidenceText call evidence
            entry := call.signal.entryPrice.getD last.close
            stopLoss := call.signal.stopLoss
            takeProfit1 := call.signal.takeProfit1
            takeProfit2 := call.signal.takeProfit2
            takeProfit3 := call.signal.takeProfit3
            riskReward := riskReward call.signal
            timestamp := call.signal.timestamp
            modelVersion := evidence.modelVersion
            modelStatus := evidence.modelStatus }, s)

/-- A run of evaluations, each in the session of the one before or in a new one. -/
def enrichAll : List EvidenceCall → Session → List (Except EvidenceError AIDecision × Session)
  | [], _ => []
  | call :: calls, s =>
    let result := enrichSignalWithAiEvidence np call (if call.newSession then s.renew else s)
    result :: enrichAll calls result.2

/-! ## All or nothing -/

/-- A decision is backed by a model. -/
structure AIDecision.Backed (d : AIDecision) : Prop where
  status : d.modelStatus = .modelBacked
  long : d.probabilityLong.isSome
  short : d.probabilityShort.isSome
  noTrade : d.probabilityNoTrade.isSome
  expectedReturn : d.expectedReturn.isSome
  version : d.modelVersion.isSome

/-- A decision has nothing of a model. -/
structure AIDecision.Unbacked (d : AIDecision) : Prop where
  status : d.modelStatus = .noModelDeployed
  long : d.probabilityLong = none
  short : d.probabilityShort = none
  noTrade : d.probabilityNoTrade = none
  expectedReturn : d.expectedReturn = none
  version : d.modelVersion = none

/-- A call returns all of the evidence, with one prediction, or none, and its session can be used. -/
def AllOrNothing (call : EvidenceCall) (result : Except EvidenceError AIDecision × Session) :
    Prop :=
  ∃ d, result.1 = .ok d ∧
    (d.Backed ∧
        (result.2.predictions.filter fun p => p.signalId = call.signal.signalId).length = 1 ∨
      d.Unbacked) ∧
    result.2.failed = false

/-- A call gets probabilities from a model: one is deployed, the row that it reads has no gap, and
nothing raises before it has returned. -/
def EvidenceCall.Predicts (call : EvidenceCall) : Prop :=
  ∃ model ∈ call.deployed, none ∉ servedRow np call.df model.featureCols ∧
    call.raisesAt ≠ some .assembling ∧ call.raisesAt ≠ some .predicting

/-- Nothing raises after the probabilities. -/
def EvidenceCall.Completes (call : EvidenceCall) : Prop :=
  (∀ model ∈ call.deployed, model.barrierConfig.slAtrMultiple ≠ 0) ∧
    call.raisesAt ≠ some .expectedValue ∧ call.raisesAt ≠ some .committing

/-- A run on a session: every frame has a candle, no call that gets probabilities raises, and each
is for a signal of its own, without a prediction so far. -/
structure CleanRun (calls : List EvidenceCall) (s : Session) : Prop where
  frames : ∀ call ∈ calls, call.df ≠ []
  completes : ∀ call ∈ calls, call.Predicts np → call.Completes
  unpredicted : ∀ call ∈ calls, call.Predicts np → ¬s.Has call.signal.signalId
  once : calls.Pairwise fun a b =>
    a.Predicts np → b.Predicts np → a.signal.signalId ≠ b.signal.signalId

end Evaluate

section Session

variable {s : Session} {row : Prediction} {accepted : Bool}

@[simp] theorem Session.renew_failed : s.renew.failed = false := rfl

theorem Session.renew_of_not_failed (h : s.failed = false) : s.renew = s := by
  cases s
  simp only at h
  subst h
  rfl

theorem Session.insert_of_fresh (h : s.failed = false) (hnew : ¬s.Has row.signalId) :
    (s.insert row true).predictions = s.predictions ++ [row] ∧
      (s.insert row true).failed = false := by
  simp [insert, h, hnew]

/-- An insert fails under an id that is taken, and when the database does not accept it. -/
theorem Session.insert_failed (h : s.Has row.signalId ∨ accepted = false) :
    (s.insert row accepted).failed = true := by
  unfold insert
  split_ifs with hfailed hhas haccepted
  · exact hfailed
  · rfl
  · rfl
  · rcases h with h | h
    · exact absurd h hhas
    · simp [h] at haccepted

end Session

section Step

variable {np : Numpy} {call : EvidenceCall} {model : DeployedModel} {regime : String} {s : Session}

theorem probaOf_eq_none (h : ¬(none ∉ servedRow np call.df model.featureCols ∧
    call.raisesAt ≠ some .assembling ∧ call.raisesAt ≠ some .predicting)) :
    probaOf np call model = none := by
  unfold probaOf
  split_ifs with hassembling hpredicting
  · rfl
  · split <;> rfl
  · have hgap : none ∈ servedRow np call.df model.featureCols :=
      not_not.1 fun hrow => h ⟨hrow, hassembling, hpredicting⟩
    rw [modelInput_eq_none hgap]

theorem probaOf_eq_some (h : none ∉ servedRow np call.df model.featureCols ∧
    call.raisesAt ≠ some .assembling ∧ call.raisesAt ≠ some .predicting) :
    ∃ proba, probaOf np call model = some proba := by
  obtain ⟨hrow, hassembling, hpredicting⟩ := h
  obtain ⟨x, hx⟩ := modelInput_eq_some hrow
  exact ⟨model.predictProba x, by simp [probaOf, hassembling, hpredicting, hx]⟩

/-- Without probabilities the evaluation changes nothing. -/
theorem evaluateModel_of_not_predicts (h : ¬call.Predicts np) :
    evaluateModel np call regime s = ({}, s) := by
  unfold evaluateModel
  split
  · rfl
  · rename_i model hmodel
    have hnone : probaOf np call model = none :=
      probaOf_eq_none fun hpredicts => h ⟨model, hmodel, hpredicts⟩
    rw [hnone]

/-- What the evaluation assigns before the expected value. -/
structure Assigned (evidence : ModelEvidence) : Prop where
  status : evidence.modelStatus = .modelBacked
  long : evidence.probabilityLong.isSome
  short : evidence.probabilityShort.isSome
  noTrade : evidence.probabilityNoTrade.isSome
  version : evidence.modelVersion.isSome

/-- How the evaluation ends once there are probabilities: before the insert, or with it. -/
def EndsWith (call : EvidenceCall) (s : Session) (evidence : ModelEvidence) (s' : Session) : Prop :=
  (evidence.expectedReturn = none ∧ s' = s ∧ ¬call.Completes) ∨
    ∃ row, evidence.expectedReturn.isSome ∧ row.signalId = call.signal.signalId ∧
      s' = s.insert row (call.raisesAt ≠ some .committing) ∧
      (call.Completes ↔ call.raisesAt ≠ some .committing)

/-- With probabilities the status is set, and everything before it. -/
theorem evaluateModel_of_predicts (regime : String) (s : Session) (h : call.Predicts np) :
    ∃ evidence s', evaluateModel np call regime s = (evidence, s') ∧ Assigned evidence ∧
      EndsWith call s evidence s' := by
  obtain ⟨model, hmodel, hpredicts⟩ := h
  obtain ⟨proba, hproba⟩ := probaOf_eq_some hpredicts
  have hdeployed : call.deployed = some model := hmodel
  unfold evaluateModel
  simp only [hdeployed, hproba]
  split_ifs with hraises
  · refine ⟨_, _, rfl, ⟨rfl, rfl, rfl, rfl, rfl⟩, .inl ⟨rfl, rfl, fun hcompletes => ?_⟩⟩
    rcases hraises with hzero | hvalue
    · exact hcompletes.1 model hmodel hzero
    · exact hcompletes.2.1 hvalue
  · rw [not_or] at hraises
    refine ⟨_, _, rfl, ⟨rfl, rfl, rfl, rfl, rfl⟩, .inr ⟨_, rfl, rfl, rfl, ?_⟩⟩
    refine ⟨fun hcompletes => hcompletes.2.2, fun hcommits => ⟨fun m hm => ?_, hraises.2, hcommits⟩⟩
    rw [hdeployed] at hm
    obtain rfl : model = m := Option.some.inj hm
    exact hraises.1

/-- A decision has the variables of an evaluation. -/
structure AIDecision.Reports (d : AIDecision) (evidence : ModelEvidence) : Prop where
  status : d.modelStatus = evidence.modelStatus
  long : d.probabilityLong = evidence.probabilityLong
  short : d.probabilityShort = evidence.probabilityShort
  noTrade : d.probabilityNoTrade = evidence.probabilityNoTrade
  expectedReturn : d.expectedReturn = evidence.expectedReturn
  version : d.modelVersion = evidence.modelVersion

variable (np) in
/-- The function reports what the evaluation has left, unless the signal cannot be read any more. -/
theorem enrich_cases (hdf : call.df ≠ []) (h : s.failed = false) :
    ∃ regime evidence s', evaluateModel np call regime s = (evidence, s') ∧
      ((s'.failed = true ∧
          enrichSignalWithAiEvidence np call s = (.error .pendingRollback, s')) ∨
        ∃ d : AIDecision, d.Reports evidence ∧
          enrichSignalWithAiEvidence np call s = (.ok d, s')) := by
  obtain ⟨last, hlast⟩ := Option.ne_none_iff_exists'.1 (mt List.getLast?_eq_none_iff.1 hdf)
  refine ⟨(MarketRegimeDetector.detect { candles := call.df }).value, _, _, rfl, ?_⟩
  unfold enrichSignalWithAiEvidence
  simp only [hlast, h, Bool.false_eq_true, false_and, if_false]
  split_ifs with hpending
  · exact .inl ⟨hpending.1, rfl⟩
  · exact .inr ⟨_, ⟨rfl, rfl, rfl, rfl, rfl, rfl⟩, rfl⟩

theorem enrich_of_predicts (hdf : call.df ≠ []) (h : s.failed = false)
    (hpredicts : call.Predicts np) :
    ∃ evidence s', Assigned evidence ∧ EndsWith call s evidence s' ∧
      ((s'.failed = true ∧
          enrichSignalWithAiEvidence np call s = (.error .pendingRollback, s')) ∨
        ∃ d : AIDecision, d.Reports evidence ∧
          enrichSignalWithAiEvidence np call s = (.ok d, s')) := by
  obtain ⟨regime, evidence, s', heval, hcases⟩ := enrich_cases np hdf h
  obtain ⟨evidence', s'', heval', hassigned, hends⟩ :=
    evaluateModel_of_predicts regime s hpredicts
  rw [heval] at heval'
  obtain ⟨rfl, rfl⟩ := Prod.mk.inj heval'
  exact ⟨evidence, s', hassigned, hends, hcases⟩

theorem AIDecision.Reports.backed {d : AIDecision} {evidence : ModelEvidence}
    (hd : d.Reports evidence) (hassigned : Assigned evidence)
    (hreturn : evidence.expectedReturn.isSome) : d.Backed where
  status := hd.status.trans hassigned.status
  long := hd.long ▸ hassigned.long
  short := hd.short ▸ hassigned.short
  noTrade := hd.noTrade ▸ hassigned.noTrade
  expectedReturn := hd.expectedReturn ▸ hreturn
  version := hd.version ▸ hassigned.version

theorem AIDecision.Reports.unbacked {d : AIDecision} (hd : d.Reports {}) : d.Unbacked :=
  ⟨hd.status, hd.long, hd.short, hd.noTrade, hd.expectedReturn, hd.version⟩

/-- A decision that reports the probabilities reports all of the evidence or is half-filled. -/
theorem AIDecision.Reports.not_unbacked {d : AIDecision} {evidence : ModelEvidence}
    (hd : d.Reports evidence) (hassigned : Assigned evidence) : ¬d.Unbacked := by
  intro hnone
  have hstatus := hd.status.symm.trans hnone.status
  rw [hassigned.status] at hstatus
  cases hstatus

theorem allOrNothing_of_not_predicts (hdf : call.df ≠ []) (h : s.failed = false)
    (hnot : ¬call.Predicts np) :
    AllOrNothing call (enrichSignalWithAiEvidence np call s) ∧
      (enrichSignalWithAiEvidence np call s).2 = s := by
  obtain ⟨regime, evidence, s', heval, hcases⟩ := enrich_cases np hdf h
  rw [evaluateModel_of_not_predicts hnot] at heval
  obtain ⟨rfl, rfl⟩ := Prod.mk.inj heval
  rcases hcases with ⟨hfailed, -⟩ | ⟨d, hd, hresult⟩
  · rw [h] at hfailed
    cases hfailed
  · rw [hresult]
    exact ⟨⟨d, rfl, .inr hd.unbacked, h⟩, rfl⟩

theorem length_filter_inserted {row : Prediction} (hnew : ¬s.Has row.signalId) :
    ((s.predictions ++ [row]).filter fun p => p.signalId = row.signalId).length = 1 := by
  have hnone : s.predictions.filter (fun p => p.signalId = row.signalId) = [] := by
    refine List.filter_eq_nil_iff.2 fun p hp heq => hnew ?_
    exact List.mem_map.2 ⟨p, hp, of_decide_eq_true heq⟩
  rw [List.filter_append, hnone]
  simp

theorem allOrNothing_of_fresh (hdf : call.df ≠ []) (h : s.failed = false)
    (hpredicts : call.Predicts np) (hcompletes : call.Completes)
    (hnew : ¬s.Has call.signal.signalId) :
    AllOrNothing call (enrichSignalWithAiEvidence np call s) ∧
      ∃ row, row.signalId = call.signal.signalId ∧
        (enrichSignalWithAiEvidence np call s).2.predictions = s.predictions ++ [row] := by
  obtain ⟨evidence, s', hassigned, hends, hcases⟩ := enrich_of_predicts hdf h hpredicts
  rcases hends with ⟨-, -, hraises⟩ | ⟨row, hreturn, hid, hinsert, hiff⟩
  · exact absurd hcompletes hraises
  · rw [decide_eq_true (hiff.1 hcompletes)] at hinsert
    rw [← hid] at hnew
    obtain ⟨hrows, hok⟩ := Session.insert_of_fresh h hnew
    rw [← hinsert] at hrows hok
    rcases hcases with ⟨hfailed, -⟩ | ⟨d, hd, hresult⟩
    · rw [hok] at hfailed
      cases hfailed
    · rw [hresult]
      refine ⟨⟨d, rfl, .inl ⟨hd.backed hassigned hreturn, ?_⟩, hok⟩, row, hid, hrows⟩
      rw [hrows, ← hid]
      exact length_filter_inserted hnew

/-- A failed insert stays in the session; without an insert, the decision is half-filled. -/
theorem not_allOrNothing_of_predicts (hdf : call.df ≠ []) (h : s.failed = false)
    (hpredicts : call.Predicts np) (hbad : ¬(call.Completes ∧ ¬s.Has call.signal.signalId)) :
    ¬AllOrNothing call (enrichSignalWithAiEvidence np call s) := by
  rintro ⟨d, hok, hevidence, hsession⟩
  obtain ⟨evidence, s', hassigned, hends, hcases⟩ := enrich_of_predicts hdf h hpredicts
  rcases hcases with ⟨-, hresult⟩ | ⟨d', hd, hresult⟩
  · rw [hresult] at hok
    cases hok
  rw [hresult] at hok hsession hevidence
  obtain rfl : d' = d := Except.ok.inj hok
  rcases hends with ⟨hnone, -, -⟩ | ⟨row, -, hid, hinsert, hiff⟩
  · rcases hevidence with ⟨hbacked, -⟩ | hunbacked
    · have hsome := hbacked.expectedReturn
      rw [hd.expectedReturn, hnone] at hsome
      cases hsome
    · exact hd.not_unbacked hassigned hunbacked
  · have hfails : s.Has row.signalId ∨ decide (call.raisesAt ≠ some .committing) = false := by
      rw [hid, decide_eq_false_iff_not, ← hiff]
      tauto
    have hfailed := Session.insert_failed hfails
    rw [← hinsert] at hfailed
    exact absurd hsession (by rw [hfailed]; exact Bool.noConfusion)

/-- **When an evaluation gives all of the evidence or none**: the frame has a candle, and when the
model gives probabilities nothing raises after them and the signal has no prediction. -/
theorem step_allOrNothing_iff (h : s.failed = false) :
    AllOrNothing call (enrichSignalWithAiEvidence np call s) ↔
      call.df ≠ [] ∧ (call.Predicts np → call.Completes ∧ ¬s.Has call.signal.signalId) := by
  constructor
  · intro hall
    have hdf : call.df ≠ [] := by
      intro hnil
      obtain ⟨d, hok, -⟩ := hall
      simp [enrichSignalWithAiEvidence, hnil] at hok
    exact ⟨hdf, fun hpredicts => by_contra fun hbad =>
      not_allOrNothing_of_predicts hdf h hpredicts hbad hall⟩
  · rintro ⟨hdf, hclean⟩
    by_cases hpredicts : call.Predicts np
    · obtain ⟨hcompletes, hnew⟩ := hclean hpredicts
      exact (allOrNothing_of_fresh hdf h hpredicts hcompletes hnew).1
    · exact (allOrNothing_of_not_predicts hdf h hpredicts).1

/-- After such an evaluation there is one prediction more if the model gave probabilities. -/
theorem has_step_iff (h : s.failed = false)
    (hall : AllOrNothing call (enrichSignalWithAiEvidence np call s)) (signalId : String) :
    (enrichSignalWithAiEvidence np call s).2.Has signalId ↔
      s.Has signalId ∨ call.Predicts np ∧ call.signal.signalId = signalId := by
  obtain ⟨hdf, hclean⟩ := (step_allOrNothing_iff h).1 hall
  by_cases hpredicts : call.Predicts np
  · obtain ⟨hcompletes, hnew⟩ := hclean hpredicts
    obtain ⟨row, hid, hrows⟩ := (allOrNothing_of_fresh hdf h hpredicts hcompletes hnew).2
    rw [Session.Has, hrows, List.map_append, List.mem_append, List.map_singleton,
      List.mem_singleton, hid]
    simp only [hpredicts, true_and, eq_comm, Session.Has]
  · rw [(allOrNothing_of_not_predicts hdf h hpredicts).2]
    simp only [hpredicts, false_and, or_false]

end Step

section Run

variable {np : Numpy} {call : EvidenceCall} {calls : List EvidenceCall} {s : Session}

theorem enrichAll_cons (h : s.failed = false) :
    enrichAll np (call :: calls) s =
      enrichSignalWithAiEvidence np call s ::
        enrichAll np calls (enrichSignalWithAiEvidence np call s).2 := by
  rw [enrichAll, Session.renew_of_not_failed h, ite_self]

/-- A run is clean when its first call is and the rest is from the session after it. -/
theorem cleanRun_cons (h : s.failed = false)
    (hall : AllOrNothing call (enrichSignalWithAiEvidence np call s)) :
    CleanRun np (call :: calls) s ↔
      CleanRun np calls (enrichSignalWithAiEvidence np call s).2 := by
  have hhas := has_step_iff h hall
  obtain ⟨hdf, hclean⟩ := (step_allOrNothing_iff h).1 hall
  constructor
  · rintro ⟨hframes, hcompletes, hunpredicted, honce⟩
    rw [List.forall_mem_cons] at hframes hcompletes hunpredicted
    rw [List.pairwise_cons] at honce
    refine ⟨hframes.2, hcompletes.2, fun later hlater hpredicts hrow => ?_, honce.2⟩
    rcases (hhas _).1 hrow with hrow | ⟨hfirst, heq⟩
    · exact hunpredicted.2 later hlater hpredicts hrow
    · exact honce.1 later hlater hfirst hpredicts heq
  · rintro ⟨hframes, hcompletes, hunpredicted, honce⟩
    have hlater : ∀ later ∈ calls, later.Predicts np → ¬s.Has later.signal.signalId :=
      fun later hlater hpredicts hrow =>
        hunpredicted later hlater hpredicts ((hhas _).2 (.inl hrow))
    refine ⟨List.forall_mem_cons.2 ⟨hdf, hframes⟩,
      List.forall_mem_cons.2 ⟨fun hpredicts => (hclean hpredicts).1, hcompletes⟩,
      List.forall_mem_cons.2 ⟨fun hpredicts => (hclean hpredicts).2, hlater⟩,
      List.pairwise_cons.2 ⟨fun later hlater hfirst hpredicts heq => ?_, honce⟩⟩
    exact hunpredicted later hlater hpredicts ((hhas _).2 (.inr ⟨hfirst, heq⟩))

theorem allOrNothing_run_iff (h : s.failed = false) :
    List.Forall₂ AllOrNothing calls (enrichAll np calls s) ↔ CleanRun np calls s := by
  induction calls generalizing s with
  | nil =>
    refine iff_of_true List.Forall₂.nil ⟨?_, ?_, ?_, List.Pairwise.nil⟩ <;>
      exact fun call hcall => absurd hcall List.not_mem_nil
  | cons call calls ih =>
    rw [enrichAll_cons h, List.forall₂_cons]
    by_cases hall : AllOrNothing call (enrichSignalWithAiEvidence np call s)
    · obtain ⟨d, -, -, hsession⟩ := id hall
      rw [ih hsession, cleanRun_cons h hall]
      exact and_iff_right hall
    · refine iff_of_false (fun hboth => hall hboth.1) fun hclean => hall ?_
      refine (step_allOrNothing_iff h).2
        ⟨hclean.frames call List.mem_cons_self, fun hpredicts => ?_⟩
      exact ⟨hclean.completes call List.mem_cons_self hpredicts,
        hclean.unpredicted call List.mem_cons_self hpredicts⟩

end Run

/-- **AI evidence is all or nothing in exactly the clean runs**: for every model, frame and
exception, and any number of evaluations from a new session on. Once the model has given
probabilities, a signal may not be evaluated again, and nothing may raise. -/
theorem enrichAll_clean_iff (np : Numpy) (calls : List EvidenceCall) (s : Session) :
    List.Forall₂ AllOrNothing calls (enrichAll np calls s.renew) ↔ CleanRun np calls s.renew :=
  allOrNothing_run_iff Session.renew_failed

section Example

/-- A model of one feature, which a frame of one candle has. -/
def deployedLong : DeployedModel where
  predictProba _ := { short := 1 / 5, noTrade := 1 / 5, long := 3 / 5 }
  featureCols := ["ema_9"]
  modelVersion := "1.0.0"

/-- The evaluation of the signal of the candle on a tick. -/
def tick : EvidenceCall where
  signal :=
    { signalId := "SIG-1"
      timestamp := 0
      signalType := .long
      entryPrice := some 100
      stopLoss := some 98 }
  df := [quietCandle 0]
  deployed := some deployedLong

/-- The next tick, when the signal is an object of another session. -/
def detachedTick : EvidenceCall := { tick with attached := false }

/-- A tick with a model whose stop has no distance. -/
def flatStopTick : EvidenceCall :=
  { tick with deployed := some { deployedLong with barrierConfig := { slAtrMultiple := 0 } } }

def noPredictions : Session where
  predictions := []
  unique := List.nodup_nil

/-- **The second tick of a candle**: the prediction is there already, the failed insert stays
pending, and the function raises, or reports the evidence when its signal is of another session.
A stop without a distance leaves a half-filled decision. -/
theorem secondTick_fails :
    (∀ np : Numpy,
      ((enrichAll np [tick, tick] noPredictions).map fun result =>
        (result.1.toOption.map AIDecision.modelStatus, result.2.failed)) =
          [(some .modelBacked, false), (none, true)] ∧
      ((enrichAll np [tick, detachedTick] noPredictions).map fun result =>
        (result.1.toOption.map AIDecision.modelStatus, result.2.failed)) =
          [(some .modelBacked, false), (some .modelBacked, true)] ∧
      ((enrichAll np [flatStopTick] noPredictions).map fun result =>
        result.1.toOption.map fun d => (d.modelStatus, d.probabilityLong, d.expectedReturn)) =
          [some (.modelBacked, some (3 / 5), none)]) ∧
    ∀ np : Numpy, ¬∀ (calls : List EvidenceCall) (s : Session),
      List.Forall₂ AllOrNothing calls (enrichAll np calls s.renew) := by
  refine ⟨fun np => ⟨rfl, rfl, rfl⟩, fun np h => ?_⟩
  obtain _ | ⟨-, hsecond⟩ := h [tick, tick] noPredictions
  obtain _ | ⟨⟨d, hok, -⟩, -⟩ := hsecond
  cases hok

end Example

end AlphaOne.SignalEngine
