import AlphaOne.LiveExecution.Decisions

/-!
# The exposure behind the gates

Candidates are processed one after another, position tracking writes statuses to their rows, and
other jobs write the journal of trades. The gates bound the live exposure by what they count: the
rows that are `POSITION_OPEN` or `PARTIAL_EXIT`, and the paper trades entered on the day. An order
that has just been attempted is neither. `limits_hold` says that the limits on the orders themselves
hold in the runs in which the gates count every order.
-/

namespace AlphaOne.Live

open Foundations Risk

/-- An order that was attempted, and when. -/
structure PlacedOrder where
  request : OrderRequest
  time : Datetime
  deriving DecidableEq, Repr

/-- The tables, with the orders attempted so far. -/
structure Pipeline where
  store : LiveStore
  orders : List PlacedOrder := []

inductive PipelineEvent
  | candidate (candidate : LiveExecutionCandidate) (inputs : GateInputs)
  /-- Position tracking writes a status. -/
  | tracked (id : ℕ) (status : LiveExecutionStatus)
  /-- The other jobs leave the journal with these trades. -/
  | journal (trades : List Trade)
  | emergencyStop (active : Option Bool)
  deriving DecidableEq, Repr

section

variable (settings : Settings) (client : OrderClient)

/-- A whole call of the executor for a candidate. -/
def processCandidate (candidate : LiveExecutionCandidate) (inputs : GateInputs) (s : LiveStore) :
    LiveStore :=
  ExecutionAttempt.perform settings client s { candidate, inputs, statements := 10 }

def Pipeline.step (p : Pipeline) : PipelineEvent → Pipeline
  | .candidate candidate inputs =>
    let store := processCandidate settings client candidate inputs p.store
    let requests := store.attempted.drop p.store.attempted.length
    { store, orders := p.orders ++ requests.map fun request => ⟨request, inputs.now⟩ }
  | .tracked id status =>
    { p with store := updateExecution id (LiveExecution.setStatus status) p.store }
  | .journal trades => { p with store := { p.store with trades } }
  | .emergencyStop active => { p with store := { p.store with emergencyStop := active } }

/-- The order was attempted without raising. -/
def PlacedOrder.accepted (o : PlacedOrder) : Bool := (client.submitFuturesOrder o.request).isOk

/-- The rows whose order was attempted without raising, and that are not closed yet. -/
def Pipeline.liveRows (p : Pipeline) : List LiveExecution :=
  p.store.executions.filter fun e => e.status ≠ .closed ∧
    p.orders.any fun o => o.accepted client ∧ o.request.clientOrderId = e.idempotencyKey

/-- The orders attempted on a UTC day. -/
def Pipeline.ordersOn (day : ℤ) (p : Pipeline) : List PlacedOrder :=
  p.orders.filter fun o => o.time.date = day

/-- The call of the candidate attempts an order. -/
def AttemptsOrder (s : LiveStore) (candidate : LiveExecutionCandidate) (inputs : GateInputs) :
    Prop :=
  (processCandidate settings client candidate inputs s).attempted ≠ s.attempted

/-- An order is attempted within the limits on the orders before it. -/
def Pipeline.LimitsHold (p : Pipeline) : PipelineEvent → Prop
  | .candidate candidate inputs =>
    AttemptsOrder settings client p.store candidate inputs →
      (p.liveRows client).length < settings.maxOpenPositionsLive ∧
        (∀ e ∈ p.liveRows client, e.symbol ≠ candidate.symbol) ∧
        (p.ordersOn inputs.now.date).length < dailyTradeMax
  | _ => True

instance (p : Pipeline) : ∀ event, Decidable (p.LimitsHold settings client event)
  | .candidate .. => inferInstanceAs (Decidable (_ ≠ _ → _ ∧ _ ∧ _))
  | .tracked .. | .journal _ | .emergencyStop _ => inferInstanceAs (Decidable True)

/-- What the gates count when a candidate comes: tracking has written `POSITION_OPEN` or
`PARTIAL_EXIT` to every row that is live, and on the day the journal has as many paper entries as
there were orders. -/
def Pipeline.Counted (p : Pipeline) : PipelineEvent → Prop
  | .candidate _ inputs =>
    (∀ e ∈ p.liveRows client, e.status ∈ openLiveStatuses) ∧
      (p.ordersOn inputs.now.date).length ≤
        (getDailyTradeBudget p.store.trades inputs.now).tradesToday
  | _ => True

instance (p : Pipeline) : ∀ event, Decidable (p.Counted client event)
  | .candidate .. => inferInstanceAs (Decidable (_ ∧ _))
  | .tracked .. | .journal _ | .emergencyStop _ => inferInstanceAs (Decidable True)

/-! ## What the gates of a call read -/

/-- What the queries of the gates return, asked of one store. -/
def gateReads (candidate : LiveExecutionCandidate) (inputs : GateInputs) (s : LiveStore) :
    GateReads :=
  { emergencyActive := isEmergencyStopActive s
    openPositions := countOpenLivePositions s
    conflicting := hasConflictingOpenPosition candidate.symbol s
    budget := getDailyTradeBudget s.trades inputs.now
    riskCheck := checkFixedMarginTrade s.trades (some candidate.entryPrice) inputs.usdtInrRate
      inputs.now }

/-- The gates approve the candidate in the store. -/
def Approved (s : LiveStore) (candidate : LiveExecutionCandidate) (inputs : GateInputs) : Prop :=
  (checkAllLiveExecutionGates settings client.contractVerified candidate inputs
    (gateReads candidate inputs s)).approved = true

/-- What a call has read, of the store `s₀` it was begun on. -/
def ExecutionCall.Sees (s₀ s : LiveStore) (call : ExecutionCall) : Prop :=
  s.trades = s₀.trades ∧ s.emergencyStop = s₀.emergencyStop ∧
    match call.stage with
    | .start | .inserting | .rolledBack _ | .received _ | .parsed _ => s.attempted = s₀.attempted
    | .countingOpen _ emergency => s.attempted = s₀.attempted ∧ emergency = isEmergencyStopActive s₀
    | .readingConflict _ emergency openPositions =>
      s.attempted = s₀.attempted ∧ emergency = isEmergencyStopActive s₀ ∧
        openPositions = countOpenLivePositions s₀
    | .readingBudget _ emergency openPositions conflicting =>
      s.attempted = s₀.attempted ∧ emergency = isEmergencyStopActive s₀ ∧
        openPositions = countOpenLivePositions s₀ ∧
        conflicting = hasConflictingOpenPosition call.candidate.symbol s₀
    | .evaluated _ report =>
      s.attempted = s₀.attempted ∧
        report = checkAllLiveExecutionGates settings client.contractVerified call.candidate
          call.inputs (gateReads call.candidate call.inputs s₀)
    | .riskApproved _ | .attempted _ =>
      s.attempted = s₀.attempted ∧ Approved settings client s₀ call.candidate call.inputs
    | .ended _ =>
      s.attempted = s₀.attempted ∨ Approved settings client s₀ call.candidate call.inputs

variable {before : List LiveExecution} {key : String} {s s₀ : LiveStore} {e : LiveExecution}

/-- A row that is not decided is not counted. -/
theorem not_open_of_undecided (h : e.decided = false) : e.status ∉ openLiveStatuses := by
  intro hopen
  rcases List.mem_pair.1 hopen with hopen | hopen
  · simp [LiveExecution.decided, hopen] at h
  · simp [LiveExecution.decided, hopen] at h

theorem countOpen_added (h : Added s₀.executions key s e) (he : e.decided = false) :
    countOpenLivePositions s = countOpenLivePositions s₀ := by
  simp [countOpenLivePositions, h.rows, List.countP_append, not_open_of_undecided he]

theorem hasConflicting_added (h : Added s₀.executions key s e) (he : e.decided = false)
    (symbol : String) :
    hasConflictingOpenPosition symbol s = hasConflictingOpenPosition symbol s₀ := by
  simp [hasConflictingOpenPosition, h.rows, List.countP_append, not_open_of_undecided he]

/-- **A statement of a call of a new key** reads what the store it was begun on holds. -/
theorem sees_move {call : ExecutionCall} (hworking : call.Working s₀.executions s)
    (h : call.Sees settings client s₀ s) :
    (call.move settings client s).2.Sees settings client s₀ (call.move settings client s).1 := by
  unfold ExecutionCall.move
  unfold ExecutionCall.Working at hworking
  unfold ExecutionCall.Sees at h
  obtain ⟨htrades, hstop, h⟩ := h
  cases hs : call.stage with
  | start =>
    rw [hs] at hworking h
    have hnone : getExistingExecution call.candidate.key s = none := hworking.2.1
    simp only [hnone]
    exact ⟨htrades, hstop, h⟩
  | inserting =>
    rw [hs] at hworking h
    dsimp only
    rw [insertExecution_of_none hworking.2.1]
    exact ⟨htrades, hstop, h⟩
  | rolledBack e =>
    rw [hs] at hworking
    exact hworking.elim
  | received e =>
    rw [hs] at h
    exact ⟨htrades, hstop, h⟩
  | parsed e =>
    rw [hs] at h
    refine ⟨htrades, hstop, h, ?_⟩
    simp [isEmergencyStopActive, hstop]
  | countingOpen e emergency =>
    rw [hs] at hworking h
    exact ⟨htrades, hstop, h.1, h.2, countOpen_added hworking.1 hworking.2⟩
  | readingConflict e emergency openPositions =>
    rw [hs] at hworking h
    exact ⟨htrades, hstop, h.1, h.2.1, h.2.2, hasConflicting_added hworking.1 hworking.2 _⟩
  | readingBudget e emergency openPositions conflicting =>
    rw [hs] at h
    obtain ⟨hattempted, rfl, rfl, rfl⟩ := h
    refine ⟨htrades, hstop, hattempted, ?_⟩
    simp only [gateReads, htrades]
  | evaluated e report =>
    rw [hs] at h
    obtain ⟨hattempted, hreport⟩ := h
    refine ⟨htrades, hstop, ?_⟩
    cases hr : report.approved with
    | true =>
      simp only [hr, if_true]
      exact ⟨hattempted, by rw [Approved, ← hreport, hr]⟩
    | false =>
      simp only [hr, Bool.false_eq_true, if_false]
      exact .inl hattempted
  | riskApproved e =>
    rw [hs] at h
    exact ⟨htrades, hstop, h⟩
  | attempted e =>
    rw [hs] at h
    simp only [attemptOrder]
    split
    · exact ⟨htrades, hstop, .inr h.2⟩
    · exact ⟨htrades, hstop, .inr h.2⟩
  | ended e =>
    rw [hs] at h
    exact ⟨htrades, hstop, h⟩

theorem inputs_alone (call : ExecutionCall) (s : LiveStore) (n : ℕ) :
    (alone (ExecutionCall.move settings client) call s n).2.candidate = call.candidate ∧
      (alone (ExecutionCall.move settings client) call s n).2.inputs = call.inputs := by
  induction n generalizing call s with
  | zero => exact ⟨rfl, rfl⟩
  | succ n ih => exact ih _ _

theorem sees_alone {call : ExecutionCall} (hworking : call.Working s₀.executions s)
    (h : call.Sees settings client s₀ s) (n : ℕ) :
    (alone (ExecutionCall.move settings client) call s n).2.Sees settings client s₀
      (alone (ExecutionCall.move settings client) call s n).1 := by
  induction n generalizing call s with
  | zero => exact h
  | succ n ih =>
    exact ih (working_move settings client hworking) (sees_move settings client hworking h)

/-- **An order is attempted only if the gates approve** what the tables hold when the call begins.
-/
theorem approved_of_attempts (hs : s.Indexed) {candidate : LiveExecutionCandidate}
    {inputs : GateInputs} (h : AttemptsOrder settings client s candidate inputs) :
    Approved settings client s candidate inputs := by
  unfold AttemptsOrder processCandidate at h
  cases hlookup : getExistingExecution candidate.key s with
  | some e =>
    rw [perform_existing settings client hlookup] at h
    exact absurd rfl h
  | none =>
    have hstart : ExecutionCall.Working s.executions s { candidate, inputs } :=
      ⟨rfl, hlookup, hs.issued⟩
    have hsees := sees_alone settings client hstart ⟨rfl, rfl, rfl⟩ 10
    have hleft := (working_alone settings client hstart 10).2.1
    obtain ⟨hcandidate, hinputs⟩ := inputs_alone settings client { candidate, inputs } s 10
    unfold ExecutionAttempt.perform processLiveExecutionCandidate at h
    simp only at h
    generalize alone (ExecutionCall.move settings client) _ s 10 = after at *
    unfold ExecutionCall.Sees at hsees
    -- After its ten statements the call has returned.
    cases hstage : after.2.stage <;> rw [hstage] at hsees hleft <;>
      simp [ExecutionStage.left] at hleft
    rw [hcandidate, hinputs] at hsees
    exact hsees.2.2.resolve_left h

/-- What the approval says about the counters of the gates. -/
theorem limits_of_approved {candidate : LiveExecutionCandidate} {inputs : GateInputs}
    (h : Approved settings client s candidate inputs) :
    (countOpenLivePositions s : ℤ) < settings.maxOpenPositionsLive ∧
      hasConflictingOpenPosition candidate.symbol s = false ∧
      (getDailyTradeBudget s.trades inputs.now).tradesToday < dailyTradeMax := by
  simp only [Approved, GateReport.approved, checkAllLiveExecutionGates, gateReads, List.all_cons,
    Bool.and_eq_true, Bool.not_eq_true'] at h
  obtain ⟨-, -, -, -, -, -, -, -, -, hopen, hconflict, -, -, -, -, -, hdaily, -⟩ := h
  exact ⟨of_decide_eq_true hopen, hconflict, of_decide_eq_true hdaily⟩

/-! ## Runs -/

theorem indexed_step {p : Pipeline} (hp : p.store.Indexed) (event : PipelineEvent) :
    (p.step settings client event).store.Indexed := by
  cases event with
  | candidate candidate inputs => exact indexed_perform settings client hp _
  | tracked id status =>
    have hmap : ∀ e : LiveExecution, (if e.id = id then e.setStatus status else e).id = e.id ∧
        (if e.id = id then e.setStatus status else e).idempotencyKey = e.idempotencyKey := by
      intro e
      split <;> exact ⟨rfl, rfl⟩
    refine ⟨?_, ?_⟩
    · change UniqueKey _ (List.map _ p.store.executions)
      rw [UniqueKey, List.map_map]
      exact (List.map_congr_left fun e _ => (hmap e).2) ▸ hp.unique
    · intro e he
      obtain ⟨b, hb, rfl⟩ := List.mem_map.1 he
      rw [(hmap b).1]
      exact hp.issued b hb
  | journal trades => exact ⟨hp.unique, hp.issued⟩
  | emergencyStop active => exact ⟨hp.unique, hp.issued⟩

/-- When the gates count every order, their approval keeps the limits. -/
theorem limitsHold_of_counted {p : Pipeline} (hp : p.store.Indexed) {event : PipelineEvent}
    (h : p.Counted client event) : p.LimitsHold settings client event := by
  cases event with
  | candidate candidate inputs =>
    intro hattempts
    obtain ⟨hopen, horders⟩ := h
    obtain ⟨hlimit, hconflict, hdaily⟩ :=
      limits_of_approved settings client (approved_of_attempts settings client hp hattempts)
    refine ⟨?_, ?_, horders.trans_lt hdaily⟩
    · have hle : (p.liveRows client).length ≤ countOpenLivePositions p.store := by
        rw [countOpenLivePositions, Pipeline.liveRows, ← List.countP_eq_length_filter]
        refine List.countP_mono_left fun e he hlive => ?_
        exact decide_eq_true (hopen e (List.mem_filter.2 ⟨he, hlive⟩))
      exact (Int.ofNat_le.2 hle).trans_lt hlimit
    · intro e he hsymbol
      have hmem := (List.mem_filter.1 he).1
      have hnone : ∀ b ∈ p.store.executions, b.status ∈ openLiveStatuses →
          b.symbol ≠ candidate.symbol := by
        simpa [hasConflictingOpenPosition] using hconflict
      exact hnone e hmem (hopen e he) hsymbol
  | tracked | journal | emergencyStop => trivial

/-- **The limits on live exposure hold while the gates count every order.** In a run of candidates,
whatever statuses are tracked and whatever trades the journal has in between, each order is
attempted below the limit of open positions, on a symbol without one, and below the daily maximum,
if every candidate meets counters that see the orders before it. -/
theorem limits_hold {s : LiveStore} (hs : s.Indexed) {events : List PipelineEvent}
    (h : Guarded (Pipeline.step settings client) (Pipeline.Counted client) { store := s } events) :
    Guarded (Pipeline.step settings client) (Pipeline.LimitsHold settings client) { store := s }
      events :=
  Guarded.of_invariant (I := fun p => p.store.Indexed)
    (fun _ event hp _ => indexed_step settings client hp event)
    (fun _ _ hp hC => limitsHold_of_counted settings client hp hC) hs h

end

/-! ## Two candidates -/

/-- Live trading armed. -/
def armed : Settings := { automaticTradingEnabled := true, liveExecutionArmed := true }

/-- An order client that is verified and accepts every order. -/
def acceptingClient : OrderClient :=
  { contractVerified := true, submitFuturesOrder := fun _ => .ok () }

/-- A candidate that passes the gates. -/
def soundCandidate (symbol signalId : String) : PipelineEvent :=
  .candidate
    { source := "TELEGRAM_EXTERNAL", symbol, direction := "LONG", entryPrice := 100,
      stopLoss := some 95, takeProfit1 := some 110, signalTimestamp := some 0,
      signalId := some signalId, instrumentEligible := true, currentMarketPrice := some 100,
      instrumentMetadata := some
        { pair := "B-BTC_USDT", status := "active", maxLeverageLong := 20, maxLeverageShort := 20,
          quantityIncrement := 1 / 1000, minQuantity := 1 / 1000, maxQuantity := 1000,
          minNotional := 5, exitOnly := false } }
    { usdtInrRate := some 100, marketDataHealthy := true, coindcxAccountHealthy := true,
      dailyLossOk := true, dailyLossReason := "OK", reconciliationOk := true,
      reconciliationReason := "OK", now := 0 }

/-- A paper trade that the daily budget counts. -/
def paperEntry : Trade :=
  { tradeId := "AI-1", symbol := "ETH/USDT", side := .long, entryPrice := 100, quantity := 1,
    entryTime := 0, source := .aiPaper }

theorem limits_hold_tracked :
    Guarded (Pipeline.step armed acceptingClient) (Pipeline.LimitsHold armed acceptingClient)
      { store := {} }
      [soundCandidate "BTC/USDT" "1", .tracked 0 .positionOpen, .journal [paperEntry],
        soundCandidate "SOL/USDT" "2", .tracked 0 .closed, soundCandidate "SOL/USDT" "3"] := by
  have hindexed : LiveStore.Indexed {} := ⟨List.nodup_nil, by simp⟩
  refine limits_hold armed acceptingClient hindexed ?_
  decide +kernel

/-- The order of the first candidate is accepted and its row stays `EXECUTION_ATTEMPTED`, which the
gates do not count: the second order is attempted with one live already, where one is the limit. -/
theorem limit_passed :
    ¬Guarded (Pipeline.step armed acceptingClient) (Pipeline.LimitsHold armed acceptingClient)
      { store := {} } [soundCandidate "BTC/USDT" "1", soundCandidate "BTC/USDT" "2"] := by
  decide +kernel

end AlphaOne.Live
