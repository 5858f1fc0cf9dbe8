import AlphaOne.LiveExecution.Wiring

/-!
# The decision of a candidate, when its call is cut off

A call of the executor commits the row of its candidate before it evaluates the gates, and decides
it with a later commit. An exception in between ends the call with the row as it is, and every later
call of the same key finds the row and returns it. `perform_new` says what a call that is cut off
leaves behind, and `retries_decide_iff` which runs of calls leave every row decided.
-/

namespace AlphaOne.Live

open Foundations

/-- The row says what became of the candidate: it is approved or further on, or rejected with a
reason. -/
def LiveExecution.decided (e : LiveExecution) : Bool :=
  match e.status with
  | .received | .parsed | .validated => false
  | .rejected => e.rejectionReason.isSome
  | .riskApproved | .executionAttempted | .exchangeAccepted | .filled | .positionOpen | .partialExit
  | .closed => true

/-- A call of the executor, as far as its first `statements` statements: the next one raises, or the
gates or the sizing do before it. Ten statements are all. -/
structure ExecutionAttempt where
  candidate : LiveExecutionCandidate
  inputs : GateInputs
  statements : ℕ
  deriving DecidableEq, Repr

/-- The rows have different keys, and ids that have been given out. -/
structure LiveStore.Indexed (s : LiveStore) : Prop where
  unique : UniqueKey LiveExecution.idempotencyKey s.executions
  issued : ∀ e ∈ s.executions, e.id < s.nextId

section

variable (settings : Settings) (client : OrderClient)

/-- The store after a call. -/
def ExecutionAttempt.perform (s : LiveStore) (a : ExecutionAttempt) : LiveStore :=
  (processLiveExecutionCandidate settings client a.candidate a.inputs a.statements s).1

/-! ## A call of a key that has a row -/

theorem alone_ended {call : ExecutionCall} {e : LiveExecution} (h : call.stage = .ended e)
    (s : LiveStore) (n : ℕ) : (alone (ExecutionCall.move settings client) call s n).1 = s := by
  have hmove : call.move settings client s = (s, call) := by
    obtain ⟨candidate, inputs, stage⟩ := call
    cases h
    rfl
  induction n with
  | zero => rfl
  | succ n ih => rw [alone, hmove, ih]

/-- A call of a key that has a row changes nothing. -/
theorem perform_existing {s : LiveStore} {a : ExecutionAttempt} {e : LiveExecution}
    (h : getExistingExecution a.candidate.key s = some e) : a.perform settings client s = s := by
  unfold ExecutionAttempt.perform processLiveExecutionCandidate
  cases a.statements with
  | zero => rfl
  | succ n =>
    have hmove : ExecutionCall.move settings client
        { candidate := a.candidate, inputs := a.inputs } s =
        (s, { candidate := a.candidate, inputs := a.inputs, stage := .ended e }) := by
      simp [ExecutionCall.move, h]
    rw [alone, hmove]
    exact alone_ended settings client rfl s n

/-! ## A call of a new key -/

/-- The rows are those of before and the row of the call, which has the latest id. -/
structure Added (before : List LiveExecution) (key : String) (s : LiveStore) (e : LiveExecution) :
    Prop where
  rows : s.executions = before ++ [e]
  key_eq : e.idempotencyKey = key
  issued : e.id < s.nextId
  newer : ∀ b ∈ before, b.id < e.id

/-- Where a call of a new key stands: until it has inserted its row there are only the rows of
before, until the gates are committed its row is undecided, and then it is decided. -/
def ExecutionCall.Working (before : List LiveExecution) (s : LiveStore) (call : ExecutionCall) :
    Prop :=
  match call.stage with
  | .start | .inserting =>
    s.executions = before ∧ getExistingExecution call.key s = none ∧ ∀ b ∈ before, b.id < s.nextId
  | .rolledBack _ => False
  | .received e | .parsed e | .countingOpen e _ | .readingConflict e _ _ | .readingBudget e _ _ _
  | .evaluated e _ => Added before call.key s e ∧ e.decided = false
  | .riskApproved e | .attempted e | .ended e => Added before call.key s e ∧ e.decided = true

variable {before : List LiveExecution} {key : String} {s : LiveStore} {e : LiveExecution}

/-- Updating the row of the call leaves the rows of before as they are. -/
theorem Added.update (h : Added before key s e) {change : LiveExecution → LiveExecution}
    (hkeep : (change e).id = e.id ∧ (change e).idempotencyKey = e.idempotencyKey) :
    Added before key (updateExecution e.id change s) (change e) := by
  have hbefore : before.map (fun b => if b.id = e.id then change b else b) = before := by
    refine (List.map_congr_left fun b hb => ?_).trans (List.map_id before)
    rw [if_neg (h.newer b hb).ne]
    rfl
  refine ⟨?_, hkeep.2.trans h.key_eq, ?_, ?_⟩
  · simp [updateExecution, h.rows, hbefore]
  · rw [hkeep.1]
    exact h.issued
  · rw [hkeep.1]
    exact h.newer

/-- The report of the gates decides the row. -/
theorem decided_decide (report : GateReport) (e : LiveExecution) :
    (e.decide report).decided = true := by
  unfold LiveExecution.decide
  cases h : report.approved with
  | true => rfl
  | false =>
    have hfailure : report.firstFailure.isSome = true := (firstFailure_isSome_iff report).2 h
    simpa [LiveExecution.decided] using hfailure

/-- **A statement of a call of a new key** keeps where the call stands. -/
theorem working_move {call : ExecutionCall} (h : call.Working before s) :
    (call.move settings client s).2.Working before (call.move settings client s).1 := by
  unfold ExecutionCall.move
  unfold ExecutionCall.Working at h
  cases hs : call.stage with
  | start =>
    rw [hs] at h
    have hnone : getExistingExecution call.candidate.key s = none := h.2.1
    simp only [hnone]
    exact h
  | inserting =>
    rw [hs] at h
    obtain ⟨hrows, hnone, hissued⟩ := h
    dsimp only
    rw [insertExecution_of_none hnone]
    exact ⟨⟨by simp [hrows], rfl, Nat.lt_succ_self _, hissued⟩, rfl⟩
  | rolledBack e =>
    rw [hs] at h
    exact h.elim
  | received e =>
    rw [hs] at h
    exact ⟨h.1.update ⟨rfl, rfl⟩, rfl⟩
  | parsed e =>
    rw [hs] at h
    exact ⟨⟨h.1.rows, h.1.key_eq, h.1.issued, h.1.newer⟩, h.2⟩
  | countingOpen e | readingConflict e | readingBudget e | ended e =>
    rw [hs] at h
    exact h
  | evaluated e report =>
    rw [hs] at h
    have hdecided : Added before call.key (updateExecution e.id (LiveExecution.decide report) s)
        (e.decide report) := h.1.update (decide_keeps report e)
    cases hr : report.approved with
    | true =>
      simp only [hr, if_true]
      exact ⟨hdecided, decided_decide report e⟩
    | false =>
      simp only [hr, Bool.false_eq_true, if_false]
      exact ⟨hdecided, decided_decide report e⟩
  | riskApproved e =>
    rw [hs] at h
    exact ⟨h.1.update ⟨rfl, rfl⟩, rfl⟩
  | attempted e =>
    rw [hs] at h
    have hlog : Added before call.key
        { s with attempted := s.attempted ++ [orderOf call.candidate] } e :=
      ⟨h.1.rows, h.1.key_eq, h.1.issued, h.1.newer⟩
    cases hsubmit : client.submitFuturesOrder (orderOf call.candidate) with
    | ok =>
      simp only [attemptOrder, hsubmit]
      exact ⟨hlog, h.2⟩
    | error message =>
      simp only [attemptOrder, hsubmit]
      exact ⟨hlog.update ⟨rfl, rfl⟩, rfl⟩

/-- Up to the commit of the decision, a call of a new key takes its statements one by one. -/
theorem left_move_working {call : ExecutionCall} (h : call.Working before s)
    (hleft : 3 < call.stage.left) :
    (call.move settings client s).2.stage.left = call.stage.left - 1 := by
  unfold ExecutionCall.move
  unfold ExecutionCall.Working at h
  cases hs : call.stage with
  | start =>
    rw [hs] at h
    have hnone : getExistingExecution call.candidate.key s = none := h.2.1
    simp [hnone, ExecutionStage.left]
  | inserting =>
    rw [hs] at h
    dsimp only
    rw [insertExecution_of_none h.2.1]
    simp [ExecutionStage.left]
  | received | parsed | countingOpen | readingConflict | readingBudget => rfl
  | rolledBack | evaluated | riskApproved | attempted | ended =>
    rw [hs] at hleft
    simp [ExecutionStage.left] at hleft

theorem key_alone (call : ExecutionCall) (s : LiveStore) (n : ℕ) :
    (alone (ExecutionCall.move settings client) call s n).2.key = call.key := by
  induction n generalizing call s with
  | zero => rfl
  | succ n ih => exact ih _ _

theorem working_alone {call : ExecutionCall} (h : call.Working before s) (n : ℕ) :
    (alone (ExecutionCall.move settings client) call s n).2.Working before
        (alone (ExecutionCall.move settings client) call s n).1 ∧
      (alone (ExecutionCall.move settings client) call s n).2.stage.left ≤ call.stage.left - n ∧
      (n + 3 ≤ call.stage.left →
        (alone (ExecutionCall.move settings client) call s n).2.stage.left =
          call.stage.left - n) := by
  induction n generalizing call s with
  | zero => exact ⟨h, le_rfl, fun _ => rfl⟩
  | succ n ih =>
    have hle := left_move settings client s call
    obtain ⟨hworking, hn, hexact⟩ := ih (working_move settings client h)
    refine ⟨hworking, ?_, fun hleft => ?_⟩
    · rw [alone]
      omega
    · have hone := left_move_working settings client h (by omega)
      rw [alone, hexact (by omega), hone]
      omega

/-- **What a call of a new key leaves behind**: no row before its second statement, an undecided one
up to its seventh, and then a decided one. -/
theorem perform_new {s : LiveStore} (hs : s.Indexed) {a : ExecutionAttempt}
    (h : getExistingExecution a.candidate.key s = none) :
    (a.statements ≤ 1 ∧ (a.perform settings client s).executions = s.executions ∧
      ∀ b ∈ s.executions, b.id < (a.perform settings client s).nextId) ∨
    ∃ e, Added s.executions a.candidate.key (a.perform settings client s) e ∧ 2 ≤ a.statements ∧
      (e.decided = true ↔ 8 ≤ a.statements) := by
  have hstart : ExecutionCall.Working s.executions s
      { candidate := a.candidate, inputs := a.inputs } := ⟨rfl, h, hs.issued⟩
  obtain ⟨hworking, hle, hexact⟩ := working_alone settings client hstart a.statements
  have hkey : (alone (ExecutionCall.move settings client)
      { candidate := a.candidate, inputs := a.inputs } s a.statements).2.key = a.candidate.key :=
    key_alone settings client _ s a.statements
  have hten : ExecutionStage.left ExecutionStage.start = 10 := rfl
  unfold ExecutionAttempt.perform processLiveExecutionCandidate
  generalize alone (ExecutionCall.move settings client) _ s a.statements = after at *
  simp only [hten] at hle hexact
  unfold ExecutionCall.Working at hworking
  cases hstage : after.2.stage <;> rw [hstage] at hworking hle hexact <;>
    simp only [ExecutionStage.left] at hle hexact
  case start | inserting => exact .inl ⟨by omega, hworking.1, hworking.2.2⟩
  case rolledBack => exact hworking.elim
  case received e | parsed e | countingOpen e _ | readingConflict e _ _ | readingBudget e _ _ _ |
      evaluated e _ =>
    refine .inr ⟨e, hkey ▸ hworking.1, by omega, ?_⟩
    simp only [hworking.2, Bool.false_eq_true, false_iff]
    omega
  case riskApproved e | attempted e | ended e =>
    refine .inr ⟨e, hkey ▸ hworking.1, by omega, ?_⟩
    simp only [hworking.2, true_iff]
    omega

theorem indexed_perform {s : LiveStore} (hs : s.Indexed) (a : ExecutionAttempt) :
    (a.perform settings client s).Indexed := by
  cases hlookup : getExistingExecution a.candidate.key s with
  | some e => rwa [perform_existing settings client hlookup]
  | none =>
    rcases perform_new settings client hs hlookup with ⟨-, hrows, hissued⟩ | ⟨e, he, -, -⟩
    · exact ⟨by rw [hrows]; exact hs.unique, by rw [hrows]; exact hissued⟩
    · have hnew : e.idempotencyKey ∉ s.executions.map LiveExecution.idempotencyKey := by
        rw [he.key_eq]
        have := getExistingExecution_none.1 hlookup
        simpa [LiveStore.footprint] using this
      refine ⟨?_, ?_⟩
      · rw [he.rows, UniqueKey, List.map_append]
        exact nodup_append_singleton hs.unique hnew
      · intro b hb
        rw [he.rows] at hb
        rcases List.mem_append.1 hb with hb | hb
        · exact (he.newer b hb).trans he.issued
        · exact List.mem_singleton.1 hb ▸ he.issued

/-! ## Runs of calls -/

/-- Whichever row there is, a later call of its key that nothing cuts off leaves it decided. -/
def RetriesDecide (s : LiveStore) : Prop :=
  ∀ e ∈ s.executions, ∀ retry : ExecutionAttempt, retry.candidate.key = e.idempotencyKey →
    10 ≤ retry.statements → ∃ row ∈ (retry.perform settings client s).executions,
      row.idempotencyKey = e.idempotencyKey ∧ row.decided = true

/-- A call of a new key is not cut off between the commit of its row and that of its decision. -/
def ExecutionAttempt.Uncut (s : LiveStore) (a : ExecutionAttempt) : Prop :=
  getExistingExecution a.candidate.key s = none → a.statements ≤ 1 ∨ 8 ≤ a.statements

instance (s : LiveStore) (a : ExecutionAttempt) : Decidable (a.Uncut s) :=
  inferInstanceAs (Decidable (_ = none → _ ∨ _))

/-- Every row is decided. -/
structure LiveStore.Decided (s : LiveStore) : Prop extends s.Indexed where
  decided : ∀ e ∈ s.executions, e.decided = true

/-- A row that is there keeps its decision, and its lack of one, under any retry. -/
theorem perform_of_mem {s : LiveStore} (hs : s.Indexed) {e : LiveExecution}
    (he : e ∈ s.executions) {retry : ExecutionAttempt}
    (hkey : retry.candidate.key = e.idempotencyKey) : retry.perform settings client s = s := by
  have hlookup : getExistingExecution retry.candidate.key s = some e := by
    rw [hkey]
    exact (lookup_eq_some_iff hs.unique).2 ⟨he, rfl⟩
  exact perform_existing settings client hlookup

theorem LiveStore.Decided.retriesDecide {s : LiveStore} (hs : s.Decided) :
    RetriesDecide settings client s := by
  intro e he retry hkey _
  rw [perform_of_mem settings client hs.toIndexed he hkey]
  exact ⟨e, he, rfl, hs.decided e he⟩

theorem LiveStore.Decided.perform {s : LiveStore} (hs : s.Decided) {a : ExecutionAttempt}
    (ha : a.Uncut s) : (a.perform settings client s).Decided := by
  refine ⟨indexed_perform settings client hs.toIndexed a, ?_⟩
  cases hlookup : getExistingExecution a.candidate.key s with
  | some e =>
    rw [perform_existing settings client hlookup]
    exact hs.decided
  | none =>
    rcases perform_new settings client hs.toIndexed hlookup with ⟨-, hrows, -⟩ | ⟨e, he, htwo, hdec⟩
    · rw [hrows]
      exact hs.decided
    · have hdecided : e.decided = true := hdec.2 ((ha hlookup).resolve_left (by omega))
      intro b hb
      rw [he.rows] at hb
      rcases List.mem_append.1 hb with hb | hb
      · exact hs.decided b hb
      · rw [List.mem_singleton.1 hb, hdecided]

/-- A call that is cut off leaves a row no retry decides. -/
theorem uncut_of_retriesDecide {s : LiveStore} (hs : s.Indexed) {a : ExecutionAttempt}
    (h : RetriesDecide settings client (a.perform settings client s)) : a.Uncut s := by
  intro hlookup
  by_contra hcut
  have hindexed := indexed_perform settings client hs a
  rcases perform_new settings client hs hlookup with ⟨hone, -, -⟩ | ⟨e, he, htwo, hdec⟩
  · exact hcut (.inl hone)
  · have hmem : e ∈ (a.perform settings client s).executions := by simp [he.rows]
    let retry : ExecutionAttempt := { a with statements := 10 }
    have hretry : retry.candidate.key = e.idempotencyKey := he.key_eq.symm
    obtain ⟨row, hrow, hkey, hdecided⟩ := h e hmem retry hretry le_rfl
    rw [perform_of_mem settings client hindexed hmem hretry] at hrow
    have heq : row = e := hindexed.unique.eq_of_key hrow hmem hkey
    rw [heq] at hdecided
    exact hcut (.inr (hdec.1 hdecided))

/-- **Every candidate ends decided, exactly when no call is cut off before its decision.** After
each call of a run, a retry of any row leaves it decided, if and only if no call of the run is cut
off between the commit of its row and that of the gates. -/
theorem retries_decide_iff {s : LiveStore} (hs : s.Decided) (attempts : List ExecutionAttempt) :
    Always (ExecutionAttempt.perform settings client) (RetriesDecide settings client) s attempts ↔
      Guarded (ExecutionAttempt.perform settings client) (fun s a => a.Uncut s) s attempts :=
  always_iff_guarded_of_invariant (A := fun _ _ => True)
    (fun _ h => h.retriesDecide settings client)
    (fun _ _ h _ ha => h.perform settings client ha)
    (fun _ _ h _ hP => uncut_of_retriesDecide settings client h.toIndexed hP) hs
    (Guarded.of_forall (by simp) s attempts)

end

/-- A call of a candidate that is cut off after `statements` statements. -/
def cutOff (signalId : String) (statements : ℕ) : ExecutionAttempt :=
  { candidate := (candidateOf signalId).1, inputs := (candidateOf signalId).2, statements }

/-- The run of two candidates, one cut off before it inserts its row and the other not at all. -/
theorem retries_decide_uncut :
    Always (ExecutionAttempt.perform {} orderClient) (RetriesDecide {} orderClient) {}
      [cutOff "1" 1, cutOff "2" 10, cutOff "1" 10] :=
  have hempty : LiveStore.Decided {} := ⟨⟨List.nodup_nil, by simp⟩, by simp⟩
  have huncut : Guarded (ExecutionAttempt.perform {} orderClient) (fun s a => a.Uncut s) {}
      [cutOff "1" 1, cutOff "2" 10, cutOff "1" 10] := by decide +kernel
  (retries_decide_iff {} orderClient hempty _).2 huncut

/-- The gates raise on their first query: the row stays `PARSED`, and a retry returns it. -/
theorem undecided_after_retry :
    ¬Always (ExecutionAttempt.perform {} orderClient) (RetriesDecide {} orderClient) {}
      [cutOff "1" 3] := by
  intro h
  have hrow := h.last { receivedExecution (candidateOf "1").1 0 with status := .parsed }
    (by decide +kernel) (cutOff "1" 10) rfl le_rfl
  revert hrow
  decide +kernel

end AlphaOne.Live
