import AlphaOne.Paper.Interleaved

/-!
# The shared daily cap

The AI job and the Telegram signals share a budget of fifteen positions a UTC day. The budget is a
count of rows by their entry time; only the Telegram calls look at it, and before they insert.

`cap_respected` says what this is enough for: the cap holds along every run in which, whenever a
position enters a book, the rows count everything that was opened that day, the AI job happens to
open only while there is room, and no row has been added since the check of a Telegram call. The
first fails for rows that are not committed yet and for entry times on another day than the
processing, the second because the job does not check, the third in a race of two calls.
-/

namespace AlphaOne.Paper

open Foundations Journal Risk Scheduler TelegramSignals

/-- The number of positions that were put into the books on a UTC day. -/
def openedOn (day : ℤ) (openings : List Datetime) : ℕ := openings.countP fun t => t.date = day

/-- **The shared cap**: on no day more positions were opened than the budget allows. -/
def WithinCap (desk : Desk) : Prop := ∀ day, openedOn day desk.openings ≤ dailyTradeMax

/-- The time at which the next statement puts a position into a book, if it does. -/
def DeskCall.enters (desk : Desk) : DeskCall → Option Datetime
  | .tick t (.enriching (signal :: _)) =>
    if t.enriches signal = true ∧
        (desk.system.paperTrader.openPosition signal (t.now signal)).1.isSome = true then
      some (t.now signal)
    else none
  | .execute _ enteredAt (.approved _ _ _) => some enteredAt
  | _ => none

/-- The entries that the budget of the day of `now` counts. -/
def countedOn (desk : Desk) (now : Datetime) : ℕ :=
  (getDailyTradeBudget desk.system.tables.trades now).tradesToday

/-- A call that is about to open a position, and would count `n` entries now, has room for it: the
AI job sees it now, a Telegram call has seen it and finds no more entries. -/
def DeskCall.FindsRoom (n : ℕ) : DeskCall → Prop
  | .execute _ _ (.approved _ _ tradesToday) => n ≤ tradesToday
  | _ => n < dailyTradeMax

/-- **What an opening needs**, at the time `now`: the budget counts every position opened on the
day, the AI job finds room in it, and a Telegram call finds no more entries than its check has. -/
def DeskCall.Budgeted (desk : Desk) (p : DeskCall) : Prop :=
  ∀ now ∈ p.enters desk, openedOn now.date desk.openings ≤ countedOn desk now ∧
    p.FindsRoom (countedOn desk now)

/-- A call whose trade is approved has found room in the budget. -/
def DeskCall.FoundRoom : DeskCall → Prop
  | .execute _ _ (.approved _ _ tradesToday) => tradesToday < dailyTradeMax
  | _ => True

instance (n : ℕ) : DecidablePred (DeskCall.FindsRoom n)
  | .execute _ _ (.approved _ _ tradesToday) => inferInstanceAs (Decidable (n ≤ tradesToday))
  | .execute _ _ .start => inferInstanceAs (Decidable (n < dailyTradeMax))
  | .execute _ _ (.checking _) => inferInstanceAs (Decidable (n < dailyTradeMax))
  | .execute _ _ (.recordingOpen _ _) => inferInstanceAs (Decidable (n < dailyTradeMax))
  | .execute _ _ (.naming _) => inferInstanceAs (Decidable (n < dailyTradeMax))
  | .execute _ _ (.ended _) => inferInstanceAs (Decidable (n < dailyTradeMax))
  | .tick _ _ => inferInstanceAs (Decidable (n < dailyTradeMax))
  | .store _ _ _ => inferInstanceAs (Decidable (n < dailyTradeMax))

instance (desk : Desk) (p : DeskCall) : Decidable (p.Budgeted desk) :=
  inferInstanceAs (Decidable (∀ now ∈ p.enters desk,
    openedOn now.date desk.openings ≤ countedOn desk now ∧ p.FindsRoom (countedOn desk now)))

/-- The statements put a position into a book where `enters` says so, and nowhere else. -/
theorem move_openings (desk : Desk) (p : DeskCall) :
    (p.move desk).1.openings = desk.openings ++ (p.enters desk).toList := by
  cases p with
  | store candles signals done => cases done <;> simp [DeskCall.move, DeskCall.enters]
  | execute call enteredAt stage =>
    cases stage with
    | start =>
      simp only [DeskCall.move, moveExecute, DeskCall.enters, Option.toList_none, List.append_nil]
      split
      · rfl
      · split <;> rfl
    | checking plan =>
      simp only [DeskCall.move, moveExecute, DeskCall.enters, Option.toList_none, List.append_nil]
      split <;> rfl
    | approved plan sizing n => rfl
    | recordingOpen plan position =>
      simp only [DeskCall.move, moveExecute, DeskCall.enters, Option.toList_none, List.append_nil]
      split <;> rfl
    | naming position =>
      simp only [DeskCall.move, moveExecute, DeskCall.enters, Option.toList_none, List.append_nil]
      split <;> rfl
    | ended result => simp [DeskCall.move, moveExecute, DeskCall.enters]
  | tick t stage =>
    cases stage with
    | start =>
      simp only [DeskCall.move, moveTick, DeskCall.enters, Option.toList_none, List.append_nil]
      split <;> rfl
    | recordingEvents candle events =>
      simp only [DeskCall.move, moveTick, DeskCall.enters, Option.toList_none, List.append_nil]
      split
      · rfl
      · split <;> rfl
    | evaluatingHealth candle =>
      simp only [DeskCall.move, moveTick, DeskCall.enters, Option.toList_none, List.append_nil]
      split <;> rfl
    | selectingSignals candle => simp [DeskCall.move, moveTick, DeskCall.enters]
    | enriching signals =>
      cases signals with
      | nil => simp [DeskCall.move, moveTick, DeskCall.enters]
      | cons signal rest =>
        cases henrich : t.enriches signal with
        | false => simp [DeskCall.move, moveTick, DeskCall.enters, henrich]
        | true =>
          cases ho : desk.system.paperTrader.openPosition signal (t.now signal) with
          | mk result trader =>
            cases result <;> simp [DeskCall.move, moveTick, DeskCall.enters, henrich, ho]
    | recordingOpen position rest =>
      simp only [DeskCall.move, moveTick, DeskCall.enters, Option.toList_none, List.append_nil]
      split <;> rfl
    | ended completed => simp [DeskCall.move, moveTick, DeskCall.enters]

/-- A check that approves a trade has found room. -/
theorem room_of_approved {trades : List Trade} {entry rate : Option ℚ} {now : Datetime}
    {sizing : FixedMarginSizing} (h : checkFixedMarginTrade trades entry rate now = .ok sizing) :
    (getDailyTradeBudget trades now).tradesToday < dailyTradeMax := by
  unfold checkFixedMarginTrade at h
  dsimp only at h
  split at h
  · rename_i hroom
    exact of_decide_eq_true hroom
  · cases h

/-- A call keeps what it has found. -/
theorem foundRoom_move {p : DeskCall} (h : p.FoundRoom) (desk : Desk) :
    (p.move desk).2.FoundRoom := by
  cases p with
  | tick t stage => trivial
  | store candles signals done =>
    cases done <;> simp [DeskCall.move, DeskCall.FoundRoom]
  | execute call enteredAt stage =>
    cases stage with
    | start =>
      simp only [DeskCall.move, moveExecute]
      split
      · trivial
      · split <;> trivial
    | checking plan =>
      simp only [DeskCall.move, moveExecute]
      split
      · trivial
      · rename_i sizing hcheck
        exact room_of_approved hcheck
    | approved plan sizing n => trivial
    | recordingOpen plan position =>
      simp only [DeskCall.move, moveExecute]
      split <;> trivial
    | naming position =>
      simp only [DeskCall.move, moveExecute]
      split <;> trivial
    | ended result => trivial

/-- Either way there is room now. -/
theorem below_of_findsRoom {p : DeskCall} {n : ℕ} (hroom : p.FoundRoom) (h : p.FindsRoom n) :
    n < dailyTradeMax := by
  cases p with
  | execute call enteredAt stage =>
    cases stage with
    | approved plan sizing tradesToday => exact lt_of_le_of_lt h hroom
    | _ => exact h
  | tick | store => exact h

/-- An opening that meets its condition leaves the day within the cap. -/
theorem withinCap_move {p : DeskCall} {desk : Desk} (h : WithinCap desk) (hroom : p.FoundRoom)
    (hbudget : p.Budgeted desk) : WithinCap (p.move desk).1 := by
  intro day
  rw [move_openings, openedOn, List.countP_append]
  cases henters : p.enters desk with
  | none => simpa [openedOn] using h day
  | some now =>
    obtain ⟨hcounted, hnow⟩ := hbudget now henters
    have hbelow : countedOn desk now < dailyTradeMax := below_of_findsRoom hroom hnow
    by_cases hday : now.date = day
    · have hone : (some now).toList.countP (fun t => t.date = day) = 1 := by simp [hday]
      rw [hone, ← hday]
      exact lt_of_le_of_lt hcounted hbelow
    · have hnone : (some now).toList.countP (fun t => t.date = day) = 0 := by simp [hday]
      rw [hnone]
      exact h day

theorem deskCalls_stable : Stable DeskCall.move WithinCap (fun _ p => p.FoundRoom)
    (fun _ _ => True) (fun desk p => p.Budgeted desk) where
  symm := by simp
  store _ _ h hroom hbudget := withinCap_move h hroom hbudget
  own desk _ _ hroom _ := foundRoom_move hroom desk
  others _ _ _ _ _ _ hother _ := ⟨hother, trivial⟩

/-- The ticks, calls and jobs of a run, none of them begun. -/
def DeskCall.Fresh : DeskCall → Prop
  | .tick _ stage => stage = .start
  | .execute _ _ stage => stage = .start
  | .store _ _ done => done = false

/-- **The cap is respected** along every interleaving of the AI job and the Telegram calls in which,
whenever a position enters a book, the rows count what was opened that day, the AI job opens only
while there is room, and a Telegram call finds no more entries than its check has. -/
theorem cap_respected {desk : Desk} (h : WithinCap desk) {calls : List DeskCall}
    (hcalls : ∀ p ∈ calls, p.Fresh) {schedule : List ℕ}
    (hg : Guarded (Pool.step DeskCall.move) (Pool.Meets fun desk p => p.Budgeted desk)
      ⟨desk, calls⟩ schedule) :
    Always (Pool.step DeskCall.move) (fun c => WithinCap c.store) ⟨desk, calls⟩ schedule := by
  have hstart : Pool.Invariant WithinCap (fun _ p => DeskCall.FoundRoom p) (fun _ _ => True)
      ⟨desk, calls⟩ := by
    refine ⟨h, ?_, List.pairwise_of_forall (by simp)⟩
    intro p hp
    have hfresh := hcalls p hp
    cases p with
    | execute call enteredAt stage =>
      obtain rfl : stage = .start := hfresh
      trivial
    | tick | store => trivial
  exact (deskCalls_stable.always hstart hg).mono fun _ hc => hc.store

/-- The desk of a new process on an empty database. -/
def sampleDesk : Desk := { system := sampleStart.system }

theorem withinCap_sampleDesk : WithinCap sampleDesk := fun _ => Nat.zero_le _

/-- The call for an external signal, none of it done, that enters the book when its signal is read.
-/
def sampleExecution (id : ℕ) : DeskCall :=
  .execute
    { signal :=
        { id := toString id, messageId := id, sourceChannel := "signals", status := .valid
          symbol := some (toString id), direction := some .short, entryPrice := some 100
          stopLoss := some 120, takeProfit1 := some 90 }
      usdtInrRate := some 80
      utcnow := 0 }
    0 .start

/-- A job that stores candles and a signal, a tick that trades it, and an external signal. -/
def quietCalls : List DeskCall :=
  [.store quietCandles [sampleSignal "S1" 59] false, .tick sampleTick .start, sampleExecution 1]

/-- The law on a run in which a tick opens a position, and then a call whose check counts it. -/
theorem cap_respected_quietCalls :
    Always (Pool.step DeskCall.move) (fun c => WithinCap c.store) ⟨sampleDesk, quietCalls⟩
        [0, 1, 1, 1, 1, 1, 2, 2, 2, 2, 2] ∧
      (run (Pool.step DeskCall.move) ⟨sampleDesk, quietCalls⟩
        [0, 1, 1, 1, 1, 1, 2, 2, 2, 2, 2]).store.openings = [0, 0] :=
  ⟨cap_respected withinCap_sampleDesk (by simp [quietCalls, sampleExecution, DeskCall.Fresh])
    (by decide +kernel), by decide +kernel⟩

/-- Fifteen external signals, and the candles, the signal and the tick of the job. -/
def busyCalls : List DeskCall :=
  (List.range 15).map sampleExecution ++
    [.store quietCandles [sampleSignal "S1" 59] false, .tick sampleTick .start]

/-- The fifteen signals are executed one after the other, and then the tick runs. -/
def busySchedule : List ℕ :=
  (List.range 15).flatMap (List.replicate 5) ++ [15, 16, 16, 16, 16, 16]

/-- The job opens the sixteenth position of a day: nothing in it looks at the budget. -/
theorem tick_exceeds_cap : ¬Always (Pool.step DeskCall.move) (fun c => WithinCap c.store)
    ⟨sampleDesk, busyCalls⟩ busySchedule := by
  intro h
  have hopened : openedOn 0 (run (Pool.step DeskCall.move)
      ⟨sampleDesk, busyCalls⟩ busySchedule).store.openings = 16 := by
    decide +kernel
  have hcap := h.last 0
  rw [hopened] at hcap
  exact absurd hcap (by decide)

end AlphaOne.Paper
