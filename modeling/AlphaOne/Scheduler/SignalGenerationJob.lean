import AlphaOne.SignalEngine.MultiStrategy
import AlphaOne.SignalEngine.Notify
import AlphaOne.SignalEngine.OneSignal

/-!
# The alerts of the signal job

`signal_generation_job` of `services/scheduler/jobs.py`, tick after tick. The evaluation has
committed all signals of a tick when the first of them is announced, and the first exception of an
announcement ends the tick. A later tick does not come back to the rest: what it announces it has
persisted itself (`attempted_fresh`), and the duplicate check keeps it from persisting a signal
again.

`none_lost_iff` is the exact condition under which no signal loses its alert.
-/

namespace AlphaOne.Scheduler

open Foundations SignalEngine

/-! ## A tick -/

/-- Whether the statements of an announcement return: the bot's `send_signal`, and the commit of the
row. -/
structure Delivery where
  sends : Bool := true
  commits : Bool := true
  deriving DecidableEq, Repr

def Delivery.Returns (d : Delivery) : Prop := d.sends = true ∧ d.commits = true

instance (d : Delivery) : Decidable d.Returns := by unfold Delivery.Returns; infer_instance

inductive AlertFailure
  | evaluation (e : SignalFailure)
  | notification (e : NotifyError)
  /-- The commit of the row raises. -/
  | commitError
  deriving DecidableEq, Repr

/-- `notify_new_signal`, with the commit of its row. -/
def notifyAndCommit (signal : Signal) (d : Delivery) (logs : List NotificationLog) :
    Except AlertFailure Bool × List NotificationLog :=
  match notifyNewSignal signal d.sends logs with
  | (.error e, _) => (.error (.notification e), logs)
  | (.ok false, _) => (.ok false, logs)
  | (.ok true, sent) => if d.commits then (.ok true, sent) else (.error .commitError, logs)

/-- How far the loop over the new signals has come. -/
structure Announced where
  failure : Option AlertFailure := none
  attempted : List Signal := []
  logs : List NotificationLog
  deriving DecidableEq, Repr

/-- The loop over the new signals, from the announcement `n` on. -/
def notifyAll (deliveries : ℕ → Delivery) : ℕ → List Signal → List NotificationLog → Announced
  | _, [], logs => { logs }
  | n, signal :: rest, logs =>
    match notifyAndCommit signal (deliveries n) logs with
    | (.error e, logs) => { failure := some e, attempted := [signal], logs }
    | (.ok _, logs) =>
      let announced := notifyAll deliveries (n + 1) rest logs
      { announced with attempted := signal :: announced.attempted }

/-- A tick of the job, with what other jobs have done to the database since the one before. -/
structure SignalTick where
  symbol : String := "BTC/USDT"
  timeframe : String := "4h"
  /-- The hex digits of the UUIDs it draws. -/
  uuidHex : ℕ → String
  deliveries : ℕ → Delivery
  candles : List Candle
  paused : Option Bool := none
  /-- The signals of other writers. -/
  others : List Signal := []

/-- The database between two ticks. -/
structure SignalDesk where
  store : SignalStore := {}
  logs : List NotificationLog := []

/-- The store a tick finds. -/
def SignalTick.found (t : SignalTick) (desk : SignalDesk) : SignalStore :=
  { desk.store with
    candles := t.candles
    paused := t.paused
    signals := insertAllNew Signal.signalId desk.store.signals t.others }

/-- What a tick does. -/
structure SignalTicked where
  failure : Option AlertFailure := none
  persisted : List Signal
  attempted : List Signal := []
  desk : SignalDesk

section

variable (engine : Strategies)

/-- The evaluation of a tick. -/
def SignalTick.evaluation (t : SignalTick) (desk : SignalDesk) :
    Except SignalFailure (List Signal) × SignalStore :=
  evaluateAllStrategiesForTimeframe engine t.symbol t.timeframe none t.uuidHex (t.found desk)

/-- The signals that a tick persists. -/
def SignalTick.persisted (t : SignalTick) (desk : SignalDesk) : List Signal :=
  (t.evaluation engine desk).2.signals.drop (t.found desk).signals.length

/-- `signal_generation_job`. -/
def signalGenerationJob (t : SignalTick) (desk : SignalDesk) : SignalTicked :=
  let persisted := t.persisted engine desk
  match t.evaluation engine desk with
  | (.error e, store) =>
    { failure := some (.evaluation e), persisted, desk := { desk with store } }
  | (.ok signals, store) =>
    let announced := notifyAll t.deliveries 0 signals desk.logs
    { failure := announced.failure, persisted, attempted := announced.attempted,
      desk := { store, logs := announced.logs } }

/-- The database after the first `n` ticks of a run. -/
def deskAt (ticks : ℕ → SignalTick) : ℕ → SignalDesk
  | 0 => {}
  | n + 1 => (signalGenerationJob engine (ticks n) (deskAt ticks n)).desk

/-- What a tick of a run does. -/
def tickedAt (ticks : ℕ → SignalTick) (n : ℕ) : SignalTicked :=
  signalGenerationJob engine (ticks n) (deskAt engine ticks n)

/-! ## What is asked of a run -/

/-- A sent row for the signal. -/
def HasAlert (signal : Signal) (logs : List NotificationLog) : Prop :=
  ∃ l ∈ logs, l.messageType = signalDedupKey signal.signalId ∧ l.status = "sent"

def IsTraded (signal : Signal) : Prop := signal.signalType = .long ∨ signal.signalType = .short

instance (signal : Signal) (logs : List NotificationLog) : Decidable (HasAlert signal logs) := by
  unfold HasAlert; infer_instance

instance (signal : Signal) : Decidable (IsTraded signal) := by unfold IsTraded; infer_instance

/-- Every traded signal has its alert at the end of the tick that persists it, or a later tick
attempts it. -/
def NoneLost (ticks : ℕ → SignalTick) : Prop :=
  ∀ i, ∀ signal ∈ (tickedAt engine ticks i).persisted, IsTraded signal →
    HasAlert signal (tickedAt engine ticks i).desk.logs ∨
      ∃ j > i, ∃ again ∈ (tickedAt engine ticks j).attempted, again.signalId = signal.signalId

/-- The condition on a tick: no announcement raises up to that of the last traded signal, and the
evaluation does not raise after it has persisted one. -/
def Delivers (t : SignalTick) (desk : SignalDesk) : Prop :=
  match (t.evaluation engine desk).1 with
  | .error _ => ∀ signal ∈ t.persisted engine desk, ¬IsTraded signal
  | .ok _ => ∀ k signal, (t.persisted engine desk)[k]? = some signal → IsTraded signal →
    ∀ j ≤ k, (t.deliveries j).Returns

end

/-! ## The announcements of a tick -/

theorem signalDedupKey_injective {a b : String} (h : signalDedupKey a = signalDedupKey b) :
    a = b := by
  have h' := congrArg String.toList h
  simp only [signalDedupKey, String.toList_append] at h'
  exact String.toList_inj.1 (List.append_cancel_left h')

/-- A signal without a row is announced, and its row committed, exactly if both statements
return. -/
theorem notifyAndCommit_of_new {signal : Signal} (hfires : fires signal = true) {d : Delivery}
    {logs : List NotificationLog}
    (hnew : ∀ l ∈ logs, l.messageType ≠ signalDedupKey signal.signalId) :
    if d.Returns then notifyAndCommit signal d logs = (.ok true, logs ++ [signalLog signal])
    else ∃ e, notifyAndCommit signal d logs = (.error e, logs) := by
  have htype : signal.signalType ≠ .noTrade := of_decide_eq_true hfires
  have hnone : (logs.filter fun l => l.messageType = signalDedupKey signal.signalId) = [] := by
    simpa [List.filter_eq_nil_iff] using hnew
  have halerted :
      PositionMonitor.alreadyAlerted logs (signalDedupKey signal.signalId) = .ok false := by
    simp only [PositionMonitor.alreadyAlerted, hnone]
  obtain ⟨sends, commits⟩ := d
  cases sends <;> cases commits <;>
    simp [Delivery.Returns, notifyAndCommit, notifyNewSignal, htype, halerted]

/-- **The loop announces the new signals up to the first exception**, and adds their rows. -/
theorem notifyAll_spec (deliveries : ℕ → Delivery) (n : ℕ) {signals : List Signal}
    {logs : List NotificationLog} (hfires : ∀ x ∈ signals, fires x = true)
    (hdistinct : UniqueKey Signal.signalId signals)
    (hnew : ∀ x ∈ signals, ∀ l ∈ logs, l.messageType ≠ signalDedupKey x.signalId) :
    let announced := notifyAll deliveries n signals logs
    announced.attempted ⊆ signals ∧
      ∃ m, announced.logs = logs ++ (signals.take m).map signalLog ∧
        ∀ k, k < m ↔ k < signals.length ∧ ∀ j ≤ k, (deliveries (n + j)).Returns := by
  induction signals generalizing n logs with
  | nil => exact ⟨by simp [notifyAll], 0, by simp [notifyAll], by simp⟩
  | cons x rest ih =>
    have hx := @notifyAndCommit_of_new x (hfires x (by simp)) (deliveries n) logs (hnew x (by simp))
    by_cases hd : (deliveries n).Returns
    · rw [if_pos hd] at hx
      obtain ⟨hfirst, hrest⟩ := List.nodup_cons.1 hdistinct
      have hnew' : ∀ y ∈ rest, ∀ l ∈ logs ++ [signalLog x],
          l.messageType ≠ signalDedupKey y.signalId := by
        intro y hy l hl
        rcases List.mem_append.1 hl with hl | hl
        · exact hnew y (by simp [hy]) l hl
        · rw [List.mem_singleton.1 hl]
          intro hkey
          have hid := signalDedupKey_injective hkey
          exact hfirst (hid ▸ List.mem_map_of_mem hy)
      obtain ⟨hattempted, m, hlogs, hm⟩ := ih (n + 1)
        (fun y hy => hfires y (by simp [hy])) hrest hnew'
      simp only [notifyAll, hx]
      refine ⟨List.cons_subset_cons _ hattempted, m + 1, ?_, fun k => ?_⟩
      · rw [hlogs, List.take_succ_cons, List.map_cons, List.append_assoc, List.singleton_append]
      · cases k with
        | zero => simpa using hd
        | succ k =>
          rw [Nat.succ_lt_succ_iff, hm k, List.length_cons, Nat.succ_lt_succ_iff]
          refine and_congr_right fun _ => ⟨fun h j hj => ?_, fun h j hj => ?_⟩
          · cases j with
            | zero => exact hd
            | succ j =>
              have hj' := h j (by omega)
              rwa [Nat.add_assoc, Nat.add_comm 1 j] at hj'
          · have hj' := h (j + 1) (by omega)
            rwa [Nat.add_assoc, Nat.add_comm 1 j]
    · rw [if_neg hd] at hx
      obtain ⟨e, hx⟩ := hx
      simp only [notifyAll, hx]
      refine ⟨by simp, 0, by simp, fun k => ?_⟩
      simp only [Nat.not_lt_zero, false_iff, not_and]
      exact fun _ h => hd (h 0 (Nat.zero_le _))

/-! ## One tick -/

/-- Every row is the row of a stored signal. -/
def Logged (desk : SignalDesk) : Prop :=
  ∀ l ∈ desk.logs, ∃ s ∈ desk.store.signals, l = signalLog s

section

variable {engine : Strategies} {t : SignalTick} {desk : SignalDesk}

theorem persisted_spec : Persists (t.found desk) (t.evaluation engine desk).2
    (t.persisted engine desk) ∧
      ∀ signals, (t.evaluation engine desk).1 = .ok signals → signals = t.persisted engine desk := by
  obtain ⟨new, hnew, hreturns⟩ :=
    evaluateAll_persists engine t.symbol t.timeframe none t.uuidHex (t.found desk)
  have hpersisted : t.persisted engine desk = new := by
    unfold SignalTick.persisted SignalTick.evaluation
    rw [hnew.signals, List.drop_left]
  rw [hpersisted]
  exact ⟨hnew, hreturns⟩

theorem job_store : (signalGenerationJob engine t desk).desk.store =
    (t.evaluation engine desk).2 := by
  unfold signalGenerationJob
  split <;> simp_all

/-- The signals of a database stay. -/
theorem mem_job_signals {s : Signal} (hs : s ∈ desk.store.signals) :
    s ∈ (signalGenerationJob engine t desk).desk.store.signals := by
  rw [job_store, persisted_spec.1.signals]
  exact List.mem_append_left _ (mem_insertAllNew_of_mem hs)

theorem mem_job_of_persisted {s : Signal} (hs : s ∈ t.persisted engine desk) :
    s ∈ (signalGenerationJob engine t desk).desk.store.signals := by
  rw [job_store, persisted_spec.1.signals]
  exact List.mem_append_right _ hs

/-- A signal that a tick persists has an id which is not in the database yet. -/
theorem persisted_fresh {x s : Signal} (hx : x ∈ t.persisted engine desk)
    (hs : s ∈ desk.store.signals) : s.signalId ≠ x.signalId :=
  persisted_spec.1.fresh x hx s (mem_insertAllNew_of_mem hs)

/-- A signal that a tick persists has no row yet. -/
theorem unlogged (hdesk : Logged desk) {x : Signal} (hx : x ∈ t.persisted engine desk) :
    ∀ l ∈ desk.logs, l.messageType ≠ signalDedupKey x.signalId := by
  intro l hl hkey
  obtain ⟨s, hs, rfl⟩ := hdesk l hl
  exact persisted_fresh hx hs (signalDedupKey_injective hkey)

/-- **What a tick announces**: nothing, when the evaluation raises; else the signals it has
persisted, up to the first announcement that raises. -/
theorem job_spec (hdesk : Logged desk) :
    (signalGenerationJob engine t desk).attempted ⊆ t.persisted engine desk ∧
      ∃ m, (signalGenerationJob engine t desk).desk.logs =
          desk.logs ++ ((t.persisted engine desk).take m).map signalLog ∧
        ∀ k, k < m ↔ k < (t.persisted engine desk).length ∧
          (∃ signals, (t.evaluation engine desk).1 = .ok signals) ∧
          ∀ j ≤ k, (t.deliveries j).Returns := by
  obtain ⟨hpersists, hreturns⟩ := @persisted_spec engine t desk
  unfold signalGenerationJob
  split
  · next e store he =>
    exact ⟨by simp, 0, by simp, by simp [he]⟩
  · next signals store he =>
    obtain rfl := hreturns signals (by rw [he])
    obtain ⟨hattempted, m, hlogs, hm⟩ := notifyAll_spec t.deliveries 0 hpersists.fires
      hpersists.distinct fun x hx => unlogged hdesk hx
    refine ⟨hattempted, m, hlogs, fun k => ?_⟩
    simpa [he] using hm k

theorem logged_job (hdesk : Logged desk) : Logged (signalGenerationJob engine t desk).desk := by
  obtain ⟨-, m, hlogs, -⟩ := @job_spec engine t desk hdesk
  intro l hl
  rw [hlogs] at hl
  rcases List.mem_append.1 hl with hl | hl
  · obtain ⟨s, hs, rfl⟩ := hdesk l hl
    exact ⟨s, mem_job_signals hs, rfl⟩
  · obtain ⟨s, hs, rfl⟩ := List.mem_map.1 hl
    exact ⟨s, mem_job_of_persisted (List.mem_of_mem_take hs), rfl⟩

/-- A signal that a tick persists has its alert at the end exactly if the loop has come past it. -/
theorem hasAlert_iff (hdesk : Logged desk) {k : ℕ} {x : Signal}
    (hx : (t.persisted engine desk)[k]? = some x) :
    HasAlert x (signalGenerationJob engine t desk).desk.logs ↔
      (∃ signals, (t.evaluation engine desk).1 = .ok signals) ∧
        ∀ j ≤ k, (t.deliveries j).Returns := by
  obtain ⟨-, m, hlogs, hm⟩ := @job_spec engine t desk hdesk
  have hmem : x ∈ t.persisted engine desk := List.mem_of_getElem? hx
  obtain ⟨hk, hxk⟩ := List.getElem?_eq_some_iff.1 hx
  have hlt : k < m ↔ _ := (hm k).trans (and_iff_right hk)
  rw [← hlt]
  constructor
  · rintro ⟨l, hl, hkey, -⟩
    rw [hlogs] at hl
    rcases List.mem_append.1 hl with hl | hl
    · exact absurd hkey (unlogged hdesk hmem l hl)
    · obtain ⟨y, hy, rfl⟩ := List.mem_map.1 hl
      obtain ⟨j, hj⟩ := List.mem_iff_getElem?.1 hy
      rw [List.getElem?_take] at hj
      split_ifs at hj with hjm
      -- the ids of the persisted signals differ, so that this is its own row
      have hxy := persisted_spec.1.distinct.eq_of_key (List.mem_of_getElem? hj) hmem
        (signalDedupKey_injective hkey)
      have hjk : j = k := by
        have hnodup : (t.persisted engine desk).Nodup := persisted_spec.1.distinct.of_map _
        obtain ⟨hjl, hyj⟩ := List.getElem?_eq_some_iff.1 hj
        exact hnodup.getElem_inj_iff.1 (hyj.trans (hxy.trans hxk.symm))
      exact hjk ▸ hjm
  · intro hkm
    have htake : x ∈ (t.persisted engine desk).take m :=
      List.mem_of_getElem? (by rw [List.getElem?_take, if_pos hkm]; exact hx)
    refine ⟨signalLog x, ?_, rfl, rfl⟩
    rw [hlogs]
    exact List.mem_append_right _ (List.mem_map_of_mem htake)

/-- The condition on a tick is that its traded signals have their alerts. -/
theorem delivers_iff (hdesk : Logged desk) : Delivers engine t desk ↔
    ∀ x ∈ t.persisted engine desk, IsTraded x →
      HasAlert x (signalGenerationJob engine t desk).desk.logs := by
  unfold Delivers
  cases he : (t.evaluation engine desk).1 with
  | error e =>
    refine forall₂_congr fun x hx => ?_
    obtain ⟨k, hk⟩ := List.mem_iff_getElem?.1 hx
    rw [hasAlert_iff hdesk hk, he]
    simp
  | ok signals =>
    constructor
    · intro h x hx htraded
      obtain ⟨k, hk⟩ := List.mem_iff_getElem?.1 hx
      exact (hasAlert_iff hdesk hk).2 ⟨⟨signals, he⟩, h k x hk htraded⟩
    · intro h k x hk htraded
      exact ((hasAlert_iff hdesk hk).1 (h x (List.mem_of_getElem? hk) htraded)).2

end

/-! ## Runs -/

section

variable (engine : Strategies) (ticks : ℕ → SignalTick)

theorem logged_deskAt (n : ℕ) : Logged (deskAt engine ticks n) := by
  induction n with
  | zero => exact fun _ h => absurd h List.not_mem_nil
  | succ n ih => exact logged_job ih

theorem mem_deskAt_of_le {s : Signal} {i j : ℕ} (hij : i ≤ j)
    (hs : s ∈ (deskAt engine ticks i).store.signals) :
    s ∈ (deskAt engine ticks j).store.signals := by
  induction hij with
  | refl => exact hs
  | step _ ih => exact mem_job_signals ih

theorem persisted_tickedAt (n : ℕ) : (tickedAt engine ticks n).persisted =
    (ticks n).persisted engine (deskAt engine ticks n) := by
  unfold tickedAt signalGenerationJob
  split <;> rfl

/-- **A tick does not come back to the signals of those before it.** -/
theorem attempted_fresh {i j : ℕ} (hij : i < j) {x again : Signal}
    (hx : x ∈ (tickedAt engine ticks i).persisted)
    (hagain : again ∈ (tickedAt engine ticks j).attempted) : again.signalId ≠ x.signalId := by
  rw [persisted_tickedAt] at hx
  have hagain := (job_spec (logged_deskAt engine ticks j)).1 hagain
  have hstored : x ∈ (deskAt engine ticks j).store.signals :=
    mem_deskAt_of_le engine ticks hij (mem_job_of_persisted hx)
  exact (persisted_fresh hagain hstored).symm

/-- What is asked of a run comes down to the alerts at the end of each tick. -/
theorem noneLost_iff_hasAlert : NoneLost engine ticks ↔
    ∀ i, ∀ signal ∈ (tickedAt engine ticks i).persisted, IsTraded signal →
      HasAlert signal (tickedAt engine ticks i).desk.logs := by
  refine forall_congr' fun i => forall₂_congr fun signal hsignal => forall_congr' fun _ => ?_
  refine or_iff_left ?_
  rintro ⟨j, hij, again, hagain, hid⟩
  exact attempted_fresh engine ticks hij hsignal hagain hid

/-- **No persisted signal loses its alert if and only if no tick fails to deliver.** -/
theorem none_lost_iff :
    NoneLost engine ticks ↔ ∀ i, Delivers engine (ticks i) (deskAt engine ticks i) := by
  rw [noneLost_iff_hasAlert]
  refine forall_congr' fun i => ?_
  rw [delivers_iff (logged_deskAt engine ticks i), persisted_tickedAt]
  rfl

end

/-- Ticks on one candle. The database is locked when the first of them commits its row. -/
def lockedFirst (n : ℕ) : SignalTick :=
  { uuidHex := fun _ => "00000000000A", deliveries := fun _ => { commits := decide (0 < n) },
    candles := sixtyCandles }

/-- **A signal whose row cannot be committed is never announced again**: every later tick finds the
signal stored. -/
theorem locked_database_loses_alert : ¬NoneLost baselineOnly lockedFirst := by
  rw [noneLost_iff_hasAlert]
  have hlost : ¬∀ signal ∈ (tickedAt baselineOnly lockedFirst 0).persisted, IsTraded signal →
      HasAlert signal (tickedAt baselineOnly lockedFirst 0).desk.logs := by
    decide +kernel
  exact fun h => hlost (h 0)

end AlphaOne.Scheduler
