import AlphaOne.Foundations.BackgroundTask
import AlphaOne.Foundations.Table
import Mathlib.Algebra.Order.Group.Nat

/-!
# The retries of the first connection

`_StartupRetrySupervisor` of `services/market_data/live_state.py`: a background task calls
`connect()` until it succeeds, and waits longer after each failure. `stop` ends it; then
`stop_market_data_ws` disconnects the socket. Once connected, the socket library reconnects a
dropped connection by itself.

`startup_retry_sound` says what holds in all interleavings of the calls, the task and the network,
when nobody starts the supervisor again on a socket it has left behind, nor during a stop.
-/

namespace AlphaOne.MarketData

open Foundations

/-- `STARTUP_RETRY_DELAYS_SECONDS`. -/
def startupRetryDelaysSeconds : List ℕ := [2, 4, 8, 16, 30]

/-- The delay after so many failed attempts and one more. -/
def startupRetryDelay (attempt : ℕ) : ℕ :=
  startupRetryDelaysSeconds.getD (min attempt (startupRetryDelaysSeconds.length - 1)) 0

/-- The socket: never connected since it was last disconnected, connected, or dropped, in which case
its library is reconnecting it. -/
inductive SocketState
  | fresh
  | connected
  | dropped
  deriving DecidableEq, Repr

/-- `_stop_event`, by whether it is set, and the socket; with a record of how many starts have
created a task, the attempts, the starts whose task has connected, once for each time it has, and
the waits of the last task. -/
structure StartupState where
  stopEvent : Option Bool := none
  socket : SocketState := .fresh
  starts : ℕ := 0
  attempts : ℕ := 0
  connected : List ℕ := []
  waits : List ℕ := []
  deriving DecidableEq, Repr

/-- Where `_run` is: not begun, in `connect()`, or waiting after so many failed attempts. -/
inductive StartupPhase
  | created
  | connecting (attempt : ℕ)
  | waiting (attempt : ℕ)
  deriving DecidableEq, Repr

/-- The task of a start, by the number of the starts before it. -/
structure StartupTask where
  start : ℕ
  phase : StartupPhase
  deriving DecidableEq, Repr

inductive ConnectOutcome
  | connected
  | failed
  deriving DecidableEq, Repr

inductive SocketEvent
  | drops
  | reconnects
  deriving DecidableEq, Repr

/-- `connect()` is called. -/
def beginAttempt (start attempt : ℕ) (g : StartupState) : StartupState × Option StartupTask :=
  ({ g with attempts := g.attempts + 1 }, some ⟨start, .connecting attempt⟩)

/-- `_run`, from one `await` to the next. -/
def startupRun (task : StartupTask) (outcome : ConnectOutcome) (g : StartupState) :
    StartupState × Option StartupTask :=
  match task.phase with
  | .created => beginAttempt task.start 0 g
  | .connecting attempt =>
    match outcome with
    | .connected =>
      ({ g with socket := .connected, connected := g.connected ++ [task.start] }, none)
    | .failed =>
      ({ g with waits := g.waits ++ [startupRetryDelay attempt] },
        some ⟨task.start, .waiting (attempt + 1)⟩)
  | .waiting attempt =>
    if g.stopEvent = some true then (g, none) else beginAttempt task.start attempt g

/-- `start`, `stop` and `_run`, with the disconnection of `stop_market_data_ws`, which leaves a
dropped socket to its library. -/
def startupRetry : Supervisor StartupState StartupTask Unit ConnectOutcome SocketEvent where
  mayStart _ := true
  begin g :=
    ({ g with stopEvent := some false, starts := g.starts + 1, waits := [] }, ⟨g.starts, .created⟩)
  stopping g := { g with stopEvent := g.stopEvent.map fun _ => true }
  close _ := ()
  closed _ g := if g.socket = .connected then { g with socket := .fresh } else g
  resume := startupRun
  outside event g :=
    match event with
    | .drops => if g.socket = .connected then { g with socket := .dropped } else g
    | .reconnects => if g.socket = .dropped then { g with socket := .connected } else g

/-! ## The delays -/

/-- The delays never shrink, and stay between two and thirty seconds. -/
theorem startupRetryDelay_bounds (attempt : ℕ) : 2 ≤ startupRetryDelay attempt ∧
    startupRetryDelay attempt ≤ startupRetryDelay (attempt + 1) ∧
      startupRetryDelay attempt ≤ 30 := by
  have hsmall : ∀ n < 5, 2 ≤ startupRetryDelay n ∧
      startupRetryDelay n ≤ startupRetryDelay (n + 1) ∧ startupRetryDelay n ≤ 30 := by
    decide
  have hhold : ∀ n, 4 ≤ n → startupRetryDelay n = 30 := by
    intro n hn
    have hmin : min n (startupRetryDelaysSeconds.length - 1) = 4 := by
      rw [startupRetryDelaysSeconds]
      exact Nat.min_eq_right hn
    rw [startupRetryDelay, hmin]
    rfl
  by_cases h : attempt < 5
  · exact hsmall attempt h
  · rw [hhold attempt (by omega), hhold (attempt + 1) (by omega)]
    omega

/-! ## What the supervisor and its task keep -/

/-- How often `_run` has failed. -/
def StartupPhase.failures : StartupPhase → ℕ
  | .created => 0
  | .connecting attempt => attempt
  | .waiting attempt => attempt

/-- The waits of the last task are the first delays, one for each failure; while it goes on, the
socket has not been connected, and neither has its start; and no start has connected twice. -/
structure StartupKept (g : StartupState) (task : Option StartupTask) : Prop where
  waits : g.waits = (List.range g.waits.length).map startupRetryDelay
  once : g.connected.Nodup
  ofStart : ∀ start ∈ g.connected, start < g.starts
  failures : ∀ t, task = some t → t.phase.failures = g.waits.length
  socket : task ≠ none → g.socket = .fresh
  pending : ∀ t, task = some t → t.start ∉ g.connected ∧ t.start < g.starts

/-- What is left to show when nothing is going on. -/
theorem StartupKept.ended {g : StartupState}
    (hwaits : g.waits = (List.range g.waits.length).map startupRetryDelay)
    (honce : g.connected.Nodup) (hofStart : ∀ start ∈ g.connected, start < g.starts) :
    StartupKept g none where
  waits := hwaits
  once := honce
  ofStart := hofStart
  failures t ht := by cases ht
  socket hne := absurd rfl hne
  pending t ht := by cases ht

theorem StartupKept.resume {g : StartupState} {t : StartupTask} (h : StartupKept g (some t))
    (outcome : ConnectOutcome) :
    StartupKept (startupRun t outcome g).1 (startupRun t outcome g).2 := by
  obtain ⟨start, phase⟩ := t
  have hsocket := h.socket (by simp)
  have hfailures : phase.failures = g.waits.length := h.failures _ rfl
  obtain ⟨hnew, hstart⟩ : start ∉ g.connected ∧ start < g.starts := h.pending _ rfl
  have hattempt : ∀ attempt, attempt = g.waits.length →
      StartupKept (beginAttempt start attempt g).1 (beginAttempt start attempt g).2 := by
    rintro attempt rfl
    refine ⟨h.waits, h.once, h.ofStart, fun t ht => ?_, fun _ => hsocket, fun t ht => ?_⟩
    · obtain rfl := Option.some.inj ht
      rfl
    · obtain rfl := Option.some.inj ht
      exact ⟨hnew, hstart⟩
  cases phase with
  | created => exact hattempt 0 hfailures
  | connecting attempt =>
    cases outcome with
    | connected =>
      refine .ended h.waits (nodup_append_singleton h.once hnew) fun other hother => ?_
      rcases List.mem_append.mp hother with hold | hself
      · exact h.ofStart other hold
      · obtain rfl := List.mem_singleton.mp hself
        exact hstart
    | failed =>
      replace hfailures : attempt = g.waits.length := hfailures
      refine ⟨?_, h.once, h.ofStart, fun t ht => ?_, fun _ => hsocket, fun t ht => ?_⟩
      · simp only [startupRun, List.length_append, List.length_singleton, List.range_succ,
          List.map_append, List.map_singleton, ← h.waits, hfailures]
      · obtain rfl := Option.some.inj ht
        simp [startupRun, StartupPhase.failures, hfailures]
      · obtain rfl := Option.some.inj ht
        exact ⟨hnew, hstart⟩
  | waiting attempt =>
    unfold startupRun
    dsimp only
    split_ifs
    · exact .ended h.waits h.once h.ofStart
    · exact hattempt attempt hfailures

/-- The socket has not been connected since it was last disconnected. -/
def StartupState.IsFresh (g : StartupState) : Prop := g.socket = .fresh

instance (g : StartupState) : Decidable g.IsFresh := by
  unfold StartupState.IsFresh; infer_instance

theorem startup_invariant : Supervision.Invariant startupRetry StartupState.IsFresh StartupKept
    fun _ _ => True where
  begin g _ hfresh h := by
    refine ⟨rfl, h.once, fun start hstart => (h.ofStart start hstart).trans (Nat.lt_succ_self _),
      fun t ht => ?_, fun _ => hfresh, fun t ht => ?_⟩
    · obtain rfl := Option.some.inj ht
      rfl
    · -- the starts that have connected are earlier ones, so the new one is none of them
      obtain rfl := Option.some.inj ht
      exact ⟨fun hmem => (h.ofStart _ hmem).false, Nat.lt_succ_self _⟩
  stopping g b h := .ended h.waits h.once h.ofStart
  close _ := trivial
  closed g x h _ := by
    simp only [startupRetry]
    split_ifs
    · exact .ended h.waits h.once h.ofStart
    · exact h
  resume g b e h := h.resume e
  outside g b e h := by
    have hkept : ∀ socket, (b ≠ none → socket = SocketState.fresh) →
        StartupKept { g with socket } b :=
      fun socket hs => ⟨h.waits, h.once, h.ofStart, h.failures, hs, h.pending⟩
    cases e with
    | drops =>
      simp only [startupRetry]
      split_ifs with hsocket
      · exact hkept _ fun hb => absurd (hsocket.symm.trans (h.socket hb)) (by simp)
      · exact h
    | reconnects =>
      simp only [startupRetry]
      split_ifs with hsocket
      · exact hkept _ fun hb => absurd (hsocket.symm.trans (h.socket hb)) (by simp)
      · exact h
  related_stopping _ _ _ := trivial
  related_closed _ _ _ _ _ := trivial
  related_outside _ _ _ _ := trivial

/-- What holds of the supervisor: it runs one task, so that `connect()` is never under way twice;
the task touches the socket only before its first connection; each start connects at most once; and
the waits are the delays in their order. -/
structure StartupSound (s : Supervision StartupState StartupTask Unit) : Prop where
  oneTask : ∀ i j, s.runs i = true → s.runs j = true → i = j
  socket : s.active ≠ none → s.shared.socket = .fresh
  once : s.shared.connected.Nodup
  ofStart : ∀ start ∈ s.shared.connected, start < s.shared.starts
  waits : s.shared.waits = (List.range s.shared.waits.length).map startupRetryDelay

/-- **The supervisor in all interleavings**: what holds in every state; and after a stop, no attempt
is begun until the next start. -/
theorem startup_retry_sound {moves : List (SupervisorMove ConnectOutcome SocketEvent)}
    (h : Guarded (Supervision.step startupRetry)
      (Supervision.StartsIn startupRetry StartupState.IsFresh) { shared := {} } moves) :
    Always (Supervision.step startupRetry) StartupSound { shared := {} } moves ∧
      ∀ later, (∀ m ∈ later, m ≠ .start) →
        (run (Supervision.step startupRetry) { shared := {} }
            (moves ++ .stop :: later)).shared.attempts =
          (run (Supervision.step startupRetry) { shared := {} } moves).shared.attempts := by
  have hkept := startup_invariant.always (g := {}) (.ended rfl List.nodup_nil (by simp)) h
  refine ⟨hkept.mono fun s hs => ?_, fun later hlater => ?_⟩
  · exact ⟨fun i j hi hj => hs.single.unique hi hj, hs.active.socket, hs.active.once,
      hs.active.ofStart, hs.active.waits⟩
  · rw [run_append, run_cons]
    set s := run (Supervision.step startupRetry) { shared := {} } moves with hs
    have hstop : (s.step startupRetry .stop).shared.attempts = s.shared.attempts := by
      rcases s.stop_cases (v := startupRetry) with ⟨i, -, -, heq⟩ | ⟨-, heq⟩ <;>
        rw [Supervision.step, heq] <;> rfl
    refine (Supervision.Quiet.run (v := startupRetry) (P := fun g => g.attempts = s.shared.attempts)
      (.stop hkept.last.single) hlater (fun _ hg => hg) (fun g x hg => ?_) (fun g e hg => ?_)
      hstop).2
    · simp only [startupRetry]
      split_ifs <;> exact hg
    · cases e <;>
      · simp only [startupRetry]
        split_ifs <;> exact hg

/-- The first attempt fails, the second connects; a start during the second is ignored; then the
connection drops, and a stop releases the socket. -/
def startupMoves : List (SupervisorMove ConnectOutcome SocketEvent) :=
  [.start, .resume 0 .failed, .resume 0 .failed, .resume 0 .failed, .start, .resume 0 .connected,
    .outside .drops, .outside .reconnects, .stop, .stopResumes 0, .start]

theorem startup_retry_sound_moves :
    Always (Supervision.step startupRetry) StartupSound { shared := {} } startupMoves ∧
      ∀ later, (∀ m ∈ later, m ≠ .start) →
        (run (Supervision.step startupRetry) { shared := {} }
            (startupMoves ++ .stop :: later)).shared.attempts =
          (run (Supervision.step startupRetry) { shared := {} } startupMoves).shared.attempts :=
  startup_retry_sound (by decide)

end AlphaOne.MarketData
