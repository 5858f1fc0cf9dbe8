import AlphaOne.Foundations.Run
import AlphaOne.MarketData.LiveFeed
import Mathlib.Data.List.Chain

/-!
# Alerts of the market feed under interleaved handlers

The handlers `_on_connect` and `_on_disconnect` of `services/market_data/coindcx_ws.py` as tasks of
one event loop: between two awaits a handler runs alone, at an await any other may go on. A handler
is where it awaits; the events come in any order, and each await returns, or raises, whenever it
likes.

`_maybe_notify_transition` compares the status with the one notified last, awaits the callback and
only then stores the new one. `alerts_match` is the condition under which the alerts follow the
connection all the same, and `overtaken_alert` a run in which they do not.
-/

namespace AlphaOne.MarketData

open Foundations

/-- The await at which a handler is suspended. -/
inductive Awaiting
  /-- The first `emit` of `_on_connect`. -/
  | joinInstrument
  /-- The second `emit` of `_on_connect`. -/
  | joinPrices
  /-- The call of `on_state_change` for this new status. -/
  | stateChange (newStatus : ConnectionState)
  /-- The handler has returned, or an exception has ended it. -/
  | finished
  deriving DecidableEq, Repr

namespace Awaiting

/-- A call of `on_state_change` is under way. -/
def notifies : Awaiting → Bool
  | stateChange _ => true
  | _ => false

/-- The handler has not compared the status yet. -/
def joins : Awaiting → Bool
  | joinInstrument | joinPrices => true
  | _ => false

end Awaiting

/-- The status that `_maybe_notify_transition` computes. -/
def CoinDCXMarketDataWebSocket.status (ws : CoinDCXMarketDataWebSocket) : ConnectionState :=
  if ws.connected then .live else .disconnected

/-- The client, the handlers of the events so far, and the calls of `on_state_change` made. -/
structure Alerts where
  ws : CoinDCXMarketDataWebSocket := {}
  /-- A callback is registered. -/
  onStateChange : Bool := true
  handlers : List Awaiting := []
  calls : List (ConnectionState × ConnectionState) := []
  deriving DecidableEq, Repr

namespace Alerts

/-- The client before the first event. -/
def start (instrument : String) (onStateChange : Bool) : Alerts :=
  { ws := { instrument }, onStateChange }

/-- `_maybe_notify_transition` up to its await, or to its end when it makes no call. -/
def compare (a : Alerts) : Awaiting × Alerts :=
  match a.ws.maybeNotifyTransition with
  | (some (old, new), ws) =>
    if a.onStateChange then (.stateChange new, { a with calls := a.calls ++ [(old, new)] })
    else (.finished, { a with ws })
  | (none, ws) => (.finished, { a with ws })

/-- A handler whose await has returned goes on to its next. -/
def proceed (a : Alerts) : Awaiting → Awaiting × Alerts
  | .joinInstrument => (.joinPrices, a)
  | .joinPrices => a.compare
  | .stateChange newStatus =>
    (.finished, { a with ws := { a.ws with lastNotifiedStatus := some newStatus } })
  | .finished => (.finished, a)

/-- What happens next in the event loop. -/
inductive Move
  | connect
  | disconnect
  /-- The await of the `i`-th handler returns, or raises. -/
  | resume (i : ℕ) (returns : Bool)
  deriving DecidableEq, Repr

/-- One stretch of the event loop from one await to the next. -/
def step (a : Alerts) : Move → Alerts
  | .connect =>
    { a with
      ws := { a.ws with connected := true, everConnected := true }
      handlers := a.handlers ++ [.joinInstrument] }
  | .disconnect =>
    let next := ({ a with ws := { a.ws with connected := false } } : Alerts).compare
    { next.2 with handlers := a.handlers ++ [next.1] }
  | .resume i returns =>
    match a.handlers[i]? with
    | none => a
    | some h =>
      if returns then { (a.proceed h).2 with handlers := a.handlers.set i (a.proceed h).1 }
      else { a with handlers := a.handlers.set i .finished }

/-- All handlers have finished. -/
def Settled (a : Alerts) : Prop := ∀ h ∈ a.handlers, h = .finished

instance (a : Alerts) : Decidable a.Settled := by unfold Settled; infer_instance

/-- Each call reports a change, from the status the call before reported. -/
def Alternating (calls : List (ConnectionState × ConnectionState)) : Prop :=
  (∀ call ∈ calls, call.1 ≠ call.2) ∧ calls.IsChain fun call next => call.2 = next.1

instance (calls : List (ConnectionState × ConnectionState)) : Decidable (Alternating calls) := by
  unfold Alternating; infer_instance

/-- The alerts match the connection: once the handlers of the events have finished, the status
notified last is that of the connection, and the calls alternate and end in it. -/
def Match (a : Alerts) : Prop :=
  a.handlers ≠ [] → a.Settled → a.ws.lastNotifiedStatus = some a.ws.status ∧
    Alternating a.calls ∧ ∀ call, a.calls.getLast? = some call → call.2 = a.ws.status

/-- The number of calls of `on_state_change` under way. -/
def underWay (handlers : List Awaiting) : ℕ := handlers.countP Awaiting.notifies

/-- Nothing disturbs the alerts: no await raises, and no handler compares the status while a call is
under way. -/
def Undisturbed (a : Alerts) : Move → Prop
  | .connect => True
  | .disconnect => underWay a.handlers = 0
  | .resume i returns => ∀ h, a.handlers[i]? = some h → h ≠ .finished →
      returns = true ∧ (h = .joinPrices → underWay a.handlers = 0)

instance (a : Alerts) (m : Move) : Decidable (a.Undisturbed m) := by
  cases m with
  | connect => exact isTrue trivial
  | disconnect => exact inferInstanceAs (Decidable (underWay a.handlers = 0))
  | resume i returns =>
    exact match h : a.handlers[i]? with
    | none => isTrue fun _ hh => by rw [h] at hh; cases hh
    | some h' => decidable_of_iff
        (h' ≠ .finished → returns = true ∧ (h' = .joinPrices → underWay a.handlers = 0))
        ⟨fun hu _ hh => by rw [h] at hh; cases hh; exact hu, fun hu => hu h' h⟩

/-! ## The invariant -/

/-- Some handler has yet to compare the status. -/
def Joining (handlers : List Awaiting) : Prop := ∃ h ∈ handlers, h.joins = true

/-- The status that the calls and the stored status stand for: no call is under way, or one is. -/
inductive Phase (a : Alerts) : Prop
  | quiet (none_ : underWay a.handlers = 0)
      (last : ∀ call, a.calls.getLast? = some call → a.ws.lastNotifiedStatus = some call.2)
      (status : a.handlers ≠ [] → a.ws.lastNotifiedStatus = some a.ws.status ∨ Joining a.handlers)
  | notifying (old new : ConnectionState) (one : underWay a.handlers = 1)
      (mem : .stateChange new ∈ a.handlers) (stored : a.ws.lastNotifiedStatus = some old)
      (call : a.calls.getLast? = some (old, new))
      (status : new = a.ws.status ∨ Joining a.handlers)

structure Tracks (a : Alerts) : Prop where
  alternating : Alternating a.calls
  registered : a.onStateChange = false → a.calls = []
  phase : a.Phase

theorem Tracks.start (instrument : String) (onStateChange : Bool) :
    (start instrument onStateChange).Tracks where
  alternating := ⟨by simp [Alerts.start], by simp [Alerts.start]⟩
  registered _ := rfl
  phase := .quiet rfl (by simp [Alerts.start]) fun h => absurd rfl h

theorem Tracks.match_ {a : Alerts} (h : a.Tracks) : a.Match := by
  intro hne hsettled
  have hjoining : ¬Joining a.handlers := by
    rintro ⟨x, hx, hj⟩
    rw [hsettled x hx] at hj
    cases hj
  cases h.phase with
  | quiet _ hlast hstatus =>
    have hstored := (hstatus hne).resolve_right hjoining
    refine ⟨hstored, h.alternating, fun call hcall => ?_⟩
    exact Option.some.inj ((hlast call hcall).symm.trans hstored)
  | notifying old new _ hmem => cases hsettled _ hmem

theorem Alternating.concat {calls : List (ConnectionState × ConnectionState)}
    {old new : ConnectionState} (h : Alternating calls) (hne : old ≠ new)
    (hlast : ∀ call, calls.getLast? = some call → call.2 = old) :
    Alternating (calls ++ [(old, new)]) := by
  refine ⟨fun call hcall => ?_, List.isChain_append.2 ⟨h.2, by simp, ?_⟩⟩
  · rcases List.mem_append.1 hcall with hcall | hcall
    · exact h.1 call hcall
    · rw [List.mem_singleton.1 hcall]
      exact hne
  · intro call hcall next hnext
    simp only [List.head?_cons, Option.mem_def, Option.some.injEq] at hnext
    rw [← hnext]
    exact hlast call hcall

/-- Without a transition the status is stored at once; the first status is a baseline. -/
theorem compare_of_same {a : Alerts}
    (h : ∀ old, a.ws.lastNotifiedStatus = some old → old = a.ws.status) :
    a.compare =
      (.finished, { a with ws := { a.ws with lastNotifiedStatus := some a.ws.status } }) := by
  rcases hstored : a.ws.lastNotifiedStatus with _ | old
  · simp [compare, CoinDCXMarketDataWebSocket.maybeNotifyTransition, hstored,
      CoinDCXMarketDataWebSocket.status]
  · simp [compare, CoinDCXMarketDataWebSocket.maybeNotifyTransition, hstored, h old hstored,
      CoinDCXMarketDataWebSocket.status]

/-- A transition is notified if there is a callback. -/
theorem compare_of_ne {a : Alerts} {old : ConnectionState}
    (hstored : a.ws.lastNotifiedStatus = some old) (hne : old ≠ a.ws.status) :
    a.compare = if a.onStateChange then
        (.stateChange a.ws.status, { a with calls := a.calls ++ [(old, a.ws.status)] })
      else
        (.finished, { a with ws := { a.ws with lastNotifiedStatus := some a.ws.status } }) := by
  have hne' : old ≠ if a.ws.connected then ConnectionState.live else .disconnected := hne
  simp [compare, CoinDCXMarketDataWebSocket.maybeNotifyTransition, hstored, hne',
    CoinDCXMarketDataWebSocket.status]

/-- What comparing does when no call is under way: the status is that of the connection afterwards,
or it is being notified. -/
theorem compare_cases {a : Alerts} (h : Alternating a.calls)
    (hregistered : a.onStateChange = false → a.calls = [])
    (hlast : ∀ call, a.calls.getLast? = some call → a.ws.lastNotifiedStatus = some call.2) :
    (a.compare.1 = .finished ∧
      a.compare.2 = { a with ws := { a.ws with lastNotifiedStatus := some a.ws.status } } ∧
      ∀ call, a.calls.getLast? = some call → call.2 = a.ws.status) ∨
    ∃ old, a.ws.lastNotifiedStatus = some old ∧ a.compare.1 = .stateChange a.ws.status ∧
      a.compare.2 = { a with calls := a.calls ++ [(old, a.ws.status)] } ∧
      Alternating (a.calls ++ [(old, a.ws.status)]) ∧ a.onStateChange = true := by
  by_cases hsame : ∀ old, a.ws.lastNotifiedStatus = some old → old = a.ws.status
  · rw [compare_of_same hsame]
    exact Or.inl ⟨rfl, rfl, fun call hcall => hsame call.2 (hlast call hcall)⟩
  · push Not at hsame
    obtain ⟨old, hstored, hne⟩ := hsame
    rw [compare_of_ne hstored hne]
    cases hr : a.onStateChange
    · rw [if_neg Bool.false_ne_true]
      refine Or.inl ⟨rfl, rfl, fun call hcall => ?_⟩
      rw [hregistered hr] at hcall
      cases hcall
    · rw [if_pos rfl]
      refine Or.inr ⟨old, hstored, rfl, rfl, h.concat hne fun call hcall => ?_, rfl⟩
      exact Option.some.inj ((hlast call hcall).symm.trans hstored)

/-! ## The step lemma -/

theorem underWay_append (l₁ l₂ : List Awaiting) :
    underWay (l₁ ++ l₂) = underWay l₁ + underWay l₂ := List.countP_append

theorem underWay_cons (h : Awaiting) (l : List Awaiting) :
    underWay (h :: l) = underWay l + if h.notifies then 1 else 0 := List.countP_cons

/-- Comparing, by a handler that stands behind `l₁` and before `l₂`, keeps track. -/
theorem Tracks.compare {a : Alerts} {l₁ l₂ : List Awaiting} (halternating : Alternating a.calls)
    (hregistered : a.onStateChange = false → a.calls = [])
    (hlast : ∀ call, a.calls.getLast? = some call → a.ws.lastNotifiedStatus = some call.2)
    (hnone : underWay (l₁ ++ l₂) = 0) :
    ({ a.compare.2 with handlers := l₁ ++ a.compare.1 :: l₂ } : Alerts).Tracks := by
  have hunder : underWay l₁ + underWay l₂ = 0 := by rw [← underWay_append, hnone]
  rcases compare_cases halternating hregistered hlast with ⟨hh, ha, hcalls⟩ |
    ⟨old, hold, hh, ha, hconcat, hr⟩
  · rw [hh, ha]
    refine ⟨halternating, hregistered, .quiet ?_ (fun call hcall => ?_) fun _ => Or.inl rfl⟩
    · rw [underWay_append, underWay_cons]
      simpa [Awaiting.notifies] using hunder
    · rw [hcalls call hcall]
  · rw [hh, ha]
    refine ⟨hconcat, fun hf => ?_, .notifying old a.ws.status ?_ (by simp) hold (by simp)
      (Or.inl rfl)⟩
    · exact absurd (hr.symm.trans hf) (by simp)
    · rw [underWay_append, underWay_cons]
      simp only [Awaiting.notifies, if_true]
      omega

theorem Tracks.connect {a : Alerts} (h : a.Tracks) : (a.step .connect).Tracks := by
  have hjoining : Joining (a.handlers ++ [.joinInstrument]) := ⟨.joinInstrument, by simp, rfl⟩
  have hunder : underWay (a.handlers ++ [.joinInstrument]) = underWay a.handlers := by
    rw [underWay_append]
    rfl
  refine ⟨h.alternating, h.registered, ?_⟩
  cases h.phase with
  | quiet hnone hlast => exact .quiet (hunder.trans hnone) hlast fun _ => Or.inr hjoining
  | notifying old new hone hmem hstored hcall =>
    exact .notifying old new (hunder.trans hone) (List.mem_append_left _ hmem) hstored hcall
      (Or.inr hjoining)

theorem Phase.last {a : Alerts} (h : a.Phase) (hnone : underWay a.handlers = 0) :
    ∀ call, a.calls.getLast? = some call → a.ws.lastNotifiedStatus = some call.2 := by
  cases h with
  | quiet _ hlast => exact hlast
  | notifying _ _ hone => omega

theorem Tracks.disconnect {a : Alerts} (h : a.Tracks) (hnone : underWay a.handlers = 0) :
    (a.step .disconnect).Tracks := by
  have hunder : underWay (a.handlers ++ []) = 0 := by rwa [List.append_nil]
  have hcompare := Tracks.compare (a := { a with ws := { a.ws with connected := false } })
    h.alternating h.registered (h.phase.last hnone) hunder
  exact hcompare

/-- The handler at `i` stands between the others, and a new stage takes its place. -/
theorem exists_set_eq {handlers : List Awaiting} {i : ℕ} {h : Awaiting}
    (hi : handlers[i]? = some h) :
    ∃ l₁ l₂, handlers = l₁ ++ h :: l₂ ∧ ∀ h', handlers.set i h' = l₁ ++ h' :: l₂ := by
  obtain ⟨hlt, hget⟩ := List.getElem?_eq_some_iff.1 hi
  refine ⟨handlers.take i, handlers.drop (i + 1), ?_, fun h' => ?_⟩
  · rw [← hget, List.getElem_cons_drop, List.take_append_drop]
  · rw [List.set_eq_take_append_cons_drop, if_pos hlt]

/-- A handler that joins if the one before it did takes its place. -/
theorem Joining.replace {l₁ l₂ : List Awaiting} {h h' : Awaiting} (hj : Joining (l₁ ++ h :: l₂))
    (hh : h.joins = true → h'.joins = true) : Joining (l₁ ++ h' :: l₂) := by
  obtain ⟨x, hx, hxj⟩ := hj
  rcases List.mem_append.1 hx with hx | hx
  · exact ⟨x, List.mem_append_left _ hx, hxj⟩
  · rcases List.mem_cons.1 hx with rfl | hx
    · exact ⟨h', by simp, hh hxj⟩
    · exact ⟨x, by simp [hx], hxj⟩

/-- The first emit of a connect handler returns. -/
theorem Tracks.join {a : Alerts} {l₁ l₂ : List Awaiting} (h : a.Tracks)
    (hhandlers : a.handlers = l₁ ++ .joinInstrument :: l₂) :
    ({ a with handlers := l₁ ++ .joinPrices :: l₂ } : Alerts).Tracks := by
  have hunder : underWay (l₁ ++ .joinPrices :: l₂) = underWay a.handlers := by
    rw [hhandlers, underWay_append, underWay_append, underWay_cons, underWay_cons]
    rfl
  have hjoining : Joining (l₁ ++ .joinPrices :: l₂) := ⟨.joinPrices, by simp, rfl⟩
  refine ⟨h.alternating, h.registered, ?_⟩
  cases h.phase with
  | quiet hnone hlast => exact .quiet (hunder.trans hnone) hlast fun _ => Or.inr hjoining
  | notifying old new hone hmem hstored hcall =>
    refine .notifying old new (hunder.trans hone) ?_ hstored hcall (Or.inr hjoining)
    rw [hhandlers] at hmem
    simpa using hmem

/-- A call of `on_state_change` returns, and its status is stored. -/
theorem Tracks.notified {a : Alerts} {l₁ l₂ : List Awaiting} {newStatus : ConnectionState}
    (h : a.Tracks) (hhandlers : a.handlers = l₁ ++ .stateChange newStatus :: l₂) :
    ({ a with
      ws := { a.ws with lastNotifiedStatus := some newStatus }
      handlers := l₁ ++ .finished :: l₂ } : Alerts).Tracks := by
  have hunder : underWay a.handlers = underWay l₁ + underWay l₂ + 1 := by
    rw [hhandlers, underWay_append, underWay_cons]
    simp only [Awaiting.notifies, if_true]
    omega
  refine ⟨h.alternating, h.registered, ?_⟩
  cases h.phase with
  | quiet hnone => omega
  | notifying old new hone hmem hstored hcall hstatus =>
    have hothers : ∀ l, underWay l = 0 → Awaiting.stateChange new ∉ l := by
      intro l hl hmem
      exact List.countP_eq_zero.1 hl _ hmem rfl
    -- the call under way is the one that returns
    obtain rfl : new = newStatus := by
      rw [hhandlers, List.mem_append, List.mem_cons] at hmem
      rcases hmem with hmem | hmem | hmem
      · exact absurd hmem (hothers l₁ (by omega))
      · exact Awaiting.stateChange.inj hmem
      · exact absurd hmem (hothers l₂ (by omega))
    refine .quiet ?_ (fun call hlast => ?_) fun _ => ?_
    · rw [underWay_append, underWay_cons]
      simp only [Awaiting.notifies, Bool.false_eq_true, if_false]
      omega
    · rw [hcall] at hlast
      rw [← Option.some.inj hlast]
    · rcases hstatus with rfl | hjoining
      · exact Or.inl rfl
      · rw [hhandlers] at hjoining
        exact Or.inr (hjoining.replace fun hj => by cases hj)

/-- **One stretch of the event loop** that disturbs nothing keeps track of the status. -/
theorem Tracks.step {a : Alerts} (h : a.Tracks) (m : Move) (hu : a.Undisturbed m) :
    (a.step m).Tracks := by
  cases m with
  | connect => exact h.connect
  | disconnect => exact h.disconnect hu
  | resume i returns =>
    rcases hi : a.handlers[i]? with _ | x
    · rwa [Alerts.step, hi]
    obtain ⟨l₁, l₂, hhandlers, hset⟩ := exists_set_eq hi
    have hu := hu x hi
    rw [Alerts.step, hi]
    simp only [hset]
    cases x with
    | joinInstrument =>
      rw [if_pos (hu (by simp)).1]
      exact h.join hhandlers
    | joinPrices =>
      obtain ⟨hreturns, hnone⟩ := hu (by simp)
      rw [if_pos hreturns]
      refine Tracks.compare h.alternating h.registered (h.phase.last (hnone rfl)) ?_
      have hnone := hnone rfl
      rw [hhandlers, underWay_append, underWay_cons] at hnone
      rw [underWay_append]
      omega
    | stateChange newStatus =>
      rw [if_pos (hu (by simp)).1]
      exact h.notified hhandlers
    | finished =>
      have hsame : ({ a with handlers := l₁ ++ .finished :: l₂ } : Alerts) = a := by
        rw [← hhandlers]
      cases returns
      · rwa [if_neg Bool.false_ne_true, hsame]
      · rwa [if_pos rfl, proceed, hsame]

/-- **The alerts match the connection in every run that nothing disturbs**, whatever the events and
however their handlers interleave: no await raises, and no handler compares the status while a call
of another one is under way. -/
theorem alerts_match (instrument : String) (onStateChange : Bool) (moves : List Move)
    (hu : Guarded step Undisturbed (start instrument onStateChange) moves) :
    Always step Match (start instrument onStateChange) moves := by
  have htracks : Always step Tracks (start instrument onStateChange) moves :=
    Always.of_guarded (fun _ m h hm => h.step m hm) (Tracks.start instrument onStateChange) hu
  exact htracks.mono fun _ h => h.match_

/-- A connection that drops and comes back, its handlers one after another. -/
def orderly : List Move :=
  [.connect, .resume 0 true, .resume 0 true, .disconnect, .resume 1 true, .connect, .resume 2 true,
    .resume 2 true, .resume 2 true]

theorem alerts_match_orderly :
    Guarded step Undisturbed (start "B-BTC_USDT" true) orderly ∧
      Always step Match (start "B-BTC_USDT" true) orderly := by
  have hu : Guarded step Undisturbed (start "B-BTC_USDT" true) orderly := by decide
  exact ⟨hu, alerts_match "B-BTC_USDT" true orderly hu⟩

/-- The connection drops, and is back before the alert of the drop has been sent. -/
def overtaken : List Move :=
  [.connect, .resume 0 true, .resume 0 true, .disconnect, .connect, .resume 2 true, .resume 2 true,
    .resume 1 true]

/-- **An alert that is overtaken**: the handler of the reconnect finds the status it is about to
notify still stored and makes no call; then the handler of the drop stores its own. The client is
connected, the last alert says that it is not, and the next drop will not be reported. -/
theorem overtaken_alert :
    let a := run step (start "B-BTC_USDT" true) overtaken
    a.Settled ∧ a.ws.status = .live ∧ a.ws.lastNotifiedStatus = some .disconnected ∧
      a.calls = [(.live, .disconnected)] ∧ ¬a.Match := by
  intro a
  have hsettled : a.Settled := by decide
  refine ⟨hsettled, by decide, by decide, by decide, fun h => ?_⟩
  exact absurd (h (by decide) hsettled).1 (by decide)

end Alerts

end AlphaOne.MarketData
