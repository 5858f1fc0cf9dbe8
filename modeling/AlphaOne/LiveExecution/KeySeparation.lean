import AlphaOne.Foundations.Separator
import AlphaOne.LiveExecution.Idempotency

/-!
# What the idempotency key tells apart

The executor computes the key of a candidate from its source, its symbol and its signal id only, and
joins them at colons without escaping. `Confused` lists the pairs of signals whose keys come out the
same: those without an id, whose strategy and candle are not passed on; those whose id reads like
none; and those between whose symbol and id a colon can move. `keys_separate_iff` shows that there
are no others, and that in no run two signals apart from these are answered with one row.
-/

namespace AlphaOne.Live

open Foundations

inductive LiveExecutionSource
  | alphaoneStrategy
  | alphaoneAi
  | telegramExternal
  deriving DecidableEq, Repr

def LiveExecutionSource.value : LiveExecutionSource → String
  | .alphaoneStrategy => "ALPHAONE_STRATEGY"
  | .alphaoneAi => "ALPHAONE_AI"
  | .telegramExternal => "TELEGRAM_EXTERNAL"

theorem LiveExecutionSource.colon_notMem (source : LiveExecutionSource) :
    ':' ∉ source.value.toList := by
  cases source <;> decide

theorem LiveExecutionSource.value_inj {source source' : LiveExecutionSource} :
    source.value = source'.value ↔ source = source' := by
  cases source <;> cases source' <;> decide

/-! ## Signals and their candidates -/

/-- What a real-world signal is identified by. The strategy or channel and the candle are no fields
of a candidate. -/
structure SignalIdentity where
  source : LiveExecutionSource
  symbol : String
  signalId : Option String := none
  strategyOrChannel : Option String := none
  candleTimestamp : Option String := none
  deriving DecidableEq, Repr

namespace SignalIdentity

/-- The signal id, where an empty one counts as none. -/
def id? (x : SignalIdentity) : Option String := x.signalId.filter (· ≠ "")

/-- The signals are different: their sources, symbols or ids are, or without ids their strategies or
candles. -/
def Differs (x y : SignalIdentity) : Prop :=
  x.source ≠ y.source ∨ x.symbol ≠ y.symbol ∨ x.id? ≠ y.id? ∨
    x.id? = none ∧ y.id? = none ∧
      (x.strategyOrChannel ≠ y.strategyOrChannel ∨ x.candleTimestamp ≠ y.candleTimestamp)

instance (x y : SignalIdentity) : Decidable (x.Differs y) := by
  unfold Differs; infer_instance

/-- What follows the symbol in the key. -/
def tail (x : SignalIdentity) : String := x.id?.getD "unknown:unknown"

end SignalIdentity

/-- A candidate together with the signal it stands for. -/
structure SignalCandidate where
  candidate : LiveExecutionCandidate
  identity : SignalIdentity
  source_eq : candidate.source = identity.source.value
  symbol_eq : candidate.symbol = identity.symbol
  signalId_eq : candidate.signalId = identity.signalId

/-- The key is the source, the symbol and what follows it. -/
theorem SignalCandidate.key_eq (x : SignalCandidate) :
    x.candidate.key =
      x.identity.source.value ++ ":" ++ (x.identity.symbol ++ ":" ++ x.identity.tail) := by
  unfold LiveExecutionCandidate.key computeIdempotencyKey SignalIdentity.tail SignalIdentity.id?
  rw [x.source_eq, x.symbol_eq, x.signalId_eq]
  cases x.identity.signalId.filter (· ≠ "") with
  | some id => simp [String.append_assoc]
  | none => simp [orUnknown, String.append_assoc]

/-! ## Signals that share a key -/

/-- Different signals whose keys are the same, up to the order of the two. -/
inductive Confused₁ (x y : SignalIdentity) : Prop
  /-- Neither has an id, and what distinguishes them is not passed to the key. -/
  | withoutId (hsource : x.source = y.source) (hsymbol : x.symbol = y.symbol) (hx : x.id? = none)
      (hy : y.id? = none)
      (hne : x.strategyOrChannel ≠ y.strategyOrChannel ∨ x.candleTimestamp ≠ y.candleTimestamp)
  /-- One has no id, and that of the other is the text for this. -/
  | unknownId (hsource : x.source = y.source) (hsymbol : x.symbol = y.symbol) (hx : x.id? = none)
      (hy : y.id? = some "unknown:unknown")
  /-- The symbol of one ends in a piece that begins the id of the other. -/
  | shifted (hsource : x.source = y.source) (piece : String)
      (hsymbol : y.symbol = x.symbol ++ ":" ++ piece) (htail : x.tail = piece ++ ":" ++ y.tail)

def Confused (x y : SignalIdentity) : Prop := Confused₁ x y ∨ Confused₁ y x

theorem ne_join (s t : String) : s ≠ s ++ ":" ++ t := by
  intro h
  have hlength := congrArg (fun s => s.toList.length) h
  simp at hlength

theorem Confused₁.differs {x y : SignalIdentity} (h : Confused₁ x y) : x.Differs y := by
  cases h with
  | withoutId hsource hsymbol hx hy hne => exact Or.inr (Or.inr (Or.inr ⟨hx, hy, hne⟩))
  | unknownId hsource hsymbol hx hy =>
    refine Or.inr (Or.inr (Or.inl ?_))
    rw [hx, hy]
    exact Option.some_ne_none _ |>.symm
  | shifted hsource piece hsymbol htail =>
    refine Or.inr (Or.inl ?_)
    rw [hsymbol]
    exact ne_join x.symbol piece

theorem SignalIdentity.Differs.symm {x y : SignalIdentity} (h : x.Differs y) : y.Differs x := by
  rcases h with h | h | h | ⟨hx, hy, h⟩
  · exact Or.inl h.symm
  · exact Or.inr (Or.inl h.symm)
  · exact Or.inr (Or.inr (Or.inl h.symm))
  · exact Or.inr (Or.inr (Or.inr ⟨hy, hx, h.imp Ne.symm Ne.symm⟩))

theorem Confused₁.key_eq {x y : SignalCandidate} (h : Confused₁ x.identity y.identity) :
    x.candidate.key = y.candidate.key := by
  rw [x.key_eq, y.key_eq]
  cases h with
  | withoutId hsource hsymbol hx hy =>
    simp only [hsource, hsymbol, SignalIdentity.tail, hx, hy]
  | unknownId hsource hsymbol hx hy =>
    simp only [hsource, hsymbol, SignalIdentity.tail, hx, hy, Option.getD_some, Option.getD_none]
  | shifted hsource piece hsymbol htail =>
    rw [hsource, hsymbol, htail]
    simp only [String.append_assoc]

/-- Signals that differ although everything in the key is the same. -/
theorem confused_of_tail_eq {x y : SignalIdentity} (hdiffers : x.Differs y)
    (hsource : x.source = y.source) (hsymbol : x.symbol = y.symbol) (htail : x.tail = y.tail) :
    Confused x y := by
  unfold SignalIdentity.tail at htail
  cases hx : x.id? with
  | none =>
    cases hy : y.id? with
    | none =>
      refine Or.inl (.withoutId hsource hsymbol hx hy ?_)
      rcases hdiffers with h | h | h | ⟨-, -, h⟩
      · exact absurd hsource h
      · exact absurd hsymbol h
      · exact absurd (hx.trans hy.symm) h
      · exact h
    | some id =>
      rw [hx, hy] at htail
      exact Or.inl (.unknownId hsource hsymbol hx (hy.trans (congrArg some htail.symm)))
  | some id =>
    cases hy : y.id? with
    | none =>
      rw [hx, hy] at htail
      exact Or.inr (.unknownId hsource.symm hsymbol.symm hy (hx.trans (congrArg some htail)))
    | some id' =>
      -- the ids are the same as well
      rw [hx, hy] at htail
      rcases hdiffers with h | h | h | ⟨h, -⟩
      · exact absurd hsource h
      · exact absurd hsymbol h
      · exact absurd (hx.trans ((congrArg some htail).trans hy.symm)) h
      · rw [hx] at h
        cases h

/-- **The keys of different signals are the same exactly if they are confused.** -/
theorem confused_iff (x y : SignalCandidate) :
    x.identity.Differs y.identity ∧ x.candidate.key = y.candidate.key ↔
      Confused x.identity y.identity := by
  constructor
  · rintro ⟨hdiffers, hkey⟩
    rw [x.key_eq, y.key_eq, join_eq_join_iff_of_notMem x.identity.source.colon_notMem
      y.identity.source.colon_notMem, LiveExecutionSource.value_inj, join_eq_join_iff] at hkey
    obtain ⟨hsource, ⟨hsymbol, htail⟩ | ⟨piece, hsymbol, htail⟩ | ⟨piece, hsymbol, htail⟩⟩ := hkey
    · exact confused_of_tail_eq hdiffers hsource hsymbol htail
    · exact Or.inl (.shifted hsource piece hsymbol htail)
    · exact Or.inr (.shifted hsource.symm piece hsymbol htail)
  · rintro (h | h)
    · exact ⟨h.differs, h.key_eq⟩
    · exact ⟨h.differs.symm, h.key_eq.symm⟩

/-! ## The rows that calls are answered with -/

/-- In no run of any calls of the executor, in any interleaving, are the two candidates answered
with one row. -/
def AnsweredApart (c c' : LiveExecutionCandidate) : Prop :=
  ∀ (settings : Settings) (client : OrderClient) (s : LiveStore), s.Initial →
    ∀ (candidates : List (LiveExecutionCandidate × GateInputs)) (schedule : List ℕ),
      let pool := run (Pool.step (ExecutionCall.move settings client))
        ⟨s, executionCalls candidates⟩ schedule
      ∀ call ∈ pool.procs, ∀ call' ∈ pool.procs, call.candidate = c → call'.candidate = c' →
        ∀ e e', call.stage = .ended e → call'.stage = .ended e' →
          e.idempotencyKey ≠ e'.idempotencyKey

/-- Candidates with different keys are answered apart. -/
theorem answeredApart_of_key_ne {c c' : LiveExecutionCandidate} (h : c.key ≠ c'.key) :
    AnsweredApart c c' := by
  intro settings client s hs candidates schedule pool call hcall call' hcall' hc hc' e e' he he'
  have hidempotent := (idempotent settings client hs candidates schedule).1.last
  obtain ⟨-, -, -, hkey⟩ := hidempotent.returned call hcall e he
  obtain ⟨-, -, -, hkey'⟩ := hidempotent.returned call' hcall' e' he'
  rw [hkey, hkey', ExecutionCall.key, ExecutionCall.key, hc, hc']
  exact h

/-- **The key separates two candidates if and only if their signals are not confused**: the keys of
different signals differ, and no run answers them with one row. -/
theorem keys_separate_iff (x y : SignalCandidate) :
    (x.identity.Differs y.identity →
      x.candidate.key ≠ y.candidate.key ∧ AnsweredApart x.candidate y.candidate) ↔
      ¬ Confused x.identity y.identity := by
  rw [← confused_iff]
  constructor
  · rintro h ⟨hdiffers, hkey⟩
    exact (h hdiffers).1 hkey
  · intro h hdiffers
    have hkey : x.candidate.key ≠ y.candidate.key := fun hkey => h ⟨hdiffers, hkey⟩
    exact ⟨hkey, answeredApart_of_key_ne hkey⟩

/-- A candidate without a signal id, of a strategy. -/
def candidateOfStrategy (strategy : String) : SignalCandidate :=
  { candidate :=
      { source := "ALPHAONE_STRATEGY", symbol := "BTC/USDT", direction := "LONG",
        entryPrice := 100, stopLoss := some 95, takeProfit1 := some 110 }
    identity :=
      { source := .alphaoneStrategy, symbol := "BTC/USDT", strategyOrChannel := some strategy,
        candleTimestamp := some "2026-07-28T04:00:00" }
    source_eq := rfl
    symbol_eq := rfl
    signalId_eq := rfl }

/-- The signals of two strategies share a key, and the second is answered with the row of the first.
-/
theorem strategies_share_row :
    let trend := candidateOfStrategy "trend_following"
    let breakout := candidateOfStrategy "breakout"
    let pool := run (Pool.step (ExecutionCall.move {} orderClient))
      ⟨{}, executionCalls [(trend.candidate, (candidateOf "1").2),
        (breakout.candidate, (candidateOf "1").2)]⟩
      [0, 0, 0, 0, 0, 0, 0, 0, 1]
    trend.identity.Differs breakout.identity ∧ trend.candidate.key = breakout.candidate.key ∧
      ∃ e ∈ pool.store.executions, pool.procs.map ExecutionCall.stage = [.ended e, .ended e] := by
  decide +kernel

end AlphaOne.Live
