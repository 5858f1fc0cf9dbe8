import AlphaOne.Paper.Engine

/-!
# What a candle does to one position

`process_candle` treats the positions of the book one after another, and what it does to one does
not depend on the others, except for the equity it reports. `PaperPosition.react` is that part
of it: the events of the position, without the equity, and what is left of the position.

* `react_of_not_touched`: a candle that reaches neither the stop nor the next target does
  nothing.
* `processCandle_spec`: the trader's book after a candle is every position after its reaction,
  and the events are the reactions' in the order of the book.
-/

namespace AlphaOne.Paper

open Foundations Journal Risk

/-- An event without the equity of the trader, the one entry that is not about its position. -/
def PaperEvent.bare (e : PaperEvent) : PaperEvent := { e with equityAfter := 0 }

/-- An event that takes the whole remaining position off the book. -/
def PaperEvent.IsExit (e : PaperEvent) : Prop :=
  match e.detail with
  | .partialExit _ => False
  | .exit .. => True

instance (e : PaperEvent) : Decidable e.IsExit := by
  unfold PaperEvent.IsExit
  split <;> infer_instance

@[simp] theorem PaperEvent.bare_bare (e : PaperEvent) : e.bare.bare = e.bare := rfl

/-- The trader in which a position is looked at alone. -/
def blank : PaperTrader := PaperTrader.new {} 0 0

namespace PaperPosition

/-- The event of a partial exit at the next target. -/
def sliceEvent (target : ℚ) (timestamp : Datetime) (pos : PaperPosition) : PaperEvent :=
  (blank.partialExit pos target timestamp pos.nextTargetIdx).1.bare

/-- The position after a partial exit at its next target. -/
def afterSlice (target : ℚ) (pos : PaperPosition) : PaperPosition :=
  { (blank.partialExit pos target 0 pos.nextTargetIdx).2.1 with
    nextTargetIdx := pos.nextTargetIdx + 1 }

/-- The event of closing what remains. -/
def exitEvent (exitPrice : ℚ) (timestamp : Datetime) (reason : ExitReason)
    (pos : PaperPosition) : PaperEvent :=
  (blank.closeRemaining pos exitPrice timestamp reason 0).1.bare

/-- The targets that are not hit yet. -/
def targetsLeft (pos : PaperPosition) : List ℚ := pos.targets.drop pos.nextTargetIdx

def reactTargets (candle : Candle) :
    List ℚ → PaperPosition → List PaperEvent × Option PaperPosition
  | [], pos => ([], some pos)
  | target :: rest, pos =>
    if ¬pos.TargetHit candle target then ([], some pos)
    else if rest = [] then ([pos.exitEvent target candle.timestamp .takeProfit], none)
    else
      let (events, pos') := reactTargets candle rest (pos.afterSlice target)
      (pos.sliceEvent target candle.timestamp :: events, pos')

/-- The events of a position on a candle, and what is left of the position. -/
def react (candle : Candle) (pos : PaperPosition) : List PaperEvent × Option PaperPosition :=
  if pos.StopHit candle then ([pos.exitEvent pos.stopLoss candle.timestamp .stopLoss], none)
  else reactTargets candle pos.targetsLeft pos

/-- The candle reaches the stop or the next target of the position. -/
def Touched (candle : Candle) (pos : PaperPosition) : Prop :=
  pos.StopHit candle ∨ ∃ target ∈ pos.targetsLeft.head?, pos.TargetHit candle target

instance (candle : Candle) (pos : PaperPosition) : Decidable (pos.Touched candle) :=
  inferInstanceAs (Decidable (pos.StopHit candle ∨
    ∃ target ∈ pos.targetsLeft.head?, pos.TargetHit candle target))

variable {candle : Candle} {pos pos' : PaperPosition} {targets : List ℚ} {e : PaperEvent}

/-! ## Reactions -/

theorem react_of_not_touched (h : ¬pos.Touched candle) : pos.react candle = ([], some pos) := by
  unfold Touched at h
  push Not at h
  obtain ⟨hstop, htarget⟩ := h
  rw [react, if_neg hstop]
  cases hl : pos.targetsLeft with
  | nil => rfl
  | cons target rest =>
    have hmiss : ¬pos.TargetHit candle target := htarget target (by simp [hl])
    rw [reactTargets, if_pos hmiss]

/-- A candle that reaches a level leaves an event. -/
theorem react_ne_nil (h : pos.Touched candle) : (pos.react candle).1 ≠ [] := by
  unfold react
  split
  · simp
  · rename_i hstop
    rcases h with h | ⟨target, ht, hhit⟩
    · exact absurd h hstop
    · cases hl : pos.targetsLeft with
      | nil => simp [hl] at ht
      | cons first rest =>
        obtain rfl : first = target := by simpa [hl] using ht
        rw [reactTargets, if_neg (not_not_intro hhit)]
        split <;> simp

/-- The position as its events identify it: what a reaction never changes. -/
structure SamePosition (pos pos' : PaperPosition) : Prop where
  tradeId : pos'.tradeId = pos.tradeId
  side : pos'.side = pos.side
  quantity : pos'.quantity = pos.quantity
  entryTime : pos'.entryTime = pos.entryTime

theorem SamePosition.refl (pos : PaperPosition) : SamePosition pos pos := ⟨rfl, rfl, rfl, rfl⟩

theorem SamePosition.trans {p q r : PaperPosition} (h : SamePosition p q)
    (h' : SamePosition q r) : SamePosition p r :=
  ⟨h'.tradeId.trans h.tradeId, h'.side.trans h.side, h'.quantity.trans h.quantity,
    h'.entryTime.trans h.entryTime⟩

theorem samePosition_afterSlice (target : ℚ) (pos : PaperPosition) :
    SamePosition pos (pos.afterSlice target) := ⟨rfl, rfl, rfl, rfl⟩

theorem samePosition_of_mem_reactTargets
    (h : (reactTargets candle targets pos).2 = some pos') : SamePosition pos pos' := by
  induction targets generalizing pos with
  | nil =>
    cases h
    exact SamePosition.refl _
  | cons target rest ih =>
    unfold reactTargets at h
    split at h
    · cases h
      exact SamePosition.refl _
    · split at h
      · cases h
      · exact (samePosition_afterSlice target pos).trans (ih h)

theorem samePosition_of_react (h : (pos.react candle).2 = some pos') : SamePosition pos pos' := by
  unfold react at h
  split at h
  · cases h
  · exact samePosition_of_mem_reactTargets h

/-- What every event of a reaction says about where it comes from. -/
structure EventOf (pos : PaperPosition) (candle : Candle) (e : PaperEvent) : Prop where
  tradeId : e.tradeId = pos.tradeId
  exitTime : e.exitTime = candle.timestamp
  bare : e.bare = e

theorem eventOf_reactTargets (h : e ∈ (reactTargets candle targets pos).1) :
    EventOf pos candle e := by
  induction targets generalizing pos with
  | nil => simp [reactTargets] at h
  | cons target rest ih =>
    unfold reactTargets at h
    split at h
    · simp at h
    · split at h
      · obtain rfl := List.mem_singleton.1 h
        exact ⟨rfl, rfl, rfl⟩
      · rcases List.mem_cons.1 h with rfl | h
        · exact ⟨rfl, rfl, rfl⟩
        · obtain ⟨hid, htime, hbare⟩ := ih h
          exact ⟨hid, htime, hbare⟩

theorem eventOf_react (h : e ∈ (pos.react candle).1) : EventOf pos candle e := by
  unfold react at h
  split at h
  · obtain rfl := List.mem_singleton.1 h
    exact ⟨rfl, rfl, rfl⟩
  · exact eventOf_reactTargets h

/-- While something of the position is left, its events are partial exits. -/
theorem not_isExit_of_reactTargets (h : (reactTargets candle targets pos).2 ≠ none)
    (he : e ∈ (reactTargets candle targets pos).1) : ¬e.IsExit := by
  induction targets generalizing pos with
  | nil => simp [reactTargets] at he
  | cons target rest ih =>
    unfold reactTargets at h he
    split at he
    · simp at he
    · rename_i hhit
      rw [if_neg hhit] at h
      split at he
      · rename_i hrest
        simp [hrest] at h
      · rename_i hrest
        rw [if_neg hrest] at h
        rcases List.mem_cons.1 he with rfl | he
        · exact not_false
        · exact ih h he

theorem not_isExit_of_react (h : (pos.react candle).2 ≠ none) (he : e ∈ (pos.react candle).1) :
    ¬e.IsExit := by
  unfold react at h he
  split at he
  · rename_i hstop
    simp [hstop] at h
  · rename_i hstop
    rw [if_neg hstop] at h
    exact not_isExit_of_reactTargets h he

end PaperPosition

/-! ## The trader's book -/

namespace PaperTrader

variable {candle : Candle} {clock : String → Datetime} {now : Datetime} {t : PaperTrader}
  {pos : PaperPosition} {pre post : List PaperPosition}

/-- The result `out` of treating one position in the book `pre ++ pos :: post` of `t` is its
reaction `r`, the rest of the book being as it was. -/
structure Reacted (t : PaperTrader) (pre post : List PaperPosition)
    (r : List PaperEvent × Option PaperPosition) (out : List PaperEvent × PaperTrader) :
    Prop where
  events : out.1.map PaperEvent.bare = r.1
  positions : out.2.positions = pre ++ r.2.toList ++ post
  tradeCounter : out.2.tradeCounter = t.tradeCounter
  isPaused : out.2.isPaused = t.isPaused

theorem closeRemaining_reacted (hu : UniqueKey PaperPosition.tradeId t.positions)
    (hpos : t.positions = pre ++ pos :: post) (exitPrice : ℚ) (timestamp : Datetime)
    (reason : ExitReason) :
    Reacted t pre post ([pos.exitEvent exitPrice timestamp reason], none)
      (let (event, t') := t.closeRemaining pos exitPrice timestamp reason now; ([event], t')) where
  events := rfl
  positions := by
    rw [hpos] at hu
    simp [closeRemaining, hpos, remove_append_cons hu]
  tradeCounter := rfl
  isPaused := rfl

theorem takeProfits_reacted {targets : List ℚ}
    (hu : UniqueKey PaperPosition.tradeId t.positions) (hpos : t.positions = pre ++ pos :: post) :
    Reacted t pre post (pos.reactTargets candle targets) (t.takeProfits candle now targets pos) := by
  induction targets generalizing t pos with
  | nil => exact ⟨rfl, by simp [takeProfits, PaperPosition.reactTargets, hpos], rfl, rfl⟩
  | cons target rest ih =>
    unfold takeProfits PaperPosition.reactTargets
    split
    · exact ⟨rfl, by simp [hpos], rfl, rfl⟩
    · split
      · exact closeRemaining_reacted hu hpos target candle.timestamp .takeProfit
      · -- the mutated position is written to the book twice: by the exit and by the index
        set t₁ := (t.partialExit pos target candle.timestamp pos.nextTargetIdx).2.2 with ht₁
        set pos₁ := (t.partialExit pos target candle.timestamp pos.nextTargetIdx).2.1 with hpos₁
        have hu₀ := hu
        rw [hpos] at hu₀
        have hbook₁ : t₁.positions = pre ++ pos₁ :: post := by
          change save PaperPosition.tradeId pos₁ t.positions = _
          rw [hpos]
          exact save_append_cons (r := pos₁) hu₀ rfl
        have hu₁ : UniqueKey PaperPosition.tradeId t₁.positions := hu.save
        have hbook₂ : (t₁.put (pos.afterSlice target)).positions =
            pre ++ pos.afterSlice target :: post := by
          change save PaperPosition.tradeId (pos.afterSlice target) t₁.positions = _
          rw [hbook₁] at hu₁ ⊢
          exact save_append_cons (r := pos.afterSlice target) hu₁ rfl
        obtain ⟨hev, hbook, hcount, hpaused⟩ := ih (t := t₁.put (pos.afterSlice target))
          hu₁.save hbook₂
        exact ⟨by simpa using ⟨rfl, hev⟩, hbook, hcount, hpaused⟩

variable (candle now) in
theorem processPosition_reacted (hu : UniqueKey PaperPosition.tradeId t.positions)
    (hpos : t.positions = pre ++ pos :: post) :
    Reacted t pre post (pos.react candle) (t.processPosition candle now pos) := by
  unfold processPosition PaperPosition.react
  split
  · exact closeRemaining_reacted hu hpos pos.stopLoss candle.timestamp .stopLoss
  · exact takeProfits_reacted hu hpos

variable (candle now) in
theorem processPosition_uniqueKey (hu : UniqueKey PaperPosition.tradeId t.positions)
    (hpos : t.positions = pre ++ pos :: post) :
    UniqueKey PaperPosition.tradeId (t.processPosition candle now pos).2.positions := by
  rw [(processPosition_reacted candle now hu hpos).positions]
  rw [hpos] at hu
  cases hr : (pos.react candle).2 with
  | none =>
    have h := hu.remove (k := pos.tradeId)
    rw [remove_append_cons hu] at h
    simpa using h
  | some pos' =>
    have hid := (PaperPosition.samePosition_of_react hr).tradeId
    have h := hu.save (r := pos')
    rw [save_append_cons hu hid.symm] at h
    simpa using h

/-- The positions a book holds after a candle. -/
def after (candle : Candle) (book : List PaperPosition) : List PaperPosition :=
  book.filterMap fun pos => (pos.react candle).2

/-- The events of a book on a candle, without the equity. -/
def reactions (candle : Candle) (book : List PaperPosition) : List PaperEvent :=
  book.flatMap fun pos => (pos.react candle).1

/-- What processing the positions `book`, which come after `done` in the book of `t`, leaves. -/
structure Processed (t : PaperTrader) (candle : Candle) (done book : List PaperPosition)
    (out : List PaperEvent × PaperTrader) : Prop where
  events : out.1.map PaperEvent.bare = reactions candle book
  positions : out.2.positions = done ++ after candle book
  tradeCounter : out.2.tradeCounter = t.tradeCounter
  isPaused : out.2.isPaused = t.isPaused

theorem after_cons (candle : Candle) (pos : PaperPosition) (book : List PaperPosition) :
    after candle (pos :: book) = (pos.react candle).2.toList ++ after candle book := by
  cases h : (pos.react candle).2 <;> simp [after, h]

theorem processPositions_spec {done book : List PaperPosition}
    (hu : UniqueKey PaperPosition.tradeId t.positions) (hbook : t.positions = done ++ book) :
    Processed t candle done book (processPositions candle clock book t) := by
  induction book generalizing t done with
  | nil => exact ⟨rfl, by simp [processPositions, after, hbook], rfl, rfl⟩
  | cons pos rest ih =>
    obtain ⟨hev, hpositions, hcount, hpaused⟩ :=
      processPosition_reacted candle (clock pos.tradeId) hu hbook
    set out := t.processPosition candle (clock pos.tradeId) pos with hout
    have hu' : UniqueKey PaperPosition.tradeId out.2.positions :=
      processPosition_uniqueKey candle (clock pos.tradeId) hu hbook
    obtain ⟨hev', hpositions', hcount', hpaused'⟩ := ih hu' hpositions
    exact
      { events := by
          simp only [processPositions, ← hout, List.map_append, hev, hev', reactions,
            List.flatMap_cons]
        positions := by
          simp only [processPositions, ← hout, hpositions', after_cons, List.append_assoc]
        tradeCounter := hcount'.trans hcount
        isPaused := hpaused'.trans hpaused }

variable (candle clock) in
/-- **A candle makes every position of the book react, and nothing else happens to the book.** -/
theorem processCandle_spec (hu : UniqueKey PaperPosition.tradeId t.positions)
    (hpaused : t.isPaused = false) :
    Processed t candle [] t.positions (t.processCandle candle clock) := by
  rw [processCandle, hpaused]
  exact processPositions_spec hu rfl

variable {book : List PaperPosition} {pos' : PaperPosition} {e : PaperEvent}

theorem mem_after : pos' ∈ after candle book ↔ ∃ pos ∈ book, (pos.react candle).2 = some pos' := by
  simp [after]

theorem mem_reactions : e ∈ reactions candle book ↔ ∃ pos ∈ book, e ∈ (pos.react candle).1 := by
  simp [reactions]

variable (candle) in
theorem uniqueKey_after (hu : UniqueKey PaperPosition.tradeId book) :
    UniqueKey PaperPosition.tradeId (after candle book) := by
  induction book with
  | nil => exact hu
  | cons pos rest ih =>
    have hrest : UniqueKey PaperPosition.tradeId rest := List.Nodup.of_cons hu
    have hnew : pos.tradeId ∉ rest.map PaperPosition.tradeId := (List.nodup_cons.1 hu).1
    rw [after_cons]
    cases hr : (pos.react candle).2 with
    | none => exact ih hrest
    | some pos' =>
      refine List.nodup_cons.2 ⟨fun hmem => hnew ?_, ih hrest⟩
      obtain ⟨q', hq', hid⟩ := List.mem_map.1 hmem
      obtain ⟨q, hq, hqr⟩ := mem_after.1 hq'
      have h₁ := (PaperPosition.samePosition_of_react hr).tradeId
      have h₂ := (PaperPosition.samePosition_of_react hqr).tradeId
      rw [← h₁, ← hid, h₂]
      exact List.mem_map_of_mem hq

end PaperTrader

end AlphaOne.Paper
