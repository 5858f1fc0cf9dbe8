import AlphaOne.Foundations.Run
import Mathlib.Data.List.Basic

/-!
# One background task

An object owns a background task. `start` creates one unless it knows of one that runs; `stop` asks
the task to end, waits until it has, forgets it, and then releases what the task has left behind.
Both may be called at any time and any number of times, and the task runs between the calls: at each
of its awaits everybody else may move. A task that is asked to end does so when it next moves.

* `Supervisor`: the object's own parts, and what its task does when it moves.
* `Supervision.step`: one move of a caller, of a task, or of the outside world.
* `Supervision.Single`: no task runs but the one the object knows of, and none while a stop is under
  way that has not been asked to end. `Single.step` keeps it under `StartsAlone`: no task is created
  while a stop is under way.
* `Invariant`, with `Invariant.always`: the rule for what the object and its task keep between them.
-/

namespace AlphaOne.Foundations

/-- A task: what it will do next, unless it has ended, and whether it has been asked to end. -/
structure Task (β : Type*) where
  body : Option β
  cancelled : Bool := false
  deriving DecidableEq, Repr

/-- A stop under way: it waits for the task, or for what it releases. -/
inductive StopCall (χ : Type*)
  | awaiting (task : ℕ)
  | closing (resource : χ)
  deriving DecidableEq, Repr

/-- The object: its own state, the tasks it has created and the one it knows of, and the stops that
are under way. -/
structure Supervision (γ β χ : Type*) where
  shared : γ
  tasks : List (Task β) := []
  current : Option ℕ := none
  stops : List (StopCall χ) := []
  deriving DecidableEq, Repr

/-- What the object does besides: what `start` asks for and does, what `stop` does first, what it
releases and what the release leaves; what the task does when it moves, until it ends; and what the
outside world does. -/
structure Supervisor (γ β χ ε ω : Type*) where
  mayStart : γ → Bool
  begin : γ → γ × β
  stopping : γ → γ
  close : γ → χ
  closed : χ → γ → γ
  resume : β → ε → γ → γ × Option β
  outside : ω → γ → γ

inductive SupervisorMove (ε ω : Type*)
  | start
  | stop
  /-- What the stop at the place waits for has come. -/
  | stopResumes (place : ℕ)
  | resume (task : ℕ) (event : ε)
  | outside (event : ω)
  deriving DecidableEq, Repr

namespace Supervision

variable {γ β χ ε ω : Type*} (v : Supervisor γ β χ ε ω)

/-- The task at the place has not ended. -/
def runs (s : Supervision γ β χ) (i : ℕ) : Bool := s.tasks[i]?.any fun t => t.body.isSome

/-- The object knows of a task that has not ended. -/
def isRunning (s : Supervision γ β χ) : Bool := s.current.any s.runs

/-- What the task the object knows of will do next, unless it has ended or been asked to. -/
def active (s : Supervision γ β χ) : Option β :=
  s.current.bind fun i => s.tasks[i]?.bind fun t => if t.cancelled then none else t.body

def start (s : Supervision γ β χ) : Supervision γ β χ :=
  if s.isRunning || !v.mayStart s.shared then s
  else
    { s with
      shared := (v.begin s.shared).1
      tasks := s.tasks ++ [{ body := some (v.begin s.shared).2 }]
      current := some s.tasks.length }

def stop (s : Supervision γ β χ) : Supervision γ β χ :=
  let shared := v.stopping s.shared
  match s.current.filter s.runs with
  | some i =>
    { s with
      shared
      tasks := s.tasks.modify i fun t => { t with cancelled := true }
      stops := s.stops ++ [.awaiting i] }
  | none => { s with shared, current := none, stops := s.stops ++ [.closing (v.close shared)] }

def stopResumes (s : Supervision γ β χ) (place : ℕ) : Supervision γ β χ :=
  match s.stops[place]? with
  | none => s
  | some (.awaiting i) =>
    if s.runs i then s
    else { s with current := none, stops := s.stops.set place (.closing (v.close s.shared)) }
  | some (.closing x) => { s with shared := v.closed x s.shared, stops := s.stops.eraseIdx place }

def resume (s : Supervision γ β χ) (i : ℕ) (e : ε) : Supervision γ β χ :=
  match s.tasks[i]? with
  | some ⟨some b, false⟩ =>
    { s with
      shared := (v.resume b e s.shared).1
      tasks := s.tasks.set i ⟨(v.resume b e s.shared).2, false⟩ }
  | some ⟨some _, true⟩ => { s with tasks := s.tasks.set i ⟨none, true⟩ }
  | _ => s

def step (s : Supervision γ β χ) : SupervisorMove ε ω → Supervision γ β χ
  | .start => s.start v
  | .stop => s.stop v
  | .stopResumes place => s.stopResumes v place
  | .resume task event => s.resume v task event
  | .outside event => { s with shared := v.outside event s.shared }

/-! ## What the moves do -/

variable {v} {s : Supervision γ β χ}

theorem runs_iff {i : ℕ} : s.runs i = true ↔ ∃ b c, s.tasks[i]? = some ⟨some b, c⟩ := by
  cases h : s.tasks[i]? with
  | none => simp [runs, h]
  | some t =>
    obtain ⟨body, cancelled⟩ := t
    cases body <;> simp [runs, h]

theorem active_eq_some {b : β} :
    s.active = some b ↔ ∃ i, s.current = some i ∧ s.tasks[i]? = some ⟨some b, false⟩ := by
  simp only [active, Option.bind_eq_some_iff]
  constructor
  · rintro ⟨i, hi, ⟨body, cancelled⟩, ht, hbody⟩
    cases cancelled with
    | true => cases hbody
    | false =>
      obtain rfl : body = some b := hbody
      exact ⟨i, hi, ht⟩
  · rintro ⟨i, hi, ht⟩
    exact ⟨i, hi, _, ht, rfl⟩

theorem active_eq_none_of_not_running (h : s.isRunning = false) : s.active = none := by
  by_contra hne
  obtain ⟨b, hb⟩ := Option.ne_none_iff_exists'.1 hne
  obtain ⟨i, hi, ht⟩ := active_eq_some.1 hb
  have hrun : s.isRunning = true := by
    simp only [isRunning, hi, Option.any_some]
    exact runs_iff.2 ⟨b, false, ht⟩
  rw [h] at hrun
  cases hrun

/-- A start does nothing, or creates a task. -/
theorem start_cases (s : Supervision γ β χ) :
    s.start v = s ∨ (s.isRunning = false ∧ v.mayStart s.shared = true ∧
      s.start v =
        { s with
          shared := (v.begin s.shared).1
          tasks := s.tasks ++ [{ body := some (v.begin s.shared).2 }]
          current := some s.tasks.length }) := by
  by_cases h : s.isRunning || !v.mayStart s.shared
  · exact Or.inl (by rw [start, if_pos h])
  · refine Or.inr ⟨?_, ?_, by rw [start, if_neg h]⟩ <;> simp_all

/-- A stop asks the task that runs to end, or finds none. -/
theorem stop_cases (s : Supervision γ β χ) :
    (∃ i, s.current = some i ∧ s.runs i = true ∧ s.stop v =
      { s with
        shared := v.stopping s.shared
        tasks := s.tasks.modify i fun t => { t with cancelled := true }
        stops := s.stops ++ [.awaiting i] }) ∨
    (s.isRunning = false ∧ s.stop v =
      { s with
        shared := v.stopping s.shared
        current := none
        stops := s.stops ++ [.closing (v.close (v.stopping s.shared))] }) := by
  unfold stop isRunning
  cases hc : s.current with
  | none => exact Or.inr ⟨rfl, rfl⟩
  | some i =>
    cases hr : s.runs i with
    | true =>
      have hfilter : Option.filter s.runs (some i) = some i := by simp [hr]
      exact Or.inl ⟨i, rfl, hr, by simp only [hfilter]⟩
    | false =>
      have hfilter : Option.filter s.runs (some i) = none := by simp [hr]
      exact Or.inr ⟨hr, by simp only [hfilter]⟩

/-- A stop that goes on has waited for its task, or released what it holds. -/
theorem stopResumes_cases (s : Supervision γ β χ) (place : ℕ) :
    s.stopResumes v place = s ∨
    (∃ i, StopCall.awaiting i ∈ s.stops ∧ s.runs i = false ∧ s.stopResumes v place =
      { s with current := none, stops := s.stops.set place (.closing (v.close s.shared)) }) ∨
    ∃ x, StopCall.closing x ∈ s.stops ∧ s.stopResumes v place =
      { s with shared := v.closed x s.shared, stops := s.stops.eraseIdx place } := by
  unfold stopResumes
  cases h : s.stops[place]? with
  | none => exact Or.inl rfl
  | some call =>
    have hmem := List.mem_of_getElem? h
    cases call with
    | awaiting i =>
      cases hr : s.runs i with
      | true => exact Or.inl (by simp only [hr, if_true])
      | false =>
        exact Or.inr (Or.inl ⟨i, hmem, hr, by simp only [hr, Bool.false_eq_true, if_false]⟩)
    | closing x => exact Or.inr (Or.inr ⟨x, hmem, rfl⟩)

/-- A task that moves goes on with what it does, or ends because it has been asked to. -/
theorem resume_cases (s : Supervision γ β χ) (i : ℕ) (e : ε) :
    s.resume v i e = s ∨
    (∃ b, s.tasks[i]? = some ⟨some b, false⟩ ∧ s.resume v i e =
      { s with
        shared := (v.resume b e s.shared).1
        tasks := s.tasks.set i ⟨(v.resume b e s.shared).2, false⟩ }) ∨
    ∃ b, s.tasks[i]? = some ⟨some b, true⟩ ∧
      s.resume v i e = { s with tasks := s.tasks.set i ⟨none, true⟩ } := by
  unfold resume
  cases h : s.tasks[i]? with
  | none => exact Or.inl rfl
  | some t =>
    obtain ⟨body, cancelled⟩ := t
    cases body with
    | none => exact Or.inl rfl
    | some b =>
      cases cancelled with
      | false => exact Or.inr (Or.inl ⟨b, rfl, rfl⟩)
      | true => exact Or.inr (Or.inr ⟨b, rfl, rfl⟩)

/-! ## One task at a time -/

/-- No task runs but the one the object knows of; the stops under way wait for that one, or for none
that is known, and none is known once one of them releases; and while there are any, the task that
runs has been asked to end. -/
structure Single (s : Supervision γ β χ) : Prop where
  current : ∀ (i : ℕ) (b : β) (c : Bool), s.tasks[i]? = some ⟨some b, c⟩ → s.current = some i
  awaiting : ∀ i, StopCall.awaiting i ∈ s.stops → s.current = some i ∨ s.current = none
  closing : ∀ x, StopCall.closing x ∈ s.stops → s.current = none
  cancelled : s.stops ≠ [] →
    ∀ (i : ℕ) (b : β) (c : Bool), s.tasks[i]? = some ⟨some b, c⟩ → c = true

/-- No task is created while a stop is under way. -/
def StartsAlone (v : Supervisor γ β χ ε ω) (s : Supervision γ β χ) (m : SupervisorMove ε ω) :
    Prop :=
  m = .start → s.isRunning = false → v.mayStart s.shared = true → s.stops = []

theorem Single.init (g : γ) : Single ({ shared := g } : Supervision γ β χ) :=
  ⟨by simp, by simp, by simp, by simp⟩

/-- When the task that is known has ended, all have. -/
theorem Single.ended (hs : s.Single) {i : ℕ} (hi : s.current = some i ∨ s.current = none)
    (hr : s.runs i = false) (j : ℕ) (b : β) (c : Bool) : s.tasks[j]? ≠ some ⟨some b, c⟩ := by
  intro ht
  have hj := hs.current j b c ht
  rcases hi with hi | hi
  · obtain rfl : i = j := Option.some.inj (hi.symm.trans hj)
    rw [runs_iff.2 ⟨b, c, ht⟩] at hr
    cases hr
  · rw [hi] at hj
    cases hj

theorem Single.ended_of_not_running (hs : s.Single) (hr : s.isRunning = false) (j : ℕ) (b : β)
    (c : Bool) : s.tasks[j]? ≠ some ⟨some b, c⟩ := by
  intro ht
  rw [isRunning, hs.current j b c ht, Option.any_some, runs_iff.2 ⟨b, c, ht⟩] at hr
  cases hr

/-- While a stop is under way, nothing is going on. -/
theorem Single.active_of_stops (hs : s.Single) (h : s.stops ≠ []) : s.active = none := by
  by_contra hne
  obtain ⟨b, hb⟩ := Option.ne_none_iff_exists'.1 hne
  obtain ⟨i, -, ht⟩ := active_eq_some.1 hb
  have := hs.cancelled h i b false ht
  cases this

theorem getElem?_concat_eq_some {α : Type*} {l : List α} {a x : α} {j : ℕ}
    (h : (l ++ [a])[j]? = some x) : l[j]? = some x ∨ (j = l.length ∧ x = a) := by
  rcases Nat.lt_trichotomy j l.length with hj | rfl | hj
  · exact Or.inl (by rwa [List.getElem?_append_left hj] at h)
  · exact Or.inr ⟨rfl, by simpa using h.symm⟩
  · rw [List.getElem?_append_right (Nat.le_of_lt hj)] at h
    simp [show j - l.length ≠ 0 by omega] at h

theorem Single.start (hs : s.Single) (h : s.StartsAlone v .start) : (s.start v).Single := by
  rcases s.start_cases (v := v) with heq | ⟨hrun, hmay, heq⟩
  · rwa [heq]
  · have hnone : s.stops = [] := h rfl hrun hmay
    rw [heq]
    refine ⟨fun i b c ht => ?_, fun i hi => ?_, fun x hx => ?_, fun hne => absurd hnone hne⟩
    · rcases getElem?_concat_eq_some ht with ht | ⟨rfl, -⟩
      · exact absurd ht (hs.ended_of_not_running hrun i b c)
      · rfl
    · rw [hnone] at hi
      cases hi
    · rw [hnone] at hx
      cases hx

theorem Single.stop (hs : s.Single) : (s.stop v).Single := by
  rcases s.stop_cases (v := v) with ⟨i, hi, hrun, heq⟩ | ⟨hrun, heq⟩
  · rw [heq]
    have htask : ∀ j b c, (s.tasks.modify i fun t => { t with cancelled := true })[j]? =
        some ⟨some b, c⟩ → j = i ∧ c = true := by
      intro j b c ht
      by_cases hij : i = j
      · simp only [List.getElem?_modify, hij, if_true, Option.map_eq_map,
          Option.map_eq_some_iff] at ht
        obtain ⟨t, -, ht⟩ := ht
        exact ⟨hij.symm, (congrArg Task.cancelled ht).symm⟩
      · simp only [List.getElem?_modify, hij, if_false, Option.map_eq_map, Option.map_id'] at ht
        exact absurd (Option.some.inj (hi.symm.trans (hs.current j b c ht))) hij
    refine ⟨fun j b c ht => by rw [(htask j b c ht).1]; exact hi, fun j hj => ?_,
      fun x hx => hs.closing x (by simpa using hx), fun _ j b c ht => (htask j b c ht).2⟩
    rcases List.mem_append.1 hj with hj | hj
    · exact hs.awaiting j hj
    · obtain rfl : j = i := by simpa using hj
      exact Or.inl hi
  · rw [heq]
    have hend := hs.ended_of_not_running hrun
    exact ⟨fun i b c ht => absurd ht (hend i b c), fun _ _ => Or.inr rfl, fun _ _ => rfl,
      fun _ i b c ht => absurd ht (hend i b c)⟩

theorem Single.stopResumes (hs : s.Single) (place : ℕ) : (s.stopResumes v place).Single := by
  rcases s.stopResumes_cases (v := v) place with heq | ⟨i, hi, hr, heq⟩ | ⟨x, hx, heq⟩
  · rwa [heq]
  · rw [heq]
    have hend := hs.ended (hs.awaiting i hi) hr
    exact ⟨fun j b c ht => absurd ht (hend j b c), fun _ _ => Or.inr rfl, fun _ _ => rfl,
      fun _ j b c ht => absurd ht (hend j b c)⟩
  · rw [heq]
    exact ⟨hs.current, fun i hi => hs.awaiting i (List.mem_of_mem_eraseIdx hi),
      fun y hy => hs.closing y (List.mem_of_mem_eraseIdx hy),
      fun _ => hs.cancelled (List.ne_nil_of_mem hx)⟩

/-- What a task looks like after another list has been put in its place. -/
theorem getElem?_set_eq_some {l : List (Task β)} {i j : ℕ} {t : Task β} {b : β} {c : Bool}
    (h : (l.set i t)[j]? = some ⟨some b, c⟩) :
    (j = i ∧ t = ⟨some b, c⟩) ∨ (j ≠ i ∧ l[j]? = some ⟨some b, c⟩) := by
  rw [List.getElem?_set] at h
  by_cases hij : i = j
  · rw [if_pos hij] at h
    split_ifs at h
    exact Or.inl ⟨hij.symm, Option.some.inj h⟩
  · rw [if_neg hij] at h
    exact Or.inr ⟨fun hji => hij hji.symm, h⟩

theorem Single.resume (hs : s.Single) (i : ℕ) (e : ε) : (s.resume v i e).Single := by
  rcases s.resume_cases (v := v) i e with heq | ⟨b, ht, heq⟩ | ⟨b, ht, heq⟩
  · rwa [heq]
  · have hi := hs.current i b false ht
    rw [heq]
    refine ⟨fun j b' c hj => ?_, hs.awaiting, hs.closing, fun hne => ?_⟩
    · rcases getElem?_set_eq_some hj with ⟨rfl, -⟩ | ⟨-, hj⟩
      · exact hi
      · exact hs.current j b' c hj
    · exact absurd (hs.cancelled hne i b false ht) (by simp)
  · rw [heq]
    refine ⟨fun j b' c hj => ?_, hs.awaiting, hs.closing, fun hne j b' c hj => ?_⟩
    · rcases getElem?_set_eq_some hj with ⟨-, habs⟩ | ⟨-, hj⟩
      · cases habs
      · exact hs.current j b' c hj
    · rcases getElem?_set_eq_some hj with ⟨-, habs⟩ | ⟨-, hj⟩
      · cases habs
      · exact hs.cancelled hne j b' c hj

/-- **Every move keeps one task**, if no task is created while a stop is under way. -/
theorem Single.step (hs : s.Single) {m : SupervisorMove ε ω} (hm : s.StartsAlone v m) :
    (s.step v m).Single := by
  cases m with
  | start => exact hs.start hm
  | stop => exact hs.stop
  | stopResumes place => exact hs.stopResumes place
  | resume i e => exact hs.resume i e
  | outside e => exact ⟨hs.current, hs.awaiting, hs.closing, hs.cancelled⟩

/-- At most one task runs. -/
theorem Single.unique (hs : s.Single) {i j : ℕ} (hi : s.runs i = true) (hj : s.runs j = true) :
    i = j := by
  obtain ⟨b, c, hi⟩ := runs_iff.1 hi
  obtain ⟨b', c', hj⟩ := runs_iff.1 hj
  exact Option.some.inj ((hs.current i b c hi).symm.trans (hs.current j b' c' hj))

/-! ## Without a start -/

/-- Nothing is going on: whatever the object's parts do from now on, no task does anything. -/
structure Quiet (s : Supervision γ β χ) : Prop where
  single : s.Single
  active : s.active = none

theorem Quiet.stop (hs : s.Single) : (s.stop v).Quiet := by
  have hsingle := hs.stop (v := v)
  refine ⟨hsingle, hsingle.active_of_stops ?_⟩
  rcases s.stop_cases (v := v) with ⟨i, -, -, heq⟩ | ⟨-, heq⟩ <;> simp [heq]

/-- A move other than a start leaves everything quiet, and changes the object's state by its own
parts only. -/
theorem Quiet.step (hs : s.Quiet) {m : SupervisorMove ε ω} (hm : m ≠ .start) {P : γ → Prop}
    (hstopping : ∀ g, P g → P (v.stopping g)) (hclosed : ∀ g x, P g → P (v.closed x g))
    (houtside : ∀ g e, P g → P (v.outside e g)) (hP : P s.shared) :
    (s.step v m).Quiet ∧ P (s.step v m).shared := by
  have hsingle : (s.step v m).Single := hs.single.step fun h => absurd h hm
  cases m with
  | start => exact absurd rfl hm
  | stop =>
    refine ⟨Quiet.stop hs.single, ?_⟩
    rcases s.stop_cases (v := v) with ⟨i, -, -, heq⟩ | ⟨-, heq⟩ <;>
    · rw [Supervision.step, heq]
      exact hstopping _ hP
  | stopResumes place =>
    rw [Supervision.step] at hsingle ⊢
    rcases s.stopResumes_cases (v := v) place with heq | ⟨i, -, -, heq⟩ | ⟨x, -, heq⟩
    · rw [heq]
      exact ⟨hs, hP⟩
    · rw [heq] at hsingle ⊢
      exact ⟨⟨hsingle, rfl⟩, hP⟩
    · rw [heq] at hsingle ⊢
      exact ⟨⟨hsingle, hs.active⟩, hclosed _ x hP⟩
  | resume i e =>
    rw [Supervision.step] at hsingle ⊢
    rcases s.resume_cases (v := v) i e with heq | ⟨b, ht, heq⟩ | ⟨b, ht, heq⟩
    · rw [heq]
      exact ⟨hs, hP⟩
    · have hactive := hs.active
      rw [active_eq_some.2 ⟨i, hs.single.current i b false ht, ht⟩] at hactive
      cases hactive
    · have hlt : i < s.tasks.length := (List.getElem?_eq_some_iff.1 ht).1
      rw [heq] at hsingle ⊢
      exact ⟨⟨hsingle, by simp [Supervision.active, hs.single.current i b true ht, hlt]⟩, hP⟩
  | outside e => exact ⟨⟨hsingle, hs.active⟩, houtside _ e hP⟩

/-- **Without a start nothing begins**, whatever else is called. -/
theorem Quiet.run (hs : s.Quiet) {moves : List (SupervisorMove ε ω)} (hm : ∀ m ∈ moves, m ≠ .start)
    {P : γ → Prop} (hstopping : ∀ g, P g → P (v.stopping g))
    (hclosed : ∀ g x, P g → P (v.closed x g)) (houtside : ∀ g e, P g → P (v.outside e g))
    (hP : P s.shared) :
    (Foundations.run (Supervision.step v) s moves).Quiet ∧
      P (Foundations.run (Supervision.step v) s moves).shared := by
  induction moves generalizing s with
  | nil => exact ⟨hs, hP⟩
  | cons m moves ih =>
    obtain ⟨hquiet, hP'⟩ := hs.step (hm m List.mem_cons_self) hstopping hclosed houtside hP
    exact ih hquiet (fun m' hm' => hm m' (List.mem_cons_of_mem _ hm')) hP'

/-! ## What the object and its task keep -/

/-- What is kept between the object and its task: `J` relates the object's state to what the task
will do next, if anything is going on; a release under way holds a resource that is related to the
state by `R`; and a task is created in states that meet `K`. -/
structure Invariant (v : Supervisor γ β χ ε ω) (K : γ → Prop) (J : γ → Option β → Prop)
    (R : χ → γ → Prop) : Prop where
  begin : ∀ g, v.mayStart g = true → K g → J g none → J (v.begin g).1 (some (v.begin g).2)
  stopping : ∀ g b, J g b → J (v.stopping g) none
  close : ∀ g, R (v.close g) g
  closed : ∀ g x, J g none → R x g → J (v.closed x g) none
  resume : ∀ g b e, J g (some b) → J (v.resume b e g).1 (v.resume b e g).2
  outside : ∀ g b e, J g b → J (v.outside e g) b
  related_stopping : ∀ g x, R x g → R x (v.stopping g)
  related_closed : ∀ g x y, R x g → R y g → R y (v.closed x g)
  related_outside : ∀ g x e, R x g → R x (v.outside e g)

/-- The condition on a start: no stop is under way, and the state meets `K`. -/
def StartsIn (v : Supervisor γ β χ ε ω) (K : γ → Prop) (s : Supervision γ β χ)
    (m : SupervisorMove ε ω) : Prop :=
  m = .start → s.isRunning = false → v.mayStart s.shared = true → s.stops = [] ∧ K s.shared

instance decidableStartsIn [DecidableEq χ] [DecidableEq ε] [DecidableEq ω] (K : γ → Prop)
    [DecidablePred K] (s : Supervision γ β χ) (m : SupervisorMove ε ω) :
    Decidable (StartsIn v K s m) := by
  unfold StartsIn; infer_instance

/-- All that is kept. -/
structure Kept (J : γ → Option β → Prop) (R : χ → γ → Prop) (s : Supervision γ β χ) : Prop where
  single : s.Single
  active : J s.shared s.active
  closing : ∀ x, StopCall.closing x ∈ s.stops → R x s.shared

variable {K : γ → Prop} {J : γ → Option β → Prop} {R : χ → γ → Prop}

theorem StartsIn.alone {m : SupervisorMove ε ω} (h : s.StartsIn v K m) : s.StartsAlone v m :=
  fun hm hrun hmay => (h hm hrun hmay).1

theorem Kept.start (hv : Invariant v K J R) (hs : s.Kept J R) (h : s.StartsIn v K .start) :
    (s.start v).Kept J R := by
  have hsingle := hs.single.start h.alone
  rcases s.start_cases (v := v) with heq | ⟨hrun, hmay, heq⟩
  · rwa [heq]
  · obtain ⟨hnone, hK⟩ := h rfl hrun hmay
    have hJ := hs.active
    rw [active_eq_none_of_not_running hrun] at hJ
    rw [heq] at hsingle ⊢
    refine ⟨hsingle, ?_, fun x hx => ?_⟩
    · have hactive : ({ s with
          shared := (v.begin s.shared).1
          tasks := s.tasks ++ [{ body := some (v.begin s.shared).2 }]
          current := some s.tasks.length } : Supervision γ β χ).active =
            some (v.begin s.shared).2 := active_eq_some.2 ⟨_, rfl, by simp⟩
      rw [hactive]
      exact hv.begin _ hmay hK hJ
    · rw [hnone] at hx
      cases hx

theorem Kept.stop (hv : Invariant v K J R) (hs : s.Kept J R) : (s.stop v).Kept J R := by
  have hsingle := hs.single.stop (v := v)
  have hJ := hv.stopping _ _ hs.active
  have hnone : (s.stop v).active = none := by
    refine hsingle.active_of_stops ?_
    rcases s.stop_cases (v := v) with ⟨i, -, -, heq⟩ | ⟨-, heq⟩ <;> simp [heq]
  have hshared : (s.stop v).shared = v.stopping s.shared := by
    rcases s.stop_cases (v := v) with ⟨i, -, -, heq⟩ | ⟨-, heq⟩ <;> rw [heq]
  refine ⟨hsingle, by rwa [hnone, hshared], fun x hx => ?_⟩
  rw [hshared]
  rcases s.stop_cases (v := v) with ⟨i, -, -, heq⟩ | ⟨-, heq⟩
  · rw [heq] at hx
    exact hv.related_stopping _ x (hs.closing x (by simpa using hx))
  · rw [heq] at hx
    rcases List.mem_append.1 hx with hx | hx
    · exact hv.related_stopping _ x (hs.closing x hx)
    · obtain rfl : x = v.close (v.stopping s.shared) := by simpa using hx
      exact hv.close _

theorem Kept.stopResumes (hv : Invariant v K J R) (hs : s.Kept J R) (place : ℕ) :
    (s.stopResumes v place).Kept J R := by
  have hsingle := hs.single.stopResumes (v := v) place
  rcases s.stopResumes_cases (v := v) place with heq | ⟨i, hi, hr, heq⟩ | ⟨x, hx, heq⟩
  · rwa [heq]
  · have hJ := hs.active
    rw [hs.single.active_of_stops (List.ne_nil_of_mem hi)] at hJ
    rw [heq] at hsingle ⊢
    refine ⟨hsingle, hJ, fun x hx => ?_⟩
    rcases List.mem_or_eq_of_mem_set hx with hx | hx
    · exact hs.closing x hx
    · obtain rfl : x = v.close s.shared := by simpa using hx
      exact hv.close _
  · have hnone := hs.single.active_of_stops (List.ne_nil_of_mem hx)
    have hJ := hs.active
    rw [hnone] at hJ
    rw [heq] at hsingle ⊢
    refine ⟨hsingle, ?_, fun y hy => ?_⟩
    · change J _ s.active
      rw [hnone]
      exact hv.closed _ x hJ (hs.closing x hx)
    · exact hv.related_closed _ x y (hs.closing x hx)
        (hs.closing y (List.mem_of_mem_eraseIdx hy))

theorem Kept.resume (hv : Invariant v K J R) (hs : s.Kept J R) (i : ℕ) (e : ε) :
    (s.resume v i e).Kept J R := by
  have hsingle := hs.single.resume (v := v) i e
  rcases s.resume_cases (v := v) i e with heq | ⟨b, ht, heq⟩ | ⟨b, ht, heq⟩
  · rwa [heq]
  · have hi := hs.single.current i b false ht
    have hlt : i < s.tasks.length := (List.getElem?_eq_some_iff.1 ht).1
    have hnil : s.stops = [] := by
      by_contra hne
      exact absurd (hs.single.cancelled hne i b false ht) (by simp)
    have hJ := hs.active
    rw [active_eq_some.2 ⟨i, hi, ht⟩] at hJ
    rw [heq] at hsingle ⊢
    refine ⟨hsingle, ?_, fun x hx => ?_⟩
    · have hactive : ({ s with
          shared := (v.resume b e s.shared).1
          tasks := s.tasks.set i ⟨(v.resume b e s.shared).2, false⟩ } :
            Supervision γ β χ).active = (v.resume b e s.shared).2 := by
        simp [Supervision.active, hi, hlt]
      rw [hactive]
      exact hv.resume _ b e hJ
    · rw [hnil] at hx
      cases hx
  · have hi := hs.single.current i b true ht
    have hlt : i < s.tasks.length := (List.getElem?_eq_some_iff.1 ht).1
    have hbefore : s.active = none := by simp [Supervision.active, hi, ht]
    have hafter : ({ s with tasks := s.tasks.set i ⟨none, true⟩ } :
        Supervision γ β χ).active = none := by simp [Supervision.active, hi, hlt]
    have hJ := hs.active
    rw [hbefore] at hJ
    rw [heq] at hsingle ⊢
    exact ⟨hsingle, by rwa [hafter], hs.closing⟩

theorem Kept.step (hv : Invariant v K J R) (hs : s.Kept J R) {m : SupervisorMove ε ω}
    (hm : s.StartsIn v K m) : (s.step v m).Kept J R := by
  cases m with
  | start => exact hs.start hv hm
  | stop => exact hs.stop hv
  | stopResumes place => exact hs.stopResumes hv place
  | resume i e => exact hs.resume hv i e
  | outside e =>
    exact ⟨hs.single.step (v := v) (m := .outside e) (by simp [StartsAlone]),
      hv.outside _ _ e hs.active, fun x hx => hv.related_outside _ x e (hs.closing x hx)⟩

/-- **What the object and its task keep between them holds along every run** whose starts meet the
condition. -/
theorem Invariant.always (hv : Invariant v K J R) {g : γ} (hg : J g none)
    {moves : List (SupervisorMove ε ω)}
    (h : Guarded (Supervision.step v) (StartsIn v K) { shared := g } moves) :
    Always (Supervision.step v) (Kept J R) { shared := g } moves :=
  Always.of_guarded (fun _ _ hs hm => hs.step hv hm) ⟨Single.init g, hg, by simp⟩ h

end Supervision

end AlphaOne.Foundations
