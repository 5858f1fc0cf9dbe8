import AlphaOne.Foundations.Run
import Mathlib.Logic.Function.Basic
import Mathlib.Order.Basic

/-!
# Caches whose values expire

A cache in front of a slow source, shared by callers that do not wait for each other. A caller looks
into the slot of its key: a fresh value is its answer; else it sends a request, and what it makes of
the response, when that comes, is its answer and the new value of the slot. Between the two any
other caller may ask, be answered or fail, and a response that is late overwrites an early one.

* `CachePolicy`: when a value is fresh, and what is made of a response.
* `CacheSystem.step`: one move of a caller. Time is what the callers read off their clocks, and
  `InTime` says that it does not run backwards. `run_get`: a caller that nobody interrupts.
* `CacheSystem.Sound`, with `Sound.always`: all values, in the slots and handed out, are those of
  responses to requests for the slot.
* `CachePolicy.Stamped`: a value carries the time of its response. Then no slot falls back behind a
  response it has stored, and a value that is still fresh is not asked for again
  (`spares_of_stamped`).
-/

namespace AlphaOne.Foundations

/-- The keys of a cache by their slots, which of its values are fresh at a time, and what a caller
makes of a response: nothing, when the request has failed. -/
structure CachePolicy (κ σ ρ ν τ : Type*) where
  slot : κ → σ
  fresh : τ → ν → Bool
  accept : κ → τ → τ → ρ → Option ν

/-- A request for a key, sent at a time. -/
structure CacheRequest (κ τ : Type*) where
  key : κ
  askedAt : τ
  deriving DecidableEq, Repr

/-- A response, and the request it answers. -/
structure CacheResponse (κ ρ τ : Type*) where
  request : CacheRequest κ τ
  answeredAt : τ
  response : ρ
  deriving DecidableEq, Repr

/-- What a caller was given, at which time, and whether the cache had it. -/
structure CacheAnswer (κ ν τ : Type*) where
  request : CacheRequest κ τ
  servedAt : τ
  cached : Bool
  value : Option ν
  deriving DecidableEq, Repr

/-- A move of a caller: it asks, and it may insist on a new response; or the response to the pending
request at a place arrives. -/
inductive CacheMove (κ ρ τ : Type*)
  | ask (key : κ) (force : Bool) (now : τ)
  | respond (place : ℕ) (now : τ) (response : ρ)
  deriving DecidableEq, Repr

/-- The slots and the pending requests, with the record of the responses and of the answers. -/
structure CacheSystem (κ σ ρ ν τ : Type*) where
  slots : σ → Option ν
  pending : List (CacheRequest κ τ)
  responses : List (CacheResponse κ ρ τ)
  answers : List (CacheAnswer κ ν τ)

variable {κ σ ρ ν τ : Type*}

/-- The time of a move. -/
def CacheMove.time : CacheMove κ ρ τ → τ
  | .ask _ _ now => now
  | .respond _ now _ => now

namespace CachePolicy

variable (p : CachePolicy κ σ ρ ν τ)

/-- What is made of a response. -/
def acceptResponse (r : CacheResponse κ ρ τ) : Option ν :=
  p.accept r.request.key r.request.askedAt r.answeredAt r.response

/-- The value of a slot, if it is fresh and the caller does not insist on a new one. -/
def lookup (slots : σ → Option ν) (key : κ) (force : Bool) (now : τ) : Option ν :=
  if force then none else (slots (p.slot key)).filter (p.fresh now)

/-- The slots after a response. -/
def store [DecidableEq σ] (slots : σ → Option ν) (r : CacheResponse κ ρ τ) : σ → Option ν :=
  match p.acceptResponse r with
  | none => slots
  | some v => Function.update slots (p.slot r.request.key) (some v)

/-- The call of a caller that nobody interrupts: what it is given, and the slots after it. The
response is read only if a request is sent. -/
def get [DecidableEq σ] (slots : σ → Option ν) (key : κ) (force : Bool) (askedAt answeredAt : τ)
    (response : ρ) : Option ν × (σ → Option ν) :=
  match p.lookup slots key force askedAt with
  | some v => (some v, slots)
  | none =>
    let r : CacheResponse κ ρ τ := ⟨⟨key, askedAt⟩, answeredAt, response⟩
    (p.acceptResponse r, p.store slots r)

variable {p} {slots : σ → Option ν}

theorem lookup_eq_some {key : κ} {force : Bool} {now : τ} {v : ν} :
    p.lookup slots key force now = some v ↔
      force = false ∧ slots (p.slot key) = some v ∧ p.fresh now v = true := by
  cases force <;> simp [lookup, Option.filter_eq_some_iff]

/-- A slot after a response holds what was made of it, if it is that of the request, or else what it
has held. -/
theorem store_eq_some [DecidableEq σ] {r : CacheResponse κ ρ τ} {k : σ} {v : ν}
    (h : p.store slots r k = some v) :
    slots k = some v ∨ (p.slot r.request.key = k ∧ p.acceptResponse r = some v) := by
  unfold store at h
  cases haccept : p.acceptResponse r with
  | none => exact Or.inl (by simpa only [haccept] using h)
  | some w =>
    simp only [haccept] at h
    by_cases hk : k = p.slot r.request.key
    · subst hk
      rw [Function.update_self] at h
      exact Or.inr ⟨rfl, h⟩
    · rw [Function.update_of_ne hk] at h
      exact Or.inl h

end CachePolicy

namespace CacheSystem

/-- A cache before its first use. -/
def empty : CacheSystem κ σ ρ ν τ := ⟨fun _ => none, [], [], []⟩

section Step

variable [DecidableEq σ] (p : CachePolicy κ σ ρ ν τ)

def step (s : CacheSystem κ σ ρ ν τ) : CacheMove κ ρ τ → CacheSystem κ σ ρ ν τ
  | .ask key force now =>
    match p.lookup s.slots key force now with
    | some v => { s with answers := s.answers ++ [⟨⟨key, now⟩, now, true, some v⟩] }
    | none => { s with pending := s.pending ++ [⟨key, now⟩] }
  | .respond place now response =>
    match s.pending[place]? with
    | none => s
    | some request =>
      let r : CacheResponse κ ρ τ := ⟨request, now, response⟩
      { slots := p.store s.slots r
        pending := s.pending.eraseIdx place
        responses := s.responses ++ [r]
        answers := s.answers ++ [⟨request, now, false, p.acceptResponse r⟩] }

/-- **What a move does**: an answer from the cache, a new request, nothing at all, or the answer to
a pending request. -/
theorem step_cases (s : CacheSystem κ σ ρ ν τ) (m : CacheMove κ ρ τ) :
    (∃ key force v, m = .ask key force m.time ∧ p.lookup s.slots key force m.time = some v ∧
      s.step p m =
        { s with answers := s.answers ++ [⟨⟨key, m.time⟩, m.time, true, some v⟩] }) ∨
    (∃ key force, m = .ask key force m.time ∧ p.lookup s.slots key force m.time = none ∧
      s.step p m = { s with pending := s.pending ++ [⟨key, m.time⟩] }) ∨
    s.step p m = s ∨
    ∃ place, ∃ r : CacheResponse κ ρ τ, r.answeredAt = m.time ∧ r.request ∈ s.pending ∧
      s.step p m =
        { slots := p.store s.slots r
          pending := s.pending.eraseIdx place
          responses := s.responses ++ [r]
          answers := s.answers ++ [⟨r.request, r.answeredAt, false, p.acceptResponse r⟩] } := by
  cases m with
  | ask key force now =>
    cases h : p.lookup s.slots key force now with
    | some v => exact Or.inl ⟨key, force, v, rfl, h, by simp only [step, h, CacheMove.time]⟩
    | none => exact Or.inr (Or.inl ⟨key, force, rfl, h, by simp only [step, h, CacheMove.time]⟩)
  | respond place now response =>
    cases h : s.pending[place]? with
    | none => exact Or.inr (Or.inr (Or.inl (by simp only [step, h])))
    | some request =>
      exact Or.inr (Or.inr (Or.inr
        ⟨place, ⟨request, now, response⟩, rfl, List.mem_of_getElem? h, by simp only [step, h]⟩))

/-- A caller that nobody interrupts asks and, if it has to, is answered. -/
theorem run_get {s : CacheSystem κ σ ρ ν τ} (h : s.pending = []) (key : κ) (force : Bool)
    (askedAt answeredAt : τ) (response : ρ) :
    let after := run (step p) s [.ask key force askedAt, .respond 0 answeredAt response]
    let call := p.get s.slots key force askedAt answeredAt response
    after.slots = call.2 ∧ after.pending = [] ∧
      after.answers.map CacheAnswer.value = s.answers.map CacheAnswer.value ++ [call.1] := by
  cases hlook : p.lookup s.slots key force askedAt with
  | some v => simp [step, CachePolicy.get, hlook, h]
  | none => simp [step, CachePolicy.get, hlook, h]

end Step

/-! ## The keys in use -/

/-- The keys of all requests and answers have the property `P`. -/
structure Keyed (P : κ → Prop) (s : CacheSystem κ σ ρ ν τ) : Prop where
  pending : ∀ q ∈ s.pending, P q.key
  responses : ∀ r ∈ s.responses, P r.request.key
  answers : ∀ a ∈ s.answers, P a.request.key

/-- The key of a move that asks has the property `P`. -/
def AsksIn (P : κ → Prop) (m : CacheMove κ ρ τ) : Prop :=
  ∀ key force now, m = .ask key force now → P key

theorem Keyed.step [DecidableEq σ] {p : CachePolicy κ σ ρ ν τ} {P : κ → Prop}
    {s : CacheSystem κ σ ρ ν τ} {m : CacheMove κ ρ τ} (hs : s.Keyed P) (hm : AsksIn P m) :
    (s.step p m).Keyed P := by
  rcases s.step_cases p m with ⟨key, force, v, hask, -, heq⟩ | ⟨key, force, hask, -, heq⟩ | heq |
    ⟨place, r, -, hr, heq⟩
  · rw [heq]
    refine ⟨hs.pending, hs.responses, fun a ha => ?_⟩
    rcases List.mem_append.1 ha with ha | ha
    · exact hs.answers a ha
    · rw [List.mem_singleton.1 ha]
      exact hm key force _ hask
  · rw [heq]
    refine ⟨fun q hq => ?_, hs.responses, hs.answers⟩
    rcases List.mem_append.1 hq with hq | hq
    · exact hs.pending q hq
    · rw [List.mem_singleton.1 hq]
      exact hm key force _ hask
  · rwa [heq]
  · rw [heq]
    refine ⟨fun q hq => hs.pending q (List.mem_of_mem_eraseIdx hq), fun r' hr' => ?_,
      fun a ha => ?_⟩
    · rcases List.mem_append.1 hr' with hr' | hr'
      · exact hs.responses r' hr'
      · rw [List.mem_singleton.1 hr']
        exact hs.pending _ hr
    · rcases List.mem_append.1 ha with ha | ha
      · exact hs.answers a ha
      · rw [List.mem_singleton.1 ha]
        exact hs.pending _ hr

/-! ## Time -/

variable [Preorder τ]

/-- No time that is on record is later than `t`. -/
structure Until (s : CacheSystem κ σ ρ ν τ) (t : τ) : Prop where
  pending : ∀ q ∈ s.pending, q.askedAt ≤ t
  responses : ∀ r ∈ s.responses, r.answeredAt ≤ t

/-- The clock of a move shows no earlier time than those on record. -/
def InTime (s : CacheSystem κ σ ρ ν τ) (m : CacheMove κ ρ τ) : Prop := s.Until m.time

theorem Until.mono {s : CacheSystem κ σ ρ ν τ} {t u : τ} (h : s.Until t) (htu : t ≤ u) :
    s.Until u :=
  ⟨fun q hq => (h.pending q hq).trans htu, fun r hr => (h.responses r hr).trans htu⟩

variable [DecidableEq σ] {p : CachePolicy κ σ ρ ν τ} {s : CacheSystem κ σ ρ ν τ}
  {m : CacheMove κ ρ τ}

theorem Until.step (h : s.Until m.time) : (s.step p m).Until m.time := by
  rcases s.step_cases p m with ⟨key, force, v, -, -, heq⟩ | ⟨key, force, -, -, heq⟩ | heq |
    ⟨place, r, hat, -, heq⟩
  · rw [heq]
    exact ⟨h.pending, h.responses⟩
  · rw [heq]
    refine ⟨fun q hq => ?_, h.responses⟩
    rcases List.mem_append.1 hq with hq | hq
    · exact h.pending q hq
    · rw [List.mem_singleton.1 hq]
  · rwa [heq]
  · rw [heq]
    refine ⟨fun q hq => h.pending q (List.mem_of_mem_eraseIdx hq), fun r' hr' => ?_⟩
    rcases List.mem_append.1 hr' with hr' | hr'
    · exact h.responses r' hr'
    · rw [List.mem_singleton.1 hr', hat]

/-- Moves in the order of their times are in time. -/
theorem inTime_of_sorted {moves : List (CacheMove κ ρ τ)}
    (hsorted : (moves.map CacheMove.time).Pairwise (· ≤ ·)) (h : ∀ m ∈ moves, s.Until m.time) :
    Guarded (CacheSystem.step p) InTime s moves := by
  induction moves generalizing s with
  | nil => trivial
  | cons m moves ih =>
    obtain ⟨hle, hsorted⟩ := List.pairwise_cons.1 hsorted
    have hm : s.Until m.time := h m List.mem_cons_self
    exact ⟨hm, ih hsorted fun m' hm' => hm.step.mono (hle _ (List.mem_map_of_mem hm'))⟩

theorem inTime_of_empty {moves : List (CacheMove κ ρ τ)}
    (hsorted : (moves.map CacheMove.time).Pairwise (· ≤ ·)) :
    Guarded (CacheSystem.step p) InTime (empty : CacheSystem κ σ ρ ν τ) moves :=
  inTime_of_sorted hsorted fun _ _ => ⟨by simp [empty], by simp [empty]⟩

/-! ## Where the values come from -/

/-- The value was made of a response to a request for the slot, which came by the time `t`. -/
def FetchedBy (p : CachePolicy κ σ ρ ν τ) (s : CacheSystem κ σ ρ ν τ) (k : σ) (v : ν) (t : τ) :
    Prop :=
  ∃ r ∈ s.responses, p.slot r.request.key = k ∧ p.acceptResponse r = some v ∧ r.answeredAt ≤ t

/-- An answer is a fresh value of an earlier response, or what was made of the response to the
caller's own request. -/
def AnswerSound (p : CachePolicy κ σ ρ ν τ) (s : CacheSystem κ σ ρ ν τ) (a : CacheAnswer κ ν τ) :
    Prop :=
  (a.cached = true ∧ a.servedAt = a.request.askedAt ∧ ∃ v, a.value = some v ∧
      p.fresh a.servedAt v = true ∧ FetchedBy p s (p.slot a.request.key) v a.servedAt) ∨
    (a.cached = false ∧ ∃ r ∈ s.responses, r.request = a.request ∧ r.answeredAt = a.servedAt ∧
      p.acceptResponse r = a.value)

structure Sound (p : CachePolicy κ σ ρ ν τ) (s : CacheSystem κ σ ρ ν τ) : Prop where
  responses : ∀ r ∈ s.responses, r.request.askedAt ≤ r.answeredAt
  slots : ∀ k v, s.slots k = some v →
    ∃ r ∈ s.responses, p.slot r.request.key = k ∧ p.acceptResponse r = some v
  answers : ∀ a ∈ s.answers, AnswerSound p s a

omit [DecidableEq σ] in
theorem AnswerSound.mono {t : CacheSystem κ σ ρ ν τ} {a : CacheAnswer κ ν τ}
    (h : AnswerSound p s a) (hsub : ∀ r ∈ s.responses, r ∈ t.responses) : AnswerSound p t a := by
  rcases h with ⟨hcached, hat, v, hv, hfresh, r, hr, hfetched⟩ | ⟨hcached, r, hr, hrest⟩
  · exact Or.inl ⟨hcached, hat, v, hv, hfresh, r, hsub r hr, hfetched⟩
  · exact Or.inr ⟨hcached, r, hsub r hr, hrest⟩

omit [DecidableEq σ] in
theorem Sound.empty : Sound p (empty : CacheSystem κ σ ρ ν τ) :=
  ⟨by simp [CacheSystem.empty], by simp [CacheSystem.empty], by simp [CacheSystem.empty]⟩

/-- **Every move in time keeps the values genuine.** -/
theorem Sound.step (hs : Sound p s) (hm : s.InTime m) : Sound p (s.step p m) := by
  rcases s.step_cases p m with ⟨key, force, v, -, hlook, heq⟩ | ⟨key, force, -, -, heq⟩ | heq |
    ⟨place, r, hat, hr, heq⟩
  · rw [heq]
    obtain ⟨-, hslot, hfresh⟩ := CachePolicy.lookup_eq_some.1 hlook
    refine ⟨hs.responses, hs.slots, fun a ha => ?_⟩
    rcases List.mem_append.1 ha with ha | ha
    · exact hs.answers a ha
    · obtain ⟨r, hr, hkey, haccept⟩ := hs.slots _ v hslot
      rw [List.mem_singleton.1 ha]
      exact Or.inl ⟨rfl, rfl, v, rfl, hfresh, r, hr, hkey, haccept, hm.responses r hr⟩
  · rw [heq]
    exact ⟨hs.responses, hs.slots, hs.answers⟩
  · rwa [heq]
  · rw [heq]
    have hsub : ∀ r' ∈ s.responses, r' ∈ s.responses ++ [r] :=
      fun r' hr' => List.mem_append_left _ hr'
    have hlast : r ∈ s.responses ++ [r] := by simp
    refine ⟨fun r' hr' => ?_, fun k v hv => ?_, fun a ha => ?_⟩
    · rcases List.mem_append.1 hr' with hr' | hr'
      · exact hs.responses r' hr'
      · rw [List.mem_singleton.1 hr', hat]
        exact hm.pending _ hr
    · rcases CachePolicy.store_eq_some hv with hold | ⟨hkey, haccept⟩
      · obtain ⟨r', hr', hrest⟩ := hs.slots k v hold
        exact ⟨r', hsub r' hr', hrest⟩
      · exact ⟨r, hlast, hkey, haccept⟩
    · rcases List.mem_append.1 ha with ha | ha
      · exact (hs.answers a ha).mono hsub
      · rw [List.mem_singleton.1 ha]
        exact Or.inr ⟨rfl, r, hlast, rfl, rfl, rfl⟩

theorem Sound.always {moves : List (CacheMove κ ρ τ)}
    (hsorted : (moves.map CacheMove.time).Pairwise (· ≤ ·)) :
    Always (CacheSystem.step p) (Sound p) (CacheSystem.empty : CacheSystem κ σ ρ ν τ) moves :=
  Always.of_guarded (fun _ _ hs hm => hs.step hm) Sound.empty (inTime_of_empty hsorted)

/-- The same, when all callers ask for keys with the property `P`. -/
theorem Sound.always_keyed {P : κ → Prop} {moves : List (CacheMove κ ρ τ)}
    (hsorted : (moves.map CacheMove.time).Pairwise (· ≤ ·)) (hmoves : ∀ m ∈ moves, AsksIn P m) :
    Always (CacheSystem.step p) (fun s => Sound p s ∧ s.Keyed P)
      (CacheSystem.empty : CacheSystem κ σ ρ ν τ) moves :=
  Always.of_guarded (fun _ _ hs hm => ⟨hs.1.step hm.1, hs.2.step hm.2⟩)
    ⟨Sound.empty, by simp [CacheSystem.empty], by simp [CacheSystem.empty],
      by simp [CacheSystem.empty]⟩ ((inTime_of_empty hsorted).and_forall hmoves)

end CacheSystem

/-! ## Values that carry the time of their response -/

/-- A value carries the time of its response, and is fresh as long as any older one. -/
structure CachePolicy.Stamped [Preorder τ] (p : CachePolicy κ σ ρ ν τ) (stamp : ν → τ) : Prop where
  stamp_accept : ∀ r v, p.acceptResponse r = some v → stamp v = r.answeredAt
  fresh_of_le : ∀ now v w, stamp v ≤ stamp w → p.fresh now v = true → p.fresh now w = true

namespace CacheSystem

variable [Preorder τ] [DecidableEq σ] {p : CachePolicy κ σ ρ ν τ} {stamp : ν → τ}
  {s : CacheSystem κ σ ρ ν τ} {m : CacheMove κ ρ τ}

/-- No slot holds an older value than one of its responses. -/
def Latest (p : CachePolicy κ σ ρ ν τ) (stamp : ν → τ) (s : CacheSystem κ σ ρ ν τ) : Prop :=
  ∀ r ∈ s.responses, ∀ v, p.acceptResponse r = some v →
    ∃ w, s.slots (p.slot r.request.key) = some w ∧ stamp v ≤ stamp w

theorem Latest.step (hp : p.Stamped stamp) (hs : Latest p stamp s) (hm : s.InTime m) :
    Latest p stamp (s.step p m) := by
  rcases s.step_cases p m with ⟨key, force, v, -, -, heq⟩ | ⟨key, force, -, -, heq⟩ | heq |
    ⟨place, r, hat, -, heq⟩
  · rw [heq]
    exact hs
  · rw [heq]
    exact hs
  · rwa [heq]
  · rw [heq]
    intro r' hr' v hv
    have hle : r'.answeredAt ≤ r.answeredAt := by
      rcases List.mem_append.1 hr' with hr' | hr'
      · rw [hat]
        exact hm.responses r' hr'
      · rw [List.mem_singleton.1 hr']
    change ∃ w, p.store s.slots r (p.slot r'.request.key) = some w ∧ stamp v ≤ stamp w
    cases haccept : p.acceptResponse r with
    | none =>
      -- a request that has failed leaves the slots, and adds no value to be kept up with
      simp only [CachePolicy.store, haccept]
      rcases List.mem_append.1 hr' with hr' | hr'
      · exact hs r' hr' v hv
      · rw [List.mem_singleton.1 hr', haccept] at hv
        cases hv
    | some w =>
      simp only [CachePolicy.store, haccept]
      by_cases hk : p.slot r'.request.key = p.slot r.request.key
      · rw [hk, Function.update_self]
        exact ⟨w, rfl, by rwa [hp.stamp_accept r' v hv, hp.stamp_accept r w haccept]⟩
      · rw [Function.update_of_ne hk]
        rcases List.mem_append.1 hr' with hr' | hr'
        · exact hs r' hr' v hv
        · rw [List.mem_singleton.1 hr'] at hk
          exact absurd rfl hk

/-- A caller that does not insist sends no request while a value of an earlier response is fresh. -/
def Spares (p : CachePolicy κ σ ρ ν τ) (s : CacheSystem κ σ ρ ν τ) (m : CacheMove κ ρ τ) : Prop :=
  ∀ key now, m = .ask key false now →
    ∀ r ∈ s.responses, p.slot r.request.key = p.slot key → ∀ v, p.acceptResponse r = some v →
      p.fresh now v = true → (s.step p m).pending = s.pending

/-- **A value that is fresh is not asked for again**, however the callers interleave. -/
theorem spares_of_stamped (hp : p.Stamped stamp) {moves : List (CacheMove κ ρ τ)}
    (hsorted : (moves.map CacheMove.time).Pairwise (· ≤ ·)) :
    Guarded (CacheSystem.step p) (Spares p) (empty : CacheSystem κ σ ρ ν τ) moves := by
  refine Guarded.of_invariant (I := Latest p stamp) (fun _ _ hs hm => hs.step hp hm) ?_
    (by simp [Latest, empty]) (inTime_of_empty hsorted)
  rintro s m hs - key now rfl r hr hkey v hv hfresh
  obtain ⟨w, hslot, hle⟩ := hs r hr v hv
  rw [hkey] at hslot
  have hlook : p.lookup s.slots key false now = some w :=
    CachePolicy.lookup_eq_some.2 ⟨rfl, hslot, hp.fresh_of_le now v w hle hfresh⟩
  simp only [step, hlook]

end CacheSystem

end AlphaOne.Foundations
