import AlphaOne.Foundations.Run
import Mathlib.Algebra.BigOperators.Group.List.Basic
import Mathlib.Data.List.Perm.Basic
import Mathlib.Tactic.Abel

/-!
# Interleaved processes on one store

Processes share a store that each of them reads and writes in atomic moves: a query, or the commit
of a transaction. Between the moves of one process any other may move, so that a process is its
program counter and the local variables it has filled so far, and `move p s` is what its next
move makes of it and of the store. A run of the pool takes the place of the process that moves
next, in any order.

* `Stable` collects what one move has to keep: an invariant of the store, a local invariant of the
  process that moves, and the local invariants of the others, whose store changes under them.
  `Stable.always` is the invariant rule for runs, and `Stable.always_iff` its exact form.
* `Stable.serialises`: when a process that commits applies, to the store it finds, the whole
  effect of its request, every store a run reaches is that of the committed requests applied one
  after another, in the order of their commits.
* `Pool.balance`: what the store has gained in a run is what the processes have put into it.
* `run_alone`: a process that nobody interrupts.
-/

namespace AlphaOne.Foundations

/-- A store and the processes that work on it. -/
structure Pool (σ π : Type*) where
  store : σ
  procs : List π
  deriving DecidableEq, Repr

variable {σ π : Type*} (move : π → σ → σ × π)

/-- The process at the place `i` moves. -/
def Pool.step (c : Pool σ π) (i : ℕ) : Pool σ π :=
  match c.procs[i]? with
  | none => c
  | some p => ⟨(move p c.store).1, c.procs.set i (move p c.store).2⟩

/-- The process that moves meets the condition `G` on the store it finds. -/
def Pool.Meets (G : σ → π → Prop) (c : Pool σ π) (i : ℕ) : Prop :=
  ∀ p, c.procs[i]? = some p → G c.store p

instance Pool.decidableMeets (G : σ → π → Prop) [∀ s p, Decidable (G s p)] (c : Pool σ π) (i : ℕ) :
    Decidable (c.Meets G i) :=
  match h : c.procs[i]? with
  | none => isTrue fun p hp => by rw [h] at hp; cases hp
  | some p => decidable_of_iff (G c.store p)
      ⟨fun hG q hq => by rw [h] at hq; cases hq; exact hG, fun hG => hG p h⟩

/-- **One move**: nobody is at the place, or the process there is replaced by what its move makes of
it. -/
theorem Pool.step_cases (c : Pool σ π) (i : ℕ) :
    (c.procs[i]? = none ∧ c.step move i = c) ∨
      ∃ l₁ p l₂, c.procs[i]? = some p ∧ c.procs = l₁ ++ p :: l₂ ∧
        c.step move i = ⟨(move p c.store).1, l₁ ++ (move p c.store).2 :: l₂⟩ := by
  cases h : c.procs[i]? with
  | none => exact Or.inl ⟨rfl, by simp only [Pool.step, h]⟩
  | some p =>
    obtain ⟨hi, hp⟩ := List.getElem?_eq_some_iff.1 h
    refine Or.inr ⟨c.procs.take i, p, c.procs.drop (i + 1), rfl, ?_, ?_⟩
    · rw [← hp, List.getElem_cons_drop, List.take_append_drop]
    · simp only [Pool.step, h]
      rw [List.set_eq_take_append_cons_drop, if_pos hi]

/-! ## Invariants -/

/-- A store that satisfies `I`, processes that satisfy `L` over it, and any two of them `W`. -/
structure Pool.Invariant (I : σ → Prop) (L : σ → π → Prop) (W : π → π → Prop) (c : Pool σ π) :
    Prop where
  store : I c.store
  procs : ∀ p ∈ c.procs, L c.store p
  pairs : c.procs.Pairwise W

/-- What a move that meets `G` keeps: the invariant of the store, the local invariant of the process
that moves, and what the other processes rely on. -/
structure Stable (I : σ → Prop) (L : σ → π → Prop) (W : π → π → Prop) (G : σ → π → Prop) :
    Prop where
  symm : ∀ p q, W p q → W q p
  store : ∀ s p, I s → L s p → G s p → I (move p s).1
  own : ∀ s p, I s → L s p → G s p → L (move p s).1 (move p s).2
  others : ∀ s p q, I s → L s p → G s p → L s q → W p q →
    L (move p s).1 q ∧ W (move p s).2 q

namespace Stable

variable {move} {I : σ → Prop} {L : σ → π → Prop} {W : π → π → Prop} {G : σ → π → Prop}
  {c : Pool σ π}

theorem step (h : Stable move I L W G) (hc : c.Invariant I L W) {i : ℕ} (hg : c.Meets G i) :
    (c.step move i).Invariant I L W := by
  rcases c.step_cases move i with ⟨-, heq⟩ | ⟨l₁, p, l₂, hi, hprocs, heq⟩
  · rwa [heq]
  have hp : L c.store p := hc.procs p (by simp [hprocs])
  have hG : G c.store p := hg p hi
  have hmem : ∀ q ∈ l₁ ++ l₂, L c.store q := by
    intro q hq
    apply hc.procs q
    rw [hprocs]
    simp only [List.mem_append, List.mem_cons] at hq ⊢
    tauto
  obtain ⟨hl₁, hcons, hcross⟩ := List.pairwise_append.1 (hprocs ▸ hc.pairs)
  obtain ⟨hhead, hl₂⟩ := List.pairwise_cons.1 hcons
  have hW : ∀ q ∈ l₁ ++ l₂, W p q := by
    intro q hq
    rcases List.mem_append.1 hq with hq | hq
    · exact h.symm q p (hcross q hq p (by simp))
    · exact hhead q hq
  have hothers : ∀ q ∈ l₁ ++ l₂, L (move p c.store).1 q ∧ W (move p c.store).2 q := fun q hq =>
    h.others _ p q hc.store hp hG (hmem q hq) (hW q hq)
  rw [heq]
  refine ⟨h.store _ p hc.store hp hG, ?_, ?_⟩
  · intro q hq
    rcases List.mem_append.1 hq with hq | hq
    · exact (hothers q (List.mem_append_left _ hq)).1
    · rcases List.mem_cons.1 hq with rfl | hq
      · exact h.own _ p hc.store hp hG
      · exact (hothers q (List.mem_append_right _ hq)).1
  · refine List.pairwise_append.2 ⟨hl₁, List.pairwise_cons.2 ⟨?_, hl₂⟩, ?_⟩
    · exact fun q hq => (hothers q (List.mem_append_right _ hq)).2
    · intro q hq r hr
      rcases List.mem_cons.1 hr with rfl | hr
      · exact h.symm _ q (hothers q (List.mem_append_left _ hq)).2
      · exact hcross q hq r (by simp [hr])

/-- **The invariant rule**: the invariant holds along every run whose moves meet `G`. -/
theorem always (h : Stable move I L W G) (hc : c.Invariant I L W) {is : List ℕ}
    (hg : Guarded (Pool.step move) (Pool.Meets G) c is) :
    Always (Pool.step move) (Pool.Invariant I L W) c is :=
  Always.of_guarded (fun _ _ hs hC => h.step hs hC) hc hg

/-- The exact form: when a move that leads to `P` has met `G`, the runs that visit only states of
`P` are those whose moves meet `G`. -/
theorem always_iff (h : Stable move I L W G) {P : Pool σ π → Prop}
    (hprop : ∀ c, Pool.Invariant I L W c → P c)
    (hback : ∀ c : Pool σ π, ∀ l₁ p l₂, c.Invariant I L W → c.procs = l₁ ++ p :: l₂ →
      P ⟨(move p c.store).1, l₁ ++ (move p c.store).2 :: l₂⟩ → G c.store p)
    (hc : c.Invariant I L W) (is : List ℕ) :
    Always (Pool.step move) P c is ↔ Guarded (Pool.step move) (Pool.Meets G) c is := by
  refine always_iff_guarded_of_invariant (A := fun _ _ => True) hprop
    (fun _ _ hs _ hC => h.step hs hC) ?_ hc (Guarded.of_forall (by simp) c is)
  intro s i hs _ hP p hi
  rcases s.step_cases move i with ⟨hnone, -⟩ | ⟨l₁, q, l₂, hq, hprocs, heq⟩
  · rw [hi] at hnone
    cases hnone
  · rw [hi] at hq
    cases hq
    exact hback s l₁ p l₂ hs hprocs (heq ▸ hP)

/-! ## Serialisation -/

section Serialisation

variable {ρ : Type*} {request : π → ρ} {committed : π → Bool} {effect : σ → ρ → σ}

/-- The requests that have been committed. -/
def requests (request : π → ρ) (committed : π → Bool) (procs : List π) : List ρ :=
  (procs.filter committed).map request

/-- **Serialisation**: a process either leaves the store as it is, or commits, once, and then
applies the whole effect of its request to the store it finds. Then the store is at any time that of
the committed requests, applied one after another in some order. -/
theorem serialises (h : Stable move I L W G)
    (hrequest : ∀ s p, request (move p s).2 = request p)
    (hmove : ∀ s p, I s → L s p → G s p →
      ((move p s).1 = s ∧ committed (move p s).2 = committed p) ∨
        (committed p = false ∧ committed (move p s).2 = true ∧
          (move p s).1 = effect s (request p)))
    (hc : c.Invariant I L W) (hnone : ∀ p ∈ c.procs, committed p = false) {is : List ℕ}
    (hg : Guarded (Pool.step move) (Pool.Meets G) c is) :
    Always (Pool.step move)
      (fun d => ∃ order, order.Perm (requests request committed d.procs) ∧
        d.store = run effect c.store order) c is := by
  have hkeep : ∀ d : Pool σ π, ∀ i,
      (d.Invariant I L W ∧ ∃ order, order.Perm (requests request committed d.procs) ∧
        d.store = run effect c.store order) → d.Meets G i →
      ((d.step move i).Invariant I L W ∧
        ∃ order, order.Perm (requests request committed (d.step move i).procs) ∧
          (d.step move i).store = run effect c.store order) := by
    rintro d i ⟨hd, order, hperm, hstore⟩ hG
    refine ⟨h.step hd hG, ?_⟩
    rcases d.step_cases move i with ⟨-, heq⟩ | ⟨l₁, p, l₂, hi, hprocs, heq⟩
    · rw [heq]
      exact ⟨order, hperm, hstore⟩
    rw [heq]
    rw [hprocs] at hperm
    rcases hmove d.store p hd.store (hd.procs p (by simp [hprocs])) (hG p hi) with
      ⟨hs, hcommit⟩ | ⟨hbefore, hafter, hs⟩
    · refine ⟨order, ?_, by rw [hs, hstore]⟩
      cases hp : committed p <;>
        simpa [requests, List.filter_append, List.filter_cons, hcommit, hp, hrequest] using hperm
    · refine ⟨order ++ [request p], ?_, by rw [hs, hstore, run_append]; rfl⟩
      simp only [requests, List.filter_append, List.filter_cons, hbefore, hafter, if_true,
        Bool.false_eq_true, if_false, List.map_append, List.map_cons, hrequest] at hperm ⊢
      have hlast : (order ++ [request p]).Perm (request p :: order) :=
        List.perm_append_singleton _ _
      exact hlast.trans ((hperm.cons _).trans List.perm_middle.symm)
  have hstart : requests request committed c.procs = [] := by
    have hfilter : c.procs.filter committed = [] := List.filter_eq_nil_iff.2 (by simpa using hnone)
    rw [requests, hfilter, List.map_nil]
  have hall := Always.of_guarded hkeep ⟨hc, [], by rw [hstart], rfl⟩ hg
  exact hall.mono fun _ hd => hd.2

/-- When every process has committed, the committed requests are all requests. -/
theorem requests_of_all (hrequest : ∀ s p, request (move p s).2 = request p) {is : List ℕ}
    (hall : ∀ p ∈ (run (Pool.step move) c is).procs, committed p = true) :
    requests request committed (run (Pool.step move) c is).procs = c.procs.map request := by
  have hkept : ∀ d : Pool σ π, ∀ i, (d.step move i).procs.map request = d.procs.map request := by
    intro d i
    rcases d.step_cases move i with ⟨-, heq⟩ | ⟨l₁, p, l₂, -, hprocs, heq⟩
    · rw [heq]
    · simp [heq, hprocs, hrequest]
  rw [requests, List.filter_eq_self.2 hall]
  clear hall
  induction is generalizing c with
  | nil => rfl
  | cons i is ih => rw [run_cons, ih, hkept]

end Serialisation

end Stable

/-! ## Conservation -/

/-- **Conservation**: when a move changes the value of the store by what it changes of the share of
the process that moves, a run changes the value by what it changes of all shares. -/
theorem Pool.balance {M : Type*} [AddCancelCommMonoid M] {value : σ → M} {share : π → M}
    (hmove : ∀ s p, value (move p s).1 + share p = value s + share (move p s).2) (c : Pool σ π)
    (is : List ℕ) :
    value (run (Pool.step move) c is).store + (c.procs.map share).sum =
      value c.store + ((run (Pool.step move) c is).procs.map share).sum := by
  induction is generalizing c with
  | nil => rfl
  | cons i is ih =>
    have hstep : value (c.step move i).store + (c.procs.map share).sum =
        value c.store + ((c.step move i).procs.map share).sum := by
      rcases c.step_cases move i with ⟨-, heq⟩ | ⟨l₁, p, l₂, -, hprocs, heq⟩
      · rw [heq]
      · simp only [heq, hprocs, List.map_append, List.map_cons, List.sum_append, List.sum_cons]
        calc value (move p c.store).1 +
              ((l₁.map share).sum + (share p + (l₂.map share).sum))
            = value (move p c.store).1 + share p + ((l₁.map share).sum + (l₂.map share).sum) := by
              abel
          _ = value c.store + share (move p c.store).2 +
                ((l₁.map share).sum + (l₂.map share).sum) := by rw [hmove]
          _ = value c.store +
                ((l₁.map share).sum + (share (move p c.store).2 + (l₂.map share).sum)) := by abel
    have hrest := ih (c.step move i)
    rw [run_cons]
    -- add the two equations and cancel what they share
    refine add_right_cancel (b := value (c.step move i).store +
      ((c.step move i).procs.map share).sum) ?_
    calc _ = (value (run (Pool.step move) (c.step move i) is).store +
              ((c.step move i).procs.map share).sum) +
            (value (c.step move i).store + (c.procs.map share).sum) := by abel
      _ = (value (c.step move i).store +
              ((run (Pool.step move) (c.step move i) is).procs.map share).sum) +
            (value c.store + ((c.step move i).procs.map share).sum) := by rw [hrest, hstep]
      _ = _ := by abel

/-! ## Termination -/

theorem Pool.getElem?_step (c : Pool σ π) (i j : ℕ) : (c.step move j).procs[i]? =
    if j = i then c.procs[i]?.map fun p => (move p c.store).2 else c.procs[i]? := by
  unfold Pool.step
  cases h : c.procs[j]? with
  | none =>
    by_cases hij : j = i
    · subst hij
      simp [h]
    · simp [hij]
  | some p =>
    by_cases hij : j = i
    · subst hij
      have hj : j < c.procs.length := (List.getElem?_eq_some_iff.1 h).1
      rw [if_pos rfl, h, Option.map_some]
      exact List.getElem?_set_self hj
    · simp [List.getElem?_set_ne hij, hij]

/-- A process whose own moves bring it nearer to its end, whatever the others do, gets as near to it
as the schedule gives it moves. -/
theorem run_measure {μ : π → ℕ} (hμ : ∀ s p, μ (move p s).2 ≤ μ p - 1) {c : Pool σ π} {i : ℕ}
    {p : π} (hp : c.procs[i]? = some p) (is : List ℕ) :
    ∃ q, (run (Pool.step move) c is).procs[i]? = some q ∧ μ q ≤ μ p - is.count i := by
  induction is generalizing c p with
  | nil => exact ⟨p, hp, by simp⟩
  | cons j is ih =>
    have hstep := c.getElem?_step move i j
    rw [hp, Option.map_some] at hstep
    by_cases hij : j = i
    · rw [if_pos hij] at hstep
      obtain ⟨q, hq, hle⟩ := ih hstep
      have hmove := hμ c.store p
      refine ⟨q, hq, ?_⟩
      rw [hij, List.count_cons_self]
      omega
    · rw [if_neg hij] at hstep
      obtain ⟨q, hq, hle⟩ := ih hstep
      exact ⟨q, hq, by rwa [List.count_cons_of_ne hij]⟩

/-! ## A process alone -/

/-- The store and the process after `n` moves of a process that nobody interrupts. -/
def alone (p : π) (s : σ) : ℕ → σ × π
  | 0 => (s, p)
  | n + 1 => alone (move p s).2 (move p s).1 n

/-- Nobody interrupts a process whose place is the only one in the schedule. -/
theorem run_alone (l₁ l₂ : List π) (p : π) (s : σ) (n : ℕ) :
    run (Pool.step move) ⟨s, l₁ ++ p :: l₂⟩ (List.replicate n l₁.length) =
      ⟨(alone move p s n).1, l₁ ++ (alone move p s n).2 :: l₂⟩ := by
  induction n generalizing p s with
  | zero => rfl
  | succ n ih =>
    have hstep : Pool.step move ⟨s, l₁ ++ p :: l₂⟩ l₁.length =
        ⟨(move p s).1, l₁ ++ (move p s).2 :: l₂⟩ := by
      simp [Pool.step]
    rw [List.replicate_succ, run_cons, hstep, ih]
    rfl

/-- A process that nobody interrupts comes from `p` on the store `s` to `q` on the store `t`. -/
def Reaches (p : π) (s : σ) (q : π) (t : σ) : Prop := ∃ n, alone move p s n = (t, q)

variable {move} {p q r : π} {s t u : σ}

theorem Reaches.refl : Reaches move p s p s := ⟨0, rfl⟩

/-- One move, and then the rest. -/
theorem Reaches.head (h : move p s = (t, q)) (hr : Reaches move q t r u) :
    Reaches move p s r u := by
  obtain ⟨n, hn⟩ := hr
  exact ⟨n + 1, by rw [alone, h]; exact hn⟩

theorem Reaches.single (h : move p s = (t, q)) : Reaches move p s q t := .head h .refl

theorem Reaches.trans (h : Reaches move p s q t) (hr : Reaches move q t r u) :
    Reaches move p s r u := by
  obtain ⟨n, hn⟩ := h
  induction n generalizing p s with
  | zero =>
    obtain ⟨rfl, rfl⟩ := Prod.mk.inj hn
    exact hr
  | succ n ih => exact .head rfl (ih hn)

end AlphaOne.Foundations
