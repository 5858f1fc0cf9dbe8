import AlphaOne.Foundations.Regex

/-!
# What is tried first

A match that is found is the first of its place: every repetition in it takes as many characters as
there are, unless what comes after cannot match then, which never is so for what may be empty.

* `search_first`: what is found is the first match of its place.
* `First.many`, `First.opt_char`: a repetition, and an optional character, take what they can.
* `First.concat`: of patterns one after another, all but the last lead to a place, also with
  another pattern at the end, and the last one takes its first match there.
-/

namespace AlphaOne.Foundations

/-- What is passed last is everything that meets the test. -/
theorem Place.getLast?_passes (test : Char → Bool) (before after : List Char) :
    (Place.passes test before after).getLast? =
      some ⟨(after.takeWhile test).reverse ++ before, after.dropWhile test⟩ := by
  induction after generalizing before with
  | nil => rfl
  | cons c after ih =>
    by_cases hc : test c = true
    · rw [Place.passes, if_pos hc, List.getLast?_cons, ih, List.takeWhile_cons_of_pos hc,
        List.dropWhile_cons_of_pos hc, List.reverse_cons, List.append_assoc]
      rfl
    · rw [Place.passes, if_neg hc, List.takeWhile_cons_of_neg hc, List.dropWhile_cons_of_neg hc]
      rfl

theorem Place.length_passes (test : Char → Bool) (before after : List Char) :
    (Place.passes test before after).length = (after.takeWhile test).length + 1 := by
  induction after generalizing before with
  | nil => rfl
  | cons c after ih =>
    by_cases hc : test c = true
    · rw [Place.passes, if_pos hc, List.length_cons, ih, List.takeWhile_cons_of_pos hc,
        List.length_cons]
    · rw [Place.passes, if_neg hc, List.takeWhile_cons_of_neg hc]
      rfl

/-- Characters that meet the test are passed. -/
theorem Place.mem_passes {test : Char → Bool} {taken : List Char}
    (h : ∀ c ∈ taken, test c = true) (before after : List Char) :
    ⟨taken.reverse ++ before, after⟩ ∈ Place.passes test before (taken ++ after) := by
  induction taken generalizing before with
  | nil => cases after <;> simp [Place.passes]
  | cons c taken ih =>
    obtain ⟨hc, htaken⟩ := List.forall_mem_cons.1 h
    rw [List.cons_append, Place.passes, if_pos hc, List.reverse_cons, List.append_assoc]
    exact List.mem_cons_of_mem _ (ih htaken (c :: before))

namespace Regex

variable {r s : Regex} {p q : Place} {g : Option (List Char)}

/-- A match from one place to another. -/
def Reaches (r : Regex) (p q : Place) : Prop := ∃ g, (q, g) ∈ r.ends p

/-- The match from a place that is tried first. -/
def First (r : Regex) (p q : Place) (g : Option (List Char)) : Prop :=
  (r.ends p).head? = some (q, g)

/-- The pattern matches at every place. -/
def Total (r : Regex) : Prop := ∀ p, r.ends p ≠ []

theorem search_first {text : List Char} {m : Match} (h : r.search text = some m) :
    m.start ∈ Place.onwards [] text ∧ r.First m.start m.stop m.group := by
  obtain ⟨p, hp, hm⟩ := List.exists_of_findSome?_eq_some h
  obtain ⟨⟨q, g⟩, hhead, rfl⟩ := Option.map_eq_some_iff.1 hm
  exact ⟨hp, hhead⟩

/-! ## One after another -/

theorem Reaches.seq {p' : Place} (h : r.Reaches p p') (h' : s.Reaches p' q) :
    (r.seq s).Reaches p q := by
  obtain ⟨g, hg⟩ := h
  obtain ⟨g', hg'⟩ := h'
  exact ⟨g'.or g, List.mem_flatMap.2 ⟨_, hg, List.mem_map.2 ⟨_, hg', rfl⟩⟩⟩

/-- The first match of two patterns takes the first one of the second. -/
theorem First.seq (h : (r.seq s).First p q g) :
    ∃ p', r.Reaches p p' ∧ ∃ g₁ g₂, s.First p' q g₁ ∧ g = g₁.or g₂ := by
  rw [First, ends, List.head?_flatMap] at h
  obtain ⟨⟨p', g₂⟩, hr, hs⟩ := List.exists_of_findSome?_eq_some h
  rw [List.head?_map] at hs
  obtain ⟨⟨q', g₁⟩, hhead, he⟩ := Option.map_eq_some_iff.1 hs
  obtain ⟨rfl, rfl⟩ := Prod.mk.inj he
  exact ⟨p', ⟨g₂, hr⟩, g₁, g₂, hhead, rfl⟩

/-- Before a pattern that matches everywhere the first one takes its first match. -/
theorem First.seq_total (hs : s.Total) (h : (r.seq s).First p q g) :
    ∃ p' g₁ g₂, r.First p p' g₂ ∧ s.First p' q g₁ := by
  rw [First, ends, List.head?_flatMap] at h
  cases hends : r.ends p with
  | nil =>
    rw [hends] at h
    cases h
  | cons e es =>
    obtain ⟨p', g₂⟩ := e
    rw [hends, List.findSome?_cons, List.head?_map] at h
    cases hhead : (s.ends p').head? with
    | none => exact absurd (List.head?_eq_none_iff.1 hhead) (hs p')
    | some e =>
      obtain ⟨q', g₁⟩ := e
      rw [hhead] at h
      obtain ⟨rfl, -⟩ := Prod.mk.inj (Option.some.inj h)
      exact ⟨p', g₁, g₂, by rw [First, hends]; rfl, hhead⟩

theorem Total.seq (hr : r.Total) (hs : s.Total) : (r.seq s).Total := by
  intro p hnil
  obtain ⟨⟨q, g⟩, hq⟩ := List.exists_mem_of_ne_nil _ (hr p)
  obtain ⟨⟨q', g'⟩, hq'⟩ := List.exists_mem_of_ne_nil _ (hs q)
  have hmem : (q', g'.or g) ∈ (r.seq s).ends p :=
    List.mem_flatMap.2 ⟨_, hq, List.mem_map.2 ⟨_, hq', rfl⟩⟩
  rw [hnil] at hmem
  cases hmem

theorem total_opt (r : Regex) : (opt r).Total := by
  intro p
  simp [ends]

theorem concat_cons {rs : List Regex} (h : rs ≠ []) : concat (r :: rs) = seq r (concat rs) := by
  cases rs with
  | nil => exact absurd rfl h
  | cons r' rs => rfl

/-- **The first match of patterns one after another** ends with the first match of the last one, at
a place to which the others lead, whatever comes after them. -/
theorem First.concat {rs : List Regex} {t : Regex} (h : (concat (rs ++ [t])).First p q g) :
    ∃ p' g₁ g₂, t.First p' q g₁ ∧ g = g₁.or g₂ ∧
      ∀ t' q', t'.Reaches p' q' → (Regex.concat (rs ++ [t'])).Reaches p q' := by
  induction rs generalizing p g with
  | nil => exact ⟨p, g, none, h, by simp, fun t' q' h' => h'⟩
  | cons r rs ih =>
    rw [List.cons_append, concat_cons (by simp)] at h
    obtain ⟨p₁, hr, g₁, g₂, hfirst, rfl⟩ := h.seq
    obtain ⟨p', g₃, g₄, ht, rfl, hlead⟩ := ih hfirst
    refine ⟨p', g₃, g₄.or g₂, ht, Option.or_assoc .., fun t' q' h' => ?_⟩
    rw [List.cons_append, concat_cons (by simp)]
    exact hr.seq (hlead t' q' h')

/-! ## One pattern -/

theorem First.group (h : (group r).First p q g) :
    g = some (p.upTo q) ∧ ∃ g', r.First p q g' := by
  rw [First, ends, List.head?_map] at h
  obtain ⟨⟨q', g'⟩, hhead, he⟩ := Option.map_eq_some_iff.1 h
  obtain ⟨rfl, rfl⟩ := Prod.mk.inj he
  exact ⟨rfl, g', hhead⟩

/-- An optional character is taken if it is there. -/
theorem First.opt_char {test : Char → Bool} (h : (opt (char test)).First p q g) :
    (∃ c after, test c = true ∧ p.after = c :: after ∧ q = ⟨c :: p.before, after⟩) ∨
      (p.after.head?.any test = false ∧ q = p) := by
  rw [First, ends, ends] at h
  cases hafter : p.after with
  | nil =>
    rw [hafter] at h
    obtain ⟨rfl, -⟩ := Prod.mk.inj (Option.some.inj h)
    exact .inr ⟨rfl, rfl⟩
  | cons c after =>
    rw [hafter] at h
    dsimp only at h
    split_ifs at h with hc
    · obtain ⟨rfl, -⟩ := Prod.mk.inj (Option.some.inj h)
      exact .inl ⟨c, after, hc, rfl, rfl⟩
    · obtain ⟨rfl, -⟩ := Prod.mk.inj (Option.some.inj h)
      exact .inr ⟨by simpa using hc, rfl⟩

/-- A repetition takes as many characters as there are. -/
theorem First.many {test : Char → Bool} {least : ℕ} (h : (many test least none).First p q g) :
    least ≤ (p.after.takeWhile test).length ∧
      q = ⟨(p.after.takeWhile test).reverse ++ p.before, p.after.dropWhile test⟩ := by
  rw [First, ends, List.head?_map, List.head?_reverse, List.getLast?_drop,
    Place.length_passes, Place.getLast?_passes] at h
  split_ifs at h with hshort
  · cases h
  · obtain ⟨rfl, -⟩ := Prod.mk.inj (Option.some.inj h)
    exact ⟨by omega, rfl⟩

theorem total_many (test : Char → Bool) : (many test 0 none).Total := by
  intro p hnil
  have hlength := congrArg List.length hnil
  simp [ends, Place.length_passes] at hlength

theorem reaches_many {test : Char → Bool} {taken : List Char}
    (h : ∀ c ∈ taken, test c = true) (before after : List Char) :
    (many test 0 none).Reaches ⟨before, taken ++ after⟩ ⟨taken.reverse ++ before, after⟩ := by
  refine ⟨none, List.mem_map.2 ⟨_, List.mem_reverse.2 ?_, rfl⟩⟩
  exact Place.mem_passes h before after

end Regex

end AlphaOne.Foundations
