import Mathlib.Data.List.Basic
import Mathlib.Order.Lattice

/-!
# Paging through a sorted list by a cursor

A list sorted strictly by a key is read in pages: the page at the cursor `since` is made of the
first `limit` elements whose key is at least `since`. Which elements a page holds is decided by
their rank from the cursor on (`mem_page_iff`): an element is on the page if fewer than `limit`
elements from the cursor on come before it. `countIn` counts the elements of a half-open
stretch; the counts of adjacent stretches add up (`countIn_add`).
-/

namespace AlphaOne.Foundations

variable {α τ : Type*} [LinearOrder τ] (key : α → τ)

/-- The elements stand in the strict order of their keys. -/
def Chronological (l : List α) : Prop := l.Pairwise fun x y => key x < key y

instance (l : List α) : Decidable (Chronological key l) :=
  inferInstanceAs (Decidable (l.Pairwise fun x y => key x < key y))

/-- The page at the cursor `since`. -/
def page (since : τ) (limit : ℕ) (l : List α) : List α :=
  (l.filter fun x => since ≤ key x).take limit

/-- The number of elements from `a` on and before `b`. -/
def countIn (a b : τ) (l : List α) : ℕ := l.countP fun x => a ≤ key x ∧ key x < b

variable {key} {l : List α} {since : τ} {limit : ℕ} {x y : α}

theorem Chronological.sublist {m : List α} (h : Chronological key l) (hm : m.Sublist l) :
    Chronological key m := List.Pairwise.sublist hm h

theorem page_sublist : (page key since limit l).Sublist l :=
  (List.take_sublist _ _).trans List.filter_sublist

theorem since_le_of_mem_page (hx : x ∈ page key since limit l) : since ≤ key x := by
  simpa using (List.mem_filter.1 (List.mem_of_mem_take hx)).2

/-- A page of translated elements is the translated page. -/
theorem page_map {β : Type*} (f : β → α) (l : List β) :
    page key since limit (l.map f) = (page (fun x => key (f x)) since limit l).map f := by
  rw [page, page, List.filter_map, List.map_take]
  rfl

/-- In a sorted list, the elements of a prefix are those with fewer elements before them than
the prefix is long. -/
theorem mem_take_iff (h : Chronological key l) (n : ℕ) :
    x ∈ l.take n ↔ x ∈ l ∧ l.countP (fun y => key y < key x) < n := by
  induction l generalizing n with
  | nil => simp
  | cons z l ih =>
    obtain ⟨hz, hl⟩ := List.pairwise_cons.1 h
    cases n with
    | zero => simp
    | succ n =>
      rw [List.take_succ_cons, List.mem_cons, List.mem_cons, ih hl]
      by_cases hxz : x = z
      · subst hxz
        have hcount : l.countP (fun y => key y < key x) = 0 :=
          List.countP_eq_zero.2 fun y hy => by simpa using (hz y hy).le
        simp [hcount]
      · by_cases hx : x ∈ l
        · have hlt : key z < key x := hz x hx
          simp [hxz, hx, hlt]
        · simp [hxz, hx]

/-- **An element is on a page by its rank from the cursor on.** -/
theorem mem_page_iff (h : Chronological key l) :
    x ∈ page key since limit l ↔
      x ∈ l ∧ since ≤ key x ∧ countIn key since (key x) l < limit := by
  have hcount : (l.filter fun y => since ≤ key y).countP (fun y => key y < key x) =
      countIn key since (key x) l := by
    rw [List.countP_filter, countIn]
    congr 1
    funext y
    rw [Bool.decide_and, Bool.and_comm]
  rw [page, mem_take_iff (h.sublist List.filter_sublist), hcount, List.mem_filter]
  simp [and_assoc]

theorem countIn_add {a b c : τ} (hab : a ≤ b) (hbc : b ≤ c) (l : List α) :
    countIn key a c l = countIn key a b l + countIn key b c l := by
  induction l with
  | nil => rfl
  | cons z l ih =>
    simp only [countIn, List.countP_cons] at ih ⊢
    rw [ih]
    by_cases ha : a ≤ key z <;> by_cases hb : key z < b <;> by_cases hc : key z < c
    all_goals grind

theorem countIn_mono_right {a b c : τ} (hbc : b ≤ c) (l : List α) :
    countIn key a b l ≤ countIn key a c l := by
  refine List.countP_mono_left fun z _ hz => ?_
  simp only [decide_eq_true_eq] at hz ⊢
  exact ⟨hz.1, hz.2.trans_le hbc⟩

theorem countIn_pos {a b : τ} (hx : x ∈ l) (ha : a ≤ key x) (hb : key x < b) :
    0 < countIn key a b l :=
  List.countP_pos_iff.2 ⟨x, hx, by simp [ha, hb]⟩

theorem countIn_eq_zero {a b : τ} (h : ∀ z ∈ l, a ≤ key z → b ≤ key z) :
    countIn key a b l = 0 := by
  refine List.countP_eq_zero.2 fun z hz => ?_
  simp only [decide_eq_true_eq, not_and, not_lt]
  exact h z hz

/-- A page holds everything from the cursor up to any of its elements. -/
theorem mem_page_of_le (h : Chronological key l) (hy : y ∈ page key since limit l) (hx : x ∈ l)
    (hsince : since ≤ key x) (hle : key x ≤ key y) : x ∈ page key since limit l := by
  obtain ⟨-, -, hcount⟩ := (mem_page_iff h).1 hy
  exact (mem_page_iff h).2 ⟨hx, hsince, Nat.lt_of_le_of_lt (countIn_mono_right hle l) hcount⟩

/-- A page that an element from the cursor on is missing from is full, and all before that
element. -/
theorem page_full (h : Chronological key l) (hx : x ∈ l) (hsince : since ≤ key x)
    (hmiss : x ∉ page key since limit l) :
    (page key since limit l).length = limit ∧ ∀ y ∈ page key since limit l, key y < key x := by
  have hrank : limit ≤ countIn key since (key x) l := by
    by_contra hlt
    exact hmiss ((mem_page_iff h).2 ⟨hx, hsince, Nat.lt_of_not_le hlt⟩)
  constructor
  · refine List.length_take_of_le (Nat.le_trans hrank ?_)
    rw [← List.countP_eq_length_filter]
    refine List.countP_mono_left fun z _ hz => ?_
    simp only [decide_eq_true_eq] at hz ⊢
    exact hz.1
  · intro y hy
    by_contra hle
    exact hmiss (mem_page_of_le h hy hx hsince (not_lt.1 hle))

theorem Chronological.nodup (h : Chronological key l) : l.Nodup :=
  h.imp fun hlt heq => absurd hlt (by rw [heq]; exact lt_irrefl _)

/-- Elements of a sorted list with one key are one element. -/
theorem Chronological.eq_of_key (h : Chronological key l) (hx : x ∈ l) (hy : y ∈ l)
    (heq : key x = key y) : x = y := by
  by_contra hne
  have hlt := List.pairwise_iff_getElem.1 h
  obtain ⟨i, hi, rfl⟩ := List.getElem_of_mem hx
  obtain ⟨j, hj, rfl⟩ := List.getElem_of_mem hy
  rcases Nat.lt_trichotomy i j with hij | rfl | hij
  · exact (hlt i j hi hj hij).ne heq
  · exact hne rfl
  · exact (hlt j i hj hi hij).ne heq.symm

/-- The last element of a sorted list is its greatest. -/
theorem Chronological.le_getLast (h : Chronological key l) (hx : l.getLast? = some x) :
    ∀ y ∈ l, key y ≤ key x := by
  obtain ⟨init, rfl⟩ := List.getLast?_eq_some_iff.1 hx
  intro y hy
  rcases List.mem_append.1 hy with hy | hy
  · exact ((List.pairwise_append.1 h).2.2 y hy x (by simp)).le
  · rw [List.mem_singleton.1 hy]

/-- The first element of a sorted list is its least. -/
theorem Chronological.head_le (h : Chronological key l) (hx : l.head? = some x) :
    ∀ y ∈ l, key x ≤ key y := by
  obtain ⟨rest, rfl⟩ := List.head?_eq_some_iff.1 hx
  intro y hy
  rcases List.mem_cons.1 hy with rfl | hy
  · exact le_rfl
  · exact ((List.pairwise_cons.1 h).1 y hy).le

/-- **The pages tile the list.** When the elements of a page are those of the stretch from the
cursor to `b`, and an element is missing from the page, the stretch holds a full page. -/
theorem countIn_page (h : Chronological key l) {b : τ} (hx : x ∈ l) (hsince : since ≤ key x)
    (hmiss : x ∉ page key since limit l)
    (hpage : ∀ z ∈ l, since ≤ key z → (key z < b ↔ z ∈ page key since limit l)) :
    countIn key since b l = limit := by
  have hperm : (l.filter fun z => since ≤ key z ∧ key z < b).Perm (page key since limit l) := by
    refine (List.perm_ext_iff_of_nodup (List.filter_sublist.nodup h.nodup)
      (page_sublist.nodup h.nodup)).2 fun z => ?_
    rw [List.mem_filter, decide_eq_true_eq]
    constructor
    · rintro ⟨hz, hle, hlt⟩
      exact (hpage z hz hle).1 hlt
    · intro hz
      have hle := since_le_of_mem_page hz
      exact ⟨page_sublist.subset hz, hle, (hpage z (page_sublist.subset hz) hle).2 hz⟩
  rw [countIn, List.countP_eq_length_filter, hperm.length_eq]
  exact (page_full h hx hsince hmiss).1

/-! ## A cursor with a fixed step -/

/-- In a sorted list the elements up to `stop` come first, so a page may be cut before or after
they are picked out. -/
theorem Chronological.filter_take (h : Chronological key l) (stop : τ) (limit : ℕ) :
    (l.take limit).filter (fun x => key x ≤ stop) =
      (l.filter fun x => key x ≤ stop).take limit := by
  induction l generalizing limit with
  | nil => simp
  | cons x l ih =>
    obtain ⟨hx, hl⟩ := List.pairwise_cons.1 h
    cases limit with
    | zero => simp
    | succ limit =>
      rw [List.take_succ_cons]
      by_cases hle : key x ≤ stop
      · rw [List.filter_cons_of_pos (by simpa using hle),
          List.filter_cons_of_pos (by simpa using hle),
          List.take_succ_cons, ih hl]
      · have hnone : ∀ m : List α, m.Sublist l → m.filter (fun y => key y ≤ stop) = [] := by
          intro m hm
          refine List.filter_eq_nil_iff.2 fun y hy => ?_
          have hlt := hx y (hm.subset hy)
          simpa using (not_le.1 hle).trans hlt
        rw [List.filter_cons_of_neg (by simpa using hle),
          List.filter_cons_of_neg (by simpa using hle),
          hnone _ (List.take_sublist _ _), hnone _ (List.Sublist.refl l), List.take_nil]

/-- Every element of a page is before every element behind the page. -/
theorem Chronological.take_lt_drop (h : Chronological key l) (hx : x ∈ l.take limit)
    (hy : y ∈ l.drop limit) : key x < key y := by
  rw [Chronological, ← List.take_append_drop limit l] at h
  exact (List.pairwise_append.1 h).2.2 x hx y hy

section Step

variable [Add τ] {step stop : τ}

variable (key) in
/-- The list fits a cursor that reads pages while it is before `stop` and jumps `step` past the last
element of each: the first element of every further page is a step or more after the last element
of the page before, and the cursor is before `stop` wherever there is an element to read. -/
def PagesFit (step stop : τ) (limit : ℕ) (since : τ) (l : List α) : Prop :=
  (l ≠ [] → since < stop) ∧ ∀ k x y, 0 < k → l[k * limit - 1]? = some x → l[k * limit]? = some y →
    key x + step ≤ key y ∧ key x + step < stop

/-- **One page and the rest.** A list fits if its next page does, and the elements behind it fit
the cursor after that page. -/
theorem pagesFit_iff_drop {last : α} (hlimit : 0 < limit)
    (hlast : (l.take limit).getLast? = some last) :
    PagesFit key step stop limit since l ↔
      since < stop ∧ (∀ y, (l.drop limit).head? = some y → key last + step ≤ key y) ∧
        PagesFit key step stop limit (key last + step) (l.drop limit) := by
  have hne : l ≠ [] := by
    rintro rfl
    simp at hlast
  have hshift : ∀ k, 0 < k → limit + (k * limit - 1) = (k + 1) * limit - 1 ∧
      limit + k * limit = (k + 1) * limit := by
    intro k hk
    have hpos := Nat.mul_pos hk hlimit
    rw [Nat.succ_mul]
    omega
  -- the last element of a page with elements behind it
  have hfull : ∀ y, l[limit]? = some y → l[limit - 1]? = some last := by
    intro y hy
    have hlen := (List.getElem?_eq_some_iff.1 hy).1
    rw [List.getLast?_eq_getElem?, List.length_take, Nat.min_eq_left (Nat.le_of_lt hlen),
      List.getElem?_take_of_lt (Nat.sub_lt hlimit Nat.one_pos)] at hlast
    exact hlast
  constructor
  · rintro ⟨hsince, hfit⟩
    have hnext : ∀ y, (l.drop limit).head? = some y →
        key last + step ≤ key y ∧ key last + step < stop := by
      intro y hy
      rw [List.head?_drop] at hy
      exact hfit 1 last y Nat.one_pos (by rw [Nat.one_mul]; exact hfull y hy) (by rwa [Nat.one_mul])
    refine ⟨hsince hne, fun y hy => (hnext y hy).1, fun hrest => ?_, fun k x y hk hx hy => ?_⟩
    · obtain ⟨y, hy⟩ := Option.isSome_iff_exists.1 (List.isSome_head?.2 hrest)
      exact (hnext y hy).2
    · rw [List.getElem?_drop] at hx hy
      rw [(hshift k hk).1] at hx
      rw [(hshift k hk).2] at hy
      exact hfit (k + 1) x y (Nat.succ_pos k) hx hy
  · rintro ⟨hsince, hhead, hrest, hfit⟩
    refine ⟨fun _ => hsince, fun k x y hk hx hy => ?_⟩
    obtain ⟨k, rfl⟩ : ∃ n, k = n + 1 := ⟨k - 1, by omega⟩
    rcases Nat.eq_zero_or_pos k with rfl | hpos
    · rw [Nat.zero_add, Nat.one_mul] at hx hy
      obtain rfl : last = x := Option.some.inj ((hfull y hy).symm.trans hx)
      rw [← List.head?_drop] at hy
      refine ⟨hhead y hy, hrest fun hnil => ?_⟩
      rw [hnil] at hy
      cases hy
    · rw [← (hshift k hpos).1, ← List.getElem?_drop] at hx
      rw [← (hshift k hpos).2, ← List.getElem?_drop] at hy
      exact hfit k x y hpos hx hy

end Step

end AlphaOne.Foundations
