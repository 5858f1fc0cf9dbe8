import AlphaOne.FeatureEngine.EngineCausality
import AlphaOne.FeatureEngine.PriceMaps
import Mathlib.Analysis.Convex.Basic
import Mathlib.Data.Rat.Sqrt
import Mathlib.Tactic.FieldSimp

/-!
# The ranges of the indicators

What a mean of prices says is a price: exponentially weighted, over a window, adaptive or weighted
with volumes, it stays where the entries are that it is a mean of. The indexes are percentages, and
the distances are not negative. `Within I` says that the entries of a column lie in the set `I`;
a column of means keeps every convex set.

`technical_row` collects this for a row of `compute_technical_indicators`, and `kama_row` for
Kaufman's mean, whose steps are at most the whole way to the close because a price does not move
further than the sum of its moves (`abs_sub_le_travel`).
-/

namespace AlphaOne.FeatureEngine

open Foundations

/-- What each input of a run keeps holds of every state. -/
theorem mem_states_of_mem {σ α : Type*} {step : σ → α → σ} {P : σ → Prop} {xs : List α}
    (hstep : ∀ s, ∀ x ∈ xs, P s → P (step s x)) {s : σ} (hs : P s) {t : σ}
    (ht : t ∈ states step s xs) : P t := by
  induction xs generalizing s with
  | nil => exact absurd ht List.not_mem_nil
  | cons x xs ih =>
    rcases List.mem_cons.1 ht with rfl | ht
    · exact hstep s x (by simp) hs
    · exact ih (fun s x hx => hstep s x (by simp [hx])) (hstep s x (by simp) hs) ht

/-- The entries of a column that are not NaN lie in a set. -/
def Within (I : Set ℚ) (xs : Series) : Prop := ∀ x, some x ∈ xs → x ∈ I

/-! ## Operations on columns -/

section Columns

variable {I J K : Set ℚ} {xs ys : Series}

theorem within_map_some {α : Type*} {get : α → ℚ} {cs : List α} (h : ∀ c ∈ cs, get c ∈ I) :
    Within I (cs.map fun c => some (get c)) := by
  intro x hx
  obtain ⟨c, hc, hget⟩ := List.mem_map.1 hx
  exact Option.some.inj hget ▸ h c hc

theorem Within.map {f : ℚ → ℚ} (h : Within I xs) (hf : ∀ x ∈ I, f x ∈ J) :
    Within J (xs.map (Option.map f)) := by
  intro y hy
  obtain ⟨_ | x, hx, hfx⟩ := List.mem_map.1 hy
  · cases hfx
  · exact Option.some.inj hfx ▸ hf x (h x hx)

/-- The entries of a row of two columns. -/
theorem mem_zipWith {α β γ : Type*} {op : α → β → γ} {as : List α} {bs : List β} {z : γ}
    (h : z ∈ List.zipWith op as bs) : ∃ a ∈ as, ∃ b ∈ bs, op a b = z := by
  obtain ⟨i, hi, rfl⟩ := List.mem_iff_getElem.1 h
  rw [List.length_zipWith, lt_min_iff] at hi
  exact ⟨as[i], List.getElem_mem hi.1, bs[i], List.getElem_mem hi.2, by simp⟩

theorem Within.safeDiv (hx : Within I xs) (hy : Within J ys)
    (hdiv : ∀ x ∈ I, ∀ y ∈ J, y ≠ 0 → x / y ∈ K) : Within K (safeDiv xs ys) := by
  intro z hz
  obtain ⟨_ | a, ha, _ | b, hb, hab⟩ := mem_zipWith hz
  · cases hab
  · cases hab
  · cases hab
  · simp only [Option.bind_some] at hab
    split_ifs at hab with hzero
    exact Option.some.inj hab ▸ hdiv a (hx a ha) b (hy b hb) hzero

theorem getElem?_zipOp {op : ℚ → ℚ → ℚ} {i : ℕ} {z : ℚ} :
    (FeatureEngine.zipOp op xs ys)[i]? = some (some z) ↔
      ∃ x y, xs[i]? = some (some x) ∧ ys[i]? = some (some y) ∧ op x y = z := by
  rw [FeatureEngine.zipOp, List.getElem?_zipWith_eq_some]
  constructor
  · rintro ⟨_ | x, _ | y, hx, hy, hz⟩
    · cases hz
    · cases hz
    · cases hz
    · exact ⟨x, y, hx, hy, Option.some.inj hz⟩
  · rintro ⟨x, y, hx, hy, rfl⟩
    exact ⟨some x, some y, hx, hy, rfl⟩

theorem getElem?_safeDiv {i : ℕ} {z : ℚ} :
    (FeatureEngine.safeDiv xs ys)[i]? = some (some z) ↔
      ∃ x y, xs[i]? = some (some x) ∧ ys[i]? = some (some y) ∧ y ≠ 0 ∧ x / y = z := by
  rw [FeatureEngine.safeDiv, List.getElem?_zipWith_eq_some]
  constructor
  · rintro ⟨_ | x, _ | y, hx, hy, hz⟩
    · cases hz
    · cases hz
    · cases hz
    · simp only [Option.bind_some] at hz
      split_ifs at hz with hzero
      exact ⟨x, y, hx, hy, hzero, Option.some.inj hz⟩
  · rintro ⟨x, y, hx, hy, hzero, rfl⟩
    exact ⟨some x, some y, hx, hy, by simp [hzero]⟩

theorem Within.rolling {w : ℕ} {agg : List ℚ → ℚ} (h : Within I xs)
    (hagg : ∀ l : List ℚ, l.length = w → (∀ x ∈ l, x ∈ I) → agg l ∈ J) :
    Within J (rolling w agg xs) := by
  intro y hy
  obtain ⟨recent, hrecent, hy⟩ := List.mem_map.1 hy
  obtain ⟨j, hj⟩ := List.mem_iff_getElem?.1 hrecent
  rw [getElem?_windows] at hj
  split_ifs at hj
  split_ifs at hy with hfull
  have hsubset : recent ⊆ xs := by
    rw [← Option.some.inj hj]
    exact fun x hx => List.mem_of_mem_take (List.mem_reverse.1 (List.mem_of_mem_take hx))
  refine Option.some.inj hy ▸ hagg _ ?_ fun x hx => ?_
  · rw [← hfull.1, List.length_filterMap_eq_countP, List.countP_eq_length]
    exact fun x hx => List.all_eq_true.1 hfull.2 x hx
  · obtain ⟨o, ho, hox⟩ := List.mem_filterMap.1 hx
    rw [id_eq] at hox
    exact h x (hsubset (hox ▸ ho))

/-- A mean in a set, and a weight that is not negative. -/
structure EwmIn (I : Set ℚ) (s : EwmState) : Prop where
  weight : 0 ≤ s.oldWt
  mean : ∀ m ∈ s.weighted, m ∈ I

theorem EwmIn.step {alpha : ℚ} (h₀ : 0 < alpha) (h₁ : alpha ≤ 1) (adjust : Bool)
    (hI : Convex ℚ I) {s : EwmState} (hs : EwmIn I s) {x : Option ℚ} (hx : ∀ cur ∈ x, cur ∈ I) :
    EwmIn I (ewmStep alpha adjust s x) := by
  have hdecay : 0 ≤ s.oldWt * (1 - alpha) := mul_nonneg hs.weight (by linarith)
  obtain ⟨weighted, oldWt, nobs⟩ := s
  cases weighted with
  | none =>
    cases x with
    | none => exact hs
    | some cur => exact ⟨hs.weight, hx⟩
  | some mean =>
    cases x with
    | none => exact ⟨hdecay, hs.mean⟩
    | some cur =>
      have hweight : 0 < if adjust then 1 else alpha := by cases adjust <;> simp [h₀]
      have htotal := add_pos_of_nonneg_of_pos hdecay hweight
      refine ⟨?_, ?_⟩
      · cases adjust
        · exact zero_le_one
        · exact htotal.le
      · rintro _ ⟨⟩
        have hmean := hI (hs.mean mean rfl) (hx cur rfl) (div_nonneg hdecay htotal.le)
          (div_nonneg hweight.le htotal.le) (by rw [← add_div, div_self htotal.ne'])
        rwa [smul_eq_mul, smul_eq_mul, div_mul_eq_mul_div, div_mul_eq_mul_div, ← add_div] at hmean

/-- A mean stays in a convex set. -/
theorem Within.ewm {alpha : ℚ} (h₀ : 0 < alpha) (h₁ : alpha ≤ 1) (adjust : Bool)
    (minPeriods : ℕ) (hI : Convex ℚ I) (h : Within I xs) :
    Within I (ewm alpha adjust minPeriods xs) := by
  intro x hx
  obtain ⟨s, hs, hx⟩ := List.mem_map.1 hx
  split_ifs at hx
  refine (mem_states_of_mem (fun s y hy hs => ?_) ⟨zero_le_one, by simp⟩ hs : EwmIn I s).mean x hx
  exact hs.step h₀ h₁ adjust hI fun cur hcur => h cur (Option.mem_def.1 hcur ▸ hy)

end Columns

/-! ## Weighted means -/

/-- A mean with weights that are not negative. -/
theorem weighted_mean_mem {α : Type*} {I : Set ℚ} (hI : Convex ℚ I) (weight value : α → ℚ)
    {l : List α} (hweight : ∀ a ∈ l, 0 ≤ weight a) (hvalue : ∀ a ∈ l, value a ∈ I)
    (hsum : (l.map weight).sum ≠ 0) :
    (l.map fun a => value a * weight a).sum / (l.map weight).sum ∈ I := by
  induction l with
  | nil => exact absurd rfl hsum
  | cons a l ih =>
    have ha := hweight a (by simp)
    have hl : ∀ b ∈ l, 0 ≤ weight b := fun b hb => hweight b (by simp [hb])
    have hrest : 0 ≤ (l.map weight).sum := List.sum_nonneg (by simpa using hl)
    simp only [List.map_cons, List.sum_cons] at hsum ⊢
    rcases hrest.eq_or_lt with hzero | hpos
    · have hnone : ∀ b ∈ l, weight b = 0 := by
        exact fun b hb => List.all_zero_of_le_zero_le_of_sum_eq_zero (by simpa using hl)
          hzero.symm (List.mem_map_of_mem hb)
      have hvalues : (l.map fun b => value b * weight b).sum = 0 :=
        List.sum_eq_zero (by simpa using fun b hb => Or.inr (hnone b hb))
      rw [← hzero, add_zero] at hsum ⊢
      rw [hvalues, add_zero, mul_div_cancel_right₀ _ hsum]
      exact hvalue a (by simp)
    · have hmean := ih hl (fun b hb => hvalue b (by simp [hb])) hpos.ne'
      have htotal : 0 < weight a + (l.map weight).sum := by linarith
      have hboth := hI (hvalue a (by simp)) hmean (div_nonneg ha htotal.le)
        (div_nonneg hrest htotal.le) (by rw [← add_div, div_self htotal.ne'])
      convert hboth using 1
      simp only [smul_eq_mul]
      field_simp

theorem meanOf_mem {I : Set ℚ} (hI : Convex ℚ I) {l : List ℚ} (hne : l ≠ [])
    (h : ∀ x ∈ l, x ∈ I) : meanOf l ∈ I := by
  have hmean := weighted_mean_mem hI (fun _ => (1 : ℚ)) id (fun _ _ => zero_le_one) h
    (by simpa using hne)
  simpa [meanOf] using hmean

/-! ## Columns that are read off the rows seen so far -/

/-- The rows up to each row, the latest first. -/
def rowsSeen {α : Type*} (xs : List α) : List (List α) := states (fun seen x => x :: seen) [] xs

/-- The rows up to each of some rows. -/
def suffixes {α : Type*} : List α → List (List α)
  | [] => []
  | x :: xs => (x :: xs) :: suffixes xs

section Seen

variable {α β : Type*}

theorem subset_of_mem_rowsSeen {xs seen : List α} (h : seen ∈ rowsSeen xs) : seen ⊆ xs := by
  refine mem_states_of_mem (P := (· ⊆ xs)) (fun s x hx hs => ?_) (List.nil_subset xs) h
  exact List.cons_subset.2 ⟨hx, hs⟩

theorem map_eq_rowsSeen (f : α → β) (xs : List α) :
    xs.map (fun x => some (f x)) = (rowsSeen xs).map fun seen => seen.head?.map f := by
  have h : ∀ seen : List α, xs.map (fun x => some (f x)) =
      (states (fun seen x => x :: seen) seen xs).map fun seen => seen.head?.map f := by
    induction xs with
    | nil => exact fun _ => rfl
    | cons x xs ih => exact fun seen => congrArg (some (f x) :: ·) (ih (x :: seen))
  exact h []

/-- The window of a column at a row. -/
theorem windows_rowsSeen (w : ℕ) (g : List α → β) (xs : List α) :
    windows w ((rowsSeen xs).map g) =
      (rowsSeen xs).map fun seen => ((suffixes seen).map g).take w := by
  have htake : ∀ (b : β) (l : List β), (b :: l.take w).take w = (b :: l).take w := by
    intro b l
    cases w with
    | zero => rfl
    | succ w => simp [List.take_take]
  have h : ∀ seen : List α, states (fun recent x => (x :: recent).take w)
      (((suffixes seen).map g).take w) ((states (fun seen x => x :: seen) seen xs).map g) =
      (states (fun seen x => x :: seen) seen xs).map fun seen =>
        ((suffixes seen).map g).take w := by
    induction xs with
    | nil => exact fun _ => rfl
    | cons x xs ih =>
      intro seen
      simp only [states, List.map_cons]
      rw [htake]
      exact congrArg _ (ih (x :: seen))
  have hstart := h []
  rwa [suffixes, List.map_nil, List.take_nil] at hstart

theorem getElem?_suffixes (n : ℕ) (seen : List α) :
    ((suffixes seen)[n]?.map List.head?).join = seen[n]? := by
  induction seen generalizing n with
  | nil => rfl
  | cons x seen ih =>
    cases n with
    | zero => rfl
    | succ n => simpa [suffixes] using ih n

theorem cumsum_rowsSeen (f : α → ℚ) (xs : List α) :
    cumsum (xs.map fun x => some (f x)) =
      (rowsSeen xs).map fun seen => some (seen.map f).sum := by
  have h : ∀ (seen : List α) (o : Option ℚ),
      (states (fun (s : ℚ × Option ℚ) x => (s.1 + x.getD 0, x.map (s.1 + ·)))
        ((seen.map f).sum, o) (xs.map fun x => some (f x))).map Prod.snd =
      (states (fun seen x => x :: seen) seen xs).map fun seen => some (seen.map f).sum := by
    induction xs with
    | nil => exact fun _ _ => rfl
    | cons x xs ih =>
      intro seen o
      have hsum : (seen.map f).sum + f x = ((x :: seen).map f).sum := by
        rw [List.map_cons, List.sum_cons, add_comm]
      simp only [List.map_cons, states, Option.getD_some, Option.map_some, hsum]
      exact congrArg _ (ih (x :: seen) _)
  exact h [] none

end Seen

/-- A mean of values that is weighted with volumes. -/
theorem within_cumsum_ratio {α : Type*} {I : Set ℚ} (hI : Convex ℚ I) {value volume : α → ℚ}
    {cs : List α} (hvolume : ∀ c ∈ cs, 0 ≤ volume c) (hvalue : ∀ c ∈ cs, value c ∈ I) :
    Within I (safeDiv (cumsum (cs.map fun c => some (value c * volume c)))
      (cumsum (cs.map fun c => some (volume c)))) := by
  rw [cumsum_rowsSeen, cumsum_rowsSeen, safeDiv, List.zipWith_map, List.zipWith_self]
  intro x hx
  obtain ⟨seen, hseen, hx⟩ := List.mem_map.1 hx
  have hsubset := subset_of_mem_rowsSeen hseen
  simp only [Option.bind_some] at hx
  split_ifs at hx with hzero
  exact Option.some.inj hx ▸ weighted_mean_mem hI volume value
    (fun c hc => hvolume c (hsubset hc)) (fun c hc => hvalue c (hsubset hc)) hzero

/-! ## Kaufman's moving average -/

theorem shift_rowsSeen (n : ℕ) (xs : List ℚ) :
    shift n (xs.map some) = (rowsSeen xs).map fun seen => seen[n]? := by
  rw [show xs.map some = (rowsSeen xs).map fun seen => seen.head?.map id from
    map_eq_rowsSeen id xs, shift, windows_rowsSeen, List.map_map]
  refine List.map_congr_left fun seen _ => ?_
  simp only [Function.comp_apply, Option.map_id, id_eq]
  rw [List.getElem?_take_of_lt (Nat.lt_succ_self n), List.getElem?_map]
  exact getElem?_suffixes n seen

/-- How far the price is from that `n` rows before. -/
def distance (n : ℕ) (seen : List ℚ) : Option ℚ :=
  (Option.map₂ (· - ·) seen.head? seen[n]?).map (|·|)

theorem absDiff_rowsSeen (n : ℕ) (xs : List ℚ) :
    (diff n (xs.map some)).map (Option.map (|·|)) = (rowsSeen xs).map (distance n) := by
  rw [diff, shift_rowsSeen, show xs.map some = (rowsSeen xs).map fun seen => seen.head?.map id from
    map_eq_rowsSeen id xs, zipOp, List.zipWith_map, List.zipWith_self, List.map_map]
  refine List.map_congr_left fun seen _ => ?_
  simp [distance]

/-- The last `n` moves of the price. -/
def moves (n : ℕ) (seen : List ℚ) : Series := ((suffixes seen).map (distance 1)).take n

/-- A price does not get further than the sum of its moves. -/
theorem abs_sub_le_travel {n : ℕ} {seen : List ℚ} {d : ℚ} (hlength : (moves n seen).length = n)
    (hsome : (moves n seen).all Option.isSome) (hd : distance n seen = some d) :
    d ≤ ((moves n seen).filterMap id).sum := by
  induction n generalizing seen d with
  | zero =>
    cases seen with
    | nil => cases hd
    | cons x seen =>
      have hzero : |x - x| = d := Option.some.inj hd
      rw [← hzero, sub_self, abs_zero]
      simp [moves]
  | succ n ih =>
    cases seen with
    | nil => cases hlength
    | cons x seen =>
      have hmoves : moves (n + 1) (x :: seen) = distance 1 (x :: seen) :: moves n seen := rfl
      rw [hmoves] at hlength hsome ⊢
      simp only [List.length_cons, add_left_inj] at hlength
      simp only [List.all_cons, Bool.and_eq_true] at hsome
      cases seen with
      | nil => cases hsome.1
      | cons z seen =>
        obtain ⟨y, hy⟩ : ∃ y, (z :: seen)[n]? = some y := by
          cases hget : (z :: seen)[n]? with
          | none => simp [distance, hget] at hd
          | some y => exact ⟨y, rfl⟩
        have hd' : |x - y| = d := by simpa [distance, hy] using hd
        have hrest : |z - y| ≤ ((moves n (z :: seen)).filterMap id).sum :=
          ih hlength hsome.2 (by simp [distance, hy])
        have hfirst : distance 1 (x :: z :: seen) = some |x - z| := rfl
        rw [hfirst, List.filterMap_cons_some (f := id) rfl, List.sum_cons, ← hd']
        calc |x - y| ≤ |x - z| + |z - y| := abs_sub_le x z y
          _ ≤ |x - z| + _ := by linarith

/-- The steps of the mean are between no step and the whole way. -/
theorem smoothing_mem {erPeriod : ℕ} {fast slow : ℚ} (hfast : 1 ≤ fast) (hslow : 1 ≤ slow)
    (xs : List ℚ) : ∀ sc ∈ smoothing (xs.map some) erPeriod fast slow, 0 ≤ sc ∧ sc ≤ 1 := by
  have hbounds : ∀ period : ℚ, 1 ≤ period → 0 ≤ 2 / (period + 1) ∧ 2 / (period + 1) ≤ 1 :=
    fun period h => ⟨by positivity, (div_le_one (by linarith)).2 (by linarith)⟩
  have hratio : Within (Set.Icc 0 1) (safeDiv
      ((diff erPeriod (xs.map some)).map (Option.map (|·|)))
      (rolling erPeriod List.sum ((diff 1 (xs.map some)).map (Option.map (|·|))))) := by
    rw [absDiff_rowsSeen, absDiff_rowsSeen, rolling, windows_rowsSeen, List.map_map, safeDiv,
      List.zipWith_map, List.zipWith_self]
    intro er her
    obtain ⟨seen, -, her⟩ := List.mem_map.1 her
    cases hd : distance erPeriod seen with
    | none => simp [hd] at her
    | some d =>
      simp only [hd, Option.bind_some, Function.comp_apply] at her
      split_ifs at her with hfull
      · simp only [Option.bind_some] at her
        split_ifs at her with hzero
        have htravel := abs_sub_le_travel (n := erPeriod) hfull.1 hfull.2 hd
        have hd₀ : 0 ≤ d := by
          obtain ⟨m, -, rfl⟩ := Option.map_eq_some_iff.1 hd
          exact abs_nonneg m
        rw [← Option.some.inj her]
        exact ⟨div_nonneg hd₀ (hd₀.trans htravel),
          (div_le_one (lt_of_le_of_ne (hd₀.trans htravel) (Ne.symm hzero))).2 htravel⟩
      · cases her
  intro sc hsc
  obtain ⟨er, her, rfl⟩ := List.mem_map.1 hsc
  have her' : 0 ≤ er.getD 0 ∧ er.getD 0 ≤ 1 := by
    cases er with
    | none => exact ⟨le_rfl, zero_le_one⟩
    | some e => exact hratio e her
  obtain ⟨hf₀, hf₁⟩ := hbounds fast hfast
  obtain ⟨hs₀, hs₁⟩ := hbounds slow hslow
  have hmix : er.getD 0 * (2 / (fast + 1) - 2 / (slow + 1)) + 2 / (slow + 1) ∈
      Set.Icc (0 : ℚ) 1 := by
    have hconvex := convex_Icc (𝕜 := ℚ) (0 : ℚ) 1 ⟨hf₀, hf₁⟩ ⟨hs₀, hs₁⟩ her'.1
      (sub_nonneg.2 her'.2) (add_sub_cancel _ _)
    simp only [smul_eq_mul] at hconvex
    convert hconvex using 1
    ring
  exact ⟨sq_nonneg _, pow_le_one₀ hmix.1 hmix.2⟩

theorem kama_mem {I : Set ℚ} (hI : Convex ℚ I) {cs : List Candle} (h : ∀ c ∈ cs, c.close ∈ I)
    (erPeriod : ℕ) {fast slow : ℚ} (hfast : 1 ≤ fast) (hslow : 1 ≤ slow) :
    Within I (kama cs erPeriod fast slow) := by
  intro x hx
  obtain ⟨s, hs, hx⟩ := List.mem_map.1 hx
  refine mem_states_of_mem (P := fun s : ℕ × Option ℚ => ∀ m ∈ s.2, m ∈ I) (fun s input hinput hs =>
    ?_) (by simp) hs x hx
  obtain ⟨close, sc⟩ := input
  obtain ⟨hclose, hsc⟩ := List.of_mem_zip hinput
  obtain ⟨c, hc, rfl⟩ := List.mem_map.1 hclose
  have hcloses : cs.map (fun c => some c.close) = (cs.map Candle.close).map some :=
    (List.map_map ..).symm
  rw [hcloses] at hsc
  obtain ⟨hsc₀, hsc₁⟩ := smoothing_mem hfast hslow _ sc hsc
  unfold kamaStep
  dsimp only
  intro m hm
  split_ifs at hm
  · cases hm
  · exact Option.some.inj hm ▸ h c hc
  · cases hprev : s.2 with
    | none =>
      rw [hprev] at hm
      exact Option.some.inj hm ▸ h c hc
    | some prev =>
      rw [hprev] at hm
      have hstep := hI (h c hc) (hs prev hprev) hsc₀ (sub_nonneg.2 hsc₁) (add_sub_cancel _ _)
      rw [← Option.some.inj hm]
      convert hstep using 1
      simp only [smul_eq_mul]
      ring

/-! ## Indexes -/

section Indexes

variable {cs : List Candle} {period : ℕ}

theorem within_ema {I : Set ℚ} (hI : Convex ℚ I) {xs : Series} (h : Within I xs)
    (hperiod : 0 < period) : Within I (ema xs period) := by
  have hlarge : (1 : ℚ) ≤ period := by exact_mod_cast hperiod
  exact h.ewm (by positivity) ((div_le_one (by positivity)).2 (by linarith)) _ _ hI

theorem within_wilder {I : Set ℚ} (hI : Convex ℚ I) {xs : Series} (h : Within I xs)
    (hperiod : 0 < period) : Within I (ewm (1 / period) true period xs) := by
  have hlarge : (1 : ℚ) ≤ period := by exact_mod_cast hperiod
  exact h.ewm (by positivity) ((div_le_one (by positivity)).2 hlarge) _ _ hI

theorem within_sma {I : Set ℚ} (hI : Convex ℚ I) {xs : Series} (h : Within I xs)
    (hperiod : 0 < period) : Within I (sma xs period) :=
  h.rolling fun l hl hmem => meanOf_mem hI (by rintro rfl; exact hperiod.ne hl) hmem

/-- The RSI is a percentage. -/
theorem within_rsi (xs : Series) (hperiod : 0 < period) :
    Within (Set.Icc 0 100) (rsi xs period) := by
  have hpart : ∀ part : Option ℚ → ℚ, (∀ d, 0 ≤ part d) →
      Within (Set.Ici 0) (ewm (1 / period) true period ((diff 1 xs).map fun d => some (part d))) :=
    fun part hpart => within_wilder (convex_Ici 0) (within_map_some fun d _ => hpart d) hperiod
  refine ((hpart _ fun d => le_max_right _ _).safeDiv (K := Set.Ici 0)
    (hpart _ fun d => neg_nonneg.2 (min_le_right _ _))
    fun x hx y hy _ => Set.mem_Ici.2 (div_nonneg hx hy)).map fun rs hrs => ?_
  have hrs : (0 : ℚ) ≤ rs := hrs
  exact ⟨sub_nonneg.2 (div_le_self (by norm_num) (by linarith)),
    sub_le_self _ (by positivity)⟩

theorem mem_withPrevious {α β : Type*} {f : Option α → α → β} {prev : Option α} {xs : List α}
    {y : β} (h : y ∈ withPrevious f prev xs) : ∃ prev, ∃ x ∈ xs, f prev x = y := by
  induction xs generalizing prev with
  | nil => exact absurd h List.not_mem_nil
  | cons x xs ih =>
    rcases List.mem_cons.1 h with rfl | h
    · exact ⟨prev, x, by simp, rfl⟩
    · obtain ⟨p, z, hz, hfz⟩ := ih h
      exact ⟨p, z, by simp [hz], hfz⟩

/-- Distances are not negative. -/
theorem within_atr (h : ∀ c ∈ cs, c.low ≤ c.high) (hperiod : 0 < period) :
    Within (Set.Ici 0) (atr cs period) := by
  refine within_wilder (convex_Ici 0) (fun x hx => ?_) hperiod
  obtain ⟨prev, c, hc, hrange⟩ := mem_withPrevious hx
  rw [← Option.some.inj hrange]
  have hown := sub_nonneg.2 (h c hc)
  cases prev with
  | none => exact hown
  | some p => exact hown.trans (le_max_left _ _)

theorem within_directionalIndex {get : ℚ × ℚ → ℚ} (h : ∀ c ∈ cs, c.low ≤ c.high)
    (hget : ∀ prev c, 0 ≤ get (directionalMovement prev c)) (hperiod : 0 < period) :
    Within (Set.Ici 0) (directionalIndex get cs period) := by
  have hmoves : Within (Set.Ici 0)
      ((withPrevious directionalMovement none cs).map fun m => some (get m)) :=
    within_map_some fun m hm => by
      obtain ⟨prev, c, -, rfl⟩ := mem_withPrevious hm
      exact hget prev c
  exact ((within_ema (convex_Ici 0) hmoves hperiod).safeDiv (K := Set.Ici 0) (within_atr h hperiod)
    fun x hx y hy _ => Set.mem_Ici.2 (div_nonneg hx hy)).map
      fun x hx => Set.mem_Ici.2 (mul_nonneg (by norm_num) hx)

theorem directionalMovement_nonneg (prev : Option Candle) (c : Candle) :
    0 ≤ (directionalMovement prev c).1 ∧ 0 ≤ (directionalMovement prev c).2 := by
  cases prev with
  | none => exact ⟨le_rfl, le_rfl⟩
  | some p =>
    simp only [directionalMovement]
    constructor <;> split_ifs <;> simp

/-- The ADX is a percentage. -/
theorem within_adx (h : ∀ c ∈ cs, c.low ≤ c.high) (hperiod : 0 < period) :
    Within (Set.Icc 0 100) (adx cs period) := by
  have hplus := within_directionalIndex h (fun prev c => (directionalMovement_nonneg prev c).1)
    hperiod
  have hminus := within_directionalIndex h (fun prev c => (directionalMovement_nonneg prev c).2)
    hperiod
  rw [adx_eq]
  refine within_ema (convex_Icc 0 100) (fun x hx => ?_) hperiod
  obtain ⟨i, hi⟩ := List.mem_iff_getElem?.1 hx
  obtain ⟨spread, total, hspread, htotal, hne, rfl⟩ := getElem?_safeDiv.1 hi
  obtain ⟨p, m, hp, hm, rfl⟩ := getElem?_zipOp.1 hspread
  obtain ⟨p', m', hp', hm', rfl⟩ := getElem?_zipOp.1 htotal
  rw [hp, Option.some.injEq, Option.some.injEq] at hp'
  rw [hm, Option.some.injEq, Option.some.injEq] at hm'
  subst hp' hm'
  have hp₀ : 0 ≤ p := hplus p (List.mem_of_getElem? hp)
  have hm₀ : 0 ≤ m := hminus m (List.mem_of_getElem? hm)
  have hpos : 0 < p + m := lt_of_le_of_ne (add_nonneg hp₀ hm₀) hne.symm
  have hle : |p - m| ≤ p + m := abs_sub_le_iff.2 ⟨by linarith, by linarith⟩
  exact ⟨div_nonneg (by positivity) hpos.le,
    (div_le_iff₀ hpos).2 (mul_le_mul_of_nonneg_left hle (by norm_num))⟩

theorem within_rollingStd {np : Numpy} (hnp : ∀ x r, np.sqrt x = some r → 0 ≤ r) (w : ℕ)
    (xs : Series) : Within (Set.Ici 0) (rollingStd np w xs) := by
  intro r hr
  obtain ⟨x, -, hx⟩ := List.mem_map.1 hr
  obtain ⟨v, -, hv⟩ := Option.bind_eq_some_iff.1 hx
  exact hnp v r hv

end Indexes

/-! ## A row of the technical columns -/

/-- A candle of a market. -/
structure Traded (c : Candle) : Prop where
  low_pos : 0 < c.low
  low_le : c.low ≤ c.close
  le_high : c.close ≤ c.high
  volume : 0 ≤ c.volume

/-- The columns that are prices. -/
def priceColumns : List String :=
  ["ema_9", "ema_20", "ema_50", "ema_100", "ema_200", "sma_20", "sma_50", "bb_mid", "vwap"]

/-- The columns that are percentages. -/
def percentColumns : List String := ["rsi_14", "rsi_7", "adx_14"]

/-- The columns that are distances, or ratios of them. -/
def distanceColumns : List String := ["atr_14", "atr_7", "plus_di_14", "minus_di_14", "bb_width"]

/-- What a row of the columns promises: its prices are between the lowest low and the highest high
so far, and the bands are around their mean. -/
structure TechnicalRow (df : Frame) (i : ℕ) : Prop where
  price : ∀ name ∈ priceColumns, ∀ x ∈ df.entry i name, ∀ lowest highest,
    (∀ c ∈ df.candles.take (i + 1), lowest ≤ c.low ∧ c.high ≤ highest) →
      lowest ≤ x ∧ x ≤ highest
  percent : ∀ name ∈ percentColumns, ∀ x ∈ df.entry i name, 0 ≤ x ∧ x ≤ 100
  distance : ∀ name ∈ distanceColumns, ∀ x ∈ df.entry i name, 0 ≤ x
  bands : ∀ upper ∈ df.entry i "bb_upper", ∀ mid ∈ df.entry i "bb_mid",
    ∀ lower ∈ df.entry i "bb_lower", lower ≤ mid ∧ mid ≤ upper

section Rows

variable {np : Numpy} {cs : List Candle} {name : String} {i : ℕ} {x : ℚ}

theorem entry_eq_some {df : Frame} : df.entry i name = some x ↔
    ∃ column, df.column name = some column ∧ column[i]? = some (some x) := by
  rw [Frame.entry, Option.join_eq_some_iff, Option.bind_eq_some_iff]

/-- A column of prices is a column of means of prices. -/
theorem within_priceColumns {I : Set ℚ} (hI : Convex ℚ I)
    (h : ∀ c ∈ cs, c.low ∈ I ∧ c.close ∈ I ∧ c.high ∈ I) (hvolume : ∀ c ∈ cs, 0 ≤ c.volume)
    (hname : name ∈ priceColumns) {column : Series}
    (hcolumn : (computeTechnicalIndicators np { candles := cs }).column name = some column) :
    Within I column := by
  have hclose : Within I (Frame.prices { candles := cs } Candle.close) :=
    within_map_some fun c hc => (h c hc).2.1
  have htypical : ∀ c ∈ cs, (c.high + c.low + c.close) / 3 ∈ I := by
    intro c hc
    obtain ⟨hlow, hcl, hhigh⟩ := h c hc
    have hmean := meanOf_mem hI (l := [c.high, c.low, c.close]) (by simp) (by simp [hlow, hcl, hhigh])
    simpa [meanOf, ← add_assoc] using hmean
  simp only [priceColumns, List.mem_cons, List.not_mem_nil, or_false] at hname
  rcases hname with rfl | rfl | rfl | rfl | rfl | rfl | rfl | rfl | rfl
  all_goals cases hcolumn
  exacts [within_ema hI hclose (by decide), within_ema hI hclose (by decide),
    within_ema hI hclose (by decide), within_ema hI hclose (by decide),
    within_ema hI hclose (by decide), within_sma hI hclose (by decide),
    within_sma hI hclose (by decide), within_sma hI hclose (by decide),
    within_cumsum_ratio hI hvolume htypical]

theorem within_percentColumns (h : ∀ c ∈ cs, c.low ≤ c.high) (hname : name ∈ percentColumns)
    {column : Series}
    (hcolumn : (computeTechnicalIndicators np { candles := cs }).column name = some column) :
    Within (Set.Icc 0 100) column := by
  simp only [percentColumns, List.mem_cons, List.not_mem_nil, or_false] at hname
  rcases hname with rfl | rfl | rfl
  all_goals cases hcolumn
  exacts [within_rsi _ (by decide), within_rsi _ (by decide), within_adx h (by decide)]

/-- The bands of a row are around its mean. -/
theorem getElem?_bbUpper {xs : Series} :
    (bollingerBands np xs).upper[i]? = some (some x) ↔
      ∃ m s, (bollingerBands np xs).mid[i]? = some (some m) ∧
        (rollingStd np 20 xs)[i]? = some (some s) ∧ m + 2 * s = x := getElem?_zipOp

theorem getElem?_bbLower {xs : Series} :
    (bollingerBands np xs).lower[i]? = some (some x) ↔
      ∃ m s, (bollingerBands np xs).mid[i]? = some (some m) ∧
        (rollingStd np 20 xs)[i]? = some (some s) ∧ m - 2 * s = x := getElem?_zipOp

variable (hnp : ∀ x r, np.sqrt x = some r → 0 ≤ r)
include hnp

theorem within_bbWidth (h : ∀ c ∈ cs, 0 < c.close) :
    let bb := bollingerBands np (Frame.prices { candles := cs } Candle.close)
    Within (Set.Ici 0) (safeDiv (zipOp (· - ·) bb.upper bb.lower) bb.mid) := by
  intro bb x hx
  have hmid : Within (Set.Ioi 0) bb.mid :=
    within_sma (convex_Ioi 0) (within_map_some h) (by decide)
  obtain ⟨i, hi⟩ := List.mem_iff_getElem?.1 hx
  obtain ⟨width, mid, hwidth, hm, -, rfl⟩ := getElem?_safeDiv.1 hi
  obtain ⟨upper, lower, hupper, hlower, rfl⟩ := getElem?_zipOp.1 hwidth
  obtain ⟨m, s, hm₁, hs₁, rfl⟩ := getElem?_bbUpper.1 hupper
  obtain ⟨m', s', hm₂, hs₂, rfl⟩ := getElem?_bbLower.1 hlower
  rw [hm₁, Option.some.injEq, Option.some.injEq] at hm₂
  have hstd := within_rollingStd hnp 20 (Frame.prices { candles := cs } Candle.close)
  have hs := hstd s (List.mem_of_getElem? hs₁)
  have hs' := hstd s' (List.mem_of_getElem? hs₂)
  have hpos : 0 < mid := hmid mid (List.mem_of_getElem? hm)
  rw [Set.mem_Ici] at hs hs'
  exact div_nonneg (by rw [hm₂]; linarith) hpos.le

theorem within_distanceColumns (h : ∀ c ∈ cs, Traded c) (hname : name ∈ distanceColumns)
    {column : Series}
    (hcolumn : (computeTechnicalIndicators np { candles := cs }).column name = some column) :
    Within (Set.Ici 0) column := by
  have hrange : ∀ c ∈ cs, c.low ≤ c.high := fun c hc => (h c hc).low_le.trans (h c hc).le_high
  have hclose : ∀ c ∈ cs, 0 < c.close := fun c hc => (h c hc).low_pos.trans_le (h c hc).low_le
  simp only [distanceColumns, List.mem_cons, List.not_mem_nil, or_false] at hname
  rcases hname with rfl | rfl | rfl | rfl | rfl
  all_goals cases hcolumn
  exacts [within_atr hrange (by decide), within_atr hrange (by decide),
    within_directionalIndex hrange (fun p c => (directionalMovement_nonneg p c).1) (by decide),
    within_directionalIndex hrange (fun p c => (directionalMovement_nonneg p c).2) (by decide),
    within_bbWidth hnp hclose]

/-- **The ranges of the technical columns.** At each row of a frame of traded candles, the means are
between the lowest low and the highest high of the candles so far, the RSI and the ADX are
percentages, the ranges and the directional indexes are not negative, and the bands are around
their mean. -/
theorem technical_row (h : ∀ c ∈ cs, Traded c) (i : ℕ) :
    TechnicalRow (computeTechnicalIndicators np { candles := cs }) i := by
  have hentry : ∀ {name : String} {x : ℚ},
      (computeTechnicalIndicators np { candles := cs }).entry i name = some x →
      ∃ column, (computeTechnicalIndicators np { candles := cs }).column name = some column ∧
        some x ∈ column := by
    intro name x hx
    obtain ⟨column, hcolumn, hi⟩ := entry_eq_some.1 hx
    exact ⟨column, hcolumn, List.mem_of_getElem? hi⟩
  refine ⟨fun name hname x hx lowest highest hbounds => ?_, fun name hname x hx => ?_,
    fun name hname x hx => ?_, fun upper hupper mid hmid lower hlower => ?_⟩
  · have hrows : ∀ c ∈ cs.take (i + 1), Traded c := fun c hc => h c (List.mem_of_mem_take hc)
    obtain ⟨column, hcolumn, hi⟩ := entry_eq_some.1 hx
    have htake : (computeTechnicalIndicators np { candles := cs.take (i + 1) }).column name =
        some (column.take (i + 1)) := by
      rw [show ({ candles := cs.take (i + 1) } : Frame) = Frame.take (i + 1) { candles := cs } from
        rfl, computeTechnicalIndicators_take, column_take, hcolumn, Option.map_some]
    refine within_priceColumns (convex_Icc lowest highest) (fun c hc => ?_)
      (fun c hc => (hrows c hc).volume) hname htake x ?_
    · obtain ⟨hlow, hhigh⟩ := hbounds c hc
      have hc := hrows c hc
      exact ⟨⟨hlow, hc.low_le.trans (hc.le_high.trans hhigh)⟩,
        ⟨hlow.trans hc.low_le, hc.le_high.trans hhigh⟩,
        ⟨hlow.trans (hc.low_le.trans hc.le_high), hhigh⟩⟩
    · refine List.mem_of_getElem? (i := i) ?_
      rw [List.getElem?_take_of_lt (Nat.lt_succ_self i), hi]
  · obtain ⟨column, hcolumn, hmem⟩ := hentry hx
    exact within_percentColumns (fun c hc => (h c hc).low_le.trans (h c hc).le_high) hname hcolumn
      x hmem
  · obtain ⟨column, hcolumn, hmem⟩ := hentry hx
    exact within_distanceColumns hnp h hname hcolumn x hmem
  · obtain ⟨uppers, huppers, hu⟩ := entry_eq_some.1 hupper
    obtain ⟨mids, hmids, hm⟩ := entry_eq_some.1 hmid
    obtain ⟨lowers, hlowers, hl⟩ := entry_eq_some.1 hlower
    cases huppers
    cases hmids
    cases hlowers
    obtain ⟨m, s, hm₁, hs₁, rfl⟩ := getElem?_bbUpper.1 hu
    obtain ⟨m', s', hm₂, hs₂, rfl⟩ := getElem?_bbLower.1 hl
    rw [hm, Option.some.injEq, Option.some.injEq] at hm₁ hm₂
    have hstd := within_rollingStd hnp 20 (Frame.prices { candles := cs } Candle.close)
    have hs := hstd s (List.mem_of_getElem? hs₁)
    have hs' := hstd s' (List.mem_of_getElem? hs₂)
    rw [Set.mem_Ici] at hs hs'
    constructor <;> linarith

end Rows

/-- The roots of squares. -/
def exactRoots : Numpy where
  sqrt x := if IsSquare x then some (Rat.sqrt x) else none
  log x := if x = 1 then some 0 else none

def closedAt (close : ℚ) : Candle where
  timestamp := 0
  timeframe := "1h"
  open_ := 100
  high := close + 2
  low := 99
  close := close
  volume := 5

/-- A market that rests at 100. -/
def resting : List Candle := List.replicate 30 (closedAt 100)

/-- The means rest with the market, and its volume is at the typical price. -/
theorem technical_row_resting :
    TechnicalRow (computeTechnicalIndicators exactRoots { candles := resting }) 29 ∧
      (computeTechnicalIndicators exactRoots { candles := resting }).entry 29 "bb_upper" = some 100 ∧
      (computeTechnicalIndicators exactRoots { candles := resting }).entry 29 "vwap" =
        some (301 / 3) := by
  refine ⟨technical_row (fun x r hr => ?_) (fun c hc => ?_) 29, by decide +kernel,
    by decide +kernel⟩
  · simp only [exactRoots] at hr
    split_ifs at hr
    exact Option.some.inj hr ▸ Rat.sqrt_nonneg x
  · rw [List.eq_of_mem_replicate hc]
    constructor <;> norm_num [closedAt]

/-- **Kaufman's mean does not overshoot**: at each row it is between the lowest and the highest of
the closes so far. -/
theorem kama_row {cs : List Candle} {erPeriod : ℕ} {fast slow : ℚ} (hfast : 1 ≤ fast)
    (hslow : 1 ≤ slow) {i : ℕ} {x : ℚ} (hx : (kama cs erPeriod fast slow)[i]? = some (some x))
    {lowest highest : ℚ} (h : ∀ c ∈ cs.take (i + 1), lowest ≤ c.close ∧ c.close ≤ highest) :
    lowest ≤ x ∧ x ≤ highest := by
  refine kama_mem (convex_Icc lowest highest) h erPeriod hfast hslow x ?_
  rw [(causal_kama erPeriod fast slow).take]
  refine List.mem_of_getElem? (i := i) ?_
  rw [List.getElem?_take_of_lt (Nat.lt_succ_self i), hx]

/-- Closes that rise from 100 to 112. -/
def rising : List Candle := (List.range 13).map fun n => closedAt (100 + n)

/-- A price that only rises has the ratio one, and the mean moves by four ninths of the way. -/
theorem kama_row_rising : (kama rising 10 2 30)[11]? = some (some (110 + 4 / 9)) ∧
    (100 ≤ (110 + 4 / 9 : ℚ) ∧ (110 + 4 / 9 : ℚ) ≤ 111) := by
  have hkama : (kama rising 10 2 30)[11]? = some (some (110 + 4 / 9)) := by decide +kernel
  exact ⟨hkama, kama_row (by norm_num) (by norm_num) hkama (by decide +kernel)⟩

end AlphaOne.FeatureEngine
