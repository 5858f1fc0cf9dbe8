import AlphaOne.Foundations.Grouped
import AlphaOne.TelegramSignals.Numerals

/-!
# Amounts of money in messages

`services/common/currency.py` prints rupees with Indian grouping and USDT with Western grouping, both
to two decimals, and `_to_number` of the signal parser reads numbers with commas. What is printed
reads back:

* `format_inr_reads_back`: the digits after the `₹` are grouped as in India, and read as the
  magnitude rounded to paise.
* `usdt_level_read`: where a level in a message is what `format_usdt` prints, the parser captures the
  whole of it and reads the value rounded to cents.

Rounding may carry into the rupees (`paise == 100`), which comes to the same as rounding the number
of paise (`inrParts_eq`).
-/

namespace AlphaOne.Common

open Foundations TelegramSignals

/-! ## Formatting -/

/-- `str(n)` -/
def str (n : ℕ) : List Char := Nat.toDigits 10 n

/-- `_group_indian`. -/
def groupIndian (integerStr : List Char) : List Char :=
  if integerStr.length ≤ 3 then integerStr
  else
    let last3 := integerStr.drop (integerStr.length - 3)
    let rest := integerStr.take (integerStr.length - 3)
    List.intercalate [','] (groupsFromEnd 2 rest.length rest []) ++ ',' :: last3

/-- The sign of an amount; a plus only for a profit, where signs are shown. -/
def signOf (value : ℚ) (showSign : Bool) : List Char :=
  if value < 0 then ['-'] else if showSign ∧ 0 < value then ['+'] else []

/-- The rupees and the paise of a magnitude. -/
def inrParts (magnitude : ℚ) : ℕ × ℕ :=
  let rupees := ⌊magnitude⌋.toNat
  let paise := (roundHalfEven ((magnitude - rupees) * 100)).toNat
  if paise = 100 then (rupees + 1, 0) else (rupees, paise)

/-- `format_inr`. -/
def formatInr (value : Option ℚ) (showSign : Bool) : String :=
  match value with
  | none => "N/A"
  | some value =>
    let (rupees, paise) := inrParts |value|
    String.ofList (signOf value showSign ++ '₹' :: (groupIndian (str rupees) ++ '.' :: padded 2 paise))

/-- The format `,.2f` of a number that is not negative. -/
def grouped2f (x : ℚ) : List Char :=
  let cents := (roundHalfEven (x * 100)).toNat
  let whole := str (cents / 100)
  List.intercalate [','] (groupsFromEnd 3 whole.length whole []) ++ '.' :: padded 2 (cents % 100)

/-- `format_usdt`. -/
def formatUsdt (value : Option ℚ) (showSign : Bool) : String :=
  match value with
  | none => "N/A"
  | some value => String.ofList (signOf value showSign ++ (grouped2f |value| ++ " USDT".toList))

example : formatInr (some 1000000) false = "₹10,00,000.00" ∧
    formatUsdt (some 79700) false = "79,700.00 USDT" ∧
    formatInr (some (-1999999 / 1000)) true = "-₹2,000.00" := by decide +kernel

/-! ## Digits -/

variable {u : UnicodeData}

theorem str_digit {n : ℕ} {c : Char} (h : c ∈ str n) : c.isDigit = true :=
  Nat.isDigit_of_mem_toDigits (by decide) (by decide) h

theorem padded_digit {width n : ℕ} {c : Char} (h : c ∈ padded width n) : c.isDigit = true := by
  induction width generalizing n with
  | zero => cases h
  | succ width ih =>
    rcases List.mem_append.1 h with h | h
    · exact ih h
    · rw [List.mem_singleton.1 h]
      have hdigit : ∀ d < 10, (Nat.digitChar d).isDigit = true := by decide
      exact hdigit _ (Nat.mod_lt n (by decide))

theorem decimal?_digit {c : Char} (h : c.isDigit = true) :
    u.decimal? c = some (c.toNat - '0'.toNat) := by
  have hascii : c.toNat < 128 := by
    simp only [Char.isDigit, Bool.and_eq_true, decide_eq_true_eq] at h
    have hnine : c.toNat ≤ 57 := h.2
    omega
  rw [u.decimal?_ascii c hascii, if_pos h]

theorem isDigit_digit {c : Char} (h : c.isDigit = true) : u.isDigit c = true := by
  rw [UnicodeData.isDigit, decimal?_digit h]
  rfl

/-- What a text of digits stands for. -/
theorem digitsValue_digits {s : List Char} (h : ∀ c ∈ s, c.isDigit = true) :
    digitsValue u s = some (Nat.ofDigitChars 10 s 0) := by
  have hmap : ∀ s : List Char, (∀ c ∈ s, c.isDigit = true) →
      s.mapM u.decimal? = some (s.map fun c => c.toNat - '0'.toNat) := by
    intro s h
    induction s with
    | nil => rfl
    | cons c s ih =>
      rw [List.mapM_cons, decimal?_digit (h c (by simp)), ih fun c hc => h c (by simp [hc])]
      rfl
  rw [digitsValue, hmap s h, Option.map_some, List.foldl_map, Nat.ofDigitChars_eq_foldl]

theorem ofDigitChars_padded {width n : ℕ} (h : n < 10 ^ width) (init : ℕ) :
    Nat.ofDigitChars 10 (padded width n) init = init * 10 ^ width + n := by
  induction width generalizing n with
  | zero =>
    have : n = 0 := by simpa using h
    simp [padded, this]
  | succ width ih =>
    have hlast : (Nat.digitChar (n % 10)).toNat - '0'.toNat = n % 10 :=
      Nat.toNat_digitChar_sub_48_of_lt_ten (Nat.mod_lt n (by decide))
    rw [padded, Nat.ofDigitChars_append, ih (by rw [pow_succ] at h; omega), Nat.ofDigitChars_cons,
      Nat.ofDigitChars_nil, hlast, pow_succ]
    have hdiv := Nat.div_add_mod n 10
    ring_nf
    omega

/-- A number with two decimals, whose digits are grouped. -/
theorem toNumber_grouped {w : List Char} {whole cents : ℕ} (hw : w.filter (· ≠ ',') = str whole)
    (hcents : cents < 100) :
    toNumber u (some (w ++ '.' :: padded 2 cents)) =
      some (((whole * 100 + cents : ℕ) : ℚ) / 100) := by
  have hpoint : ∀ c ∈ str whole, decide (c ≠ '.') = true := fun c hc =>
    decide_eq_true fun heq => absurd (heq ▸ str_digit hc) (by decide)
  have hpadded : (padded 2 cents).filter (· ≠ ',') = padded 2 cents :=
    List.filter_eq_self.2 fun c hc =>
      decide_eq_true fun heq => absurd (heq ▸ padded_digit hc) (by decide)
  have htake : (str whole ++ '.' :: padded 2 cents).takeWhile (· ≠ '.') = str whole :=
    takeWhile_append_stop hpoint (by simp)
  have hdrop : (str whole ++ '.' :: padded 2 cents).dropWhile (· ≠ '.') =
      '.' :: padded 2 cents := by
    rw [List.dropWhile_append_of_pos hpoint, List.dropWhile_cons_of_neg (by simp)]
  have hdigits : ∀ c ∈ str whole ++ padded 2 cents, c.isDigit = true := by
    intro c hc
    rcases List.mem_append.1 hc with hc | hc
    · exact str_digit hc
    · exact padded_digit hc
  have hvalue : Nat.ofDigitChars 10 (str whole ++ padded 2 cents) 0 = whole * 100 + cents := by
    rw [Nat.ofDigitChars_append, str, Nat.ofDigitChars_toDigits (by decide) (by decide),
      ofDigitChars_padded hcents]
    norm_num
  rw [toNumber, Option.bind_some, List.filter_append, hw, List.filter_cons_of_pos (by decide),
    hpadded, float?, htake, hdrop, List.drop_one, List.tail_cons,
    if_neg (by simp [padded]), digitsValue_digits hdigits, hvalue, length_padded]
  norm_num

/-! ## Rounding -/

/-- The paise of a magnitude are those of its rounding. -/
theorem inrParts_eq {m : ℚ} (hm : 0 ≤ m) :
    let cents := (roundHalfEven (m * 100)).toNat
    inrParts m = (cents / 100, cents % 100) := by
  intro cents
  obtain ⟨r, hr⟩ := Int.eq_ofNat_of_zero_le (Int.floor_nonneg.2 hm)
  have hfloor := Int.floor_le m
  have hceil := Int.lt_floor_add_one m
  rw [hr] at hfloor hceil
  push_cast at hfloor hceil
  have hshift : roundHalfEven (m * 100) = roundHalfEven ((m - r) * 100) + 100 * r := by
    have heven := roundHalfEven_add_even ((m - r) * 100) (50 * r)
    rw [show m * 100 = (m - r) * 100 + 2 * ((50 * r : ℤ) : ℚ) by push_cast; ring, heven]
    ring
  have hlow : 0 ≤ roundHalfEven ((m - r) * 100) := by
    have hmono := roundHalfEven_mono (show ((0 : ℤ) : ℚ) ≤ (m - r) * 100 by
      push_cast
      linarith)
    rwa [roundHalfEven_intCast] at hmono
  have hhigh : roundHalfEven ((m - r) * 100) ≤ 100 := by
    have hmono := roundHalfEven_mono (show (m - r) * 100 ≤ ((100 : ℤ) : ℚ) by
      push_cast
      linarith)
    rwa [roundHalfEven_intCast] at hmono
  have hcents : cents = (roundHalfEven ((m - r) * 100)).toNat + 100 * r := by
    simp only [cents, hshift]
    omega
  unfold inrParts
  simp only [hr, Int.toNat_natCast]
  rw [hcents]
  split
  · rename_i hcarry
    rw [hcarry]
    simp only [Prod.mk.injEq]
    omega
  · simp only [Prod.mk.injEq]
    omega

/-- What the number of cents stands for. -/
theorem cents_value {m : ℚ} (hm : 0 ≤ m) :
    (((roundHalfEven (m * 100)).toNat : ℕ) : ℚ) / 100 = roundTo m 2 := by
  have hnonneg : 0 ≤ roundHalfEven (m * 100) := by
    have hmono := roundHalfEven_mono (show ((0 : ℤ) : ℚ) ≤ m * 100 by
      push_cast
      positivity)
    rwa [roundHalfEven_intCast] at hmono
  rw [roundTo, show (10 : ℚ) ^ 2 = 100 by norm_num]
  congr 1
  exact_mod_cast Int.toNat_of_nonneg hnonneg

/-! ## What is printed reads back -/

theorem comma_notMem {s : List Char} (h : ∀ c ∈ s, c.isDigit = true) : ',' ∉ s :=
  fun hmem => absurd (h _ hmem) (by decide)

/-- Groups of digits have digits only. -/
theorem digits_of_groups {k fuel : ℕ} {s : List Char} (hs : ∀ c ∈ s, c.isDigit = true) :
    ∀ g ∈ groupsFromEnd k fuel s [], ∀ c ∈ g, c.isDigit = true := by
  intro g hg c hc
  refine hs c ?_
  have hflatten := flatten_groupsFromEnd k fuel s []
  rw [List.flatten_nil, List.append_nil] at hflatten
  exact hflatten ▸ List.mem_flatten.2 ⟨g, hg, hc⟩

theorem filter_groups {k fuel : ℕ} {s : List Char} (hs : ∀ c ∈ s, c.isDigit = true) :
    (List.intercalate [','] (groupsFromEnd k fuel s [])).filter (· ≠ ',') = s := by
  rw [filter_intercalate fun g hg => comma_notMem (digits_of_groups hs g hg),
    flatten_groupsFromEnd, List.flatten_nil, List.append_nil]

theorem digit_or_comma {k fuel : ℕ} {s : List Char} (hs : ∀ c ∈ s, c.isDigit = true) {c : Char}
    (hc : c ∈ List.intercalate [','] (groupsFromEnd k fuel s [])) : c.isDigit = true ∨ c = ',' := by
  by_cases hcomma : c = ','
  · exact .inr hcomma
  · have hdigit : c ∈ (List.intercalate [','] (groupsFromEnd k fuel s [])).filter (· ≠ ',') :=
      List.mem_filter.2 ⟨hc, decide_eq_true hcomma⟩
    rw [filter_groups hs] at hdigit
    exact .inl (hs c hdigit)

theorem filter_groupIndian {s : List Char} (hs : ∀ c ∈ s, c.isDigit = true) :
    (groupIndian s).filter (· ≠ ',') = s := by
  have hkeep : ∀ t : List Char, t ⊆ s → t.filter (· ≠ ',') = t := fun t ht =>
    List.filter_eq_self.2 fun c hc =>
      decide_eq_true fun heq => absurd (heq ▸ hs c (ht hc)) (by decide)
  unfold groupIndian
  split
  · exact hkeep s (List.Subset.refl s)
  · rw [List.filter_append, filter_groups fun c hc => hs c (List.mem_of_mem_take hc),
      List.filter_cons_of_neg (by simp), hkeep _ (List.drop_subset _ _), List.take_append_drop]

/-- Grouping as in India: three digits at the end, and pairs before them. -/
inductive IndianGrouped : List Char → Prop
  | short {s : List Char} (hs : s.length ≤ 3) (hdigit : ∀ c ∈ s, c.isDigit = true) :
      IndianGrouped s
  | long {first last : List Char} {pairs : List (List Char)} (hfirst₀ : 0 < first.length)
      (hfirst : first.length ≤ 2) (hpairs : ∀ g ∈ pairs, g.length = 2) (hlast : last.length = 3)
      (hdigit : ∀ g ∈ first :: last :: pairs, ∀ c ∈ g, c.isDigit = true) :
      IndianGrouped (first ++ pairs.flatMap (',' :: ·) ++ ',' :: last)

theorem indianGrouped_groupIndian {s : List Char} (hs : ∀ c ∈ s, c.isDigit = true) :
    IndianGrouped (groupIndian s) := by
  unfold groupIndian
  split
  · exact .short ‹_› hs
  · rename_i hlong
    have hrest : s.take (s.length - 3) ≠ [] := by
      rw [← List.length_pos_iff, List.length_take]
      omega
    obtain ⟨first, pairs, hgroups, h₀, h₁, hpairs⟩ :=
      groupsFromEnd_shape (k := 2) (by decide) le_rfl hrest []
    have hdigits : ∀ g ∈ groupsFromEnd 2 (s.take (s.length - 3)).length (s.take (s.length - 3)) [],
        ∀ c ∈ g, c.isDigit = true := digits_of_groups fun c hc => hs c (List.mem_of_mem_take hc)
    rw [List.append_nil] at hgroups
    dsimp only
    rw [hgroups, intercalate_cons]
    rw [hgroups] at hdigits
    refine .long h₀ h₁ hpairs (by rw [List.length_drop]; omega) fun g hg => ?_
    simp only [List.mem_cons] at hg
    rcases hg with rfl | rfl | hg
    · exact hdigits g (by simp)
    · exact fun c hc => hs c (List.mem_of_mem_drop hc)
    · exact hdigits g (by simp [hg])

/-- **Rupees read back.** After its sign and the `₹` an amount is grouped as in India, and reads as
its magnitude, rounded to paise: what is lost is at most half a paisa. -/
theorem format_inr_reads_back (u : UnicodeData) (value : ℚ) (showSign : Bool) :
    ∃ whole paise, (formatInr (some value) showSign).toList =
        signOf value showSign ++ '₹' :: (whole ++ '.' :: paise) ∧
      IndianGrouped whole ∧ paise.length = 2 ∧
      toNumber u (some (whole ++ '.' :: paise)) = some (roundTo (abs value) 2) ∧
      |roundTo (abs value) 2 - abs value| ≤ 1 / 200 := by
  have hparts := inrParts_eq (abs_nonneg value)
  refine ⟨groupIndian (str (inrParts |value|).1), padded 2 (inrParts |value|).2, ?_,
    indianGrouped_groupIndian fun c hc => str_digit hc, length_padded .., ?_, ?_⟩
  · rw [formatInr, String.toList_ofList]
  · dsimp only at hparts
    rw [toNumber_grouped (filter_groupIndian fun c hc => str_digit hc)
      (by rw [hparts]; exact Nat.mod_lt _ (by decide)), hparts, ← cents_value (abs_nonneg value),
      Nat.div_add_mod']
  · exact (abs_roundTo_sub_le |value| 2).trans (by norm_num)

/-- What `format_usdt` prints begins with digits and commas, a point and two digits. -/
theorem toNumber_grouped2f {x : ℚ} (hx : 0 ≤ x) :
    toNumber u (some (grouped2f x)) = some (roundTo x 2) := by
  unfold grouped2f
  dsimp only
  rw [toNumber_grouped (filter_groups fun c hc => str_digit hc) (Nat.mod_lt _ (by decide)),
    ← cents_value hx, Nat.div_add_mod']

/-- Two ways to cut a text after a numeral with decimals. -/
theorem captured_eq {w after whole cents rest : List Char} (hw : Captured u w after)
    (hwhole : ∀ c ∈ whole, (u.isDigit c || c == ',') = true)
    (hcents : ∀ c ∈ cents, u.isDigit c = true) (hrest : rest.head?.any u.isDigit = false)
    (heq : w ++ after = whole ++ '.' :: cents ++ rest) : w = whole ++ '.' :: cents := by
  have hstop : ∀ t : List Char,
      (whole ++ '.' :: t).takeWhile (fun c => u.isDigit c || c == ',') = whole :=
    fun t => takeWhile_append_stop hwhole (by simp)
  rw [List.append_assoc] at heq
  cases hw with
  | whole hw hafter =>
    have hafter' : after.head?.any (fun c => u.isDigit c || c == ',') = false := by
      cases after with
      | nil => rfl
      | cons c after =>
        simp only [List.head?_cons, Option.any_some, isNumeric, isSeparator] at hafter ⊢
        simp only [Bool.or_eq_false_iff] at hafter ⊢
        exact ⟨hafter.1, hafter.2.1⟩
    have htake := congrArg (List.takeWhile fun c => u.isDigit c || c == ',') heq
    rw [takeWhile_append_stop hw hafter', List.cons_append, hstop] at htake
    subst htake
    rw [List.append_cancel_left_eq] at heq
    rw [heq] at hafter
    simp [isNumeric, isSeparator] at hafter
  | @decimals w d _ hw hd hafter =>
    rw [List.append_assoc, List.cons_append] at heq
    have htake := congrArg (List.takeWhile fun c => u.isDigit c || c == ',') heq
    rw [takeWhile_append_stop hw (by simp), List.cons_append, hstop] at htake
    subst htake
    rw [List.append_cancel_left_eq, List.cons_append, List.cons.injEq] at heq
    have htail := congrArg (List.takeWhile u.isDigit) heq.2
    rw [takeWhile_append_stop hd hafter, takeWhile_append_stop hcents hrest] at htail
    rw [htail]

/-- **A level in USDT reads back.** Where a pattern of a level finds a price in a message and the
price begins what `format_usdt` prints, the pattern captures the whole number that is printed, up to
the unit, and the parser reads the value, rounded to cents. -/
theorem usdt_level_read {labels : List Regex} {text post : List Char} {m : Regex.Match}
    (hm : (labelled u labels).search text = some m) {value : ℚ} (hvalue : 0 ≤ value)
    (hprice : m.group.getD [] ++ m.stop.after =
      (formatUsdt (some value) false).toList ++ post) :
    ∃ number, (formatUsdt (some value) false).toList = number ++ " USDT".toList ∧
      m.group = some number ∧ toNumber u m.group = some (roundTo value 2) := by
  obtain ⟨-, p, w, hgroup, hw, -, -, -⟩ := captured_of_search hm
  have hprinted : (formatUsdt (some value) false).toList = grouped2f value ++ " USDT".toList := by
    have hsign : signOf value false = [] := by simp [signOf, hvalue.not_gt]
    rw [formatUsdt, String.toList_ofList, hsign, List.nil_append, abs_of_nonneg hvalue]
  rw [hgroup, Option.getD_some, hprinted, List.append_assoc] at hprice
  have hcaptured : w = grouped2f value := by
    refine captured_eq hw (fun c hc => ?_) (fun c hc => isDigit_digit (padded_digit hc)) ?_ hprice
    · rcases digit_or_comma (fun c hc => str_digit hc) hc with hdigit | rfl
      · rw [isDigit_digit hdigit, Bool.true_or]
      · simp
    · have hspace : u.isDigit ' ' = false := by
        rw [UnicodeData.isDigit, u.decimal?_ascii ' ' (by decide)]
        rfl
      exact hspace
  exact ⟨grouped2f value, hprinted, by rw [hgroup, hcaptured],
    by rw [hgroup, hcaptured, toNumber_grouped2f hvalue]⟩

/-- An entry as the alerts print it. -/
def entryAlert : List Char := "Entry:\n79,712.50 USDT\n≈ ₹66,64,000.00".toList

/-- What the pattern of the entry finds in it. -/
def entryMatch : Regex.Match where
  start := ⟨[], entryAlert⟩
  stop := ⟨"Entry:\n79,712.50".toList.reverse, " USDT\n≈ ₹66,64,000.00".toList⟩
  group := some "79,712.50".toList

theorem usdt_level_read_entry :
    ∃ number, (formatUsdt (some (79712499 / 1000)) false).toList = number ++ " USDT".toList ∧
      (entryPattern asciiData).capture entryAlert = some number ∧
      toNumber asciiData ((entryPattern asciiData).capture entryAlert) =
        some (roundTo (79712499 / 1000) 2) := by
  have hm : (labelled asciiData [keyword "Entry"]).search entryAlert = some entryMatch := by
    decide +kernel
  have hprice : entryMatch.group.getD [] ++ entryMatch.stop.after =
      (formatUsdt (some (79712499 / 1000)) false).toList ++ "\n≈ ₹66,64,000.00".toList := by
    decide +kernel
  have hcapture : (entryPattern asciiData).capture entryAlert = entryMatch.group :=
    congrArg (Option.bind · Regex.Match.group) hm
  rw [hcapture]
  exact usdt_level_read hm (by norm_num) hprice

end AlphaOne.Common
