import AlphaOne.Foundations.Greedy
import AlphaOne.TelegramSignals.Parser
import Mathlib.Data.List.TakeWhile

/-!
# The prices that are written

The patterns of the levels know digits, commas and points, but not how a number is made of them: the
digit of a label is not kept apart from the price after a comma, and what follows the decimals of a
price may go on with it.

* `level_written`: what a pattern reads from its first digit on is right, if a complete numeral
  begins there.
* `reads_written_iff`: of which messages a valid signal reads the prices that are written.
-/

namespace AlphaOne.TelegramSignals

open Foundations

/-! ## Numerals -/

/-- The commas and the points of numerals. -/
def isSeparator (c : Char) : Bool := c == ',' || c == '.'

/-- A text without the commas and points at its end. -/
def trimEnd (w : List Char) : List Char := (w.reverse.dropWhile isSeparator).reverse

section

variable (u : UnicodeData)

/-- Groups of three digits, each after a comma. -/
def thousands : List Char → Bool
  | [] => true
  | c :: x :: y :: z :: w => c == ',' && u.isDigit x && u.isDigit y && u.isDigit z && thousands w
  | _ => false

/-- Digits with optional thousands separators and decimals. -/
def isNumeral (w : List Char) : Bool :=
  let whole := w.takeWhile (· ≠ '.')
  let fraction := w.dropWhile (· ≠ '.')
  whole.head?.any u.isDigit && thousands u (whole.dropWhile u.isDigit) &&
    (fraction == [] || fraction.drop 1 != [] && (fraction.drop 1).all u.isDigit)

/-- What numbers are made of. -/
def isNumeric (c : Char) : Bool := u.isDigit c || isSeparator c

/-- The digits, commas and points that a text begins with, without the commas and points at their
end. -/
def numeralAt (after : List Char) : List Char := trimEnd (after.takeWhile (isNumeric u))

/-- A text, the nearest character first, ends within a number: with a point, or with a digit and
commas and points after it. -/
def endsNumber (before : List Char) : Bool :=
  before.head? == some '.' || (before.dropWhile isSeparator).head?.any u.isDigit

/-- A complete numeral begins at a place. -/
def completeAt (p : Place) : Bool := isNumeral u (numeralAt u p.after) && !endsNumber u p.before

/-! ## Levels -/

/-- One of the labels, and what may stand between it and its level. -/
def lead (labels : List Regex) : List Regex :=
  [u.border, .oneOf labels, u.border, spaces, .opt (anyOf ":-"), spaces, .opt (anyOf "$")]

/-- `[\d,]+\.?\d*` -/
def pricePattern : Regex :=
  .concat [.many (fun c => u.isDigit c || c == ',') 1 none, .opt (anyOf "."),
    .many u.isDigit 0 none]

/-- The level `x` is written at the place `q`: a complete numeral with this value follows one of the
labels there, after commas if any. -/
def WrittenAt (labels : List Regex) (text : List Char) (x : ℚ) (q : Place) : Prop :=
  (∃ p ∈ Place.onwards [] text,
    (Regex.concat (lead u labels ++ [.many (· == ',') 0 none])).Reaches p q) ∧
  completeAt u q = true ∧ toNumber u (some (numeralAt u q.after)) = some x

/-- The place of the first digit that a match has captured. -/
def firstDigit (m : Regex.Match) : Place :=
  let captured := m.group.getD []
  let before := captured.takeWhile fun c => !u.isDigit c
  { before := before.reverse ++ m.stop.before.drop captured.length
    after := captured.dropWhile (fun c => !u.isDigit c) ++ m.stop.after }

/-- The first digit of a level that is captured begins a complete numeral. -/
def Legible (labels : List Regex) (text : List Char) : Prop :=
  ∀ m ∈ (labelled u labels).search text, (toNumber u m.group).isSome →
    completeAt u (firstDigit u m) = true

/-- The value of what is captured happens to be written at another place. -/
def WrittenElsewhere (labels : List Regex) (text : List Char) : Prop :=
  ∃ m ∈ (labelled u labels).search text, ∃ x ∈ toNumber u m.group, ∃ q ≠ firstDigit u m,
    WrittenAt u labels text x q

end

inductive Level
  | entryPrice
  | stopLoss
  | takeProfit1
  | takeProfit2
  | takeProfit3
  deriving DecidableEq, Repr

/-- The labels of a level in a message. A bare `TP` is one only if no target is numbered. -/
def Level.labels (u : UnicodeData) (text : List Char) : Level → List Regex
  | .entryPrice => [keyword "Entry"]
  | .stopLoss =>
    [keyword "SL", .concat [keyword "Stop", spaces, keyword "Loss"], keyword "Stoploss"]
  | .takeProfit1 =>
    if ((tp1Pattern u).search text).isNone ∧ ((tp2Pattern u).search text).isNone ∧
        ((tp3Pattern u).search text).isNone then [keyword "TP"]
    else targetLabels "1"
  | .takeProfit2 => targetLabels "2"
  | .takeProfit3 => targetLabels "3"

def Level.value (parsed : ParsedExternalSignal) : Level → Option ℚ
  | .entryPrice => parsed.entryPrice
  | .stopLoss => parsed.stopLoss
  | .takeProfit1 => parsed.takeProfit1
  | .takeProfit2 => parsed.takeProfit2
  | .takeProfit3 => parsed.takeProfit3

/-- A signal reads the prices that are written: its symbol is supported, the stop and the targets
are on the correct sides of the entry, and every level that is set is written after its label. -/
structure ReadsWritten (u : UnicodeData) (text : List Char) (supportedSymbols : List String)
    (parsed : ParsedExternalSignal) : Prop where
  supported : ∃ symbol ∈ parsed.symbol, symbol ∈ supportedSymbols
  sides : ∃ direction ∈ parsed.direction, ∃ entry ∈ parsed.entryPrice, ∃ sl ∈ parsed.stopLoss,
    validStructure direction entry sl
      ([parsed.takeProfit1, parsed.takeProfit2, parsed.takeProfit3].filterMap id) = true
  levels : ∀ level : Level, ∀ x ∈ level.value parsed,
    ∃ q, WrittenAt u (level.labels u text) text x q

/-! ## Digits, commas and points -/

variable {u : UnicodeData}

@[simp] theorem isDigit_comma : u.isDigit ',' = false := by
  rw [UnicodeData.isDigit, u.decimal?_ascii ',' (by decide)]
  rfl

@[simp] theorem isDigit_point : u.isDigit '.' = false := by
  rw [UnicodeData.isDigit, u.decimal?_ascii '.' (by decide)]
  rfl

theorem isDigit_of_separator {c : Char} (h : isSeparator c = true) : u.isDigit c = false := by
  rw [isSeparator, Bool.or_eq_true, beq_iff_eq, beq_iff_eq] at h
  rcases h with rfl | rfl
  · exact isDigit_comma
  · exact isDigit_point

theorem trimEnd_append {w rest : List Char} (h : ∀ c ∈ rest, isSeparator c = true) :
    trimEnd (w ++ rest) = trimEnd w := by
  rw [trimEnd, List.reverse_append, List.dropWhile_append_of_pos, trimEnd]
  exact fun c hc => h c (List.mem_reverse.1 hc)

/-- What is cut off at the end. -/
theorem exists_trimEnd_append (w : List Char) :
    ∃ rest, w = trimEnd w ++ rest ∧ ∀ c ∈ rest, isSeparator c = true := by
  refine ⟨(w.reverse.takeWhile isSeparator).reverse, ?_, fun c hc => ?_⟩
  · rw [trimEnd, ← List.reverse_append, List.takeWhile_append_dropWhile, List.reverse_reverse]
  · exact List.mem_takeWhile_imp (List.mem_reverse.1 hc)

/-- Nothing before another character is cut off. -/
theorem trimEnd_append_cons {c : Char} (w rest : List Char) (hc : isSeparator c = false) :
    trimEnd (w ++ c :: rest) = w ++ c :: trimEnd rest := by
  have hkeep : (c :: w.reverse).dropWhile isSeparator = c :: w.reverse := by
    rw [List.dropWhile_cons_of_neg (by simp [hc])]
  rw [trimEnd, List.reverse_append, List.reverse_cons, List.append_assoc, List.singleton_append,
    List.dropWhile_append, hkeep, trimEnd]
  split_ifs with hempty
  · rw [List.isEmpty_iff.1 hempty]
    simp
  · simp

/-- A run ends before the first character that does not belong to it. -/
theorem takeWhile_append_stop {test : Char → Bool} {w after : List Char}
    (h : ∀ c ∈ w, test c = true) (hafter : after.head?.any test = false) :
    (w ++ after).takeWhile test = w := by
  rw [List.takeWhile_append_of_pos h]
  cases after with
  | nil => simp
  | cons c after => rw [List.takeWhile_cons_of_neg (by simpa using hafter), List.append_nil]

theorem filter_commas {w : List Char} (h : ∀ c ∈ w, c = ',') : w.filter (· ≠ ',') = [] :=
  List.filter_eq_nil_iff.2 fun c hc => by simp [h c hc]

theorem ne_point {w : List Char} (h : '.' ∉ w) : ∀ c ∈ w, decide (c ≠ '.') = true := by
  intro c hc
  rw [decide_eq_true_iff]
  rintro rfl
  exact h hc

/-- A point at the end does not count. -/
theorem float?_append_point {w : List Char} (h : '.' ∉ w) : float? u (w ++ ['.']) = float? u w := by
  have hne := ne_point h
  have hwhole : w.takeWhile (· ≠ '.') = w := List.takeWhile_eq_self_iff.2 hne
  have hnone : w.dropWhile (· ≠ '.') = [] := List.dropWhile_eq_nil_iff.2 hne
  rw [float?, float?, List.takeWhile_append_of_pos hne, List.dropWhile_append_of_pos hne, hwhole,
    hnone]
  simp

/-! ## What is captured -/

/-- What the pattern of a price captures, and what comes after it: digits and commas, and if a point
follows them, the point and the digits after it. -/
inductive Captured (u : UnicodeData) : List Char → List Char → Prop
  | whole {w after : List Char} (hw : ∀ c ∈ w, (u.isDigit c || c == ',') = true)
      (hafter : after.head?.any (isNumeric u) = false) : Captured u w after
  | decimals {w d after : List Char} (hw : ∀ c ∈ w, (u.isDigit c || c == ',') = true)
      (hd : ∀ c ∈ d, u.isDigit c = true) (hafter : after.head?.any u.isDigit = false) :
      Captured u (w ++ '.' :: d) after

theorem head?_dropWhile_any (test : Char → Bool) (w : List Char) :
    (w.dropWhile test).head?.any test = false := by
  have h := List.head?_dropWhile_not test w
  cases hhead : (w.dropWhile test).head? with
  | none => rfl
  | some c =>
    rw [hhead] at h
    exact h

/-- The match of a price that is tried first. -/
theorem captured_of_first {p q : Place} {g : Option (List Char)}
    (h : (pricePattern u).First p q g) :
    ∃ w, Captured u w q.after ∧ p.after = w ++ q.after ∧ q.before = w.reverse ++ p.before := by
  have htail : (Regex.concat [.opt (anyOf "."), .many u.isDigit 0 none]).Total :=
    (Regex.total_opt _).seq (Regex.total_many _)
  obtain ⟨p₁, g₁, g₂, hmany, hrest⟩ := Regex.First.seq_total htail h
  obtain ⟨p₂, g₃, g₄, hopt, hdigits⟩ := Regex.First.seq_total (Regex.total_many _) hrest
  obtain ⟨-, rfl⟩ := hmany.many
  obtain ⟨-, rfl⟩ := hdigits.many
  set test : Char → Bool := fun c => u.isDigit c || c == ','
  have hw : ∀ c ∈ p.after.takeWhile test, test c = true := fun c hc => List.mem_takeWhile_imp hc
  have hstop := head?_dropWhile_any test p.after
  have hsplit : p.after = p.after.takeWhile test ++ p.after.dropWhile test :=
    List.takeWhile_append_dropWhile.symm
  rcases hopt.opt_char with ⟨c, after, hc, hafter, rfl⟩ | ⟨hpoint, rfl⟩
  · obtain rfl : c = '.' := by simpa using hc
    dsimp only at hafter ⊢
    refine ⟨p.after.takeWhile test ++ '.' :: after.takeWhile u.isDigit,
      .decimals hw (fun c hc => List.mem_takeWhile_imp hc) (head?_dropWhile_any _ _), ?_, ?_⟩
    · refine hsplit.trans ?_
      rw [hafter, List.append_assoc, List.cons_append, List.takeWhile_append_dropWhile]
    · simp
  · dsimp only at hpoint ⊢
    have hnone : (p.after.dropWhile test).head?.any (isNumeric u) = false := by
      cases hhead : (p.after.dropWhile test).head? with
      | none => rfl
      | some c =>
        rw [hhead] at hstop hpoint
        obtain ⟨hdigit, hcomma⟩ := Bool.or_eq_false_iff.1 hstop
        have hpoint : (c == '.') = false := by simpa using hpoint
        rw [Option.any_some, isNumeric, isSeparator, hdigit, hcomma, hpoint]
        rfl
    have hdigits : (p.after.dropWhile test).takeWhile u.isDigit = [] ∧
        (p.after.dropWhile test).dropWhile u.isDigit = p.after.dropWhile test := by
      cases hrest : p.after.dropWhile test with
      | nil => exact ⟨rfl, rfl⟩
      | cons c rest =>
        rw [hrest] at hstop
        obtain ⟨hdigit, -⟩ := Bool.or_eq_false_iff.1 hstop
        simp [hdigit]
    rw [hdigits.1, hdigits.2]
    exact ⟨_, .whole hw hnone, hsplit, by simp⟩

/-! ## What a numeral is worth -/

theorem eq_comma {w : List Char} (hw : ∀ c ∈ w, (u.isDigit c || c == ',') = true) {c : Char}
    (hc : c ∈ w) (hdigit : u.isDigit c = false) : c = ',' := by
  simpa [hdigit] using hw c hc

/-- The commas at the end do not count. -/
theorem filter_trimEnd {w : List Char} (hw : ∀ c ∈ w, (u.isDigit c || c == ',') = true) :
    (trimEnd w).filter (· ≠ ',') = w.filter (· ≠ ',') := by
  obtain ⟨rest, hrest, hseparators⟩ := exists_trimEnd_append w
  have hcommas : ∀ c ∈ rest, c = ',' := fun c hc =>
    eq_comma hw (by rw [hrest]; exact List.mem_append_right _ hc)
      (isDigit_of_separator (hseparators c hc))
  conv_rhs => rw [hrest, List.filter_append, filter_commas hcommas, List.append_nil]

theorem point_notMem {w : List Char} (hw : ∀ c ∈ w, (u.isDigit c || c == ',') = true) :
    '.' ∉ w := by
  intro hmem
  exact absurd (eq_comma hw hmem isDigit_point) (by decide)

/-- After its point a numeral has digits only. -/
theorem fraction_digits {w d : List Char} (hw : '.' ∉ w) (h : isNumeral u (w ++ '.' :: d) = true) :
    ∀ c ∈ d, u.isDigit c = true := by
  have hfraction : (w ++ '.' :: d).dropWhile (· ≠ '.') = '.' :: d := by
    rw [List.dropWhile_append_of_pos (ne_point hw), List.dropWhile_cons_of_neg (by simp)]
  rw [isNumeral, hfraction] at h
  simp only [Bool.and_eq_true, Bool.or_eq_true, List.drop_succ_cons, List.drop_zero] at h
  rcases h.2 with hnil | ⟨-, hall⟩
  · cases hnil
  · exact List.all_eq_true.1 hall

theorem numeric_of_captured {w : List Char} (hw : ∀ c ∈ w, (u.isDigit c || c == ',') = true) :
    ∀ c ∈ w, isNumeric u c = true := by
  intro c hc
  rcases (Bool.or_eq_true _ _).mp (hw c hc) with hdigit | hcomma
  · simp [isNumeric, hdigit]
  · simp [isNumeric, isSeparator, hcomma]

theorem isNumeric_decimals {w d : List Char} (hw : ∀ c ∈ w, (u.isDigit c || c == ',') = true)
    (hd : ∀ c ∈ d, u.isDigit c = true) : ∀ c ∈ w ++ '.' :: d, isNumeric u c = true := by
  intro c hc
  rcases List.mem_append.1 hc with hc | hc
  · exact numeric_of_captured hw c hc
  · rcases List.mem_cons.1 hc with rfl | hc
    · simp [isNumeric, isSeparator]
    · simp [isNumeric, hd c hc]

/-- After the decimals of a numeral there are only commas and points, if no digit comes first. -/
theorem separators_after {w d t : List Char} (hw : '.' ∉ w)
    (ht : t.head?.any u.isDigit = false)
    (h : isNumeral u (trimEnd (w ++ '.' :: d ++ t)) = true) : ∀ c ∈ t, isSeparator c = true := by
  by_contra hnot
  obtain ⟨c, hc, hdigit⟩ : ∃ c ∈ t, isSeparator c = false := by simpa using hnot
  obtain ⟨t₁, t₂, rfl⟩ := List.append_of_mem hc
  have hkeep : trimEnd (w ++ '.' :: d ++ (t₁ ++ c :: t₂)) =
      w ++ '.' :: (d ++ (t₁ ++ c :: trimEnd t₂)) := by
    rw [← List.append_assoc, trimEnd_append_cons _ _ hdigit]
    simp
  rw [hkeep] at h
  have hdigits := fraction_digits hw h
  -- what comes right after the decimals would be a digit
  cases t₁ with
  | nil =>
    have hfirst := hdigits c (by simp)
    rw [List.nil_append, List.head?_cons, Option.any_some, hfirst] at ht
    cases ht
  | cons z t₁ =>
    have hfirst := hdigits z (by simp)
    rw [List.cons_append, List.head?_cons, Option.any_some, hfirst] at ht
    cases ht

/-- Where a numeral begins that is captured with a point, the numeral is what is captured, or it
ends before the point. -/
theorem numeralAt_decimals {w d after : List Char}
    (hw : ∀ c ∈ w, (u.isDigit c || c == ',') = true) (hd : ∀ c ∈ d, u.isDigit c = true)
    (hafter : after.head?.any u.isDigit = false)
    (h : isNumeral u (numeralAt u (w ++ '.' :: d ++ after)) = true) :
    d = [] ∧ numeralAt u (w ++ '.' :: d ++ after) = trimEnd w ∨
      numeralAt u (w ++ '.' :: d ++ after) = w ++ '.' :: d := by
  have hrun : (w ++ '.' :: d ++ after).takeWhile (isNumeric u) =
      w ++ '.' :: d ++ after.takeWhile (isNumeric u) :=
    List.takeWhile_append_of_pos (isNumeric_decimals hw hd)
  rw [numeralAt, hrun] at h ⊢
  have hhead : (after.takeWhile (isNumeric u)).head?.any u.isDigit = false := by
    rw [List.head?_takeWhile]
    cases hfirst : after.head?.filter (isNumeric u) with
    | none => rfl
    | some z =>
      rw [(Option.filter_eq_some_iff.1 hfirst).1] at hafter
      exact hafter
  rw [trimEnd_append (separators_after (point_notMem hw) hhead h)]
  rcases List.eq_nil_or_concat d with rfl | ⟨init, last, rfl⟩
  · exact .inl ⟨rfl, trimEnd_append (by simp [isSeparator])⟩
  · right
    have hlast : isSeparator last = false := by
      by_contra hnot
      have hdigit := isDigit_of_separator (u := u) (by simpa using hnot)
      rw [hd last (by simp)] at hdigit
      cases hdigit
    have hend := trimEnd_append_cons (w ++ '.' :: init) [] hlast
    simpa [trimEnd] using hend

/-! ## What is read -/

/-- The first digit of a text is that of its first part, if there is one. -/
theorem firstDigit_append {w : List Char} (rest : List Char) (h : ∃ c ∈ w, u.isDigit c = true) :
    (w ++ rest).takeWhile (fun c => !u.isDigit c) = w.takeWhile (fun c => !u.isDigit c) ∧
      (w ++ rest).dropWhile (fun c => !u.isDigit c) =
        w.dropWhile (fun c => !u.isDigit c) ++ rest := by
  obtain ⟨c, hc, hdigit⟩ := h
  have hsome : w.dropWhile (fun c => !u.isDigit c) ≠ [] := by
    rw [Ne, List.dropWhile_eq_nil_iff]
    intro hall
    have := hall c hc
    rw [hdigit] at this
    cases this
  have hshort : (w.takeWhile fun c => !u.isDigit c).length ≠ w.length := by
    intro hlength
    have hsplit := congrArg List.length
      (List.takeWhile_append_dropWhile (p := fun c => !u.isDigit c) (l := w))
    rw [List.length_append, hlength] at hsplit
    exact hsome (List.length_eq_zero_iff.1 (by omega))
  constructor
  · rw [List.takeWhile_append, if_neg hshort]
  · rw [List.dropWhile_append, if_neg (by simpa using hsome)]

section

variable {w d after before : List Char} (hw : ∀ c ∈ w, (u.isDigit c || c == ',') = true)
include hw

theorem commas_before : ∀ c ∈ w.takeWhile (fun c => !u.isDigit c), c = ',' := fun c hc =>
  eq_comma hw (List.takeWhile_subset _ hc) (by simpa using List.mem_takeWhile_imp hc)

/-- The commas before the first digit do not count. -/
theorem filter_dropWhile :
    (w.dropWhile fun c => !u.isDigit c).filter (· ≠ ',') = w.filter (· ≠ ',') := by
  have hsplit := congrArg (List.filter (· ≠ ','))
    (List.takeWhile_append_dropWhile (p := fun c => !u.isDigit c) (l := w))
  rwa [List.filter_append, filter_commas (commas_before hw), List.nil_append] at hsplit

theorem filter_trimEnd_dropWhile :
    (trimEnd (w.dropWhile fun c => !u.isDigit c)).filter (· ≠ ',') = w.filter (· ≠ ',') :=
  (filter_trimEnd fun c hc => hw c (List.dropWhile_subset _ hc)).trans (filter_dropWhile hw)

/-- A price without a point. -/
theorem value_whole (hafter : after.head?.any (isNumeric u) = false) :
    toNumber u (some (numeralAt u (w.dropWhile (fun c => !u.isDigit c) ++ after))) =
      toNumber u (some w) := by
  have hrun : (w.dropWhile (fun c => !u.isDigit c) ++ after).takeWhile (isNumeric u) =
      w.dropWhile (fun c => !u.isDigit c) :=
    takeWhile_append_stop (fun c hc => numeric_of_captured hw c (List.dropWhile_subset _ hc)) hafter
  rw [numeralAt, hrun, toNumber, toNumber, Option.bind_some, Option.bind_some,
    filter_trimEnd_dropWhile hw]

/-- A price with a point. -/
theorem value_decimals (hd : ∀ c ∈ d, u.isDigit c = true)
    (hafter : after.head?.any u.isDigit = false)
    (h : isNumeral u
      (numeralAt u (w.dropWhile (fun c => !u.isDigit c) ++ '.' :: d ++ after)) = true) :
    toNumber u (some (numeralAt u (w.dropWhile (fun c => !u.isDigit c) ++ '.' :: d ++ after))) =
      toNumber u (some (w ++ '.' :: d)) := by
  have hbody : ∀ c ∈ w.dropWhile (fun c => !u.isDigit c), (u.isDigit c || c == ',') = true :=
    fun c hc => hw c (List.dropWhile_subset _ hc)
  rw [toNumber, toNumber, Option.bind_some, Option.bind_some]
  rcases numeralAt_decimals hbody hd hafter h with ⟨rfl, hnumeral⟩ | hnumeral
  · have hpoint : '.' ∉ w.filter (· ≠ ',') := fun hmem =>
      point_notMem hw (List.mem_of_mem_filter hmem)
    rw [hnumeral, filter_trimEnd_dropWhile hw, List.filter_append]
    exact (float?_append_point hpoint).symm
  · rw [hnumeral, List.filter_append, filter_dropWhile hw, List.filter_append]

/-- Without a digit before its point a price has no value, or its first digit comes right after the
point. -/
theorem endsNumber_of_no_digit {x : ℚ} (hnone : ∀ c ∈ w, u.isDigit c = false)
    (hd : ∀ c ∈ d, u.isDigit c = true) (hx : toNumber u (some (w ++ '.' :: d)) = some x) :
    endsNumber u (((w ++ '.' :: d).takeWhile fun c => !u.isDigit c).reverse ++ before) = true := by
  cases d with
  | nil =>
    have hcommas : w.filter (· ≠ ',') = [] := filter_commas fun c hc => eq_comma hw hc (hnone c hc)
    rw [toNumber, Option.bind_some, List.filter_append, hcommas] at hx
    cases hx
  | cons c d =>
    have hlead : (w ++ '.' :: c :: d).takeWhile (fun c => !u.isDigit c) = w ++ ['.'] := by
      rw [List.append_cons]
      refine takeWhile_append_stop (fun z hz => ?_) (by simp [hd c])
      rcases List.mem_append.1 hz with hz | hz
      · simp [hnone z hz]
      · simp [List.mem_singleton.1 hz]
    rw [hlead, List.reverse_append]
    rfl

end

/-- **What is captured is read right** if a complete numeral begins with its first digit; only
commas come before it. -/
theorem value_of_complete {w after before : List Char} {x : ℚ} (hw : Captured u w after)
    (hx : toNumber u (some w) = some x)
    (hcomplete : completeAt u ⟨(w.takeWhile fun c => !u.isDigit c).reverse ++ before,
      w.dropWhile (fun c => !u.isDigit c) ++ after⟩ = true) :
    (∀ c ∈ w.takeWhile (fun c => !u.isDigit c), c = ',') ∧
      toNumber u (some (numeralAt u (w.dropWhile (fun c => !u.isDigit c) ++ after))) = some x := by
  obtain ⟨hnumeral, hbefore⟩ := (Bool.and_eq_true _ _).mp hcomplete
  dsimp only at hnumeral hbefore
  cases hw with
  | whole hw hafter => exact ⟨commas_before hw, (value_whole hw hafter).trans hx⟩
  | @decimals w d _ hw hd hafter =>
    by_cases hdigit : ∃ c ∈ w, u.isDigit c = true
    · obtain ⟨htake, hdrop⟩ := firstDigit_append ('.' :: d) hdigit
      rw [htake, hdrop]
      rw [hdrop] at hnumeral
      exact ⟨commas_before hw, (value_decimals hw hd hafter hnumeral).trans hx⟩
    · have hnone : ∀ c ∈ w, u.isDigit c = false := by simpa using hdigit
      rw [endsNumber_of_no_digit hw hnone hd hx] at hbefore
      cases hbefore

variable {labels : List Regex} {text : List Char} {m : Regex.Match} {x : ℚ}

/-- What a match has captured, and where its first digit stands. -/
theorem captured_of_search (hm : (labelled u labels).search text = some m) :
    m.start ∈ Place.onwards [] text ∧ ∃ p w, m.group = some w ∧ Captured u w m.stop.after ∧
      firstDigit u m = ⟨(w.takeWhile fun c => !u.isDigit c).reverse ++ p.before,
        w.dropWhile (fun c => !u.isDigit c) ++ m.stop.after⟩ ∧
      p.after = w ++ m.stop.after ∧ ∀ t q, t.Reaches p q →
        (Regex.concat (lead u labels ++ [t])).Reaches m.start q := by
  obtain ⟨hstart, hfirst⟩ := Regex.search_first hm
  have hfirst : (Regex.concat (lead u labels ++ [.group (pricePattern u)])).First m.start m.stop
    m.group := hfirst
  obtain ⟨p, g₁, g₂, hgroup, hg, hlead⟩ := hfirst.concat
  obtain ⟨rfl, g, hprice⟩ := hgroup.group
  obtain ⟨w, hw, hafter, hbefore⟩ := captured_of_first hprice
  have hupTo : p.upTo m.stop = w := by
    rw [Place.upTo, hafter, List.length_append, Nat.add_sub_cancel_right, List.take_left]
  have hgroup : m.group = some w := by rw [hg, hupTo, Option.some_or]
  have hdrop : m.stop.before.drop w.length = p.before := by
    rw [hbefore, ← List.length_reverse, List.drop_left]
  refine ⟨hstart, p, w, hgroup, hw, ?_, hafter, hlead⟩
  rw [firstDigit, hgroup, Option.getD_some, hdrop]

/-- **A level that is read is written at its first digit**, if a complete numeral begins there. -/
theorem level_written (hm : (labelled u labels).search text = some m)
    (hx : toNumber u m.group = some x) (hcomplete : completeAt u (firstDigit u m) = true) :
    WrittenAt u labels text x (firstDigit u m) := by
  obtain ⟨hstart, p, w, hgroup, hw, hplace, hafter, hlead⟩ := captured_of_search hm
  rw [hgroup] at hx
  have hvalue := value_of_complete hw hx (by rwa [← hplace])
  refine ⟨⟨m.start, hstart, hlead _ _ ?_⟩, hcomplete, by rw [hplace]; exact hvalue.2⟩
  have hcommas : ∀ c ∈ w.takeWhile (fun c => !u.isDigit c), (c == ',') = true := fun c hc =>
    beq_iff_eq.2 (hvalue.1 c hc)
  have hreach := Regex.reaches_many hcommas p.before
    (w.dropWhile (fun c => !u.isDigit c) ++ m.stop.after)
  rw [← List.append_assoc, List.takeWhile_append_dropWhile, ← hafter] at hreach
  rw [hplace]
  exact hreach

/-- The decimals of a price go on after a comma, and it is cut. -/
example : toNumber asciiData ((entryPattern asciiData).capture "Entry 65.000,50".toList) = some 65 := by
  decide +kernel

theorem legible_of_complete
    (h : ((labelled u labels).search text).all (fun m => completeAt u (firstDigit u m)) = true) :
    Legible u labels text := by
  intro m hm _
  rwa [Option.mem_def.1 hm, Option.all_some] at h

/-! ## Valid signals -/

theorem ValidSignal.value_eq {supportedSymbols : List String} {parsed : ParsedExternalSignal}
    (h : ValidSignal u text supportedSymbols parsed) (level : Level) :
    level.value parsed = toNumber u ((labelled u (level.labels u text)).capture text) := by
  cases level with
  | entryPrice => exact h.entryPrice
  | stopLoss => exact h.stopLoss
  | takeProfit1 =>
    rw [Level.value, h.takeProfit1, firstTarget, Level.labels]
    split_ifs <;> rfl
  | takeProfit2 => exact h.takeProfit2
  | takeProfit3 => exact h.takeProfit3

/-- **The messages of which a valid signal reads the prices that are written**: every level is
legible, or else the fragment that is read of it has by chance a value that is written elsewhere. -/
theorem reads_written_iff (u : UnicodeData) (text : String) (supportedSymbols : List String)
    (h : (parseExternalSignal u text supportedSymbols).status = .valid) :
    ReadsWritten u text.toList supportedSymbols (parseExternalSignal u text supportedSymbols) ↔
      ∀ level : Level, Legible u (level.labels u text.toList) text.toList ∨
        WrittenElsewhere u (level.labels u text.toList) text.toList := by
  have hvalid := parse_valid h
  generalize parseExternalSignal u text supportedSymbols = parsed at hvalid ⊢
  generalize text.toList = text at hvalid ⊢
  constructor
  · intro hreads level
    by_cases helsewhere : WrittenElsewhere u (level.labels u text) text
    · exact .inr helsewhere
    · refine .inl fun m hm hsome => ?_
      obtain ⟨x, hx⟩ := Option.isSome_iff_exists.1 hsome
      have hvalue : level.value parsed = some x := by
        rw [hvalid.value_eq, Regex.capture, hm, Option.bind_some]
        exact hx
      obtain ⟨q, hq⟩ := hreads.levels level x hvalue
      have hplace : q = firstDigit u m := by
        by_contra hne
        exact helsewhere ⟨m, hm, x, hx, q, hne, hq⟩
      exact hplace ▸ hq.2.1
  · intro hlegible
    obtain ⟨m, -, -, hsymbol, hsupported⟩ := hvalid.symbol
    refine ⟨⟨_, hsymbol, hsupported⟩, hvalid.sides, fun level x hx => ?_⟩
    rw [hvalid.value_eq, Regex.capture] at hx
    cases hm : (labelled u (level.labels u text)).search text with
    | none =>
      rw [hm] at hx
      cases hx
    | some m =>
      rw [hm, Option.bind_some] at hx
      rcases hlegible level with hcomplete | ⟨m', hm', x', hx', q, -, hq⟩
      · exact ⟨_, level_written hm hx (hcomplete m hm (by rw [hx, Option.isSome_some]))⟩
      · obtain rfl : m = m' := Option.some.inj (hm.symm.trans hm')
        obtain rfl : x = x' := Option.some.inj (hx.symm.trans hx')
        exact ⟨q, hq⟩

theorem reads_written_two_targets :
    ReadsWritten asciiData "LONG BTCUSDT Entry 65,000 SL: $64000.5 TP1 66,000 TP2 67000".toList
      ["BTC/USDT"] (parseExternalSignal asciiData
        "LONG BTCUSDT Entry 65,000 SL: $64000.5 TP1 66,000 TP2 67000" ["BTC/USDT"]) := by
  refine (reads_written_iff asciiData _ _ (by decide +kernel)).2 fun level => .inl ?_
  apply legible_of_complete
  cases level <;> decide +kernel

/-- **A label takes the first digit of a price**: of a target at 1,500 the signal makes one at 500,
for `TP 1` is a label. -/
theorem label_takes_digit :
    let text := "SHORT ETHUSDT Entry 1,650 SL 1,700 TP 1,500"
    let parsed := parseExternalSignal asciiData text ["ETH/USDT"]
    (parsed.status = .valid ∧ parsed.takeProfit1 = some 500) ∧
    ¬∀ (u : UnicodeData) (text : String) (supportedSymbols : List String),
      (parseExternalSignal u text supportedSymbols).status = .valid →
      ReadsWritten u text.toList supportedSymbols
        (parseExternalSignal u text supportedSymbols) := by
  intro text parsed
  have hparsed : parsed.status = .valid ∧ parsed.takeProfit1 = some 500 := by decide +kernel
  refine ⟨hparsed, fun h => ?_⟩
  obtain ⟨q, ⟨p, hp, g, hq⟩, hcomplete, hvalue⟩ :=
    (h asciiData text ["ETH/USDT"] hparsed.1).levels .takeProfit1 500 hparsed.2
  have hnone : ∀ p ∈ Place.onwards [] text.toList,
      ∀ e ∈ (Regex.concat (lead asciiData (Level.labels asciiData text.toList .takeProfit1) ++
        [.many (· == ',') 0 none])).ends p,
      ¬(completeAt asciiData e.1 = true ∧
        toNumber asciiData (some (numeralAt asciiData e.1.after)) = some 500) := by
    decide +kernel
  exact hnone p hp _ hq ⟨hcomplete, hvalue⟩

end AlphaOne.TelegramSignals
