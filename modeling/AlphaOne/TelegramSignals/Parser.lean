import AlphaOne.Foundations.Regex
import AlphaOne.Schema.Models
import Mathlib.Data.List.Dedup
import Mathlib.Data.List.Sort

/-!
# Parsing an external signal

`services/telegram_signals/parser.py`: a message is searched for a symbol, a direction, an entry, a
stop and targets, and is valid only if it has them all, on the correct sides of the entry.

The patterns are those of the source, under `re.IGNORECASE` where it sets that flag. Which further
letters and digits there are besides the ASCII ones depends on the version of the Unicode database;
`UnicodeData` is what the module uses of it.
-/

namespace AlphaOne.TelegramSignals

open Foundations

/-! ## Characters -/

/-- What the patterns and the conversions of digits use of the Unicode database. -/
structure UnicodeData where
  /-- `str.isalnum` -/
  isAlnum : Char → Bool
  /-- The value of a decimal digit, a character of the category `Nd`. -/
  decimal? : Char → Option ℕ
  /-- `str.lower` -/
  lower : List Char → List Char
  isAlnum_ascii : ∀ c : Char, c.toNat < 128 → isAlnum c = c.isAlphanum
  decimal?_ascii : ∀ c : Char, c.toNat < 128 →
    decimal? c = if c.isDigit then some (c.toNat - '0'.toNat) else none
  decimal?_lt : ∀ c d, decimal? c = some d → d < 10
  isAlnum_of_decimal : ∀ c d, decimal? c = some d → isAlnum c = true
  lower_ascii : ∀ s : List Char, (∀ c ∈ s, c.toNat < 128) → lower s = s.map Char.toLower

/-- `str.isspace`, the class `\s`. -/
def isSpace (c : Char) : Bool :=
  let n := c.toNat
  (0x09 ≤ n && n ≤ 0x0D) || (0x1C ≤ n && n ≤ 0x20) || n == 0x85 || n == 0xA0 || n == 0x1680 ||
    (0x2000 ≤ n && n ≤ 0x200A) || n == 0x2028 || n == 0x2029 || n == 0x202F || n == 0x205F ||
    n == 0x3000

/-- The ASCII letter that `re.IGNORECASE` identifies a character with, in lower case. Besides the
ASCII letters themselves these are İ, ı, ſ and the Kelvin sign. -/
def foldCase (c : Char) : Char :=
  match c.toNat with
  | 0x130 | 0x131 => 'i'
  | 0x17F => 's'
  | 0x212A => 'k'
  | _ => c.toLower

/-- `str.upper`, on the characters that an ASCII letter matches under `re.IGNORECASE`. -/
def upperChar (c : Char) : Char :=
  match c.toNat with
  | 0x131 => 'I'
  | 0x17F => 'S'
  | _ => c.toUpper

def upper (s : List Char) : List Char := s.map upperChar

/-- `[A-Z]`, under `re.IGNORECASE`. -/
def isLetter (c : Char) : Bool := (foldCase c).isLower

/-! ## Patterns -/

namespace UnicodeData

variable (u : UnicodeData)

/-- `\d` -/
def isDigit (c : Char) : Bool := (u.decimal? c).isSome

/-- `\w` -/
def isWord (c : Char) : Bool := u.isAlnum c || c == '_'

/-- `\b` -/
def border : Regex := .boundary u.isWord

end UnicodeData

/-- `\s*` -/
def spaces : Regex := .many isSpace 0 none

/-- A keyword, under `re.IGNORECASE`. -/
def keyword (s : String) : Regex :=
  .concat (s.toList.map fun c => .char fun d => foldCase d == foldCase c)

/-- `[{s}]` -/
def anyOf (s : String) : Regex := .char fun c => s.toList.contains c

section

variable (u : UnicodeData)

/-- `\s*[:\-]?\s*\$?([\d,]+\.?\d*)`, which all patterns of levels end with. -/
def levelPattern : Regex :=
  .concat [spaces, .opt (anyOf ":-"), spaces, .opt (anyOf "$"),
    .group (.concat [.many (fun c => u.isDigit c || c == ',') 1 none, .opt (anyOf "."),
      .many u.isDigit 0 none])]

/-- A level after one of its labels. -/
def labelled (labels : List Regex) : Regex :=
  .concat [u.border, .oneOf labels, u.border, levelPattern u]

def symbolPattern : Regex :=
  .concat [u.border, .group (.many isLetter 2 (some 10)),
    .opt (.char fun c => isSpace c || c == '/' || c == '-'), keyword "USDT", u.border]

def directionPattern : Regex :=
  .concat [u.border,
    .group (.oneOf [keyword "LONG", keyword "SHORT", keyword "BUY", keyword "SELL"]), u.border]

def entryPattern : Regex := labelled u [keyword "Entry"]

def slPattern : Regex :=
  labelled u [keyword "SL", .concat [keyword "Stop", spaces, keyword "Loss"], keyword "Stoploss"]

/-- The labels of the target with the number `n`. -/
def targetLabels (n : String) : List Regex :=
  [.concat [keyword "TP", spaces, keyword n], keyword ("TP" ++ n),
    .concat [keyword "Target", spaces, keyword n],
    .concat [keyword "Take", spaces, keyword "Profit", spaces, keyword n]]

def tp1Pattern : Regex := labelled u (targetLabels "1")

def tp2Pattern : Regex := labelled u (targetLabels "2")

def tp3Pattern : Regex := labelled u (targetLabels "3")

def tpBarePattern : Regex := labelled u [keyword "TP"]

def leveragePattern : Regex :=
  .concat [u.border, .group (.many u.isDigit 1 (some 3)), spaces, anyOf "xX", u.border]

def timeframePattern : Regex :=
  .concat [u.border,
    .group (.oneOf (["1m", "5m", "15m", "30m", "1h", "4h", "1d"].map keyword)), u.border]

end

/-- `[\s/\-]?USDT$`, of `normalize_symbol_string`. -/
def quotePattern : Regex :=
  .concat [.opt (.char fun c => isSpace c || c == '/' || c == '-'), keyword "USDT", .endOfText]

/-! ## Conversions -/

section

variable (u : UnicodeData)

/-- The number that a list of decimal digits stands for. -/
def digitsValue (s : List Char) : Option ℕ :=
  (s.mapM u.decimal?).map fun ds => ds.foldl (fun n d => 10 * n + d) 0

/-- `float`, on the texts that the patterns of levels capture. -/
def float? (s : List Char) : Option ℚ :=
  let whole := s.takeWhile (· ≠ '.')
  let fraction := (s.dropWhile (· ≠ '.')).drop 1
  if whole = [] ∧ fraction = [] then none
  else (digitsValue u (whole ++ fraction)).map fun n => n / 10 ^ fraction.length

/-- `_to_number` -/
def toNumber (s : Option (List Char)) : Option ℚ :=
  s.bind fun s => float? u (s.filter (· ≠ ','))

end

/-- `str.strip` -/
def strip (s : List Char) : List Char :=
  ((s.dropWhile isSpace).reverse.dropWhile isSpace).reverse

def normalizeSymbolString (raw : List Char) : String :=
  String.ofList (upper (quotePattern.remove (strip raw))) ++ "/USDT"

/-- `_DIRECTION_NORMALIZE`, on the four keywords. -/
def directionNormalize (word : String) : Side :=
  match word with
  | "LONG" | "BUY" => .long
  | _ => .short

/-! ## The parser -/

structure ParsedExternalSignal where
  status : ExternalSignalStatus
  rejectionReason : Option SignalRejection := none
  rawSymbol : Option String := none
  symbol : Option String := none
  direction : Option Side := none
  entryPrice : Option ℚ := none
  stopLoss : Option ℚ := none
  takeProfit1 : Option ℚ := none
  takeProfit2 : Option ℚ := none
  takeProfit3 : Option ℚ := none
  leverageStated : Option ℕ := none
  timeframeStated : Option String := none
  /-- A valid signal is complete. -/
  complete : status = .valid → symbol.isSome ∧ direction.isSome ∧ entryPrice.isSome ∧
    stopLoss.isSome ∧ takeProfit1.isSome := by simp

/-- The stop and the targets are on the correct sides of the entry. -/
def validStructure (direction : Side) (entry sl : ℚ) (targets : List ℚ) : Bool :=
  match direction with
  | .long => sl < entry ∧ ∀ t ∈ targets, t > entry
  | .short => sl > entry ∧ ∀ t ∈ targets, t < entry

/-- The names of the required levels that are missing. -/
def missingLevels (entry sl tp1 : Option ℚ) : List String :=
  [("entry", entry), ("stop_loss", sl), ("take_profit_1", tp1)].filterMap fun (name, level) =>
    if level.isNone then some name else none

/-- What the message states as its first target. A bare `TP` counts only when no target is numbered.
-/
def firstTarget (u : UnicodeData) (text : List Char) : Option (List Char) :=
  if ((tp1Pattern u).search text).isNone ∧ ((tp2Pattern u).search text).isNone ∧
      ((tp3Pattern u).search text).isNone then
    (tpBarePattern u).capture text
  else (tp1Pattern u).capture text

def parseExternalSignal (u : UnicodeData) (text : String) (supportedSymbols : List String) :
    ParsedExternalSignal :=
  let text := text.toList
  if text.all isSpace then { status := .invalid, rejectionReason := some .emptyMessage }
  else
    match (symbolPattern u).search text with
    | none => { status := .invalid, rejectionReason := some .noSymbol }
    | some symbolMatch =>
      let rawSymbol := some (String.ofList symbolMatch.text)
      let symbol := normalizeSymbolString symbolMatch.text
      let directionMatches := ((directionPattern u).findAll text).filterMap Regex.Match.group
      if 1 < (directionMatches.map upper).dedup.length then
        { status := .ambiguous, rawSymbol, symbol := some symbol
          rejectionReason := some (.conflictingDirections
            ((directionMatches.map String.ofList).dedup.insertionSort (· ≤ ·))) }
      else
        match directionMatches with
        | [] =>
          { status := .incomplete, rawSymbol, symbol := some symbol
            rejectionReason := some .noDirection }
        | word :: _ =>
          let direction := directionNormalize (String.ofList (upper word))
          let entry := toNumber u ((entryPattern u).capture text)
          let sl := toNumber u ((slPattern u).capture text)
          let tp1 := toNumber u (firstTarget u text)
          let tp2 := toNumber u ((tp2Pattern u).capture text)
          let tp3 := toNumber u ((tp3Pattern u).capture text)
          let leverageStated := ((leveragePattern u).capture text).bind (digitsValue u)
          let timeframeStated := ((timeframePattern u).capture text).map fun w =>
            String.ofList (w.map foldCase)
          let rejected (reason : SignalRejection) : ParsedExternalSignal :=
            { status := .invalid, rejectionReason := some reason, rawSymbol, symbol := some symbol
              direction := some direction, entryPrice := entry, stopLoss := sl, takeProfit1 := tp1
              takeProfit2 := tp2, takeProfit3 := tp3, leverageStated, timeframeStated }
          if symbol ∉ supportedSymbols then
            { rejected (.unsupportedSymbol symbol) with status := .unsupportedSymbol
                                                        complete := by simp }
          else
            match entry, sl, tp1 with
            | some entry, some sl, some tp1 =>
              let targets := [some tp1, tp2, tp3].filterMap id
              if validStructure direction entry sl targets then
                { status := .valid, rawSymbol, symbol := some symbol, direction := some direction
                  entryPrice := some entry, stopLoss := some sl, takeProfit1 := some tp1
                  takeProfit2 := tp2, takeProfit3 := tp3, leverageStated, timeframeStated }
              else rejected (.invalidStructure direction entry sl targets)
            | entry, sl, tp1 =>
              { rejected (.missingFields (missingLevels entry sl tp1)) with status := .incomplete
                                                                            complete := by simp }

/-- The database without anything but ASCII. -/
def asciiData : UnicodeData where
  isAlnum := Char.isAlphanum
  decimal? c := if c.isDigit then some (c.toNat - '0'.toNat) else none
  lower s := s.map Char.toLower
  isAlnum_ascii _ _ := rfl
  decimal?_ascii _ _ := rfl
  decimal?_lt c d h := by
    split at h
    · rename_i hdigit
      obtain rfl := Option.some.inj h
      have hle : c.toNat ≤ '9'.toNat := by
        simp only [Char.isDigit, Bool.and_eq_true, decide_eq_true_eq] at hdigit
        exact hdigit.2
      have hnine : '9'.toNat = 57 := rfl
      have hzero : '0'.toNat = 48 := rfl
      omega
    · cases h
  isAlnum_of_decimal c d h := by
    split at h
    · rename_i hdigit
      simp [Char.isAlphanum, hdigit]
    · cases h
  lower_ascii _ _ := rfl

/-- A keyword for each direction makes a message ambiguous, also when they agree. -/
example : (parseExternalSignal asciiData "BTCUSDT LONG, buy at Entry 100 SL 95 TP 110"
    ["BTC/USDT"]).status = .ambiguous := by decide +kernel

/-! ## What a valid signal is -/

variable {u : UnicodeData} {text : String} {supportedSymbols : List String}

/-- **A valid signal**: its symbol is a match in the message and is supported, its levels are
captured from the message, and the stop and the targets are on the correct sides of the entry. -/
structure ValidSignal (u : UnicodeData) (text : List Char) (supportedSymbols : List String)
    (parsed : ParsedExternalSignal) : Prop where
  symbol : ∃ m ∈ (symbolPattern u).search text, parsed.rawSymbol = some (String.ofList m.text) ∧
    parsed.symbol = some (normalizeSymbolString m.text) ∧
    normalizeSymbolString m.text ∈ supportedSymbols
  entryPrice : parsed.entryPrice = toNumber u ((entryPattern u).capture text)
  stopLoss : parsed.stopLoss = toNumber u ((slPattern u).capture text)
  takeProfit1 : parsed.takeProfit1 = toNumber u (firstTarget u text)
  takeProfit2 : parsed.takeProfit2 = toNumber u ((tp2Pattern u).capture text)
  takeProfit3 : parsed.takeProfit3 = toNumber u ((tp3Pattern u).capture text)
  sides : ∃ direction ∈ parsed.direction, ∃ entry ∈ parsed.entryPrice, ∃ sl ∈ parsed.stopLoss,
    validStructure direction entry sl
      ([parsed.takeProfit1, parsed.takeProfit2, parsed.takeProfit3].filterMap id) = true

theorem parse_valid (h : (parseExternalSignal u text supportedSymbols).status = .valid) :
    ValidSignal u text.toList supportedSymbols (parseExternalSignal u text supportedSymbols) := by
  generalize hp : parseExternalSignal u text supportedSymbols = parsed at h ⊢
  unfold parseExternalSignal at hp
  dsimp only at hp
  split at hp
  · subst hp
    cases h
  · split at hp
    · subst hp
      cases h
    · rename_i m hm
      split at hp
      · subst hp
        cases h
      · split at hp
        · subst hp
          cases h
        · split at hp
          · subst hp
            cases h
          · rename_i hsupported
            split at hp
            · rename_i hentry hsl htp1
              split at hp
              · rename_i hvalid
                subst hp
                exact ⟨⟨m, hm, rfl, rfl, not_not.1 hsupported⟩, hentry.symm, hsl.symm, htp1.symm, rfl,
                  rfl, _, rfl, _, rfl, _, rfl, hvalid⟩
              · subst hp
                cases h
            · subst hp
              cases h

end AlphaOne.TelegramSignals
