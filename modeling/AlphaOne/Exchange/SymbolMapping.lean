import AlphaOne.Exchange.CoinDCXSync

/-!
# Symbols over the exchange mapping

A market has a symbol in the signals and the trades, "BTC/USDT", and an instrument at the exchange.
`normalize_symbol` drops the quote of the symbol and appends the margin currency of the account;
`denormalize_symbol`, which calls itself its inverse, reads the margin currency as the quote. The
account code leaves the margin currency at its default, so that a position in the bitcoin market
becomes a trade in "BTC/INR".

* `denormalize_normalize_iff`: for which margin currency the two are inverse.
* `symbol_lost`: for that of the account they are for no symbol.
-/

namespace AlphaOne.Exchange

open Journal

/-- The base of a canonical symbol: in upper case, and without the separators. -/
structure CanonicalBase (base : String) : Prop where
  upper : base.toList.map Char.toUpper = base.toList
  slash : '/' ∉ base.toList
  underscore : '_' ∉ base.toList

variable {base marginCurrency : String}

/-- The characters of an instrument, after its prefix. -/
theorem toList_normalizeSymbol (symbol marginCurrency : String) :
    (normalizeSymbol symbol marginCurrency).toList =
      'B' :: '-' :: ((symbol.toList.takeWhile (· ≠ '/')).map Char.toUpper ++
        '_' :: marginCurrency.toList.map Char.toUpper) := by
  rw [normalizeSymbol, String.toList_ofList]
  rfl

/-- An instrument is read back from what follows its prefix. -/
theorem denormalizeSymbol_of_prefixed {instrument : String} {body : List Char}
    (h : instrument.toList = 'B' :: '-' :: body) : denormalizeSymbol instrument =
      if (body.dropWhile (· ≠ '_')).drop 1 = [] then String.ofList body
      else String.ofList
        (body.takeWhile (· ≠ '_') ++ '/' :: (body.dropWhile (· ≠ '_')).drop 1) := by
  rw [denormalizeSymbol, h]
  rfl

/-- What follows the first underscore of an instrument ends in the margin currency. -/
theorem suffix_quote (xs margin : List Char) :
    margin <:+ ((xs ++ '_' :: margin).dropWhile (· ≠ '_')).drop 1 := by
  rw [List.dropWhile_append]
  split_ifs with hnone
  · rw [List.dropWhile_cons_of_neg (by simp), List.drop_one, List.tail_cons]
  · obtain ⟨c, rest, hrest⟩ := List.exists_cons_of_ne_nil (mt List.isEmpty_iff.2 hnone)
    rw [hrest, List.cons_append, List.drop_one, List.tail_cons]
    exact (List.suffix_cons '_' margin).trans (List.suffix_append rest _)

/-- An instrument is read back as a symbol whose quote ends in the margin currency. -/
theorem exists_toList_denormalize {margin : List Char} (hmargin : margin ≠ []) (xs : List Char)
    {instrument : String} (h : instrument.toList = 'B' :: '-' :: (xs ++ '_' :: margin)) :
    ∃ quote, margin <:+ quote ∧ (denormalizeSymbol instrument).toList =
      (xs ++ '_' :: margin).takeWhile (· ≠ '_') ++ '/' :: quote := by
  have hsuffix := suffix_quote xs margin
  refine ⟨_, hsuffix, ?_⟩
  have hquote : ((xs ++ '_' :: margin).dropWhile (· ≠ '_')).drop 1 ≠ [] :=
    fun hnil => hmargin (List.suffix_nil.1 (hnil ▸ hsuffix))
  rw [denormalizeSymbol_of_prefixed h, if_neg hquote, String.toList_ofList]

/-- What stands before a separator is taken, and the separator is what the rest begins with. -/
theorem span_separator {c : Char} {xs ys : List Char} (h : c ∉ xs) :
    (xs ++ c :: ys).takeWhile (· ≠ c) = xs ∧ (xs ++ c :: ys).dropWhile (· ≠ c) = c :: ys := by
  have hall : ∀ x ∈ xs, decide (x ≠ c) = true := fun x hx =>
    decide_eq_true fun hxc => h (hxc ▸ hx)
  rw [List.takeWhile_append_of_pos hall, List.dropWhile_append_of_pos hall]
  simp

theorem toList_quoted (base : String) :
    (base ++ "/USDT").toList = base.toList ++ '/' :: ['U', 'S', 'D', 'T'] := by
  rw [String.toList_append]
  rfl

/-- **When the mappings are inverse**: for a canonical symbol quoted in USDT, exactly if USDT is the
margin currency. -/
theorem denormalize_normalize_iff (h : CanonicalBase base) (hmargin : marginCurrency ≠ "") :
    denormalizeSymbol (normalizeSymbol (base ++ "/USDT") marginCurrency) = base ++ "/USDT" ↔
      marginCurrency.toList.map Char.toUpper = ['U', 'S', 'D', 'T'] := by
  have hne : marginCurrency.toList.map Char.toUpper ≠ [] := by
    rw [Ne, List.map_eq_nil_iff]
    exact fun hnil => hmargin (String.toList_inj.1 hnil)
  have hinstrument := toList_normalizeSymbol (base ++ "/USDT") marginCurrency
  rw [toList_quoted, (span_separator h.slash).1, h.upper] at hinstrument
  rw [← String.toList_inj, toList_quoted, denormalizeSymbol_of_prefixed hinstrument,
    (span_separator h.underscore).1, (span_separator h.underscore).2, List.drop_one,
    List.tail_cons, if_neg hne, String.toList_ofList, List.append_cancel_left_eq,
    List.cons.injEq, and_iff_right rfl]

/-! ## The account -/

/-- The symbols of the account are read back as others: they end in the margin currency. -/
theorem denormalize_normalize_ne (base : String) :
    denormalizeSymbol (normalizeSymbol (base ++ "/USDT")) ≠ base ++ "/USDT" := by
  intro hsame
  have hmargin : defaultMarginCurrency.toList.map Char.toUpper = ['I', 'N', 'R'] := by decide
  obtain ⟨quote, hsuffix, hlist⟩ := exists_toList_denormalize (by rw [hmargin]; simp) _
    (toList_normalizeSymbol (base ++ "/USDT") defaultMarginCurrency)
  rw [hsame, toList_quoted, hmargin] at hlist
  obtain ⟨rest, rfl⟩ := hmargin ▸ hsuffix
  have hends (xs : List Char) : base.toList ++ ['/', 'U'] ++ ['S', 'D', 'T'] ≠
      xs ++ '/' :: rest ++ ['I', 'N', 'R'] := fun heq => by
    have hlast := List.append_inj_right' heq rfl
    revert hlast
    decide
  exact hends _ (by simpa using hlist)

variable {call : SyncCall} {row : PositionRow} {pos : Position} {s s' : Session}

/-- A trade that is created has the symbol that is read from the instrument of its position. -/
theorem createTradeFromPosition_symbol (h : createTradeFromPosition call pos s = .ok s') :
    ∃ trade, s'.working.tables.trades = s.working.tables.trades ++ [trade] ∧
      trade.symbol = denormalizeSymbol pos.symbol := by
  unfold createTradeFromPosition at h
  dsimp only at h
  split at h
  · cases h
  · obtain rfl := Except.ok.inj h
    exact ⟨_, rfl, rfl⟩

/-- An open position is in the instrument of its row. -/
theorem symbol_of_positionOf (h : positionOf row = some pos) : pos.symbol = row.pair := by
  unfold positionOf at h
  split at h
  · cases h
  · obtain rfl := Option.some.inj h
    rfl

/-- **No symbol survives the mapping of the account.** Whatever its base, a symbol quoted in USDT is
not what its instrument is read back as, and no trade that is created from a position in that
instrument carries it. -/
theorem symbol_lost (base : String) :
    denormalizeSymbol (normalizeSymbol (base ++ "/USDT")) ≠ base ++ "/USDT" ∧
      ∀ (call : SyncCall) (row : PositionRow) (pos : Position) (s s' : Session),
        row.pair = normalizeSymbol (base ++ "/USDT") → positionOf row = some pos →
        createTradeFromPosition call pos s = .ok s' →
        ∃ trade, s'.working.tables.trades = s.working.tables.trades ++ [trade] ∧
          trade.symbol ≠ base ++ "/USDT" := by
  refine ⟨denormalize_normalize_ne base, fun call row pos s s' hpair hpos hcreate => ?_⟩
  obtain ⟨trade, htrades, hsymbol⟩ := createTradeFromPosition_symbol hcreate
  refine ⟨trade, htrades, ?_⟩
  rw [hsymbol, symbol_of_positionOf hpos, hpair]
  exact denormalize_normalize_ne base

/-- A position whose instrument is named after the quote of its symbol keeps the symbol. -/
theorem symbol_of_quoted_row (hbase : CanonicalBase base)
    (hpair : row.pair = normalizeSymbol (base ++ "/USDT") "USDT") (hpos : positionOf row = some pos)
    (hcreate : createTradeFromPosition call pos s = .ok s') :
    ∃ trade, s'.working.tables.trades = s.working.tables.trades ++ [trade] ∧
      trade.symbol = base ++ "/USDT" := by
  obtain ⟨trade, htrades, hsymbol⟩ := createTradeFromPosition_symbol hcreate
  refine ⟨trade, htrades, ?_⟩
  rw [hsymbol, symbol_of_positionOf hpos, hpair]
  exact (denormalize_normalize_iff hbase (by decide)).2 (by decide)

/-- The position of a long bitcoin, as the account shows it. -/
def btcInrRow : PositionRow where
  id := "p1"
  pair := normalizeSymbol "BTC/USDT"
  activePos := 1
  avgPrice := 100

/-- A sync that is shown the position. -/
def btcInrSync : SyncCall where
  positions := some [btcInrRow]
  trades _ _ _ := some []
  now := 0
  createdAt _ := 0
  askedAt _ := 0
  closedAt _ := 0
  uuidHex id := id

/-- **The bitcoin market of the account is another symbol.** The instrument "B-BTC_INR" is read back
as "BTC/INR", and that is what the trade of a sync is stored under. -/
theorem btc_traded_as_inr :
    normalizeSymbol "BTC/USDT" = "B-BTC_INR" ∧ denormalizeSymbol "B-BTC_INR" = "BTC/INR" ∧
      (syncPositions btcInrSync { account := { id := 1 } }).2.tables.trades.map Trade.symbol =
        ["BTC/INR"] ∧
      ¬∀ base, CanonicalBase base →
        denormalizeSymbol (normalizeSymbol (base ++ "/USDT")) = base ++ "/USDT" := by
  refine ⟨by decide +kernel, by decide +kernel, by decide +kernel, fun h => ?_⟩
  exact denormalize_normalize_ne "BTC" (h "BTC" ⟨by decide, by decide, by decide⟩)

end AlphaOne.Exchange
