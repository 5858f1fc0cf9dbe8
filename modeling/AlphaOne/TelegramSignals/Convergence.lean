import AlphaOne.Foundations.LastWriter
import AlphaOne.TelegramSignals.Ingestion

/-!
# The row of a message, over its deliveries

A message of the channel and its edits reach `ingest_message` in any order, some of them more than
once. The first delivery makes the row, with its text as the original and no edit; the others are
edits to keep when they are newer. So a row that is made by an edit has the edit's text as the
original, and does not know that it was an edit.

* `lookup_run_ingest`: the row of a message depends on its own deliveries alone.
* `records_run`: after the first delivery, the row is the text of that delivery and a register in
  which the last writer wins.
* `converges_iff`: what is exactly needed for the row to end with the original and the newest edit.
-/

namespace AlphaOne.TelegramSignals

open Foundations

/-- A message as it was posted, and its edits, each with its time. -/
structure Post where
  channel : String
  telegramMessageId : String
  text : String
  edits : List (Datetime × String)
  times : (edits.map Prod.fst).Nodup

def Post.key (p : Post) : String × String := (p.channel, p.telegramMessageId)

/-- A call of `ingest_message`: the message, the number of a new row, and whether its commit
succeeds. -/
structure Ingest where
  message : IncomingMessage
  id : ℕ
  commits : Bool := true
  deriving DecidableEq, Repr

def IncomingMessage.key (d : IncomingMessage) : String × String := (d.channel, d.telegramMessageId)

/-- The rows after a call. -/
def ingest (messages : List ExternalTelegramMessage) (op : Ingest) :
    List ExternalTelegramMessage :=
  (ingestMessage op.message op.id op.commits messages).2

/-- The calls for one message whose commits succeed. -/
def deliveredOf (k : String × String) (ops : List Ingest) : List Ingest :=
  ops.filter fun op => op.commits && op.message.key = k

/-- A delivery hands over the original, or one of the edits with its time. -/
def Post.Carries (p : Post) (d : IncomingMessage) : Prop :=
  match d.editedTimestamp with
  | none => d.text = p.text
  | some t => (t, d.text) ∈ p.edits

/-- The original and every edit are delivered, and nothing else. -/
structure Post.DeliveredBy (p : Post) (ops : List Ingest) : Prop where
  carries : ∀ op ∈ ops, p.Carries op.message
  original : ∃ op ∈ ops, op.message.editedTimestamp = none
  edits : ∀ e ∈ p.edits, ∃ op ∈ ops, op.message.editedTimestamp = some e.1

/-- The row holds the original text, and the text and the time of the newest edit. -/
structure Converged (p : Post) (row : ExternalTelegramMessage) : Prop where
  text : row.text = p.text
  edited : ∀ e, Newest p.edits e → row.editedText = some e.2 ∧ row.editedTimestamp = some e.1
  unedited : p.edits = [] → row.editedText = none ∧ row.editedTimestamp = none

/-! ## One delivery -/

/-- What a delivery makes of the row of its message. -/
def absorb (row : Option ExternalTelegramMessage) (op : Ingest) : Option ExternalTelegramMessage :=
  match row with
  | none => some (newMessage op.message op.id)
  | some existing =>
    if isNewerEdit op.message existing then
      some { existing with
        editedText := some op.message.text
        editedTimestamp := op.message.editedTimestamp }
    else some existing

variable {messages : List ExternalTelegramMessage} {op : Ingest} {k : String × String}

/-- A delivery whose commit fails leaves the rows as they are. -/
theorem ingest_of_failed (h : op.commits = false) : ingest messages op = messages := by
  simp only [ingest, ingestMessage, h]
  split
  · split <;> rfl
  · rfl

/-- A delivery makes of the row of its own message what `absorb` says, and leaves all others. -/
theorem lookup_ingest : lookup ExternalTelegramMessage.key k (ingest messages op) =
    if op.commits && op.message.key = k then
      absorb (lookup ExternalTelegramMessage.key k messages) op
    else lookup ExternalTelegramMessage.key k messages := by
  cases hcommits : op.commits with
  | false => rw [ingest_of_failed hcommits]; simp
  | true =>
    by_cases hk : op.message.key = k
    · subst hk
      simp only [Bool.true_and, decide_true, if_true, ingest, ingestMessage, hcommits,
        IncomingMessage.key, absorb]
      cases hrow : lookup ExternalTelegramMessage.key
          (op.message.channel, op.message.telegramMessageId) messages with
      | none =>
        refine lookup_append_of_new (r := newMessage op.message op.id) ?_
        exact lookup_eq_none_iff.1 hrow
      | some existing =>
        dsimp only
        split_ifs
        · have hkey := key_of_lookup hrow
          rw [← hkey] at hrow ⊢
          exact lookup_save (r := { existing with
            editedText := some op.message.text
            editedTimestamp := op.message.editedTimestamp }) hrow
        · exact hrow
    · rw [if_neg (by simpa using hk)]
      simp only [ingest, ingestMessage, hcommits]
      split
      · rename_i existing hrow
        have hkey := key_of_lookup hrow
        split_ifs
        · refine lookup_save_of_ne fun hsame => hk ?_
          exact (hsame.trans hkey).symm
        · rfl
      · exact lookup_append_of_ne hk

/-- **The row of a message depends on its own deliveries alone.** -/
theorem lookup_run_ingest (ops : List Ingest) :
    lookup ExternalTelegramMessage.key k (run ingest messages ops) =
      run absorb (lookup ExternalTelegramMessage.key k messages) (deliveredOf k ops) := by
  induction ops generalizing messages with
  | nil => rfl
  | cons op ops ih =>
    rw [run_cons, ih, lookup_ingest, deliveredOf, deliveredOf, List.filter_cons]
    split_ifs <;> rfl

/-! ## The deliveries after the first -/

/-- The row is a text, and a register with an edit. -/
structure Records (text : String) (kept : Option (Datetime × String))
    (row : ExternalTelegramMessage) : Prop where
  text : row.text = text
  editedTimestamp : row.editedTimestamp = kept.map Prod.fst
  editedText : row.editedText = kept.map Prod.snd

/-- The edits that are delivered. -/
def writesOf (ops : List Ingest) : List (Datetime × String) :=
  ops.filterMap fun op => op.message.editedTimestamp.map fun t => (t, op.message.text)

theorem records_newMessage (op : Ingest) :
    Records op.message.text none (newMessage op.message op.id) :=
  ⟨rfl, rfl, rfl⟩

theorem mem_writesOf {ops : List Ingest} {e : Datetime × String} :
    e ∈ writesOf ops ↔
      ∃ op ∈ ops, op.message.editedTimestamp = some e.1 ∧ op.message.text = e.2 := by
  simp only [writesOf, List.mem_filterMap, Option.map_eq_some_iff]
  constructor
  · rintro ⟨op, hop, t, ht, rfl⟩
    exact ⟨op, hop, ht, rfl⟩
  · rintro ⟨op, hop, ht, htext⟩
    exact ⟨op, hop, e.1, ht, by rw [htext]⟩

/-- One delivery more: an edit is written to the register, and the original is not. -/
theorem Records.absorb {text : String} {kept : Option (Datetime × String)}
    {row : ExternalTelegramMessage} (h : Records text kept row) (op : Ingest) :
    ∃ row', absorb (some row) op = some row' ∧
      Records text (run keepNewest kept (writesOf [op])) row' := by
  have hwrites : writesOf [op] =
      (op.message.editedTimestamp.map fun t => (t, op.message.text)).toList := by
    simp only [writesOf, List.filterMap_cons, List.filterMap_nil]
    cases op.message.editedTimestamp <;> rfl
  rw [hwrites]
  simp only [TelegramSignals.absorb, isNewerEdit, h.editedTimestamp]
  cases ht : op.message.editedTimestamp with
  | none => exact ⟨row, rfl, h⟩
  | some t =>
    simp only [Option.any_some, Option.all_map, Option.map_some, Option.toList_some, run_cons,
      run_nil, keepNewest]
    split_ifs
    · exact ⟨_, rfl, h.text, rfl, rfl⟩
    · exact ⟨row, rfl, h⟩

/-- **After the first delivery, the last writer wins.** -/
theorem records_run {text : String} (ops : List Ingest) {kept : Option (Datetime × String)}
    {row : ExternalTelegramMessage} (h : Records text kept row) :
    ∃ row', run TelegramSignals.absorb (some row) ops = some row' ∧
      Records text (run keepNewest kept (writesOf ops)) row' := by
  induction ops generalizing kept row with
  | nil => exact ⟨row, rfl, h⟩
  | cons op ops ih =>
    obtain ⟨row', hrow', hrecords⟩ := h.absorb op
    have hsplit : writesOf (op :: ops) = writesOf [op] ++ writesOf ops := by
      rw [writesOf, ← List.singleton_append, List.filterMap_append]
      rfl
    rw [run_cons, hrow', hsplit, run_append]
    exact ih hrecords

/-! ## All deliveries of a message -/

variable {p : Post}

theorem Post.eq_of_time {e e' : Datetime × String} (he : e ∈ p.edits) (he' : e' ∈ p.edits)
    (h : e.1 = e'.1) : e = e' :=
  List.inj_on_of_nodup_map p.times he he' h

/-- Deliveries of a message write nothing but its edits. -/
theorem mem_edits_of_mem_writesOf {ops : List Ingest} (h : ∀ op ∈ ops, p.Carries op.message)
    {e : Datetime × String} (he : e ∈ writesOf ops) : e ∈ p.edits := by
  obtain ⟨op, hop, ht, htext⟩ := mem_writesOf.1 he
  have hcarries := h op hop
  simp only [Post.Carries, ht, htext] at hcarries
  exact hcarries

/-- The newest edit is delivered again after the first delivery, or for the first time then. -/
def NewestFollows (p : Post) (rest : List Ingest) : Prop :=
  ∀ e, Newest p.edits e → ∃ op ∈ rest, op.message.editedTimestamp = some e.1

/-- The register ends with the newest edit exactly when that is delivered. -/
theorem newest_kept_iff {rest : List Ingest} (h : ∀ op ∈ rest, p.Carries op.message)
    {e : Datetime × String} (he : Newest p.edits e) :
    run keepNewest none (writesOf rest) = some e ↔
      ∃ op ∈ rest, op.message.editedTimestamp = some e.1 := by
  constructor
  · intro hkept
    obtain ⟨op, hop, ht, -⟩ := mem_writesOf.1 (newest_of_mem_run (Option.mem_def.2 hkept)).mem
    exact ⟨op, hop, ht⟩
  · rintro ⟨op, hop, ht⟩
    have hwritten : (e.1, op.message.text) ∈ writesOf rest := mem_writesOf.2 ⟨op, hop, ht, rfl⟩
    have hedit : (e.1, op.message.text) = e :=
      p.eq_of_time (mem_edits_of_mem_writesOf h hwritten) he.mem rfl
    rw [hedit] at hwritten
    refine run_keepNewest_eq (fun other hother htime => ?_)
      ⟨hwritten, fun other hother => he.le other (mem_edits_of_mem_writesOf h hother)⟩
    exact p.eq_of_time (mem_edits_of_mem_writesOf h hother) he.mem htime

/-- A row that the deliveries `rest` follow. -/
theorem converged_iff_of_records {rest : List Ingest} (h : ∀ op ∈ rest, p.Carries op.message)
    {text : String} {row : ExternalTelegramMessage}
    (hrow : Records text (run keepNewest none (writesOf rest)) row) :
    Converged p row ↔ text = p.text ∧ NewestFollows p rest := by
  constructor
  · intro hconverged
    refine ⟨hrow.text.symm.trans hconverged.text, fun e he => ?_⟩
    have htime := (hconverged.edited e he).2
    rw [hrow.editedTimestamp] at htime
    obtain ⟨kept, hkept, hfst⟩ := Option.map_eq_some_iff.1 htime
    obtain ⟨op, hop, ht, -⟩ := mem_writesOf.1 (newest_of_mem_run (Option.mem_def.2 hkept)).mem
    exact ⟨op, hop, ht.trans (congrArg some hfst)⟩
  · rintro ⟨htext, hfollows⟩
    refine ⟨hrow.text.trans htext, fun e he => ?_, fun hnil => ?_⟩
    · have hkept := (newest_kept_iff h he).2 (hfollows e he)
      rw [hrow.editedText, hrow.editedTimestamp, hkept]
      exact ⟨rfl, rfl⟩
    · have hnone : writesOf rest = [] := by
        refine List.eq_nil_iff_forall_not_mem.2 fun e he => ?_
        have hedit := mem_edits_of_mem_writesOf h he
        rw [hnil] at hedit
        cases hedit
      rw [hrow.editedText, hrow.editedTimestamp, hnone]
      exact ⟨rfl, rfl⟩

/-- The row that the deliveries of a new message end with. -/
theorem exists_row (hnew : lookup ExternalTelegramMessage.key p.key messages = none)
    {ops rest : List Ingest} {first : Ingest} (hops : deliveredOf p.key ops = first :: rest) :
    ∃ row, lookup ExternalTelegramMessage.key p.key (run ingest messages ops) = some row ∧
      Records first.message.text (run keepNewest none (writesOf rest)) row := by
  rw [lookup_run_ingest, hnew, hops, run_cons]
  exact records_run rest (records_newMessage first)

/-- **When ingestion converges.** A message that is not stored and its edits, of which no two have
the same time, are delivered in any order, each once or more, among any deliveries of other
messages. The row ends with the original text and the newest edit exactly when the first delivery
has the original's text and the newest edit is delivered after it. -/
theorem converges_iff (p : Post) (messages : List ExternalTelegramMessage)
    (hnew : lookup ExternalTelegramMessage.key p.key messages = none) (ops : List Ingest)
    (h : p.DeliveredBy (deliveredOf p.key ops)) :
    (∃ row, lookup ExternalTelegramMessage.key p.key (run ingest messages ops) = some row ∧
        Converged p row) ↔
      ∃ first rest, deliveredOf p.key ops = first :: rest ∧
        first.message.text = p.text ∧ NewestFollows p rest := by
  constructor
  · rintro ⟨row, hrow, hconverged⟩
    obtain ⟨op, hop, -⟩ := h.original
    obtain ⟨first, rest, hops⟩ := List.exists_cons_of_ne_nil (List.ne_nil_of_mem hop)
    obtain ⟨row', hrow', hrecords⟩ := exists_row hnew hops
    obtain rfl : row = row' := Option.some.inj (hrow.symm.trans hrow')
    have hrest : ∀ op ∈ rest, p.Carries op.message := fun op hop =>
      h.carries op (hops ▸ List.mem_cons_of_mem first hop)
    exact ⟨first, rest, hops, (converged_iff_of_records hrest hrecords).1 hconverged⟩
  · rintro ⟨first, rest, hops, hfirst⟩
    obtain ⟨row, hrow, hrecords⟩ := exists_row hnew hops
    have hrest : ∀ op ∈ rest, p.Carries op.message := fun op hop =>
      h.carries op (hops ▸ List.mem_cons_of_mem first hop)
    exact ⟨row, hrow, (converged_iff_of_records hrest hrecords).2 hfirst⟩

/-- With the original delivered first, ingestion converges in every order of the rest. -/
theorem converges_of_original_first
    (hnew : lookup ExternalTelegramMessage.key p.key messages = none) {ops rest : List Ingest}
    (h : p.DeliveredBy (deliveredOf p.key ops)) {first : Ingest}
    (hops : deliveredOf p.key ops = first :: rest)
    (hfirst : first.message.editedTimestamp = none) :
    ∃ row, lookup ExternalTelegramMessage.key p.key (run ingest messages ops) = some row ∧
      Converged p row := by
  have hcarries := h.carries
  rw [hops, List.forall_mem_cons] at hcarries
  obtain ⟨row, hrow, hrecords⟩ := exists_row hnew hops
  refine ⟨row, hrow, (converged_iff_of_records hcarries.2 hrecords).2 ⟨?_, fun e he => ?_⟩⟩
  · have horiginal := hcarries.1
    simp only [Post.Carries, hfirst] at horiginal
    exact horiginal
  · obtain ⟨op, hop, ht⟩ := h.edits e he.mem
    rw [hops, List.mem_cons] at hop
    rcases hop with rfl | hop
    · rw [hfirst] at ht
      cases ht
    · exact ⟨op, hop, ht⟩

/-! ## A message with two edits -/

/-- A message that is edited five minutes after it is posted, and ten minutes after. -/
def editedPost : Post where
  channel := "@suncrypto_trading_alerts"
  telegramMessageId := "1"
  text := "v0"
  edits := [(300, "v1"), (600, "v2")]
  times := by decide

/-- A delivery of the message, as the original or as an edit. -/
def deliveryOf (text : String) (editedTimestamp : Option Datetime) : Ingest where
  message :=
    { channel := "@suncrypto_trading_alerts"
      telegramMessageId := "1"
      messageTimestamp := 0
      text
      editedTimestamp }
  id := 1

/-- The newest edit is delivered before all else. -/
def newestFirst : List Ingest :=
  [deliveryOf "v2" (some 600), deliveryOf "v0" none, deliveryOf "v1" (some 300)]

theorem deliveredBy_newestFirst :
    editedPost.DeliveredBy (deliveredOf editedPost.key newestFirst) := by
  have hall : deliveredOf editedPost.key newestFirst = newestFirst := by decide
  rw [hall]
  exact ⟨by simp [newestFirst, Post.Carries, deliveryOf, editedPost],
    by simp [newestFirst, deliveryOf], by simp [newestFirst, deliveryOf, editedPost]⟩

/-- With the original first, the newest edit is what is kept, though an older one arrives last. -/
theorem converges_iff_editedPost :
    ∃ row, lookup ExternalTelegramMessage.key editedPost.key (run ingest []
        [deliveryOf "v0" none, deliveryOf "v2" (some 600), deliveryOf "v1" (some 300)]) = some row ∧
      Converged editedPost row := by
  have hall : deliveredOf editedPost.key
      [deliveryOf "v0" none, deliveryOf "v2" (some 600), deliveryOf "v1" (some 300)] =
        [deliveryOf "v0" none, deliveryOf "v2" (some 600), deliveryOf "v1" (some 300)] := by decide
  refine (converges_iff editedPost [] rfl _ ?_).2 ⟨_, _, hall, rfl, fun e he => ?_⟩
  · rw [hall]
    exact ⟨by simp [Post.Carries, deliveryOf, editedPost], by simp [deliveryOf],
      by simp [deliveryOf, editedPost]⟩
  · have hedit := he.mem
    simp only [editedPost, List.mem_cons, List.not_mem_nil, or_false] at hedit
    rcases hedit with rfl | rfl
    · exact ⟨deliveryOf "v1" (some 300), by simp, rfl⟩
    · exact ⟨deliveryOf "v2" (some 600), by simp, rfl⟩

/-- **The newest edit comes first and is lost.** The row has it as the original, and the older edit
as the newest. -/
theorem newest_edit_lost :
    (lookup ExternalTelegramMessage.key editedPost.key (run ingest [] newestFirst)).map
        (fun row => (row.text, row.editedText, row.editedTimestamp)) =
      some ("v2", some "v1", some 300) ∧
    ¬∀ (p : Post) (messages : List ExternalTelegramMessage) (ops : List Ingest),
      lookup ExternalTelegramMessage.key p.key messages = none →
      p.DeliveredBy (deliveredOf p.key ops) →
      ∃ row, lookup ExternalTelegramMessage.key p.key (run ingest messages ops) = some row ∧
        Converged p row := by
  refine ⟨by decide, fun h => ?_⟩
  obtain ⟨row, hrow, hconverged⟩ := h editedPost [] newestFirst rfl deliveredBy_newestFirst
  have htext : (lookup ExternalTelegramMessage.key editedPost.key (run ingest [] newestFirst)).map
      ExternalTelegramMessage.text = some "v2" := by decide
  rw [hrow, Option.map_some, hconverged.text] at htext
  revert htext
  decide

end AlphaOne.TelegramSignals
