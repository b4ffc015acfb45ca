import QuestRouter.Data.Checked
import QuestRouter.Ilp.TagRule
import QuestRouter.Ingest.TradeText

/-!
# One line for each row

The rows of an object become lines that are framed by newlines and routed by the key that is read from them. A
newline is not escaped, so a row stays one line exactly if no text that is put into it has one.
-/

namespace QuestRouter.Ingest
open Text Data Routing Protocol IlpForwarder Ilp Nautilus IngestActor

/-! ### Newlines in a line -/

/-- No text that is put into the line of the row has a newline. -/
structure Unbroken (kind : NautilusDataKind) (table : Str) (row : ObjectRow) : Prop where
  table : '\n' ∉ table
  symbol : '\n' ∉ row.instrument.symbol
  venue : '\n' ∉ row.instrument.venue
  tradeId : kind = .tradeTick → ∀ tradeIds ∈ stringColumn row.batch "trade_id", '\n' ∉ tradeIds row.row

variable {arrow : Arrow} {config : NautilusIngestConfig} {kind : NautilusDataKind} {table line : Str} {row : ObjectRow}

theorem newline_mem_formatLine {instrument : InstrumentMeta} {fields : Str} {ts : Nat} :
    '\n' ∈ formatLine instrument table fields ts ↔
      '\n' ∈ table ∨ '\n' ∈ instrument.symbol ∨ '\n' ∈ instrument.venue ∨ '\n' ∈ fields := by
  have digits : '\n' ∉ decimal ts := fun member => absurd (isDigit_of_mem_decimal member) (by decide)
  have words : '\n' ∉ ",symbol=".toList ∧ '\n' ∉ ",venue=".toList ∧ '\n' ∉ " ".toList := by decide
  obtain ⟨symbol, venue, space⟩ := words
  simp only [formatLine, List.mem_append, Stream.escapeTag_eq, mem_escape (show '\n' ≠ '\\' by decide), digits,
    symbol, venue, space, or_false, or_assoc]

theorem newline_not_mem_aggressorName (value : Nat) : '\n' ∉ aggressorName value := by
  unfold aggressorName
  split
  · decide
  · split <;> decide

theorem newline_mem_tradeFields {price size side tradeId : Str} (number : '\n' ∉ price ∧ '\n' ∉ size)
    (name : '\n' ∉ side) : '\n' ∈ fieldsText (tradeFields price size side tradeId) ↔ '\n' ∈ tradeId := by
  have words : '\n' ∉ "price=".toList ∧ '\n' ∉ ",size=".toList ∧ '\n' ∉ ",aggressor_side=\"".toList ∧
      '\n' ∉ "\",trade_id=\"".toList ∧ '\n' ∉ "\"".toList := by decide
  obtain ⟨word₁, word₂, word₃, word₄, word₅⟩ := words
  simp only [tradeFields_text, List.mem_append, Stream.escapeFieldString_eq,
    mem_backslashed (show '\n' ≠ '\\' by decide), number.1, number.2, name, word₁, word₂, word₃, word₄, word₅,
    or_false, false_or]

/-- A trade has a newline where its table, its instrument or its id has one. -/
theorem newline_mem_trade (prints : PrintsNumbers arrow)
    (written : formatTradeLine arrow row.instrument row.batch row.row table = some line) :
    ∃ tradeIds, stringColumn row.batch "trade_id" = some tradeIds ∧
      ('\n' ∈ line ↔ '\n' ∈ table ∨ '\n' ∈ row.instrument.symbol ∨ '\n' ∈ row.instrument.venue ∨
        '\n' ∈ tradeIds row.row) := by
  obtain ⟨sides, tradeIds, price, size, ts, _, column, rfl⟩ := formatTradeLine_eq written
  have number := fun raw precision => not_mem_number prints (show '\n'.isDigit = false ∧ _ by decide) raw precision
  refine ⟨tradeIds, column, ?_⟩
  rw [← formatLine_eq, newline_mem_formatLine,
    newline_mem_tradeFields ⟨number _ _, number _ _⟩ (newline_not_mem_aggressorName (sides row.row))]

theorem formatQuoteLine_eq {instrument : InstrumentMeta} {batch : RecordBatch} {r : Nat}
    (written : formatQuoteLine arrow instrument batch r table = some line) :
    ∃ bid ask bidSize askSize ts, line = formatLine instrument table
      ("bid=".toList ++ arrow.formatFixed bid instrument.pricePrecision ++
        ",ask=".toList ++ arrow.formatFixed ask instrument.pricePrecision ++
        ",bid_size=".toList ++ arrow.formatFixed bidSize instrument.sizePrecision ++
        ",ask_size=".toList ++ arrow.formatFixed askSize instrument.sizePrecision) ts := by
  simp only [formatQuoteLine, Option.bind_eq_bind, Option.bind_eq_some_iff, Option.pure_def,
    Option.some.injEq] at written
  obtain ⟨bids, _, asks, _, bidSizes, _, askSizes, _, ts, _, bid, bidPrinted, ask, askPrinted, bidSize, bidSizePrinted,
    askSize, askSizePrinted, rfl⟩ := written
  refine ⟨fromLeBytes (bids r), fromLeBytes (asks r), fromLeBytes (bidSizes r), fromLeBytes (askSizes r), ts r, ?_⟩
  rw [fixedToF64_some bidPrinted, fixedToF64_some askPrinted, fixedToF64_some bidSizePrinted,
    fixedToF64_some askSizePrinted]

theorem newline_mem_quote (prints : PrintsNumbers arrow)
    (written : formatQuoteLine arrow row.instrument row.batch row.row table = some line) :
    '\n' ∈ line ↔ '\n' ∈ table ∨ '\n' ∈ row.instrument.symbol ∨ '\n' ∈ row.instrument.venue := by
  obtain ⟨bid, ask, bidSize, askSize, ts, rfl⟩ := formatQuoteLine_eq written
  have number := fun raw precision => not_mem_number prints (show '\n'.isDigit = false ∧ _ by decide) raw precision
  have words : '\n' ∉ "bid=".toList ∧ '\n' ∉ ",ask=".toList ∧ '\n' ∉ ",bid_size=".toList ∧
      '\n' ∉ ",ask_size=".toList := by decide
  obtain ⟨word₁, word₂, word₃, word₄⟩ := words
  rw [newline_mem_formatLine]
  simp only [List.mem_append, number, word₁, word₂, word₃, word₄, or_false]

/-- Whether the line of a row has a newline depends on the texts that are put into it. -/
theorem newline_not_mem_iff (prints : PrintsNumbers arrow) (written : WrittenAs arrow kind table row line) :
    '\n' ∉ line ↔ Unbroken kind table row := by
  cases kind with
  | tradeTick =>
    obtain ⟨tradeIds, column, broken⟩ := newline_mem_trade prints written
    rw [broken, not_or, not_or, not_or]
    constructor
    · rintro ⟨noTable, symbol, venue, tradeId⟩
      refine ⟨noTable, symbol, venue, fun _ found member => ?_⟩
      rw [column] at member
      cases member
      exact tradeId
    · rintro ⟨noTable, symbol, venue, tradeId⟩
      exact ⟨noTable, symbol, venue, tradeId rfl tradeIds column⟩
  | quoteTick =>
    rw [newline_mem_quote prints written, not_or, not_or]
    constructor
    · rintro ⟨noTable, symbol, venue⟩
      exact ⟨noTable, symbol, venue, nofun⟩
    · rintro ⟨noTable, symbol, venue, _⟩
      exact ⟨noTable, symbol, venue⟩

/-! ### The key of a line -/

/-- What is read as the symbol is the symbol: it is plain, and the configured table does not have a comma after
which a symbol is found or a space comes first. -/
def SymbolRead (table s : Str) : Prop :=
  match scanText symbol (afterComma table) with
  | some found => found = s
  | none => if ' ' ∈ afterComma table then s = symbol else Plain s

/-- A row is routed by the symbol it is written for. -/
def RoutedBySymbol (row : ObjectRow) (line : Str) : Prop :=
  shardKeyFromIlp (asBytes line) symbol = row.instrument.symbol

theorem written_formatLine (written : WrittenAs arrow kind table row line) :
    ∃ fields ts, line = formatLine row.instrument table fields ts := by
  cases kind with
  | tradeTick =>
    have written : formatTradeLine arrow row.instrument row.batch row.row table = some line := written
    obtain ⟨_, _, _, _, ts, _, _, rfl⟩ := formatTradeLine_eq written
    exact ⟨_, ts, (formatLine_eq ..).symm⟩
  | quoteTick =>
    have written : formatQuoteLine arrow row.instrument row.batch row.row table = some line := written
    obtain ⟨_, _, _, _, ts, rfl⟩ := formatQuoteLine_eq written
    exact ⟨_, ts, rfl⟩

theorem scanText_tradeTags (instrument : InstrumentMeta) (rest : Str) :
    scanText symbol (tagText (tradeTags instrument) rest) = some (readPart instrument.symbol) := by
  have plain : Plain symbol := by decide
  have tags : tradeTags instrument = (symbol, instrument.symbol) :: [("venue".toList, instrument.venue)] := rfl
  have split : tagText (tradeTags instrument) rest =
      entryText (symbol, instrument.symbol) ++ tagText [("venue".toList, instrument.venue)] rest := by
    rw [tags, tagText, tagText, List.flatMap_cons, List.append_assoc]
  rw [split, scanText_entry (by decide) _ _ (tagText_ends _ _), if_neg (plain.not_mem (by decide)),
    if_pos ((nameRead_plain plain symbol).mpr (eqIgnoreAsciiCase_refl symbol))]

theorem key_formatLine {instrument : InstrumentMeta} {fields : Str} {ts : Nat}
    (oneLine : '\n' ∉ formatLine instrument table fields ts) :
    shardKeyFromIlp (asBytes (formatLine instrument table fields ts)) symbol =
      ((scanText symbol (afterComma table)).or
        (if ' ' ∈ afterComma table then none else some (readPart instrument.symbol))).getD symbol := by
  have tags := scanText_tradeTags instrument (fields ++ ' ' :: decimal ts)
  obtain ⟨tail, started⟩ :
      ∃ tail, tagText (tradeTags instrument) (fields ++ ' ' :: decimal ts) = ',' :: tail := ⟨_, rfl⟩
  rw [started, scanText_tail_comma] at tags
  rw [formatLine_eq, started] at oneLine ⊢
  by_cases comma : ',' ∈ table
  · obtain ⟨before, after, rfl, absent⟩ := List.eq_append_cons_of_mem comma
    rw [List.append_assoc, List.cons_append] at oneLine ⊢
    rw [shardKeyFromIlp, shardKey_of_comma absent oneLine, scanText_behind, tags, afterComma_append absent]
  · have nothing : scanText symbol [] = none := by decide
    rw [shardKeyFromIlp, shardKey_of_comma comma oneLine, tags, afterComma_of_not_mem comma, nothing, Option.none_or,
      if_neg List.not_mem_nil]

/-- A row that is one line is routed by its symbol exactly if the symbol is what is read. -/
theorem routedBySymbol_iff (written : WrittenAs arrow kind table row line) (oneLine : '\n' ∉ line) :
    RoutedBySymbol row line ↔ SymbolRead table row.instrument.symbol := by
  obtain ⟨fields, ts, rfl⟩ := written_formatLine written
  rw [RoutedBySymbol, key_formatLine oneLine, SymbolRead]
  cases scanText symbol (afterComma table) with
  | some found => rfl
  | none =>
    dsimp only
    rw [Option.none_or]
    split
    · exact eq_comm
    · exact readPart_eq_self_iff

/-! ### The lines that shards are sent -/

/-- Every line of a batch has a shard, and what a shard is sent are the lines that have it, one frame each. -/
structure SentByLine (out : Outside) (f : IlpForwarder) (lines : List Str) (g : IlpForwarder) : Prop where
  target : ∀ i line, lines[i]? = some line →
    ∃ shard, shardOfLine out.defaultShardKey (out.snapshot (f.routed + i)) (asBytes line) = .ok shard
  frames : ∀ id, ∃ chunk, g.sentTo id = f.held id ++ chunk ∧
    frames newline [] chunk = ((routedTo out id f.routed (lines.map asBytes)).map (· ++ [newline]), [])

/-- Each string is a line, also where a batch of them is forwarded. -/
structure Framed (lines : List Str) : Prop where
  oneLine : ∀ line ∈ lines, '\n' ∉ line
  sent : ∀ out f g, forwardBatch out lines f = (.ok (), g) → SentByLine out f lines g

theorem textLines_lines {lines : List Str} (text : ∀ line ∈ lines, isBlank (asBytes line) = false) :
    textLines (lines.map fun line => .line (asBytes line)) = lines.map asBytes := by
  induction lines with
  | nil => rfl
  | cons line lines ih =>
    obtain ⟨here, later⟩ := List.forall_mem_cons.mp text
    have first : textLines [.line (asBytes line)] = [asBytes line] := by
      rw [textLines, List.filterMap_cons_some]
      · rfl
      · dsimp only
        rw [here, if_neg Bool.false_ne_true]
    rw [List.map_cons, List.map_cons, ← List.singleton_append, textLines_append, first, ih later,
      List.singleton_append]

theorem isBlank_line {line : Str} (oneLine : '\n' ∉ line) (some : line ≠ []) : isBlank (asBytes line) = false := by
  obtain ⟨c, rest, rfl⟩ := List.exists_cons_of_ne_nil some
  rw [← Bool.not_eq_true, isBlank_cons]
  rintro rfl
  exact oneLine List.mem_cons_self

theorem terminated_line {line : Bytes} (oneLine : newline ∉ line) : terminated line = line ++ [newline] := by
  rw [terminated, if_neg]
  intro last
  exact oneLine (List.mem_of_getLast? last)

/-- Lines without newlines that are not empty are what the shards are sent. -/
theorem sentByLine {out : Outside} {f g : IlpForwarder} {lines : List Str} (oneLine : ∀ line ∈ lines, '\n' ∉ line)
    (some : ∀ line ∈ lines, line ≠ []) (forwarded : forwardBatch out lines f = (.ok (), g)) :
    SentByLine out f lines g := by
  have text : ∀ line ∈ lines, isBlank (asBytes line) = false := fun line member =>
    isBlank_line (oneLine line member) (some line member)
  constructor
  · intro i line there
    obtain ⟨shard, target, _⟩ := after_line forwarded there (text line (List.mem_of_getElem? there))
    have inside := (List.getElem?_eq_some_iff.mp there).1
    have early : (batchCalls lines).take i = (lines.take i).map fun line => .line (asBytes line) := by
      rw [batchCalls, List.take_append_of_le_length (by rw [List.length_map]; omega), List.map_take]
    have counted := (performAll_ok_bytes (after_ok forwarded i)).1
    rw [early, textLines_lines fun line member => text line (List.mem_of_mem_take member), List.length_map,
      List.length_take_of_le (by omega)] at counted
    rw [nextShard, counted] at target
    exact ⟨shard, target⟩
  · intro id
    have held := after_held forwarded (batchCalls lines).length id
    have noNewline : ∀ bytes ∈ routedTo out id f.routed (lines.map asBytes), newline ∉ bytes := by
      intro bytes member
      obtain ⟨line, inside, rfl⟩ := List.mem_map.mp (mem_routedTo member)
      rw [newline, asciiByte_mem_asBytes (by decide)]
      exact oneLine line inside
    rw [after_end forwarded le_rfl, (forwardBatch_drains forwarded).held, heldAfter, List.take_length, batchCalls,
      textLines_append, textLines_lines text] at held
    have last : textLines [Call.flush] = [] := rfl
    rw [last, List.append_nil] at held
    refine ⟨_, held, ?_⟩
    rw [← frames_flatMap noNewline]
    congr 1
    exact List.flatMap_congr fun bytes member => terminated_line (noNewline bytes member)

/-! ### Rows and lines -/

theorem forall₂_iff_left {α β : Type} {R S : α → β → Prop} {Q : α → Prop} {xs : List α} {ys : List β}
    (each : List.Forall₂ R xs ys) (agree : ∀ {x y}, R x y → (S x y ↔ Q x)) :
    List.Forall₂ S xs ys ↔ ∀ x ∈ xs, Q x := by
  induction each with
  | nil => simp
  | cons here _ ih => rw [List.forall₂_cons, List.forall_mem_cons, agree here, ih]

theorem framed_iff {lines : List Str} {rows : List ObjectRow} (prints : PrintsNumbers arrow)
    (each : List.Forall₂ (WrittenAs arrow kind table) rows lines) :
    Framed lines ↔ ∀ row ∈ rows, Unbroken kind table row := by
  rw [← forall_right_iff each (newline_not_mem_iff prints)]
  refine ⟨Framed.oneLine, fun oneLine => ⟨oneLine, fun out f g => sentByLine oneLine fun line member => ?_⟩⟩
  obtain ⟨i, inside, rfl⟩ := List.mem_iff_getElem.mp member
  obtain ⟨rest, split⟩ := formatRow_table (each.get (each.length_eq ▸ inside) inside)
  rw [List.get_eq_getElem] at split
  rw [split]
  exact List.append_ne_nil_of_right_ne_nil table (List.cons_ne_nil ',' rest)

/-- The strings of an object are its rows in order. They are lines, also where they are forwarded, exactly if no
text that is put into them has a newline; and each of them is routed by its symbol exactly if, besides, its symbol
is what is read from it. -/
theorem decodeFeatherToIlp_lines_iff {key : Str} {bytes : Bytes} {lines : List Str} (prints : PrintsNumbers arrow)
    (decoded : decodeFeatherToIlp arrow config key bytes = some (table, lines)) :
    ∃ kind batches, classifyObjectKey key = some kind ∧ table = tableOf config kind ∧
      arrow.readStream bytes = some (batches.map some) ∧
      lines.length = (batches.map RecordBatch.numRows).sum ∧
      List.Forall₂ (WrittenAs arrow kind table) (objectRows key kind batches) lines ∧
      (Framed lines ↔ ∀ row ∈ objectRows key kind batches, Unbroken kind table row) ∧
      (Framed lines ∧ List.Forall₂ RoutedBySymbol (objectRows key kind batches) lines ↔
        ∀ row ∈ objectRows key kind batches, Unbroken kind table row ∧ SymbolRead table row.instrument.symbol) := by
  obtain ⟨kind, batches, classified, read, same, _, each⟩ := decodeFeatherToIlp_rows decoded
  have framed := framed_iff prints each
  refine ⟨kind, batches, classified, same, read, ?_, each, framed, ?_⟩
  · rw [← each.length_eq, length_objectRows]
  · have lineEach : List.Forall₂ (fun row line => WrittenAs arrow kind table row line ∧ '\n' ∉ line)
        (objectRows key kind batches) lines ↔ ∀ row ∈ objectRows key kind batches, Unbroken kind table row :=
      forall₂_iff_left each fun written => (and_iff_right written).trans (newline_not_mem_iff prints written)
    rw [framed, forall₂_and]
    apply and_congr_right
    intro unbroken
    exact forall₂_iff_left (lineEach.mpr unbroken) fun both => routedBySymbol_iff both.1 both.2

/-- An id of a trade that ends its line and begins another one. -/
def twoLines : Arrow :=
  { IngestActor.oneTrade with
    readStream := fun bytes =>
      if bytes = tradeObject then
        some [some { tradeBatch with
          columns := ("trade_id".toList, .utf8 fun _ => "t1\nquotes,symbol=ETHUSDT bid=1".toList) :: tradeBatch.columns }]
      else none }

def brokenLine : Str :=
  "trade_ticks,symbol=BTCUSDT,venue=BITUNIX price=50000.25,size=1,aggressor_side=\"BUYER\",trade_id=\"t1\nquotes,symbol=ETHUSDT bid=1\" 17".toList

/-- One row is decoded, and the shard of its key is sent two lines, the second one into another table. -/
theorem newline_adds_line :
    decodeFeatherToIlp twoLines .default (chunk none).key tradeObject = some ("trade_ticks".toList, [brokenLine]) ∧
    (forwardBatch steady [brokenLine] {}).1 = .ok () ∧
    (frames newline [] ((forwardBatch steady [brokenLine] {}).2.sentTo 0)).1.length = 2 ∧ ¬ Framed [brokenLine] := by
  refine ⟨by decide +kernel, by decide +kernel, by decide +kernel, fun framed => ?_⟩
  exact framed.oneLine brokenLine List.mem_cons_self (by decide +kernel)

def tradeLine : Str :=
  "trade_ticks,symbol=BTCUSDT,venue=BITUNIX price=50000.25,size=1,aggressor_side=\"BUYER\",trade_id=\"t1\" 17".toList

theorem decodeFeatherToIlp_lines_iff_trade :
    Framed [tradeLine] ∧
      List.Forall₂ RoutedBySymbol (objectRows (chunk none).key .tradeTick [tradeBatch]) [tradeLine] := by
  have decoded : decodeFeatherToIlp IngestActor.oneTrade .default (chunk none).key tradeObject =
      some ("trade_ticks".toList, [tradeLine]) := by decide +kernel
  have trades : classifyObjectKey (chunk none).key = some .tradeTick := by decide +kernel
  obtain ⟨kind, batches, classified, _, read, _, _, _, routed⟩ :=
    decodeFeatherToIlp_lines_iff oneTrade_numbers decoded
  cases trades.symm.trans classified
  obtain ⟨batch, rest, rfl, only, last⟩ := List.map_eq_cons_iff.mp (Option.some.inj read).symm
  cases only
  cases List.map_eq_nil_iff.mp last
  refine routed.mpr fun row member => ?_
  have first : row = ⟨instrumentOf (chunk none).key .tradeTick tradeBatch, tradeBatch, 0⟩ := by
    simpa [objectRows, tradeBatch] using member
  have instrument : (instrumentOf (chunk none).key .tradeTick tradeBatch).symbol = "BTCUSDT".toList ∧
      (instrumentOf (chunk none).key .tradeTick tradeBatch).venue = "BITUNIX".toList := by decide +kernel
  subst first
  have noTag : scanText symbol (afterComma "trade_ticks".toList) = none := by decide
  refine ⟨⟨by decide, by rw [instrument.1]; decide, by rw [instrument.2]; decide, ?_⟩, ?_⟩
  · rintro _ tradeIds column
    cases column
    decide
  · rw [SymbolRead, instrument.1, noTag]
    decide

end QuestRouter.Ingest
