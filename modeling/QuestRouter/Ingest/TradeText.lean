import QuestRouter.Ilp.Reader
import QuestRouter.Ingest.Delivered
import QuestRouter.Stream.Content

/-!
# Reading a trade back

The line of a trade, read by the rules of the line protocol, has the symbol and the venue as its tags and the
aggressor side and the trade's id as its quoted fields, whatever characters they consist of.
-/

namespace QuestRouter.Ingest
open Text Ilp Nautilus IngestActor

/-- What `f64` prints of the finite values of an object. -/
def PrintsNumbers (arrow : Arrow) : Prop :=
  ∀ raw precision, ∀ c ∈ arrow.formatFixed raw precision, c.isDigit = true ∨ c = '.' ∨ c = '-'

def quoted (s : Str) : Str := '"' :: (escapeFieldString s ++ ['"'])

def tradeTags (instrument : InstrumentMeta) : List (Str × Str) :=
  [("symbol".toList, instrument.symbol), ("venue".toList, instrument.venue)]

def tradeFields (price size side tradeId : Str) : List (Str × Str) :=
  [("price".toList, price), ("size".toList, size), ("aggressor_side".toList, quoted side),
    ("trade_id".toList, quoted tradeId)]

/-- A line is read as a trade. -/
def ReadsTrade (line measurement : Str) (instrument : InstrumentMeta) (side tradeId : Str) : Prop :=
  ∃ reading, readLine line = some reading ∧ reading.measurement = measurement ∧
    reading.tags = [("symbol".toList, instrument.symbol), ("venue".toList, instrument.venue)] ∧
    reading.quotedFields = [("aggressor_side".toList, side), ("trade_id".toList, tradeId)]

variable {arrow : Arrow} {instrument : InstrumentMeta} {batch : RecordBatch} {row : Nat} {table line : Str}

/-! ### Values -/

theorem not_mem_number (prints : PrintsNumbers arrow) {c : Char}
    (other : c.isDigit = false ∧ c ≠ '.' ∧ c ≠ '-') (raw : Int) (precision : Nat) :
    c ∉ arrow.formatFixed raw precision := by
  intro member
  rcases prints raw precision c member with digit | point | minus
  · rw [other.1] at digit
    cases digit
  · exact other.2.1 point
  · exact other.2.2 minus

theorem closed_number (prints : PrintsNumbers arrow) (raw : Int) (precision : Nat) :
    ClosedValue (arrow.formatFixed raw precision) := by
  apply Scan.passes_plain
  intro c member
  refine ⟨?_, ?_, ?_⟩
  · rw [ends, Bool.or_eq_false_iff, beq_eq_false_iff_ne, beq_eq_false_iff_ne]
    constructor <;> rintro rfl <;> exact not_mem_number prints (by decide) raw precision member
  · rintro rfl
    exact not_mem_number prints (by decide) raw precision member
  · rintro _ rfl
    exact not_mem_number prints (by decide) raw precision member

theorem quotedText_number (prints : PrintsNumbers arrow) (raw : Int) (precision : Nat) :
    quotedText (arrow.formatFixed raw precision) = none := by
  have absent : '"' ∉ arrow.formatFixed raw precision := not_mem_number prints (by decide) raw precision
  unfold quotedText
  split
  · rename_i started
    rw [started] at absent
    exact (absent List.mem_cons_self).elim
  · rfl

/-- Between the quotation marks there is no bare one. -/
theorem closed_quoted (s : Str) : ClosedValue (quoted s) := by
  have opened : Scan.passes true ends {} ['"'] = some { quoted := true } := rfl
  have inside : Scan.passes true ends { quoted := true } (backslashed Stream.isQuoted s) = some { quoted := true } :=
    Scan.passes_backslashed rfl rfl nofun fun _ _ => rfl
  rw [ClosedValue, quoted, ← List.singleton_append, Scan.passes_trans opened, Stream.escapeFieldString_eq,
    Scan.passes_trans inside]
  rfl

theorem quotedText_quoted (s : Str) : quotedText (quoted s) = some s := by
  rw [quoted, quotedText, if_pos List.getLast?_concat, List.dropLast_concat, Stream.escapeFieldString_eq,
    unescape_backslashed rfl]

/-! ### Lines -/

theorem formatLine_eq (instrument : InstrumentMeta) (table fields : Str) (ts : Nat) :
    formatLine instrument table fields ts = table ++ tagText (tradeTags instrument) (fields ++ ' ' :: decimal ts) := by
  have symbol : escape "symbol".toList = "symbol".toList := by decide
  have venue : escape "venue".toList = "venue".toList := by decide
  simp only [formatLine, tagText, tradeTags, List.flatMap_cons, List.flatMap_nil, entryText, symbol, venue,
    Stream.escapeTag_eq, List.append_assoc, List.append_nil, List.cons_append]
  rfl

theorem tradeFields_text (price size side tradeId : Str) :
    fieldsText (tradeFields price size side tradeId) =
      "price=".toList ++ price ++ ",size=".toList ++ size ++ ",aggressor_side=\"".toList ++ escapeFieldString side ++
        "\",trade_id=\"".toList ++ escapeFieldString tradeId ++ "\"".toList := by
  have names : ["price", "size", "aggressor_side", "trade_id"].all (fun name => escape name.toList == name.toList) :=
    by decide
  simp only [List.all_cons, Bool.and_eq_true, beq_iff_eq, List.all_nil] at names
  obtain ⟨price', size', side', tradeId', _⟩ := names
  simp only [fieldsText, tradeFields, List.map_cons, List.map_nil, fieldText, List.intercalate_cons_cons,
    List.intercalate_singleton, price', size', side', tradeId', quoted, List.append_assoc, List.cons_append]
  rfl

theorem fixedToF64_some {bytes : Bytes} {precision : Nat} {text : Str}
    (printed : fixedToF64 arrow bytes precision = some text) : text = arrow.formatFixed (fromLeBytes bytes) precision := by
  unfold fixedToF64 at printed
  split at printed
  · exact (Option.some.inj printed).symm
  · cases printed

theorem formatTradeLine_eq (formatted : formatTradeLine arrow instrument batch row table = some line) :
    ∃ sides tradeIds price size ts, uint8Column batch "aggressor_side" = some sides ∧
      stringColumn batch "trade_id" = some tradeIds ∧
      line = table ++ tagText (tradeTags instrument)
        (fieldsText (tradeFields (arrow.formatFixed price instrument.pricePrecision)
          (arrow.formatFixed size instrument.sizePrecision) (aggressorName (sides row)) (tradeIds row)) ++
            ' ' :: decimal ts) := by
  simp only [formatTradeLine, Option.bind_eq_bind, Option.bind_eq_some_iff, Option.pure_def,
    Option.some.injEq] at formatted
  obtain ⟨prices, _, sizes, _, sides, side, tradeIds, tradeId, ts, _, price, priced, size, sized, rfl⟩ := formatted
  refine ⟨sides, tradeIds, fromLeBytes (prices row), fromLeBytes (sizes row), ts row, side, tradeId, ?_⟩
  rw [formatLine_eq, tradeFields_text, fixedToF64_some priced, fixedToF64_some sized]

theorem tradeFields_closed (prints : PrintsNumbers arrow) (price size : Int) (pricePrecision sizePrecision : Nat)
    (side tradeId : Str) :
    ∀ field ∈ tradeFields (arrow.formatFixed price pricePrecision) (arrow.formatFixed size sizePrecision) side tradeId,
      '"' ∉ field.1 ∧ ClosedValue field.2 := by
  simp only [tradeFields, List.forall_mem_cons]
  refine ⟨⟨by decide, closed_number prints price pricePrecision⟩,
    ⟨by decide, closed_number prints size sizePrecision⟩,
    ⟨by decide, closed_quoted side⟩, ⟨by decide, closed_quoted tradeId⟩, nofun⟩

/-- The line of a trade after a measurement that ends where its text does. -/
theorem readsTrade (prints : PrintsNumbers arrow) {measurement : Str} (closed : Closed measurement)
    (instrument : InstrumentMeta) (price size : Int) (side tradeId timestamp : Str) :
    ReadsTrade (measurement ++ tagText (tradeTags instrument)
      (fieldsText (tradeFields (arrow.formatFixed price instrument.pricePrecision)
        (arrow.formatFixed size instrument.sizePrecision) side tradeId) ++ ' ' :: timestamp))
      (unescape measurement) instrument side tradeId := by
  have fields := tradeFields_closed prints price size instrument.pricePrecision instrument.sizePrecision side tradeId
  refine ⟨_, readLine_text closed _ (List.cons_ne_nil _ _) (fun field member => (fields field member).1)
    (fun field member => (fields field member).2) timestamp, rfl, rfl, ?_⟩
  simp only [Reading.quotedFields, List.filterMap_cons, quotedText_number prints, quotedText_quoted,
    Option.map_none, Option.map_some, List.filterMap_nil]

/-- Whatever the symbol, the venue and the trade's id consist of, the tags and the quoted fields of the line give
them back; the line as a whole does where the configured table ends where its text does. -/
theorem formatTradeLine_read (prints : PrintsNumbers arrow)
    (formatted : formatTradeLine arrow instrument batch row table = some line) :
    ∃ sides tradeIds rest, uint8Column batch "aggressor_side" = some sides ∧
      stringColumn batch "trade_id" = some tradeIds ∧ line = table ++ rest ∧
      ReadsTrade rest [] instrument (aggressorName (sides row)) (tradeIds row) ∧
      (Closed table → ReadsTrade line (unescape table) instrument (aggressorName (sides row)) (tradeIds row)) := by
  obtain ⟨sides, tradeIds, price, size, ts, side, tradeId, rfl⟩ := formatTradeLine_eq formatted
  have unnamed : Closed [] := rfl
  exact ⟨sides, tradeIds, _, side, tradeId, rfl, readsTrade prints unnamed instrument price size _ _ _,
    fun closed => readsTrade prints closed instrument price size _ _ _⟩

/-- A symbol that ends in a backslash, a venue of delimiters, and a trade's id of quotation marks. -/
def delimited : InstrumentMeta := ⟨"BTC \\".toList, ",= ,".toList, 2, 3⟩

def marked : RecordBatch :=
  { tradeBatch with columns := ("trade_id".toList, .utf8 fun _ => "\"\\\" ,x=".toList) :: tradeBatch.columns }

def markedLine : Str :=
  "trade_ticks,symbol=BTC\\ \\\\,venue=\\,\\=\\ \\, price=50000.25,size=1,aggressor_side=\"BUYER\",trade_id=\"\\\"\\\\\\\" ,x=\" 17".toList

theorem oneTrade_numbers : PrintsNumbers oneTrade := by
  have chars : ("50000.25".toList ++ "1".toList).all (fun c => c.isDigit || c == '.' || c == '-') = true := by decide
  have each := List.all_eq_true.mp chars
  simp only [Bool.or_eq_true, beq_iff_eq, or_assoc] at each
  intro raw precision c member
  rw [oneTrade] at member
  dsimp only at member
  split at member
  · exact each c (List.mem_append_left _ member)
  · split at member
    · exact each c (List.mem_append_right _ member)
    · cases member

theorem formatTradeLine_read_marked :
    ReadsTrade markedLine "trade_ticks".toList delimited "BUYER".toList "\"\\\" ,x=".toList := by
  have formatted : formatTradeLine oneTrade delimited marked 0 "trade_ticks".toList = some markedLine := by
    decide +kernel
  obtain ⟨sides, tradeIds, _, side, tradeId, _, _, read⟩ := formatTradeLine_read oneTrade_numbers formatted
  cases side
  cases tradeId
  exact read (by decide)

end QuestRouter.Ingest
