/-
# BooleanLexer.Proofs.Report.Records -- the structured reports can be read back

A token is read from an object by the names of its fields (`Token.ofValue?`), whatever their
order.  Every token has its fields, those of no reader included, so a report in either of the
two structured formats gives back the tokens that it shows, and it tells nothing else of its
items (`structured_reports_lossless`).
-/
import BooleanLexer.Proofs.Json.Records
import BooleanLexer.Proofs.Text.Lines
import BooleanLexer.Report

namespace BooleanLexer

set_option autoImplicit false

open Json (Scalar Value read? strip commaSeparated)
open Text (HasLines)

/-! ## Reading a token -/

/-- The kind that a scalar names. -/
def Kind.ofScalar? : Scalar → Option Kind
  | .string name => ofName? name
  | _ => none

namespace Token

/-- The character that a scalar stands for, or that there is none. -/
def symbolOfScalar? : Scalar → Option (Option Char)
  | .null => some none
  | .string [c] => some (some c)
  | _ => none

/-- The index that a scalar stands for. -/
def indexOfScalar? : Scalar → Option Nat
  | .number index => some index
  | _ => none

/-- The token that an object describes. -/
def ofValue? (value : Value) : Option Token :=
  ((value.field? "token".toList).bind Kind.ofScalar?).bind fun kind =>
    ((value.field? "source_symbol".toList).bind symbolOfScalar?).bind fun symbol =>
      ((value.field? "variable_index".toList).bind indexOfScalar?).map fun index =>
        ⟨kind, symbol, index⟩

/-- The names of the fields of a token. -/
def fieldNames : List Text :=
  ["token".toList, "source_symbol".toList, "variable_index".toList]

theorem ofValue?_fields (token : Token) : ofValue? (.ofRecord token.fields) = some token := by
  have kind : (Value.ofRecord token.fields).field? "token".toList =
      some (.string token.kind.name) := rfl
  have symbol : (Value.ofRecord token.fields).field? "source_symbol".toList =
      some (token.symbol.elim .null fun c => .string [c]) := rfl
  have index : (Value.ofRecord token.fields).field? "variable_index".toList =
      some (.number token.index) := rfl
  have shown : symbolOfScalar? (token.symbol.elim .null fun c => .string [c]) =
      some token.symbol := by
    cases token.symbol <;> rfl
  simp only [ofValue?, kind, symbol, index, Option.bind_some, Kind.ofScalar?, Kind.ofName?_name,
    shown, indexOfScalar?, Option.map_some]

/-- The token that a line describes. -/
def ofLine? (line : Text) : Option Token := (read? line).bind ofValue?

theorem ofLine?_compact (token : Token) : ofLine? token.fields.compact = some token := by
  rw [ofLine?, Json.read?_compact, Option.bind_some, ofValue?_fields]

end Token

namespace Report

/-! ## The lines of the one format and the list of the other -/

/-- The lines that show tokens one by one. -/
def recordLines (tokens : List Token) : List Text := tokens.map fun token => token.fields.compact

theorem render_ndjson (source : Text) (items : List Item) :
    render .ndjson source items =
      ((recordLines (items.map Item.token)).map (· ++ ['\n'])).flatten := by
  simp only [render, recordLines, List.map_map, Function.comp_def]

theorem render_json (source : Text) (items : List Item) :
    render .json source items =
      Json.spreadRecords ((items.map Item.token).map Token.fields) ++ ['\n'] := by
  simp only [render, List.map_map, Function.comp_def]

theorem hasLines_render_ndjson (source : Text) (items : List Item) :
    HasLines (render .ndjson source items) (recordLines (items.map Item.token)) := by
  refine ⟨render_ndjson source items, ?_⟩
  intro line mem
  obtain ⟨token, -, rfl⟩ := List.mem_map.mp mem
  exact Json.feed_not_mem_compact token.fields

theorem mapM_ofLine?_recordLines (tokens : List Token) :
    (recordLines tokens).mapM Token.ofLine? = some tokens := by
  have each : Token.ofLine? ∘ (fun token => token.fields.compact) = fun token => pure token :=
    funext Token.ofLine?_compact
  rw [recordLines, List.mapM_map, each, List.mapM_pure, List.map_id']
  rfl

theorem mapM_ofValue?_ofRecord (tokens : List Token) :
    ((tokens.map Token.fields).map Value.ofRecord).mapM Token.ofValue? = some tokens := by
  have each : Token.ofValue? ∘ Value.ofRecord ∘ Token.fields = fun token => pure token :=
    funext Token.ofValue?_fields
  rw [List.map_map, List.mapM_map, each, List.mapM_pure, List.map_id']
  rfl

/-- The tokens that a list of objects describes. -/
def tokensOfList? (text : Text) : Option (List Token) :=
  (read? text).bind fun
    | .array values => values.mapM Token.ofValue?
    | _ => none

theorem tokensOfList?_render_json (source : Text) (items : List Item) :
    tokensOfList? (render .json source items) = some (items.map Item.token) := by
  rw [tokensOfList?, render_json, Json.read?_spreadRecords, Option.bind_some]
  exact mapM_ofValue?_ofRecord (items.map Item.token)

/-! ## The whole reports -/

theorem render_json_eq_iff (source source' : Text) (items items' : List Item) :
    render .json source items = render .json source' items' ↔
      items.map Item.token = items'.map Item.token := by
  constructor
  · intro same
    have read := congrArg tokensOfList? same
    rw [tokensOfList?_render_json, tokensOfList?_render_json] at read
    exact Option.some.inj read
  · intro same
    rw [render_json, same, ← render_json]

theorem render_ndjson_eq_iff (source source' : Text) (items items' : List Item) :
    render .ndjson source items = render .ndjson source' items' ↔
      items.map Item.token = items'.map Item.token := by
  constructor
  · intro same
    have lines := (hasLines_render_ndjson source items).unique
      (same ▸ hasLines_render_ndjson source' items')
    have read := mapM_ofLine?_recordLines (items.map Item.token)
    rw [lines, mapM_ofLine?_recordLines] at read
    exact (Option.some.inj read).symm
  · intro same
    rw [render_ndjson, same, ← render_ndjson]

/-- **The structured formats lose no token, and they agree.**  In the one format each token has
a line, which reads as an object with its fields; the other is the list of these objects, laid
out with more white space.  Both give back the tokens, so two reports in either format are the
same exactly if they show the same tokens. -/
theorem structured_reports_lossless (source : Text) (items : List Item) :
    (∃ lines,
      HasLines (render .ndjson source items) lines ∧ lines.length = items.length ∧
      (∀ line ∈ lines, ∃ members, read? line = some (.object members) ∧
        members.map Prod.fst = Token.fieldNames) ∧
      lines.mapM Token.ofLine? = some (items.map Item.token) ∧
      strip (render .json source items) = ['['] ++ commaSeparated lines ++ [']']) ∧
    tokensOfList? (render .json source items) = some (items.map Item.token) ∧
    ∀ source' items',
      (render .json source items = render .json source' items' ↔
        items.map Item.token = items'.map Item.token) ∧
      (render .ndjson source items = render .ndjson source' items' ↔
        items.map Item.token = items'.map Item.token) := by
  refine ⟨⟨recordLines (items.map Item.token), hasLines_render_ndjson source items, ?_, ?_,
    mapM_ofLine?_recordLines _, ?_⟩, tokensOfList?_render_json source items,
    fun source' items' => ⟨render_json_eq_iff source source' items items',
      render_ndjson_eq_iff source source' items items'⟩⟩
  · rw [recordLines, List.length_map, List.length_map]
  · intro line mem
    obtain ⟨token, -, rfl⟩ := List.mem_map.mp mem
    exact ⟨_, Json.read?_compact token.fields, rfl⟩
  · rw [render_json, Json.strip_spreadRecords, List.map_map]
    rfl

end Report

end BooleanLexer
