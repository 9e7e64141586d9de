/-
# BooleanLexer.Proofs.Cursor.Restart -- going on and starting again

A cursor that goes on finds what a new cursor on the rest of its source finds, with all
offsets moved by its position (`results_eq_map_shift`).  So it makes no difference whether
the rest is tokenized on its own or a parser's loop goes on: both read the same items
(`parses_iff_of_tokenizeItems`), of which only the last one can be an error, and that ends
at the character which starts no token (`stop_of_error?`).

`restart` collects this for a cursor at any place between two characters, and a session
has no other cursors (`Session.placed_of_run`).
-/
import BooleanLexer.Proofs.Cursor.Loops
import BooleanLexer.Proofs.Item.Grammar

namespace BooleanLexer

set_option autoImplicit false

open Text (byteSize)

/-! ## Reading at another place -/

namespace Item

theorem first_add (count position : Nat) (text : Text) :
    first (count + position) text = (first position text).shift count := by
  have heads := congrArg List.head? (readAll_add count position text)
  rw [List.head?_map, head?_readAll, head?_readAll, Option.map_some] at heads
  exact Option.some.inj heads

theorem afterFirst_add (count position : Nat) (text : Text) :
    afterFirst (count + position) text = afterFirst position text := by
  rw [afterFirst, afterFirst, first_add]
  simp only [shift, Span.shift, Nat.add_sub_add_left]

theorem readUntil_add (halt : Item → Bool) (count position : Nat) (text : Text) :
    readUntil halt (count + position) text =
      (readUntil (fun item => halt (item.shift count)) position text).map (shift count) := by
  rw [readUntil_eq_take, readUntil_eq_take, readAll_add, stream_add, List.findIdx_map,
    List.map_take]
  rfl

theorem readUntil_congr {halt halt' : Item → Bool} {position : Nat} {text : Text}
    (same : ∀ item ∈ stream position text, halt item = halt' item) :
    readUntil halt position text = readUntil halt' position text := by
  have index : (stream position text).findIdx halt = (stream position text).findIdx halt' :=
    Nat.le_antisymm
      (List.findIdx_le_findIdx fun item mem holds => by rw [same item mem]; exact holds)
      (List.findIdx_le_findIdx fun item mem holds => by rw [← same item mem]; exact holds)
  rw [readUntil_eq_take, readUntil_eq_take, index]

/-- Only the last item that is read is the end or one that is looked for. -/
theorem exists_readUntil_eq_append (halt : Item → Bool) (position : Nat) (text : Text) :
    ∃ front last, readUntil halt position text = front ++ [last] ∧
      (∀ item ∈ front, halt item = false) ∧ (last.isFinish = true ∨ halt last = true) := by
  fun_induction readUntil halt position text with
  | case1 position text item stops =>
      exact ⟨[], item, rfl, by simp, Bool.or_eq_true_iff.mp stops⟩
  | case2 position text item goes_on ih =>
      obtain ⟨front, last, read, clean, ends⟩ := ih
      obtain ⟨-, passed⟩ := Bool.or_eq_false_iff.mp (Bool.eq_false_iff.mpr goes_on)
      exact ⟨item :: front, last, by rw [read]; rfl, List.forall_mem_cons.mpr ⟨passed, clean⟩,
        ends⟩

/-! ## Errors of items -/

theorem error?_of_isFinish {item : Item} (finished : item.isFinish = true) :
    item.error? = none := by
  have kind : item.token.kind = .finish := by simpa [isFinish] using finished
  simp [error?, kind]

theorem error?_eq_some_iff {item : Item} {error : Unexpected} :
    item.error? = some error ↔ item.token.kind = .unknown ∧
      item.token.symbol = some error.character ∧ item.span.start = error.offset := by
  unfold error?
  split
  · next c unknown symbol =>
      cases error
      simp [unknown, symbol]
  · next no_error =>
      simp only [reduceCtorEq, false_iff]
      rintro ⟨unknown, symbol, -⟩
      exact no_error _ unknown symbol

theorem error?_of_known {item : Item} (known : item.token.kind ≠ .unknown) :
    item.error? = none := by
  by_contra some_error
  obtain ⟨error, found⟩ := Option.ne_none_iff_exists'.mp some_error
  exact known (error?_eq_some_iff.mp found).1

/-- An item of a stream is an error exactly if it ends the loop of a parser. -/
theorem isSome_error?_eq_isTerminal {position : Nat} {text : Text} {item : Item}
    (mem : item ∈ stream position text) : item.error?.isSome = item.token.isTerminal := by
  have unfinished := isFinish_of_mem_stream mem
  obtain ⟨before, c, rest, -, -, rfl⟩ := exists_of_mem_stream mem
  rw [Bool.eq_iff_iff, Cursor.isTerminal_iff, Option.isSome_iff_exists, unfinished]
  simp only [error?_eq_some_iff, Lexeme.symbol_leading, Bool.false_eq_true, false_or]
  constructor
  · rintro ⟨error, unknown, -⟩
    exact unknown
  · intro unknown
    exact ⟨⟨c, _⟩, unknown, rfl, rfl⟩

/-- Where the character of an error stands, and where its item ends. -/
theorem place_of_error? {position : Nat} {text : Text} {item : Item} {error : Unexpected}
    (mem : item ∈ stream position text) (found : item.error? = some error) :
    ∃ before behind, text = before ++ error.character :: behind ∧
      position + byteSize before = error.offset ∧
      item.span.stop = error.offset + error.character.utf8Size := by
  obtain ⟨unknown, symbol, start⟩ := error?_eq_some_iff.mp found
  obtain ⟨before, c, behind, divided, -, rfl⟩ := exists_of_mem_stream mem
  have same : c = error.character := by simpa [Lexeme.symbol_leading] using symbol
  have mark : c ∉ Text.marks := ((Lexeme.kind_leading_eq_unknown_iff c).mp unknown).2
  refine ⟨before, behind, same ▸ divided, start, ?_⟩
  rw [← start, ← same, Lexeme.written_of_not_mem_marks mark, Text.byteSize_cons,
    Text.byteSize_nil, Nat.add_zero]

end Item

/-! ## Tokenizing what is left -/

/-- Tokenizing reads up to an item that is the end or an error, and goes by that item. -/
theorem exists_tokenizeItems_eq_append (text : Text) :
    ∃ front last, tokenizeItems text = front ++ [last] ∧
      (last.isFinish = true ∨ ∃ error, last.error? = some error) ∧
      tokenize text =
        last.error?.elim (.ok ((front ++ [last]).map Item.token)) Except.error := by
  obtain ⟨front, last, read, clean, ends⟩ :=
    Item.exists_readUntil_eq_append (fun item => item.error?.isSome) 0 text
  have read : tokenizeItems text = front ++ [last] := read
  have nothing : front.findSome? Item.error? = none :=
    List.findSome?_eq_none_iff.mpr fun item mem => by simpa using clean item mem
  have found : (front ++ [last]).findSome? Item.error? = last.error? := by
    rw [List.findSome?_append, nothing]
    simp [List.findSome?]
    cases last.error? <;> rfl
  refine ⟨front, last, read, ends.imp_right Option.isSome_iff_exists.mp, ?_⟩
  rw [tokenize, read, found]
  cases last.error? <;> rfl

/-- What ends tokenizing with an error is an item of the stream. -/
theorem mem_stream_of_mem_tokenizeItems {text : Text} {item : Item} {error : Unexpected}
    (mem : item ∈ tokenizeItems text) (found : item.error? = some error) :
    item ∈ Item.stream 0 text := by
  rw [tokenizeItems, Item.readUntil_eq_take] at mem
  refine List.mem_filter.mpr ⟨List.mem_of_mem_take mem, ?_⟩
  by_contra finished
  rw [Item.error?_of_isFinish (by simpa using finished)] at found
  cases found

namespace Cursor

/-- The results of scanning `count` times. -/
def results : Nat → Cursor → List Item
  | 0, _ => []
  | count + 1, cursor => cursor.scan.1 :: results count cursor.scan.2

/-- Two cursors with the same text left find the same tokens, at places that are as far from
each other as they are. -/
theorem results_add {cursor other : Cursor} {count : Nat} (placed : cursor.Placed)
    (placed' : other.Placed) (same : cursor.rest = other.rest)
    (apart : cursor.position = count + other.position) (times : Nat) :
    cursor.results times = (other.results times).map (Item.shift count) := by
  induction times generalizing cursor other with
  | zero => rfl
  | succ times ih =>
      obtain ⟨next, rest⟩ := placed.scan
      obtain ⟨next', rest'⟩ := placed'.scan
      have item : cursor.scan.1 = other.scan.1.shift count := by
        change Item.first _ _ = (Item.first _ _).shift count
        rw [same, apart, Item.first_add]
      have left : cursor.scan.2.rest = other.scan.2.rest := by
        rw [rest, rest', same, apart, Item.afterFirst_add]
      have position : cursor.scan.2.position = count + other.scan.2.position :=
        congrArg (fun item => item.span.stop) item
      rw [results, results, List.map_cons, item, ih next next' left position]

/-- The loop of a parser reads what is read to tokenize the rest of the source. -/
theorem parses_iff_of_tokenizeItems {cursor : Cursor} (placed : cursor.Placed)
    {front : List Item} {item : Item} (read : tokenizeItems cursor.rest = front ++ [item])
    {tokens : List Token} {last : Cursor} :
    cursor.Parses tokens last ↔ tokens = (front ++ [item]).map Item.token ∧
      last = ⟨cursor.source, cursor.position + item.span.stop⟩ := by
  have items : (cursor.readUntil fun item => item.token.isTerminal).1 =
      (front ++ [item]).map (Item.shift cursor.position) := by
    have shifted := Item.readUntil_add (fun item => item.token.isTerminal) cursor.position 0
      cursor.rest
    have halts : tokenizeItems cursor.rest =
        Item.readUntil (fun item => item.token.isTerminal) 0 cursor.rest :=
      Item.readUntil_congr fun item mem => Item.isSome_error?_eq_isTerminal mem
    rw [← read, halts]
    exact shifted
  have moved : (cursor.readUntil fun item => item.token.isTerminal).2 =
      ⟨cursor.source, cursor.position + item.span.stop⟩ := by
    change cursor.behind (cursor.readUntil fun item => item.token.isTerminal).1 = _
    rw [items, behind]
    simp [Item.shift, Span.shift]
  have parses := parses_readUntil placed
  rw [items, moved, List.map_map] at parses
  constructor
  · intro parses'
    exact parses'.unique parses
  · rintro ⟨rfl, rfl⟩
    exact parses

theorem tokenize_eq_ok_iff {cursor : Cursor} (placed : cursor.Placed) {tokens : List Token} :
    tokenize cursor.rest = .ok tokens ↔
      ∃ last, cursor.Parses tokens last ∧ endsWith tokens .finish := by
  obtain ⟨front, item, read, ends, result⟩ := exists_tokenizeItems_eq_append cursor.rest
  simp only [parses_iff_of_tokenizeItems placed read, result]
  rcases ends with finished | ⟨error, found⟩
  · rw [Item.error?_of_isFinish finished, Option.elim_none, Except.ok.injEq]
    constructor
    · rintro rfl
      have kind : item.token.kind = .finish := by simpa [Item.isFinish] using finished
      exact ⟨_, ⟨rfl, rfl⟩, item.token, by simp, kind⟩
    · rintro ⟨_, ⟨rfl, -⟩, -⟩
      rfl
  · have unknown := (Item.error?_eq_some_iff.mp found).1
    rw [found, Option.elim_some]
    constructor
    · intro refused
      cases refused
    · rintro ⟨_, ⟨rfl, -⟩, token, last, kind⟩
      have same : item.token = token := by simpa using last
      rw [← same, unknown] at kind
      cases kind

theorem tokenize_eq_error_iff {cursor : Cursor} (placed : cursor.Placed) {c : Char}
    {offset : Nat} :
    tokenize cursor.rest = .error ⟨c, offset⟩ ↔
      ∃ tokens last, cursor.Parses tokens last ∧ endsUnexpectedly tokens c ∧
        last.position = cursor.position + offset + c.utf8Size := by
  obtain ⟨front, item, read, ends, result⟩ := exists_tokenizeItems_eq_append cursor.rest
  simp only [parses_iff_of_tokenizeItems placed read, result]
  rcases ends with finished | ⟨error, found⟩
  · rw [Item.error?_of_isFinish finished, Option.elim_none]
    constructor
    · intro accepted
      cases accepted
    · rintro ⟨_, _, ⟨rfl, -⟩, ⟨token, last, unknown, -⟩, -⟩
      have same : item.token = token := by simpa using last
      have kind : item.token.kind = .finish := by simpa [Item.isFinish] using finished
      rw [← same, kind] at unknown
      cases unknown
  · have mem : item ∈ tokenizeItems cursor.rest := by simp [read]
    obtain ⟨-, -, -, -, stop⟩ :=
      Item.place_of_error? (mem_stream_of_mem_tokenizeItems mem found) found
    obtain ⟨unknown, symbol, -⟩ := Item.error?_eq_some_iff.mp found
    rw [found, Option.elim_some, Except.error.injEq]
    constructor
    · rintro rfl
      exact ⟨_, _, ⟨rfl, rfl⟩, ⟨item.token, by simp, unknown, symbol⟩,
        by simp [stop, Nat.add_assoc]⟩
    · rintro ⟨_, _, ⟨rfl, rfl⟩, ⟨token, last, -, symbol'⟩, position⟩
      have same : item.token = token := by simpa using last
      rw [← same, symbol, Option.some_inj] at symbol'
      subst symbol'
      have offset : error.offset = offset := by
        simp only [stop] at position
        omega
      rw [← offset]

/-- Tokenizing fails exactly where the loop of a parser ends with an unexpected character. -/
theorem exists_tokenize_eq_error_iff {cursor : Cursor} (placed : cursor.Placed) {c : Char} :
    (∃ offset, tokenize cursor.rest = .error ⟨c, offset⟩) ↔
      ∃ tokens last, cursor.Parses tokens last ∧ endsUnexpectedly tokens c := by
  constructor
  · rintro ⟨offset, refused⟩
    obtain ⟨tokens, last, parses, ends, -⟩ := (tokenize_eq_error_iff placed).mp refused
    exact ⟨tokens, last, parses, ends⟩
  · rintro ⟨tokens, last, parses, token, is_last, unknown, symbol⟩
    cases result : tokenize cursor.rest with
    | ok tokens' =>
        obtain ⟨last', parses', token', is_last', finish⟩ := (tokenize_eq_ok_iff placed).mp result
        obtain ⟨rfl, -⟩ := parses.unique parses'
        rw [is_last, Option.some_inj] at is_last'
        rw [← is_last', unknown] at finish
        cases finish
    | error error =>
        obtain ⟨tokens', last', parses', ⟨token', is_last', -, symbol'⟩, -⟩ :=
          (tokenize_eq_error_iff placed).mp result
        obtain ⟨rfl, -⟩ := parses.unique parses'
        rw [is_last, Option.some_inj] at is_last'
        rw [← is_last', symbol, Option.some_inj] at symbol'
        exact ⟨error.offset, by rw [symbol']⟩

/-- The character that an error names stands at its offset behind the cursor. -/
theorem exists_append_of_tokenize_eq_error {cursor : Cursor} (placed : cursor.Placed) {c : Char}
    {offset : Nat} (refused : tokenize cursor.rest = .error ⟨c, offset⟩) :
    ∃ before behind, cursor.source = before ++ c :: behind ∧
      byteSize before = cursor.position + offset := by
  obtain ⟨passed, divided, size⟩ := Text.dropBytes?_eq_some_iff.mp placed
  obtain ⟨front, item, read, -, result⟩ := exists_tokenizeItems_eq_append cursor.rest
  rw [result] at refused
  cases found : item.error? with
  | none => simp [found] at refused
  | some error =>
      rw [found, Option.elim_some, Except.error.injEq] at refused
      have mem : item ∈ tokenizeItems cursor.rest := by simp [read]
      obtain ⟨before, behind, rest, start, -⟩ :=
        Item.place_of_error? (mem_stream_of_mem_tokenizeItems mem found) found
      subst refused
      have start : byteSize before = offset := (Nat.zero_add _).symm.trans start
      refine ⟨passed ++ before, behind, ?_, ?_⟩
      · rw [List.append_assoc, ← rest]
        exact divided
      · rw [Text.byteSize_append, size, start]

end Cursor

/-- Every cursor of a session is placed. -/
theorem Session.placed_of_run {source : Text} {steps : List Step} {replies : List Reply}
    {session : Session} (ran : (Session.new source).run steps = some (replies, session)) :
    ∀ cursor ∈ session.cursors, cursor.Placed := by
  have started : Session.new source = ofBookmarks [.start source] := rfl
  rw [started, run_ofBookmarks] at ran
  obtain ⟨⟨_, marks⟩, -, same⟩ := Option.map_eq_some_iff.mp ran
  obtain ⟨-, rfl⟩ := Prod.mk.inj same
  intro cursor mem
  obtain ⟨mark, -, rfl⟩ := List.mem_map.mp mem
  exact mark.placed_cursor.1

namespace Cursor

/-- **Starting again on the rest of a source agrees with going on.**  The results are those
of a new cursor, moved; tokenizing the rest succeeds, and fails, exactly where the loop of a
parser ends with the end, and with an unexpected character; and the loop, started again
until it ends with the end, takes every token once. -/
theorem restart {cursor : Cursor} (placed : cursor.Placed) :
    (∀ count, cursor.results count =
      ((new cursor.rest).results count).map (Item.shift cursor.position)) ∧
    (∃! ended : List Token × Cursor, cursor.Parses ended.1 ended.2) ∧
    (∀ tokens, tokenize cursor.rest = .ok tokens ↔
      ∃ last, cursor.Parses tokens last ∧ endsWith tokens .finish) ∧
    (∀ c, (∃ offset, tokenize cursor.rest = .error ⟨c, offset⟩) ↔
      ∃ tokens last, cursor.Parses tokens last ∧ endsUnexpectedly tokens c) ∧
    (∀ c offset,
      (tokenize cursor.rest = .error ⟨c, offset⟩ ↔
        ∃ tokens last, cursor.Parses tokens last ∧ endsUnexpectedly tokens c ∧
          last.position = cursor.position + offset + c.utf8Size) ∧
      (tokenize cursor.rest = .error ⟨c, offset⟩ →
        ∃ before behind, cursor.source = before ++ c :: behind ∧
          byteSize before = cursor.position + offset)) ∧
    (∃ items, cursor.Scans items ∧ (∃ rounds, cursor.Rounds rounds) ∧
      ∀ rounds, cursor.Rounds rounds → rounds.flatten = items.map Item.token ∧
        rounds.length = 1 + unknowns (items.map Item.token)) ∧
    ∀ steps replies session, (Session.new cursor.source).run steps = some (replies, session) →
      ∀ reached ∈ session.cursors, reached.Placed := by
  have scans := scans_readAll placed
  refine ⟨fun count => ?_, existsUnique_parses placed, fun tokens => tokenize_eq_ok_iff placed,
    fun c => exists_tokenize_eq_error_iff placed, fun c offset =>
    ⟨tokenize_eq_error_iff placed, exists_append_of_tokenize_eq_error placed⟩,
    ⟨_, scans, scans.exists_rounds, fun rounds made => ?_⟩,
    fun steps replies session => Session.placed_of_run⟩
  · exact results_add placed (placed_new _) (rest_new _).symm rfl count
  · obtain ⟨items, scans', flat, length⟩ := made.scans
    have same : items = Item.readAll cursor.position cursor.rest :=
      (scans_iff_eq_readAll placed).mp scans'
    exact same ▸ ⟨flat, length⟩

/-- Behind a character of two bytes, a blank, an operator and an error. -/
theorem restart_behind_two_bytes :
    (Cursor.mk ['é', ' ', '|', '1', '|', 'b'] 2).Placed ∧
      ∃ tokens last, (Cursor.mk ['é', ' ', '|', '1', '|', 'b'] 2).Parses tokens last ∧
        endsUnexpectedly tokens '1' ∧ last.position = 5 := by
  obtain ⟨placed, rest⟩ : (Cursor.mk ['é', ' ', '|', '1', '|', 'b'] 2).Placed ∧
      (Cursor.mk ['é', ' ', '|', '1', '|', 'b'] 2).rest = [' ', '|', '1', '|', 'b'] :=
    placed_of_append ['é'] rfl (by decide)
  have read : tokenizeItems [' ', '|', '1', '|', 'b'] =
      [⟨.plain .or '|', ⟨1, 2⟩⟩, ⟨.plain .unknown '1', ⟨2, 3⟩⟩] := by
    rw [tokenizeItems, Item.readUntil, if_neg (by decide), Item.readUntil, if_pos (by decide)]
    rfl
  refine ⟨placed, ((restart placed).2.2.2.2.1 '1' 2).1.mp ?_⟩
  rw [rest, tokenize, read]
  rfl

end Cursor

end BooleanLexer
