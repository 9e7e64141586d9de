/-
# BooleanLexer.Proofs.Scan.Location -- from the items of a scan back to the bytes

Offsets in a scan count the bytes of the decoded text, and decoding changes how many there are.
`Located` says which bytes an item was read from: either the bytes of its text stand at its span
moved back by the drift, or it is a replacement character and owns the bytes that were repaired.

Each item covers whole pieces of the bytes (`Covers`), so the bytes of an item are told by the
pieces in front of it and its own.  Pieces divide the bytes as items divide the solid characters
of the text; hence every byte that is not blank belongs to one item (`every_item_located`).
-/
import BooleanLexer.Proofs.Item.Words
import BooleanLexer.Proofs.Scan.Agreement
import BooleanLexer.Proofs.Utf8.Repairs

namespace BooleanLexer

set_option autoImplicit false

open Utf8 (Piece Repair repairs growth drift rawSize textSize pieces decode encode)

namespace Utf8

/-- The bytes of the characters that separate tokens. -/
def blankBytes : List UInt8 := [0x20, 0x09, 0x0a, 0x0b, 0x0c, 0x0d]

/-- A blank is written with a blank byte. -/
theorem encodeChar_of_isBlank {c : Char} (blank : Text.isBlank c = true) :
    ∃ byte ∈ blankBytes, String.utf8EncodeChar c = [byte] := by
  have table : Text.blanks.all (fun c => String.utf8EncodeChar c = [.ofNat c.toNat] ∧
      UInt8.ofNat c.toNat ∈ blankBytes) = true := by decide
  have mem : c ∈ Text.blanks := by simpa [Text.isBlank] using blank
  obtain ⟨single, listed⟩ := of_decide_eq_true (List.all_eq_true.mp table c mem)
  exact ⟨_, listed, single⟩

/-- Every byte is in some piece. -/
theorem exists_piece_of_lt {bytes : List UInt8} {index : Nat} (within : index < bytes.length) :
    ∃ front piece back, pieces bytes = front ++ piece :: back ∧ rawSize front ≤ index ∧
      index < rawSize front + piece.bytes.length := by
  rw [← rawSize_pieces] at within
  generalize pieces bytes = all at within
  induction all generalizing index with
  | nil => exact absurd within (Nat.not_lt_zero index)
  | cons piece later ih =>
      rw [rawSize_cons] at within
      by_cases here : index < piece.bytes.length
      · exact ⟨[], piece, later, rfl, Nat.zero_le _, by rwa [rawSize_nil, Nat.zero_add]⟩
      · obtain ⟨front, found, back, rfl, behind, before⟩ :=
          ih (show index - piece.bytes.length < rawSize later by omega)
        refine ⟨piece :: front, found, back, rfl, ?_, ?_⟩ <;> rw [rawSize_cons] <;> omega

theorem eq_ofChar_of_whole {piece : Piece} (sound : piece.Sound) (whole : piece.isBroken = false) :
    piece = .ofChar piece.char := by
  cases sound with
  | whole c => rfl
  | broken broken => rw [broken] at whole; cases whole

theorem startsWith_of_extract {bytes : List UInt8} {start stop : Nat} {c : Char}
    (own : bytes.extract start stop = encode [c]) : StartsWith (bytes.drop start) c := by
  rw [List.extract_eq_drop_take', List.drop_take] at own
  refine ⟨(bytes.drop start).drop (stop - start), ?_⟩
  conv_lhs => rw [← List.take_append_drop (stop - start) (bytes.drop start), own]
  rw [encode_cons, encode, List.flatMap_nil, List.append_nil]

theorem rawSize_map_ofChar (text : Text) : rawSize (text.map Piece.ofChar) = Text.byteSize text := by
  rw [rawSize, List.flatMap_map, ← length_encode]
  rfl

theorem textSize_map_ofChar (text : Text) :
    textSize (text.map Piece.ofChar) = Text.byteSize text := by
  rw [textSize, List.map_map]
  exact congrArg Text.byteSize (List.map_id' text)

end Utf8

namespace Scan

/-! ## The bytes of an item -/

/-- The bytes that an item of the text of some bytes was read from. -/
inductive Located (bytes : List UInt8) (item : Item) : Span → Prop where
  /-- The bytes at the span of the item, moved back by the drift, are those of its text. -/
  | written {part : Text} : item.spanned? (decode bytes) = some part →
      drift bytes item.span.start ≤ item.span.start →
      bytes.extract (item.span.start - drift bytes item.span.start)
        (item.span.stop - drift bytes item.span.start) = encode part →
      Located bytes item ⟨item.span.start - drift bytes item.span.start,
        item.span.stop - drift bytes item.span.start⟩
  /-- The item is a replacement character, and it was put there for the bytes at its start, moved
  back by the growth of the repairs before. -/
  | repaired {before after : List Repair} {repair : Repair} :
      repairs bytes = before ++ repair :: after →
      item.token = .plain .unknown Piece.replacement → item.span.stop = item.span.start + 3 →
      drift bytes item.span.start = growth before →
      drift bytes item.span.start ≤ item.span.start →
      item.span.start - drift bytes item.span.start = repair.origin →
      Located bytes item ⟨repair.origin, repair.origin + repair.size⟩

/-- The pieces that an item covers, with those in front of it and behind it. -/
structure Covers (bytes : List UInt8) (item : Item) (front middle back : List Piece) : Prop where
  divided : pieces bytes = front ++ (middle ++ back)
  start : item.span.start = textSize front
  stop : item.span.stop = textSize (front ++ middle)
  /-- Only an item of a single replacement character covers a broken piece. -/
  held : (∃ text : Text, text ≠ [] ∧ middle = text.map Piece.ofChar) ∨
    ∃ piece, middle = [piece] ∧ piece.isBroken = true ∧
      item.token = .plain .unknown Piece.replacement

/-- The text of an item divides the pieces in front of it, behind it and its own. -/
theorem exists_covers {bytes : List UInt8} {item : Item}
    (mem : item ∈ Item.stream 0 (decode bytes)) :
    ∃ front middle back, Covers bytes item front middle back := by
  obtain ⟨before, c, rest, text, -, rfl⟩ := Item.exists_of_mem_stream mem
  rw [← Lexeme.written_append_after, decode] at text
  obtain ⟨front, others, divided, rfl, solid_text⟩ := List.map_eq_append_iff.mp text
  obtain ⟨middle, back, rfl, held, -⟩ := List.map_eq_append_iff.mp solid_text
  refine ⟨front, middle, back, divided, Nat.zero_add _, ?_, ?_⟩
  · rw [Utf8.textSize_append, textSize, textSize, ← held, Nat.zero_add]
  · by_cases whole : ∀ piece ∈ middle, piece.isBroken = false
    · refine .inl ⟨Lexeme.written c rest, Lexeme.written_ne_nil c rest, ?_⟩
      rw [← held, List.map_map]
      conv_lhs => rw [← List.map_id middle]
      refine List.map_congr_left fun piece mem => ?_
      have listed : piece ∈ pieces bytes := by
        rw [divided]
        exact List.mem_append_right front (List.mem_append_left back mem)
      exact Utf8.eq_ofChar_of_whole (Utf8.sound_of_mem_pieces listed) (whole piece mem)
    · obtain ⟨piece, mem, broken⟩ : ∃ piece ∈ middle, piece.isBroken = true := by
        simpa using whole
      have char := (Utf8.size_char_of_isBroken broken).1
      have same : piece.char = c :=
        Lexeme.eq_of_mem_written (show piece.char ∈ Lexeme.written c rest from
          held ▸ List.mem_map_of_mem mem)
      -- The replacement character doubles nothing, so the item holds it alone.
      rw [← same, char] at held ⊢
      obtain ⟨single, rfl, -⟩ := List.map_eq_singleton_iff.mp held
      rw [← List.mem_singleton.mp mem]
      exact .inr ⟨piece, rfl, broken, rfl⟩

namespace Covers

variable {bytes : List UInt8} {item later : Item} {front middle back front' middle' back' : List Piece}

theorem prefix_front (covers : Covers bytes item front middle back) : front <+: pieces bytes :=
  ⟨middle ++ back, covers.divided.symm⟩

theorem prefix_middle (covers : Covers bytes item front middle back) :
    front ++ middle <+: pieces bytes :=
  ⟨back, by rw [covers.divided, List.append_assoc]⟩

/-- The start of an item, moved back by the drift, is the end of the pieces in front of it. -/
theorem start_sub (covers : Covers bytes item front middle back) :
    drift bytes item.span.start ≤ item.span.start ∧
      item.span.start - drift bytes item.span.start = rawSize front := by
  have moved := Utf8.textSize_eq_add_drift covers.divided
  rw [covers.start]
  omega

theorem spanned? (covers : Covers bytes item front middle back) :
    item.spanned? (decode bytes) = some (middle.map Piece.char) := by
  have text : decode bytes =
      front.map Piece.char ++ (middle.map Piece.char ++ back.map Piece.char) := by
    rw [decode, covers.divided, List.map_append, List.map_append]
  have start : item.span.start = Text.byteSize (front.map Piece.char) + 0 := covers.start
  have stop : item.span.stop =
      Text.byteSize (front.map Piece.char) + Text.byteSize (middle.map Piece.char) := by
    rw [covers.stop, Utf8.textSize_append]
    rfl
  rw [Item.spanned?, text, start, stop, Text.slice?_byteSize_add_append,
    Text.slice?_zero_byteSize_append]

/-- Whole pieces move back as one. -/
theorem stop_sub {text : Text} (covers : Covers bytes item front middle back)
    (whole : middle = text.map Piece.ofChar) :
    item.span.stop - drift bytes item.span.start = rawSize (front ++ middle) := by
  have moved := Utf8.textSize_eq_add_drift covers.divided
  rw [covers.stop, covers.start, Utf8.textSize_append, Utf8.rawSize_append, whole,
    Utf8.textSize_map_ofChar, Utf8.rawSize_map_ofChar]
  omega

/-- An item was read from the bytes of the pieces that it covers. -/
theorem located (covers : Covers bytes item front middle back) :
    Located bytes item ⟨rawSize front, rawSize (front ++ middle)⟩ := by
  obtain ⟨before, start⟩ := covers.start_sub
  rcases covers.held with ⟨text, -, whole⟩ | ⟨piece, rfl, broken, token⟩
  · have stop := covers.stop_sub whole
    have spanned := covers.spanned?
    have chars : middle.map Piece.char = text := by
      rw [whole, List.map_map]
      exact List.map_id' text
    have own : bytes.extract (rawSize front) (rawSize (front ++ middle)) = encode text := by
      rw [Utf8.extract_of_divided covers.divided, whole, List.flatMap_map]
      rfl
    rw [chars] at spanned
    rw [← start, ← stop] at own ⊢
    exact .written spanned before own
  · have listed : repairs bytes = Utf8.repairsFrom 0 0 front ++
        ⟨rawSize front, piece.bytes.length, textSize front⟩ ::
          Utf8.repairsFrom (rawSize (front ++ [piece])) (textSize (front ++ [piece])) back := by
      rw [repairs, covers.divided, Utf8.repairsFrom_append, List.singleton_append, Utf8.repairsFrom,
        if_pos broken]
      simp
    have size := (Utf8.size_char_of_isBroken broken).2
    have stop : item.span.stop = item.span.start + 3 := by
      rw [covers.stop, covers.start, Utf8.textSize_append, Utf8.textSize_cons, size,
        Utf8.textSize_nil]
    have growth_eq : drift bytes item.span.start = growth (Utf8.repairsFrom 0 0 front) := by
      rw [covers.start]
      exact Utf8.drift_textSize covers.divided
    have home := Located.repaired listed token stop growth_eq before start
    simpa using home

/-- There are no other bytes that an item was read from. -/
theorem home_eq (covers : Covers bytes item front middle back) {home : Span}
    (located : Located bytes item home) : home = ⟨rawSize front, rawSize (front ++ middle)⟩ := by
  have start := covers.start_sub.2
  cases located with
  | @written part spanned _ own =>
      rcases covers.held with ⟨text, -, whole⟩ | ⟨piece, rfl, broken, -⟩
      · rw [start, covers.stop_sub whole]
      · -- The bytes would be those of the replacement character, but no character starts here.
        have held := covers.spanned?
        rw [spanned, List.map_singleton, (Utf8.size_char_of_isBroken broken).1] at held
        rw [Option.some.inj held, start] at own
        have maximal := (Utf8.drop_rawSize_of_divided covers.divided).2 broken
        exact absurd (Utf8.startsWith_of_extract own) (maximal.no_character Piece.replacement)
  | @repaired before after repair listed _ _ _ _ origin =>
      have mem : repair ∈ repairs bytes := by
        rw [listed]
        exact List.mem_append_right before List.mem_cons_self
      obtain ⟨-, -, maximal, -⟩ := Utf8.spec_of_mem_repairs mem
      rw [← origin, start] at maximal ⊢
      rcases covers.held with ⟨text, nonempty, rfl⟩ | ⟨piece, rfl, broken, -⟩
      · -- A character starts here, so nothing was repaired.
        obtain ⟨c, text, rfl⟩ := List.exists_cons_of_ne_nil nonempty
        have starts := (Utf8.drop_rawSize_of_divided covers.divided).1 c rfl
        exact absurd starts (maximal.no_character c)
      · have same := (Utf8.drop_rawSize_of_divided covers.divided).2 broken
        rw [maximal.isGreatest.unique same.isGreatest, Utf8.rawSize_append, Utf8.rawSize_cons,
          Utf8.rawSize_nil, Nat.add_zero]

/-- What ends in front of another item in the text does so in the bytes. -/
theorem rawSize_le_of_stop_le (covers : Covers bytes item front middle back)
    (covers' : Covers bytes later front' middle' back') (ordered : item.span.stop ≤ later.span.start) :
    rawSize (front ++ middle) ≤ rawSize front' := by
  apply Utf8.rawSize_le_of_prefix
  rw [covers.stop, covers'.start] at ordered
  exact Utf8.prefix_of_textSize_le covers.prefix_middle covers'.prefix_front ordered

/-- A piece whose place in the text is within the span of an item is among those that the item
covers. -/
theorem within_of_span {before after : List Piece} {piece : Piece}
    (covers : Covers bytes item front middle back)
    (divided : pieces bytes = before ++ piece :: after)
    (start : item.span.start ≤ textSize before) (stop : textSize before < item.span.stop) :
    rawSize front ≤ rawSize before ∧
      rawSize before + piece.bytes.length ≤ rawSize (front ++ middle) := by
  have of_before : before <+: pieces bytes := ⟨piece :: after, divided.symm⟩
  have of_piece : before ++ [piece] <+: pieces bytes := ⟨after, by simp [divided]⟩
  rw [covers.start] at start
  rw [covers.stop] at stop
  refine ⟨Utf8.rawSize_le_of_prefix (Utf8.prefix_of_textSize_le covers.prefix_front of_before start), ?_⟩
  have longer : before ++ [piece] <+: front ++ middle := by
    rcases List.prefix_or_prefix_of_prefix of_piece covers.prefix_middle with longer | shorter
    · exact longer
    · rcases List.prefix_concat_iff.mp shorter with same | shorter
      · exact ⟨[], by rw [List.append_nil, same]⟩
      · -- The item would stop in front of the piece.
        obtain ⟨rest, rfl⟩ := shorter
        rw [Utf8.textSize_append (front ++ middle)] at stop
        omega
  have := Utf8.rawSize_le_of_prefix longer
  rwa [Utf8.rawSize_append before, Utf8.rawSize_cons, Utf8.rawSize_nil, Nat.add_zero] at this

end Covers

/-! ## The bytes of all items -/

/-- The solid character at a place is in the span of some item. -/
theorem exists_item_of_solid {text front back : Text} {c : Char} (divided : text = front ++ c :: back)
    (solid : Text.isBlank c = false) :
    ∃ item ∈ Item.stream 0 text,
      item.span.start ≤ Text.byteSize front ∧ Text.byteSize front < item.span.stop := by
  have division : Division 0 text (Item.stream 0 text) := division_iff_eq_stream.mpr rfl
  by_contra uncovered
  push Not at uncovered
  refine isBlank_eq_false_iff.mp solid (division.gaps front c back divided fun item mem => ?_)
  have := uncovered item mem
  omega

/-- A byte that is not blank is in the bytes of some item. -/
theorem exists_home_of_not_blank {bytes : List UInt8} {index : Nat} {byte : UInt8}
    (found : bytes[index]? = some byte) (not_blank : byte ∉ Utf8.blankBytes) :
    ∃ item ∈ Item.stream 0 (decode bytes), ∃ home, Located bytes item home ∧
      home.start ≤ index ∧ index < home.stop := by
  obtain ⟨within, -⟩ := List.getElem?_eq_some_iff.mp found
  obtain ⟨before, piece, after, divided, from_piece, to_piece⟩ := Utf8.exists_piece_of_lt within
  have mem : byte ∈ piece.bytes := Utf8.mem_of_divided divided from_piece to_piece found
  have solid : Text.isBlank piece.char = false := by
    cases whole : piece.isBroken with
    | true =>
        rw [(Utf8.size_char_of_isBroken whole).1]
        decide
    | false =>
        by_contra blank
        obtain ⟨own, listed, single⟩ := Utf8.encodeChar_of_isBlank (Bool.eq_true_of_not_eq_false blank)
        have listed_piece : piece ∈ pieces bytes := by simp [divided]
        have same := Utf8.eq_ofChar_of_whole (Utf8.sound_of_mem_pieces listed_piece) whole
        rw [same, Piece.ofChar, Piece.bytes, single, List.mem_singleton] at mem
        exact not_blank (mem ▸ listed)
  have text : decode bytes = before.map Piece.char ++ piece.char :: after.map Piece.char := by
    rw [decode, divided, List.map_append, List.map_cons]
  obtain ⟨item, listed, start, stop⟩ := exists_item_of_solid text solid
  obtain ⟨front, middle, back, covers⟩ := exists_covers listed
  obtain ⟨lower, upper⟩ := covers.within_of_span divided start stop
  exact ⟨item, listed, _, covers.located, Nat.le_trans lower from_piece,
    Nat.lt_of_lt_of_le to_piece upper⟩

/-- No byte is in the bytes of two items. -/
theorem item_unique_of_home {bytes : List UInt8} {index : Nat} {item item' : Item} {home home' : Span}
    (mem : item ∈ Item.stream 0 (decode bytes)) (mem' : item' ∈ Item.stream 0 (decode bytes))
    (located : Located bytes item home) (located' : Located bytes item' home')
    (inside : home.start ≤ index ∧ index < home.stop)
    (inside' : home'.start ≤ index ∧ index < home'.stop) : item = item' := by
  obtain ⟨front, middle, back, covers⟩ := exists_covers mem
  obtain ⟨front', middle', back', covers'⟩ := exists_covers mem'
  rw [covers.home_eq located] at inside
  rw [covers'.home_eq located'] at inside'
  rcases Item.eq_or_apart_of_mem_stream mem mem' with same | before | behind
  · exact same
  · have := covers.rawSize_le_of_stop_le covers' before
    dsimp only at inside inside'
    omega
  · have := covers'.rawSize_le_of_stop_le covers behind
    dsimp only at inside inside'
    omega

/-- **Every item of a scan of bytes can be located in them, and every byte that is not blank
belongs to one item.**  The repairs stand for maximal subparts of one to three bytes, one behind
the other, and take no ASCII byte.  An item was read from the bytes at its span moved back by the
drift, unless it is the replacement character of a repair; and it was read from no others.  The
end of the text has moved by the growth of all repairs. -/
theorem every_item_located (bytes : List UInt8) :
    ∃ items, (Listing.ofText (decode bytes)).items =
        items ++ [Item.atEnd (bytes.length + growth (repairs bytes))] ∧
      (∀ item ∈ items, ∃! home, Located bytes item home) ∧
      (∀ index byte, bytes[index]? = some byte → byte ∉ Utf8.blankBytes →
        ∃! item, item ∈ items ∧ ∃ home, Located bytes item home ∧
          home.start ≤ index ∧ index < home.stop) ∧
      (repairs bytes).Pairwise (fun earlier later =>
        earlier.origin + earlier.size ≤ later.origin) ∧
      ∀ repair ∈ repairs bytes, 1 ≤ repair.size ∧ repair.size ≤ 3 ∧
        Utf8.MaximalSubpart (bytes.drop repair.origin) repair.size ∧
        (∀ index byte, repair.origin ≤ index → index < repair.origin + repair.size →
          bytes[index]? = some byte → 0x80 ≤ byte.toNat) ∧
        Text.Written 0 (decode bytes) repair.place (repair.place + 3) [Piece.replacement] := by
  refine ⟨Item.stream 0 (decode bytes), ?_, fun item mem => ?_,
    fun index byte found not_blank => ?_, Utf8.pairwise_repairsFrom 0 0 (pieces bytes),
    fun repair => Utf8.spec_of_mem_repairs⟩
  · rw [items_ofText, Utf8.byteSize_decode]
  · obtain ⟨front, middle, back, covers⟩ := exists_covers mem
    exact ⟨_, covers.located, fun home => covers.home_eq⟩
  · obtain ⟨item, mem, home, located, inside⟩ := exists_home_of_not_blank found not_blank
    refine ⟨item, ⟨mem, home, located, inside⟩, ?_⟩
    rintro item' ⟨mem', home', located', inside'⟩
    exact item_unique_of_home mem' mem located' located inside' inside

/-- A doubled bar between broken bytes: it stands one byte further on in the text. -/
theorem bars_located_between_broken_bytes :
    let bytes : List UInt8 := [0x61, 0xe2, 0x82, 0x7c, 0x7c, 0xff]
    let bars : Item := ⟨.plain .or '|', ⟨4, 6⟩⟩
    repairs bytes = [⟨1, 2, 1⟩, ⟨5, 1, 6⟩] ∧
      ∃ items, (Listing.ofText (decode bytes)).items = items ++ [Item.atEnd 9] ∧
        bars ∈ items ∧ (∃! home, Located bytes bars home) ∧ Located bytes bars ⟨3, 5⟩ ∧
        bytes[2]? = some 0x82 ∧ 0x82 ∉ Utf8.blankBytes ∧
        (∃! item, item ∈ items ∧ ∃ home, Located bytes item home ∧
          home.start ≤ 2 ∧ 2 < home.stop) ∧
        Utf8.MaximalSubpart (bytes.drop 1) 2 := by
  intro bytes bars
  have divided : Utf8.pieces bytes = [.whole [0x61] 'a', .malformed [0xe2, 0x82],
      .whole [0x7c] '|', .whole [0x7c] '|', .malformed [0xff]] := by decide +kernel
  have made : repairs bytes = [⟨1, 2, 1⟩, ⟨5, 1, 6⟩] := by
    rw [repairs, divided]
    rfl
  have text : decode bytes = ['a', '\ufffd', '|', '|', '\ufffd'] := by decide +kernel
  obtain ⟨items, listing, located, owned, -, repaired⟩ := every_item_located bytes
  have size : bytes.length + growth (repairs bytes) = 9 := by rw [made]; rfl
  rw [size] at listing
  have listed : bars ∈ items ++ [Item.atEnd 9] := by
    rw [← listing, text]
    decide +kernel
  have mem : bars ∈ items := (List.mem_append.mp listed).resolve_right (by decide)
  have back : drift bytes bars.span.start = 1 := by
    rw [drift, made]
    decide
  have home := located bars mem
  have spanned : bars.spanned? (decode bytes) = some ['|', '|'] := by
    rw [text]
    decide +kernel
  have own : Located bytes bars ⟨3, 5⟩ := by
    have written := Located.written spanned (by rw [back]; decide) (by rw [back]; decide +kernel)
    rwa [back] at written
  have first : Utf8.MaximalSubpart (bytes.drop 1) 2 :=
    (repaired ⟨1, 2, 1⟩ (by rw [made]; exact List.mem_cons_self)).2.2.1
  exact ⟨made, items, listing, mem, home, own, rfl, by decide, owned 2 0x82 rfl (by decide), first⟩

end Scan

end BooleanLexer
