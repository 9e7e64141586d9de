/-
# BooleanLexer.Proofs.Scan.Spacing -- where blanks make a difference, and where they do not

Two texts are `Respaced` if they have the same solid characters in the same order, and blanks
part two bars, or two ampersands, in the one exactly where they do in the other.  All other gaps
are free.  That is told by gaps and indices, without any reading.

Seen from the front the relation says the same step by step: leading blanks do not count
(`respaced_cons_blank_iff`), and behind the same solid character both texts go on respaced and
double the character or not alike (`respaced_cons_iff`).  A reader moves in just these steps, so
it finds the same words in both texts (`Respaced.words_eq`), and all that is told by words is
the same (`respaced_alike`).
-/
import BooleanLexer.Proofs.Item.Words
import BooleanLexer.Proofs.Report.Records
import BooleanLexer.Proofs.Scan.Effects

namespace BooleanLexer

set_option autoImplicit false

namespace Text

/-- The characters of a text that are not blank. -/
def solids (text : Text) : Text := text.filter fun c => !isBlank c

/-- Whether blanks stand between the solid character of an index and the next one. -/
def Parted (text : Text) (index : Nat) : Prop :=
  ∃ front c gap d back, text = front ++ c :: (gap ++ d :: back) ∧
    (solids front).length = index ∧ isBlank c = false ∧ isBlank d = false ∧
    gap ≠ [] ∧ ∀ b ∈ gap, isBlank b = true

/-- Whether two texts differ in their blanks alone, and not in whether blanks part two equal
characters of which an operator could be doubled. -/
structure Respaced (text text' : Text) : Prop where
  /-- The solid characters are the same. -/
  solids_eq : solids text = solids text'
  /-- Two bars in a row are parted in both texts or in none, and so are two ampersands. -/
  parted_iff : ∀ index c, (solids text)[index]? = some c → (solids text)[index + 1]? = some c →
    c = '|' ∨ c = '&' → (Parted text index ↔ Parted text' index)

section Solids

variable {b c : Char} {text rest : Text}

theorem solids_cons_blank (blank : isBlank b = true) (text : Text) :
    solids (b :: text) = solids text :=
  List.filter_cons_of_neg (by simp [blank])

theorem solids_cons (solid : isBlank c = false) (text : Text) :
    solids (c :: text) = c :: solids text :=
  List.filter_cons_of_pos (by simp [solid])

/-- In front of the first solid character stand blanks. -/
theorem exists_of_solids_eq_cons {later : Text} (starts : solids text = c :: later) :
    ∃ gap back, text = gap ++ c :: back ∧ (∀ b ∈ gap, isBlank b = true) ∧
      isBlank c = false ∧ solids back = later := by
  induction text with
  | nil => cases starts
  | cons d text ih =>
      cases blank : isBlank d with
      | true =>
          rw [solids_cons_blank blank] at starts
          obtain ⟨gap, back, rfl, blanks, solid, later⟩ := ih starts
          exact ⟨d :: gap, back, rfl, List.forall_mem_cons.mpr ⟨blank, blanks⟩, solid, later⟩
      | false =>
          rw [solids_cons blank] at starts
          obtain ⟨rfl, later⟩ := List.cons.inj starts
          exact ⟨[], text, rfl, by simp, blank, later⟩

theorem parted_cons_blank_iff (blank : isBlank b = true) {index : Nat} :
    Parted (b :: text) index ↔ Parted text index := by
  constructor
  · rintro ⟨front, c, gap, d, back, divided, count, solid, rest⟩
    cases front with
    | nil =>
        obtain ⟨rfl, -⟩ := List.cons.inj divided
        rw [blank] at solid
        cases solid
    | cons e front =>
        obtain ⟨rfl, behind⟩ := List.cons.inj divided
        rw [solids_cons_blank blank] at count
        exact ⟨front, c, gap, d, back, behind, count, solid, rest⟩
  · rintro ⟨front, c, gap, d, back, rfl, count, rest⟩
    exact ⟨b :: front, c, gap, d, back, rfl, by rw [solids_cons_blank blank, count], rest⟩

theorem parted_cons_succ_iff (solid : isBlank c = false) {index : Nat} :
    Parted (c :: text) (index + 1) ↔ Parted text index := by
  constructor
  · rintro ⟨front, d, gap, e, back, divided, count, rest⟩
    cases front with
    | nil => cases count
    | cons c' front =>
        obtain ⟨rfl, behind⟩ := List.cons.inj divided
        rw [solids_cons solid, List.length_cons] at count
        exact ⟨front, d, gap, e, back, behind, Nat.succ.inj count, rest⟩
  · rintro ⟨front, d, gap, e, back, rfl, count, rest⟩
    exact ⟨c :: front, d, gap, e, back, rfl, by rw [solids_cons solid, List.length_cons, count],
      rest⟩

/-- A solid character is followed at once by itself if it is the next solid one and no blank
parts them. -/
theorem head?_eq_some_iff (solid : isBlank c = false) :
    rest.head? = some c ↔ (solids rest).head? = some c ∧ ¬ Parted (c :: rest) 0 := by
  constructor
  · intro head
    obtain ⟨back, rfl⟩ : ∃ back, rest = c :: back := List.head?_eq_some_iff.mp head
    refine ⟨by rw [solids_cons solid, List.head?_cons], ?_⟩
    rintro ⟨front, d, gap, e, later, divided, count, -, -, some_gap, blanks⟩
    cases front with
    | nil =>
        obtain ⟨b, gap, rfl⟩ := List.exists_cons_of_ne_nil some_gap
        obtain ⟨-, divided⟩ := List.cons.inj divided
        obtain ⟨rfl, -⟩ := List.cons.inj divided
        rw [blanks c List.mem_cons_self] at solid
        cases solid
    | cons c' front =>
        obtain ⟨rfl, -⟩ := List.cons.inj divided
        rw [solids_cons solid] at count
        cases count
  · rintro ⟨next, together⟩
    obtain ⟨later, starts⟩ := List.head?_eq_some_iff.mp next
    obtain ⟨gap, back, rfl, blanks, -, -⟩ := exists_of_solids_eq_cons starts
    cases gap with
    | nil => rfl
    | cons b gap =>
        exact absurd ⟨[], c, b :: gap, c, back, rfl, rfl, solid, solid, List.cons_ne_nil b gap,
          blanks⟩ together

end Solids

/-! ## Respaced texts, step by step -/

theorem respaced_nil : Respaced [] [] := ⟨rfl, nofun⟩

theorem respaced_cons_blank_iff {b : Char} (blank : isBlank b = true) {text text' : Text} :
    Respaced (b :: text) text' ↔ Respaced text text' := by
  constructor
  · rintro ⟨same, parted⟩
    rw [solids_cons_blank blank] at same parted
    exact ⟨same, fun index c here next marks =>
      (parted_cons_blank_iff blank).symm.trans (parted index c here next marks)⟩
  · rintro ⟨same, parted⟩
    refine ⟨by rw [solids_cons_blank blank, same], fun index c here next marks => ?_⟩
    rw [solids_cons_blank blank] at here next
    exact (parted_cons_blank_iff blank).trans (parted index c here next marks)

theorem respaced_comm {text text' : Text} : Respaced text text' ↔ Respaced text' text := by
  constructor <;>
    exact fun ⟨same, parted⟩ => ⟨same.symm, fun index c here next marks =>
      (parted index c (same ▸ here) (same ▸ next) marks).symm⟩

theorem respaced_blank_cons_iff {b : Char} (blank : isBlank b = true) {text text' : Text} :
    Respaced text (b :: text') ↔ Respaced text text' := by
  rw [respaced_comm, respaced_cons_blank_iff blank, respaced_comm]

theorem respaced_append_iff {gap : Text} (blanks : ∀ b ∈ gap, isBlank b = true)
    {text text' : Text} : Respaced text (gap ++ text') ↔ Respaced text text' := by
  induction gap with
  | nil => rfl
  | cons b gap ih =>
      obtain ⟨blank, blanks⟩ := List.forall_mem_cons.mp blanks
      rw [List.cons_append, respaced_blank_cons_iff blank, ih blanks]

theorem respaced_cons_iff {c : Char} (solid : isBlank c = false) {rest rest' : Text} :
    Respaced (c :: rest) (c :: rest') ↔
      Respaced rest rest' ∧ Lexeme.isDoubled c rest = Lexeme.isDoubled c rest' := by
  have doubled_iff (rest : Text) : Lexeme.isDoubled c rest = true ↔
      (c = '|' ∨ c = '&') ∧ (solids rest).head? = some c ∧ ¬ Parted (c :: rest) 0 := by
    rw [← head?_eq_some_iff solid]
    simp [Lexeme.isDoubled]
  rw [Bool.eq_iff_iff, doubled_iff, doubled_iff]
  constructor
  · rintro ⟨same, parted⟩
    rw [solids_cons solid, solids_cons solid, List.cons.injEq] at same
    rw [solids_cons solid] at parted
    refine ⟨⟨same.2, fun index d here next marks => ?_⟩, ?_⟩
    · rw [← parted_cons_succ_iff solid]
      exact (parted (index + 1) d here next marks).trans (parted_cons_succ_iff solid)
    · rw [← same.2]
      refine and_congr_right fun marks => and_congr_right fun next => not_congr ?_
      exact parted 0 c rfl (by rw [List.getElem?_cons_succ, ← List.head?_eq_getElem?, next]) marks
  · rintro ⟨⟨same, parted⟩, doubled⟩
    refine ⟨by rw [solids_cons solid, solids_cons solid, same], fun index d here next marks => ?_⟩
    rw [solids_cons solid] at here next
    cases index with
    | zero =>
        have first : d = c := (Option.some.inj here).symm
        subst first
        rw [List.getElem?_cons_succ, ← List.head?_eq_getElem?] at next
        have next' : (solids rest').head? = some d := same ▸ next
        simpa only [marks, next, next', true_and, not_iff_not] using doubled
    | succ index =>
        rw [parted_cons_succ_iff solid, parted_cons_succ_iff solid]
        exact parted index d here next marks

namespace Respaced

variable {text text' : Text}

/-- Behind a lexeme, respaced texts are respaced. -/
theorem after {c : Char} (solid : isBlank c = false) {rest rest' : Text}
    (respaced : Respaced rest rest')
    (alike : Lexeme.isDoubled c rest = Lexeme.isDoubled c rest') :
    Respaced (Lexeme.after c rest) (Lexeme.after c rest') := by
  unfold Lexeme.after
  rw [← alike]
  cases doubled : Lexeme.isDoubled c rest with
  | false => exact respaced
  | true =>
      obtain ⟨tail, rfl⟩ := Lexeme.exists_cons_of_isDoubled doubled
      obtain ⟨tail', rfl⟩ := Lexeme.exists_cons_of_isDoubled (alike ▸ doubled)
      exact ((respaced_cons_iff solid).mp respaced).1

/-- Respaced texts have the same words. -/
theorem words_eq (respaced : Respaced text text') : words text = words text' := by
  induction text using Text.reading_induction generalizing text' with
  | nil =>
      have all_blank : ∀ b ∈ text', isBlank b = true := by
        have none_solid := List.filter_eq_nil_iff.mp respaced.solids_eq.symm
        exact fun b mem => by simpa using none_solid b mem
      have none_words := words_append_of_blank all_blank []
      rw [List.append_nil] at none_words
      rw [none_words]
  | blank c rest blank ih =>
      rw [words_cons_blank blank]
      exact ih ((respaced_cons_blank_iff blank).mp respaced)
  | lexeme c rest solid ih =>
      have starts : solids text' = c :: solids rest := by
        rw [← respaced.solids_eq, solids_cons solid]
      obtain ⟨gap, rest', rfl, blanks, -, -⟩ := exists_of_solids_eq_cons starts
      rw [respaced_append_iff blanks, respaced_cons_iff solid] at respaced
      obtain ⟨respaced, alike⟩ := respaced
      have same_written : Lexeme.written c rest = Lexeme.written c rest' := by
        rw [Lexeme.written, Lexeme.written, alike]
      rw [words_append_of_blank blanks, words_cons solid, words_cons solid, same_written,
        ih (respaced.after solid alike)]

end Respaced

end Text

namespace Scan

open Text (Respaced words tokens)

/-- A report without places is told by the tokens of the source. -/
theorem reportOn_eq_of_tokens_eq {source source' : Text} (same : tokens source = tokens source')
    {format : Report.Format} (structured : format ≠ .text) :
    reportOn format source = reportOn format source' := by
  have tokens_eq : (Item.readAll 0 source).map Item.token =
      (Item.readAll 0 source').map Item.token := by
    rw [Item.map_token_readAll, Item.map_token_readAll, same]
  unfold reportOn
  cases format with
  | text => exact absurd rfl structured
  | json => rw [Report.render_json, Report.render_json, tokens_eq]
  | ndjson => rw [Report.render_ndjson, Report.render_ndjson, tokens_eq]

/-- **Blanks matter between two equal characters of a doubled operator, and nowhere else.**
Respaced sources have the same tokens, written with the same texts; runs on them deliver the
same reports in both structured formats; and tokenizing them gives the same tokens, or fails at
the same character. -/
theorem respaced_alike {source source' : Text} (respaced : Respaced source source') :
    (Listing.ofText source).items.map Item.token =
      (Listing.ofText source').items.map Item.token ∧
    (∃ parts : List Text,
      (Listing.ofText source).items.map (Item.spanned? source) = parts.map some ∧
      (Listing.ofText source').items.map (Item.spanned? source') = parts.map some) ∧
    (∀ (request request' : Request) (world world' : World),
      request.origin.Gives world source → request'.origin.Gives world' source' →
      request.Deliverable world → request'.Deliverable world' →
      request.format = request'.format → request.format ≠ .text →
      ∃ report, delivered? request world = some report ∧
        delivered? request' world' = some report) ∧
    (tokenize source).mapError Unexpected.character =
      (tokenize source').mapError Unexpected.character := by
  have same_words := respaced.words_eq
  have same_tokens : tokens source = tokens source' := by
    rw [tokens, tokens, same_words]
  refine ⟨?_, ?_, ?_, ?_⟩
  · change (Item.readAll 0 source).map Item.token = (Item.readAll 0 source').map Item.token
    rw [Item.map_token_readAll, Item.map_token_readAll, same_tokens]
  · obtain ⟨parts, cut⟩ := Text.exists_map_snd_words source
    refine ⟨parts ++ [[]], ?_, ?_⟩
    · change (Item.readAll 0 source).map _ = _
      rw [Item.map_spanned?_readAll, cut, List.map_append, List.map_singleton]
    · change (Item.readAll 0 source').map _ = _
      rw [Item.map_spanned?_readAll, ← same_words, cut, List.map_append, List.map_singleton]
  · intro request request' world world' gives gives' deliverable deliverable' format structured
    refine ⟨_, delivered?_eq gives deliverable, ?_⟩
    rw [delivered?_eq gives' deliverable', ← format, reportOn_eq_of_tokens_eq same_tokens structured]
  · rw [mapError_character_tokenize, mapError_character_tokenize, same_tokens]

/-- Blanks of all kinds come and go around three bars, two ampersands and an error. -/
theorem respaced_alike_around_bars :
    let source : Text := [' ', '|', '\t', '|', '|', ' ', '&', '&', ' ', '1', 'a']
    let source' : Text := ['|', ' ', '\n', '|', '|', '&', '&', '1', '\r', 'a', ' ', ' ']
    Respaced source source' ∧
      (tokenize source).mapError Unexpected.character =
        (tokenize source').mapError Unexpected.character := by
  intro source source'
  have respaced : Respaced source source' := by
    simp (disch := decide) only [source, source', Text.respaced_cons_blank_iff,
      Text.respaced_blank_cons_iff, Text.respaced_cons_iff, Text.respaced_nil]
    decide
  exact ⟨respaced, (respaced_alike respaced).2.2.2⟩

end Scan

end BooleanLexer
