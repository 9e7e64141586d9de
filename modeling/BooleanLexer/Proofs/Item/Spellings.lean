/-
# BooleanLexer.Proofs.Item.Spellings -- the table of spellings and the reader

`Kind.spellings` lists what the operators and brackets are written with, and the reader
decides by itself what it takes for one.  The two agree: the texts that are read whole as one
token of a kind are the spellings of that kind (`Item.mem_spellings_iff_first`), every token in
a source covers a spelling of its kind (`Cursor.exists_of_mem_readAll`), and a spelling is read
wherever it stands, alone or as the first half of a doubled one
(`Lexeme.byteSize_written_spelling`).
-/
import BooleanLexer.Proofs.Cursor.Runs
import BooleanLexer.Proofs.Item.Edits
import BooleanLexer.Proofs.Item.Words
import BooleanLexer.Scan.Listing

namespace BooleanLexer

set_option autoImplicit false

open Text (byteSize isBlank)

/-! ## The table -/

namespace Kind

/-- Whether a kind is that of an operator or a bracket. -/
def IsSign (kind : Kind) : Prop := kind ≠ .unknown ∧ kind ≠ .finish ∧ kind ≠ .ident

instance (kind : Kind) : Decidable kind.IsSign := inferInstanceAs (Decidable (_ ∧ _))

/-- Whether a spelling is an operator that the text behind it doubles. -/
def IsDoubledBy (spelling back : Text) : Prop :=
  spelling = ['|'] ∧ back.head? = some '|' ∨ spelling = ['&'] ∧ back.head? = some '&'

instance (spelling back : Text) : Decidable (IsDoubledBy spelling back) :=
  inferInstanceAs (Decidable (_ ∨ _))

theorem mem_operators_iff {kind : Kind} {text : Text} :
    (kind, text) ∈ operators ↔ text ∈ kind.spellings := by
  cases kind <;> simp [operators, spellings]

/-- What a spelling looks like, and the token of its first character. -/
theorem exists_of_mem_spellings {kind : Kind} {spelling : Text}
    (listed : spelling ∈ kind.spellings) :
    ∃ c, isBlank c = false ∧ (Token.leading c).kind = kind ∧
      (spelling = [c] ∨ spelling = [c, c] ∧ (c = '|' ∨ c = '&')) := by
  have operator := mem_operators_iff.mpr listed
  cases spelling with
  | nil => cases kind <;> simp [spellings] at listed
  | cons d tail =>
      obtain ⟨c, solid, token, shape⟩ := (Token.Spelled.operator operator).inversion
      exact ⟨c, solid, by rw [← token]; rfl, shape⟩

end Kind

/-- What an operator or a bracket is written with is listed. -/
theorem Token.Spelled.mem_spellings {token : Token} {part : Text} (spelled : token.Spelled part)
    (sign : token.kind.IsSign) : part ∈ token.kind.spellings := by
  obtain ⟨known, -, no_ident⟩ := sign
  cases spelled with
  | lower => exact absurd rfl no_ident
  | upper => exact absurd rfl no_ident
  | operator listed => exact Kind.mem_operators_iff.mp listed
  | unknown => exact absurd rfl known

/-! ## A text that is one token -/

/-- The spellings of a kind are the texts that are read whole as one token of that kind. -/
theorem Item.mem_spellings_iff_first {kind : Kind} (sign : kind.IsSign) (text : Text) :
    text ∈ kind.spellings ↔
      (first 0 text).token.kind = kind ∧ (first 0 text).span = ⟨0, byteSize text⟩ := by
  constructor
  · intro listed
    obtain ⟨c, solid, rfl, rfl | ⟨rfl, doubles⟩⟩ := Kind.exists_of_mem_spellings listed
    · rw [first_cons 0 solid]
      simp [Lexeme.written]
    · rw [first_cons 0 solid]
      simp [Lexeme.written, Lexeme.isDoubled_cons_self doubles]
  · rintro ⟨rfl, whole⟩
    cases text with
    | nil => exact absurd rfl sign.2.1
    | cons c rest =>
        by_cases blank : isBlank c = true
        · -- The token stands behind the blank, so it does not start with the text.
          have behind := position_le_start_first (0 + c.utf8Size) rest
          rw [first_cons_blank 0 blank] at whole
          rw [whole] at behind
          have := c.utf8Size_pos
          simp only at behind
          omega
        · have solid : isBlank c = false := by simpa using blank
          rw [first_cons 0 solid] at whole sign ⊢
          have sizes := congrArg byteSize (Lexeme.written_append_after c rest)
          simp only [Span.mk.injEq, true_and, Nat.zero_add] at whole
          rw [Text.byteSize_append, whole] at sizes
          have nothing : Lexeme.after c rest = [] := Text.byteSize_eq_zero_iff.mp (by omega)
          have same := Lexeme.written_append_after c rest
          rw [nothing, List.append_nil] at same
          rw [← same]
          exact (Token.Spelled.written solid rest).mem_spellings sign

/-! ## The tokens of a source -/

/-- What a scan finds stands in the source, and its span holds what it is written with. -/
theorem Cursor.exists_of_mem_readAll {cursor : Cursor} {item : Item}
    (mem : item ∈ cursor.readAll.1) (unfinished : item.token.kind ≠ .finish) :
    ∃ c rest, isBlank c = false ∧ item.token = Token.leading c ∧
      item.spanned? cursor.source = some (Lexeme.written c rest) := by
  have mem : item ∈ Item.readAll cursor.position cursor.rest := mem
  rw [Item.readAll_eq_stream_append, List.mem_append, List.mem_singleton] at mem
  rcases mem with mem | rfl
  · cases cut : Text.dropBytes? cursor.position cursor.source with
    | none =>
        -- Behind such a place nothing is read.
        have empty : cursor.rest = [] := by simp [Cursor.rest, Text.dropBytes, cut]
        simp [empty] at mem
    | some rest =>
        have rest_eq : cursor.rest = rest := by simp [Cursor.rest, Text.dropBytes, cut]
        rw [rest_eq] at mem
        obtain ⟨passed, source, size⟩ := Text.dropBytes?_eq_some_iff.mp cut
        obtain ⟨before, c, behind, rfl, solid, rfl⟩ := Item.exists_of_mem_stream mem
        refine ⟨c, behind, solid, rfl, ?_⟩
        have divided : cursor.source =
            (passed ++ before) ++ (Lexeme.written c behind ++ Lexeme.after c behind) := by
          rw [Lexeme.written_append_after, source, List.append_assoc]
        have place : cursor.position + byteSize before = byteSize (passed ++ before) + 0 := by
          rw [Text.byteSize_append, size, Nat.add_zero]
        show Text.slice? cursor.source _ _ = _
        rw [divided, place, Nat.add_assoc, Text.slice?_byteSize_add_append, Nat.zero_add,
          Text.slice?_zero_byteSize_append]
  · exact absurd rfl unfinished

theorem Lexeme.isDoubled_eq_true_iff {c : Char} {back : Text} :
    isDoubled c back = true ↔ Kind.IsDoubledBy [c] back := by
  unfold isDoubled Kind.IsDoubledBy
  by_cases bar : c = '|'
  · simp [bar]
  · by_cases ampersand : c = '&' <;> simp [bar, ampersand]

/-- What is taken at a spelling: the spelling, and one byte more if the text behind doubles it. -/
theorem Lexeme.byteSize_written_spelling {c : Char} {tail : Text}
    (shape : c :: tail = [c] ∨ c :: tail = [c, c] ∧ (c = '|' ∨ c = '&')) (back : Text) :
    byteSize (written c (tail ++ back)) =
      byteSize (c :: tail) + if Kind.IsDoubledBy (c :: tail) back then 1 else 0 := by
  rcases shape with single | ⟨double, doubles⟩
  · obtain rfl : tail = [] := by simpa using single
    rw [List.nil_append, written]
    by_cases doubled : isDoubled c back = true
    · have size := Text.utf8Size_of_doubles (doubles_of_isDoubled doubled)
      rw [if_pos doubled, if_pos (isDoubled_eq_true_iff.mp doubled)]
      simp [size]
    · rw [if_neg doubled, if_neg (mt isDoubled_eq_true_iff.mpr doubled), Nat.add_zero]
  · obtain rfl : tail = [c] := by simpa using double
    have no_more : ¬ Kind.IsDoubledBy [c, c] back := by simp [Kind.IsDoubledBy]
    rw [List.singleton_append, written, if_pos (isDoubled_cons_self doubles back), if_neg no_more,
      Nat.add_zero]

/-- **The table of spellings is sound and complete for the reader.**  A text is a spelling of an
operator or a bracket exactly if it is scanned whole as one; in any source, every operator and
bracket that a scan finds covers one of its spellings; and a spelling that stands behind no `|` or
`&` is read as a token of its kind, which is one byte longer if the text behind doubles it. -/
theorem Kind.spellings_exact :
    (∀ text kind, IsSign kind →
      (text ∈ kind.spellings ↔
        (Cursor.new text).scan.1.token.kind = kind ∧
          (Cursor.new text).scan.1.span = ⟨0, byteSize text⟩)) ∧
    (∀ cursor : Cursor, ∀ item ∈ cursor.readAll.1, item.token.kind.IsSign →
      ∃ part ∈ item.token.kind.spellings, item.spanned? cursor.source = some part) ∧
    ∀ kind, ∀ spelling ∈ spellings kind, ∀ front back : Text,
      front.getLast? ≠ some '|' → front.getLast? ≠ some '&' →
        let size := byteSize spelling + if IsDoubledBy spelling back then 1 else 0
        ∃ token, token.kind = kind ∧
          ⟨token, ⟨byteSize front, byteSize front + size⟩⟩ ∈
            (Scan.Listing.ofText (front ++ (spelling ++ back))).items := by
  refine ⟨?_, ?_, ?_⟩
  · intro text kind sign
    have read : (Cursor.new text).scan.1 = Item.first 0 text := by
      rw [Cursor.scan, Cursor.rest_new]
      rfl
    rw [read]
    exact Item.mem_spellings_iff_first sign text
  · intro cursor item mem sign
    obtain ⟨c, rest, solid, token, covered⟩ := Cursor.exists_of_mem_readAll mem sign.2.1
    refine ⟨Lexeme.written c rest, ?_, covered⟩
    rw [token] at sign ⊢
    exact (Token.Spelled.written solid rest).mem_spellings sign
  · intro kind spelling listed front back bar ampersand size
    have apart : ¬ (Joins '|' front (spelling ++ back) ∨
        Joins '&' front (spelling ++ back)) := by
      apply apart_of_forall
      intro d doubles last
      rcases doubles with rfl | rfl
      · exact absurd last bar
      · exact absurd last ampersand
    have items : (Scan.Listing.ofText (front ++ (spelling ++ back))).items =
        Item.readAll 0 (front ++ (spelling ++ back)) := rfl
    rw [items, Item.readAll_append 0 apart, Nat.zero_add]
    obtain ⟨c, solid, token, shape⟩ := exists_of_mem_spellings listed
    obtain ⟨tail, rfl⟩ : ∃ tail, spelling = c :: tail := by
      rcases shape with rfl | ⟨rfl, -⟩
      · exact ⟨[], rfl⟩
      · exact ⟨[c], rfl⟩
    refine ⟨Token.leading c, token, List.mem_append_right _ ?_⟩
    rw [List.cons_append, Item.readAll_cons _ solid, Lexeme.byteSize_written_spelling shape]
    exact List.mem_cons_self

/-- Three bars behind a letter: the first two are one token, and each token covers a spelling. -/
theorem Kind.bar_doubled_behind_letter :
    let source : Text := ['a', '|', '|', '|', 'b']
    ((Cursor.new ['|', '|']).scan.1.token.kind = .or ∧
        (Cursor.new ['|', '|']).scan.1.span = ⟨0, 2⟩) ∧
      (∃ part ∈ spellings .or, Item.spanned? source ⟨.plain .or '|', ⟨3, 4⟩⟩ = some part) ∧
      ∃ token, token.kind = .or ∧ ⟨token, ⟨1, 3⟩⟩ ∈ (Scan.Listing.ofText source).items := by
  intro source
  obtain ⟨whole, covered, placed⟩ := spellings_exact
  refine ⟨(whole ['|', '|'] .or (by decide)).mp (by decide), ?_, ?_⟩
  · have found : ⟨.plain .or '|', ⟨3, 4⟩⟩ ∈ (Cursor.new source).readAll.1 := by
      show _ ∈ Item.readAll 0 source
      decide +kernel
    exact covered (Cursor.new source) _ found (by decide)
  · exact placed .or ['|'] (by decide) ['a'] ['|', '|', 'b'] (by decide) (by decide)

end BooleanLexer
