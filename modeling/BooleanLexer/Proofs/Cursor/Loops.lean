/-
# BooleanLexer.Proofs.Cursor.Loops -- loops over a cursor, step by step

A caller reads a cursor in a loop of its own.  `Yields` drains the stream, `Parses` takes
tokens up to the first one that is terminal, as a parser does, and `Rounds` starts that
loop again behind every unexpected character until it ends with the end of the source.
They are given by single questions and know nothing of what is read in one go.

From a placed cursor each loop comes to an end, in one way.  What a stream yields is the
stream of the text that is left (`yields_iff`), a parser's loop gives what the question
`untilTerminal` gives (`parses_iff`), and the rounds together make the scans of the rest of
the source, in one more round than there are unexpected characters (`Rounds.scans`).
-/
import BooleanLexer.Proofs.Session.Refinement

namespace BooleanLexer

set_option autoImplicit false

namespace Cursor

/-! ## The stream -/

/-- What a stream yields until it is exhausted. -/
inductive Yields : Cursor → List Item → Prop where
  | exhausted {cursor : Cursor} : (cursor.ask .next).answer = .item? none → Yields cursor []
  | item {cursor : Cursor} {item : Item} {items : List Item} :
      (cursor.ask .next).answer = .item? (some item) →
      Yields (cursor.ask .next).cursor items → Yields cursor (item :: items)

theorem answer_next (cursor : Cursor) :
    (cursor.ask .next).answer =
      .item? (if cursor.scan.1.isFinish then none else some cursor.scan.1) :=
  rfl

theorem Yields.unique {cursor : Cursor} {items items' : List Item} (yields : cursor.Yields items)
    (yields' : cursor.Yields items') : items = items' := by
  induction yields generalizing items' with
  | exhausted answer =>
      cases yields' with
      | exhausted => rfl
      | item answer' => simp [answer] at answer'
  | item answer _ ih =>
      cases yields' with
      | exhausted answer' => simp [answer] at answer'
      | item answer' rest' =>
          rw [answer] at answer'
          cases answer'
          rw [ih rest']

/-- The stream yields what is scanned, without the end. -/
theorem Scans.yields {cursor : Cursor} {items : List Item} (scans : cursor.Scans items) :
    cursor.Yields (yielded items) := by
  induction scans with
  | finish finished =>
      have nothing : yielded [_] = [] := List.filter_eq_nil_iff.mpr (by simpa using finished)
      rw [nothing]
      exact .exhausted (by rw [answer_next, if_pos finished])
  | @token cursor items unfinished _ ih =>
      have kept : yielded (cursor.scan.1 :: items) = cursor.scan.1 :: yielded items :=
        List.filter_cons_of_pos (by simp [unfinished])
      rw [kept]
      refine .item ?_ ih
      rw [answer_next, if_neg (Bool.eq_false_iff.mp unfinished)]

theorem yields_iff {cursor : Cursor} (placed : cursor.Placed) {items : List Item} :
    cursor.Yields items ↔ items = Item.stream cursor.position cursor.rest := by
  have yields := (scans_readAll placed).yields
  constructor
  · intro yields'
    exact yields'.unique yields
  · rintro rfl
    exact yields

/-- The tokens that are taken up to the first one that is terminal, and the cursor behind
it. -/
inductive Parses : Cursor → List Token → Cursor → Prop where
  | stop {cursor : Cursor} : cursor.scan.1.token.isTerminal = true →
      Parses cursor [cursor.scan.1.token] cursor.scan.2
  | more {cursor last : Cursor} {tokens : List Token} :
      cursor.scan.1.token.isTerminal = false → Parses cursor.scan.2 tokens last →
      Parses cursor (cursor.scan.1.token :: tokens) last

theorem Parses.unique {cursor last last' : Cursor} {tokens tokens' : List Token}
    (parses : cursor.Parses tokens last) (parses' : cursor.Parses tokens' last') :
    tokens = tokens' ∧ last = last' := by
  induction parses generalizing tokens' with
  | stop terminal =>
      cases parses' with
      | stop => exact ⟨rfl, rfl⟩
      | more goes_on => rw [terminal] at goes_on; cases goes_on
  | more goes_on _ ih =>
      cases parses' with
      | stop terminal => rw [terminal] at goes_on; cases goes_on
      | more _ parses' =>
          obtain ⟨rfl, rfl⟩ := ih parses'
          exact ⟨rfl, rfl⟩

theorem isTerminal_iff {item : Item} :
    item.token.isTerminal = true ↔ item.isFinish = true ∨ item.token.kind = .unknown := by
  simp [Token.isTerminal, Kind.isTerminal, Item.isFinish]

theorem isTerminal_eq_false_iff {item : Item} :
    item.token.isTerminal = false ↔ item.isFinish = false ∧ item.token.kind ≠ .unknown := by
  rw [← Bool.not_eq_true, isTerminal_iff, not_or, Bool.not_eq_true]

/-- Reading up to an item is scanning up to it. -/
theorem readUntil_eq (halt : Item → Bool) {cursor : Cursor} (placed : cursor.Placed) :
    cursor.readUntil halt =
      if cursor.scan.1.isFinish || halt cursor.scan.1 then ([cursor.scan.1], cursor.scan.2)
      else
        (cursor.scan.1 :: (cursor.scan.2.readUntil halt).1,
          (cursor.scan.2.readUntil halt).2) := by
  have behind := placed.scan.2
  simp only [Cursor.readUntil, Bookmark.behind_eq, behind]
  rw [Item.readUntil]
  split
  · next stops => rw [if_pos (by exact stops)]; rfl
  · next goes_on => rw [if_neg (by exact goes_on), Item.endOf_cons]; rfl

/-- The loop of a parser comes to an end. -/
theorem parses_readUntil {cursor : Cursor} (placed : cursor.Placed) :
    cursor.Parses ((cursor.readUntil fun item => item.token.isTerminal).1.map Item.token)
      (cursor.readUntil fun item => item.token.isTerminal).2 := by
  generalize scanned : Item.readAll cursor.position cursor.rest = items
  have scans : cursor.Scans items := scanned ▸ scans_readAll placed
  clear scanned
  induction scans with
  | finish finished =>
      rw [readUntil_eq _ placed, if_pos (by simp [finished])]
      exact .stop (isTerminal_iff.mpr (.inl finished))
  | @token cursor items unfinished _ ih =>
      rw [readUntil_eq _ placed]
      cases terminal : cursor.scan.1.token.isTerminal with
      | true => simpa [terminal] using .stop terminal
      | false => simpa [terminal, unfinished] using .more terminal (ih placed.scan.1)

/-- The loop of a parser comes to one end. -/
theorem existsUnique_parses {cursor : Cursor} (placed : cursor.Placed) :
    ∃! ended : List Token × Cursor, cursor.Parses ended.1 ended.2 :=
  ⟨(_, _), parses_readUntil placed, fun _ parses =>
    Prod.ext_iff.mpr (parses.unique (parses_readUntil placed))⟩

/-- The loop of a parser gives what the question `untilTerminal` gives. -/
theorem parses_iff {cursor last : Cursor} (placed : cursor.Placed) {tokens : List Token} :
    cursor.Parses tokens last ↔
      (cursor.ask .untilTerminal).answer = .tokens tokens ∧
        (cursor.ask .untilTerminal).cursor = last := by
  have parses := parses_readUntil placed
  constructor
  · intro parses'
    obtain ⟨rfl, rfl⟩ := parses'.unique parses
    exact ⟨rfl, rfl⟩
  · rintro ⟨answer, rfl⟩
    cases answer
    exact parses

/-! ## Rounds of the loop -/

/-- The kind of the token that a loop has ended with. -/
def endsWith (tokens : List Token) (kind : Kind) : Prop :=
  ∃ token, tokens.getLast? = some token ∧ token.kind = kind

/-- Whether a loop has ended with the unexpected character `c`. -/
def endsUnexpectedly (tokens : List Token) (c : Char) : Prop :=
  ∃ token, tokens.getLast? = some token ∧ token.kind = .unknown ∧ token.symbol = some c

/-- The tokens of each round, where the loop is started again behind every unexpected
character until it ends with the end of the source. -/
inductive Rounds : Cursor → List (List Token) → Prop where
  | final {cursor last : Cursor} {tokens : List Token} : cursor.Parses tokens last →
      endsWith tokens .finish → Rounds cursor [tokens]
  | again {cursor last : Cursor} {tokens : List Token} {rounds : List (List Token)} :
      cursor.Parses tokens last → endsWith tokens .unknown → Rounds last rounds →
      Rounds cursor (tokens :: rounds)

/-- How many of some tokens are unexpected characters. -/
def unknowns (tokens : List Token) : Nat := tokens.countP fun token => token.kind = .unknown

theorem endsWith_singleton {token : Token} {kind : Kind} :
    endsWith [token] kind ↔ token.kind = kind := by
  simp [endsWith]

theorem endsWith_cons {token : Token} {tokens : List Token} {kind : Kind}
    (nonempty : tokens ≠ []) : endsWith (token :: tokens) kind ↔ endsWith tokens kind := by
  rw [endsWith, endsWith, List.getLast?_cons_of_ne_nil nonempty]

theorem Parses.ne_nil {cursor last : Cursor} {tokens : List Token}
    (parses : cursor.Parses tokens last) : tokens ≠ [] := by
  cases parses <;> exact List.cons_ne_nil _ _

theorem unknowns_cons_of_ne {token : Token} (known : token.kind ≠ .unknown)
    (tokens : List Token) : unknowns (token :: tokens) = unknowns tokens :=
  List.countP_cons_of_neg (by simpa using known)

/-- A loop that ends with the end of the source has taken all tokens, and no unexpected
character. -/
theorem Parses.scans_of_finish {cursor last : Cursor} {tokens : List Token}
    (parses : cursor.Parses tokens last) (ends : endsWith tokens .finish) :
    ∃ items, cursor.Scans items ∧ tokens = items.map Item.token ∧ unknowns tokens = 0 := by
  induction parses with
  | @stop cursor _ =>
      have kind := endsWith_singleton.mp ends
      exact ⟨[cursor.scan.1], .finish (by simp [Item.isFinish, kind]), rfl,
        by simp [unknowns, kind]⟩
  | @more cursor last tokens goes_on parses ih =>
      obtain ⟨items, scans, rfl, none_unknown⟩ := ih ((endsWith_cons parses.ne_nil).mp ends)
      obtain ⟨unfinished, known⟩ := isTerminal_eq_false_iff.mp goes_on
      refine ⟨cursor.scan.1 :: items, .token unfinished scans, rfl, ?_⟩
      rwa [unknowns_cons_of_ne known]

/-- A loop that ends with an unexpected character has taken the tokens up to the first one. -/
theorem Parses.scans_of_unknown {cursor last : Cursor} {tokens : List Token}
    (parses : cursor.Parses tokens last) (ends : endsWith tokens .unknown) {later : List Item}
    (scans : last.Scans later) :
    ∃ items, cursor.Scans (items ++ later) ∧ tokens = items.map Item.token ∧
      unknowns tokens = 1 := by
  induction parses with
  | @stop cursor _ =>
      have kind := endsWith_singleton.mp ends
      exact ⟨[cursor.scan.1], .token (by simp [Item.isFinish, kind]) scans, rfl,
        by simp [unknowns, kind]⟩
  | @more cursor last tokens goes_on parses ih =>
      obtain ⟨items, scans, rfl, one_unknown⟩ := ih ((endsWith_cons parses.ne_nil).mp ends) scans
      obtain ⟨unfinished, known⟩ := isTerminal_eq_false_iff.mp goes_on
      refine ⟨cursor.scan.1 :: items, .token unfinished scans, rfl, ?_⟩
      rwa [unknowns_cons_of_ne known]

/-- The rounds follow each other in the scans up to the end of the source, in one more round
than there are unexpected characters. -/
theorem Rounds.scans {cursor : Cursor} {rounds : List (List Token)} (made : cursor.Rounds rounds) :
    ∃ items, cursor.Scans items ∧ rounds.flatten = items.map Item.token ∧
      rounds.length = 1 + unknowns (items.map Item.token) := by
  induction made with
  | final parses ends =>
      obtain ⟨items, scans, rfl, none_unknown⟩ := parses.scans_of_finish ends
      exact ⟨items, scans, by simp, by simp [none_unknown]⟩
  | again parses ends _ ih =>
      obtain ⟨later, scans_later, flat, count⟩ := ih
      obtain ⟨items, scans, rfl, one_unknown⟩ := parses.scans_of_unknown ends scans_later
      refine ⟨items ++ later, scans, by simp [flat], ?_⟩
      have split : unknowns ((items ++ later).map Item.token) =
          1 + unknowns (later.map Item.token) := by
        rw [← one_unknown, List.map_append]
        exact List.countP_append
      rw [List.length_cons, count, split]
      omega

/-- Starting the loop again and again comes to an end. -/
theorem Scans.exists_rounds {cursor : Cursor} {items : List Item} (scans : cursor.Scans items) :
    ∃ rounds, cursor.Rounds rounds := by
  induction scans with
  | @finish cursor finished =>
      have kind : cursor.scan.1.token.kind = .finish := by simpa [Item.isFinish] using finished
      exact ⟨_, .final (.stop (isTerminal_iff.mpr (.inl finished))) (endsWith_singleton.mpr kind)⟩
  | @token cursor items unfinished _ ih =>
      obtain ⟨rounds, made⟩ := ih
      cases terminal : cursor.scan.1.token.isTerminal with
      | true =>
          have kind : cursor.scan.1.token.kind = .unknown :=
            (isTerminal_iff.mp terminal).resolve_left (by simp [unfinished])
          exact ⟨_, .again (.stop terminal) (endsWith_singleton.mpr kind) made⟩
      | false =>
          -- The token goes to the front of the first round.
          cases made with
          | final parses ends =>
              exact ⟨_, .final (.more terminal parses) ((endsWith_cons parses.ne_nil).mpr ends)⟩
          | again parses ends made =>
              exact ⟨_, .again (.more terminal parses) ((endsWith_cons parses.ne_nil).mpr ends)
                made⟩

end Cursor

end BooleanLexer
