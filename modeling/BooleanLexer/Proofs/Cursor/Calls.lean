/-
# BooleanLexer.Proofs.Cursor.Calls -- how many scans a loop makes

Each scan but one that finds the end of the source moves its cursor on (`Item.lt_stop_first`), so
loops come to an end.  A new cursor finds the end with the scan behind those of its tokens.  A
token takes one character that is no blank, or two if it is a doubled operator, so the characters
of a source and its doubled operators tell how many scans that takes (`Item.length_readAll_add`).
The end is found again and again from there on, and the cursor stays (`scan_of_isFinish`).

`Tokenizes` is the loop that tokenizes, with its scans counted.  It goes on up to the end, or only
behind the tokens in front of the first unexpected character (`length_tokenizeItems`).
-/
import BooleanLexer.Proofs.Cursor.Restart
import BooleanLexer.Proofs.Item.Edits
import BooleanLexer.Proofs.Item.Words
import BooleanLexer.Proofs.Scan.Agreement

namespace BooleanLexer

set_option autoImplicit false

open Text (isBlank byteSize unexpected)

/-! ## Characters and tokens -/

/-- Whether the text of a span is a doubled operator. -/
def Text.isDoubling (part? : Option Text) : Bool :=
  part? = some "||".toList || part? = some "&&".toList

theorem Lexeme.length_written (c : Char) (rest : Text) :
    (written c rest).length = 1 + if Text.isDoubling (some (written c rest)) then 1 else 0 := by
  unfold written
  split
  · next doubled => rcases doubles_of_isDoubled doubled with rfl | rfl <;> rfl
  · simp [Text.isDoubling]

/-- There is a token for each character that is no blank, but doubled operators take two. -/
theorem Text.length_words_add (text : Text) :
    (words text).length + (words text).countP (fun word => isDoubling word.2) =
      text.countP fun c => !isBlank c := by
  induction text using Text.reading_induction with
  | nil => rw [words_nil]; rfl
  | blank c rest blank ih =>
      rw [words_cons_blank blank, ih, List.countP_cons_of_neg (by simp [blank])]
  | lexeme c rest solid ih =>
      have all : (Lexeme.written c rest).countP (fun d => !isBlank d) =
          (Lexeme.written c rest).length :=
        List.countP_eq_length.mpr fun d mem => by simp [Lexeme.eq_of_mem_written mem, solid]
      rw [words_cons solid, ← Lexeme.written_append_after, List.countP_append, all, ← ih,
        Lexeme.length_written, List.length_cons, List.countP_cons]
      dsimp only
      omega

/-- The items of a source are counted by its characters, and there is the end. -/
theorem Item.length_readAll_add (source : Text) :
    (readAll 0 source).length +
        (readAll 0 source).countP (fun item => Text.isDoubling (item.spanned? source)) =
      1 + source.countP fun c => !isBlank c := by
  have parts := map_spanned?_readAll source
  have lengths := congrArg List.length parts
  have doublings := congrArg (List.countP Text.isDoubling) parts
  have whole : [some ([] : Text)].countP Text.isDoubling = 0 := rfl
  rw [List.countP_map, List.countP_append, List.countP_map, whole, Nat.add_zero] at doublings
  simp only [List.length_map, List.length_append, List.length_singleton] at lengths
  have counted := Text.length_words_add source
  -- The end is an item more, and its empty span is no doubled operator.
  change _ + (readAll 0 source).countP (Text.isDoubling ∘ spanned? source) = _
  change _ + (Text.words source).countP (Text.isDoubling ∘ Prod.snd) = _ at counted
  omega

/-- The items that start in front of one are those that are read before it. -/
theorem Item.countP_start_lt {source : Text} {front back : List Item} {item : Item}
    (divided : stream 0 source = front ++ item :: back) :
    (readAll 0 source).countP (fun other => other.span.start < item.span.start) =
      front.length := by
  have ordered := pairwise_stream 0 source
  have bounds {other : Item} (mem : other ∈ front ++ item :: back) :=
    bounds_of_mem_stream (divided ▸ mem)
  have within := bounds (List.mem_append_right front List.mem_cons_self)
  rw [divided, List.pairwise_append, List.pairwise_cons] at ordered
  obtain ⟨-, ⟨later, -⟩, apart⟩ := ordered
  -- Items have no empty spans, so those that stop where the item starts have started before.
  have before : front.countP (fun other => other.span.start < item.span.start) =
      front.length := by
    refine List.countP_eq_length.mpr fun other mem => decide_eq_true ?_
    have wide := bounds (List.mem_append_left _ mem)
    have stops := apart other mem item List.mem_cons_self
    omega
  have behind : (item :: back ++ [atEnd (0 + byteSize source)]).countP
      (fun other => other.span.start < item.span.start) = 0 := by
    refine List.countP_eq_zero.mpr fun other mem => ?_
    rw [decide_eq_true_eq, Nat.not_lt]
    rcases List.mem_append.mp mem with mem | mem
    · rcases List.mem_cons.mp mem with rfl | mem
      · exact Nat.le_refl _
      · have starts := later other mem
        omega
    · rw [List.mem_singleton.mp mem]
      simp only [atEnd]
      omega
  rw [readAll_eq_stream_append, divided, List.append_assoc, List.countP_append, before, behind,
    Nat.add_zero]

/-! ## Scanning on and on -/

namespace Cursor

/-- The cursor behind `count` scans. -/
def behindScans : Nat → Cursor → Cursor
  | 0, cursor => cursor
  | count + 1, cursor => behindScans count cursor.scan.2

theorem source_behindScans (count : Nat) (cursor : Cursor) :
    (cursor.behindScans count).source = cursor.source := by
  induction count generalizing cursor with
  | zero => rfl
  | succ count ih => rw [behindScans, ih]; rfl

theorem Placed.behindScans {cursor : Cursor} (placed : cursor.Placed) (count : Nat) :
    (cursor.behindScans count).Placed := by
  induction count generalizing cursor with
  | zero => exact placed
  | succ count ih => exact ih placed.scan.1

/-- A scan that finds the end of the source finds it behind its last byte and moves there. -/
theorem scan_of_isFinish {cursor : Cursor} (placed : cursor.Placed)
    (finished : cursor.scan.1.isFinish = true) :
    cursor.scan =
      (Item.atEnd (byteSize cursor.source), ⟨cursor.source, byteSize cursor.source⟩) := by
  have read : Item.readAll cursor.position cursor.rest = [cursor.scan.1] := by
    rw [Item.readAll_eq]
    exact if_pos finished
  have ends := Item.readAll_eq_stream_append cursor.position cursor.rest
  have nothing : Item.stream cursor.position cursor.rest = [] := by
    rw [Item.stream_eq]
    exact if_pos finished
  rw [nothing, List.nil_append, read, ← placed.byteSize_source, List.cons.injEq] at ends
  have moved : cursor.scan.2 = ⟨cursor.source, cursor.scan.1.span.stop⟩ := rfl
  exact Prod.ext ends.1 (by rw [moved, ends.1]; rfl)

/-- Behind the end there is nothing but the end. -/
theorem isFinish_scan_at_end (source : Text) :
    (Cursor.mk source (byteSize source)).scan.1.isFinish = true := by
  have left := (placed_of_append source (List.append_nil source).symm rfl).2
  change (Item.first _ (Cursor.mk source (byteSize source)).rest).isFinish = true
  rw [left]
  rfl

theorem isFinish_behindScans {cursor : Cursor} (placed : cursor.Placed)
    (finished : cursor.scan.1.isFinish = true) (count : Nat) :
    (cursor.behindScans count).scan.1.isFinish = true := by
  induction count generalizing cursor with
  | zero => exact finished
  | succ count ih =>
      have moved := congrArg Prod.snd (scan_of_isFinish placed finished)
      refine ih placed.scan.1 ?_
      rw [moved]
      exact isFinish_scan_at_end cursor.source

/-- The end is found by the last one of the scans that come to it, and by all later ones. -/
theorem Scans.isFinish_iff {cursor : Cursor} {items : List Item} (scans : cursor.Scans items)
    (placed : cursor.Placed) (count : Nat) :
    (cursor.behindScans count).scan.1.isFinish = true ↔ items.length ≤ count + 1 := by
  induction scans generalizing count with
  | finish finished =>
      have found := isFinish_behindScans placed finished count
      simp [found]
  | @token cursor items unfinished scans ih =>
      cases count with
      | zero =>
          -- Behind a token there is at least the scan that finds the end.
          have more : items ≠ [] := by cases scans <;> exact List.cons_ne_nil _ _
          have := List.length_pos_iff.mpr more
          simp only [Cursor.behindScans, unfinished, List.length_cons]
          simp
          omega
      | succ count =>
          rw [Cursor.behindScans, ih placed.scan.1, List.length_cons, Nat.add_le_add_iff_right]

theorem Scans.scan_behindScans {cursor : Cursor} {items : List Item}
    (scans : cursor.Scans items) (placed : cursor.Placed) {count : Nat}
    (enough : items.length ≤ count + 1) :
    (cursor.behindScans count).scan =
      (Item.atEnd (byteSize cursor.source), ⟨cursor.source, byteSize cursor.source⟩) := by
  have found := scan_of_isFinish (placed.behindScans count)
    ((scans.isFinish_iff placed count).mpr enough)
  rwa [source_behindScans] at found

/-! ## The loop that tokenizes -/

/-- How often tokenizing scans, and what it gives: the first error, or the tokens up to the end
of the source. -/
inductive Tokenizes : Cursor → Nat → Except Unexpected (List Token) → Prop where
  | refused {cursor : Cursor} {error : Unexpected} : cursor.scan.1.error? = some error →
      Tokenizes cursor 1 (.error error)
  | finish {cursor : Cursor} : cursor.scan.1.error? = none → cursor.scan.1.isFinish = true →
      Tokenizes cursor 1 (.ok [cursor.scan.1.token])
  | token {cursor : Cursor} {scans : Nat} {result : Except Unexpected (List Token)} :
      cursor.scan.1.error? = none → cursor.scan.1.isFinish = false →
      Tokenizes cursor.scan.2 scans result →
      Tokenizes cursor (scans + 1) (result.map (cursor.scan.1.token :: ·))

theorem Tokenizes.unique {cursor : Cursor} {scans scans' : Nat}
    {result result' : Except Unexpected (List Token)} (tokenizes : cursor.Tokenizes scans result)
    (tokenizes' : cursor.Tokenizes scans' result') : scans = scans' ∧ result = result' := by
  induction tokenizes generalizing scans' result' with
  | refused found =>
      cases tokenizes' with
      | refused found' =>
          rw [found] at found'
          cases found'
          exact ⟨rfl, rfl⟩
      | finish clean _ => simp [clean] at found
      | token clean _ _ => simp [clean] at found
  | finish clean finished =>
      cases tokenizes' with
      | refused found => simp [clean] at found
      | finish => exact ⟨rfl, rfl⟩
      | token _ unfinished _ => simp [unfinished] at finished
  | token clean unfinished _ ih =>
      cases tokenizes' with
      | refused found => simp [clean] at found
      | finish _ finished => simp [unfinished] at finished
      | token _ _ later =>
          obtain ⟨rfl, rfl⟩ := ih later
          exact ⟨rfl, rfl⟩

/-- What tokenizing makes of the items that it has read. -/
def conclude (items : List Item) : Except Unexpected (List Token) :=
  match items.findSome? Item.error? with
  | some error => .error error
  | none => .ok (items.map Item.token)

theorem conclude_cons {item : Item} (clean : item.error? = none) (items : List Item) :
    conclude (item :: items) = (conclude items).map (item.token :: ·) := by
  rw [conclude, conclude, List.findSome?_cons, clean]
  cases items.findSome? Item.error? <;> rfl

/-- The loop that tokenizes comes to an end, with a scan for each item that it reads. -/
theorem tokenizes_readUntil {cursor : Cursor} (placed : cursor.Placed) :
    cursor.Tokenizes (cursor.readUntil fun item => item.error?.isSome).1.length
      (conclude (cursor.readUntil fun item => item.error?.isSome).1) := by
  generalize scanned : Item.readAll cursor.position cursor.rest = items
  have scans : cursor.Scans items := scanned ▸ scans_readAll placed
  clear scanned
  induction scans with
  | @finish cursor finished =>
      have clean := Item.error?_of_isFinish finished
      have ends : conclude [cursor.scan.1] = .ok [cursor.scan.1.token] := by
        simp [conclude, clean]
      rw [readUntil_eq _ placed, if_pos (by simp [finished]), ends]
      exact .finish clean finished
  | @token cursor items unfinished _ ih =>
      rw [readUntil_eq _ placed]
      cases found : cursor.scan.1.error? with
      | some error =>
          have ends : conclude [cursor.scan.1] = .error error := by simp [conclude, found]
          rw [if_pos (by simp), ends]
          exact .refused found
      | none =>
          rw [if_neg (by simp [unfinished]), conclude_cons found]
          exact .token found unfinished (ih placed.scan.1)

/-- The loop that tokenizes comes to one end. -/
theorem existsUnique_tokenizes {cursor : Cursor} (placed : cursor.Placed) :
    ∃! ended : Nat × Except Unexpected (List Token), cursor.Tokenizes ended.1 ended.2 :=
  ⟨(_, _), tokenizes_readUntil placed, fun _ tokenizes =>
    Prod.ext_iff.mpr (tokenizes.unique (tokenizes_readUntil placed))⟩

theorem tokenizes_new_iff {source : Text} {scans : Nat}
    {result : Except Unexpected (List Token)} :
    (new source).Tokenizes scans result ↔
      scans = (tokenizeItems source).length ∧ result = tokenize source := by
  have tokenizes := tokenizes_readUntil (placed_new source)
  have read : ((new source).readUntil fun item => item.error?.isSome).1 =
      tokenizeItems (new source).rest := rfl
  have concluded : conclude (tokenizeItems source) = tokenize source := rfl
  rw [read, rest_new, concluded] at tokenizes
  constructor
  · intro tokenizes'
    exact tokenizes'.unique tokenizes
  · rintro ⟨rfl, rfl⟩
    exact tokenizes

/-- All items are read to tokenize a source without errors, and otherwise one more than there are
in front of the first error. -/
theorem length_tokenizeItems (source : Text) :
    (tokenizeItems source).length = match unexpected 0 source with
      | [] => (Item.readAll 0 source).length
      | error :: _ =>
          1 + (Item.readAll 0 source).countP fun item => item.span.start < error.offset := by
  have found := findSome?_error?_stream 0 source
  rw [tokenizeItems, Item.readUntil_eq_take, Item.readAll_eq_stream_append, List.length_take]
  cases errors : unexpected 0 source with
  | nil =>
      rw [errors] at found
      have clean := List.findSome?_eq_none_iff.mp found
      have all : (Item.stream 0 source).findIdx (fun item => item.error?.isSome) =
          (Item.stream 0 source).length := findIdx_isSome_of_none clean
      simp [all]
  | cons error later =>
      rw [errors] at found
      obtain ⟨front, item, back, divided, here, clean⟩ := List.findSome?_eq_some_iff.mp found
      have start := (Item.error?_eq_some_iff.mp here).2.2
      have first : (front ++ item :: back).findIdx (fun item => item.error?.isSome) =
          front.length := findIdx_isSome_append clean here
      have before := Item.countP_start_lt divided
      rw [start, Item.readAll_eq_stream_append, divided] at before
      have enough : front.length + 1 ≤
          (front ++ item :: back ++ [Item.atEnd (0 + byteSize source)]).length := by
        simp only [List.length_append, List.length_cons]
        omega
      dsimp only
      rw [divided, first, before, Nat.min_eq_left enough, Nat.add_comm]

theorem existsUnique_scans {cursor : Cursor} (placed : cursor.Placed) :
    ∃! items, cursor.Scans items :=
  ⟨_, scans_readAll placed, fun _ scans => (scans_iff_eq_readAll placed).mp scans⟩

theorem existsUnique_yields {cursor : Cursor} (placed : cursor.Placed) :
    ∃! items, cursor.Yields items :=
  ⟨_, (yields_iff placed).mpr rfl, fun _ yields => (yields_iff placed).mp yields⟩

/-- **Every loop over a cursor comes to an end, with a number of scans that the source tells.**
From any cursor of a session, a scan moves on unless it finds the end, and scanning up to the end,
the loop of a parser, draining the stream and tokenizing each come to one end.  A new cursor finds
the end with as many scans as there are characters but blanks, less one for each doubled operator,
and one more.  From then on every scan finds the end behind the last byte and stays there.
Tokenizing takes as many scans, or one more than there are tokens in front of the first unexpected
character. -/
theorem loops_come_to_end (source : Text) :
    (∀ steps replies session, (Session.new source).run steps = some (replies, session) →
      ∀ cursor ∈ session.cursors,
        (cursor.scan.1.isFinish = false → cursor.position < cursor.scan.2.position) ∧
        (∃! items, cursor.Scans items) ∧
        (∃! ended : List Token × Cursor, cursor.Parses ended.1 ended.2) ∧
        (∃! items, cursor.Yields items) ∧
        ∃! ended : Nat × Except Unexpected (List Token), cursor.Tokenizes ended.1 ended.2) ∧
    ∃ items, (new source).Scans items ∧
      items.length + (items.countP fun item => Text.isDoubling (item.spanned? source)) =
        1 + (source.countP fun c => !isBlank c) ∧
      items.length ≤ 1 + source.length ∧
      (∀ count, ((new source).behindScans count).scan.1.isFinish = true ↔
        items.length ≤ count + 1) ∧
      (∀ count, items.length ≤ count + 1 → ((new source).behindScans count).scan =
        (⟨.finish, ⟨byteSize source, byteSize source⟩⟩, ⟨source, byteSize source⟩)) ∧
      ∀ scans result, (new source).Tokenizes scans result ↔ result = tokenize source ∧
        scans = match unexpected 0 source with
          | [] => items.length
          | error :: _ => 1 + items.countP fun item => item.span.start < error.offset := by
  constructor
  · intro steps replies session ran cursor mem
    have placed := Session.placed_of_run ran cursor mem
    exact ⟨Item.lt_stop_first, existsUnique_scans placed, existsUnique_parses placed,
      existsUnique_yields placed, existsUnique_tokenizes placed⟩
  · have placed := placed_new source
    have scans : (new source).Scans (Item.readAll 0 source) := scans_new_iff.mpr rfl
    have counted := Item.length_readAll_add source
    have solid : (source.countP fun c => !isBlank c) ≤ source.length := List.countP_le_length
    refine ⟨_, scans, counted, by omega, scans.isFinish_iff placed,
      fun count => scans.scan_behindScans placed, fun count result => ?_⟩
    rw [tokenizes_new_iff, ← length_tokenizeItems, and_comm]

/-- Two bars, a blank and a bar, and an unexpected character of two bytes in front of two letters,
after the cursor has been asked for a token. -/
theorem loops_come_to_end_behind_bars :
    let source : Text := ['|', '|', ' ', '|', 'é', 'a', 'b']
    ∃ replies session cursor,
      (Session.new source).run [.ask 0 .nextToken] = some (replies, session) ∧
      cursor ∈ session.cursors ∧ cursor.position = 2 ∧ cursor.scan.1.isFinish = false ∧
      2 < cursor.scan.2.position ∧ (∃! items, cursor.Scans items) ∧
      ((new source).behindScans 4).scan.1.isFinish = false ∧
      ((new source).behindScans 5).scan = (⟨.finish, ⟨8, 8⟩⟩, ⟨source, 8⟩) ∧
      (new source).Tokenizes 3 (.error ⟨'é', 4⟩) := by
  intro source
  obtain ⟨reached, items, scans, counted, -, first, later, tokenizes⟩ := loops_come_to_end source
  have read : items = [⟨.plain .or '|', ⟨0, 2⟩⟩, ⟨.plain .or '|', ⟨3, 4⟩⟩,
      ⟨.plain .unknown 'é', ⟨4, 6⟩⟩, ⟨.ident 'a' 0, ⟨6, 7⟩⟩, ⟨.ident 'b' 1, ⟨7, 8⟩⟩,
      ⟨.finish, ⟨8, 8⟩⟩] := by
    rw [scans_new_iff.mp scans]
    decide +kernel
  obtain ⟨replies, session, ran⟩ : ∃ replies session,
      (Session.new source).run [.ask 0 .nextToken] = some (replies, session) := ⟨_, _, rfl⟩
  have mem : Cursor.mk source 2 ∈ session.cursors := by
    cases ran
    decide +kernel
  have within : (Cursor.mk source 2).scan.1.isFinish = false := by decide +kernel
  obtain ⟨moves, ends, -⟩ := reached _ replies session ran _ mem
  have size : byteSize source = 8 := by decide
  have length : items.length = 6 := by rw [read]; rfl
  have strange : unexpected 0 source = [⟨'é', 4⟩] := by decide
  refine ⟨replies, session, _, ran, mem, rfl, within, moves within, ends, ?_, ?_, ?_⟩
  · rw [← Bool.not_eq_true, first 4, length]
    decide
  · rw [later 5 (by rw [length]), size]
  · refine (tokenizes _ _).mpr ⟨by decide +kernel, ?_⟩
    rw [strange, read]
    rfl

end Cursor

end BooleanLexer
