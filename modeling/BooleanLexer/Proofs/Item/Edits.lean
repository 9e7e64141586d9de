/-
# BooleanLexer.Proofs.Item.Edits -- what an edit of a text changes

An edit replaces the middle of a text.  In front of it, what is read looks at most one
character ahead: an item that stops before the edit stays, and so does one that stops where
the edit begins, unless it is a single `|` or `&` (`filter_settled_stream_append`).

Behind it, operators are doubled from the left, so an edit can change how the whole run of `|`
or `&` is paired that follows the edit.  No lexeme goes on from that run into what stands behind
it (`not_joins_leadingRun`), and what is read from there on has only been moved
(`resumes_behind_leadingRun`).
-/
import BooleanLexer.Proofs.Item.Concatenation

namespace BooleanLexer

set_option autoImplicit false

open Text (byteSize isBlank)

/-! ## Runs at the start of a text -/

namespace Text

/-- The run of `|` or of `&` that a text starts with, as long as it is. -/
def leadingRun : Text → Text
  | [] => []
  | c :: rest => if c = '|' ∨ c = '&' then (c :: rest).takeWhile (· = c) else []

theorem leadingRun_cons {c : Char} (doubles : c = '|' ∨ c = '&') (rest : Text) :
    leadingRun (c :: rest) = c :: rest.takeWhile (· = c) := by
  rw [leadingRun, if_pos doubles]
  exact List.takeWhile_cons_of_pos (decide_eq_true rfl)

theorem leadingRun_append_drop (text : Text) :
    leadingRun text ++ text.drop (leadingRun text).length = text := by
  apply List.prefix_iff_eq_append.mp
  unfold leadingRun
  split
  · exact List.nil_prefix
  · split
    · exact List.takeWhile_prefix _
    · exact List.nil_prefix

/-- The run is as long as it gets. -/
theorem drop_leadingRun_cons {c : Char} (doubles : c = '|' ∨ c = '&') (rest : Text) :
    (c :: rest).drop (leadingRun (c :: rest)).length = rest.dropWhile (· = c) := by
  have divided := leadingRun_append_drop (c :: rest)
  have whole : rest.takeWhile (· = c) ++ rest.dropWhile (· = c) = rest :=
    List.takeWhile_append_dropWhile
  have run : leadingRun (c :: rest) ++ rest.dropWhile (· = c) = c :: rest := by
    rw [leadingRun_cons doubles, List.cons_append, whole]
  exact List.append_cancel_left (divided.trans run.symm)

theorem mem_leadingRun {text : Text} {c : Char} (mem : c ∈ leadingRun text) :
    c = '|' ∨ c = '&' := by
  unfold leadingRun at mem
  split at mem
  · cases mem
  · split at mem
    · next d rest doubles =>
        have same : c = d := by simpa using List.mem_takeWhile_imp mem
        rw [same]
        exact doubles
    · cases mem

theorem utf8Size_of_doubles {c : Char} (doubles : c = '|' ∨ c = '&') : c.utf8Size = 1 := by
  rcases doubles with rfl | rfl <;> rfl

theorem byteSize_of_doubles {run : Text} (doubles : ∀ c ∈ run, c = '|' ∨ c = '&') :
    byteSize run = run.length := by
  induction run with
  | nil => rfl
  | cons c run ih =>
      obtain ⟨here, later⟩ := List.forall_mem_cons.mp doubles
      rw [byteSize_cons, utf8Size_of_doubles here, ih later, List.length_cons, Nat.add_comm]

theorem byteSize_leadingRun (text : Text) :
    byteSize (leadingRun text) = (leadingRun text).length := by
  apply byteSize_of_doubles
  intro c mem
  exact mem_leadingRun mem

end Text

open Text (leadingRun)

/-- No doubled operator goes on behind the run that a text starts with. -/
theorem not_joins_leadingRun {mark : Char} (doubles : mark = '|' ∨ mark = '&')
    (before text : Text) :
    ¬ Joins mark (before ++ leadingRun text) (text.drop (leadingRun text).length) := by
  rintro ⟨odd, goes_on⟩
  cases text with
  | nil => cases goes_on
  | cons c rest =>
      by_cases starts : c = '|' ∨ c = '&'
      · rw [Text.drop_leadingRun_cons starts] at goes_on
        rw [Text.leadingRun_cons starts] at odd
        have stops := List.head?_dropWhile_not (fun d => decide (d = c)) rest
        rw [goes_on] at stops
        have other : mark ≠ c := of_decide_eq_false stops
        have nothing : (before ++ c :: rest.takeWhile (· = c)).rtakeWhile (· = mark) = [] := by
          refine List.rtakeWhile_eq_nil_iff.mpr fun nonempty marked => ?_
          rw [List.getLast_append_of_ne_nil nonempty (List.cons_ne_nil _ _)] at marked
          have last := List.getLast_mem (List.cons_ne_nil c (rest.takeWhile (· = c)))
          rw [of_decide_eq_true marked] at last
          rcases List.mem_cons.mp last with same | mem
          · exact other same
          · exact other (by simpa using List.mem_takeWhile_imp mem)
        rw [nothing] at odd
        exact absurd odd (by decide)
      · have run : leadingRun (c :: rest) = [] := if_neg starts
        rw [run] at goes_on
        have same : c = mark := Option.some.inj goes_on
        rw [same] at starts
        exact starts doubles

namespace Item

/-! ## In front of an edit -/

/-- A `|` or a `&` of one character, which one more behind it would double. -/
def isSingle (item : Item) : Bool :=
  item.span.size = 1 && (item.token.symbol = some '|' || item.token.symbol = some '&')

/-- Whether an item is the same whatever stands behind byte `cut`: it stops before that, or it
stops there and is not single. -/
def settled (cut : Nat) (item : Item) : Bool :=
  item.span.stop < cut || (item.span.stop = cut && !item.isSingle)

theorem bounds_of_mem_stream {position : Nat} {text : Text} {item : Item}
    (mem : item ∈ stream position text) :
    position ≤ item.span.start ∧ item.span.start < item.span.stop ∧
      item.span.stop ≤ position + byteSize text := by
  obtain ⟨before, c, rest, rfl, -, rfl⟩ := exists_of_mem_stream mem
  have size := Text.byteSize_append (Lexeme.written c rest) (Lexeme.after c rest)
  have pos := Text.byteSize_pos (Lexeme.written_ne_nil c rest)
  rw [Lexeme.written_append_after] at size
  rw [Text.byteSize_append]
  refine ⟨?_, ?_, ?_⟩ <;> simp only <;> omega

/-- Nothing is settled at a cut that is not before the text. -/
theorem filter_settled_stream_of_le {cut position : Nat} (before : cut ≤ position) (text : Text) :
    (stream position text).filter (settled cut) = [] := by
  refine List.filter_eq_nil_iff.mpr fun item mem => ?_
  obtain ⟨le_start, lt_stop, -⟩ := bounds_of_mem_stream mem
  have behind : ¬ item.span.stop < cut ∧ item.span.stop ≠ cut := by omega
  simp [settled, behind]

/-- A `|` or `&` that stops at the cut is not settled. -/
theorem settled_single {position : Nat} {c : Char} (doubles : c = '|' ∨ c = '&') :
    settled (position + c.utf8Size)
      ⟨Token.leading c, ⟨position, position + c.utf8Size⟩⟩ = false := by
  have single : isSingle ⟨Token.leading c, ⟨position, position + c.utf8Size⟩⟩ = true := by
    rw [isSingle, Span.size, Lexeme.symbol_leading, Text.utf8Size_of_doubles doubles,
      Nat.add_sub_cancel_left]
    rcases doubles with rfl | rfl <;> rfl
  rw [settled, single]
  simp

/-- Whether the last character of a text is settled does not depend on what stands behind it: what
could be doubled is not. -/
theorem filter_settled_stream_cons (position : Nat) {c : Char} (solid : isBlank c = false)
    (second : Text) :
    (stream position (c :: second)).filter (settled (position + c.utf8Size)) =
      (stream position [c]).filter (settled (position + c.utf8Size)) := by
  have size : byteSize [c] = c.utf8Size := by
    rw [Text.byteSize_cons, Text.byteSize_nil, Nat.add_zero]
  rw [stream_singleton position solid, stream_cons _ solid]
  by_cases doubled : Lexeme.isDoubled c second = true
  · have doubles := Lexeme.doubles_of_isDoubled doubled
    have behind : position + c.utf8Size < position + byteSize [c, c] := by
      rw [Text.byteSize_cons, size]
      have := c.utf8Size_pos
      omega
    have beyond : settled (position + c.utf8Size)
        ⟨Token.leading c, ⟨position, position + byteSize [c, c]⟩⟩ = false := by
      have late : ¬ position + byteSize [c, c] < position + c.utf8Size := by omega
      have apart : position + byteSize [c, c] ≠ position + c.utf8Size := by omega
      rw [settled, decide_eq_false late, decide_eq_false apart]
      rfl
    have written : Lexeme.written c second = [c, c] := if_pos doubled
    rw [written, List.filter_cons_of_neg (Bool.eq_false_iff.mp beyond),
      filter_settled_stream_of_le (Nat.le_of_lt behind),
      List.filter_cons_of_neg (Bool.eq_false_iff.mp (settled_single doubles)), List.filter_nil]
  · -- The item is the same, and nothing behind it is settled.
    have written : Lexeme.written c second = [c] := if_neg doubled
    rw [written, size, List.filter_cons, List.filter_cons, List.filter_nil,
      filter_settled_stream_of_le (Nat.le_refl _)]

/-- What is settled at the end of a text does not depend on the text behind it. -/
theorem filter_settled_stream_append (position : Nat) (first second : Text) :
    (stream position (first ++ second)).filter (settled (position + byteSize first)) =
      (stream position first).filter (settled (position + byteSize first)) := by
  induction first using Text.reading_induction generalizing position with
  | nil =>
      rw [List.nil_append, stream_nil, List.filter_nil]
      exact filter_settled_stream_of_le (Nat.le_refl _) second
  | blank c rest blank ih =>
      rw [List.cons_append, stream_cons_blank _ blank, stream_cons_blank _ blank,
        Text.byteSize_cons, ← Nat.add_assoc]
      exact ih _
  | lexeme c rest solid ih =>
      cases rest with
      | nil => exact filter_settled_stream_cons position solid second
      | cons d rest =>
          have nonempty : d :: rest ≠ [] := List.cons_ne_nil d rest
          have size : byteSize (c :: d :: rest) = byteSize (Lexeme.written c (d :: rest)) +
              byteSize (Lexeme.after c (d :: rest)) := by
            rw [← Text.byteSize_append, Lexeme.written_append_after]
          rw [List.cons_append, stream_cons _ solid, stream_cons _ solid,
            Lexeme.written_append c nonempty, Lexeme.after_append c nonempty, List.filter_cons,
            List.filter_cons, size, ← Nat.add_assoc, ih]

/-- The items that stop before a text ends are the same whatever stands behind it. -/
theorem filter_stop_lt_readAll_append (first second : Text) :
    (readAll 0 (first ++ second)).filter (fun item => item.span.stop < byteSize first) =
      (stream 0 first).filter (fun item => item.span.stop < byteSize first) := by
  have weaker (items : List Item) :
      items.filter (fun item => item.span.stop < byteSize first) =
        (items.filter (settled (byteSize first))).filter
          (fun item => item.span.stop < byteSize first) := by
    rw [List.filter_filter]
    refine List.filter_congr fun item _ => ?_
    by_cases earlier : item.span.stop < byteSize first <;> simp [settled, earlier]
  have same := filter_settled_stream_append 0 first second
  rw [Nat.zero_add] at same
  rw [readAll_eq_stream_append, List.filter_append, weaker, same, ← weaker]
  simp [atEnd]

theorem mem_stream_of_settled {first second second' : Text} {item : Item}
    (mem : item ∈ stream 0 (first ++ second)) (fixed : settled (byteSize first) item) :
    item ∈ stream 0 (first ++ second') := by
  have kept := List.mem_filter.mpr ⟨mem, fixed⟩
  have same := filter_settled_stream_append 0 first
  simp only [Nat.zero_add] at same
  rw [same second, ← same second'] at kept
  exact (List.mem_filter.mp kept).1

/-! ## Behind an edit -/

theorem readAll_append {first second : Text} (position : Nat)
    (apart : ¬ (Joins '|' first second ∨ Joins '&' first second)) :
    readAll position (first ++ second) =
      stream position first ++ readAll (position + byteSize first) second := by
  rw [readAll_eq_stream_append, (stream_append_iff position first second).mpr apart,
    readAll_eq_stream_append (position + byteSize first), Text.byteSize_append, Nat.add_assoc,
    List.append_assoc]

theorem le_start_of_mem_readAll {position : Nat} {text : Text} {item : Item}
    (mem : item ∈ readAll position text) : position ≤ item.span.start := by
  rw [readAll_eq_stream_append] at mem
  rcases List.mem_append.mp mem with mem | mem
  · exact (bounds_of_mem_stream mem).1
  · rw [List.mem_singleton.mp mem]
    exact Nat.le_add_right _ _

/-- Behind the run of `|` or `&` that follows an edit, reading starts anew. -/
theorem resumes_behind_leadingRun {before behind rest : Text} {resumed : Nat}
    (divided : leadingRun behind ++ rest = behind)
    (place : resumed = byteSize (before ++ leadingRun behind)) :
    (∀ item ∈ readAll 0 (before ++ behind),
      ¬ (item.span.start < resumed ∧ resumed < item.span.stop)) ∧
    (readAll 0 (before ++ behind)).filter (fun item => resumed ≤ item.span.start) =
      (readAll 0 rest).map (shift resumed) := by
  have drop : behind.drop (leadingRun behind).length = rest := by
    have whole := Text.leadingRun_append_drop behind
    exact List.append_cancel_left (whole.trans divided.symm)
  have apart : ¬ (Joins '|' (before ++ leadingRun behind) rest ∨
      Joins '&' (before ++ leadingRun behind) rest) := by
    rw [← drop]
    rintro (joins | joins)
    · exact not_joins_leadingRun (.inl rfl) before behind joins
    · exact not_joins_leadingRun (.inr rfl) before behind joins
  have read := readAll_append 0 apart
  rw [List.append_assoc, divided, Nat.zero_add, ← place] at read
  have earlier : ∀ item ∈ stream 0 (before ++ leadingRun behind),
      item.span.start < resumed ∧ item.span.stop ≤ resumed := by
    intro item mem
    obtain ⟨-, lt_stop, le_size⟩ := bounds_of_mem_stream mem
    omega
  have later : ∀ item ∈ readAll resumed rest, resumed ≤ item.span.start :=
    fun item mem => le_start_of_mem_readAll mem
  rw [read]
  constructor
  · intro item mem
    rcases List.mem_append.mp mem with mem | mem
    · have := earlier item mem
      omega
    · have := later item mem
      omega
  · have dropped : (stream 0 (before ++ leadingRun behind)).filter
        (fun item => resumed ≤ item.span.start) = [] :=
      List.filter_eq_nil_iff.mpr fun item mem => by simpa using (earlier item mem).1
    have kept : (readAll resumed rest).filter (fun item => resumed ≤ item.span.start) =
        readAll resumed rest :=
      List.filter_eq_self.mpr fun item mem => decide_eq_true (later item mem)
    rw [List.filter_append, dropped, kept, List.nil_append, ← readAll_add, Nat.add_zero]

/-- **Edits have local effect.**  Replacing `old` by `new` leaves the items that stop before the
edit, and what the stream yields up to where it begins, but for a single `|` or `&` there.  From
behind the run of `|` or `&` that follows the edit, the items of either text, with its end, are
those of the rest on its own, moved to where it stands, and none reaches across that place. -/
theorem edits_are_local (front old new behind : Text) :
    (readAll 0 (front ++ old ++ behind)).filter (fun item => item.span.stop < byteSize front) =
      (readAll 0 (front ++ new ++ behind)).filter
        (fun item => item.span.stop < byteSize front) ∧
    (∀ item ∈ stream 0 (front ++ old ++ behind), item.span.stop = byteSize front →
      item.isSingle = false → item ∈ stream 0 (front ++ new ++ behind)) ∧
    ∃ rest, Text.dropBytes? (leadingRun behind).length behind = some rest ∧
      ∀ middle ∈ [old, new],
        let resumed := byteSize (front ++ middle) + (leadingRun behind).length
        (∀ item ∈ readAll 0 (front ++ middle ++ behind),
          ¬ (item.span.start < resumed ∧ resumed < item.span.stop)) ∧
        (readAll 0 (front ++ middle ++ behind)).filter
            (fun item => resumed ≤ item.span.start) =
          (readAll 0 rest).map (shift resumed) := by
  have divided := Text.leadingRun_append_drop behind
  have size := Text.byteSize_leadingRun behind
  refine ⟨?_, ?_, behind.drop (leadingRun behind).length, ?_, ?_⟩
  · rw [List.append_assoc, List.append_assoc, filter_stop_lt_readAll_append,
      filter_stop_lt_readAll_append]
  · intro item mem stops double
    rw [List.append_assoc] at mem ⊢
    apply mem_stream_of_settled mem
    simp [settled, stops, double]
  · have cut := Text.dropBytes?_byteSize_append (leadingRun behind)
      (behind.drop (leadingRun behind).length)
    rwa [divided, size] at cut
  · intro middle _ resumed
    apply resumes_behind_leadingRun divided
    rw [Text.byteSize_append, size]

/-- A bar is put in front of two others, which are paired in another way then. -/
theorem edits_are_local_among_bars :
    let front : Text := ['a']
    let behind : Text := ['|', '|', 'b']
    let last : List Item := [⟨.ident 'b' 1, ⟨0, 1⟩⟩, atEnd 1]
    ⟨.ident 'a' 0, ⟨0, 1⟩⟩ ∈ stream 0 (front ++ ['|'] ++ behind) ∧
      (readAll 0 (front ++ [] ++ behind)).filter (fun item => 3 ≤ item.span.start) =
        last.map (shift 3) ∧
      (readAll 0 (front ++ ['|'] ++ behind)).filter (fun item => 4 ≤ item.span.start) =
        last.map (shift 4) := by
  intro front behind last
  obtain ⟨-, kept, rest, cut, resumes⟩ := edits_are_local front [] ['|'] behind
  have divided : Text.dropBytes? (leadingRun behind).length behind = some ['b'] := by decide
  have same : rest = ['b'] := Option.some.inj (cut.symm.trans divided)
  have read : readAll 0 rest = last := by
    rw [same, readAll, readUntil, if_neg (by decide), readUntil, if_pos (by decide)]
    rfl
  rw [read] at resumes
  refine ⟨kept _ ?_ rfl rfl, ?_, ?_⟩
  · show ⟨.ident 'a' 0, ⟨0, 1⟩⟩ ∈ stream 0 ('a' :: behind)
    rw [stream_cons 0 (by decide)]
    exact List.mem_cons_self
  · exact (resumes [] List.mem_cons_self).2
  · exact (resumes ['|'] (List.mem_cons_of_mem _ List.mem_cons_self)).2

end Item

end BooleanLexer
