/-
# BooleanLexer.Proofs.Item.Pairing -- how a run of operators is paired

A run of `|` or of `&` is read in pairs from its left end, with a single operator last if the
run has odd length (`stream_replicate`).  That does not depend on what stands in front of the
run: two texts are read apart if no operator ends the first and goes on in the second
(`apart_of_forall`), so reading arrives at the start of a run between two tokens, and leaves it
between two tokens (`filter_readAll_of_apart`).

A text consists of runs, and what each of them gives is counted run by run
(`exists_countP_stream_eq`).
-/
import BooleanLexer.Proofs.Item.Edits
import BooleanLexer.Proofs.Text.Runs
import BooleanLexer.Scan.Listing
import Mathlib.Algebra.BigOperators.Group.Finset.Basic
import Mathlib.Data.Nat.Init

namespace BooleanLexer

set_option autoImplicit false

open Text (byteSize isBlank blanks marks RunAt)

/-- The kinds whose operator may be doubled, each beside that operator and its other spelling. -/
def doublings : List (Kind × Char × Char) := [(.or, '|', '+'), (.and, '&', '*')]

/-! ## The items of a run -/

namespace Item

/-- A run of an operator that may be doubled is read in pairs from its left end. -/
theorem stream_replicate {c : Char} (doubles : c = '|' ∨ c = '&') (position count : Nat) :
    stream position (List.replicate count c) =
      (List.range ((count + 1) / 2)).map fun i =>
        ⟨Token.leading c, ⟨position + 2 * i, min (position + 2 * i + 2) (position + count)⟩⟩ := by
  have solid := Text.solid_of_doubles doubles
  have size := Text.utf8Size_of_doubles doubles
  induction count using Nat.twoStepInduction generalizing position with
  | zero => simp
  | one => simp [stream_singleton position solid, size]
  | more count ih =>
      have doubled := Lexeme.isDoubled_cons_self doubles (List.replicate count c)
      have half : (count + 2 + 1) / 2 = (count + 1) / 2 + 1 := by omega
      rw [List.replicate_succ, List.replicate_succ, stream_cons position solid, half,
        List.range_succ_eq_map, List.map_cons, List.map_map]
      simp only [Lexeme.written, Lexeme.after, doubled, if_true, List.tail_cons, ih,
        Text.byteSize_cons, Text.byteSize_nil, size]
      congr 1
      · simp
      · apply List.map_congr_left
        intro i _
        simp
        omega

end Item

/-! ## The items of a part -/

/-- Whether a span starts in a range of bytes. -/
def Span.startsIn (start stop : Nat) (span : Span) : Bool :=
  start ≤ span.start && span.start < stop

/-- Whether a span holds a byte of a range. -/
def Span.meets (start stop : Nat) (span : Span) : Bool := span.start < stop && start < span.stop

namespace Item

/-- Of a text that is read apart at both ends of a part, the items that start in the part, and
those that reach into it, are the items of the part. -/
theorem filter_readAll_of_apart {front part back : Text}
    (apart : ¬ (Joins '|' front (part ++ back) ∨ Joins '&' front (part ++ back)))
    (apart' : ¬ (Joins '|' part back ∨ Joins '&' part back)) {start stop : Nat}
    (begins : start = byteSize front) (ends : stop = byteSize front + byteSize part) :
    (readAll 0 (front ++ (part ++ back))).filter (fun item => item.span.startsIn start stop) =
        stream start part ∧
      (readAll 0 (front ++ (part ++ back))).filter (fun item => item.span.meets start stop) =
        stream start part := by
  have read := readAll_append 0 apart
  rw [readAll_append _ apart', Nat.zero_add, ← ends, ← begins] at read
  -- Either property holds of the spans within the part and of no span on one side of it.
  have keeps (p : Span → Bool)
      (inside : ∀ span, start ≤ span.start ∧ span.start < span.stop ∧ span.stop ≤ stop →
        p span = true)
      (outside : ∀ span, (span.start < span.stop ∧ span.stop ≤ start) ∨ stop ≤ span.start →
        p span = false) :
      (readAll 0 (front ++ (part ++ back))).filter (fun item => p item.span) =
        stream start part := by
    have before : (stream 0 front).filter (fun item => p item.span) = [] := by
      apply List.filter_eq_nil_iff.mpr
      intro item mem
      have bounds := bounds_of_mem_stream mem
      simp [outside item.span (.inl ⟨bounds.2.1, by omega⟩)]
    have within : (stream start part).filter (fun item => p item.span) = stream start part := by
      apply List.filter_eq_self.mpr
      intro item mem
      have bounds := bounds_of_mem_stream mem
      exact inside item.span ⟨bounds.1, bounds.2.1, by omega⟩
    have behind : (readAll stop back).filter (fun item => p item.span) = [] := by
      apply List.filter_eq_nil_iff.mpr
      intro item mem
      simp [outside item.span (.inr (le_start_of_mem_readAll mem))]
    rw [read, List.filter_append, List.filter_append, before, within, behind, List.nil_append,
      List.append_nil]
  constructor
  · apply keeps
    · intro span place
      simp [Span.startsIn]
      omega
    · intro span place
      simp [Span.startsIn]
      omega
  · apply keeps
    · intro span place
      simp [Span.meets]
      omega
    · intro span place
      simp [Span.meets]
      omega

/-- A character that is neither blank nor doubled is one token by itself, whatever stands on its
two sides. -/
theorem filter_readAll_single (front : Text) {c : Char} (back : Text) (solid : isBlank c = false)
    (bar : c ≠ '|') (ampersand : c ≠ '&') :
    (readAll 0 (front ++ c :: back)).filter (fun item =>
        item.span.meets (byteSize front) (byteSize front + c.utf8Size)) =
      [⟨Token.leading c, ⟨byteSize front, byteSize front + c.utf8Size⟩⟩] := by
  have other (d : Char) (doubles : d = '|' ∨ d = '&') : c ≠ d := by
    rintro rfl
    exact doubles.elim bar ampersand
  have apart : ¬ (Joins '|' front ([c] ++ back) ∨ Joins '&' front ([c] ++ back)) := by
    apply apart_of_forall
    intro d doubles _
    simpa using other d doubles
  have apart' : ¬ (Joins '|' [c] back ∨ Joins '&' [c] back) := by
    apply apart_of_forall
    intro d doubles last
    simp [other d doubles] at last
  rw [← stream_singleton _ solid]
  exact (filter_readAll_of_apart apart apart' rfl (by simp)).2

/-! ## Counting -/

theorem kind_leading_eq_iff {kind : Kind} {mark other : Char}
    (listed : (kind, mark, other) ∈ doublings) (c : Char) :
    (Token.leading c).kind = kind ↔ c = mark ∨ c = other := by
  by_cases sign : c ∈ marks
  · have table : doublings.all (fun op => marks.all fun c =>
        (Token.leading c).kind = op.1 ↔ c = op.2.1 ∨ c = op.2.2) = true := by decide
    have row := List.all_eq_true.mp table _ listed
    exact of_decide_eq_true (List.all_eq_true.mp row c sign)
  · -- A letter, or an unknown character.
    have table : doublings.all (fun op => op.1 ≠ .ident ∧ op.1 ≠ .unknown ∧
        op.2.1 ∈ marks ∧ op.2.2 ∈ marks) = true := by decide
    obtain ⟨no_ident, known, of_marks, of_marks'⟩ :=
      of_decide_eq_true (List.all_eq_true.mp table _ listed)
    have other_kind : (Token.leading c).kind ≠ kind := by
      by_cases letter : Text.IsLetter c
      · rcases letter with ⟨ge, le⟩ | ⟨ge, le⟩
        · rw [leading_of_lower ge le]
          exact no_ident.symm
        · rw [leading_of_upper ge le]
          exact no_ident.symm
      · rw [leading_of_unknown letter sign]
        exact known.symm
    simp only [other_kind, false_iff, not_or]
    constructor
    · rintro rfl
      exact sign of_marks
    · rintro rfl
      exact sign of_marks'

/-- What a run gives: half of its operators if it is a run of the one that is doubled, and all of
them if it is the other spelling. -/
theorem countP_stream_replicate {kind : Kind} {mark other : Char}
    (listed : (kind, mark, other) ∈ doublings) (position count : Nat) (c : Char) :
    (stream position (List.replicate count c)).countP (fun item => item.token.kind = kind) =
      (List.replicate count c).count other + if c = mark then (count + 1) / 2 else 0 := by
  have table : doublings.all (fun op => (op.2.1 = '|' ∨ op.2.1 = '&') ∧
      op.2.2 ≠ '|' ∧ op.2.2 ≠ '&' ∧ op.2.2 ∉ blanks) = true := by decide
  obtain ⟨mark_doubles, no_bar, no_ampersand, solid_other⟩ :=
    of_decide_eq_true (List.all_eq_true.mp table _ listed)
  have kind_iff := kind_leading_eq_iff listed c
  by_cases doubles : c = '|' ∨ c = '&'
  · have no_other : c ≠ other := by
      rintro rfl
      exact doubles.elim no_bar no_ampersand
    rw [stream_replicate doubles, List.countP_map]
    by_cases same : c = mark
    · subst same
      simp [Function.comp_def, kind_iff, no_other, List.count_replicate]
    · simp [Function.comp_def, kind_iff, same, no_other, List.count_replicate]
  · have no_mark : c ≠ mark := by
      rintro rfl
      exact doubles mark_doubles
    have single (rest : Text) : Lexeme.isDoubled c rest = false := by
      simp [Lexeme.isDoubled, not_or.mp doubles]
    rw [if_neg no_mark, Nat.add_zero]
    induction count generalizing position with
    | zero => simp
    | succ count ih =>
        by_cases blank : isBlank c = true
        · have no_other : c ≠ other := by
            rintro rfl
            exact solid_other (by simpa [isBlank] using blank)
          rw [List.replicate_succ, stream_cons_blank position blank, ih,
            List.count_cons_of_ne no_other]
        · rw [List.replicate_succ, stream_cons position (by simpa using blank), List.countP_cons,
            List.count_cons]
          simp [Lexeme.after, Lexeme.written, single, ih, kind_iff, no_mark]

/-- The tokens of a kind are its other spellings and half of each run, rounded up. -/
theorem exists_countP_stream_eq {kind : Kind} {mark other : Char}
    (listed : (kind, mark, other) ∈ doublings) (position : Nat) (text : Text) :
    ∃ runs : Finset (Nat × Nat),
      (∀ offset count, (offset, count) ∈ runs ↔ RunAt position text mark offset count) ∧
      (stream position text).countP (fun item => item.token.kind = kind) =
        text.count other + ∑ run ∈ runs, (run.2 + 1) / 2 := by
  induction text using Text.runs_induction generalizing position with
  | nil => exact ⟨∅, by simp [Text.not_runAt_nil], by simp⟩
  | run c length rest stops ih =>
      obtain ⟨runs, mem_iff, counted⟩ := ih (position + byteSize (List.replicate (length + 1) c))
      have apart : ¬ (Joins '|' (List.replicate (length + 1) c) rest ∨
          Joins '&' (List.replicate (length + 1) c) rest) := by
        apply apart_of_forall
        intro d _ last
        rw [List.getLast?_replicate, if_neg (Nat.succ_ne_zero length)] at last
        rwa [← Option.some.inj last]
      rw [(stream_append_iff position _ rest).mpr apart, List.countP_append, counted,
        countP_stream_replicate listed, List.count_append]
      by_cases same : c = mark
      · -- This run is one more than those of the rest.
        subst same
        have fresh : (position, length + 1) ∉ runs := by
          rw [mem_iff]
          rintro ⟨front, -, -, start, -⟩
          have := c.utf8Size_pos
          simp only [List.replicate_succ, Text.byteSize_cons] at start
          omega
        refine ⟨insert (position, length + 1) runs, ?_, ?_⟩
        · intro offset count
          simp [Text.runAt_append_iff stops, mem_iff]
        · rw [Finset.sum_insert fresh, if_pos rfl]
          omega
      · refine ⟨runs, ?_, ?_⟩
        · intro offset count
          simp [Text.runAt_append_iff stops, mem_iff, Ne.symm same]
        · rw [if_neg same]
          omega

/-- **Runs of an operator that may be doubled are paired from the left.**  The tokens that start in
a run of `|`, or reach into it, are those of its pairs, with a single `|` last if its length is odd;
likewise for `&`.  So a source has as many tokens of the kind as the other spelling occurs in it,
and half of each run, rounded up.  Any other character that is not blank is one token by itself. -/
theorem runs_pair_from_left (source : Text) :
    (∀ kind mark other, (kind, mark, other) ∈ doublings →
      (∀ offset count, RunAt 0 source mark offset count →
        let pairs := (List.range ((count + 1) / 2)).map fun i =>
          (⟨.plain kind mark,
            ⟨offset + 2 * i, min (offset + 2 * i + 2) (offset + count)⟩⟩ : Item)
        (Scan.Listing.ofText source).items.filter
            (fun item => item.span.startsIn offset (offset + count)) = pairs ∧
          (Scan.Listing.ofText source).items.filter
            (fun item => item.span.meets offset (offset + count)) = pairs) ∧
      ∃ runs : Finset (Nat × Nat),
        (∀ offset count, (offset, count) ∈ runs ↔ RunAt 0 source mark offset count) ∧
        (Scan.Listing.ofText source).items.countP (fun item => item.token.kind = kind) =
          source.count other + ∑ run ∈ runs, (run.2 + 1) / 2) ∧
    ∀ front c back, source = front ++ c :: back → c ∉ blanks → c ≠ '|' → c ≠ '&' →
      (Scan.Listing.ofText source).items.filter (fun item =>
          item.span.meets (byteSize front) (byteSize front + c.utf8Size)) =
        [⟨Token.leading c, ⟨byteSize front, byteSize front + c.utf8Size⟩⟩] := by
  have items : (Scan.Listing.ofText source).items = readAll 0 source := rfl
  rw [items]
  refine ⟨?_, ?_⟩
  · intro kind mark other listed
    have table : doublings.all (fun op => (op.2.1 = '|' ∨ op.2.1 = '&') ∧
        Token.leading op.2.1 = .plain op.1 op.2.1 ∧ op.1 ≠ .finish) = true := by decide
    obtain ⟨doubles, token, unfinished⟩ := of_decide_eq_true (List.all_eq_true.mp table _ listed)
    refine ⟨?_, ?_⟩
    · rintro offset count ⟨front, back, rfl, start, some_char, apart, stops⟩
      rw [Nat.zero_add] at start
      have pairs := stream_replicate doubles offset count
      rw [token] at pairs
      rw [← pairs]
      apply filter_readAll_of_apart
      · apply apart_of_forall
        intro d _ last head
        rw [List.head?_append, List.head?_replicate, if_neg (by omega), Option.some_or] at head
        exact apart (by rw [last, head])
      · apply apart_of_forall
        intro d _ last
        rw [List.getLast?_replicate, if_neg (by omega)] at last
        rwa [← last]
      · exact start
      · rw [Text.byteSize_replicate, Text.utf8Size_of_doubles doubles, Nat.mul_one, start]
    · obtain ⟨runs, mem_iff, counted⟩ := exists_countP_stream_eq listed 0 source
      refine ⟨runs, mem_iff, ?_⟩
      rw [readAll_eq_stream_append, List.countP_append, counted]
      simp [atEnd, Token.finish, unfinished.symm]
  · rintro front c back rfl solid bar ampersand
    exact filter_readAll_single front back (isBlank_eq_false_iff.mpr solid) bar ampersand

/-- Three bars behind a character of three bytes, in front of the other spelling and of a pair of
the other operator. -/
theorem bars_paired_behind_wide_character :
    let source : Text := ['€', '|', '|', '|', '+', '&', '&', 'a']
    RunAt 0 source '|' 3 3 ∧
      (Scan.Listing.ofText source).items.filter (fun item => item.span.meets 3 6) =
        [⟨.plain .or '|', ⟨3, 5⟩⟩, ⟨.plain .or '|', ⟨5, 6⟩⟩] ∧
      (Scan.Listing.ofText source).items.filter (fun item => item.span.startsIn 7 9) =
        [⟨.plain .and '&', ⟨7, 9⟩⟩] ∧
      (Scan.Listing.ofText source).items.filter (fun item => item.span.meets 0 3) =
        [⟨.plain .unknown '€', ⟨0, 3⟩⟩] ∧
      ∃ runs : Finset (Nat × Nat), (3, 3) ∈ runs ∧
        (Scan.Listing.ofText source).items.countP (fun item => item.token.kind = .or) =
          1 + ∑ run ∈ runs, (run.2 + 1) / 2 := by
  intro source
  obtain ⟨paired, single⟩ := runs_pair_from_left source
  obtain ⟨bars, runs, mem_iff, counted⟩ := paired .or '|' '+' (by decide)
  obtain ⟨ampersands, -⟩ := paired .and '&' '*' (by decide)
  have run : RunAt 0 source '|' 3 3 := ⟨['€'], ['+', '&', '&', 'a'], by decide⟩
  have run' : RunAt 0 source '&' 7 2 := ⟨['€', '|', '|', '|', '+'], ['a'], by decide⟩
  refine ⟨run, (bars 3 3 run).2, (ampersands 7 2 run').1, ?_, runs, (mem_iff 3 3).mpr run, counted⟩
  exact single [] '€' _ rfl (by decide) (by decide) (by decide)

end Item

end BooleanLexer
