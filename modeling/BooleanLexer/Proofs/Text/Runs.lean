/-
# BooleanLexer.Proofs.Text.Runs -- the runs of equal characters in a text

A run is a character repeated as often as it goes: neither the character before it nor the one
behind it is the same (`RunAt`).  Every text is made of runs, one behind the other
(`runs_induction`), and the runs of a text are the one at its head and those of the rest
(`runAt_append_iff`).
-/
import BooleanLexer.Proofs.Text.Lines

namespace BooleanLexer.Text

set_option autoImplicit false

/-- Whether `count` times the character `c` stand at byte `offset` of a text that stands at
`position`: at least one, and no further one next to them on either side. -/
def RunAt (position : Nat) (text : Text) (c : Char) (offset count : Nat) : Prop :=
  ∃ front back, text = front ++ (List.replicate count c ++ back) ∧
    offset = position + byteSize front ∧ 0 < count ∧
    front.getLast? ≠ some c ∧ back.head? ≠ some c

theorem byteSize_replicate (count : Nat) (c : Char) :
    byteSize (List.replicate count c) = count * c.utf8Size := by
  induction count with
  | zero => simp
  | succ count ih => rw [List.replicate_succ, byteSize_cons, ih, Nat.succ_mul, Nat.add_comm]

/-- A text starts with a run, and what stands behind that starts with another character. -/
theorem exists_run (c : Char) (rest : Text) :
    ∃ count behind, c :: rest = List.replicate (count + 1) c ++ behind ∧
      behind.head? ≠ some c := by
  induction rest with
  | nil => exact ⟨0, [], rfl, by simp⟩
  | cons d rest ih =>
      by_cases same : d = c
      · subst same
        obtain ⟨count, behind, divided, stops⟩ := ih
        exact ⟨count + 1, behind, by rw [divided]; rfl, stops⟩
      · exact ⟨0, d :: rest, rfl, by simpa using same⟩

/-- Induction on a text, run by run. -/
@[elab_as_elim]
theorem runs_induction {motive : Text → Prop} (nil : motive [])
    (run : ∀ c count rest, rest.head? ≠ some c → motive rest →
      motive (List.replicate (count + 1) c ++ rest)) (text : Text) : motive text := by
  generalize size : text.length = length
  induction length using Nat.strong_induction_on generalizing text with
  | _ length ih =>
      cases text with
      | nil => exact nil
      | cons c rest =>
          obtain ⟨count, behind, divided, stops⟩ := exists_run c rest
          rw [divided] at size ⊢
          simp only [List.length_append, List.length_replicate] at size
          exact run c count behind stops (ih behind.length (by omega) behind rfl)

theorem not_runAt_nil (position : Nat) (c : Char) (offset count : Nat) :
    ¬ RunAt position [] c offset count := by
  rintro ⟨front, back, divided, -, some_char, -⟩
  have := congrArg List.length divided
  simp only [List.length_nil, List.length_append, List.length_replicate] at this
  omega

section

variable {position offset count length : Nat} {c d : Char} {rest : Text}

/-- The run at the head of a text is as long as it goes. -/
theorem eq_of_replicate_append_eq {rest' : Text}
    (same : List.replicate count c ++ rest = List.replicate length c ++ rest')
    (stops : rest.head? ≠ some c) (stops' : rest'.head? ≠ some c) : count = length := by
  have within (count : Nat) : ∀ d ∈ List.replicate count c, decide (d = c) = true := by
    intro d mem
    exact decide_eq_true (List.eq_of_mem_replicate mem)
  have apart {rest : Text} (stops : rest.head? ≠ some c) :
      ∀ d ∈ rest.head?, decide (d = c) = false := by
    intro d head
    apply decide_eq_false
    rintro rfl
    exact stops head
  have runs := (append_inj_of_stop (fun d => decide (d = c)) same (within count) (apart stops)
    (within length) (apart stops')).1
  simpa using congrArg List.length runs

/-- What holds only `c` and does not end with `c` is empty. -/
theorem eq_nil_of_getLast?_ne {front : Text} (all : ∀ x ∈ front, x = c)
    (apart : front.getLast? ≠ some c) : front = [] := by
  by_contra nonempty
  rw [List.getLast?_eq_some_getLast nonempty] at apart
  exact apart (congrArg some (all _ (List.getLast_mem nonempty)))

/-- A run of a text that starts with a run of `d` is that one, or it stands behind it. -/
theorem runAt_append_iff (stops : rest.head? ≠ some d) :
    RunAt position (List.replicate (length + 1) d ++ rest) c offset count ↔
      (c = d ∧ offset = position ∧ count = length + 1) ∨
        RunAt (position + byteSize (List.replicate (length + 1) d)) rest c offset count := by
  constructor
  · rintro ⟨front, back, divided, rfl, some_char, apart, stops'⟩
    rcases List.append_eq_append_iff.mp divided with
      ⟨middle, rfl, behind⟩ | ⟨middle, whole, behind⟩
    · right
      refine ⟨middle, back, behind, ?_, some_char, ?_, stops'⟩
      · rw [byteSize_append, Nat.add_assoc]
      · intro last
        exact apart (by rw [List.getLast?_append, last, Option.some_or])
    · have all : ∀ x ∈ front ++ middle, x = d := by
        intro x mem
        rw [← whole] at mem
        exact List.eq_of_mem_replicate mem
      obtain ⟨more, rfl⟩ : ∃ more, count = more + 1 := ⟨count - 1, by omega⟩
      cases middle with
      | nil =>
          right
          rw [List.append_nil] at whole
          exact ⟨[], back, behind.symm, by rw [whole, byteSize_nil, Nat.add_zero], some_char,
            by simp, stops'⟩
      | cons m middle =>
          -- The runs overlap, so they are runs of the same character that start together.
          left
          obtain rfl : c = m := (List.cons.inj behind).1
          obtain rfl : c = d := all c (by simp)
          obtain rfl : front = [] :=
            eq_nil_of_getLast?_ne (fun x mem => all x (List.mem_append_left _ mem)) apart
          rw [List.nil_append] at whole
          rw [← whole] at behind
          exact ⟨rfl, by simp, eq_of_replicate_append_eq behind stops' stops⟩
  · rintro (⟨rfl, rfl, rfl⟩ | ⟨front, back, rfl, rfl, some_char, apart, stops'⟩)
    · exact ⟨[], rest, rfl, by simp, Nat.succ_pos length, by simp, stops⟩
    · refine ⟨List.replicate (length + 1) d ++ front, back, by simp, ?_, some_char, ?_, stops'⟩
      · rw [byteSize_append, Nat.add_assoc]
      · cases front with
        | nil =>
            -- The run behind starts at once, so it is of another character.
            obtain ⟨more, rfl⟩ : ∃ more, count = more + 1 := ⟨count - 1, by omega⟩
            have other : c ≠ d := by simpa [List.replicate_succ] using stops
            simp [List.getLast?_replicate, other.symm]
        | cons x front => simpa using apart

end

end BooleanLexer.Text
