/-
# BooleanLexer.Proofs.Text.Lines -- where one part of a text ends and the next begins

A text can be divided again where a part ends at a character that the part itself cannot
hold (`append_inj_of_stop`).  A line feed ends a line in this way, so a text consists of
lines in at most one way (`HasLines.unique`).
-/
import BooleanLexer.Text.Basic
import Mathlib.Data.List.TakeWhile

namespace BooleanLexer.Text

set_option autoImplicit false

theorem takeWhile_append_of_stop {α : Type} {p : α → Bool} {front rest : List α}
    (all : ∀ x ∈ front, p x = true) (stop : ∀ x ∈ rest.head?, p x = false) :
    (front ++ rest).takeWhile p = front := by
  rw [List.takeWhile_append_of_pos all]
  cases rest with
  | nil => simp
  | cons x rest =>
      have stops : ¬ p x = true := by simp [stop x rfl]
      rw [List.takeWhile_cons_of_neg stops, List.append_nil]

theorem dropWhile_append_of_stop {α : Type} {p : α → Bool} {front rest : List α}
    (all : ∀ x ∈ front, p x = true) (stop : ∀ x ∈ rest.head?, p x = false) :
    (front ++ rest).dropWhile p = rest := by
  have whole := List.takeWhile_append_dropWhile (p := p) (l := front ++ rest)
  rw [takeWhile_append_of_stop all stop] at whole
  exact List.append_cancel_left whole

/-- Two ways to divide a list are the same if in both the first part holds only elements that
the second part does not start with. -/
theorem append_inj_of_stop {α : Type} (p : α → Bool) {front rest front' rest' : List α}
    (same : front ++ rest = front' ++ rest')
    (all : ∀ x ∈ front, p x = true) (stop : ∀ x ∈ rest.head?, p x = false)
    (all' : ∀ x ∈ front', p x = true) (stop' : ∀ x ∈ rest'.head?, p x = false) :
    front = front' ∧ rest = rest' := by
  have fronts : front = front' := by
    rw [← takeWhile_append_of_stop all stop, same, takeWhile_append_of_stop all' stop']
  subst fronts
  exact ⟨rfl, List.append_cancel_left same⟩

/-- Lists that are equal through `f` are equal through whatever `f` tells of their elements. -/
theorem map_eq_map_of_mem {α β γ : Type} {f : α → β} {g : α → γ} {xs ys : List α}
    (tells : ∀ x ∈ xs, ∀ y ∈ ys, f x = f y → g x = g y) (same : xs.map f = ys.map f) :
    xs.map g = ys.map g := by
  induction xs generalizing ys with
  | nil =>
      obtain rfl : ys = [] := List.map_eq_nil_iff.mp same.symm
      rfl
  | cons x xs ih =>
      cases ys with
      | nil => cases same
      | cons y ys =>
          obtain ⟨here, behind⟩ := List.cons.inj same
          have first := tells x List.mem_cons_self y List.mem_cons_self here
          have later := ih (fun x' mem y' mem' =>
            tells x' (List.mem_cons_of_mem x mem) y' (List.mem_cons_of_mem y mem')) behind
          rw [List.map_cons, List.map_cons, first, later]

/-- Whether a text consists of `lines`, each of which a line feed ends. -/
def HasLines (text : Text) (lines : List Text) : Prop :=
  text = (lines.map (· ++ ['\n'])).flatten ∧ ∀ line ∈ lines, '\n' ∉ line

theorem HasLines.unique {text : Text} {lines lines' : List Text} (consists : HasLines text lines)
    (consists' : HasLines text lines') : lines = lines' := by
  obtain ⟨rfl, clean⟩ := consists
  obtain ⟨same, clean'⟩ := consists'
  induction lines generalizing lines' with
  | nil => cases lines' <;> simp_all
  | cons line lines ih =>
      cases lines' with
      | nil => simp at same
      | cons line' lines' =>
          obtain ⟨clean_line, clean_rest⟩ := List.forall_mem_cons.mp clean
          obtain ⟨clean_line', clean_rest'⟩ := List.forall_mem_cons.mp clean'
          simp only [List.map_cons, List.flatten_cons, List.append_assoc] at same
          have within {text : Text} (clean : '\n' ∉ text) : ∀ c ∈ text, decide (c ≠ '\n') = true :=
            fun c mem => decide_eq_true (ne_of_mem_of_not_mem mem clean)
          obtain ⟨first, rest⟩ := append_inj_of_stop (fun c => decide (c ≠ '\n')) same
            (within clean_line) (by simp) (within clean_line') (by simp)
          rw [first, ih clean_rest (List.append_cancel_left rest) clean_rest']

end BooleanLexer.Text
