/-
# BooleanLexer.Proofs.Literal.Order -- literals in order

Literals are compared as their ranks are: twice the number of the variable, and one more for a
negation (`compare_eq_compare_rank`).  There are fifty-two of them, so sorting only has to count:
a sorted list holds each literal in turn, as often as it occurs (`sort_eq_tally`).  Nothing else
of the list that was sorted shows in the result.

This is not the order of the indices, where every plain literal stands before every negated one.
-/
import BooleanLexer.Literal
import Mathlib.Data.Bool.Basic
import Mathlib.Data.List.FinRange

namespace BooleanLexer.Literal

set_option autoImplicit false

/-! ## Ranks -/

/-- The number of a literal when they are counted in order. -/
def rank (literal : Literal) : Nat := 2 * literal.var + literal.negated.toNat

theorem compare_eq_compare_rank (first second : Literal) :
    compare first second = compare first.rank second.rank := by
  have sign := first.negated.toNat_le
  have sign' := second.negated.toNat_le
  have lexicographic : compare first second =
      (compare (first.var : Nat) second.var).then (compare first.negated second.negated) := rfl
  rw [lexicographic]
  rcases Nat.lt_trichotomy first.var second.var with less | same | greater
  · have ranks : first.rank < second.rank := by unfold rank; omega
    rw [Nat.compare_eq_lt.mpr less, Nat.compare_eq_lt.mpr ranks, Ordering.lt_then]
  · rw [Nat.compare_eq_eq.mpr same, Ordering.eq_then, rank, rank, same]
    cases first.negated <;> cases second.negated
    · exact (Nat.compare_eq_eq.mpr rfl).symm
    · exact (Nat.compare_eq_lt.mpr (Nat.lt_succ_self _)).symm
    · exact (Nat.compare_eq_gt.mpr (Nat.lt_succ_self _)).symm
    · exact (Nat.compare_eq_eq.mpr rfl).symm
  · have ranks : second.rank < first.rank := by unfold rank; omega
    rw [Nat.compare_eq_gt.mpr greater, Nat.compare_eq_gt.mpr ranks, Ordering.gt_then]

theorem lt_iff_rank_lt {first second : Literal} : first < second ↔ first.rank < second.rank := by
  have by_compare : first < second ↔ compare first second = .lt := Iff.rfl
  rw [by_compare, compare_eq_compare_rank, Nat.compare_eq_lt]

theorem isLE_compare_iff {first second : Literal} :
    (compare first second).isLE = true ↔ first.rank ≤ second.rank := by
  rw [compare_eq_compare_rank, Nat.isLE_compare]

theorem eq_of_rank_eq {first second : Literal} (same : first.rank = second.rank) :
    first = second := by
  have sign := first.negated.toNat_le
  have sign' := second.negated.toNat_le
  unfold rank at same
  have vars : first.var = second.var := Fin.ext (by omega)
  have signs : first.negated = second.negated :=
    Function.LeftInverse.injective Bool.ofNat_toNat (by omega)
  cases first
  cases second
  simp_all

/-! ## Sorting by counting -/

/-- Every literal, in order. -/
def all : List Literal :=
  (List.finRange letterCount).flatMap fun var => [⟨var, false⟩, ⟨var, true⟩]

theorem pairwise_all : all.Pairwise fun first second => first.rank < second.rank := by decide

theorem count_all (literal : Literal) : all.count literal = 1 := by
  have table : ∀ (var : Fin letterCount) (negated : Bool), all.count ⟨var, negated⟩ = 1 := by
    decide
  exact table literal.var literal.negated

theorem count_flatMap_replicate (order : List Literal) (times : Literal → Nat)
    (literal : Literal) :
    (order.flatMap fun other => List.replicate (times other) other).count literal =
      order.count literal * times literal := by
  induction order with
  | nil => simp
  | cons other order ih =>
      rw [List.flatMap_cons, List.count_append, ih, List.count_replicate, List.count_cons]
      by_cases same : other = literal
      · simp [same, Nat.add_mul, Nat.add_comm]
      · simp [same]

/-- Each literal in turn, as often as it occurs. -/
def tally (literals : List Literal) : List Literal :=
  all.flatMap fun literal => List.replicate (literals.count literal) literal

theorem tally_perm (literals : List Literal) : (tally literals).Perm literals := by
  rw [List.perm_iff_count]
  intro literal
  rw [tally, count_flatMap_replicate, count_all, Nat.one_mul]

theorem pairwise_tally (literals : List Literal) :
    (tally literals).Pairwise fun first second => first.rank ≤ second.rank := by
  rw [tally, List.pairwise_flatMap]
  refine ⟨fun literal _ => List.pairwise_replicate.mpr (.inr (Nat.le_refl _)), ?_⟩
  refine pairwise_all.imp fun {first second} less other mem other' mem' => ?_
  rw [List.eq_of_mem_replicate mem, List.eq_of_mem_replicate mem']
  exact Nat.le_of_lt less

theorem pairwise_sort (literals : List Literal) :
    (sort literals).Pairwise fun first second => first.rank ≤ second.rank := by
  have sorted : (sort literals).Pairwise fun first second => (compare first second).isLE = true := by
    refine List.pairwise_mergeSort (fun first second third => ?_) (fun first second => ?_) literals
    · simp only [isLE_compare_iff]
      exact Nat.le_trans
    · simp only [Bool.or_eq_true, isLE_compare_iff]
      exact Nat.le_total _ _
  simpa only [isLE_compare_iff] using sorted

/-- Sorting counts: there is one sorted list of given literals. -/
theorem sort_eq_tally (literals : List Literal) : sort literals = tally literals :=
  List.Perm.eq_of_pairwise
    (fun _ _ _ _ le ge => eq_of_rank_eq (Nat.le_antisymm le ge))
    (pairwise_sort literals) (pairwise_tally literals)
    ((List.mergeSort_perm literals _).trans (tally_perm literals).symm)

theorem sort_eq_of_perm {literals literals' : List Literal} (perm : literals.Perm literals') :
    sort literals = sort literals' := by
  simp only [sort_eq_tally, tally, perm.count_eq]

/-! ## The text of sorted literals -/

/-- A literal as it is asked for: by variable and sign, or by index.  There may be no such
literal. -/
inductive Given where
  | byVar (var : Nat) (negated : Bool)
  | byIndex (index : Nat)

/-- The literal that is given, if there is one. -/
def Given.literal? : Given → Option Literal
  | .byVar var negated => ofVar? var negated
  | .byIndex index => ofIndex? index

/-- How often the literal of a variable and a sign occurs. -/
def occurrences (var : Nat) (negated : Bool) (literals : List Literal) : Nat :=
  literals.countP fun literal => some literal = ofVar? var negated

theorem occurrences_eq_count (var : Fin letterCount) (negated : Bool) (literals : List Literal) :
    occurrences var negated literals = literals.count ⟨var, negated⟩ := by
  have found : ofVar? var negated = some ⟨var, negated⟩ := dif_pos var.isLt
  rw [occurrences, List.count, found]
  refine List.countP_congr fun literal _ => ?_
  simp

theorem flatMap_display_replicate (count : Nat) (literal : Literal) :
    (List.replicate count literal).flatMap display = List.replicate count literal.letter := by
  rw [List.flatMap_replicate]
  simp [display]

theorem flatMap_display_sort (literals : List Literal) :
    (sort literals).flatMap display =
      (List.range letterCount).flatMap fun var =>
        List.replicate (occurrences var false literals) (Char.ofNat ('a'.toNat + var)) ++
        List.replicate (occurrences var true literals) (Char.ofNat ('A'.toNat + var)) := by
  rw [sort_eq_tally, tally, all, List.flatMap_assoc, List.flatMap_assoc,
    ← List.map_coe_finRange_eq_range, List.flatMap_map]
  refine List.flatMap_congr fun var _ => ?_
  rw [occurrences_eq_count, occurrences_eq_count]
  simp only [List.flatMap_cons, List.flatMap_nil, List.append_nil,
    flatMap_display_replicate]
  rfl

/-- **Sorted literals are written variable by variable, the plain one first.**  Whatever literals
are given, in whatever order and however often, the sorted text has for each variable in turn its
lowercase letter as often as the plain literal was given, and then its uppercase letter as often
as the negated one was.  A literal is less than another if twice its variable, and one more for a
negation, is less; that is not the order of the indices. -/
theorem sorted_by_variable :
    (∀ given : List Given,
      (sort (given.filterMap Given.literal?)).flatMap display =
        (List.range letterCount).flatMap fun var =>
          List.replicate (occurrences var false (given.filterMap Given.literal?))
            (Char.ofNat ('a'.toNat + var)) ++
          List.replicate (occurrences var true (given.filterMap Given.literal?))
            (Char.ofNat ('A'.toNat + var))) ∧
    (∀ given given' : List Given, given.Perm given' →
      (sort (given.filterMap Given.literal?)).flatMap display =
        (sort (given'.filterMap Given.literal?)).flatMap display) ∧
    (∀ first second : Literal, first < second ↔
      2 * first.var.val + first.negated.toNat < 2 * second.var.val + second.negated.toNat) ∧
    ∃ first second : Literal, first < second ∧ second.index < first.index := by
  refine ⟨fun given => flatMap_display_sort _, fun given given' perm => ?_,
    fun first second => lt_iff_rank_lt, ?_⟩
  · rw [sort_eq_of_perm (perm.filterMap Given.literal?)]
  · -- The negation of the first variable, and the second variable.
    exact ⟨⟨⟨0, by decide⟩, true⟩, ⟨⟨1, by decide⟩, false⟩, lt_iff_rank_lt.mpr (by decide), by decide⟩

/-- Two negations, a plain literal that is given twice, and an index of no literal, in two
orders. -/
theorem sorted_from_two_orders :
    let given : List Given :=
      [.byIndex 27, .byVar 1 false, .byIndex 52, .byIndex 26, .byVar 1 false]
    given.Perm given.reverse ∧
      (sort (given.reverse.filterMap Given.literal?)).flatMap display = "AbbB".toList := by
  intro given
  obtain ⟨text, unordered, -⟩ := sorted_by_variable
  have perm : given.Perm given.reverse := given.reverse_perm.symm
  refine ⟨perm, ?_⟩
  rw [← unordered given given.reverse perm, text]
  decide +kernel

end BooleanLexer.Literal
