/-
# BooleanLexer.Proofs.Text.Cuts -- a cut between two characters, and what it divides

A checked cut succeeds exactly where a text falls into two parts of the right size
(`dropBytes?_eq_some_iff`), and the size of the first part determines both
(`append_inj_of_byteSize`).  `Written` says, without cutting, that a part of a text
stands at a range of bytes.
-/
import BooleanLexer.Text.Basic

namespace BooleanLexer.Text

set_option autoImplicit false

/-! ## Sizes -/

theorem byteSize_eq_zero_iff {text : Text} : byteSize text = 0 ↔ text = [] := by
  cases text with
  | nil => simp
  | cons c text =>
      have := c.utf8Size_pos
      simp only [byteSize_cons, reduceCtorEq, iff_false]
      omega

theorem byteSize_pos {text : Text} (nonempty : text ≠ []) : 0 < byteSize text :=
  Nat.pos_of_ne_zero fun empty => nonempty (byteSize_eq_zero_iff.mp empty)

/-- Of two ways to divide a text, the one with the smaller first part divides that of
the other. -/
theorem exists_of_append_eq_append {first second first' second' : Text}
    (same : first ++ second = first' ++ second') (shorter : byteSize first ≤ byteSize first') :
    ∃ middle, first' = first ++ middle ∧ second = middle ++ second' := by
  rcases List.append_eq_append_iff.mp same with ⟨middle, longer, rest⟩ | ⟨middle, longer, rest⟩
  · exact ⟨middle, longer, rest⟩
  · have : byteSize middle = 0 := by
      rw [longer, byteSize_append] at shorter
      omega
    rw [byteSize_eq_zero_iff.mp this] at longer rest
    exact ⟨[], by simpa using longer.symm, by simpa using rest.symm⟩

/-! ## Checked cuts -/

theorem dropBytes?_cons_append (c : Char) (count : Nat) (text : Text) :
    dropBytes? (c.utf8Size + count) (c :: text) = dropBytes? count text := by
  have := c.utf8Size_pos
  obtain ⟨n, size⟩ : ∃ n, c.utf8Size + count = n + 1 := ⟨c.utf8Size + count - 1, by omega⟩
  rw [size, dropBytes?, if_pos (by omega), ← size, Nat.add_sub_cancel_left]

theorem dropBytes?_byteSize_append (first second : Text) :
    dropBytes? (byteSize first) (first ++ second) = some second := by
  induction first with
  | nil => simp [dropBytes?]
  | cons c first ih => rw [byteSize_cons, List.cons_append, dropBytes?_cons_append, ih]

theorem dropBytes_byteSize_append (first second : Text) :
    dropBytes (byteSize first) (first ++ second) = second := by
  rw [dropBytes, dropBytes?_byteSize_append, Option.getD_some]

/-- A cut behind the first part of a text cuts the second part. -/
theorem dropBytes?_byteSize_add_append (first : Text) (count : Nat) (second : Text) :
    dropBytes? (byteSize first + count) (first ++ second) = dropBytes? count second := by
  induction first with
  | nil => rw [byteSize_nil, Nat.zero_add, List.nil_append]
  | cons c first ih =>
      rw [byteSize_cons, Nat.add_assoc, List.cons_append, dropBytes?_cons_append, ih]

theorem dropBytes_byteSize_add_append (first : Text) (count : Nat) (second : Text) :
    dropBytes (byteSize first + count) (first ++ second) = dropBytes count second := by
  rw [dropBytes, dropBytes?_byteSize_add_append, ← dropBytes]

theorem takeBytes?_byteSize_append (first second : Text) :
    takeBytes? (byteSize first) (first ++ second) = some first := by
  induction first with
  | nil => simp [takeBytes?]
  | cons c first ih =>
      have := c.utf8Size_pos
      obtain ⟨n, size⟩ : ∃ n, byteSize (c :: first) = n + 1 :=
        ⟨byteSize (c :: first) - 1, by rw [byteSize_cons]; omega⟩
      rw [size, List.cons_append, takeBytes?, ← size, byteSize_cons, if_pos (by omega),
        Nat.add_sub_cancel_left, ih, Option.map_some]

theorem takeBytes_byteSize_append (first second : Text) :
    takeBytes (byteSize first) (first ++ second) = first := by
  rw [takeBytes, takeBytes?_byteSize_append, Option.getD_some]

theorem dropBytes?_eq_some_iff {count : Nat} {text rest : Text} :
    dropBytes? count text = some rest ↔ ∃ first, text = first ++ rest ∧ byteSize first = count := by
  constructor
  · intro cut
    fun_induction dropBytes? count text with
    | case1 text => exact ⟨[], by simpa using cut, rfl⟩
    | case2 => simp at cut
    | case3 count c text fits ih =>
        obtain ⟨first, rfl, size⟩ := ih cut
        refine ⟨c :: first, rfl, ?_⟩
        rw [byteSize_cons, size]
        omega
    | case4 => simp at cut
  · rintro ⟨first, rfl, rfl⟩
    exact dropBytes?_byteSize_append first rest

/-- A slice behind the first part of a text is a slice of the second part. -/
theorem slice?_byteSize_add_append (first second : Text) (start stop : Nat) :
    slice? (first ++ second) (byteSize first + start) (byteSize first + stop) =
      slice? second start stop := by
  simp only [slice?, Nat.add_le_add_iff_left, dropBytes?_byteSize_add_append,
    Nat.add_sub_add_left]

theorem slice?_zero_byteSize_append (first second : Text) :
    slice? (first ++ second) 0 (byteSize first) = some first := by
  rw [slice?, if_pos (Nat.zero_le _), dropBytes?, Option.bind_some, Nat.sub_zero,
    takeBytes?_byteSize_append]

/-! ## A part of a text at its place -/

/-- Whether `part` stands from byte `start` up to byte `stop` in a `text` that stands at
`position` itself. -/
def Written (position : Nat) (text : Text) (start stop : Nat) (part : Text) : Prop :=
  ∃ first second, text = first ++ part ++ second ∧
    start = position + byteSize first ∧ stop = start + byteSize part

namespace Written

variable {position start stop : Nat} {taken rest part : Text}

theorem position_le (written : Written position rest start stop part) : position ≤ start := by
  obtain ⟨first, second, -, rfl, -⟩ := written
  omega

/-- What starts behind the head of a text stands in the rest of it. -/
theorem append_iff (behind : position + byteSize taken ≤ start) :
    Written position (taken ++ rest) start stop part ↔
      Written (position + byteSize taken) rest start stop part := by
  constructor
  · rintro ⟨first, second, divided, rfl, rfl⟩
    rw [List.append_assoc] at divided
    obtain ⟨middle, rfl, rfl⟩ := exists_of_append_eq_append divided (by omega)
    refine ⟨middle, second, by simp, ?_, rfl⟩
    rw [byteSize_append]
    omega
  · rintro ⟨first, second, rfl, rfl, rfl⟩
    exact ⟨taken ++ first, second, by simp, by rw [byteSize_append, Nat.add_assoc], rfl⟩

/-- What stands at the head of a text is the head of it. -/
theorem head (written : Written position rest position stop part) :
    ∃ second, rest = part ++ second ∧ stop = position + byteSize part := by
  obtain ⟨first, second, divided, size, rfl⟩ := written
  rw [byteSize_eq_zero_iff.mp (show byteSize first = 0 by omega), List.nil_append] at divided
  exact ⟨second, divided, rfl⟩

end Written

end BooleanLexer.Text
