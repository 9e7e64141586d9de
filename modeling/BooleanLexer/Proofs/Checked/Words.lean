/-
# BooleanLexer.Proofs.Checked.Words -- numbers and cuts that a machine may refuse

This library computes with natural numbers of any size, and its total cuts answer with the empty
text where there is nothing to cut.  A machine has words of a limited size and stops at a cut that
falls inside a character.  The operations of this module do the same: each of them traps where the
number or the text is not there.

Literals are made, numbered and spelled with such words, a variable in a byte and an index in four
of them.  None of these operations ever traps, and each gives what the library gives
(`ofVar_eq_ok`, `ofIndex_eq_ok`, `index_pack`, `letter_pack`); the same holds for the index that
is computed from a letter (`ofHead_eq_ok`).
-/
import BooleanLexer.Lexeme
import BooleanLexer.Proofs.Files.Writing

namespace BooleanLexer.Checked

set_option autoImplicit false

/-- Why an operation is refused. -/
inductive Trap where
  /-- A difference is less than zero. -/
  | underflow
  /-- A sum is greater than the greatest word. -/
  | overflow
  /-- A number loses digits in a smaller word. -/
  | truncation
  /-- A cut falls inside a character or beyond the end of its text, or is reversed. -/
  | misplacedCut
deriving DecidableEq

/-! ## Words -/

/-- The greatest number that is kept in a byte. -/
def maxByte : Nat := 255

/-- The greatest number that is kept in a word of four bytes. -/
def maxWord : Nat := 4294967295

/-- The sum of two words. -/
def add (greatest first second : Nat) : Except Trap Nat :=
  if first + second ≤ greatest then .ok (first + second) else .error .overflow

/-- The difference of two words. -/
def sub (first second : Nat) : Except Trap Nat :=
  if second ≤ first then .ok (first - second) else .error .underflow

/-- A number as a byte. -/
def narrow (number : Nat) : Except Trap UInt8 :=
  if number ≤ maxByte then .ok (UInt8.ofNat number) else .error .truncation

/-- The bytes of a text from `start` to `stop`. -/
def cut (text : Text) (start stop : Nat) : Except Trap Text :=
  match Text.slice? text start stop with
  | some part => .ok part
  | none => .error .misplacedCut

theorem add_eq_ok {greatest first second : Nat} (fits : first + second ≤ greatest) :
    add greatest first second = .ok (first + second) :=
  if_pos fits

theorem sub_eq_ok {first second : Nat} (le : second ≤ first) :
    sub first second = .ok (first - second) :=
  if_pos le

theorem sub_eq_error {first second : Nat} (less : first < second) :
    sub first second = .error .underflow :=
  if_neg (Nat.not_le.mpr less)

theorem narrow_eq_ok {number : Nat} (fits : number ≤ maxByte) :
    narrow number = .ok (UInt8.ofNat number) :=
  if_pos fits

theorem cut_eq_ok_iff {text part : Text} {start stop : Nat} :
    cut text start stop = .ok part ↔ Text.slice? text start stop = some part := by
  unfold cut
  cases Text.slice? text start stop <;> simp

/-! ## Literals -/

/-- A literal as it is kept in memory, its variable in a byte. -/
structure Packed where
  var : UInt8
  negated : Bool
deriving DecidableEq

/-- A literal, put into memory. -/
def pack (literal : Literal) : Packed := ⟨UInt8.ofNat literal.var, literal.negated⟩

/-- A byte has room for every variable. -/
theorem toNat_var_pack (literal : Literal) : (pack literal).var.toNat = literal.var := by
  have bound : literal.var.val < 26 := literal.var.isLt
  exact UInt8.toNat_ofNat_of_lt (Nat.lt_trans bound (by decide))

theorem negated_pack (literal : Literal) : (pack literal).negated = literal.negated := rfl

/-- The literal of a variable, if there is such a variable. -/
def ofVar (var : Nat) (negated : Bool) : Except Trap (Option Packed) :=
  if var < letterCount then do
    let byte ← narrow var
    return some ⟨byte, negated⟩
  else return none

/-- The literal of an index, if it is the index of one.  It is a negation unless taking the
plain ones off is refused. -/
def ofIndex (index : Nat) : Except Trap (Option Packed) :=
  match sub index letterCount with
  | .error _ => ofVar index false
  | .ok var => ofVar var true

/-- The literal that a letter spells. -/
def literal? (token : Token) : Except Trap (Option Packed) :=
  match token.kind with
  | .ident => ofIndex token.index
  | _ => return none

/-- The index of a literal. -/
def Packed.index (packed : Packed) : Except Trap Nat :=
  if packed.negated then add maxWord packed.var.toNat letterCount else return packed.var.toNat

/-- The letter that spells a literal. -/
def Packed.letter (packed : Packed) : Except Trap Char := do
  let code ← add maxByte (if packed.negated then 'A' else 'a').toNat packed.var.toNat
  return Char.ofNat code

theorem ofVar_eq_ok (var : Nat) (negated : Bool) :
    ofVar var negated = .ok ((Literal.ofVar? var negated).map pack) := by
  unfold ofVar Literal.ofVar?
  split
  · next bound =>
      have fits : var ≤ maxByte := by
        unfold letterCount at bound
        unfold maxByte
        omega
      exact bind_eq_ok_iff.mpr ⟨_, narrow_eq_ok fits, rfl⟩
  · rfl

theorem ofIndex_eq_ok (index : Nat) :
    ofIndex index = .ok ((Literal.ofIndex? index).map pack) := by
  unfold ofIndex Literal.ofIndex?
  by_cases plain : index < letterCount
  · rw [sub_eq_error plain, if_pos plain]
    exact ofVar_eq_ok index false
  · rw [sub_eq_ok (Nat.not_lt.mp plain), if_neg plain]
    exact ofVar_eq_ok (index - letterCount) true

theorem literal?_eq_ok (token : Token) : literal? token = .ok (token.literal?.map pack) := by
  obtain ⟨kind, symbol, index⟩ := token
  cases kind with
  | ident => exact ofIndex_eq_ok index
  | unknown | finish | or | xor | and | not | opening | closing => rfl

theorem index_pack (literal : Literal) : (pack literal).index = .ok literal.index := by
  have bound : literal.var.val < 26 := literal.var.isLt
  have fits : literal.var + letterCount ≤ maxWord := by
    unfold letterCount maxWord
    omega
  rw [Packed.index, Literal.index, toNat_var_pack, negated_pack]
  split
  · exact add_eq_ok fits
  · rfl

theorem letter_pack (literal : Literal) : (pack literal).letter = .ok literal.letter := by
  have bound : literal.var.val < 26 := literal.var.isLt
  have fits : (if literal.negated then 'A' else 'a').toNat + literal.var ≤ maxByte := by
    have upper : 'A'.toNat = 65 := rfl
    have lower : 'a'.toNat = 97 := rfl
    unfold maxByte
    split <;> omega
  rw [Packed.letter, toNat_var_pack, negated_pack]
  exact bind_eq_ok_iff.mpr ⟨_, add_eq_ok fits, rfl⟩

/-! ## Lexemes -/

/-- The lexeme of a text that starts with `c`, where `next?` is the character after it. -/
def ofHead (c : Char) (next? : Option Char) : Except Trap Lexeme :=
  if 'a' ≤ c ∧ c ≤ 'z' then do
    let index ← sub c.toNat 'a'.toNat
    return ⟨.ident c index, 1⟩
  else if 'A' ≤ c ∧ c ≤ 'Z' then do
    let index ← add maxWord letterCount (← sub c.toNat 'A'.toNat)
    return ⟨.ident c index, 1⟩
  else return Lexeme.ofHead c next?

theorem ofHead_eq_ok (c : Char) (next? : Option Char) :
    ofHead c next? = .ok (Lexeme.ofHead c next?) := by
  unfold ofHead Lexeme.ofHead
  split
  · next lower =>
      have ge : 'a'.toNat ≤ c.toNat := UInt32.le_iff_toNat_le.mp lower.1
      exact bind_eq_ok_iff.mpr ⟨_, sub_eq_ok ge, rfl⟩
  · split
    · next upper =>
        have ge : 'A'.toNat ≤ c.toNat := UInt32.le_iff_toNat_le.mp upper.1
        have le : c.toNat ≤ 'Z'.toNat := UInt32.le_iff_toNat_le.mp upper.2
        have fits : letterCount + (c.toNat - 'A'.toNat) ≤ maxWord :=
          calc letterCount + (c.toNat - 'A'.toNat)
              ≤ letterCount + 'Z'.toNat := by omega
            _ ≤ maxWord := by decide
        exact bind_eq_ok_iff.mpr ⟨_, sub_eq_ok ge, bind_eq_ok_iff.mpr ⟨_, add_eq_ok fits, rfl⟩⟩
    · rfl

end BooleanLexer.Checked
