/-
# BooleanLexer.Literal -- variables and their negations

There are twenty-six variables, one for each letter.  A lowercase letter spells the
plain variable, an uppercase one its negation.  An index numbers the fifty-two
literals, first the plain ones and then the negated ones; `ofIndex?` and `index`
pass between the two and agree (`ofIndex?_index`).

Literals are ordered by variable, the plain one before the negated one.  This is
not the order of the indices.
-/
import BooleanLexer.Text.Basic

namespace BooleanLexer

set_option autoImplicit false

/-- The number of variables, which is the number of letters of one case. -/
def letterCount : Nat := 26

/-- A variable, plain or negated. -/
structure Literal where
  var : Fin letterCount
  negated : Bool
deriving DecidableEq

namespace Literal

/-- The literal of a variable given by its number, if there is such a variable. -/
def ofVar? (var : Nat) (negated : Bool) : Option Literal :=
  if h : var < letterCount then some ⟨⟨var, h⟩, negated⟩ else none

/-- The literal of an index, if it is the index of one. -/
def ofIndex? (index : Nat) : Option Literal :=
  if index < letterCount then ofVar? index false else ofVar? (index - letterCount) true

/-- The index of a literal. -/
def index (literal : Literal) : Nat :=
  if literal.negated then literal.var + letterCount else literal.var

theorem ofIndex?_index (literal : Literal) : ofIndex? literal.index = some literal := by
  obtain ⟨⟨var, bound⟩, negated⟩ := literal
  cases negated <;> simp [ofIndex?, index, ofVar?, bound]

/-- The letter that spells a literal. -/
def letter (literal : Literal) : Char :=
  Char.ofNat ((if literal.negated then 'A' else 'a').toNat + literal.var)

/-- The letter that spells the plain variable of a literal. -/
def plainLetter (literal : Literal) : Char := letter { literal with negated := false }

/-- A literal as it is written in a text. -/
def display (literal : Literal) : Text := [literal.letter]

instance : Ord Literal where
  compare first second :=
    (compare first.var second.var).then (compare first.negated second.negated)

instance : LT Literal := ltOfOrd

instance : LE Literal := leOfOrd

/-- The literals of a list in increasing order; equal ones are kept. -/
def sort (literals : List Literal) : List Literal :=
  literals.mergeSort fun first second => (compare first second).isLE

end Literal

end BooleanLexer
