/-
# BooleanLexer.Kind -- the kinds of tokens

A boolean expression is made of one-letter variables, five operators in several
spellings, and brackets.  Two kinds have no fixed spelling of their own: a token of
kind `unknown` stands for a character that starts no other token, and one of kind
`finish` for the end of the text.

A kind with a fixed spelling has a canonical one (`spelling`), which is among those
that are read as the kind (`spelling_mem_spellings`).
-/
import BooleanLexer.Text.Basic

namespace BooleanLexer

set_option autoImplicit false

/-- What a token is. -/
inductive Kind where
  /-- A character that starts no other token. -/
  | unknown
  | finish
  /-- A variable, written as one letter. -/
  | ident
  | or
  | xor
  | and
  | not
  | opening
  | closing
deriving DecidableEq

namespace Kind

instance : Inhabited Kind := ⟨unknown⟩

/-- Every kind, in the order of their declaration. -/
def all : List Kind := [unknown, finish, ident, or, xor, and, not, opening, closing]

theorem mem_all (kind : Kind) : kind ∈ all := by cases kind <;> decide

/-- The kind that is declared after this one. -/
def next? : Kind → Option Kind
  | unknown => some finish
  | finish => some ident
  | ident => some or
  | or => some xor
  | xor => some and
  | and => some not
  | not => some opening
  | opening => some closing
  | closing => none

/-- The kind that is declared before this one. -/
def previous? (kind : Kind) : Option Kind := all.find? fun earlier => earlier.next? = some kind

/-- The name of a kind in structured output. -/
def name : Kind → Text
  | unknown => "None".toList
  | finish => "End".toList
  | ident => "Id".toList
  | or => "Or".toList
  | xor => "Xor".toList
  | and => "And".toList
  | not => "Not".toList
  | opening => "BOpen".toList
  | closing => "BClose".toList

/-- The kind of a given name. -/
def ofName? (name : Text) : Option Kind := all.find? fun kind => kind.name = name

theorem ofName?_name (kind : Kind) : ofName? kind.name = some kind := by
  cases kind <;> decide

/-- The canonical spelling of a kind, or a word for a kind without a fixed spelling. -/
def spelling : Kind → Text
  | unknown => "NONE".toList
  | finish => "END".toList
  | ident => "ID".toList
  | or => "||".toList
  | xor => "^".toList
  | and => "&&".toList
  | not => "!".toList
  | opening => "(".toList
  | closing => ")".toList

/-- Every text that is read as one token of a kind with fixed spellings. -/
def spellings : Kind → List Text
  | unknown | finish | ident => []
  | or => ["|".toList, "||".toList, "+".toList]
  | xor => ["^".toList]
  | and => ["&".toList, "&&".toList, "*".toList]
  | not => ["!".toList, "~".toList]
  | opening => ["(".toList]
  | closing => [")".toList]

theorem spelling_mem_spellings (kind : Kind) (spelled : kind.spellings ≠ []) :
    kind.spelling ∈ kind.spellings := by
  cases kind <;> simp_all [spellings, spelling]

/-- Whether reading an expression stops after a token of this kind. -/
def isTerminal (kind : Kind) : Bool := kind = finish || kind = unknown

end Kind

end BooleanLexer
