/-
# BooleanLexer.Proofs.Json.Reader -- reading JSON

A JSON text is read in two steps.  `atoms?` divides it into brackets, separators and
scalars, and drops the white space between them; `State.step` takes one atom after the
other, with a frame for each bracket that is still open.  `read?` is the value of a text
that consists of one value.

The reader knows arrays and objects of any depth and every escape of a string.  Of the
numbers it reads the natural ones, and it refuses halves of surrogate pairs; nothing that
this library writes has others.  `strip` looks at no atoms at all: it drops the white space
that stands outside strings.
-/
import BooleanLexer.Json.Basic
import BooleanLexer.Proofs.Text.Numerals

namespace BooleanLexer.Json

set_option autoImplicit false

/-- The white space of JSON. -/
def isSpace (c : Char) : Bool := c = ' ' || c = '\t' || c = '\n' || c = '\r'

/-! ## White space -/

/-- A text without the white space outside its strings; `inside` says whether the text starts
within a string. -/
def stripFrom : Bool → Text → Text
  | _, [] => []
  | true, '\\' :: c :: rest => '\\' :: c :: stripFrom true rest
  | inside, c :: rest =>
      if c = '"' then c :: stripFrom (!inside) rest
      else if isSpace c && !inside then stripFrom inside rest
      else c :: stripFrom inside rest

/-- A text without the white space outside its strings. -/
def strip (text : Text) : Text := stripFrom false text

/-! ## Atoms -/

/-- A part of a JSON text that has no parts itself. -/
inductive Atom where
  | openObject
  | closeObject
  | openArray
  | closeArray
  | colon
  | comma
  | scalar (value : Scalar)
deriving DecidableEq

/-- The atom that is written as a single character. -/
def punctuation? : Char → Option Atom
  | '\x7b' => some .openObject
  | '\x7d' => some .closeObject
  | '[' => some .openArray
  | ']' => some .closeArray
  | ':' => some .colon
  | ',' => some .comma
  | _ => none

/-- The character that is written as a backslash and a letter or mark. -/
def unescape? : Char → Option Char
  | '"' => some '"'
  | '\\' => some '\\'
  | '/' => some '/'
  | 'b' => some '\x08'
  | 'f' => some '\x0c'
  | 'n' => some '\n'
  | 'r' => some '\r'
  | 't' => some '\t'
  | _ => none

/-- The character of a number in hexadecimal digits. -/
def ofCode? (digits : Text) : Option Char :=
  (Text.ofHexadecimal? digits).bind fun code =>
    if code.isValidChar then some (Char.ofNat code) else none

/-- The value of a string behind its first quotation mark, and what follows the last one. -/
def readString? : Text → Option (Text × Text)
  | [] => none
  | '"' :: rest => some ([], rest)
  | '\\' :: 'u' :: a :: b :: c :: d :: rest =>
      (ofCode? [a, b, c, d]).bind fun char => (readString? rest).map (Prod.map (char :: ·) id)
  | '\\' :: c :: rest =>
      (unescape? c).bind fun char => (readString? rest).map (Prod.map (char :: ·) id)
  | c :: rest => if c < ' ' then none else (readString? rest).map (Prod.map (c :: ·) id)

/-- The characters of words and numbers. -/
def isWordChar (c : Char) : Bool := c.isAlphanum || c = '-' || c = '+' || c = '.'

/-- The value that is written as a word or a number. -/
def ofWord? (word : Text) : Option Scalar :=
  if word = "null".toList then some .null
  else if word = "true".toList then some (.bool true)
  else if word = "false".toList then some (.bool false)
  else
    let value := Nat.ofDigitChars 10 word 0
    -- This refuses what is no number, and leading zeros.
    if Text.decimal value = word then some (.number value) else none

/-- The atom that a text with `c` in front of `rest` starts with, and what follows it. -/
def atom? (c : Char) (rest : Text) : Option (Atom × Text) :=
  if c = '"' then (readString? rest).map (Prod.map (fun value => .scalar (.string value)) id)
  else
    match punctuation? c with
    | some atom => some (atom, rest)
    | none =>
        (ofWord? (c :: rest.takeWhile isWordChar)).map fun value =>
          (.scalar value, rest.dropWhile isWordChar)

theorem length_le_of_readString? {text value behind : Text}
    (read : readString? text = some (value, behind)) : behind.length ≤ text.length := by
  have shorter {char : Char} {rest value behind : Text}
      (ih : ∀ {value behind}, readString? rest = some (value, behind) →
        behind.length ≤ rest.length)
      (read : (readString? rest).map (Prod.map (char :: ·) id) = some (value, behind)) :
      behind.length ≤ rest.length := by
    obtain ⟨⟨value', behind'⟩, found, same⟩ := Option.map_eq_some_iff.mp read
    obtain ⟨-, rfl⟩ := Prod.mk.inj same
    exact ih found
  fun_induction readString? text generalizing value behind with
  | case1 => cases read
  | case2 rest =>
      obtain ⟨-, rfl⟩ := Prod.mk.inj (Option.some.inj read)
      simp
  | case3 a b c d rest ih =>
      obtain ⟨char, -, read⟩ := Option.bind_eq_some_iff.mp read
      have := shorter ih read
      simp only [List.length_cons]
      omega
  | case4 c rest _ ih =>
      obtain ⟨char, -, read⟩ := Option.bind_eq_some_iff.mp read
      have := shorter ih read
      simp only [List.length_cons]
      omega
  | case5 => cases read
  | case6 c rest _ _ _ _ ih => exact Nat.le_succ_of_le (shorter ih read)

theorem length_le_of_atom? {c : Char} {rest behind : Text} {atom : Atom}
    (found : atom? c rest = some (atom, behind)) : behind.length ≤ rest.length := by
  unfold atom? at found
  split at found
  · obtain ⟨⟨value, behind'⟩, read, same⟩ := Option.map_eq_some_iff.mp found
    obtain ⟨-, rfl⟩ := Prod.mk.inj same
    exact length_le_of_readString? read
  · split at found
    · obtain ⟨-, rfl⟩ := Prod.mk.inj (Option.some.inj found)
      exact Nat.le_refl _
    · obtain ⟨value, -, same⟩ := Option.map_eq_some_iff.mp found
      obtain ⟨-, rfl⟩ := Prod.mk.inj same
      exact (List.dropWhile_sublist isWordChar).length_le

/-- The atoms of a text; `none` if some part of it is no atom. -/
def atoms? : Text → Option (List Atom)
  | [] => some []
  | c :: rest =>
      if isSpace c then atoms? rest
      else
        match _ : atom? c rest with
        | some (atom, behind) => (atoms? behind).map (atom :: ·)
        | none => none
termination_by text => text.length
decreasing_by
  · simp
  · exact Nat.lt_succ_of_le (length_le_of_atom? ‹_›)

/-! ## Values -/

/-- A JSON value. -/
inductive Value where
  | scalar (value : Scalar)
  | array (values : List Value)
  | object (members : List (Text × Value))

/-- An array or object that is still open, with what it has before the value that is read. -/
inductive Frame where
  | array (values : List Value)
  | object (members : List (Text × Value)) (name : Text)

/-- What comes next in a text. -/
inductive State where
  /-- A value, or the end of an array that has none yet. -/
  | expectValue (frames : List Frame)
  /-- The name of a member, or the end of an object that has none yet. -/
  | expectName (members : List (Text × Value)) (frames : List Frame)
  /-- The colon behind a name. -/
  | expectColon (members : List (Text × Value)) (name : Text) (frames : List Frame)
  /-- What stands behind a value. -/
  | behind (value : Value) (frames : List Frame)

/-- Takes one atom; `none` if it may not stand there. -/
def State.step : State → Atom → Option State
  | .expectValue frames, .scalar value => some (.behind (.scalar value) frames)
  | .expectValue frames, .openArray => some (.expectValue (.array [] :: frames))
  | .expectValue (.array [] :: frames), .closeArray => some (.behind (.array []) frames)
  | .expectValue frames, .openObject => some (.expectName [] frames)
  | .expectName members frames, .scalar (.string name) => some (.expectColon members name frames)
  | .expectName [] frames, .closeObject => some (.behind (.object []) frames)
  | .expectColon members name frames, .colon =>
      some (.expectValue (.object members name :: frames))
  | .behind value (.array values :: frames), .comma =>
      some (.expectValue (.array (values ++ [value]) :: frames))
  | .behind value (.array values :: frames), .closeArray =>
      some (.behind (.array (values ++ [value])) frames)
  | .behind value (.object members name :: frames), .comma =>
      some (.expectName (members ++ [(name, value)]) frames)
  | .behind value (.object members name :: frames), .closeObject =>
      some (.behind (.object (members ++ [(name, value)])) frames)
  | _, _ => none

/-- The value that has been read when nothing is open. -/
def State.result? : State → Option Value
  | .behind value [] => some value
  | _ => none

/-- The value that a text consists of. -/
def read? (text : Text) : Option Value :=
  (atoms? text).bind fun atoms => (atoms.foldlM State.step (.expectValue [])).bind State.result?

/-- A field as the member of an object. -/
def Value.ofField (field : Text × Scalar) : Text × Value := (field.1, .scalar field.2)

/-- A record as a value. -/
def Value.ofRecord (record : Record) : Value := .object (record.map Value.ofField)

/-- The scalar that is the value of a member, if there is one of that name. -/
def Value.field? (name : Text) : Value → Option Scalar
  | .object members =>
      match members.lookup name with
      | some (.scalar value) => some value
      | _ => none
  | _ => none

end BooleanLexer.Json
