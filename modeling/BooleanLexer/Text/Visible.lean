/-
# BooleanLexer.Text.Visible -- text without its control sequences

A message may quote text that would control a terminal instead of showing on it.  Its
visible part leaves out the control characters, apart from tabs and the ends of lines
and pages, and the control sequences that an escape character starts, up to their
end.  Only those visible characters are left (`isVisible_of_mem_visible`), in their
order (`visible_sublist`), and a text of visible characters stays as it is
(`visible_eq_self`).

A tab or an end of a line within a short sequence is kept and pauses the sequence:
what follows is kept too, until a control character that is left out takes the
sequence up again or a character beyond ASCII ends it.
-/
import BooleanLexer.Text.Basic

namespace BooleanLexer.Text

set_option autoImplicit false

/-- The control characters that are kept: tab, line feed, form feed and carriage return. -/
def layoutControls : List Char := ['\t', '\n', '\x0c', '\r']

/-- Whether a character is visible by itself or lays out what is. -/
def isVisible (c : Char) : Bool :=
  layoutControls.contains c || (' ' ≤ c && c ≤ '~') || '\x7f' < c

/-- How far a control sequence has come. -/
inductive ControlSequence where
  /-- Behind the escape character. -/
  | escape
  /-- Behind a character that selects a set of final characters. -/
  | intermediate
  | parameters
  /-- Within a command to the operating system. -/
  | command
  /-- At the start of a control string for a device. -/
  | device
  | deviceParameters
  /-- Behind a character that comes after those parameters. -/
  | deviceIntermediate
  | contents
deriving DecidableEq

/-- Where the reading of a text stands. -/
inductive ControlState where
  | plain
  | within (sequence : ControlSequence)
  /-- In text that interrupts a sequence. -/
  | paused (sequence : ControlSequence)
deriving DecidableEq

namespace ControlSequence

/-- Whether a character is kept and pauses a sequence.  Commands and control strings
take every character as their own. -/
def pausedBy (sequence : ControlSequence) (c : Char) : Bool :=
  match sequence with
  | escape | intermediate | parameters => layoutControls.contains c
  | command | device | deviceParameters | deviceIntermediate | contents => false

/-- Where the reading stands behind the second character of a sequence, one that is
no control character. -/
def afterEscape (c : Char) : ControlState :=
  if '0' ≤ c ∧ c ≤ '~' then
    match c with
    | '[' => .within parameters
    | ']' => .within command
    | 'P' => .within device
    | 'X' | '^' | '_' => .within contents
    | _ => .plain
  else if ' ' ≤ c ∧ c ≤ '/' then .within intermediate
  else .within escape

/-- Where the reading stands behind a character of a sequence that is left out.

The contents of a control string end with a character whose encoding has the byte of
the string terminator.  A string for a device whose parameters are out of order is
all contents from there on. -/
def advance (sequence : ControlSequence) (c : Char) : ControlState :=
  if c = '\x1b' then .within escape
  else if c = '\x18' ∨ c = '\x1a' then .plain
  else
    match sequence with
    | escape => afterEscape c
    | intermediate => if '0' ≤ c ∧ c ≤ '~' then .plain else .within intermediate
    | parameters => if '@' ≤ c ∧ c ≤ '~' then .plain else .within parameters
    | command => if c = '\x07' then .plain else .within command
    | device =>
        if '@' ≤ c ∧ c ≤ '~' then .within contents
        else if '0' ≤ c ∧ c ≤ '?' then .within deviceParameters
        else if ' ' ≤ c ∧ c ≤ '/' then .within deviceIntermediate
        else .within device
    | deviceParameters =>
        if '<' ≤ c ∧ c ≤ '~' then .within contents
        else if ' ' ≤ c ∧ c ≤ '/' then .within deviceIntermediate
        else .within deviceParameters
    | deviceIntermediate =>
        if '0' ≤ c ∧ c ≤ '~' then .within contents else .within deviceIntermediate
    | contents =>
        if (String.utf8EncodeChar c).contains 0x9c then .plain else .within contents

end ControlSequence

namespace ControlState

/-- Whether a character is kept. -/
def keeps (state : ControlState) (c : Char) : Bool :=
  match state with
  | plain | paused _ => isVisible c
  | within sequence => sequence.pausedBy c

/-- Where the reading stands behind a character. -/
def next (state : ControlState) (c : Char) : ControlState :=
  match state with
  | plain => if c = '\x1b' then within .escape else plain
  | paused sequence =>
      if '\x7f' < c then plain
      else if isVisible c then paused sequence
      else sequence.advance c
  | within sequence => if sequence.pausedBy c then paused sequence else sequence.advance c

end ControlState

/-- The visible part of a text, if the reading stands at `state` before it. -/
def visibleFrom (state : ControlState) : Text → Text
  | [] => []
  | c :: text =>
      if state.keeps c then c :: visibleFrom (state.next c) text
      else visibleFrom (state.next c) text

/-- The visible part of a text. -/
def visible (text : Text) : Text := visibleFrom .plain text

theorem isVisible_of_keeps {state : ControlState} {c : Char} (kept : state.keeps c) :
    isVisible c := by
  cases state with
  | plain => exact kept
  | paused sequence => exact kept
  | within sequence => cases sequence <;> simp_all [ControlState.keeps, isVisible,
      ControlSequence.pausedBy]

theorem isVisible_of_mem_visibleFrom {state : ControlState} {text : Text} {c : Char}
    (mem : c ∈ visibleFrom state text) : isVisible c := by
  induction text generalizing state with
  | nil => cases mem
  | cons d text ih =>
      rw [visibleFrom] at mem
      split at mem
      · next kept =>
          cases mem with
          | head => exact isVisible_of_keeps kept
          | tail _ mem => exact ih mem
      · exact ih mem

theorem isVisible_of_mem_visible {text : Text} {c : Char} (mem : c ∈ visible text) :
    isVisible c :=
  isVisible_of_mem_visibleFrom mem

theorem visibleFrom_sublist (state : ControlState) (text : Text) :
    (visibleFrom state text).Sublist text := by
  induction text generalizing state with
  | nil => exact List.Sublist.slnil
  | cons c text ih =>
      rw [visibleFrom]
      split
      · exact (ih _).cons_cons c
      · exact (ih _).cons c

theorem visible_sublist (text : Text) : (visible text).Sublist text :=
  visibleFrom_sublist .plain text

theorem visible_eq_self {text : Text} (shown : ∀ c ∈ text, isVisible c) :
    visible text = text := by
  induction text with
  | nil => rfl
  | cons c text ih =>
      have head : isVisible c := shown c List.mem_cons_self
      have outside : ControlState.plain.next c = .plain := by
        rw [ControlState.next, if_neg]
        rintro rfl
        exact absurd head (by decide)
      rw [visible, visibleFrom, outside, if_pos (show ControlState.plain.keeps c from head)]
      exact congrArg (c :: ·) (ih fun d mem => shown d (List.mem_cons_of_mem c mem))

end BooleanLexer.Text
