/-
# BooleanLexer.Utf8.Decode -- text from bytes, and bytes from text

Any bytes can be read as a text: each broken piece becomes one replacement character.
`fault?` says where the first broken piece is and how long it is, or that the bytes
end within a character.
-/
import BooleanLexer.Utf8.Basic

namespace BooleanLexer.Utf8

set_option autoImplicit false

/-- The bytes of a text. -/
def encode (text : Text) : List UInt8 := text.flatMap String.utf8EncodeChar

/-- The text of bytes, with one replacement character for each broken piece. -/
def decode (bytes : List UInt8) : Text := (pieces bytes).map Piece.char

/-- The first place at which bytes are no text. -/
inductive Fault where
  /-- A number of bytes that start no character. -/
  | invalid (index length : Nat)
  | incomplete (index : Nat)
deriving DecidableEq

/-- What is said about bytes that are no text. -/
def Fault.message : Fault → Text
  | .invalid index length =>
      "invalid utf-8 sequence of ".toList ++ Text.decimal length ++
        " bytes from index ".toList ++ Text.decimal index
  | .incomplete index => "incomplete utf-8 byte sequence from index ".toList ++ Text.decimal index

/-- The first broken one of pieces that start at `index`. -/
def firstFault? (index : Nat) : List Piece → Option Fault
  | [] => none
  | .whole bytes _ :: rest => firstFault? (index + bytes.length) rest
  | .malformed bytes :: _ => some (.invalid index bytes.length)
  | .truncated _ :: _ => some (.incomplete index)

/-- The first place at which bytes are no text, if there is one. -/
def fault? (bytes : List UInt8) : Option Fault := firstFault? 0 (pieces bytes)

end BooleanLexer.Utf8
