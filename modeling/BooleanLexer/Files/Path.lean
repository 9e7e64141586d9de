/-
# BooleanLexer.Files.Path -- the written form of paths

A path is a list of steps between slashes.  A slash at the start leads to the root;
otherwise the path starts at the working directory.  A slash at the end says that the
path names a directory.  More slashes than one count as one.
-/
import BooleanLexer.Text.Basic

namespace BooleanLexer

set_option autoImplicit false

/-- Why a path leads to no file. -/
inductive PathFault where
  /-- There is nothing at the place, or on the way to it. -/
  | missing
  | notDirectory
  | isDirectory
  /-- A name or the whole path is longer than allowed. -/
  | tooLong
  | nullCharacter
deriving DecidableEq

/-- What is said about a path that leads to no file. -/
def PathFault.message : PathFault → Text
  | missing => "No such file or directory (os error 2)".toList
  | notDirectory => "Not a directory (os error 20)".toList
  | isDirectory => "Is a directory (os error 21)".toList
  | tooLong => "File name too long (os error 36)".toList
  | nullCharacter => "file name contained an unexpected NUL byte".toList

/-- A path, taken apart. -/
structure Path where
  fromRoot : Bool
  steps : List Text
  /-- Whether the path ends with a slash. -/
  endsOpen : Bool
deriving DecidableEq

namespace Path

/-- The step that stays where it is. -/
def stay : Text := ".".toList

/-- The step to the directory above. -/
def up : Text := "..".toList

/-- The most bytes that a path may have. -/
def maxSize : Nat := 4095

/-- The most bytes that a name may have. -/
def maxNameSize : Nat := 255

/-- Takes a written path apart.  A path with a null character, without any character,
or of too many characters leads nowhere. -/
def ofText (text : Text) : Except PathFault Path :=
  if '\x00' ∈ text then .error .nullCharacter
  else if text = [] then .error .missing
  else if maxSize < Text.byteSize text then .error .tooLong
  else
    .ok ⟨text.head? = some '/', (text.splitOn '/').filter (· ≠ []), text.getLast? = some '/'⟩

end Path

end BooleanLexer
