/-
# BooleanLexer.Proofs.Text.Numerals -- numbers and the digits that write them

A number can be read back from its digits: in decimal by the library's
`Nat.ofDigitChars`, in hexadecimal by `ofHexadecimal?`, which takes letters of both cases.
So numbers that are written alike are equal (`decimal_injective`,
`ofHexadecimal?_hexadecimal`).
-/
import BooleanLexer.Text.Basic
import Mathlib.Logic.Function.Basic

namespace BooleanLexer.Text

set_option autoImplicit false

/-! ## Decimal -/

theorem isDigit_of_mem_decimal {n : Nat} {c : Char} (mem : c ∈ decimal n) : c.isDigit = true :=
  Nat.isDigit_of_mem_toDigits (by decide) (by decide) mem

theorem decimal_ne_nil (n : Nat) : decimal n ≠ [] := Nat.toDigits_ne_nil

theorem ofDigitChars_decimal (n : Nat) : Nat.ofDigitChars 10 (decimal n) 0 = n :=
  Nat.ofDigitChars_ten_toDigits

theorem decimal_injective : Function.Injective decimal :=
  Function.LeftInverse.injective ofDigitChars_decimal

/-! ## Hexadecimal -/

/-- The digits of hexadecimal numbers in lower case. -/
def hexDigits : List Char := "0123456789abcdef".toList

/-- The value of a hexadecimal digit. -/
def hexDigit? (c : Char) : Option Nat :=
  if '0' ≤ c ∧ c ≤ '9' then some (c.toNat - '0'.toNat)
  else if 'a' ≤ c ∧ c ≤ 'f' then some (10 + (c.toNat - 'a'.toNat))
  else if 'A' ≤ c ∧ c ≤ 'F' then some (10 + (c.toNat - 'A'.toNat))
  else none

/-- The number that hexadecimal digits write. -/
def ofHexadecimal? (digits : Text) : Option Nat :=
  digits.foldlM (fun value c => (hexDigit? c).map (16 * value + ·)) 0

theorem hexDigit?_digitChar : ∀ digit < 16, hexDigit? digit.digitChar = some digit := by decide

theorem digitChar_mem_hexDigits : ∀ digit < 16, digit.digitChar ∈ hexDigits := by decide

theorem hexadecimal_eq (n : Nat) :
    hexadecimal n =
      if n < 16 then [n.digitChar] else hexadecimal (n / 16) ++ [(n % 16).digitChar] :=
  Nat.toDigits_eq_if (by decide)

theorem ofHexadecimal?_hexadecimal (n : Nat) : ofHexadecimal? (hexadecimal n) = some n := by
  induction n using Nat.strongRecOn with
  | _ n ih =>
      rw [hexadecimal_eq]
      split
      · next small => simp [ofHexadecimal?, hexDigit?_digitChar n small]
      · next large =>
          have front : ofHexadecimal? (hexadecimal (n / 16)) = some (n / 16) :=
            ih (n / 16) (by omega)
          have last := hexDigit?_digitChar (n % 16) (by omega)
          rw [ofHexadecimal?] at front ⊢
          rw [List.foldlM_append, front]
          simp only [Option.bind_eq_bind, Option.bind_some, List.foldlM_cons, List.foldlM_nil, last,
            Option.map_some, Option.pure_def, Option.some_inj]
          omega

theorem mem_hexDigits_of_mem_hexadecimal {n : Nat} {c : Char} (mem : c ∈ hexadecimal n) :
    c ∈ hexDigits := by
  induction n using Nat.strongRecOn with
  | _ n ih =>
      rw [hexadecimal_eq] at mem
      split at mem
      · next small =>
          rw [List.mem_singleton.mp mem]
          exact digitChar_mem_hexDigits n small
      · next large =>
          rcases List.mem_append.mp mem with front | last
          · exact ih (n / 16) (by omega) front
          · rw [List.mem_singleton.mp last]
            exact digitChar_mem_hexDigits (n % 16) (by omega)

end BooleanLexer.Text
