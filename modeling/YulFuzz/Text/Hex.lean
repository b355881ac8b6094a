/-
Module: YulFuzz.Text.Hex
Purpose: Hex digits and the bytes they spell. Reading takes digits of either case in pairs; writing gives
  two lower-case digits for each byte.
Main exports: Hex.digit?, Hex.readBytes, Hex.ofBytes, Hex.Malformed
-/

namespace YulFuzz.Hex

/-- The value of a hex digit of either case. -/
def digit? (c : Char) : Option Nat :=
  if c.isDigit then some (c.toNat - '0'.toNat)
  else if 'a' ≤ c ∧ c ≤ 'f' then some (c.toNat - 'a'.toNat + 10)
  else if 'A' ≤ c ∧ c ≤ 'F' then some (c.toNat - 'A'.toNat + 10)
  else none

/-- What keeps a text from spelling the wanted number of bytes. -/
inductive Malformed where
  /-- The digits do not pair up. -/
  | oddLength
  /-- The pairs are too few or too many. -/
  | wrongLength
  /-- The character at this position, counted from 0, is no hex digit. -/
  | badDigit (c : Char) (position : Nat)
deriving DecidableEq, Repr

/-- The value of the digit at a known position. -/
def digitAt (position : Nat) (c : Char) : Except Malformed Nat :=
  match digit? c with
  | some value => .ok value
  | none => .error (.badDigit c position)

/-- The bytes spelled by pairs of digits, the high digit first. The first character that is no digit is
    reported with its position, `position` being that of the first character. -/
def readBytes (position : Nat) : List Char → Except Malformed (List UInt8)
  | [] => .ok []
  | [_] => .error .oddLength
  | high :: low :: rest => do
    let h ← digitAt position high
    let l ← digitAt (position + 1) low
    let bytes ← readBytes (position + 2) rest
    return UInt8.ofNat (16 * h + l) :: bytes

/-- The two lower-case digits of a byte, the high one first. -/
def ofByte (byte : UInt8) : List Char :=
  [Nat.digitChar (byte.toNat / 16), Nat.digitChar (byte.toNat % 16)]

/-- Two lower-case digits for each byte. -/
def ofBytes (bytes : List UInt8) : List Char :=
  bytes.flatMap ofByte

theorem digit?_digitChar {digit : Nat} (small : digit < 16) : digit? (Nat.digitChar digit) = some digit := by
  have all : ∀ digit < 16, digit? (Nat.digitChar digit) = some digit := by decide
  exact all digit small

end YulFuzz.Hex
