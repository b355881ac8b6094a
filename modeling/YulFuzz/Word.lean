/-
Module: YulFuzz.Word
Purpose: The 256-bit words that Yul literals denote. A word is its 32 bytes, the most significant first,
  so that comparing the bytes from the left compares the numbers. Words come from a 64-bit number, from up
  to 64 hex digits (right-aligned) and from up to 32 bytes of text (left-aligned).
Main exports: Word, Word.ofUInt64, Word.ofHexDigits, Word.ofLeftAligned, Word.value, Word.display,
  Word.Error.message
-/
import YulFuzz.Text.Hex
import YulFuzz.Text.Quoted

namespace YulFuzz

/-- A 256-bit word, as 32 bytes with the most significant first. -/
structure Word where
  bytes : List UInt8
  length_bytes : bytes.length = 32
deriving DecidableEq, Repr

namespace Word

/-- Number of bytes in a word. -/
def byteCount : Nat := 32

/-- Number of hex digits that fit in a word. -/
def digitCount : Nat := 64

/-- The lowest `count` bytes of a number, the most significant first. -/
def bigEndian : (count : Nat) → (number : Nat) → List UInt8
  | 0, _ => []
  | count + 1, number => bigEndian count (number / 256) ++ [UInt8.ofNat (number % 256)]

theorem length_bigEndian (count number : Nat) : (bigEndian count number).length = count := by
  induction count generalizing number with
  | zero => rfl
  | succ count ih => simp [bigEndian, ih]

/-- The number that bytes spell, the most significant first. -/
def bigEndianValue (bytes : List UInt8) : Nat :=
  bytes.foldl (fun number byte => number * 256 + byte.toNat) 0

/-- The number a word stands for. -/
def value (w : Word) : Nat := bigEndianValue w.bytes

/-- The word of a 64-bit number. -/
def ofUInt64 (n : UInt64) : Word := ⟨bigEndian byteCount n.toNat, length_bigEndian _ _⟩

/-- The word with all bytes zero. -/
def zero : Word := ofUInt64 0

instance : Inhabited Word := ⟨zero⟩

/-- Whether all bytes are zero. -/
def isZero (w : Word) : Bool := w.bytes.all (· == 0)

/-- Why a spelling gives no word. -/
inductive Error where
  /-- More digits than fit, counted in bytes of UTF-8. -/
  | tooManyDigits (count : Nat)
  /-- Digits that spell no 32 bytes. -/
  | malformedDigits (digits : String) (cause : Hex.Malformed)
  /-- More bytes of text than fit. -/
  | tooManyBytes (count : Nat)
deriving DecidableEq, Repr

/-- Words compare by their bytes from the left, which is by number. -/
instance : Ord Word := ⟨fun a b => compare a.bytes b.bytes⟩

/-- The word that hex digits spell. The digits are filled up with zeros on the left to 64 characters;
    all counts before the digits are read are counts of UTF-8 bytes. -/
def ofHexDigits (digits : String) : Except Error Word :=
  if digitCount < digits.utf8ByteSize then
    .error (.tooManyDigits digits.utf8ByteSize)
  else
    let padded := List.replicate (digitCount - digits.length) '0' ++ digits.toList
    let size := (String.ofList padded).utf8ByteSize
    if size % 2 = 1 then .error (.malformedDigits digits .oddLength)
    else if size ≠ digitCount then .error (.malformedDigits digits .wrongLength)
    else
      match Hex.readBytes 0 padded with
      | .error cause => .error (.malformedDigits digits cause)
      | .ok bytes =>
        if h : bytes.length = 32 then .ok ⟨bytes, h⟩
        else .error (.malformedDigits digits .wrongLength)

/-- The word that starts with the given bytes and goes on with zeros. -/
def ofLeftAligned (data : List UInt8) : Except Error Word :=
  if h : data.length ≤ 32 then
    .ok ⟨data ++ List.replicate (32 - data.length) 0, by simp; omega⟩
  else
    .error (.tooManyBytes data.length)

/-- The UTF-8 bytes of a text. -/
def textBytes (text : String) : List UInt8 :=
  text.toList.flatMap String.utf8EncodeChar

/-- All 64 digits of a word, in lower case. -/
def digits (w : Word) : String := String.ofList (Hex.ofBytes w.bytes)

/-- The text `0x` with the fewest lower-case digits that spell the word. -/
def display (w : Word) : String :=
  match (Hex.ofBytes w.bytes).dropWhile (· = '0') with
  | [] => "0x0"
  | trimmed => "0x" ++ String.ofList trimmed

/-- The words in ascending order, equal ones kept. -/
def sort (words : List Word) : List Word :=
  words.mergeSort fun a b => (compare a b).isLE

end Word

/-- The wording of a malformed text of digits. -/
def Hex.Malformed.message : Hex.Malformed → String
  | .oddLength => "Odd number of digits"
  | .wrongLength => "Invalid string length"
  | .badDigit c position => "Invalid character " ++ Quoted.char c ++ " at position " ++ toString position

/-- The wording of a spelling that gives no word. -/
def Word.Error.message : Word.Error → String
  | .tooManyDigits count =>
    "hex literal has " ++ toString count ++ " digits, at most " ++ toString Word.digitCount
      ++ " fit in a word"
  | .malformedDigits digits cause => "invalid hex literal '" ++ digits ++ "': " ++ cause.message
  | .tooManyBytes count =>
    "string literal has " ++ toString count ++ " bytes, at most " ++ toString Word.byteCount
      ++ " fit in a word"

end YulFuzz
