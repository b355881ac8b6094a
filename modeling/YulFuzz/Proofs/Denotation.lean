/-
Module: YulFuzz.Proofs.Denotation
Purpose: The numbers that literals stand for: a decimal number by its value, hex digits by theirs, and a text
  by its bytes, which start a word that goes on with zeros. The word of a valid literal is the word of this
  number, so two valid literals have the same word exactly if they stand for the same number.
Main exports: Grammar.spelled, Grammar.Literal.value, Word.value_lt, Word.value_injective,
  value_literalSyntax, word_eq_iff_value_eq
-/
import Mathlib.Data.List.Induction
import Mathlib.Tactic.Ring
import YulFuzz.Proofs.Grammar.Printed
import YulFuzz.Seed.Dictionary

namespace YulFuzz

namespace Grammar

/-- The number that digits spell, the most significant first. -/
def spelled (base : Nat) (digits : List Nat) : Nat :=
  digits.foldl (fun number digit => number * base + digit) 0

/-- The value of a hex digit of either case. -/
def digitValue (c : Char) : Nat := (Hex.digit? c).getD 0

/-- The number that a literal stands for. The characters of a text are its bytes, of which a word has 32;
    where there are fewer of them zeros follow. -/
def Literal.value : Literal → Nat
  | .number digits => Nat.ofDigitChars 10 digits.toList 0
  | .hex digits => spelled 16 (digits.toList.map digitValue)
  | .quoted characters =>
    spelled 256 (characters.toList.map Char.toNat) * 256 ^ (32 - characters.toList.length)

/-! ### Spelled numbers -/

theorem spelled_concat (base : Nat) (digits : List Nat) (digit : Nat) :
    spelled base (digits ++ [digit]) = spelled base digits * base + digit := by
  simp [spelled]

theorem spelled_append (base : Nat) (first rest : List Nat) :
    spelled base (first ++ rest) = spelled base first * base ^ rest.length + spelled base rest := by
  induction rest using List.reverseRecOn with
  | nil => simp [spelled]
  | append_singleton rest digit ih =>
      rw [← List.append_assoc, spelled_concat, ih, spelled_concat, List.length_append, List.length_singleton,
        Nat.pow_succ]
      ring

theorem spelled_cons (base digit : Nat) (rest : List Nat) :
    spelled base (digit :: rest) = digit * base ^ rest.length + spelled base rest := by
  simpa [spelled] using spelled_append base [digit] rest

theorem spelled_replicate_zero (base count : Nat) : spelled base (List.replicate count 0) = 0 := by
  induction count with
  | zero => rfl
  | succ count ih => rw [List.replicate_succ', spelled_concat, ih, Nat.zero_mul]

theorem spelled_lt {base : Nat} {digits : List Nat} (small : ∀ digit ∈ digits, digit < base) :
    spelled base digits < base ^ digits.length := by
  induction digits using List.reverseRecOn with
  | nil => simp [spelled]
  | append_singleton digits digit ih =>
      have last : digit < base := small digit (by simp)
      have front := ih fun other member => small other (List.mem_append_left _ member)
      rw [spelled_concat, List.length_append, List.length_singleton, Nat.pow_succ]
      calc spelled base digits * base + digit
          < spelled base digits * base + base := Nat.add_lt_add_left last _
        _ = (spelled base digits + 1) * base := by ring
        _ ≤ base ^ digits.length * base := Nat.mul_le_mul_right _ front

/-- Equally many digits that spell the same number are the same digits. -/
theorem spelled_injective {base : Nat} {first second : List Nat} (long : first.length = second.length)
    (small : ∀ digit ∈ first, digit < base) (other : ∀ digit ∈ second, digit < base)
    (same : spelled base first = spelled base second) : first = second := by
  induction first using List.reverseRecOn generalizing second with
  | nil => exact (List.length_eq_zero_iff.1 long.symm).symm
  | append_singleton digits digit ih =>
      cases second using List.reverseRecOn with
      | nil => simp at long
      | append_singleton others last =>
          simp only [List.length_append, List.length_singleton, Nat.add_right_cancel_iff] at long
          have digitSmall : digit < base := small digit (by simp)
          have lastSmall : last < base := other last (by simp)
          rw [spelled_concat, spelled_concat] at same
          -- The last digit is the remainder, the digits in front spell the quotient.
          have remainder := congrArg (· % base) same
          have quotient := congrArg (· / base) same
          simp only [Nat.mul_add_mod_self_right, Nat.mod_eq_of_lt digitSmall, Nat.mod_eq_of_lt lastSmall]
            at remainder
          have pos : 0 < base := Nat.zero_lt_of_lt digitSmall
          simp only [Nat.mul_comm _ base, Nat.mul_add_div pos, Nat.div_eq_of_lt digitSmall,
            Nat.div_eq_of_lt lastSmall, Nat.add_zero] at quotient
          rw [remainder, ih long (fun d member => small d (List.mem_append_left _ member))
            (fun d member => other d (List.mem_append_left _ member)) quotient]

end Grammar

open Grammar (spelled digitValue literalSyntax)

/-! ### Words -/

namespace Word

theorem bigEndianValue_eq (bytes : List UInt8) :
    bigEndianValue bytes = spelled 256 (bytes.map UInt8.toNat) := by
  rw [bigEndianValue, spelled, List.foldl_map]

theorem byte_lt (bytes : List UInt8) : ∀ digit ∈ bytes.map UInt8.toNat, digit < 256 := by
  intro digit member
  obtain ⟨byte, _, rfl⟩ := List.mem_map.1 member
  exact byte.toNat_lt

/-- A word stands for a number of 256 bits. -/
theorem value_lt (w : Word) : w.value < 2 ^ 256 := by
  have bound := Grammar.spelled_lt (byte_lt w.bytes)
  rw [List.length_map, w.length_bytes] at bound
  rw [value, bigEndianValue_eq]
  exact bound

/-- Words that stand for the same number are the same. -/
theorem value_injective {v w : Word} (same : v.value = w.value) : v = w := by
  rw [value, value, bigEndianValue_eq, bigEndianValue_eq] at same
  have bytes := Grammar.spelled_injective (by simp [v.length_bytes, w.length_bytes]) (byte_lt v.bytes)
    (byte_lt w.bytes) same
  cases v
  cases w
  congr
  exact List.map_injective_iff.2 (fun _ _ => UInt8.toNat_inj.1) bytes

/-- The lowest bytes of a number spell its remainder. -/
theorem bigEndianValue_bigEndian (count number : Nat) :
    bigEndianValue (bigEndian count number) = number % 256 ^ count := by
  induction count generalizing number with
  | zero => simp [bigEndian, bigEndianValue, Nat.mod_one]
  | succ count ih =>
      have byte : (UInt8.ofNat (number % 256)).toNat = number % 256 := by simp
      have front := ih (number / 256)
      rw [bigEndianValue_eq] at front ⊢
      rw [bigEndian, List.map_append, List.map_singleton, Grammar.spelled_concat, front, byte, Nat.pow_succ,
        Nat.mul_comm (256 ^ count), Nat.mod_mul]
      omega

theorem value_ofUInt64 (n : UInt64) : (ofUInt64 n).value = n.toNat := by
  have bound : n.toNat < 256 ^ byteCount := Nat.lt_trans n.toNat_lt_size (by decide)
  rw [value, ofUInt64, bigEndianValue_bigEndian, Nat.mod_eq_of_lt bound]

/-! #### Hex digits -/

theorem exists_digit {c : Char} (hex : c.isHexDigit) : ∃ digit < 16, Hex.digit? c = some digit := by
  unfold Hex.digit?
  rcases Grammar.isHexDigit_iff.1 hex with digit | lower | upper
  · have range := Grammar.isDigit_iff.1 digit
    rw [if_pos digit]
    exact ⟨c.toNat - 48, by omega, rfl⟩
  · have notDigit : ¬ c.isDigit := by
      rw [Grammar.isDigit_iff]
      omega
    have range : 'a' ≤ c ∧ c ≤ 'f' := lower
    rw [if_neg notDigit, if_pos range]
    exact ⟨c.toNat - 97 + 10, by omega, rfl⟩
  · have notDigit : ¬ c.isDigit := by
      rw [Grammar.isDigit_iff]
      omega
    have notLower : ¬ ('a' ≤ c ∧ c ≤ 'f') := by
      rintro ⟨letter, _⟩
      have : 97 ≤ c.toNat := letter
      omega
    have range : 'A' ≤ c ∧ c ≤ 'F' := upper
    rw [if_neg notDigit, if_neg notLower, if_pos range]
    exact ⟨c.toNat - 65 + 10, by omega, rfl⟩

/-- Hex digits in pairs spell bytes that stand for the same number. -/
theorem exists_readBytes : ∀ (position : Nat) (digits : List Char), digits.length % 2 = 0 →
    (∀ c ∈ digits, c.isHexDigit) → ∃ bytes, Hex.readBytes position digits = .ok bytes ∧
      2 * bytes.length = digits.length ∧ bigEndianValue bytes = spelled 16 (digits.map digitValue)
  | _, [], _, _ => ⟨[], rfl, rfl, rfl⟩
  | _, [_], odd, _ => nomatch odd
  | position, high :: low :: rest, even, hex => by
      obtain ⟨h, hSmall, highDigit⟩ := exists_digit (hex high (by simp))
      obtain ⟨l, lSmall, lowDigit⟩ := exists_digit (hex low (by simp))
      have restEven : rest.length % 2 = 0 := by
        simp only [List.length_cons] at even
        omega
      obtain ⟨bytes, read, long, same⟩ := exists_readBytes (position + 2) rest restEven
        fun c member => hex c (by simp [member])
      refine ⟨UInt8.ofNat (16 * h + l) :: bytes, ?_, ?_, ?_⟩
      · simp only [Hex.readBytes, Hex.digitAt, highDigit, lowDigit, read]
        rfl
      · simp only [List.length_cons]
        omega
      · have byte : (UInt8.ofNat (16 * h + l)).toNat = 16 * h + l := by
          simp
          omega
        have power : 256 ^ bytes.length = 16 ^ rest.length := by
          rw [← long, Nat.pow_mul]
        rw [bigEndianValue_eq] at same ⊢
        simp only [List.map_cons, Grammar.spelled_cons, List.length_cons, List.length_map, same, byte, power,
          digitValue, highDigit, lowDigit, Option.getD_some, Nat.pow_succ]
        ring

/-- At most 64 hex digits are the word of their number. -/
theorem exists_ofHexDigits {digits : String} (short : digits.toList.length ≤ digitCount)
    (hex : ∀ c ∈ digits.toList, c.isHexDigit) :
    ∃ w, ofHexDigits digits = .ok w ∧ w.value = spelled 16 (digits.toList.map digitValue) := by
  have size : digits.utf8ByteSize = digits.toList.length := by
    rw [← utf8ByteSize_ofList_of_isHexDigit hex, String.ofList_toList]
  obtain ⟨padded, filled⟩ :
      ∃ padded, List.replicate (digitCount - digits.length) '0' ++ digits.toList = padded := ⟨_, rfl⟩
  have long : padded.length = digitCount := by
    rw [← filled, List.length_append, List.length_replicate, String.length_toList]
    rw [String.length_toList] at short
    omega
  have paddedHex : ∀ c ∈ padded, c.isHexDigit := by
    intro c member
    rw [← filled, List.mem_append] at member
    rcases member with zero | digit
    · rw [List.eq_of_mem_replicate zero]
      rfl
    · exact hex c digit
  have paddedSize : (String.ofList padded).utf8ByteSize = digitCount := by
    rw [utf8ByteSize_ofList_of_isHexDigit paddedHex, long]
  obtain ⟨bytes, read, pairs, same⟩ := exists_readBytes 0 padded (by rw [long]; rfl) paddedHex
  have whole : bytes.length = 32 := by
    rw [long, digitCount] at pairs
    omega
  refine ⟨⟨bytes, whole⟩, ?_, ?_⟩
  · unfold ofHexDigits
    rw [if_neg (by omega)]
    dsimp only
    rw [filled, paddedSize, if_neg (by decide), if_neg (by simp), read]
    exact dif_pos whole
  · have zeros : (List.replicate (digitCount - digits.length) '0').map digitValue =
        List.replicate (digitCount - digits.length) 0 := List.map_replicate
    rw [value, same, ← filled, List.map_append, Grammar.spelled_append, zeros, Grammar.spelled_replicate_zero,
      Nat.zero_mul, Nat.zero_add]

/-! #### Texts -/

/-- The bytes of ASCII letters and digits are their numbers. -/
theorem textBytes_eq {text : String} (plain : ∀ c ∈ text.toList, c.isAlphanum) :
    (textBytes text).map UInt8.toNat = text.toList.map Char.toNat := by
  unfold textBytes
  generalize text.toList = characters at plain
  induction characters with
  | nil => rfl
  | cons c rest ih =>
      have small : c.toNat < 128 := by
        have alphanum := plain c List.mem_cons_self
        rw [Char.isAlphanum, Bool.or_eq_true, Grammar.isAlpha_iff, Grammar.isDigit_iff] at alphanum
        omega
      have width : c.utf8Size = 1 := by
        rw [Char.utf8Size_eq_one_iff, UInt32.le_iff_toNat_le]
        exact Nat.le_of_lt_succ small
      have byte : c.val.toUInt8.toNat = c.toNat := by
        rw [UInt32.toNat_toUInt8]
        exact Nat.mod_eq_of_lt (Nat.lt_trans small (by decide))
      rw [List.flatMap_cons, String.utf8EncodeChar_eq_singleton width, List.singleton_append, List.map_cons,
        List.map_cons, byte, ih fun d member => plain d (List.mem_cons_of_mem _ member)]

/-- At most 32 bytes start the word of their number. -/
theorem exists_ofLeftAligned {data : List UInt8} (short : data.length ≤ byteCount) :
    ∃ w, ofLeftAligned data = .ok w ∧
      w.value = spelled 256 (data.map UInt8.toNat) * 256 ^ (32 - data.length) := by
  refine ⟨_, dif_pos short, ?_⟩
  rw [value, bigEndianValue_eq, List.map_append, Grammar.spelled_append, List.map_replicate,
    List.length_replicate]
  change _ + spelled 256 (List.replicate _ 0) = _
  rw [Grammar.spelled_replicate_zero, Nat.add_zero]

end Word

/-! ### Literals -/

/-- A valid literal stands for the number of its word. -/
theorem value_literalSyntax {l : Yul.Literal} (valid : (literalSyntax l).Valid) :
    (literalSyntax l).value = l.word.value := by
  cases l with
  | decimal value =>
      have digits : Nat.ofDigitChars 10 (Nat.toDigits 10 value.toNat) 0 = value.toNat :=
        Nat.ofDigitChars_toDigits (by decide) (by decide)
      rw [literalSyntax, Grammar.Literal.value, Nat.toString_eq_ofList_toDigits, String.toList_ofList, digits]
      exact (Word.value_ofUInt64 value).symm
  | hex digits =>
      obtain ⟨w, made, same⟩ := Word.exists_ofHexDigits valid.2.1 valid.2.2
      rw [Yul.Literal.word, made]
      exact same.symm
  | quoted characters =>
      have bytes := Word.textBytes_eq valid.2
      have long := congrArg List.length bytes
      rw [List.length_map, List.length_map] at long
      obtain ⟨w, made, same⟩ := Word.exists_ofLeftAligned (long ▸ valid.1 : _ ≤ Word.byteCount)
      rw [bytes, long] at same
      rw [Yul.Literal.word, made]
      exact same.symm

/-- Two valid literals have the same word exactly if they stand for the same number. -/
theorem word_eq_iff_value_eq {l m : Yul.Literal} (valid : (literalSyntax l).Valid)
    (other : (literalSyntax m).Valid) :
    l.word = m.word ↔ (literalSyntax l).value = (literalSyntax m).value := by
  rw [value_literalSyntax valid, value_literalSyntax other]
  constructor
  · intro same
    rw [same]
  · exact Word.value_injective

end YulFuzz
