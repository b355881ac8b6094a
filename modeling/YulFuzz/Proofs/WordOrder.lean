/-
Module: YulFuzz.Proofs.WordOrder
Purpose: Words are compared as the numbers that they stand for. Bytes are compared from the left, and since
  words have equally many bytes the first byte that differs decides between the numbers. So a word is known by
  its number, however it was made: from a 64-bit number, from hex digits, or from bytes that start the word,
  where only zeros at the end are lost.
Main exports: compare_mul_add, Word.compare_eq_compare_value, Word.EqualUpToZeros,
  Word.ofLeftAligned_eq_iff, words_compare_by_value
-/
import YulFuzz.Proofs.HexWords

namespace YulFuzz

open Grammar (spelled digitValue)

/-- Above the same place, a larger digit decides whatever follows; equal digits leave it to what follows. -/
theorem compare_mul_add {place first second : Nat} (small : first < place) (other : second < place)
    (digit digit' : Nat) : compare (digit * place + first) (digit' * place + second) =
      (compare digit digit').then (compare first second) := by
  rcases Nat.lt_trichotomy digit digit' with less | rfl | greater
  · have whole : (digit + 1) * place ≤ digit' * place := Nat.mul_le_mul_right _ less
    rw [Nat.succ_mul] at whole
    rw [Nat.compare_eq_lt.2 less, Nat.compare_eq_lt.2 (by omega)]
    rfl
  · rw [Nat.compare_eq_eq.2 rfl]
    rcases Nat.lt_trichotomy first second with less | rfl | greater
    · rw [Nat.compare_eq_lt.2 less, Nat.compare_eq_lt.2 (by omega)]
      rfl
    · rw [Nat.compare_eq_eq.2 rfl, Nat.compare_eq_eq.2 rfl]
      rfl
    · rw [Nat.compare_eq_gt.2 greater, Nat.compare_eq_gt.2 (by omega)]
      rfl
  · have whole : (digit' + 1) * place ≤ digit * place := Nat.mul_le_mul_right _ greater
    rw [Nat.succ_mul] at whole
    rw [Nat.compare_eq_gt.2 greater, Nat.compare_eq_gt.2 (by omega)]
    rfl

namespace Word

/-! ### Comparing bytes -/

theorem compare_toNat (a b : UInt8) : compare a b = compare a.toNat b.toNat := by
  change compareOfLessAndEq a b = compareOfLessAndEq a.toNat b.toNat
  simp only [compareOfLessAndEq, UInt8.lt_iff_toNat_lt, UInt8.toNat_inj]

/-- Equally many bytes compare from the left as the numbers that they spell. -/
theorem compare_bytes : ∀ {first second : List UInt8}, first.length = second.length →
    compare first second = compare (bigEndianValue first) (bigEndianValue second)
  | [], [], _ => rfl
  | a :: first, b :: second, long => by
      have same : first.length = second.length := Nat.succ_inj.1 long
      have below (bytes : List UInt8) : spelled 256 (bytes.map UInt8.toNat) < 256 ^ bytes.length := by
        have bound := Grammar.spelled_lt (byte_lt bytes)
        rwa [List.length_map] at bound
      have rest := compare_bytes same
      simp only [bigEndianValue_eq, List.map_cons, Grammar.spelled_cons, List.length_map] at rest ⊢
      rw [List.compare_cons_cons, rest, compare_toNat, same,
        compare_mul_add (same ▸ below first) (below second)]

/-- Words compare as their numbers. -/
theorem compare_eq_compare_value (a b : Word) : compare a b = compare a.value b.value :=
  compare_bytes (a.length_bytes.trans b.length_bytes.symm)

theorem value_inj {a b : Word} : a = b ↔ a.value = b.value :=
  ⟨congrArg value, value_injective⟩

/-! ### Numbers of words -/

/-- Bytes start a word exactly if there are no more of them than the word has, and then they stand at the front of
    its number. -/
theorem ofLeftAligned_eq_ok_iff {data : List UInt8} {w : Word} : ofLeftAligned data = .ok w ↔
    data.length ≤ byteCount ∧ w.value = bigEndianValue data * 256 ^ (byteCount - data.length) := by
  rw [bigEndianValue_eq]
  constructor
  · intro made
    by_cases short : data.length ≤ byteCount
    · obtain ⟨v, same, value⟩ := exists_ofLeftAligned short
      obtain rfl := Except.ok.inj (same.symm.trans made)
      exact ⟨short, value⟩
    · have failed : ofLeftAligned data = .error _ := dif_neg short
      rw [failed] at made
      cases made
  · rintro ⟨short, value⟩
    obtain ⟨v, made, same⟩ := exists_ofLeftAligned short
    rw [made, value_injective (same.trans value.symm)]

theorem exists_error_ofLeftAligned_iff {data : List UInt8} :
    (∃ e, ofLeftAligned data = .error e) ↔ byteCount < data.length := by
  constructor
  · rintro ⟨e, failed⟩
    by_contra short
    obtain ⟨w, made, -⟩ := exists_ofLeftAligned (Nat.not_lt.1 short)
    rw [made] at failed
    cases failed
  · intro long
    exact ⟨_, dif_neg (Nat.not_le.2 long)⟩

/-- Digits of a 64-bit number are read as its word. -/
theorem ofHexDigits_eq_ofUInt64_iff {digits : String} {n : UInt64} : ofHexDigits digits = .ok (ofUInt64 n) ↔
    IsHexSpelling digits ∧ spelled 16 (digits.toList.map digitValue) = n.toNat := by
  rw [ofHexDigits_eq_ok_iff, value_ofUInt64, eq_comm (a := n.toNat)]

/-! ### Zeros at the end -/

/-- Bytes that only differ in how many zeros are at the end. -/
def EqualUpToZeros (first second : List UInt8) : Prop :=
  ∃ front zeros others, first = front ++ List.replicate zeros 0 ∧ second = front ++ List.replicate others 0

theorem EqualUpToZeros.symm {first second : List UInt8} (equal : EqualUpToZeros first second) :
    EqualUpToZeros second first := by
  obtain ⟨front, zeros, others, here, there⟩ := equal
  exact ⟨front, others, zeros, there, here⟩

theorem exists_ofLeftAligned_bytes {data : List UInt8} (short : data.length ≤ byteCount) :
    ∃ w, ofLeftAligned data = .ok w ∧ w.bytes = data ++ List.replicate (byteCount - data.length) 0 :=
  ⟨_, dif_pos short, rfl⟩

/-- A word goes on with zeros, so those at the end of the bytes in front do not matter. -/
theorem ofLeftAligned_append_zeros {front : List UInt8} {zeros : Nat}
    (fits : (front ++ List.replicate zeros 0).length ≤ byteCount) :
    ofLeftAligned (front ++ List.replicate zeros 0) = ofLeftAligned front := by
  obtain ⟨w, made, bytes⟩ := exists_ofLeftAligned_bytes fits
  rw [List.length_append, List.length_replicate] at fits bytes
  have short : front.length ≤ byteCount := by omega
  obtain ⟨v, same, others⟩ := exists_ofLeftAligned_bytes short
  have count : zeros + (byteCount - (front.length + zeros)) = byteCount - front.length := by omega
  rw [List.append_assoc, List.replicate_append_replicate, count, ← others] at bytes
  rw [made, same, value_injective (congrArg bigEndianValue bytes)]

/-- Of two lists of bytes that start the same word, the longer one goes on with zeros. -/
theorem equalUpToZeros_of_length_le {first second : List UInt8} (short : second.length ≤ byteCount)
    (le : first.length ≤ second.length) (same : ofLeftAligned first = ofLeftAligned second) :
    EqualUpToZeros first second := by
  obtain ⟨v, made, bytes⟩ := exists_ofLeftAligned_bytes (le.trans short)
  obtain ⟨w, other, others⟩ := exists_ofLeftAligned_bytes short
  rw [made, other] at same
  obtain rfl := Except.ok.inj same
  refine ⟨first, 0, second.length - first.length, (List.append_nil first).symm, ?_⟩
  have front := congrArg (List.take second.length) (others.symm.trans bytes)
  rw [List.take_left, List.take_append, List.take_of_length_le le, List.take_replicate] at front
  rwa [Nat.min_eq_left (by omega)] at front

/-- Bytes start the same word exactly if they only differ in zeros at the end. -/
theorem ofLeftAligned_eq_iff {first second : List UInt8} (short : first.length ≤ byteCount)
    (other : second.length ≤ byteCount) :
    ofLeftAligned first = ofLeftAligned second ↔ EqualUpToZeros first second := by
  constructor
  · intro same
    rcases Nat.le_total first.length second.length with le | ge
    · exact equalUpToZeros_of_length_le other le same
    · exact (equalUpToZeros_of_length_le short ge same.symm).symm
  · rintro ⟨front, zeros, others, rfl, rfl⟩
    rw [ofLeftAligned_append_zeros short, ofLeftAligned_append_zeros other]

end Word

open Word (ofUInt64 ofHexDigits ofLeftAligned bigEndianValue)

/-- Words are compared, and are equal, as the numbers that they stand for. The word of a 64-bit number stands for
    it; that of bytes which start it stands for their number, moved to the front of the word, and there is one
    exactly for up to 32 bytes. So words of 64-bit numbers are compared as the numbers, hex digits are read as the
    word of a 64-bit number exactly if they spell it, and bytes start the same word exactly if they only differ
    in zeros at the end. -/
theorem words_compare_by_value :
    (∀ a b : Word, compare a b = compare a.value b.value ∧ (a = b ↔ a.value = b.value)) ∧
    (∀ n : UInt64, (ofUInt64 n).value = n.toNat) ∧
    (∀ data w, ofLeftAligned data = .ok w ↔
      data.length ≤ 32 ∧ w.value = bigEndianValue data * 256 ^ (32 - data.length)) ∧
    (∀ data, (∃ e, ofLeftAligned data = .error e) ↔ 32 < data.length) ∧
    (∀ n m : UInt64, compare (ofUInt64 n) (ofUInt64 m) = .lt ↔ n < m) ∧
    (∀ digits n, ofHexDigits digits = .ok (ofUInt64 n) ↔
      Word.IsHexSpelling digits ∧ spelled 16 (digits.toList.map digitValue) = n.toNat) ∧
    ∀ first second : List UInt8, first.length ≤ 32 → second.length ≤ 32 →
      (ofLeftAligned first = ofLeftAligned second ↔ Word.EqualUpToZeros first second) := by
  refine ⟨fun a b => ⟨a.compare_eq_compare_value b, Word.value_inj⟩, Word.value_ofUInt64,
    fun _ _ => Word.ofLeftAligned_eq_ok_iff, fun _ => Word.exists_error_ofLeftAligned_iff, ?_,
    fun _ _ => Word.ofHexDigits_eq_ofUInt64_iff, fun _ _ => Word.ofLeftAligned_eq_iff⟩
  intro n m
  rw [Word.compare_eq_compare_value, Word.value_ofUInt64, Word.value_ofUInt64, Nat.compare_eq_lt,
    UInt64.lt_iff_toNat_lt]

/-- The text `ab` starts the same word as the text with a zero byte behind it. -/
theorem ofLeftAligned_zero_behind : [0x61, 0x62].length ≤ 32 ∧ [0x61, 0x62, 0].length ≤ 32 ∧
    ofLeftAligned [0x61, 0x62] = ofLeftAligned [0x61, 0x62, 0] :=
  ⟨by decide, by decide, (words_compare_by_value.2.2.2.2.2.2 [0x61, 0x62] [0x61, 0x62, 0] (by decide)
    (by decide)).2 ⟨[0x61, 0x62], 0, 1, rfl, rfl⟩⟩

end YulFuzz
