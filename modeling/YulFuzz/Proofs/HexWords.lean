/-
Module: YulFuzz.Proofs.HexWords
Purpose: Hex digits as spellings of words. Up to 64 bytes that are all hex digits, of either case, are read as
  the word of the number that they spell, and no other text is read: padding is counted in characters, so a
  text with a longer character is padded to too many bytes. A word is displayed with the fewest lower-case
  digits that spell its number, and these are read as the word again.
Main exports: Word.IsHexSpelling, Word.ofHexDigits_eq_ok_iff, Hex.Shortest, Hex.Shortest.unique,
  Word.exists_display, words_have_hex_spellings
-/
import YulFuzz.Proofs.Denotation

namespace YulFuzz

open Grammar (spelled digitValue)

/-! ### Digits of either case -/

namespace Hex

theorem digit?_eq (c : Char) : digit? c =
    if 48 ≤ c.toNat ∧ c.toNat ≤ 57 then some (c.toNat - 48)
    else if 97 ≤ c.toNat ∧ c.toNat ≤ 102 then some (c.toNat - 97 + 10)
    else if 65 ≤ c.toNat ∧ c.toNat ≤ 70 then some (c.toNat - 65 + 10)
    else none := by
  have digit : (c.isDigit = true) = (48 ≤ c.toNat ∧ c.toNat ≤ 57) := propext Grammar.isDigit_iff
  have lower : ('a' ≤ c ∧ c ≤ 'f') = (97 ≤ c.toNat ∧ c.toNat ≤ 102) := rfl
  have upper : ('A' ≤ c ∧ c ≤ 'F') = (65 ≤ c.toNat ∧ c.toNat ≤ 70) := rfl
  simp only [digit?, digit, lower, upper]
  rfl

theorem isSome_digit? (c : Char) : (digit? c).isSome ↔ c.isHexDigit := by
  rw [Grammar.isHexDigit_iff, Grammar.isDigit_iff, digit?_eq]
  split_ifs <;> simp <;> omega

theorem toNat_toLower (c : Char) :
    c.toLower.toNat = if 65 ≤ c.toNat ∧ c.toNat ≤ 90 then c.toNat + 32 else c.toNat := by
  by_cases upper : 65 ≤ c.toNat ∧ c.toNat ≤ 90
  · have moved : c.toLower.val = c.val + 32 := congrArg Char.val (dif_pos upper)
    have small : c.val.toNat + 32 < 2 ^ 32 :=
      Nat.lt_of_le_of_lt (Nat.add_le_add_right upper.2 _) (by decide)
    rw [if_pos upper, Char.toNat, moved, UInt32.toNat_add]
    exact Nat.mod_eq_of_lt small
  · have same : c.toLower = c := dif_neg upper
    rw [if_neg upper, same]

/-- The case of a digit does not matter. -/
theorem digit?_toLower (c : Char) : digit? c.toLower = digit? c := by
  simp only [digit?_eq, toNat_toLower]
  -- Most branches exclude each other; in the others both sides are the same digit, or none.
  split_ifs <;> first | omega | exact congrArg some (by omega) | rfl

theorem toList_toLower (text : String) : text.toLower.toList = text.toList.map Char.toLower := String.toList_map

/-- A character is a hex digit or found to be none. -/
theorem isHexDigit_or_bad (position : Nat) (c : Char) :
    c.isHexDigit ∨ digitAt position c = .error (.badDigit c position) := by
  rw [← isSome_digit?, digitAt]
  cases digit? c with
  | none => exact .inr rfl
  | some digit => exact .inl rfl

/-- The first two characters that are read are digits, and the others are read too. -/
theorem readBytes_pair {position : Nat} {high low : Char} {rest : List Char} {bytes : List UInt8}
    (read : readBytes position (high :: low :: rest) = .ok bytes) :
    high.isHexDigit ∧ low.isHexDigit ∧ ∃ more, readBytes (position + 2) rest = .ok more := by
  rw [readBytes] at read
  rcases isHexDigit_or_bad position high with first | bad
  · rcases isHexDigit_or_bad (position + 1) low with second | bad
    · refine ⟨first, second, ?_⟩
      cases others : readBytes (position + 2) rest with
      | ok more => exact ⟨more, rfl⟩
      | error cause =>
          rw [others] at read
          -- Whatever the two digits are, the fault behind them is reported.
          cases one : digitAt position high <;> cases two : digitAt (position + 1) low <;>
            rw [one, two] at read <;> cases read
    · rw [bad] at read
      cases one : digitAt position high <;> rw [one] at read <;> cases read
  · rw [bad] at read
    cases read

/-- Only hex digits are read as bytes. -/
theorem isHexDigit_of_readBytes : ∀ {position : Nat} {digits : List Char} {bytes : List UInt8},
    readBytes position digits = .ok bytes → ∀ c ∈ digits, c.isHexDigit
  | _, [], _, _ => nofun
  | _, [_], _, read => nomatch read
  | _, _ :: _ :: _, _, read => by
      obtain ⟨high, low, _, others⟩ := readBytes_pair read
      exact List.forall_mem_cons.2 ⟨high, List.forall_mem_cons.2 ⟨low, isHexDigit_of_readBytes others⟩⟩

/-! ### Shortest spellings -/

/-- The digits that words are displayed with. -/
def lowerDigits : List Char :=
  ['0', '1', '2', '3', '4', '5', '6', '7', '8', '9', 'a', 'b', 'c', 'd', 'e', 'f']

/-- A shortest way to write a number with lower-case hex digits: no hex digits of either case that spell the
    number are fewer. There is at least one digit. -/
structure Shortest (number : Nat) (digits : List Char) : Prop where
  nonempty : digits ≠ []
  lower : ∀ c ∈ digits, c ∈ lowerDigits
  spells : spelled 16 (digits.map digitValue) = number
  length_le : ∀ other : List Char, other ≠ [] → (∀ c ∈ other, c.isHexDigit) →
    spelled 16 (other.map digitValue) = number → digits.length ≤ other.length

/-- What holds of all lower-case digits can be checked for one after the other. -/
theorem forall_lower {p : Char → Prop} [DecidablePred p] (checked : lowerDigits.all fun c => p c) :
    ∀ c ∈ lowerDigits, p c := by
  intro c member
  exact of_decide_eq_true (List.all_eq_true.1 checked c member)

theorem isHexDigit_of_lower : ∀ c ∈ lowerDigits, c.isHexDigit := forall_lower (by decide)

theorem digitChar_mem_lowerDigits {digit : Nat} (small : digit < 16) : Nat.digitChar digit ∈ lowerDigits := by
  have all : ∀ digit < 16, Nat.digitChar digit ∈ lowerDigits := by decide
  exact all digit small

/-- A lower-case digit is determined by its value. -/
theorem digitChar_digitValue : ∀ c ∈ lowerDigits, Nat.digitChar (digitValue c) = c := forall_lower (by decide)

theorem digitValue_digitChar {digit : Nat} (small : digit < 16) : digitValue (Nat.digitChar digit) = digit := by
  rw [digitValue, digit?_digitChar small]
  rfl

theorem digitValue_lt (c : Char) : digitValue c < 16 := by
  rw [digitValue, digit?_eq]
  split_ifs <;> simp <;> omega

/-- The value of every digit of a list is below the base. -/
theorem forall_digitValue_lt (digits : List Char) : ∀ digit ∈ digits.map digitValue, digit < 16 := by
  intro digit member
  obtain ⟨c, _, rfl⟩ := List.mem_map.1 member
  exact digitValue_lt c

/-- Digits in front of which there is no zero are as few as possible. -/
theorem Shortest.of_head {first : Char} {rest : List Char} (lower : ∀ c ∈ first :: rest, c ∈ lowerDigits)
    (leading : first ≠ '0') : Shortest (spelled 16 ((first :: rest).map digitValue)) (first :: rest) where
  nonempty := List.cons_ne_nil _ _
  lower := lower
  spells := rfl
  length_le := by
    intro other _ _ same
    have pos : 1 ≤ digitValue first := by
      have all : ∀ c ∈ lowerDigits, c ≠ '0' → 1 ≤ digitValue c := forall_lower (by decide)
      exact all first (lower first List.mem_cons_self) leading
    have below := Grammar.spelled_lt (forall_digitValue_lt other)
    rw [same, List.map_cons, Grammar.spelled_cons, List.length_map, List.length_map] at below
    by_contra fewer
    rw [List.length_cons, Nat.not_le, Nat.lt_succ_iff] at fewer
    have reach : 16 ^ other.length ≤ digitValue first * 16 ^ rest.length :=
      (Nat.pow_le_pow_right (by decide) fewer).trans (Nat.le_mul_of_pos_left _ pos)
    omega

theorem Shortest.zero : Shortest 0 ['0'] where
  nonempty := List.cons_ne_nil _ _
  lower := List.forall_mem_singleton.2 (by decide)
  spells := rfl
  length_le := fun _ nonempty _ _ => List.length_pos_iff.2 nonempty

/-- There is only one shortest way to write a number. -/
theorem Shortest.unique {number : Nat} {digits others : List Char} (shortest : Shortest number digits)
    (other : Shortest number others) : others = digits := by
  have hex {list : List Char} (lower : ∀ c ∈ list, c ∈ lowerDigits) : ∀ c ∈ list, c.isHexDigit :=
    fun c member => isHexDigit_of_lower c (lower c member)
  have back {list : List Char} (lower : ∀ c ∈ list, c ∈ lowerDigits) :
      (list.map digitValue).map Nat.digitChar = list := by
    rw [List.map_map]
    exact (List.map_congr_left fun c member => digitChar_digitValue c (lower c member)).trans (List.map_id _)
  have long : others.length = digits.length := Nat.le_antisymm
    (other.length_le digits shortest.nonempty (hex shortest.lower) shortest.spells)
    (shortest.length_le others other.nonempty (hex other.lower) other.spells)
  have values : others.map digitValue = digits.map digitValue :=
    Grammar.spelled_injective (by rw [List.length_map, List.length_map, long]) (forall_digitValue_lt others)
      (forall_digitValue_lt digits) (other.spells.trans shortest.spells.symm)
  rw [← back other.lower, values, back shortest.lower]

/-! ### Digits of bytes -/

theorem length_ofBytes (bytes : List UInt8) : (ofBytes bytes).length = 2 * bytes.length := by
  induction bytes with
  | nil => rfl
  | cons byte rest ih =>
      rw [ofBytes, List.flatMap_cons, List.length_append, ← ofBytes, ih, List.length_cons]
      change 2 + _ = _
      omega

theorem lower_ofBytes (bytes : List UInt8) : ∀ c ∈ ofBytes bytes, c ∈ lowerDigits := by
  intro c member
  obtain ⟨byte, _, digit⟩ := List.mem_flatMap.1 member
  have small := byte.toNat_lt
  rcases List.mem_cons.1 digit with rfl | low
  · exact digitChar_mem_lowerDigits (by omega)
  · rw [List.mem_singleton.1 low]
    exact digitChar_mem_lowerDigits (by omega)

/-- The digits of bytes spell the number that the bytes spell. -/
theorem spelled_ofBytes (bytes : List UInt8) :
    spelled 16 ((ofBytes bytes).map digitValue) = Word.bigEndianValue bytes := by
  rw [Word.bigEndianValue_eq]
  induction bytes with
  | nil => rfl
  | cons byte rest ih =>
      have small := byte.toNat_lt
      have high : digitValue (Nat.digitChar (byte.toNat / 16)) = byte.toNat / 16 :=
        digitValue_digitChar (by omega)
      have low : digitValue (Nat.digitChar (byte.toNat % 16)) = byte.toNat % 16 :=
        digitValue_digitChar (by omega)
      have split : ofBytes (byte :: rest) =
          Nat.digitChar (byte.toNat / 16) :: Nat.digitChar (byte.toNat % 16) :: ofBytes rest := rfl
      have power : 16 ^ (ofBytes rest).length = 256 ^ rest.length := by
        rw [length_ofBytes, Nat.pow_mul]
      rw [split, List.map_cons, List.map_cons, Grammar.spelled_cons, Grammar.spelled_cons, ih, high, low,
        List.length_cons, List.length_map, Nat.pow_succ, power, List.map_cons, Grammar.spelled_cons,
        List.length_map]
      calc byte.toNat / 16 * (256 ^ rest.length * 16) +
            (byte.toNat % 16 * 256 ^ rest.length + spelled 256 (rest.map UInt8.toNat))
          = (16 * (byte.toNat / 16) + byte.toNat % 16) * 256 ^ rest.length +
              spelled 256 (rest.map UInt8.toNat) := by ring
        _ = byte.toNat * 256 ^ rest.length + spelled 256 (rest.map UInt8.toNat) := by rw [Nat.div_add_mod]

/-- Zeros in front spell nothing. -/
theorem spelled_dropWhile_zero (digits : List Char) :
    spelled 16 ((digits.dropWhile (· = '0')).map digitValue) = spelled 16 (digits.map digitValue) := by
  induction digits with
  | nil => rfl
  | cons c rest ih =>
      by_cases zero : c = '0'
      · subst zero
        have value : digitValue '0' = 0 := rfl
        rw [List.dropWhile_cons_of_pos (by simp), ih, List.map_cons, Grammar.spelled_cons, value, Nat.zero_mul,
          Nat.zero_add]
      · rw [List.dropWhile_cons_of_neg (by simpa using zero)]

end Hex

/-! ### Reading -/

namespace Word

/-- At most as many bytes as a word has digits, all of them hex digits of either case. -/
def IsHexSpelling (digits : String) : Prop :=
  digits.utf8ByteSize ≤ digitCount ∧ ∀ c ∈ digits.toList, c.isHexDigit

theorem IsHexSpelling.length_le {digits : String} (spelling : IsHexSpelling digits) :
    digits.toList.length ≤ digitCount := by
  rw [← utf8ByteSize_ofList_of_isHexDigit spelling.2, String.ofList_toList]
  exact spelling.1

theorem isHexSpelling_ofList {digits : List Char} (short : digits.length ≤ digitCount)
    (hex : ∀ c ∈ digits, c.isHexDigit) : IsHexSpelling (String.ofList digits) := by
  constructor
  · rw [utf8ByteSize_ofList_of_isHexDigit hex]
    exact short
  · rwa [String.toList_ofList]

theorem isHexSpelling_of_ofHexDigits {digits : String} {w : Word} (read : ofHexDigits digits = .ok w) :
    IsHexSpelling digits := by
  unfold ofHexDigits at read
  split at read
  · cases read
  · rename_i short
    refine ⟨Nat.not_lt.1 short, ?_⟩
    dsimp only at read
    split_ifs at read
    split at read
    · cases read
    · rename_i bytes paddedRead
      intro c member
      exact Hex.isHexDigit_of_readBytes paddedRead c (List.mem_append_right _ member)

/-- Exactly the hex spellings are read, each as the word of the number that it spells. -/
theorem ofHexDigits_eq_ok_iff {digits : String} {w : Word} : ofHexDigits digits = .ok w ↔
    IsHexSpelling digits ∧ w.value = spelled 16 (digits.toList.map digitValue) := by
  constructor
  · intro read
    have spelling := isHexSpelling_of_ofHexDigits read
    obtain ⟨v, made, value⟩ := exists_ofHexDigits spelling.length_le spelling.2
    obtain rfl := Except.ok.inj (made.symm.trans read)
    exact ⟨spelling, value⟩
  · rintro ⟨spelling, value⟩
    obtain ⟨v, made, same⟩ := exists_ofHexDigits spelling.length_le spelling.2
    rw [made, value_injective (same.trans value.symm)]

theorem exists_ofHexDigits_iff {digits : String} : (∃ w, ofHexDigits digits = .ok w) ↔ IsHexSpelling digits := by
  constructor
  · rintro ⟨w, read⟩
    exact isHexSpelling_of_ofHexDigits read
  · intro spelling
    obtain ⟨w, made, -⟩ := exists_ofHexDigits spelling.length_le spelling.2
    exact ⟨w, made⟩

theorem exists_error_ofHexDigits_iff {digits : String} :
    (∃ e, ofHexDigits digits = .error e) ↔ ¬ IsHexSpelling digits := by
  rw [← exists_ofHexDigits_iff]
  cases ofHexDigits digits with
  | ok w => simp
  | error e => simp

/-- Padding counts characters and the check after it counts bytes, so a longer character is found there. -/
theorem ofHexDigits_of_longCharacter {digits : String} (short : digits.utf8ByteSize ≤ digitCount)
    (longer : digits.length < digits.utf8ByteSize) :
    ∃ cause, (cause = .oddLength ∨ cause = .wrongLength) ∧
      ofHexDigits digits = .error (.malformedDigits digits cause) := by
  have zeros : (String.ofList (List.replicate (digitCount - digits.length) '0')).utf8ByteSize =
      digitCount - digits.length := by
    rw [utf8ByteSize_ofList_of_isHexDigit, List.length_replicate]
    intro c member
    rw [List.eq_of_mem_replicate member]
    rfl
  have size : (String.ofList (List.replicate (digitCount - digits.length) '0' ++ digits.toList)).utf8ByteSize =
      digitCount - digits.length + digits.utf8ByteSize := by
    rw [String.ofList_append, String.utf8ByteSize_append, zeros, String.ofList_toList]
  unfold ofHexDigits
  rw [if_neg (Nat.not_lt.2 short)]
  dsimp only
  rw [size]
  by_cases odd : (digitCount - digits.length + digits.utf8ByteSize) % 2 = 1
  · exact ⟨.oddLength, .inl rfl, if_pos odd⟩
  · refine ⟨.wrongLength, .inr rfl, ?_⟩
    rw [if_neg odd, if_pos (by omega)]

/-- Further zeros in front of a spelling are no other word, as long as they fit. -/
theorem ofHexDigits_zeros {digits : String} {w : Word} (read : ofHexDigits digits = .ok w) {zeros : Nat}
    (fits : zeros + digits.length ≤ digitCount) :
    ofHexDigits (String.ofList (List.replicate zeros '0' ++ digits.toList)) = .ok w := by
  obtain ⟨⟨_, hex⟩, value⟩ := ofHexDigits_eq_ok_iff.1 read
  rw [ofHexDigits_eq_ok_iff]
  constructor
  · apply isHexSpelling_ofList
    · rw [List.length_append, List.length_replicate, String.length_toList]
      exact fits
    · intro c member
      rcases List.mem_append.1 member with zero | digit
      · rw [List.eq_of_mem_replicate zero]
        rfl
      · exact hex c digit
  · have nothing : (List.replicate zeros '0').map digitValue = List.replicate zeros 0 := List.map_replicate
    rw [value, String.toList_ofList, List.map_append, nothing, Grammar.spelled_append,
      Grammar.spelled_replicate_zero, Nat.zero_mul, Nat.zero_add]

/-- Spellings that only differ in the case of their digits are of the same word. -/
theorem ofHexDigits_case {digits other : String} {w : Word} (read : ofHexDigits digits = .ok w)
    (same : other.toLower = digits.toLower) : ofHexDigits other = .ok w := by
  obtain ⟨spelling, value⟩ := ofHexDigits_eq_ok_iff.1 read
  have lower : other.toList.map Char.toLower = digits.toList.map Char.toLower := by
    rw [← Hex.toList_toLower, ← Hex.toList_toLower, same]
  have read? (text : String) : text.toList.map Hex.digit? = (text.toList.map Char.toLower).map Hex.digit? := by
    rw [List.map_map]
    exact List.map_congr_left fun c _ => (Hex.digit?_toLower c).symm
  have digit? : other.toList.map Hex.digit? = digits.toList.map Hex.digit? := by
    rw [read? other, lower, ← read? digits]
  have hex : ∀ c ∈ other.toList, c.isHexDigit := by
    intro c member
    have here : Hex.digit? c ∈ digits.toList.map Hex.digit? := digit? ▸ List.mem_map_of_mem member
    obtain ⟨d, there, equal⟩ := List.mem_map.1 here
    rw [← Hex.isSome_digit?, ← equal, Hex.isSome_digit?]
    exact spelling.2 d there
  have long : other.toList.length = digits.toList.length := by
    have counted := congrArg List.length lower
    rwa [List.length_map, List.length_map] at counted
  have values : other.toList.map digitValue = digits.toList.map digitValue := by
    have chosen := congrArg (List.map fun digit => digit.getD 0) digit?
    rwa [List.map_map, List.map_map] at chosen
  rw [ofHexDigits_eq_ok_iff, values]
  refine ⟨?_, value⟩
  have made := isHexSpelling_ofList (long ▸ spelling.length_le) hex
  rwa [String.ofList_toList] at made

/-! ### Display -/

/-- A word is displayed by the shortest spelling of its number. -/
theorem exists_display (w : Word) :
    ∃ digits, w.display = "0x" ++ String.ofList digits ∧ Hex.Shortest w.value digits := by
  have value : spelled 16 (((Hex.ofBytes w.bytes).dropWhile (· = '0')).map digitValue) = w.value := by
    rw [Hex.spelled_dropWhile_zero, Hex.spelled_ofBytes]
    rfl
  unfold display
  cases trimmed : (Hex.ofBytes w.bytes).dropWhile (· = '0') with
  | nil =>
      rw [trimmed] at value
      refine ⟨['0'], rfl, ?_⟩
      rw [← value]
      exact .zero
  | cons first rest =>
      rw [trimmed] at value
      refine ⟨first :: rest, rfl, ?_⟩
      rw [← value]
      apply Hex.Shortest.of_head
      · intro c member
        rw [← trimmed] at member
        exact Hex.lower_ofBytes w.bytes c ((List.dropWhile_sublist _).subset member)
      · have leading := List.head_dropWhile_not (· = '0') (l := Hex.ofBytes w.bytes) (by rw [trimmed]; simp)
        simpa [trimmed] using leading

/-- The shortest spelling of a word's number fits in a word and is read as the word. -/
theorem ofHexDigits_shortest {w : Word} {digits : List Char} (shortest : Hex.Shortest w.value digits) :
    ofHexDigits (String.ofList digits) = .ok w := by
  have hex : ∀ c ∈ digits, c.isHexDigit := fun c member =>
    Hex.isHexDigit_of_lower c (shortest.lower c member)
  -- All 64 digits of the word spell its number too, so the shortest spelling has no more.
  have whole : (Hex.ofBytes w.bytes).length = digitCount := by
    rw [Hex.length_ofBytes, w.length_bytes]
    rfl
  have short := shortest.length_le (Hex.ofBytes w.bytes) (List.ne_nil_of_length_pos (by rw [whole]; decide))
    (fun c member => Hex.isHexDigit_of_lower c (Hex.lower_ofBytes _ c member)) (Hex.spelled_ofBytes _)
  rw [ofHexDigits_eq_ok_iff, String.toList_ofList]
  exact ⟨isHexSpelling_ofList (whole ▸ short) hex, shortest.spells.symm⟩

/-- Words that are displayed alike are the same. -/
theorem display_injective {v w : Word} (same : v.display = w.display) : v = w := by
  obtain ⟨digits, first, shortest⟩ := v.exists_display
  obtain ⟨others, second, other⟩ := w.exists_display
  rw [first, second, String.append_right_inj] at same
  have read := ofHexDigits_shortest shortest
  rw [same, ofHexDigits_shortest other] at read
  exact (Except.ok.inj read).symm

end Word

open Word (IsHexSpelling ofHexDigits)

/-- Hex digits and words. A text is read as a word exactly if it has at most 64 bytes and hex digits only; all
    others give an error, among them those that are longer than 64 bytes only after padding, since some
    character has several bytes. The word read is that of the number that the digits spell, whatever zeros are
    in front and in whichever case the digits are. A word is displayed as `0x` and the shortest lower-case hex
    digits of its number, which are read as the word again; so no two words are displayed alike. -/
theorem words_have_hex_spellings :
    (∀ digits, (∃ w, ofHexDigits digits = .ok w) ↔ IsHexSpelling digits) ∧
    (∀ digits, (∃ e, ofHexDigits digits = .error e) ↔ ¬ IsHexSpelling digits) ∧
    (∀ digits, digits.utf8ByteSize ≤ Word.digitCount → digits.length < digits.utf8ByteSize →
      ∃ cause, (cause = .oddLength ∨ cause = .wrongLength) ∧
        ofHexDigits digits = .error (.malformedDigits digits cause)) ∧
    (∀ digits w, ofHexDigits digits = .ok w →
      w.value = spelled 16 (digits.toList.map digitValue) ∧
      (∀ zeros, zeros + digits.length ≤ Word.digitCount →
        ofHexDigits (String.ofList (List.replicate zeros '0' ++ digits.toList)) = .ok w) ∧
      ∀ other : String, other.toLower = digits.toLower → ofHexDigits other = .ok w) ∧
    (∀ w : Word, ∃ digits, w.display = "0x" ++ String.ofList digits ∧ Hex.Shortest w.value digits ∧
      (∀ others, Hex.Shortest w.value others → others = digits) ∧
      ofHexDigits (String.ofList digits) = .ok w) ∧
    ∀ v w : Word, v.display = w.display → v = w := by
  refine ⟨fun _ => Word.exists_ofHexDigits_iff, fun _ => Word.exists_error_ofHexDigits_iff,
    fun _ => Word.ofHexDigits_of_longCharacter, ?_, ?_, fun _ _ => Word.display_injective⟩
  · intro digits w read
    exact ⟨(Word.ofHexDigits_eq_ok_iff.1 read).2, fun _ => Word.ofHexDigits_zeros read,
      fun _ => Word.ofHexDigits_case read⟩
  · intro w
    obtain ⟨digits, displayed, shortest⟩ := w.exists_display
    exact ⟨digits, displayed, shortest, fun _ => shortest.unique, Word.ofHexDigits_shortest shortest⟩

/-- The digits `fF` are read as 255, and with two zeros in front of them and in the other case too. -/
theorem hex_spellings_of_255 : ofHexDigits "fF" = .ok (Word.ofUInt64 255) ∧
    ofHexDigits "00fF" = .ok (Word.ofUInt64 255) ∧ ofHexDigits "Ff" = .ok (Word.ofUInt64 255) := by
  have read : ofHexDigits "fF" = .ok (Word.ofUInt64 255) := by decide
  obtain ⟨-, zeros, case⟩ := words_have_hex_spellings.2.2.2.1 "fF" _ read
  have same : "Ff".toLower = "fF".toLower := by
    rw [← String.toList_inj, Hex.toList_toLower, Hex.toList_toLower]
    decide
  exact ⟨read, zeros 2 (by decide), case "Ff" same⟩

end YulFuzz
