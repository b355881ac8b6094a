/-
Module: YulFuzz.Proofs.LiteralValues
Purpose: Literals as they are written and the words that they stand for. Every literal is one token of the
  language and denotes its word, which is read from the digits or characters without falling back to zero.
  Padding hex digits to an even number does not change theirs, and texts that differ have different words, since
  the zeros after a text are none of its bytes.
Main exports: Yul.Literal.word?, Yul.Literal.Denotes, Walk.hexSource, literals_denote
-/
import YulFuzz.Proofs.Denotation
import YulFuzz.Proofs.Validity

namespace YulFuzz

open Grammar (spelled digitValue literalSyntax)

/-! ### Words of literals -/

/-- The word that a literal is read as, or why there is none. -/
def Yul.Literal.word? : Literal → Except Word.Error Word
  | .decimal value => .ok (Word.ofUInt64 value)
  | .hex digits => Word.ofHexDigits digits
  | .quoted characters => Word.ofLeftAligned (Word.textBytes characters)

/-- A literal is written as one valid token, which stands for the number of its word. The word is the one it is
    read as: it does not fall back to zero. -/
structure Yul.Literal.Denotes (made : Literal) : Prop where
  tokens : Grammar.tokens made.text = some [.literal (literalSyntax made)]
  valid : (literalSyntax made).Valid
  value : (literalSyntax made).value = made.word.value
  read : made.word? = .ok made.word

theorem Yul.Literal.word?_eq {made : Literal} (valid : (literalSyntax made).Valid) :
    made.word? = .ok made.word := by
  cases made with
  | decimal value => rfl
  | hex digits =>
      obtain ⟨w, read, -⟩ := Word.exists_ofHexDigits valid.2.1 valid.2.2
      rw [word?, word, read]
      rfl
  | quoted characters =>
      have long := congrArg List.length (Word.textBytes_eq valid.2)
      rw [List.length_map, List.length_map] at long
      obtain ⟨w, read, -⟩ := Word.exists_ofLeftAligned (long ▸ valid.1 : _ ≤ Word.byteCount)
      rw [word?, word, read]
      rfl

theorem Yul.Literal.Denotes.of_valid {made : Literal} (valid : (literalSyntax made).Valid) : made.Denotes where
  tokens := (Grammar.scans_literal made valid).tokens_eq
  valid := valid
  value := value_literalSyntax valid
  read := word?_eq valid

/-! ### Hex digits -/

namespace Walk

/-- The digits that a hex literal is made from, with the state after it: the first 64 hex digits of its text or,
    where it has none, those of the next token. -/
def hexSource (seed : Seed) (raw : String) (s : State) : List Char × State :=
  let digits := raw.toList.filter Char.isHexDigit
  if digits = [] then ((seed.token s.drawn).toList, { s with drawn := s.drawn + 1 }) else (digits.take 64, s)

theorem length_evenly_mod_two (digits : List Char) : (evenly digits).length % 2 = 0 := by
  unfold evenly
  split
  · rw [List.length_cons]
    omega
  · omega

/-- A zero in front changes no number. -/
theorem spelled_evenly (digits : List Char) :
    spelled 16 ((evenly digits).map digitValue) = spelled 16 (digits.map digitValue) := by
  unfold evenly
  split
  · have zero : digitValue '0' = 0 := rfl
    rw [List.map_cons, Grammar.spelled_cons, zero, Nat.zero_mul, Nat.zero_add]
  · rfl

variable {seed : Seed} {raw : String} {s : State}

theorem hexSource_of_eq_nil (none : raw.toList.filter Char.isHexDigit = []) :
    hexDigits raw = [] ∧ hexSource seed raw s = ((seed.token s.drawn).toList, { s with drawn := s.drawn + 1 }) :=
  ⟨by rw [hexDigits, none, List.take_nil], if_pos none⟩

theorem hexSource_of_ne_nil (some : raw.toList.filter Char.isHexDigit ≠ []) :
    hexDigits raw ≠ [] ∧ hexSource seed raw s = (hexDigits raw, s) := by
  refine ⟨fun none => ?_, if_neg some⟩
  rcases List.take_eq_nil_iff.1 none with zero | empty
  · cases zero
  · exact some empty

/-- There are some digits, no more than fit in a word. -/
theorem hexSource_digits (seed : Seed) (raw : String) (s : State) : (hexSource seed raw s).1 ≠ [] ∧
    (hexSource seed raw s).1.length ≤ Word.digitCount ∧ ∀ c ∈ (hexSource seed raw s).1, c.isHexDigit := by
  by_cases empty : raw.toList.filter Char.isHexDigit = []
  · have token := seed.isToken_token s.drawn
    rw [(hexSource_of_eq_nil empty).2]
    exact ⟨fun none => token.1 (String.toList_eq_nil_iff.1 none), token.length_le, token.2.2⟩
  · obtain ⟨some, same⟩ := hexSource_of_ne_nil empty
    rw [same]
    exact ⟨some, length_hexDigits_le raw, fun _ => isHexDigit_of_mem_hexDigits⟩

/-- A hex literal has the digits that it is made from, filled up to an even number. -/
theorem literal_hex (seed : Seed) (raw : String) (s : State) : literal seed (.hex raw) s =
    .ok (.hex (String.ofList (evenly (hexSource seed raw s).1)), (hexSource seed raw s).2) := by
  have short := length_evenly_le (hexSource_digits seed raw s).2.1
  simp only [literal]
  by_cases empty : raw.toList.filter Char.isHexDigit = []
  · obtain ⟨none, same⟩ := hexSource_of_eq_nil empty
    rw [same] at short ⊢
    rw [none]
    change (String.toList <$> drawToken seed >>= _) s = _
    rw [Lexical.bind_of_ok (a := (seed.token s.drawn).toList) rfl, if_neg (Nat.not_lt.2 short)]
    rfl
  · obtain ⟨some, same⟩ := hexSource_of_ne_nil empty
    rw [same] at short ⊢
    cases digits : hexDigits raw with
    | nil => exact absurd digits some
    | cons first others =>
        rw [digits] at short
        change ((Pure.pure (first :: others) : Walk (List Char)) >>= _) s = _
        rw [Lexical.bind_of_ok (a := first :: others) rfl, if_neg (Nat.not_lt.2 short)]
        rfl

/-- A hex literal has an even number of digits, at least two, which spell the number of those that it is made
    from. -/
theorem exists_literal_hex (seed : Seed) (raw : String) (s : State) :
    ∃ digits : String, literal seed (.hex raw) s = .ok (.hex digits, (hexSource seed raw s).2) ∧
      digits.length % 2 = 0 ∧ 2 ≤ digits.length ∧ digits.length ≤ 64 ∧
      spelled 16 (digits.toList.map digitValue) = spelled 16 ((hexSource seed raw s).1.map digitValue) := by
  obtain ⟨nonempty, short, -⟩ := hexSource_digits seed raw s
  have even := length_evenly_mod_two (hexSource seed raw s).1
  have some := List.length_pos_iff.2 (evenly_ne_nil nonempty)
  refine ⟨_, literal_hex seed raw s, ?_⟩
  rw [String.length_ofList, String.toList_ofList, spelled_evenly]
  exact ⟨even, by omega, length_evenly_le short, rfl⟩

/-- Every literal node becomes a valid literal, in whichever state. -/
theorem exists_literal (seed : Seed) (node : Tree.Literal) (s : State) :
    ∃ made s', literal seed node s = .ok (made, s') ∧ (literalSyntax made).Valid := by
  cases node with
  | int value => exact ⟨_, _, rfl, value.toNat, value.toNat_lt_size, rfl⟩
  | str raw =>
      exact ⟨_, _, rfl, length_alphanumerics_le raw, fun _ => isAlphanum_of_mem_alphanumerics⟩
  | unset => exact ⟨_, _, rfl, Lexical.valid_token seed s.drawn⟩
  | hex raw =>
      obtain ⟨nonempty, short, hex⟩ := hexSource_digits seed raw s
      exact ⟨_, _, literal_hex seed raw s, Lexical.valid_hexDigits nonempty short hex⟩

end Walk

/-! ### Texts -/

namespace Word

/-- Bytes that are not zero are those in front of the zeros of their word. -/
theorem takeWhile_ofLeftAligned {data : List UInt8} {w : Word} (made : ofLeftAligned data = .ok w)
    (nonzero : ∀ byte ∈ data, byte ≠ 0) : w.bytes.takeWhile (· ≠ 0) = data := by
  unfold ofLeftAligned at made
  split at made
  · obtain rfl := Except.ok.inj made
    have stop : (List.replicate (32 - data.length) (0 : UInt8)).takeWhile (· ≠ 0) = [] := by
      rw [List.takeWhile_replicate]
      rfl
    rw [List.takeWhile_append_of_pos (by simpa using nonzero), stop, List.append_nil]
  · cases made

theorem textBytes_injective {a b : String} (plain : ∀ c ∈ a.toList, c.isAlphanum)
    (other : ∀ c ∈ b.toList, c.isAlphanum) (same : textBytes a = textBytes b) : a = b := by
  have numbers := congrArg (List.map UInt8.toNat) same
  rw [textBytes_eq plain, textBytes_eq other] at numbers
  have injective : Function.Injective Char.toNat := fun c d => Char.toNat_inj.1
  exact String.toList_injective (List.map_injective_iff.2 injective numbers)

/-- No letter or digit is a zero byte. -/
theorem textBytes_ne_zero {text : String} (plain : ∀ c ∈ text.toList, c.isAlphanum) :
    ∀ byte ∈ textBytes text, byte ≠ 0 := by
  rintro byte member rfl
  have zero : (0 : UInt8).toNat ∈ (textBytes text).map UInt8.toNat := List.mem_map_of_mem member
  rw [textBytes_eq plain] at zero
  obtain ⟨c, here, null⟩ := List.mem_map.1 zero
  have alphanum := plain c here
  rw [Char.isAlphanum, Bool.or_eq_true, Grammar.isAlpha_iff, Grammar.isDigit_iff, null] at alphanum
  revert alphanum
  decide

end Word

/-- Texts have the same word exactly if they are written the same. -/
theorem quoted_word_eq_iff {a b : String} (valid : (literalSyntax (.quoted a)).Valid)
    (other : (literalSyntax (.quoted b)).Valid) :
    (Yul.Literal.quoted a).word = (Yul.Literal.quoted b).word ↔
      (Yul.Literal.quoted a).text = (Yul.Literal.quoted b).text := by
  constructor
  · intro same
    have first := Word.takeWhile_ofLeftAligned (Yul.Literal.word?_eq valid) (Word.textBytes_ne_zero valid.2)
    have second := Word.takeWhile_ofLeftAligned (Yul.Literal.word?_eq other) (Word.textBytes_ne_zero other.2)
    rw [same, second] at first
    rw [Word.textBytes_injective other.2 valid.2 first]
  · intro same
    have inside := (String.append_right_inj _).1 ((String.append_left_inj _).1 same)
    rw [inside]

/-- In every state every literal of a tree becomes a literal that is written as one valid token and denotes its
    word. A hex literal has an even number of digits, between two and 64, which spell the number of the hex
    digits of its text, or of the next token if it has none; texts have the same word exactly if they are
    written the same. -/
theorem literals_denote (seed : Seed) (s : Walk.State) :
    (∀ node, ∃ made s', Walk.literal seed node s = .ok (made, s') ∧ made.Denotes) ∧
    (∀ raw, ∃ digits : String,
      Walk.literal seed (.hex raw) s = .ok (.hex digits, (Walk.hexSource seed raw s).2) ∧
      digits.length % 2 = 0 ∧ 2 ≤ digits.length ∧ digits.length ≤ 64 ∧
      spelled 16 (digits.toList.map digitValue) =
        spelled 16 ((Walk.hexSource seed raw s).1.map digitValue)) ∧
    ∀ raw other t, ∃ made made', Walk.literal seed (.str raw) s = .ok (made, s) ∧
      Walk.literal seed (.str other) t = .ok (made', t) ∧
      (made.word = made'.word ↔ made.text = made'.text) := by
  refine ⟨?_, fun raw => Walk.exists_literal_hex seed raw s, ?_⟩
  · intro node
    obtain ⟨made, s', walked, valid⟩ := Walk.exists_literal seed node s
    exact ⟨made, s', walked, .of_valid valid⟩
  · intro raw other t
    have valid (raw : String) : (literalSyntax (.quoted (Walk.alphanumerics raw))).Valid :=
      ⟨Walk.length_alphanumerics_le raw, fun _ => Walk.isAlphanum_of_mem_alphanumerics⟩
    exact ⟨_, _, rfl, rfl, quoted_word_eq_iff (valid raw) (valid other)⟩

end YulFuzz
