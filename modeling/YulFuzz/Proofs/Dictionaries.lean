/-
Module: YulFuzz.Proofs.Dictionaries
Purpose: Which lists of strings are dictionaries. The check of a dictionary scans characters and counts bytes, the
  reader of words pads by characters and reads pairs of digits; both accept the same strings, but for the empty
  one, which is a word and no token. So every token of a dictionary is read as a word. A list that is no
  dictionary is reported by the first string that is no token.
Main exports: Dictionary.Refuses, isToken_iff_word, Dictionary.firstFault?_eq_some_iff,
  dictionaries_hold_words
-/
import YulFuzz.Proofs.HexWords

namespace YulFuzz

/-- The tokens are the non-empty strings that are read as words. -/
theorem isToken_iff_word {token : String} :
    IsToken token ↔ token ≠ "" ∧ ∃ w, Word.ofHexDigits token = .ok w := by
  rw [Word.exists_ofHexDigits_iff]
  exact Iff.rfl

namespace Dictionary

/-- What is reported about a string as the token with a number: that it is empty, else that it has more than 64
    bytes, else its first character that is no hex digit. -/
inductive Refuses (number : Nat) : (token : String) → Fault → Prop where
  | empty : Refuses number "" (.emptyToken number)
  | long {token : String} (nonempty : token ≠ "") (long : 64 < token.utf8ByteSize) :
      Refuses number token (.longToken token)
  | character {token : String} {front rest : List Char} {c : Char} (nonempty : token ≠ "")
      (short : token.utf8ByteSize ≤ 64) (split : token.toList = front ++ c :: rest)
      (digits : ∀ digit ∈ front, digit.isHexDigit) (bad : ¬ c.isHexDigit) :
      Refuses number token (.badCharacter c token)

variable {number : Nat} {token : String} {tokens : List String} {fault : Fault} {d : Dictionary}

theorem tokenFault?_eq_none_iff : tokenFault? number token = none ↔ IsToken token := by
  refine ⟨isToken_of_tokenFault?_eq_none, ?_⟩
  rintro ⟨nonempty, short, hex⟩
  rw [tokenFault?, if_neg nonempty, if_neg (Nat.not_lt.2 short)]
  simpa using hex

theorem tokenFault?_eq_some_iff : tokenFault? number token = some fault ↔ Refuses number token fault := by
  unfold tokenFault?
  split_ifs with empty long
  · subst empty
    constructor
    · rintro ⟨⟩
      exact .empty
    · rintro (_ | ⟨nonempty, _⟩ | ⟨nonempty, _⟩)
      · rfl
      · exact absurd rfl nonempty
      · exact absurd rfl nonempty
  · constructor
    · rintro ⟨⟩
      exact .long empty long
    · rintro (_ | _ | ⟨_, short⟩)
      · exact absurd rfl empty
      · rfl
      · exact absurd long (Nat.not_lt.2 short)
  · rw [Option.map_eq_some_iff]
    constructor
    · rintro ⟨c, found, rfl⟩
      obtain ⟨bad, front, rest, split, digits⟩ := List.find?_eq_some_iff_append.1 found
      refine .character empty (Nat.not_lt.1 long) split ?_ (by simpa using bad)
      intro digit member
      simpa using digits digit member
    · rintro (_ | ⟨_, tooLong⟩ | ⟨_, _, split, digits, bad⟩)
      · exact absurd rfl empty
      · exact absurd tooLong long
      · refine ⟨_, List.find?_eq_some_iff_append.2 ⟨by simpa using bad, _, _, split, ?_⟩, rfl⟩
        intro digit member
        simpa using digits digit member

/-- The fault is that of the first string that is no token. -/
theorem firstFault?_eq_some_iff : firstFault? number tokens = some fault ↔
    ∃ before token after, tokens = before ++ token :: after ∧ (∀ earlier ∈ before, IsToken earlier) ∧
      Refuses (number + before.length) token fault := by
  induction tokens generalizing number with
  | nil => simp [firstFault?]
  | cons first rest ih =>
      rw [firstFault?, Option.or_eq_some_iff, tokenFault?_eq_some_iff, tokenFault?_eq_none_iff, ih]
      constructor
      · rintro (here | ⟨isToken, before, token, after, rfl, earlier, refused⟩)
        · exact ⟨[], first, rest, rfl, nofun, here⟩
        · refine ⟨first :: before, token, after, rfl, List.forall_mem_cons.2 ⟨isToken, earlier⟩, ?_⟩
          rw [List.length_cons, Nat.add_comm before.length 1, ← Nat.add_assoc]
          exact refused
      · rintro ⟨_ | ⟨head, before⟩, token, after, split, earlier, refused⟩
        · obtain ⟨rfl, rfl⟩ := List.cons.inj split
          exact .inl refused
        · obtain ⟨rfl, rfl⟩ := List.cons.inj split
          obtain ⟨isToken, earlier⟩ := List.forall_mem_cons.1 earlier
          rw [List.length_cons, Nat.add_comm before.length 1, ← Nat.add_assoc] at refused
          exact .inr ⟨isToken, before, token, after, rfl, earlier, refused⟩

theorem firstFault?_eq_none_iff : firstFault? number tokens = none ↔ ∀ token ∈ tokens, IsToken token := by
  refine ⟨isToken_of_firstFault?_eq_none, fun all => ?_⟩
  induction tokens generalizing number with
  | nil => rfl
  | cons first rest ih =>
      obtain ⟨here, later⟩ := List.forall_mem_cons.1 all
      rw [firstFault?, tokenFault?_eq_none_iff.2 here, ih later]
      rfl

/-- The tokens of a dictionary are the strings that it is made of. -/
theorem ofTokens_eq_ok_iff : ofTokens tokens = .ok d ↔
    d.tokens = tokens ∧ tokens ≠ [] ∧ ∀ token ∈ tokens, IsToken token := by
  have faultless : firstFault? 1 tokens = none ↔ _ := firstFault?_eq_none_iff
  rw [← faultless]
  constructor
  · intro made
    unfold ofTokens at made
    split at made
    · cases made
    · rename_i nonempty
      split at made
      · cases made
      · rename_i faultless
        obtain rfl := Except.ok.inj made
        exact ⟨rfl, nonempty, faultless⟩
  · rintro ⟨rfl, nonempty, faultless⟩
    unfold ofTokens
    rw [dif_neg nonempty]
    split
    · rename_i faulty
      rw [faultless] at faulty
      cases faulty
    · rfl

theorem ofTokens_eq_error_iff : ofTokens tokens = .error fault ↔
    (tokens = [] ∧ fault = .noTokens) ∨ firstFault? 1 tokens = some fault := by
  unfold ofTokens
  split_ifs with empty
  · subst empty
    simp [firstFault?, eq_comm]
  · split
    · rename_i faulty
      simp [empty, faulty]
    · rename_i faultless
      simp [empty, faultless]

end Dictionary

open Dictionary (Fault Refuses ofTokens)

/-- A list of strings makes a dictionary exactly if it is not empty and its strings are not empty and are read as
    words; the dictionary has these strings as its tokens, in their order. Any other list is refused: an empty one
    for having no token, and else for the first string that is empty, longer than 64 bytes or holds a character
    that is no hex digit. -/
theorem dictionaries_hold_words (tokens : List String) :
    ((∃ d, ofTokens tokens = .ok d) ↔
      tokens ≠ [] ∧ ∀ token ∈ tokens, token ≠ "" ∧ ∃ w, Word.ofHexDigits token = .ok w) ∧
    (∀ d, ofTokens tokens = .ok d → d.tokens = tokens) ∧
    ∀ fault, ofTokens tokens = .error fault ↔
      (tokens = [] ∧ fault = .noTokens) ∨
      ∃ before token after, tokens = before ++ token :: after ∧ (∀ earlier ∈ before, IsToken earlier) ∧
        Refuses (before.length + 1) token fault := by
  simp only [← isToken_iff_word]
  refine ⟨⟨?_, ?_⟩, fun d made => (Dictionary.ofTokens_eq_ok_iff.1 made).1, fun fault => ?_⟩
  · rintro ⟨d, made⟩
    exact (Dictionary.ofTokens_eq_ok_iff.1 made).2
  · rintro ⟨nonempty, all⟩
    exact ⟨⟨tokens, nonempty, all⟩, Dictionary.ofTokens_eq_ok_iff.2 ⟨rfl, nonempty, all⟩⟩
  · rw [Dictionary.ofTokens_eq_error_iff, Dictionary.firstFault?_eq_some_iff]
    simp only [Nat.add_comm 1]

/-- A letter of two bytes makes a string no token, and no word either; it is reported although a string behind it
    is empty. Without these two strings there is a dictionary. -/
theorem long_character_refused :
    (∀ earlier ∈ ["fF"], IsToken earlier) ∧ (∃ d, ofTokens ["fF"] = .ok d ∧ d.tokens = ["fF"]) ∧
    ofTokens ["fF", "0é", ""] = .error (.badCharacter 'é' "0é") ∧ ¬ ∃ w, Word.ofHexDigits "0é" = .ok w := by
  have first : ∀ earlier ∈ ["fF"], IsToken earlier :=
    List.forall_mem_singleton.2 (isToken_ofList (by decide) (by decide) rfl)
  have split : "0é".toList = ['0'] ++ 'é' :: [] := rfl
  have refused : Refuses 2 "0é" (.badCharacter 'é' "0é") :=
    .character (by decide) (by decide) split (List.forall_mem_singleton.2 rfl) (by decide)
  obtain ⟨made, kept, -⟩ := dictionaries_hold_words ["fF"]
  obtain ⟨-, -, reported⟩ := dictionaries_hold_words ["fF", "0é", ""]
  obtain ⟨d, ok⟩ := made.2 ⟨by decide, fun token member => isToken_iff_word.1 (first token member)⟩
  refine ⟨first, ⟨d, ok, kept d ok⟩, (reported _).2 (.inr ⟨["fF"], "0é", [""], rfl, first, refused⟩), ?_⟩
  intro word
  obtain ⟨-, -, hex⟩ := isToken_iff_word.2 ⟨by decide, word⟩
  exact absurd (hex 'é' (by decide)) (by decide)

end YulFuzz
