/-
Module: YulFuzz.Proofs.Literals
Purpose: What is known about the texts of literals: tokens of a seed, filtered hex digits and filtered
  letters and digits keep to the size of a word, whatever the raw text is.
Main exports: Seed.isToken_token, IsToken.length_le, Walk.isHexDigit_of_mem_evenly, Walk.length_evenly_le
-/
import YulFuzz.Walk.Expression

namespace YulFuzz

/-- A token has at most 64 characters. -/
theorem IsToken.length_le {token : String} (isToken : IsToken token) :
    token.toList.length ≤ Word.digitCount := by
  obtain ⟨_, short, hex⟩ := isToken
  rw [← utf8ByteSize_ofList_of_isHexDigit hex, String.ofList_toList]
  exact short

/-- Every token of a seed is a token of its dictionary. -/
theorem Seed.isToken_token (seed : Seed) (drawn : Nat) : IsToken (seed.token drawn) :=
  seed.dictionary.isToken_of_mem _ (List.get_mem ..)

namespace Walk

theorem length_hexDigits_le (raw : String) : (hexDigits raw).length ≤ Word.digitCount :=
  List.length_take_le ..

theorem isHexDigit_of_mem_hexDigits {raw : String} {c : Char} (member : c ∈ hexDigits raw) :
    c.isHexDigit := by
  exact (List.mem_filter.1 (List.mem_of_mem_take member)).2

theorem isHexDigit_of_mem_evenly {digits : List Char} (hex : ∀ c ∈ digits, c.isHexDigit) :
    ∀ c ∈ evenly digits, c.isHexDigit := by
  unfold evenly
  split
  · exact List.forall_mem_cons.2 ⟨rfl, hex⟩
  · exact hex

/-- The zero in front makes digits no longer than a word, which has an even number of digits. -/
theorem length_evenly_le {digits : List Char} (short : digits.length ≤ Word.digitCount) :
    (evenly digits).length ≤ Word.digitCount := by
  unfold evenly
  split
  · rename_i odd
    rw [List.length_cons]
    simp only [Word.digitCount] at short ⊢
    omega
  · exact short

theorem evenly_ne_nil {digits : List Char} (nonempty : digits ≠ []) : evenly digits ≠ [] := by
  unfold evenly
  split
  · exact List.cons_ne_nil _ _
  · exact nonempty

theorem length_alphanumerics_le (raw : String) :
    (alphanumerics raw).toList.length ≤ Word.byteCount := by
  rw [alphanumerics, String.toList_ofList]
  exact List.length_take_le ..

theorem isAlphanum_of_mem_alphanumerics {raw : String} {c : Char}
    (member : c ∈ (alphanumerics raw).toList) : c.isAlphanum := by
  rw [alphanumerics, String.toList_ofList] at member
  exact (List.mem_filter.1 (List.mem_of_mem_take member)).2

end Walk

end YulFuzz
