/-
Module: YulFuzz.Seed.Dictionary
Purpose: The seed dictionary: a fixed, ordered, non-empty list of hex tokens that bias generated literals
  towards small constants, powers of two, sign boundaries and all-ones masks. A dictionary can only be
  built from tokens that each have 1 to 64 hex digits.
Main exports: Dictionary, Dictionary.ofTokens, Dictionary.builtin, Dictionary.token,
  Dictionary.Fault.message
-/
import YulFuzz.Word

namespace YulFuzz

/-- A token has at least one character, at most 64 bytes, and hex digits only. -/
def IsToken (token : String) : Prop :=
  token ≠ "" ∧ token.utf8ByteSize ≤ Word.digitCount ∧ ∀ c ∈ token.toList, c.isHexDigit

theorem utf8ByteSize_ofList_of_isHexDigit {digits : List Char} (hex : ∀ c ∈ digits, c.isHexDigit) :
    (String.ofList digits).utf8ByteSize = digits.length := by
  induction digits with
  | nil => rfl
  | cons c rest ih =>
    have small : c.utf8Size = 1 := by
      have here := hex c List.mem_cons_self
      simp only [Char.isHexDigit, Char.isDigit, Bool.or_eq_true, Bool.and_eq_true, decide_eq_true_eq,
        UInt32.le_iff_toNat_le] at here
      rw [Char.utf8Size_eq_one_iff, UInt32.le_iff_toNat_le]
      rcases here with (⟨_, h⟩ | ⟨_, h⟩) | ⟨_, h⟩ <;> exact Nat.le_trans h (by decide)
    rw [String.ofList_cons, String.utf8ByteSize_append, String.utf8ByteSize_singleton, small,
      ih fun c member => hex c (List.mem_cons_of_mem _ member), List.length_cons, Nat.add_comm]

/-- Hex digits make a token if there are 1 to 64 of them. -/
theorem isToken_ofList {digits : List Char} (nonempty : digits ≠ [])
    (short : digits.length ≤ Word.digitCount) (hex : digits.all Char.isHexDigit) :
    IsToken (String.ofList digits) := by
  have hex : ∀ c ∈ digits, c.isHexDigit := by simpa using hex
  refine ⟨?_, ?_, ?_⟩
  · simpa using nonempty
  · rw [utf8ByteSize_ofList_of_isHexDigit hex]
    exact short
  · simpa using hex

/-- An ordered, non-empty list of tokens. -/
structure Dictionary where
  tokens : List String
  tokens_ne_nil : tokens ≠ []
  isToken_of_mem : ∀ token ∈ tokens, IsToken token
deriving DecidableEq

namespace Dictionary

/-- Why a list of strings is no dictionary. -/
inductive Fault where
  /-- There is no token at all. -/
  | noTokens
  /-- The token with this number, counted from 1, is empty. -/
  | emptyToken (number : Nat)
  /-- A token has more than 64 bytes. -/
  | longToken (token : String)
  /-- A token holds a character that is no hex digit; it is the first such character. -/
  | badCharacter (c : Char) (token : String)
deriving DecidableEq, Repr

/-- The wording of a fault. -/
def Fault.message : Fault → String
  | .noTokens => "Dictionary must contain at least one token"
  | .emptyToken number => "Dictionary token " ++ toString number ++ " is empty"
  | .longToken token =>
    "Dictionary token '" ++ token ++ "' has " ++ toString token.utf8ByteSize ++ " digits, at most "
      ++ toString Word.digitCount ++ " allowed"
  | .badCharacter c token =>
    "Invalid character '" ++ c.toString ++ "' in dictionary token '" ++ token
      ++ "'. Tokens may only contain hex digits."

/-- The fault of one string as the token with the given number: empty, then too long, then the first
    character that is no hex digit. -/
def tokenFault? (number : Nat) (token : String) : Option Fault :=
  if token = "" then some (.emptyToken number)
  else if Word.digitCount < token.utf8ByteSize then some (.longToken token)
  else (token.toList.find? fun c => !c.isHexDigit).map (.badCharacter · token)

/-- The fault of the first faulty string, the first string having the given number. -/
def firstFault? (number : Nat) : List String → Option Fault
  | [] => none
  | token :: rest => (tokenFault? number token).or (firstFault? (number + 1) rest)

theorem isToken_of_tokenFault?_eq_none {number : Nat} {token : String}
    (h : tokenFault? number token = none) : IsToken token := by
  unfold tokenFault? at h
  split at h
  · simp at h
  · rename_i nonempty
    split at h
    · simp at h
    · rename_i short
      refine ⟨nonempty, by omega, ?_⟩
      simpa using h

theorem isToken_of_firstFault?_eq_none {number : Nat} {tokens : List String}
    (h : firstFault? number tokens = none) : ∀ token ∈ tokens, IsToken token := by
  induction tokens generalizing number with
  | nil => simp
  | cons first rest ih =>
    obtain ⟨here, later⟩ := Option.or_eq_none_iff.1 h
    intro token member
    rcases List.mem_cons.1 member with rfl | member
    · exact isToken_of_tokenFault?_eq_none here
    · exact ih later token member

/-- The dictionary of the given tokens, kept unchanged and in order, or the first fault in list order. -/
def ofTokens (tokens : List String) : Except Fault Dictionary :=
  if h : tokens = [] then .error .noTokens
  else
    match faultless : firstFault? 1 tokens with
    | some fault => .error fault
    | none => .ok ⟨tokens, h, isToken_of_firstFault?_eq_none faultless⟩

/-- The tokens used when no dictionary is configured. -/
def builtinTokens : List String :=
  ["0", "1", "2", "3", "4", "7", "8", "0a", "0f", "10", "1f", "20", "40", "60", "7f", "80", "ff",
    "0100", "ffff", "010000", "7fffffff", "80000000", "ffffffff", "0100000000",
    "7fffffffffffffff", "8000000000000000", "ffffffffffffffff", "010000000000000000",
    "ffffffffffffffffffffffffffffffffffffffff",
    "7fffffffffffffffffffffffffffffff",
    "80000000000000000000000000000000",
    "ffffffffffffffffffffffffffffffff",
    "0100000000000000000000000000000000",
    "7fffffffffffffffffffffffffffffffffffffffffffffffffffffffffffffff",
    "8000000000000000000000000000000000000000000000000000000000000000",
    "fffffffffffffffffffffffffffffffffffffffffffffffffffffffffffffffe",
    "ffffffffffffffffffffffffffffffffffffffffffffffffffffffffffffffff",
    "ff00000000000000000000000000000000000000000000000000000000000000",
    "00000000000000000000000000000000000000000000000000000000000000ff",
    "0101010101010101010101010101010101010101010101010101010101010101",
    "5555555555555555555555555555555555555555555555555555555555555555",
    "aaaaaaaaaaaaaaaaaaaaaaaaaaaaaaaaaaaaaaaaaaaaaaaaaaaaaaaaaaaaaaaa",
    "c5d2460186f7233c927e7db2dcc703c0e500b653ca82273b7bfad8045d85a470",
    "deadbeef", "cafebabe",
    "1000000000000000000000000000000000000000000000000000000000000000"]

theorem isToken_of_mem_builtinTokens : ∀ token ∈ builtinTokens, IsToken token := by
  unfold builtinTokens
  repeat' refine List.forall_mem_cons.2 ⟨isToken_ofList (by decide) (by decide) rfl, ?_⟩
  exact List.forall_mem_nil _

/-- The dictionary used when none is configured. -/
def builtin : Dictionary where
  tokens := builtinTokens
  tokens_ne_nil := List.cons_ne_nil _ _
  isToken_of_mem := isToken_of_mem_builtinTokens

instance : Inhabited Dictionary := ⟨builtin⟩

theorem length_pos (d : Dictionary) : 0 < d.tokens.length :=
  List.length_pos_iff.2 d.tokens_ne_nil

/-- The token at an index, counting on from the start after the last one. -/
def token (d : Dictionary) (index : Nat) : String :=
  d.tokens.get ⟨index % d.tokens.length, Nat.mod_lt _ d.length_pos⟩

end Dictionary

end YulFuzz
