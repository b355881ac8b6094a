/-
Module: YulFuzz.Seed.Tokens
Purpose: The sequence of dictionary tokens that one generation draws from. Which token is drawn depends
  only on the dictionary, the size of the input and the number of tokens drawn before, so a generation can
  be repeated from its input.
Main exports: Seed, Seed.token, Seed.prefixedToken
-/
import YulFuzz.Seed.Dictionary

namespace YulFuzz

/-- A dictionary together with the size in bytes of the input, which rotates it. -/
structure Seed where
  dictionary : Dictionary
  inputSize : UInt64

namespace Seed

/-- The place of the token drawn after `drawn` others: the square of the input size plus `drawn`, in 64-bit
    arithmetic. -/
def index (seed : Seed) (drawn : Nat) : UInt64 :=
  seed.inputSize * seed.inputSize + UInt64.ofNat drawn

/-- The token drawn after `drawn` others. -/
def token (seed : Seed) (drawn : Nat) : String :=
  seed.dictionary.token (seed.index drawn).toNat

/-- The token drawn after `drawn` others, as a Yul literal. -/
def prefixedToken (seed : Seed) (drawn : Nat) : String :=
  "0x" ++ seed.token drawn

end Seed

end YulFuzz
