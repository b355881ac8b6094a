/-
Module: YulFuzz.Settings
Purpose: Everything that a generation depends on besides the tree: the seed dictionary, the size of the
  input that offsets the choice of tokens, and whether typed declarations keep their types.
Main exports: Settings, Settings.seed
-/
import YulFuzz.Seed.Tokens

namespace YulFuzz

/-- Settings for one or more generations. -/
structure Settings where
  /-- Tokens used wherever a literal is needed but none is usable. -/
  dictionary : Dictionary := Dictionary.builtin
  /-- Size in bytes of the input that the tree was read from; `none` chooses tokens as for size zero. -/
  inputSize : Option UInt64 := none
  /-- Whether declarations with a type are written with it. Builtin calls stay untyped, so typed output is
      a best effort. -/
  typedDeclarations : Bool := false
deriving DecidableEq, Inhabited

namespace Settings

/-- The token sequence of a generation under these settings. -/
def seed (settings : Settings) : Seed := ⟨settings.dictionary, settings.inputSize.getD 0⟩

end Settings

end YulFuzz
