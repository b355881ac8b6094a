/-
Module: YulFuzz.Error
Purpose: What can keep Yul from being generated for a stored tree, with its wording.
Main exports: Error, Error.message
-/

namespace YulFuzz

/-- Why no Yul is generated. -/
inductive Error where
  /-- The text of the program could not be made. -/
  | generation
  /-- The settings are invalid. -/
  | config (detail : String)
  /-- There is no tree to start from. -/
  | input (detail : String)
deriving DecidableEq, Repr

/-- The wording of an error. -/
def Error.message : Error → String
  | .generation => "Yul generation error: an error occurred when formatting an argument"
  | .config detail => "Invalid configuration: " ++ detail
  | .input detail => "Invalid program tree: " ++ detail

end YulFuzz
