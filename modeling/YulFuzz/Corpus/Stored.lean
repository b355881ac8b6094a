/-
Module: YulFuzz.Corpus.Stored
Purpose: Program trees stored as JSON text: reading them, writing them, and generating Yul for them. When the
  settings have no input size, the size of the text in bytes is used, so that the choice of tokens follows
  the size of the stored input.
Main exports: Tree.Program.ofText, Tree.Program.toText, Corpus.generate
-/
import YulFuzz.Corpus.Decoding
import YulFuzz.Corpus.Encoding
import YulFuzz.Error
import YulFuzz.Generation
import YulFuzz.Json.Printer
import YulFuzz.Json.Reader

namespace YulFuzz

namespace Tree.Program

/-- The program that a JSON value stores. -/
def ofValue (value : Json) : Except Error Program :=
  match ofJson? value with
  | some program => .ok program
  | none => .error (.input "the value is not a program")

/-- The program that a JSON text stores. -/
def ofText (text : String) : Except Error Program :=
  match Json.read? text with
  | some value => ofValue value
  | none => .error (.input "the text is not JSON")

/-- The JSON text that stores a program. -/
def toText (program : Program) : String := program.toJson.print

end Tree.Program

/-- The settings with an input size for the case that none is set. -/
def Settings.withDefaultSize (settings : Settings) (size : Nat) : Settings :=
  { settings with inputSize := settings.inputSize.or (some (UInt64.ofNat size)) }

/-- The outcome of a walk, in which a breach of the walk's rules is a generation error. -/
def Generation.ofWalk {α : Type} : Except Walk.Fault α → Except Error α :=
  Except.mapError fun _ => .generation

/-- Generate Yul for a program stored as JSON text. -/
def Corpus.generate (settings : Settings) (text : String) : Except Error Generation := do
  let program ← Tree.Program.ofText text
  Generation.ofWalk (program.generate (settings.withDefaultSize text.utf8ByteSize))

end YulFuzz
