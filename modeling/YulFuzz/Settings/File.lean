/-
Module: YulFuzz.Settings.File
Purpose: Settings and dictionaries from TOML text. Settings stand in the table `generator`, which may be
  missing; unknown keys are refused there and ignored outside of it. A dictionary file has the key `tokens`.
Main exports: Settings.ofToml, Settings.Fault.message, Dictionary.ofToml, Dictionary.FileFault.message
-/
import YulFuzz.Settings
import YulFuzz.Toml.Reader

namespace YulFuzz

/-- A list of strings. -/
def Toml.Node.strings? : Toml.Node → Option (List String)
  | .array items => items.mapM fun item =>
    match item with
    | .string text => some text
    | _ => none
  | _ => none

/-- A number from 0 to the greatest integer. -/
def Toml.Node.uint64? : Toml.Node → Option UInt64
  | .integer value =>
    if 0 ≤ value ∧ value.toNat < UInt64.size then some (UInt64.ofNat value.toNat) else none
  | _ => none

/-- A truth value. -/
def Toml.Node.boolean? : Toml.Node → Option Bool
  | .boolean value => some value
  | _ => none

namespace Settings

/-- The settings as a file gives them. -/
structure Section where
  dictionary : Option (List String) := none
  inputSize : Option UInt64 := none
  typedDeclarations : Bool := false
deriving DecidableEq

/-- Add one key of the table to the settings. -/
def Section.add (settings : Section) (key : String) (value : Toml.Node) : Option Section :=
  match key with
  | "dictionary" => do return { settings with dictionary := some (← value.strings?) }
  | "input_size" => do return { settings with inputSize := some (← value.uint64?) }
  | "typed_declarations" => do return { settings with typedDeclarations := ← value.boolean? }
  | _ => none

/-- The settings in a table, or in an array that gives the three in their order, of which only the last one
    may be missing; what follows them is ignored. -/
def Section.ofNode? : Toml.Node → Option Section
  | .table _ entries => entries.foldlM (fun settings entry => settings.add entry.1 entry.2) {}
  | .array (dictionary :: inputSize :: rest) => do
    let tokens ← dictionary.strings?
    let size ← inputSize.uint64?
    match rest with
    | [] => return ⟨tokens, size, false⟩
    | typed :: _ => return ⟨tokens, size, ← typed.boolean?⟩
  | _ => none

/-- Why a text gives no settings. -/
inductive Fault where
  /-- The text is no TOML document. -/
  | notToml
  /-- The table `generator` does not hold settings. -/
  | badSection
  /-- The tokens make no dictionary. -/
  | dictionary (fault : Dictionary.Fault)
deriving DecidableEq, Repr

/-- The wording of a fault. -/
def Fault.message : Fault → String
  | .notToml => "Failed to parse generator config: not a TOML document"
  | .badSection => "Failed to parse generator config: unexpected content of [generator]"
  | .dictionary fault => fault.message

/-- The section of a text; without a table `generator`, nothing is set. -/
def readSection (text : String) : Except Fault Section :=
  match Toml.read? text with
  | none => .error .notToml
  | some root =>
    match root.lookup "generator" with
    | none => .ok {}
    | some node =>
      match Section.ofNode? node with
      | none => .error .badSection
      | some settings => .ok settings

/-- The settings that a text gives; what it does not set keeps its default. -/
def ofToml (text : String) : Except Fault Settings := do
  let given ← readSection text
  let dictionary ←
    match given.dictionary with
    | none => pure Dictionary.builtin
    | some tokens => (Dictionary.ofTokens tokens).mapError .dictionary
  return { dictionary, inputSize := given.inputSize, typedDeclarations := given.typedDeclarations }

end Settings

namespace Dictionary

/-- Why a text gives no dictionary. -/
inductive FileFault where
  /-- The text is no TOML document with a list of strings as `tokens`. -/
  | notTokens
  /-- The tokens make no dictionary. -/
  | tokens (fault : Fault)
deriving DecidableEq, Repr

/-- The wording of a fault. -/
def FileFault.message : FileFault → String
  | .notTokens => "Failed to parse dictionary: no list of strings as tokens"
  | .tokens fault => fault.message

/-- The dictionary that a text gives. -/
def ofToml (text : String) : Except FileFault Dictionary :=
  match do (← (← Toml.read? text).lookup "tokens").strings? with
  | none => .error .notTokens
  | some tokens => (ofTokens tokens).mapError .tokens

end Dictionary

end YulFuzz
