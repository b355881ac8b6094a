/-
Module: YulFuzz.CommandLine.Arguments
Purpose: The arguments of the command line. A command has switches, settings with a value, and at most one
  operand, in any order; a setting takes its value from the same argument or from the next one; two dashes end
  switches and settings. Each switch, setting and operand stands at most once. The first argument that is
  wrong in itself, or that asks for help, decides; what is missing is only noticed at the end.
Main exports: CommandLine.Command, CommandLine.Generate, CommandLine.Stop, CommandLine.Command.ofArguments
-/

namespace YulFuzz.CommandLine

/-- The arguments of the command that generates Yul for a stored tree. -/
structure Generate where
  input : String
  output : Option String := none
  config : Option String := none
  inputSize : Option UInt64 := none
  typed : Bool := false
  stats : Bool := false
deriving DecidableEq, Repr

/-- The shells for which there are completions. -/
inductive Shell where
  | bash | elvish | fish | powershell | zsh
deriving DecidableEq, Repr

/-- What the program is asked to do. -/
inductive Command where
  | generate (arguments : Generate)
  | dictionary (config : Option String)
  | completions (shell : Shell)
deriving DecidableEq, Repr

/-- Why the arguments ask for nothing to be done. -/
inductive Stop where
  | usage
  | help
  | version
deriving DecidableEq, Repr

/-- Settings with a value. -/
inductive Key where
  | output | config | inputSize
deriving DecidableEq, Repr

/-- Switches. -/
inductive Switch where
  | typed | stats
deriving DecidableEq, Repr

/-- What one argument is. -/
inductive Argument where
  | operand (text : String)
  | switch (switch : Switch)
  | setting (key : Key) (attached : Option String)
  | separator
  | help
  | unknown
deriving DecidableEq, Repr

/-- Whether an argument can be a value: anything but a switch or a setting. A single dash is a value. -/
def isValue (argument : String) : Bool :=
  argument = "-" || !argument.startsWith "-"

/-- The name of a long switch or setting after its dashes, and the value attached to it by a sign. -/
def splitLong (name : List Char) : String × Option String :=
  let bare := name.takeWhile (· ≠ '=')
  match name.dropWhile (· ≠ '=') with
  | [] => (String.ofList bare, none)
  | _ :: value => (String.ofList bare, some (String.ofList value))

/-- What one argument is. -/
def Argument.ofString (argument : String) : Argument :=
  if isValue argument then .operand argument
  else if argument = "--" then .separator
  else
    match argument.toList with
    | '-' :: '-' :: name =>
      match splitLong name with
      | ("output", attached) => .setting .output attached
      | ("config", attached) => .setting .config attached
      | ("input-size", attached) => .setting .inputSize attached
      | ("typed", none) => .switch .typed
      | ("stats", none) => .switch .stats
      | ("help", none) => .help
      | _ => .unknown
    | ['-', 'o'] => .setting .output none
    | '-' :: 'o' :: '=' :: value => .setting .output (some (String.ofList value))
    | '-' :: 'o' :: value => .setting .output (some (String.ofList value))
    | '-' :: 'h' :: _ => .help
    | _ => .unknown

/-- A number of 64 bits, in decimal; a plus sign may stand in front. -/
def uint64? (text : String) : Option UInt64 :=
  let digits :=
    match text.toList with
    | '+' :: digits => digits
    | digits => digits
  if digits.isEmpty || !digits.all Char.isDigit then none
  else
    let value := Nat.ofDigitChars 10 digits 0
    if value < UInt64.size then some (UInt64.ofNat value) else none

/-- What the values of a setting are. -/
abbrev Key.Value : Key → Type
  | .output | .config => String
  | .inputSize => UInt64

/-- The value that a text gives to a setting. A path is not empty. -/
def Key.read? : (key : Key) → (text : String) → Option key.Value
  | .output, path | .config, path => if path.isEmpty then none else some path
  | .inputSize, digits => uint64? digits

/-- The shell with a name. -/
def Shell.ofName? : String → Option Shell
  | "bash" => some .bash
  | "elvish" => some .elvish
  | "fish" => some .fish
  | "powershell" => some .powershell
  | "zsh" => some .zsh
  | _ => none

/-- What a command accepts. -/
structure Grammar where
  /-- Which texts its operand may be, if it has one. -/
  operand : Option (String → Bool) := none
  keys : List Key := []
  switches : List Switch := []

/-- The arguments found so far. -/
structure Found where
  operand : Option String := none
  output : Option String := none
  config : Option String := none
  inputSize : Option UInt64 := none
  typed : Bool := false
  stats : Bool := false

namespace Found

/-- Whether a switch has been found. -/
def given (found : Found) : Switch → Bool
  | .typed => found.typed
  | .stats => found.stats

/-- The value found for a setting. -/
def value? (found : Found) : (key : Key) → Option key.Value
  | .output => found.output
  | .config => found.config
  | .inputSize => found.inputSize

/-- A switch in addition. -/
def withSwitch (found : Found) : Switch → Found
  | .typed => { found with typed := true }
  | .stats => { found with stats := true }

/-- The value of a setting in addition. -/
def withValue (found : Found) : (key : Key) → key.Value → Found
  | .output, path => { found with output := some path }
  | .config, path => { found with config := some path }
  | .inputSize, size => { found with inputSize := some size }

/-- Add a switch, unless it has been given before. -/
def addSwitch (found : Found) (switch : Switch) : Except Stop Found :=
  if found.given switch then .error .usage else .ok (found.withSwitch switch)

/-- Add a setting, unless it has been given before or the text gives it no value. -/
def addSetting (found : Found) (key : Key) (text : String) : Except Stop Found :=
  match found.value? key, key.read? text with
  | none, some value => .ok (found.withValue key value)
  | _, _ => .error .usage

/-- Add an operand, unless there is one already or the text is none. -/
def addOperand (grammar : Grammar) (found : Found) (text : String) : Except Stop Found :=
  match grammar.operand, found.operand with
  | some isOperand, none =>
    if isOperand text then .ok { found with operand := some text } else .error .usage
  | _, _ => .error .usage

/-- Read arguments from left to right, where a setting may still wait for its value. -/
def read (grammar : Grammar) : (waiting : Option Key) → Found → List String → Except Stop Found
  | none, found, [] => .ok found
  | some _, _, [] => .error .usage
  | some key, found, value :: rest =>
    if isValue value then do
      let found ← found.addSetting key value
      read grammar none found rest
    else .error .usage
  | none, found, first :: rest =>
    match Argument.ofString first with
    | .operand text => do
      let found ← found.addOperand grammar text
      read grammar none found rest
    | .switch switch =>
      if switch ∈ grammar.switches then do
        let found ← found.addSwitch switch
        read grammar none found rest
      else .error .usage
    | .setting key attached =>
      if key ∈ grammar.keys then
        match attached with
        | some value => do
          let found ← found.addSetting key value
          read grammar none found rest
        | none => read grammar (some key) found rest
      else .error .usage
    | .separator => rest.foldlM (addOperand grammar) found
    | .help => .error .help
    | .unknown => .error .usage

end Found

namespace Command

/-- The names of the commands, with the one that shows how they are called. -/
def names : List String := ["generate", "dictionary", "completions", "help"]

/-- What `generate` accepts; the path of its input is not empty. -/
def generateGrammar : Grammar where
  operand := some fun path => !path.isEmpty
  keys := [.output, .config, .inputSize]
  switches := [.typed, .stats]

/-- What `dictionary` accepts. -/
def dictionaryGrammar : Grammar where
  keys := [.config]

/-- What `completions` accepts. -/
def completionsGrammar : Grammar where
  operand := some fun name => (Shell.ofName? name).isSome

/-- The command that arguments ask for. -/
def ofArguments : List String → Except Stop Command
  | "generate" :: rest => do
    let found ← Found.read generateGrammar none {} rest
    match found.operand with
    | some input =>
      return .generate ⟨input, found.output, found.config, found.inputSize, found.typed, found.stats⟩
    | none => throw .usage
  | "dictionary" :: rest => do
    let found ← Found.read dictionaryGrammar none {} rest
    return .dictionary found.config
  | "completions" :: rest => do
    let found ← Found.read completionsGrammar none {} rest
    match found.operand.bind Shell.ofName? with
    | some shell => return .completions shell
    | none => throw .usage
  | ["help"] => .error .help
  | ["help", name] => if name ∈ names then .error .help else .error .usage
  | first :: _ =>
    if first = "--version" || first.startsWith "-V" then .error .version
    else if first = "--help" || first.startsWith "-h" then .error .help
    else .error .usage
  | [] => .error .usage

end Command

end YulFuzz.CommandLine
