/-
Module: YulFuzz.CommandLine.Run
Purpose: What the commands do. The settings are loaded before the tree, so that their fault is reported
  first; nothing is printed or written before the generation is complete.
Main exports: CommandLine.Outcome, CommandLine.run
-/
import YulFuzz.CommandLine.Arguments
import YulFuzz.CommandLine.Files
import YulFuzz.Corpus.Stored
import YulFuzz.Settings.File

namespace YulFuzz.CommandLine

/-- What a run leaves behind besides files. -/
structure Outcome where
  status : UInt32 := 0
  stdout : String := ""
  stderr : String := ""
deriving DecidableEq, Repr

/-- A failed run, with its message on a line of its own. -/
def Outcome.failed (message : String) : Outcome where
  status := 1
  stderr := message ++ "\n"

/-- How the program is called. Only that there is such a text matters: its wording belongs to the reader of
    arguments, and nothing is stated about it. -/
def usageText : String :=
  "Usage: yulgen generate <INPUT> [-o <OUTPUT>] [--config <CONFIG>] [--input-size <SIZE>] [--typed] [--stats]\n"
    ++ "       yulgen dictionary [--config <CONFIG>]\n"
    ++ "       yulgen completions <SHELL>\n"

/-- The line by which a shell completes the names of the commands. It stands in for the longer scripts that are
    made for each shell, and nothing is stated about its wording either. -/
def completionText : Shell → String
  | .bash => "complete -W 'generate dictionary completions' yulgen\n"
  | .elvish =>
    "set edit:completion:arg-completer[yulgen] = \x7b|@words| put generate dictionary completions\x7d\n"
  | .fish => "complete -c yulgen -a 'generate dictionary completions'\n"
  | .powershell =>
    "Register-ArgumentCompleter -Native -CommandName yulgen -ScriptBlock "
      ++ "\x7b 'generate', 'dictionary', 'completions' \x7d\n"
  | .zsh => "compctl -k '(generate dictionary completions)' yulgen\n"

/-- The counters of a generation, one on a line. -/
def statsText (stats : Generation.Stats) : String :=
  "scopes entered:     " ++ toString stats.scopesEntered ++ "\n"
    ++ "scopes exited:      " ++ toString stats.scopesExited ++ "\n"
    ++ "functions defined:  " ++ toString stats.functionsDefined ++ "\n"
    ++ "calls emitted:      " ++ toString stats.callsEmitted ++ "\n"
    ++ "call fallbacks:     " ++ toString stats.callFallbacks ++ "\n"
    ++ "cases dropped:      " ++ toString stats.casesDropped ++ "\n"
    ++ "statements dropped: " ++ toString stats.statementsDropped ++ "\n"
    ++ "dictionary tokens:  " ++ toString stats.dictionaryTokens ++ "\n"

variable {m : Type → Type} [Monad m]

/-- The settings of a file, or the default ones. -/
def loadSettings (store : FileStore m) : (path : Option String) → m (Except String Settings)
  | none => return .ok {}
  | some path => do
    match ← store.read path with
    | .error fault => return .error ("Error reading generator config " ++ path ++ ": " ++ fault.message)
    | .ok text =>
      match Settings.ofToml text with
      | .error fault =>
        return .error ("Error in " ++ path ++ ": " ++ (Error.config fault.message).message)
      | .ok settings => return .ok settings

/-- The settings with what the arguments say instead. -/
def adjust (arguments : Generate) (settings : Settings) : Settings :=
  { settings with
    inputSize := arguments.inputSize.or settings.inputSize
    typedDeclarations := arguments.typed || settings.typedDeclarations }

/-- Generate Yul for a stored tree under the given settings. -/
def generate (store : FileStore m) (arguments : Generate) (settings : Settings) : m Outcome := do
  match ← store.read arguments.input with
  | .error fault => return .failed ("Error reading " ++ arguments.input ++ ": " ++ fault.message)
  | .ok text =>
    match Corpus.generate settings text with
    | .error error => return .failed ("Error in " ++ arguments.input ++ ": " ++ error.message)
    | .ok generated =>
      let stderr := if arguments.stats then statsText generated.stats else ""
      match arguments.output with
      | none => return { stdout := generated.yul, stderr }
      | some path =>
        match ← store.write path generated.yul with
        | .error fault => return .failed ("Error writing " ++ path ++ ": " ++ fault.message)
        | .ok () =>
          return { stdout := "Generated " ++ arguments.input ++ " -> " ++ path ++ "\n", stderr }

/-- Carry out a command. -/
def execute (store : FileStore m) : Command → m Outcome
  | .generate arguments => do
    match ← loadSettings store arguments.config with
    | .error message => return .failed message
    | .ok settings => generate store arguments (adjust arguments settings)
  | .dictionary config => do
    match ← loadSettings store config with
    | .error message => return .failed message
    | .ok settings => return { stdout := String.join (settings.dictionary.tokens.map (· ++ "\n")) }
  | .completions shell => return { stdout := completionText shell }

/-- Carry out what the arguments ask for. -/
def run (store : FileStore m) (arguments : List String) : m Outcome :=
  match Command.ofArguments arguments with
  | .ok command => execute store command
  | .error .usage => return { status := 2, stderr := usageText }
  | .error .help => return { stdout := usageText }
  | .error .version => return { stdout := "yulgen 0.3.0\n" }

end YulFuzz.CommandLine
