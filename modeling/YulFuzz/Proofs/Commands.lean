/-
Module: YulFuzz.Proofs.Commands
Purpose: What a run of the program leaves behind, on any files whose store keeps the laws of reading and writing.
  A run that fails prints nothing and changes no file, whichever step it fails at; a run of `generate` that does
  not fail delivers the text that the stored tree generates under the settings in force, either on standard output
  or as one file. The settings are loaded before anything else.
Main exports: CommandLine.Loads, CommandLine.LoadFails, CommandLine.InForce, CommandLine.Delivers,
  CommandLine.Generates, CommandLine.AllOrNothing, CommandLine.run_ends, run_all_or_nothing
-/
import Mathlib
import YulFuzz.CommandLine.Run
import YulFuzz.Proofs.Arguments
import YulFuzz.Proofs.Lexical.Refinement

namespace YulFuzz

namespace CommandLine

section

variable {σ : Type} {store : FileStore (StateM σ)} {view : FileView σ} {s after : σ} {arguments : Generate}
  {settings : Settings} {message : String} {α : Type}

/-! ### Loading the settings -/

/-- The settings of the file that is named or, where none is named, the default ones. -/
inductive Loads (view : FileView σ) (s : σ) : (config : Option String) → Settings → Prop where
  | default : Loads view s none {}
  | file {path text : String} {settings : Settings} (read : view.read s path = .ok text)
      (parsed : Settings.ofToml text = .ok settings) : Loads view s (some path) settings

/-- How it is reported that no settings can be loaded. -/
inductive LoadFails (view : FileView σ) (s : σ) : (config : Option String) → (message : String) → Prop where
  | unreadable {path : String} {fault : FileFault} (read : view.read s path = .error fault) :
      LoadFails view s (some path) ("Error reading generator config " ++ path ++ ": " ++ fault.message)
  | invalid {path text : String} {fault : Settings.Fault} (read : view.read s path = .ok text)
      (parsed : Settings.ofToml text = .error fault) :
      LoadFails view s (some path)
        ("Error in " ++ path ++ ": " ++ ("Invalid configuration: " ++ fault.message))

theorem loads_or_fails (view : FileView σ) (s : σ) (config : Option String) :
    (∃ settings, Loads view s config settings) ∨ ∃ message, LoadFails view s config message := by
  cases config with
  | none => exact .inl ⟨_, .default⟩
  | some path =>
      cases read : view.read s path with
      | error fault => exact .inr ⟨_, .unreadable read⟩
      | ok text =>
          cases parsed : Settings.ofToml text with
          | error fault => exact .inr ⟨_, .invalid read parsed⟩
          | ok settings => exact .inl ⟨_, .file read parsed⟩

theorem Loads.not_fails {config : Option String} (loads : Loads view s config settings) :
    ¬ LoadFails view s config message := by
  intro fails
  cases loads with
  | default => cases fails
  | file read parsed =>
      cases fails with
      | unreadable unreadable => cases read.symm.trans unreadable
      | invalid again invalid =>
          obtain rfl := Except.ok.inj (read.symm.trans again)
          cases parsed.symm.trans invalid

theorem Loads.unique {config : Option String} {other : Settings} (loads : Loads view s config settings)
    (again : Loads view s config other) : settings = other := by
  cases loads with
  | default =>
      cases again
      rfl
  | file read parsed =>
      cases again with
      | file readAgain parsedAgain =>
          obtain rfl := Except.ok.inj (read.symm.trans readAgain)
          exact Except.ok.inj (parsed.symm.trans parsedAgain)

theorem LoadFails.unique {config : Option String} {other : String} (fails : LoadFails view s config message)
    (again : LoadFails view s config other) : message = other := by
  cases fails with
  | unreadable read =>
      cases again with
      | unreadable unreadable =>
          obtain rfl := Except.error.inj (read.symm.trans unreadable)
          rfl
      | invalid readable => cases read.symm.trans readable
  | invalid read parsed =>
      cases again with
      | unreadable unreadable => cases read.symm.trans unreadable
      | invalid readable parsedAgain =>
          obtain rfl := Except.ok.inj (read.symm.trans readable)
          obtain rfl := Except.error.inj (parsed.symm.trans parsedAgain)
          rfl

section

variable (lawful : store.Lawful view)
include lawful

/-- A file is read without changing any. -/
theorem run_read (path : String) (next : Except FileFault String → StateM σ α) (s : σ) :
    (store.read path >>= next).run s = (next (view.read s path)).run s := by
  rw [StateT.run_bind, lawful.read]
  rfl

theorem loadSettings_of_loads {config : Option String} (loads : Loads view s config settings) :
    (loadSettings store config).run s = (.ok settings, s) := by
  cases loads with
  | default => rfl
  | file read parsed =>
      rw [loadSettings, run_read lawful, read]
      dsimp only
      rw [parsed]
      rfl

theorem loadSettings_of_fails {config : Option String} (fails : LoadFails view s config message) :
    (loadSettings store config).run s = (.error message, s) := by
  cases fails with
  | unreadable read =>
      rw [loadSettings, run_read lawful, read]
      rfl
  | invalid read parsed =>
      rw [loadSettings, run_read lawful, read]
      dsimp only
      rw [parsed]
      rfl

end

/-! ### Generating -/

/-- The settings in force for a generation are those loaded, but for what the arguments say instead: a size of the
    input, and that declarations are typed. -/
def InForce (view : FileView σ) (s : σ) (arguments : Generate) (settings : Settings) : Prop :=
  ∃ given, Loads view s arguments.config given ∧ settings.dictionary = given.dictionary ∧
    settings.inputSize = arguments.inputSize.or given.inputSize ∧
    (settings.typedDeclarations = true ↔ arguments.typed = true ∨ given.typedDeclarations = true)

theorem inForce_adjust {given : Settings} (loads : Loads view s arguments.config given) :
    InForce view s arguments (adjust arguments given) :=
  ⟨given, loads, rfl, rfl, by rw [adjust, Bool.or_eq_true]⟩

/-- The counters that are reported, each behind its name. -/
def reported (stats : Generation.Stats) : List (String × Nat) :=
  [("scopes entered:     ", stats.scopesEntered),
    ("scopes exited:      ", stats.scopesExited),
    ("functions defined:  ", stats.functionsDefined),
    ("calls emitted:      ", stats.callsEmitted),
    ("call fallbacks:     ", stats.callFallbacks),
    ("cases dropped:      ", stats.casesDropped),
    ("statements dropped: ", stats.statementsDropped),
    ("dictionary tokens:  ", stats.dictionaryTokens)]

/-- The line of one counter. -/
def reportLine (counter : String × Nat) : String := counter.1 ++ toString counter.2 ++ "\n"

theorem statsText_eq (stats : Generation.Stats) :
    statsText stats = String.join ((reported stats).map reportLine) := by
  unfold statsText
  simp only [reported, List.map_cons, List.map_nil, String.join_cons, String.join_nil, reportLine,
    String.append_empty, String.append_assoc]

/-- How the text that is generated is delivered: where no output is named, as the whole of standard output, and else
    as the whole of the file that is named, which a line on standard output says. -/
inductive Delivers (view : FileView σ) (s : σ) (arguments : Generate) (yul : String) :
    (stdout : String) → (after : σ) → Prop where
  | printed (noOutput : arguments.output = none) : Delivers view s arguments yul yul s
  | written {path : String} {file : view.File} {after : σ} (output : arguments.output = some path)
      (replaced : view.Replaced s path yul file after) :
      Delivers view s arguments yul ("Generated " ++ arguments.input ++ " -> " ++ path ++ "\n") after

/-- A finished generation: the input stores a program, and what it generates under the settings in force is
    delivered. Where the settings have no input size, the size of the input in bytes is used. On request all
    counters of the generation are reported. -/
inductive Generates (view : FileView σ) (s : σ) (arguments : Generate) : Outcome → σ → Prop where
  | delivered {settings : Settings} {text stdout : String} {program : Tree.Program} {generated : Generation}
      {after : σ} (inForce : InForce view s arguments settings)
      (read : view.read s arguments.input = .ok text) (decoded : Tree.Program.ofText text = .ok program)
      (library : Corpus.generate settings text = .ok generated)
      (sized : program.generate { settings with
        inputSize := some (settings.inputSize.getD (UInt64.ofNat text.utf8ByteSize)) } = .ok generated)
      (delivers : Delivers view s arguments generated.yul stdout after) :
      Generates view s arguments
        { status := 0
          stdout
          stderr := if arguments.stats then String.join ((reported generated.stats).map reportLine) else "" }
        after

/-- There is a file for what is generated, if it is to be written. -/
def Writable (view : FileView σ) (s : σ) (arguments : Generate) : Prop :=
  ∀ path, arguments.output = some path → ∃ file, view.target s path = .ok file

/-- There is a program to generate from, and its text can be written where it is to be written. -/
structure Ready (view : FileView σ) (s : σ) (arguments : Generate) : Prop where
  stored : ∃ text program, view.read s arguments.input = .ok text ∧ Tree.Program.ofText text = .ok program
  writable : Writable view s arguments

/-- Every stored program is generated. -/
theorem exists_generate {text : String} {program : Tree.Program} (settings : Settings)
    (decoded : Tree.Program.ofText text = .ok program) : ∃ generated,
      Corpus.generate settings text = .ok generated ∧
      program.generate { settings with
        inputSize := some (settings.inputSize.getD (UInt64.ofNat text.utf8ByteSize)) } = .ok generated := by
  obtain ⟨generated, made, -⟩ := Lexical.exists_generation
    { settings with inputSize := some (settings.inputSize.getD (UInt64.ofNat text.utf8ByteSize)) } program
  refine ⟨generated, ?_, made⟩
  have sized : settings.withDefaultSize text.utf8ByteSize =
      { settings with inputSize := some (settings.inputSize.getD (UInt64.ofNat text.utf8ByteSize)) } := by
    unfold Settings.withDefaultSize
    cases settings.inputSize <;> rfl
  unfold Corpus.generate
  rw [decoded]
  change Generation.ofWalk (program.generate (settings.withDefaultSize text.utf8ByteSize)) = _
  rw [sized, made]
  rfl

section

variable (lawful : store.Lawful view)
include lawful

/-- What is generated is delivered where it can be written, and else nothing is. -/
theorem generate_delivers {text : String} {generated : Generation} (read : view.read s arguments.input = .ok text)
    (library : Corpus.generate settings text = .ok generated) :
    (∃ message, (generate store arguments settings).run s = (.failed message, s) ∧ ¬ Writable view s arguments) ∨
    ∃ stdout after, (generate store arguments settings).run s =
        ({ stdout, stderr := if arguments.stats then statsText generated.stats else "" }, after) ∧
      Writable view s arguments ∧ Delivers view s arguments generated.yul stdout after := by
  rw [generate, run_read lawful, read]
  dsimp only
  rw [library]
  dsimp only
  cases output : arguments.output with
  | none =>
      have writable : Writable view s arguments := by
        intro path named
        cases output.symm.trans named
      exact .inr ⟨_, _, rfl, writable, .printed output⟩
  | some path =>
      dsimp only
      rw [StateT.run_bind]
      cases leads : view.target s path with
      | error fault =>
          rw [lawful.refuse s path generated.yul fault leads]
          refine .inl ⟨_, rfl, fun writable => ?_⟩
          obtain ⟨file, found⟩ := writable path output
          cases leads.symm.trans found
      | ok file =>
          obtain ⟨after, wrote, replaced⟩ := lawful.write s path generated.yul file leads
          have writable : Writable view s arguments := by
            intro other named
            obtain rfl := Option.some.inj (output.symm.trans named)
            exact ⟨file, leads⟩
          rw [wrote]
          exact .inr ⟨_, _, rfl, writable, .written output replaced⟩

/-- A generation fails with a message, or it is ready and delivers. -/
theorem generate_ends {given : Settings} (loads : Loads view s arguments.config given) :
    (∃ message, (generate store arguments (adjust arguments given)).run s = (.failed message, s) ∧
      ¬ Ready view s arguments) ∨
    ∃ outcome after, (generate store arguments (adjust arguments given)).run s = (outcome, after) ∧
      Ready view s arguments ∧ Generates view s arguments outcome after := by
  cases read : view.read s arguments.input with
  | error fault =>
      rw [generate, run_read lawful, read]
      refine .inl ⟨_, rfl, fun ready => ?_⟩
      obtain ⟨text, program, found, -⟩ := ready.stored
      cases read.symm.trans found
  | ok text =>
      cases decoded : Tree.Program.ofText text with
      | error error =>
          have failed : Corpus.generate (adjust arguments given) text = .error error := by
            rw [Corpus.generate, decoded]
            rfl
          rw [generate, run_read lawful, read]
          dsimp only
          rw [failed]
          refine .inl ⟨_, rfl, fun ready => ?_⟩
          obtain ⟨other, program, found, stored⟩ := ready.stored
          obtain rfl := Except.ok.inj (read.symm.trans found)
          cases decoded.symm.trans stored
      | ok program =>
          obtain ⟨generated, library, sized⟩ := exists_generate (adjust arguments given) decoded
          obtain ⟨message, ran, unwritable⟩ | ⟨stdout, after, ran, writable, delivers⟩ :=
            generate_delivers lawful read library
          · exact .inl ⟨message, ran, fun ready => unwritable ready.writable⟩
          · rw [statsText_eq] at ran
            exact .inr ⟨_, after, ran, ⟨⟨text, program, read, decoded⟩, writable⟩,
              .delivered (inForce_adjust loads) read decoded library sized delivers⟩

end

/-! ### Whole runs -/

/-- The file of settings that a command names. -/
def Command.config? : Command → Option String
  | .generate arguments => arguments.config
  | .dictionary config => config
  | .completions _ => none

/-- What a run with the given arguments leaves behind. -/
structure AllOrNothing (view : FileView σ) (args : List String) (s : σ) (outcome : Outcome) (after : σ) :
    Prop where
  /-- A run that fails leaves nothing but its message. -/
  failed : outcome.status ≠ 0 → outcome.stdout = "" ∧ after = s
  /-- A generation that does not fail, and that is no request for help, does what its arguments say. -/
  generated : ∀ rest, args = "generate" :: rest →
    (∀ stop, Command.ofArguments args = .error stop → stop = .usage) → outcome.status = 0 →
    ∃ arguments parts, Spells rest parts ∧ arguments.SaidBy parts ∧ Generates view s arguments outcome after
  /-- A generation does not fail unless it has to. -/
  succeeds : ∀ rest arguments parts, args = "generate" :: rest → Spells rest parts → arguments.SaidBy parts →
    (outcome.status = 0 ↔ (∃ settings, Loads view s arguments.config settings) ∧ Ready view s arguments)
  /-- The tokens of the dictionary stand on a line each. -/
  listed : ∀ config settings, Command.ofArguments args = .ok (.dictionary config) → Loads view s config settings →
    outcome.status = 0 ∧ outcome.stdout = String.join (settings.dictionary.tokens.map (· ++ "\n")) ∧ after = s
  /-- Settings that cannot be loaded are reported, whatever else is wrong. -/
  settingsFirst : ∀ command message, Command.ofArguments args = .ok command →
    LoadFails view s command.config? message → outcome = .failed message

theorem status_failed (message : String) : (Outcome.failed message).status ≠ 0 :=
  (by decide : (1 : UInt32) ≠ 0)

section

variable (lawful : store.Lawful view)
include lawful

/-- No command gets further than settings that cannot be loaded. -/
theorem execute_of_fails {command : Command} (fails : LoadFails view s command.config? message) :
    (execute store command).run s = (.failed message, s) := by
  cases command with
  | generate arguments =>
      rw [Command.config?] at fails
      rw [execute, StateT.run_bind, loadSettings_of_fails lawful fails]
      rfl
  | dictionary config =>
      rw [Command.config?] at fails
      rw [execute, StateT.run_bind, loadSettings_of_fails lawful fails]
      rfl
  | completions shell => cases fails

theorem execute_generate {given : Settings} (loads : Loads view s arguments.config given) :
    (execute store (.generate arguments)).run s =
      (generate store arguments (adjust arguments given)).run s := by
  rw [execute, StateT.run_bind, loadSettings_of_loads lawful loads]
  rfl

theorem execute_dictionary {config : Option String} (loads : Loads view s config settings) :
    (execute store (.dictionary config)).run s =
      ({ stdout := String.join (settings.dictionary.tokens.map (· ++ "\n")) }, s) := by
  rw [execute, StateT.run_bind, loadSettings_of_loads lawful loads]
  rfl

end

section

variable {args : List String} {outcome : Outcome} {command : Command} {shell : Shell}

theorem ofArguments_of_said {rest : List String} {parts : List Part} (same : args = "generate" :: rest)
    (spells : Spells rest parts) (said : arguments.SaidBy parts) :
    Command.ofArguments args = .ok (.generate arguments) := by
  rw [same]
  exact ofArguments_generate_iff.2 ⟨arguments, parts, rfl, spells, said⟩

/-- Where nothing is to be done, nothing is. -/
theorem allOrNothing_of_stop {stop : Stop} (asked : Command.ofArguments args = .error stop)
    (silent : outcome.status ≠ 0 → outcome.stdout = "") (wrong : stop = .usage → outcome.status ≠ 0) :
    AllOrNothing view args s outcome s where
  failed status := ⟨silent status, rfl⟩
  generated _ _ noRequest status := absurd status (wrong (noRequest stop asked))
  succeeds _ _ _ same spells said := nomatch asked.symm.trans (ofArguments_of_said same spells said)
  listed _ _ other := nomatch asked.symm.trans other
  settingsFirst _ _ other := nomatch asked.symm.trans other

theorem allOrNothing_of_fails (asked : Command.ofArguments args = .ok command)
    (fails : LoadFails view s command.config? message) : AllOrNothing view args s (.failed message) s where
  failed _ := ⟨rfl, rfl⟩
  generated _ _ _ status := absurd status (status_failed message)
  succeeds rest arguments parts same spells said := by
    obtain rfl := Except.ok.inj (asked.symm.trans (ofArguments_of_said same spells said))
    refine ⟨fun status => absurd status (status_failed message), ?_⟩
    rintro ⟨⟨settings, loads⟩, -⟩
    exact absurd fails loads.not_fails
  listed config settings other loads := by
    obtain rfl := Except.ok.inj (asked.symm.trans other)
    exact absurd fails loads.not_fails
  settingsFirst other text again failsAgain := by
    obtain rfl := Except.ok.inj (asked.symm.trans again)
    rw [fails.unique failsAgain]

theorem allOrNothing_of_unready (asked : Command.ofArguments args = .ok (.generate arguments))
    (loads : Loads view s arguments.config settings) (unready : ¬ Ready view s arguments) (message : String) :
    AllOrNothing view args s (.failed message) s where
  failed _ := ⟨rfl, rfl⟩
  generated _ _ _ status := absurd status (status_failed message)
  succeeds rest other parts same spells said := by
    obtain rfl := Command.generate.inj (Except.ok.inj (asked.symm.trans (ofArguments_of_said same spells said)))
    exact ⟨fun status => absurd status (status_failed message), fun ready => absurd ready.2 unready⟩
  listed _ _ other := nomatch asked.symm.trans other
  settingsFirst other text again fails := by
    obtain rfl := Except.ok.inj (asked.symm.trans again)
    exact absurd fails loads.not_fails

theorem Generates.status_eq (generates : Generates view s arguments outcome after) : outcome.status = 0 := by
  cases generates
  rfl

theorem allOrNothing_of_generates (asked : Command.ofArguments args = .ok (.generate arguments))
    (loads : Loads view s arguments.config settings) (ready : Ready view s arguments)
    (generates : Generates view s arguments outcome after) : AllOrNothing view args s outcome after where
  failed status := absurd generates.status_eq status
  generated rest same _ _ := by
    subst same
    obtain ⟨read, parts, found, spells, said⟩ := ofArguments_generate_iff.1 asked
    obtain rfl := Command.generate.inj found
    exact ⟨arguments, parts, spells, said, generates⟩
  succeeds rest other parts same spells said := by
    obtain rfl := Command.generate.inj (Except.ok.inj (asked.symm.trans (ofArguments_of_said same spells said)))
    exact ⟨fun _ => ⟨⟨settings, loads⟩, ready⟩, fun _ => generates.status_eq⟩
  listed _ _ other := nomatch asked.symm.trans other
  settingsFirst other text again fails := by
    obtain rfl := Except.ok.inj (asked.symm.trans again)
    exact absurd fails loads.not_fails

theorem allOrNothing_of_dictionary {config : Option String}
    (asked : Command.ofArguments args = .ok (.dictionary config)) (loads : Loads view s config settings) :
    AllOrNothing view args s { stdout := String.join (settings.dictionary.tokens.map (· ++ "\n")) } s where
  failed status := absurd rfl status
  generated rest same _ _ := by
    subst same
    obtain ⟨_, _, found, -⟩ := ofArguments_generate_iff.1 asked
    cases found
  succeeds _ _ _ same spells said := nomatch asked.symm.trans (ofArguments_of_said same spells said)
  listed named found other loadsAgain := by
    obtain rfl := Command.dictionary.inj (Except.ok.inj (asked.symm.trans other))
    rw [loads.unique loadsAgain]
    exact ⟨rfl, rfl, rfl⟩
  settingsFirst other text again fails := by
    obtain rfl := Except.ok.inj (asked.symm.trans again)
    exact absurd fails loads.not_fails

theorem allOrNothing_of_completions (asked : Command.ofArguments args = .ok (.completions shell)) :
    AllOrNothing view args s { stdout := completionText shell } s where
  failed status := absurd rfl status
  generated rest same _ _ := by
    subst same
    obtain ⟨_, _, found, -⟩ := ofArguments_generate_iff.1 asked
    cases found
  succeeds _ _ _ same spells said := nomatch asked.symm.trans (ofArguments_of_said same spells said)
  listed _ _ other := nomatch asked.symm.trans other
  settingsFirst other text again fails := by
    obtain rfl := Except.ok.inj (asked.symm.trans again)
    cases fails

end

/-- Every run on lawful files ends, and leaves behind all that it is asked for or nothing but a message. -/
theorem run_ends (lawful : store.Lawful view) (args : List String) (s : σ) :
    ∃ outcome after, (run store args).run s = (outcome, after) ∧ AllOrNothing view args s outcome after := by
  unfold run
  cases asked : Command.ofArguments args with
  | error stop =>
      cases stop with
      | usage =>
          exact ⟨_, _, rfl, allOrNothing_of_stop asked (fun _ => rfl) fun _ => (by decide : (2 : UInt32) ≠ 0)⟩
      | help => exact ⟨_, _, rfl, allOrNothing_of_stop asked (fun status => absurd rfl status) nofun⟩
      | version => exact ⟨_, _, rfl, allOrNothing_of_stop asked (fun status => absurd rfl status) nofun⟩
  | ok command =>
      dsimp only
      obtain ⟨settings, loads⟩ | ⟨message, fails⟩ := loads_or_fails view s command.config?
      · cases command with
        | generate arguments =>
            rw [execute_generate lawful loads]
            obtain ⟨message, ran, unready⟩ | ⟨outcome, after, ran, ready, generates⟩ := generate_ends lawful loads
            · exact ⟨_, _, ran, allOrNothing_of_unready asked loads unready message⟩
            · exact ⟨_, _, ran, allOrNothing_of_generates asked loads ready generates⟩
        | dictionary config =>
            exact ⟨_, _, execute_dictionary lawful loads, allOrNothing_of_dictionary asked loads⟩
        | completions shell => exact ⟨_, _, rfl, allOrNothing_of_completions asked⟩
      · exact ⟨_, _, execute_of_fails lawful fails, allOrNothing_of_fails asked fails⟩

end

/-- Every run on files that keep the laws of reading and writing ends, and leaves behind all that it is asked for or
    nothing but a message. Those of a directory keep them. -/
theorem run_all_or_nothing (args : List String) :
    (∀ {σ : Type} {store : FileStore (StateM σ)} {view : FileView σ}, store.Lawful view → ∀ s : σ,
      ∃ outcome after, (run store args).run s = (outcome, after) ∧ AllOrNothing view args s outcome after) ∧
    ∀ files : Directory, ∃ outcome after, (run Directory.store args).run files = (outcome, after) ∧
      AllOrNothing Directory.view args files outcome after :=
  ⟨fun lawful s => run_ends lawful args s, fun files => run_ends Directory.store_lawful args files⟩

/-- The output may be the input: the tree is replaced by its program, and the other file is kept. -/
theorem input_replaced :
    ∃ after generated,
      (run Directory.store ["generate", "t", "-o", "t", "--input-size", "7"]).run
        [("t", "\x7b\"block\":\x7b\x7d\x7d"), ("u", "kept")] =
          ({ stdout := "Generated t -> t\n" }, after) ∧
      Corpus.generate { inputSize := some 7 } "\x7b\"block\":\x7b\x7d\x7d" = .ok generated ∧
      after.read "t" = .ok generated.yul ∧ after.lookup "u" = some "kept" := by
  obtain ⟨outcome, after, ran, whole⟩ :=
    (run_all_or_nothing ["generate", "t", "-o", "t", "--input-size", "7"]).1 Directory.store_lawful
      [("t", "\x7b\"block\":\x7b\x7d\x7d"), ("u", "kept")]
  have asked : Command.ofArguments ["generate", "t", "-o", "t", "--input-size", "7"] =
      .ok (.generate { input := "t", output := some "t", inputSize := some 7 }) := by cbv
  have ready : Ready Directory.view [("t", "\x7b\"block\":\x7b\x7d\x7d"), ("u", "kept")]
      { input := "t", output := some "t", inputSize := some 7 } := by
    refine ⟨⟨"\x7b\"block\":\x7b\x7d\x7d", ⟨[]⟩, by cbv, by cbv⟩, ?_⟩
    rintro path same
    obtain rfl := Option.some.inj same
    exact ⟨"t", by cbv⟩
  obtain ⟨arguments, parts, found, spells, said⟩ := ofArguments_generate_iff.1 asked
  obtain rfl := Command.generate.inj found
  have status := (whole.succeeds _ _ parts rfl spells said).2 ⟨⟨_, .default⟩, ready⟩
  have noRequest : ∀ stop, Command.ofArguments ["generate", "t", "-o", "t", "--input-size", "7"] = .error stop →
      stop = .usage := by
    intro stop other
    cases asked.symm.trans other
  obtain ⟨arguments, parts, spells, said, generates⟩ := whole.generated _ rfl noRequest status
  obtain rfl := Command.generate.inj (Except.ok.inj (asked.symm.trans (ofArguments_of_said rfl spells said)))
  obtain @⟨settings, text, stdout, program, generated, after, inForce, read, -, library, -, delivers⟩ := generates
  obtain rfl : text = "\x7b\"block\":\x7b\x7d\x7d" := Except.ok.inj (read.symm.trans (by cbv))
  obtain rfl : settings = { inputSize := some 7 } := by
    obtain ⟨given, loads, dictionary, size, typed⟩ := inForce
    obtain rfl := loads.unique .default
    cases settings
    simp_all
  cases delivers with
  | printed noOutput => cases noOutput
  | @written path file after output replaced =>
      obtain rfl := Option.some.inj output
      obtain rfl : file = "t" := Except.ok.inj (replaced.leads.symm.trans (by cbv))
      exact ⟨after, generated, ran, library, replaced.read,
        replaced.others "u" (show ("u" : String) ≠ "t" by decide)⟩

end CommandLine

end YulFuzz
