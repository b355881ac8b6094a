/-
Module: YulFuzz.Proofs.Arguments
Purpose: What a command line of `generate` says. It is written from parts, which are operands, switches and settings
  with a value, in any order; behind two dashes there are operands only. It is read exactly if the parts are one
  operand and each switch and setting at most once, and what is read is what these say.
Main exports: CommandLine.Part, CommandLine.Part.Writes, CommandLine.Spells, CommandLine.Generate.SaidBy,
  CommandLine.ofArguments_generate_iff
-/
import Mathlib.Data.List.Basic
import YulFuzz.CommandLine.Arguments
import YulFuzz.Proofs.Files

namespace YulFuzz.CommandLine

/-! ### Parts of a command line -/

/-- The name of a setting. -/
def Key.name : Key → String
  | .output => "output"
  | .config => "config"
  | .inputSize => "input-size"

/-- The long form of a setting. -/
def Key.long (key : Key) : String := "--" ++ key.name

/-- A part of a command line. -/
inductive Part where
  | operand (text : String)
  | switch (switch : Switch)
  | setting (key : Key) (value : String)
deriving DecidableEq

/-- How a part is written. A value that stands in an argument of its own must not look like a switch or a
    setting. -/
inductive Part.Writes : Part → List String → Prop where
  | operand {text : String} (value : isValue text) : Writes (.operand text) [text]
  | typed : Writes (.switch .typed) ["--typed"]
  | stats : Writes (.switch .stats) ["--stats"]
  | attached (key : Key) (value : String) : Writes (.setting key value) [key.long ++ "=" ++ value]
  | apart (key : Key) {value : String} (plain : isValue value) : Writes (.setting key value) [key.long, value]
  | short {value : String} (plain : isValue value) : Writes (.setting .output value) ["-o", value]
  | shortSign (value : String) : Writes (.setting .output value) ["-o=" ++ value]
  | shortAttached {value : String} (present : value ≠ "") (noSign : ∀ rest, value.toList ≠ '=' :: rest) :
      Writes (.setting .output value) ["-o" ++ value]

/-- Arguments that are written from parts. Behind two dashes there are operands only, however they look. -/
inductive Spells : (arguments : List String) → (parts : List Part) → Prop where
  | nil : Spells [] []
  | behind (texts : List String) : Spells ("--" :: texts) (texts.map .operand)
  | part {part : Part} {written rest : List String} {parts : List Part} (writes : part.Writes written)
      (others : Spells rest parts) : Spells (written ++ rest) (part :: parts)

/-- The operands among parts. -/
def operands (parts : List Part) : List String :=
  parts.filterMap fun
    | .operand text => some text
    | _ => none

/-- The values of a setting among parts. -/
def values (key : Key) (parts : List Part) : List String :=
  parts.filterMap fun
    | .setting other value => if other = key then some value else none
    | _ => none

section

variable {parts : List Part} {key other : Key} {text value : String} {switch : Switch}

@[simp]
theorem operands_nil : operands [] = [] := rfl

@[simp]
theorem operands_operand : operands (.operand text :: parts) = text :: operands parts := rfl

@[simp]
theorem operands_switch : operands (.switch switch :: parts) = operands parts := rfl

@[simp]
theorem operands_setting : operands (.setting key value :: parts) = operands parts := rfl

@[simp]
theorem values_nil : values key [] = [] := rfl

@[simp]
theorem values_operand : values key (.operand text :: parts) = values key parts := rfl

@[simp]
theorem values_switch : values key (.switch switch :: parts) = values key parts := rfl

@[simp]
theorem values_setting : values key (.setting other value :: parts) =
    if other = key then value :: values key parts else values key parts := by
  by_cases same : other = key <;> simp [values, same]

end

/-- What is found is what the parts say: nothing is given twice, there is no other operand, and no path is empty. -/
structure Generate.SaidBy (arguments : Generate) (parts : List Part) : Prop where
  input : operands parts = [arguments.input]
  output : values .output parts = arguments.output.toList
  config : values .config parts = arguments.config.toList
  inputSize : (values .inputSize parts).map uint64? = arguments.inputSize.toList.map some
  typed : parts.count (.switch .typed) = arguments.typed.toNat
  stats : parts.count (.switch .stats) = arguments.stats.toNat
  paths : .operand "" ∉ parts ∧ .setting .output "" ∉ parts ∧ .setting .config "" ∉ parts

/-! ### Single arguments -/

/-- An argument of a dash and more is no value. -/
theorem isValue_eq_false {text : String} {c : Char} {rest : List Char} (written : text.toList = '-' :: c :: rest) :
    isValue text = false := by
  have starts : text.startsWith "-" = true := by
    rw [String.startsWith_string_iff, written]
    exact ⟨c :: rest, rfl⟩
  have more : text ≠ "-" := by
    rintro rfl
    cases written
  rw [isValue, starts, decide_eq_false more]
  rfl

/-- Name and value of a long argument are what stands around its first sign. -/
theorem eq_of_splitLong {name : List Char} {bare : String} {attached : Option String}
    (split : splitLong name = (bare, attached)) :
    name = bare.toList ++ attached.elim [] fun value => '=' :: value.toList := by
  unfold splitLong at split
  have whole : name.takeWhile (· ≠ '=') ++ name.dropWhile (· ≠ '=') = name := List.takeWhile_append_dropWhile
  cases rest : name.dropWhile (· ≠ '=') with
  | nil =>
      rw [rest] at split whole
      obtain ⟨rfl, rfl⟩ := Prod.mk.inj split
      rw [String.toList_ofList]
      exact whole.symm
  | cons sign value =>
      have stopped := List.head_dropWhile_not (· ≠ '=') (l := name) (by rw [rest]; exact List.cons_ne_nil _ _)
      simp only [rest, List.head_cons] at stopped
      obtain rfl : sign = '=' := by simpa using stopped
      rw [rest] at split whole
      obtain ⟨rfl, rfl⟩ := Prod.mk.inj split
      rw [String.toList_ofList, Option.elim_some, String.toList_ofList]
      exact whole.symm

/-- How one argument reads, by how it is written. -/
inductive Reads : (text : String) → Argument → Prop where
  | operand {text : String} (plain : isValue text) : Reads text (.operand text)
  | typed : Reads "--typed" (.switch .typed)
  | stats : Reads "--stats" (.switch .stats)
  | apart (key : Key) : Reads key.long (.setting key none)
  | attached (key : Key) (value : String) : Reads (key.long ++ "=" ++ value) (.setting key (some value))
  | short : Reads "-o" (.setting .output none)
  | shortSign (value : String) : Reads ("-o=" ++ value) (.setting .output (some value))
  | shortAttached {value : String} (present : value ≠ "") (noSign : ∀ rest, value.toList ≠ '=' :: rest) :
      Reads ("-o" ++ value) (.setting .output (some value))
  | separator : Reads "--" .separator
  | help (text : String) : Reads text .help
  | unknown (text : String) : Reads text .unknown

theorem reads_long (key : Key) (attached : Option String) :
    Reads (key.long ++ attached.elim "" ("=" ++ ·)) (.setting key attached) := by
  cases attached with
  | none =>
      rw [Option.elim_none, String.append_empty]
      exact .apart key
  | some value =>
      rw [Option.elim_some, ← String.append_assoc]
      exact .attached key value

theorem reads_ofString (text : String) : Reads text (Argument.ofString text) := by
  unfold Argument.ofString
  split
  · exact .operand ‹_›
  · split
    · subst text
      exact .separator
    · split
      · rename_i name written
        have long {bare : String} {attached : Option String} (split : splitLong name = (bare, attached)) :
            text = "--" ++ bare ++ attached.elim "" ("=" ++ ·) := by
          rw [← String.toList_inj, written, eq_of_splitLong split]
          cases attached <;> simp
        split <;> rename_i split
        · rw [long split]
          exact reads_long .output _
        · rw [long split]
          exact reads_long .config _
        · rw [long split]
          exact reads_long .inputSize _
        · rw [long split]
          exact .typed
        · rw [long split]
          exact .stats
        · exact .help _
        · exact .unknown _
      · rename_i written
        obtain rfl : text = "-o" := String.toList_inj.1 written
        exact .short
      · rename_i value written
        obtain rfl : text = "-o=" ++ String.ofList value := by
          rw [← String.toList_inj, written]
          simp
        exact .shortSign _
      · rename_i value present noSign written
        obtain rfl : text = "-o" ++ String.ofList value := by
          rw [← String.toList_inj, written]
          simp
        refine .shortAttached (fun empty => ?_) fun rest signed => ?_
        · exact present (String.ofList_eq_empty_iff.1 empty)
        · rw [String.toList_ofList] at signed
          exact noSign rest signed
      · exact .help _
      · exact .unknown _

theorem splitLong_eq {bare : String} (plain : '=' ∉ bare.toList) (attached : Option String) :
    splitLong (bare.toList ++ attached.elim [] fun value => '=' :: value.toList) = (bare, attached) := by
  have all : ∀ c ∈ bare.toList, decide (c ≠ '=') = true :=
    fun c member => decide_eq_true (ne_of_mem_of_not_mem member plain)
  unfold splitLong
  rw [List.takeWhile_append_of_pos all, List.dropWhile_append_of_pos all]
  cases attached <;> simp

theorem ofString_long (key : Key) (attached : Option String) :
    Argument.ofString (key.long ++ attached.elim "" ("=" ++ ·)) = .setting key attached := by
  have written : (key.long ++ attached.elim "" ("=" ++ ·)).toList =
      '-' :: '-' :: (key.name.toList ++ attached.elim [] fun value => '=' :: value.toList) := by
    cases attached <;> simp [Key.long]
  have named : key.name.toList ≠ [] := by cases key <;> decide
  have more : key.long ++ attached.elim "" ("=" ++ ·) ≠ "--" := by
    intro same
    rw [same] at written
    simp [named] at written
  have plain : '=' ∉ key.name.toList := by cases key <;> decide
  rw [Argument.ofString, isValue_eq_false written, if_neg Bool.false_ne_true, if_neg more, written]
  simp only [splitLong_eq plain]
  cases key <;> rfl

theorem ofString_shortAttached {value : String} (present : value ≠ "") (noSign : ∀ rest, value.toList ≠ '=' :: rest) :
    Argument.ofString ("-o" ++ value) = .setting .output (some value) := by
  have written : ("-o" ++ value).toList = '-' :: 'o' :: value.toList := String.toList_append
  have more : "-o" ++ value ≠ "--" := by
    intro same
    cases (congrArg String.toList same).symm.trans written
  rw [Argument.ofString, isValue_eq_false written, if_neg Bool.false_ne_true, if_neg more, written]
  have tail {c : Char} {rest : List Char} (same : '-' :: 'o' :: value.toList = '-' :: c :: rest) :
      value.toList = rest := (List.cons.inj (List.cons.inj same).2).2
  split
  case h_1 =>
    rename_i same
    cases same
  case h_2 =>
    rename_i same
    exact absurd (String.toList_eq_nil_iff.1 (tail same)) present
  case h_3 =>
    rename_i same
    exact absurd (tail same) (noSign _)
  case h_4 =>
    rename_i same
    rw [← tail same, String.ofList_toList]
  case h_5 =>
    rename_i same
    cases same
  case h_6 =>
    rename_i other _
    exact absurd rfl (other _)

theorem ofString_of_reads {text : String} {argument : Argument} (reads : Reads text argument)
    (noHelp : argument ≠ .help) (known : argument ≠ .unknown) : Argument.ofString text = argument := by
  cases reads with
  | operand plain => rw [Argument.ofString, if_pos plain]
  | typed =>
      rw [Argument.ofString, isValue_eq_false rfl]
      rfl
  | stats =>
      rw [Argument.ofString, isValue_eq_false rfl]
      rfl
  | apart key => simpa using ofString_long key none
  | attached key value => simpa [← String.append_assoc] using ofString_long key (some value)
  | short =>
      rw [Argument.ofString, isValue_eq_false rfl]
      rfl
  | shortSign value =>
      have written : ("-o=" ++ value).toList = '-' :: 'o' :: '=' :: value.toList := String.toList_append
      have more : "-o=" ++ value ≠ "--" := by
        intro same
        cases (congrArg String.toList same).symm.trans written
      rw [Argument.ofString, isValue_eq_false written, if_neg Bool.false_ne_true, if_neg more, written]
      simp
  | shortAttached present noSign => exact ofString_shortAttached present noSign
  | separator =>
      rw [Argument.ofString, isValue_eq_false rfl]
      rfl
  | help => exact absurd rfl noHelp
  | unknown => exact absurd rfl known

/-! ### Reading them all -/

/-- What is found in addition by reading parts. -/
@[mk_iff]
structure Found.Extends (found : Found) (parts : List Part) (later : Found) : Prop where
  operand : found.operand.toList ++ operands parts = later.operand.toList
  named : "" ∉ operands parts
  settings : ∀ key, (found.value? key).toList.map some ++ (values key parts).map key.read? =
    (later.value? key).toList.map some
  switches : ∀ switch, (found.given switch).toNat + parts.count (.switch switch) = (later.given switch).toNat

namespace Found

variable {found later last : Found} {part : Part} {parts : List Part} {written rest : List String}

/-- Add a part to what is found. -/
def add (found : Found) : Part → Except Stop Found
  | .operand text => found.addOperand Command.generateGrammar text
  | .switch switch => found.addSwitch switch
  | .setting key value => found.addSetting key value

/-- Nothing else is found than an operand, values and switches. -/
theorem eq_of_same (operand : found.operand = last.operand) (values : ∀ key, found.value? key = last.value? key)
    (switches : ∀ switch, found.given switch = last.given switch) : found = last := by
  obtain ⟨_, _, _, _, _, _⟩ := found
  obtain ⟨_, _, _, _, _, _⟩ := last
  obtain rfl := operand
  obtain rfl := values .output
  obtain rfl := values .config
  obtain rfl := values .inputSize
  obtain rfl := switches .typed
  obtain rfl := switches .stats
  rfl

theorem given_withSwitch (found : Found) (switch other : Switch) :
    (found.withSwitch switch).given other = if switch = other then true else found.given other := by
  cases switch <;> cases other <;> rfl

@[simp]
theorem value?_withSwitch (found : Found) (switch : Switch) (key : Key) :
    (found.withSwitch switch).value? key = found.value? key := by
  cases switch <;> cases key <;> rfl

@[simp]
theorem operand_withSwitch (found : Found) (switch : Switch) :
    (found.withSwitch switch).operand = found.operand := by
  cases switch <;> rfl

@[simp]
theorem value?_withValue_self (found : Found) (key : Key) (value : key.Value) :
    (found.withValue key value).value? key = some value := by
  cases key <;> rfl

theorem value?_withValue_of_ne (found : Found) {key other : Key} (ne : key ≠ other) (value : key.Value) :
    (found.withValue key value).value? other = found.value? other := by
  cases key <;> cases other <;> first | rfl | exact absurd rfl ne

@[simp]
theorem given_withValue (found : Found) (key : Key) (value : key.Value) (switch : Switch) :
    (found.withValue key value).given switch = found.given switch := by
  cases key <;> cases switch <;> rfl

@[simp]
theorem operand_withValue (found : Found) (key : Key) (value : key.Value) :
    (found.withValue key value).operand = found.operand := by
  cases key <;> rfl

theorem extends_nil_iff : found.Extends [] last ↔ found = last := by
  constructor
  · rintro ⟨operand, -, settings, switches⟩
    have same {α : Type} {one other : Option α} (lists : one.toList = other.toList) : one = other := by
      simpa using congrArg List.head? lists
    refine eq_of_same (same (by simpa using operand)) (fun key => same ?_) fun switch => ?_
    · exact List.map_injective_iff.2 (fun _ _ => Option.some.inj) (by simpa using settings key)
    · have counted := switches switch
      cases one : found.given switch <;> cases other : last.given switch <;> simp_all
  · rintro rfl
    constructor <;> simp

/-- What may be given once is not there before it is given. -/
theorem toList_append_cons {α : Type} {one other : Option α} {a : α} {rest : List α} :
    one.toList ++ a :: rest = other.toList ↔ one = none ∧ a :: rest = other.toList := by
  cases one with
  | none => simp
  | some b => cases other <;> simp

theorem map_toList_append_cons {α : Type} {one other : Option α} {a : Option α} {rest : List (Option α)} :
    one.toList.map some ++ a :: rest = other.toList.map some ↔
      one = none ∧ ∃ b, a = some b ∧ some b :: rest = other.toList.map some := by
  cases one with
  | none =>
      cases other with
      | none => simp
      | some c => cases a <;> simp
  | some b => cases other <;> simp

theorem toNat_add_succ {one other : Bool} {count : Nat} :
    one.toNat + (count + 1) = other.toNat ↔ one = false ∧ 1 + count = other.toNat := by
  have least := other.toNat_le
  cases one with
  | false => simp [Nat.add_comm]
  | true => simp; omega

theorem extends_operand_iff {text : String} : found.Extends (.operand text :: parts) last ↔
    found.operand = none ∧ text ≠ "" ∧ { found with operand := some text }.Extends parts last := by
  have settings (key : Key) : { found with operand := some text }.value? key = found.value? key := by
    cases key <;> rfl
  have switches (switch : Switch) : { found with operand := some text }.given switch = found.given switch := by
    cases switch <;> rfl
  simp only [extends_iff, operands_operand, toList_append_cons, values_operand, ne_eq, reduceCtorEq,
    not_false_eq_true, List.count_cons_of_ne, List.mem_cons, not_or, settings, switches, Option.toList_some,
    List.cons_append, List.nil_append, @eq_comm _ ""]
  tauto

/-- What is asked of all, and of one of them with something more. -/
theorem forall_iff_and_forall {ι : Type} {P P' : ι → Prop} {more : Prop} (one : ι)
    (here : P one ↔ more ∧ P' one) (others : ∀ other, one ≠ other → (P other ↔ P' other)) :
    (∀ i, P i) ↔ more ∧ ∀ i, P' i := by
  constructor
  · intro all
    refine ⟨(here.1 (all one)).1, fun other => ?_⟩
    by_cases same : one = other
    · exact same ▸ (here.1 (all one)).2
    · exact (others other same).1 (all other)
  · rintro ⟨holds, all⟩ other
    by_cases same : one = other
    · exact same ▸ here.2 ⟨holds, all one⟩
    · exact (others other same).2 (all other)

/-- A switch is not there before it is given. -/
theorem extends_switch_iff {switch : Switch} : found.Extends (.switch switch :: parts) last ↔
    found.given switch = false ∧ (found.withSwitch switch).Extends parts last := by
  have switches : (∀ other, (found.given other).toNat + (Part.switch switch :: parts).count (.switch other) =
        (last.given other).toNat) ↔
      found.given switch = false ∧ ∀ other, ((found.withSwitch switch).given other).toNat +
        parts.count (.switch other) = (last.given other).toNat := by
    apply forall_iff_and_forall switch
    · rw [List.count_cons_self, toNat_add_succ, given_withSwitch, if_pos rfl, Bool.toNat_true]
    · intro other ne
      rw [given_withSwitch, if_neg ne, List.count_cons_of_ne (by simpa using ne)]
  simp only [extends_iff, operands_switch, values_switch, operand_withSwitch, value?_withSwitch, switches]
  tauto

/-- A setting is not there before it is given. -/
theorem extends_setting_iff {key : Key} {text : String} : found.Extends (.setting key text :: parts) last ↔
    found.value? key = none ∧ ∃ value, key.read? text = some value ∧
      (found.withValue key value).Extends parts last := by
  have here : (found.value? key).toList.map some ++ (values key (.setting key text :: parts)).map key.read? =
        (last.value? key).toList.map some ↔
      found.value? key = none ∧ ∃ value, key.read? text = some value ∧
        some value :: (values key parts).map key.read? = (last.value? key).toList.map some := by
    rw [values_setting, if_pos rfl, List.map_cons, map_toList_append_cons]
  cases read : key.read? text with
  | none =>
      simp only [reduceCtorEq, false_and, exists_false, and_false, iff_false]
      intro extends_
      obtain ⟨-, value, given, -⟩ := here.1 (extends_.settings key)
      cases read.symm.trans given
  | some value =>
      have settings : (∀ other, (found.value? other).toList.map some ++
            (values other (.setting key text :: parts)).map other.read? = (last.value? other).toList.map some) ↔
          found.value? key = none ∧ ∀ other, ((found.withValue key value).value? other).toList.map some ++
            (values other parts).map other.read? = (last.value? other).toList.map some := by
        apply forall_iff_and_forall key
        · rw [here, read, value?_withValue_self]
          simp
        · intro other ne
          rw [value?_withValue_of_ne found ne, values_setting, if_neg ne]
      simp only [extends_iff, operands_setting, operand_withValue, given_withValue, settings, ne_eq, reduceCtorEq,
        not_false_eq_true, List.count_cons_of_ne, Option.some.injEq, exists_eq_left']
      tauto

/-- Adding a part is the first step of adding it and others. -/
theorem extends_cons_iff : found.Extends (part :: parts) last ↔
    ∃ next, found.add part = .ok next ∧ next.Extends parts last := by
  cases part with
  | operand text =>
      rw [extends_operand_iff, add, addOperand]
      cases found.operand <;> by_cases path : text = "" <;> simp [Command.generateGrammar, path]
  | switch switch =>
      rw [extends_switch_iff, add, addSwitch]
      cases found.given switch <;> simp
  | setting key text =>
      rw [extends_setting_iff, add, addSetting]
      cases found.value? key <;> cases key.read? text <;> simp

/-- Parts are added one after the other exactly if they are found in addition. -/
theorem foldlM_add_eq_ok_iff : parts.foldlM add found = .ok last ↔ found.Extends parts last := by
  induction parts generalizing found with
  | nil =>
      rw [extends_nil_iff, List.foldlM_nil]
      exact iff_of_eq (Except.ok.injEq _ _)
  | cons part rest ih =>
      rw [extends_cons_iff, List.foldlM_cons]
      constructor
      · intro added
        obtain ⟨next, first, added⟩ := exists_of_bind_eq_ok added
        exact ⟨next, first, ih.1 added⟩
      · rintro ⟨next, first, others⟩
        rw [first]
        exact ih.2 others

/-- A setting may take the next argument as its value. -/
theorem read_apart {first value : String} {key : Key} (reads : Reads first (.setting key none)) (plain : isValue value)
    (found : Found) (rest : List String) :
    read Command.generateGrammar none found (first :: value :: rest) =
      found.addSetting key value >>= fun found => read Command.generateGrammar none found rest := by
  have accepted : key ∈ Command.generateGrammar.keys := by cases key <;> decide
  simp only [read, ofString_of_reads reads nofun nofun, if_pos accepted, if_pos plain]

/-- A part is read as a whole. -/
theorem read_written (writes : part.Writes written) (found : Found) (rest : List String) :
    read Command.generateGrammar none found (written ++ rest) =
      found.add part >>= fun found => read Command.generateGrammar none found rest := by
  cases writes with
  | operand plain =>
      rw [List.singleton_append, read, ofString_of_reads (.operand plain) nofun nofun]
      rfl
  | typed =>
      rw [List.singleton_append, read, ofString_of_reads .typed nofun nofun]
      rfl
  | stats =>
      rw [List.singleton_append, read, ofString_of_reads .stats nofun nofun]
      rfl
  | attached key value =>
      rw [List.singleton_append, read, ofString_of_reads (.attached key value) nofun nofun]
      cases key <;> rfl
  | apart key plain => exact read_apart (.apart key) plain found rest
  | short plain => exact read_apart .short plain found rest
  | shortSign value =>
      rw [List.singleton_append, read, ofString_of_reads (.shortSign value) nofun nofun]
      rfl
  | shortAttached present noSign =>
      rw [List.singleton_append, read, ofString_of_reads (.shortAttached present noSign) nofun nofun]
      rfl

/-- Reading arguments adds the parts from which they are written. -/
theorem read_spelled {arguments : List String} (spells : Spells arguments parts) (found : Found) :
    read Command.generateGrammar none found arguments = parts.foldlM add found := by
  induction spells generalizing found with
  | nil => rfl
  | behind texts =>
      rw [read, ofString_of_reads .separator nofun nofun, List.foldlM_map]
      rfl
  | part writes others ih =>
      rw [read_written writes, List.foldlM_cons]
      exact congrArg _ (funext ih)

/-- Arguments that are read begin with a part, or with two dashes. -/
theorem exists_written {first : String} (done : read Command.generateGrammar none found (first :: rest) = .ok last) :
    first = "--" ∨ ∃ (part : Part) (written others : List String),
      part.Writes (first :: written) ∧ rest = written ++ others := by
  rw [read] at done
  have reads := reads_ofString first
  generalize Argument.ofString first = argument at done reads
  cases argument with
  | operand text =>
      cases reads with
      | operand plain => exact .inr ⟨_, [], rest, .operand plain, rfl⟩
  | switch switch =>
      cases reads with
      | typed => exact .inr ⟨_, [], rest, .typed, rfl⟩
      | stats => exact .inr ⟨_, [], rest, .stats, rfl⟩
  | setting key attached =>
      cases attached with
      | some value =>
          cases reads with
          | attached => exact .inr ⟨_, [], rest, .attached key value, rfl⟩
          | shortSign => exact .inr ⟨_, [], rest, .shortSign value, rfl⟩
          | shortAttached present noSign => exact .inr ⟨_, [], rest, .shortAttached present noSign, rfl⟩
      | none =>
          -- The value is the next argument.
          cases rest with
          | nil =>
              dsimp only at done
              split at done <;> cases done
          | cons value others =>
              dsimp only at done
              rw [read] at done
              by_cases plain : isValue value
              · cases reads with
                | apart => exact .inr ⟨_, [value], others, .apart key plain, rfl⟩
                | short => exact .inr ⟨_, [value], others, .short plain, rfl⟩
              · rw [if_neg plain] at done
                split at done <;> cases done
  | separator =>
      cases reads with
      | separator => exact .inl rfl
  | help => cases done
  | unknown => cases done

/-- Arguments that are read are written from parts. -/
theorem exists_spells {arguments : List String} (done : read Command.generateGrammar none found arguments = .ok last) :
    ∃ parts, Spells arguments parts := by
  -- A part may be written in two arguments, so the induction is on their number.
  induction size : arguments.length using Nat.strongRecOn generalizing arguments found with
  | ind size ih =>
      cases arguments with
      | nil => exact ⟨_, .nil⟩
      | cons first rest =>
          obtain rfl | ⟨part, written, others, writes, rfl⟩ := exists_written done
          · exact ⟨_, .behind rest⟩
          · rw [← List.cons_append, read_written writes] at done
            obtain ⟨next, -, done⟩ := exists_of_bind_eq_ok done
            obtain ⟨parts, spells⟩ := ih others.length (by simp at size; omega) done rfl
            exact ⟨_, .part writes spells⟩

theorem read_eq_ok_iff {arguments : List String} : read Command.generateGrammar none found arguments = .ok last ↔
    ∃ parts, Spells arguments parts ∧ found.Extends parts last := by
  constructor
  · intro done
    obtain ⟨parts, spells⟩ := exists_spells done
    rw [read_spelled spells, foldlM_add_eq_ok_iff] at done
    exact ⟨parts, spells, done⟩
  · rintro ⟨parts, spells, adds⟩
    rw [read_spelled spells, foldlM_add_eq_ok_iff]
    exact adds

end Found

/-! ### What is said -/

section

variable {parts : List Part} {key : Key} {text : String} {texts paths : List String} {arguments : Generate}

theorem mem_operands : text ∈ operands parts ↔ .operand text ∈ parts := by
  rw [operands, List.mem_filterMap]
  constructor
  · rintro ⟨part, member, found⟩
    cases part with
    | operand other => exact Option.some.inj found ▸ member
    | switch | setting => cases found
  · exact fun member => ⟨_, member, rfl⟩

theorem mem_values : text ∈ values key parts ↔ .setting key text ∈ parts := by
  rw [values, List.mem_filterMap]
  constructor
  · rintro ⟨part, member, found⟩
    cases part with
    | setting other value =>
        by_cases same : other = key
        · obtain rfl := same
          simp only [if_pos] at found
          exact Option.some.inj found ▸ member
        · simp only [if_neg same, reduceCtorEq] at found
    | operand | switch => cases found
  · exact fun member => ⟨_, member, if_pos rfl⟩

/-- Texts are read as paths unless one of them is empty. -/
theorem map_path_eq_iff :
    texts.map (fun path => if path.isEmpty then none else some path) = paths.map some ↔
      texts = paths ∧ "" ∉ texts := by
  induction texts generalizing paths with
  | nil => cases paths <;> simp
  | cons text rest ih =>
      cases paths with
      | nil => simp
      | cons path others =>
          rw [List.map_cons, List.map_cons, List.cons.injEq, ih, List.cons.injEq, List.mem_cons]
          by_cases empty : text = ""
          · simp [empty]
          · simp [empty, Ne.symm empty, and_assoc]

/-- What has to be found for a generation. -/
def Generate.found (arguments : Generate) : Found :=
  ⟨some arguments.input, arguments.output, arguments.config, arguments.inputSize, arguments.typed, arguments.stats⟩

theorem Generate.saidBy_iff : arguments.SaidBy parts ↔ Found.Extends {} parts arguments.found := by
  constructor
  · rintro ⟨input, output, config, inputSize, typed, stats, noInput, noOutput, noConfig⟩
    constructor
    case operand => exact input
    case named => exact mt mem_operands.1 noInput
    case settings =>
      intro key
      cases key with
      | output => exact map_path_eq_iff.2 ⟨output, mt mem_values.1 noOutput⟩
      | config => exact map_path_eq_iff.2 ⟨config, mt mem_values.1 noConfig⟩
      | inputSize => exact inputSize
    case switches =>
      intro switch
      cases switch with
      | typed => exact (Nat.zero_add _).trans typed
      | stats => exact (Nat.zero_add _).trans stats
  · rintro ⟨operand, named, settings, switches⟩
    obtain ⟨output, noOutput⟩ := map_path_eq_iff.1 (settings .output)
    obtain ⟨config, noConfig⟩ := map_path_eq_iff.1 (settings .config)
    constructor
    case input => exact operand
    case output => exact output
    case config => exact config
    case inputSize => exact settings .inputSize
    case typed => exact (Nat.zero_add _).symm.trans (switches .typed)
    case stats => exact (Nat.zero_add _).symm.trans (switches .stats)
    case paths => exact ⟨mt mem_operands.2 named, mt mem_values.2 noOutput, mt mem_values.2 noConfig⟩

end

/-- What a command line of `generate` asks for is what it is written from. -/
theorem ofArguments_generate_iff {rest : List String} {command : Command} :
    Command.ofArguments ("generate" :: rest) = .ok command ↔
      ∃ arguments parts, command = .generate arguments ∧ Spells rest parts ∧ arguments.SaidBy parts := by
  rw [Command.ofArguments]
  constructor
  · intro read
    obtain ⟨found, done, read⟩ := exists_of_bind_eq_ok read
    obtain ⟨parts, spells, adds⟩ := Found.read_eq_ok_iff.1 done
    obtain ⟨operand, output, config, inputSize, typed, stats⟩ := found
    cases operand with
    | none => cases read
    | some input =>
        obtain rfl := Except.ok.inj read
        exact ⟨_, parts, rfl, spells, Generate.saidBy_iff.2 adds⟩
  · rintro ⟨arguments, parts, rfl, spells, said⟩
    have done : Found.read Command.generateGrammar none {} rest = .ok arguments.found :=
      Found.read_eq_ok_iff.2 ⟨parts, spells, Generate.saidBy_iff.1 said⟩
    rw [done]
    rfl

end YulFuzz.CommandLine
