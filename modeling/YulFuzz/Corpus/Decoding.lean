/-
Module: YulFuzz.Corpus.Decoding
Purpose: Program trees from JSON values. Nodes are records and variants; expressions, literals, lists,
  blocks, counts and targets may be missing from a record, operations, kinds, types, usages and variable
  numbers may not. Each reader is given the number of containers that may still be opened and gives up when
  a further one would be needed; values that are skipped do not count.
Main exports: Corpus.maxNesting, Corpus.program?, Tree.Program.ofJson?
-/
import YulFuzz.Json.Record
import YulFuzz.Tree

namespace YulFuzz.Corpus

open Json (fields? variant?)
open YulFuzz.Tree (Literal Expr Stmt Program CallUsage)

variable {α : Type}

/-- The greatest number of containers that may be open at once while a tree is read. -/
def maxNesting : Nat := 127

/-- A field that may not be missing. -/
def required (read : Json → Option α) (field : Option Json) : Option α := field.bind read

/-- A field that has a default. -/
def optional (default : α) (read : Json → Option α) : Option Json → Option α
  | none => some default
  | some value => read value

/-- A field that has no value where it is missing or null. -/
def nullable (read : Json → Option α) : Option Json → Option (Option α)
  | none | some .null => some none
  | some value => some <$> read value

/-- A natural number below 2 to the 32. -/
def uint32? : Json → Option UInt32
  | .natural value => if value < UInt32.size then some (UInt32.ofNat value) else none
  | _ => none

/-- A natural number below 2 to the 64. -/
def uint64? : Json → Option UInt64
  | .natural value => if value < UInt64.size then some (UInt64.ofNat value) else none
  | _ => none

/-- A string of Unicode text. -/
def text? : Json → Option String
  | .string text => text
  | _ => none

/-- A name without payload, written bare or as the key of a null. -/
def name? (nesting : Nat) (value : Json) : Option String :=
  match variant? value, nesting with
  | some (.bare name), _ => some name
  | some (.tagged name .null), _ + 1 => some name
  | _, _ => none

/-- The operation, kind, type or usage of a name. -/
def named? (all : List α) (nameOf : α → String) (nesting : Nat) (value : Json) : Option α := do
  let name ← name? nesting value
  all.find? fun candidate => nameOf candidate == name

/-- A literal. -/
def literal? (nesting : Nat) (value : Json) : Option Literal :=
  match variant? value, nesting with
  | some (.bare "unset"), _ => some .unset
  | some (.tagged tag payload), _ + 1 =>
    match tag with
    | "int" => .int <$> uint64? payload
    | "hex" => .hex <$> text? payload
    | "str" => .str <$> text? payload
    | "unset" => if payload matches .null then some .unset else none
    | _ => none
  | _, _ => none

/-- A reference to a variable. -/
def varRef? : (nesting : Nat) → Json → Option UInt32
  | 0, _ => none
  | _ + 1, value => do
    let [number] ← fields? ["varnum"] value | none
    required uint32? number

/-- A list of references to variables. -/
def varRefs? : (nesting : Nat) → Json → Option (List UInt32)
  | n + 1, .array items => items.mapM (varRef? n)
  | _, _ => none

mutual

/-- An expression. -/
def expression? : (nesting : Nat) → Json → Option Expr
  | nesting, value =>
    match variant? value, nesting with
    | some (.bare "unset"), _ => some .unset
    | some (.tagged "unset" .null), _ + 1 => some .unset
    | some (.tagged "literal" payload), n + 1 => .literal <$> literal? n payload
    | some (.tagged "var_ref" payload), n + 1 => .varRef <$> varRef? n payload
    | some (.tagged tag payload), n + 2 =>
      match tag with
      | "binary" => do
        let [op, left, right] ← fields? ["op", "left", "right"] payload | none
        return .binary (← required (named? BinaryOp.all BinaryOp.name n) op)
          (← optional .unset (expression? n) left) (← optional .unset (expression? n) right)
      | "unary" => do
        let [op, operand] ← fields? ["op", "operand"] payload | none
        return .unary (← required (named? UnaryOp.all UnaryOp.name n) op)
          (← optional .unset (expression? n) operand)
      | "ternary" => do
        let [op, first, second, third] ← fields? ["op", "arg1", "arg2", "arg3"] payload | none
        return .ternary (← required (named? TernaryOp.all TernaryOp.name n) op)
          (← optional .unset (expression? n) first) (← optional .unset (expression? n) second)
          (← optional .unset (expression? n) third)
      | "nullary" => do
        let [op] ← fields? ["op"] payload | none
        return .nullary (← required (named? NullaryOp.all NullaryOp.name n) op)
      | "function_call" => do
        let [usage, selector, args, targets] ←
          fields? ["ret", "func_index", "in_params", "out_params"] payload | none
        return .call (← required (named? CallUsage.all CallUsage.name n) usage)
          (← optional 0 uint32? selector) (← optional [] (expressions? n) args)
          (← optional [] (varRefs? n) targets)
      | _ => none
    | _, _ => none

/-- A list of expressions. -/
def expressions? : (nesting : Nat) → Json → Option (List Expr)
  | n + 1, .array items => items.mapM (expression? n)
  | _, _ => none

end

/-- A statement that ends execution. -/
def terminating? (nesting : Nat) (value : Json) : Option Stmt :=
  match variant? value, nesting with
  | some (.tagged "stop_invalid" payload), n + 1 => .halt <$> named? HaltOp.all HaltOp.name n payload
  | some (.tagged "ret_rev" payload), n + 2 => do
    let [kind, position, size] ← fields? ["kind", "pos", "size"] payload | none
    return .exit (← required (named? ReturnOp.all ReturnOp.name n) kind)
      (← optional .unset (expression? n) position) (← optional .unset (expression? n) size)
  | some (.tagged "self_destruct" payload), n + 2 => do
    let [address] ← fields? ["addr"] payload | none
    return .selfDestruct (← optional .unset (expression? n) address)
  | _, _ => none

mutual

/-- A statement. -/
def statement? : (nesting : Nat) → Json → Option Stmt
  | nesting, value =>
    match variant? value, nesting with
    | some (.bare "break"), _ => some .breakLoop
    | some (.bare "continue"), _ => some .continueLoop
    | some (.tagged "break" .null), _ + 1 => some .breakLoop
    | some (.tagged "continue" .null), _ + 1 => some .continueLoop
    | some (.tagged "block" payload), n + 1 => .block <$> block? n payload
    | some (.tagged "terminating" payload), n + 1 => terminating? n payload
    | some (.tagged "pop" payload), n + 1 => .pop <$> expression? n payload
    | some (.tagged tag payload), n + 2 =>
      match tag with
      | "var_decl" => do
        let [value] ← fields? ["expr"] payload | none
        return .declare none (← optional .unset (expression? n) value)
      | "typed_var_decl" => do
        let [type, value] ← fields? ["type", "expr"] payload | none
        return .declare (some (← required (named? TypeName.all TypeName.name n) type))
          (← optional .unset (expression? n) value)
      | "assignment" => do
        let [target, value] ← fields? ["target", "expr"] payload | none
        return .assign (← optional 0 (varRef? n) target) (← optional .unset (expression? n) value)
      | "if" => do
        let [cond, body] ← fields? ["cond", "body"] payload | none
        return .ifThen (← optional .unset (expression? n) cond) (← optional [] (block? n) body)
      | "store" => do
        let [kind, location, value] ← fields? ["kind", "loc", "val"] payload | none
        return .store (← required (named? StoreOp.all StoreOp.name n) kind)
          (← optional .unset (expression? n) location) (← optional .unset (expression? n) value)
      | "for" => do
        let [init, cond, post, body] ← fields? ["init", "cond", "post", "body"] payload | none
        return .forLoop (← optional [] (block? n) init) (← optional .unset (expression? n) cond)
          (← optional [] (block? n) post) (← optional [] (block? n) body)
      | "bounded_for" => do
        let [body] ← fields? ["body"] payload | none
        return .boundedFor (← optional [] (block? n) body)
      | "switch" => do
        let [scrutinee, cases, default] ← fields? ["expr", "cases", "default"] payload | none
        return .switch (← optional .unset (expression? n) scrutinee) (← optional [] (cases? n) cases)
          (← nullable (block? n) default)
      | "log" => do
        let [position, size, topics] ← fields? ["pos", "size", "topics"] payload | none
        return .log (← optional .unset (expression? n) position)
          (← optional .unset (expression? n) size) (← optional [] (expressions? n) topics)
      | "copy" => do
        let [kind, target, source, size] ← fields? ["kind", "target", "source", "size"] payload | none
        return .copy (← required (named? CopyRegion.all CopyRegion.name n) kind)
          (← optional .unset (expression? n) target) (← optional .unset (expression? n) source)
          (← optional .unset (expression? n) size)
      | "ext_code_copy" => do
        let [address, target, source, size] ←
          fields? ["addr", "target", "source", "size"] payload | none
        return .extCodeCopy (← optional .unset (expression? n) address)
          (← optional .unset (expression? n) target) (← optional .unset (expression? n) source)
          (← optional .unset (expression? n) size)
      | "function_call" => do
        let [usage, selector, args, targets] ←
          fields? ["ret", "func_index", "in_params", "out_params"] payload | none
        return .call (← required (named? CallUsage.all CallUsage.name n) usage)
          (← optional 0 uint32? selector) (← optional [] (expressions? n) args)
          (← optional [] (varRefs? n) targets)
      | "function_def" => do
        let [inputs, outputs, body] ←
          fields? ["num_input_params", "num_output_params", "block"] payload | none
        return .define (← optional 0 uint32? inputs) (← optional 0 uint32? outputs)
          (← optional [] (block? n) body)
      | _ => none
    | _, _ => none

/-- A list of statements. -/
def statements? : (nesting : Nat) → Json → Option (List Stmt)
  | n + 1, .array items => items.mapM (statement? n)
  | _, _ => none

/-- A block. -/
def block? : (nesting : Nat) → Json → Option (List Stmt)
  | 0, _ => none
  | n + 1, value => do
    let [body] ← fields? ["statements"] value | none
    optional [] (statements? n) body

/-- A case of a switch. -/
def case? : (nesting : Nat) → Json → Option (Literal × List Stmt)
  | 0, _ => none
  | n + 1, value => do
    let [label, body] ← fields? ["literal", "block"] value | none
    return (← optional .unset (literal? n) label, ← optional [] (block? n) body)

/-- A list of cases. -/
def cases? : (nesting : Nat) → Json → Option (List (Literal × List Stmt))
  | n + 1, .array items => items.mapM (case? n)
  | _, _ => none

end

/-- A program. -/
def program? : (nesting : Nat) → Json → Option Program
  | 0, _ => none
  | n + 1, value => do
    let [body] ← fields? ["block"] value | none
    return ⟨← optional [] (block? n) body⟩

end YulFuzz.Corpus

/-- The program that a value stores. -/
def YulFuzz.Tree.Program.ofJson? (value : YulFuzz.Json) : Option YulFuzz.Tree.Program :=
  YulFuzz.Corpus.program? YulFuzz.Corpus.maxNesting value
