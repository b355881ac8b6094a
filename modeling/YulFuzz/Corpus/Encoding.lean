/-
Module: YulFuzz.Corpus.Encoding
Purpose: Program trees to JSON values, with every field present. Names without payload are written bare,
  other variants as an object with one key, records as objects.
Main exports: Corpus.expression, Corpus.statement, Tree.Program.toJson
-/
import YulFuzz.Json.Value
import YulFuzz.Tree

namespace YulFuzz.Corpus

open Json (record text)
open YulFuzz.Tree (Literal Expr Stmt Program CallUsage)

/-- A variant with a payload. -/
def tagged (tag : String) (payload : Json) : Json := record [(tag, payload)]

/-- A variant whose payload is a record. -/
def node (tag : String) (fields : List (String × Json)) : Json := tagged tag (record fields)

/-- A 32-bit number. -/
def uint32 (value : UInt32) : Json := .natural value.toNat

/-- A literal. -/
def literal : Literal → Json
  | .int value => tagged "int" (.natural value.toNat)
  | .hex raw => tagged "hex" (text raw)
  | .str raw => tagged "str" (text raw)
  | .unset => text "unset"

/-- A reference to a variable. -/
def varRef (number : UInt32) : Json := record [("varnum", uint32 number)]

/-- A list of references to variables. -/
def varRefs (numbers : List UInt32) : Json := .array (numbers.map varRef)

mutual

/-- An expression. -/
def expression : Expr → Json
  | .varRef number => tagged "var_ref" (varRef number)
  | .literal l => tagged "literal" (literal l)
  | .binary op left right =>
    node "binary" [("op", text op.name), ("left", expression left), ("right", expression right)]
  | .unary op operand => node "unary" [("op", text op.name), ("operand", expression operand)]
  | .ternary op first second third =>
    node "ternary" [("op", text op.name), ("arg1", expression first), ("arg2", expression second),
      ("arg3", expression third)]
  | .nullary op => node "nullary" [("op", text op.name)]
  | .call usage selector args targets =>
    node "function_call" [("ret", text usage.name), ("func_index", uint32 selector),
      ("in_params", .array (expressions args)), ("out_params", varRefs targets)]
  | .unset => text "unset"

/-- The items of a list of expressions. -/
def expressions : List Expr → List Json
  | [] => []
  | expr :: rest => expression expr :: expressions rest

end

/-- A block with the given items. -/
def blockOf (items : List Json) : Json := record [("statements", .array items)]

mutual

/-- A statement. -/
def statement : Stmt → Json
  | .declare none value => node "var_decl" [("expr", expression value)]
  | .declare (some type) value =>
    node "typed_var_decl" [("type", text type.name), ("expr", expression value)]
  | .assign target value =>
    node "assignment" [("target", varRef target), ("expr", expression value)]
  | .ifThen cond body => node "if" [("cond", expression cond), ("body", blockOf (statements body))]
  | .store op location value =>
    node "store" [("kind", text op.name), ("loc", expression location), ("val", expression value)]
  | .block body => tagged "block" (blockOf (statements body))
  | .forLoop init cond post body =>
    node "for" [("init", blockOf (statements init)), ("cond", expression cond),
      ("post", blockOf (statements post)), ("body", blockOf (statements body))]
  | .boundedFor body => node "bounded_for" [("body", blockOf (statements body))]
  | .switch scrutinee cs default =>
    node "switch" [("expr", expression scrutinee), ("cases", .array (cases cs)),
      ("default",
        match default with
        | none => .null
        | some body => blockOf (statements body))]
  | .breakLoop => text "break"
  | .continueLoop => text "continue"
  | .log position size topics =>
    node "log" [("pos", expression position), ("size", expression size),
      ("topics", .array (expressions topics))]
  | .copy region target source size =>
    node "copy" [("kind", text region.name), ("target", expression target),
      ("source", expression source), ("size", expression size)]
  | .extCodeCopy address target source size =>
    node "ext_code_copy" [("addr", expression address), ("target", expression target),
      ("source", expression source), ("size", expression size)]
  | .halt op => tagged "terminating" (tagged "stop_invalid" (text op.name))
  | .exit op position size =>
    tagged "terminating" (node "ret_rev" [("kind", text op.name), ("pos", expression position),
      ("size", expression size)])
  | .selfDestruct address =>
    tagged "terminating" (node "self_destruct" [("addr", expression address)])
  | .call usage selector args targets =>
    node "function_call" [("ret", text usage.name), ("func_index", uint32 selector),
      ("in_params", .array (expressions args)), ("out_params", varRefs targets)]
  | .define inputs outputs body =>
    node "function_def" [("num_input_params", uint32 inputs), ("num_output_params", uint32 outputs),
      ("block", blockOf (statements body))]
  | .pop value => tagged "pop" (expression value)

/-- The items of a block. -/
def statements : List Stmt → List Json
  | [] => []
  | stmt :: rest => statement stmt :: statements rest

/-- The items of a list of cases. -/
def cases : List (Literal × List Stmt) → List Json
  | [] => []
  | (label, body) :: rest =>
    record [("literal", literal label), ("block", blockOf (statements body))] :: cases rest

end

end YulFuzz.Corpus

/-- The value that stores a program. -/
def YulFuzz.Tree.Program.toJson (program : YulFuzz.Tree.Program) : YulFuzz.Json :=
  YulFuzz.Json.record [("block", YulFuzz.Corpus.blockOf (YulFuzz.Corpus.statements program.block))]
