/-
Module: YulFuzz.Builtin
Purpose: The builtin operations of Yul that trees and generated programs use, by the number of values they
  take, with the names under which they are written, and the type names of the typed dialect.
Main exports: BinaryOp, UnaryOp, TernaryOp, NullaryOp, StoreOp, CopyRegion, HaltOp, ReturnOp, TypeName,
  Builtin, Builtin.name
-/

namespace YulFuzz

/-- Operations on two values. -/
inductive BinaryOp where
  | add | sub | mul | div | mod | xor | and | or | eq | lt | gt | shr | shl | sar | sdiv | smod | exp
  | slt | sgt | byte | signextend | keccak256
deriving DecidableEq, Repr

/-- Operations on one value. -/
inductive UnaryOp where
  | not | mload | sload | iszero | calldataload | extcodesize | extcodehash | balance
deriving DecidableEq, Repr

/-- Operations on three values. -/
inductive TernaryOp where
  | addmod | mulmod
deriving DecidableEq, Repr

/-- Operations without arguments. -/
inductive NullaryOp where
  | pc | msize | gas | calldatasize | codesize | returndatasize | address | origin | caller | callvalue
  | gasprice | coinbase | timestamp | number | difficulty | gaslimit
deriving DecidableEq, Repr

/-- Operations that store a value at a location. -/
inductive StoreOp where
  | mstore | sstore | mstore8
deriving DecidableEq, Repr

/-- What a copy to memory copies from. -/
inductive CopyRegion where
  | calldata | code | returndata
deriving DecidableEq, Repr

/-- Operations that end execution without a result. -/
inductive HaltOp where
  | stop | invalid
deriving DecidableEq, Repr

/-- Operations that end execution with a range of memory as the result. -/
inductive ReturnOp where
  | ret | revert
deriving DecidableEq, Repr

/-- The type names of the typed dialect. -/
inductive TypeName where
  | bool | s8 | s32 | s64 | s128 | s256 | u8 | u32 | u64 | u128 | u256
deriving DecidableEq, Repr

namespace BinaryOp

/-- The name of the operation. -/
def name : BinaryOp → String
  | .add => "add"
  | .sub => "sub"
  | .mul => "mul"
  | .div => "div"
  | .mod => "mod"
  | .xor => "xor"
  | .and => "and"
  | .or => "or"
  | .eq => "eq"
  | .lt => "lt"
  | .gt => "gt"
  | .shr => "shr"
  | .shl => "shl"
  | .sar => "sar"
  | .sdiv => "sdiv"
  | .smod => "smod"
  | .exp => "exp"
  | .slt => "slt"
  | .sgt => "sgt"
  | .byte => "byte"
  | .signextend => "signextend"
  | .keccak256 => "keccak256"

/-- All operations. -/
def all : List BinaryOp :=
  [.add, .sub, .mul, .div, .mod, .xor, .and, .or, .eq, .lt, .gt, .shr, .shl, .sar, .sdiv, .smod, .exp,
    .slt, .sgt, .byte, .signextend, .keccak256]

end BinaryOp

namespace UnaryOp

/-- The name of the operation. -/
def name : UnaryOp → String
  | .not => "not"
  | .mload => "mload"
  | .sload => "sload"
  | .iszero => "iszero"
  | .calldataload => "calldataload"
  | .extcodesize => "extcodesize"
  | .extcodehash => "extcodehash"
  | .balance => "balance"

/-- All operations. -/
def all : List UnaryOp :=
  [.not, .mload, .sload, .iszero, .calldataload, .extcodesize, .extcodehash, .balance]

end UnaryOp

namespace TernaryOp

/-- The name of the operation. -/
def name : TernaryOp → String
  | .addmod => "addmod"
  | .mulmod => "mulmod"

/-- All operations. -/
def all : List TernaryOp := [.addmod, .mulmod]

end TernaryOp

namespace NullaryOp

/-- The name of the operation. -/
def name : NullaryOp → String
  | .pc => "pc"
  | .msize => "msize"
  | .gas => "gas"
  | .calldatasize => "calldatasize"
  | .codesize => "codesize"
  | .returndatasize => "returndatasize"
  | .address => "address"
  | .origin => "origin"
  | .caller => "caller"
  | .callvalue => "callvalue"
  | .gasprice => "gasprice"
  | .coinbase => "coinbase"
  | .timestamp => "timestamp"
  | .number => "number"
  | .difficulty => "difficulty"
  | .gaslimit => "gaslimit"

/-- All operations. -/
def all : List NullaryOp :=
  [.pc, .msize, .gas, .calldatasize, .codesize, .returndatasize, .address, .origin, .caller, .callvalue,
    .gasprice, .coinbase, .timestamp, .number, .difficulty, .gaslimit]

end NullaryOp

namespace StoreOp

/-- The name of the operation. -/
def name : StoreOp → String
  | .mstore => "mstore"
  | .sstore => "sstore"
  | .mstore8 => "mstore8"

/-- All operations. -/
def all : List StoreOp := [.mstore, .sstore, .mstore8]

end StoreOp

namespace CopyRegion

/-- The name of the region. -/
def name : CopyRegion → String
  | .calldata => "calldata"
  | .code => "code"
  | .returndata => "returndata"

/-- All regions. -/
def all : List CopyRegion := [.calldata, .code, .returndata]

end CopyRegion

namespace HaltOp

/-- The name of the operation. -/
def name : HaltOp → String
  | .stop => "stop"
  | .invalid => "invalid"

/-- All operations. -/
def all : List HaltOp := [.stop, .invalid]

end HaltOp

namespace ReturnOp

/-- The name of the operation. -/
def name : ReturnOp → String
  | .ret => "return"
  | .revert => "revert"

/-- All operations. -/
def all : List ReturnOp := [.ret, .revert]

end ReturnOp

namespace TypeName

/-- The name of the type. -/
def name : TypeName → String
  | .bool => "bool"
  | .s8 => "s8"
  | .s32 => "s32"
  | .s64 => "s64"
  | .s128 => "s128"
  | .s256 => "s256"
  | .u8 => "u8"
  | .u32 => "u32"
  | .u64 => "u64"
  | .u128 => "u128"
  | .u256 => "u256"

/-- All types. -/
def all : List TypeName :=
  [.bool, .s8, .s32, .s64, .s128, .s256, .u8, .u32, .u64, .u128, .u256]

end TypeName

/-- The builtin functions of Yul that occur in generated programs. -/
inductive Builtin where
  | nullary (op : NullaryOp)
  | unary (op : UnaryOp)
  | binary (op : BinaryOp)
  | ternary (op : TernaryOp)
  | store (op : StoreOp)
  | copy (region : CopyRegion)
  | extcodecopy
  | log (topics : Nat)
  | halt (op : HaltOp)
  | exit (op : ReturnOp)
  | selfdestruct
  | pop
deriving DecidableEq, Repr

namespace Builtin

/-- The name of a builtin function. -/
def name : Builtin → String
  | .nullary op => op.name
  | .unary op => op.name
  | .binary op => op.name
  | .ternary op => op.name
  | .store op => op.name
  | .copy region => region.name ++ "copy"
  | .extcodecopy => "extcodecopy"
  | .log topics => "log" ++ toString topics
  | .halt op => op.name
  | .exit op => op.name
  | .selfdestruct => "selfdestruct"
  | .pop => "pop"

end Builtin

end YulFuzz
