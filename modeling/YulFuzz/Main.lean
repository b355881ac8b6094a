/-
Module: YulFuzz.Main
Purpose: The program on real files.
Main exports: main
-/
import YulFuzz.CommandLine.Run

namespace YulFuzz.CommandLine

/-- The fault of an input or output error. -/
def faultOf : IO.Error → FileFault
  | .noFileOrDirectory .. => .missing
  | .inappropriateType _ 20 _ => .notDirectory
  | .inappropriateType .. => .isDirectory
  | .invalidArgument _ 36 _ => .nameTooLong
  | .permissionDenied _ code details => .other (details ++ " (os error " ++ toString code ++ ")")
  | error => .other (toString error)

/-- The files of the system as a store. -/
def systemStore : FileStore IO where
  read path := do
    try
      match String.fromUTF8? (← IO.FS.readBinFile path) with
      | some text => return .ok text
      | none => return .error .notText
    catch error => return .error (faultOf error)
  write path text := do
    try
      IO.FS.writeFile path text
      return .ok ()
    catch error => return .error (faultOf error)

end YulFuzz.CommandLine

/-- Run the program and give its status. -/
def main (arguments : List String) : IO UInt32 := do
  let outcome ← YulFuzz.CommandLine.run YulFuzz.CommandLine.systemStore arguments
  IO.print outcome.stdout
  IO.eprint outcome.stderr
  return outcome.status
