/-
Module: YulFuzz.CommandLine.Files
Purpose: Files as the command line sees them. A store reads and writes files by their paths; one store is a
  directory given as a list of names and texts, where a path leads through directories that hold files.
Main exports: FileFault, FileStore, Directory, Directory.store, Directory.changes
-/

namespace YulFuzz

/-- Why a file cannot be read or written. -/
inductive FileFault where
  | missing
  | notDirectory
  | isDirectory
  | nameTooLong
  /-- The bytes of the file are not the UTF-8 of a text. -/
  | notText
  | other (description : String)
deriving DecidableEq, Repr

/-- The wording of a fault. -/
def FileFault.message : FileFault → String
  | .missing => "No such file or directory (os error 2)"
  | .notDirectory => "Not a directory (os error 20)"
  | .isDirectory => "Is a directory (os error 21)"
  | .nameTooLong => "File name too long (os error 36)"
  | .notText => "stream did not contain valid UTF-8"
  | .other description => description

/-- The actions by which files are reached. -/
structure FileStore (m : Type → Type) where
  read : (path : String) → m (Except FileFault String)
  write : (path text : String) → m (Except FileFault Unit)

/-- A directory: the names of its files, as paths from it, with their texts. -/
abbrev Directory := List (String × String)

namespace Directory

/-- The parts of a path between slashes. -/
def parts (path : String) : List String := path.splitOn "/"

/-- The name of the file at a place. -/
def nameAt (place : List String) : String := "/".intercalate place

/-- Whether there is a directory at a place: the directory itself, or one that holds a file. -/
def holds (files : Directory) (place : List String) : Bool :=
  place.isEmpty || files.any fun (name, _) =>
    let found := parts name
    place.isPrefixOf found && place.length < found.length

/-- The text of the file at a place. -/
def text? (files : Directory) (place : List String) : Option String :=
  files.lookup (nameAt place)

/-- The greatest size of one name on a path, in bytes. -/
def maxNameSize : Nat := 255

/-- The greatest size of a path, in bytes. -/
def maxPathSize : Nat := 4095

/-- What is found above the directory: directories, and no file that is known. -/
def above (rest : List String) : FileFault :=
  match rest.dropWhile (· ∈ ["", ".", ".."]) with
  | [] => .isDirectory
  | part :: _ => if maxNameSize < part.utf8ByteSize then .nameTooLong else .missing

/-- The place to which the parts of a path lead from a place. -/
def follow (files : Directory) (start : List String) : List String → Except FileFault (List String)
  | [] => .ok start
  | part :: rest =>
    if !files.holds start then
      if (files.text? start).isSome then .error .notDirectory else .error .missing
    else if part = "" ∨ part = "." then files.follow start rest
    else if part = ".." then
      if start.isEmpty then .error (above rest) else files.follow start.dropLast rest
    else if maxNameSize < part.utf8ByteSize then .error .nameTooLong
    else files.follow (start ++ [part]) rest

/-- The place to which a path with the given parts leads; outside of the directory nothing is known. -/
def place (files : Directory) : (found : List String) → Except FileFault (List String)
  | "" :: rest => .error (above rest)
  | found => files.follow [] found

/-- The parts of a path that is not too long. -/
def partsOf (path : String) : Except FileFault (List String) :=
  if maxPathSize < path.utf8ByteSize then .error .nameTooLong else .ok (parts path)

/-- The place at which a file can be written. A path with a slash at its end can only name a directory. -/
def placeToWrite (files : Directory) (path : String) : Except FileFault (List String) := do
  let found ← partsOf path
  if found.getLast? = some "" then
    let named := (found.reverse.dropWhile (· = "")).reverse
    let _ ← files.place (named.dropLast ++ ["."])
    throw .isDirectory
  let place ← files.place found
  if files.holds place then throw .isDirectory
  return place

/-- The text of a file. -/
def read (files : Directory) (path : String) : Except FileFault String := do
  let place ← files.place (← partsOf path)
  match files.text? place with
  | some text => return text
  | none => if files.holds place then throw .isDirectory else throw .missing

/-- The directory after a file has been written. -/
def write (files : Directory) (path text : String) : Except FileFault Directory := do
  let name := nameAt (← files.placeToWrite path)
  if (files.lookup name).isSome then
    return files.map fun file => if file.1 = name then (name, text) else file
  return files ++ [(name, text)]

/-- A directory as a store. -/
def store : FileStore (StateM Directory) where
  read path := do return (← get).read path
  write path text := do
    match (← get).write path text with
    | .ok files => do
      set files
      return .ok ()
    | .error fault => return .error fault

/-- The files that are new or different in a later state of a directory. -/
def changes (before after : Directory) : Directory :=
  after.filter fun (name, text) => before.lookup name != some text

end Directory

end YulFuzz
