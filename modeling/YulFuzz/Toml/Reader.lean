/-
Module: YulFuzz.Toml.Reader
Purpose: TOML text to documents. A text is a sequence of lines, each with a header, a key and its value, or
  nothing; a value may go on over several lines inside brackets. Arrays and inline tables nest to a bounded
  depth, and keys have a bounded number of parts.
Main exports: Toml.readKey, Toml.readValue, Toml.read?
-/
import YulFuzz.Toml.Document
import YulFuzz.Toml.Number
import YulFuzz.Toml.Text

namespace YulFuzz.Toml

/-- The greatest number of arrays and inline tables open at once, and of parts of a key. -/
def maxNesting : Nat := 79

/-- Characters of a key without quotes. -/
def isBare (c : Char) : Bool := c.isAlphanum || c = '-' || c = '_'

/-- One part of a key, and what follows. -/
def readKeyPart (s : List Char) : Option (String × List Char) :=
  match s with
  | '"' :: _ | '\x27' :: _ => (simpleString? s).map fun (inside, rest) => (String.ofList inside, rest)
  | _ =>
    match s.takeWhile isBare with
    | [] => none
    | bare => some (String.ofList bare, s.dropWhile isBare)

/-- A key of at most the given number of parts, and what follows with its blanks. -/
def readKeyParts : (parts : Nat) → List Char → Option (List String × List Char)
  | 0, _ => none
  | parts + 1, s => do
    let (part, s) ← readKeyPart (skipBlanks s)
    match skipBlanks s with
    | '.' :: s =>
      let (more, s) ← readKeyParts parts s
      return (part :: more, s)
    | s => return ([part], s)

/-- A key: the path of all parts but the last, and the last part. -/
def readKey (s : List Char) : Option ((List String × String) × List Char) := do
  let (parts, s) ← readKeyParts maxNesting s
  return ((parts.dropLast, ← parts.getLast?), s)

/-- The items of an array up to its closing bracket. Each item is read by the given reader; a text that it
    does not shorten is refused. -/
def readItems (readItem : List Char → Option (Node × List Char)) (s : List Char) :
    Option (List Node × List Char) := do
  match ← skipGap false s with
  | ']' :: rest => return ([], rest)
  | start => do
    let (item, after) ← readItem start
    match ← skipGap false after with
    | ']' :: rest => return ([item], rest)
    | ',' :: rest =>
      if _h : rest.length < s.length then
        let (items, rest) ← readItems readItem rest
        return (item :: items, rest)
      else none
    | _ => none
termination_by s.length

/-- The keys and values of an inline table after its opening brace, up to its closing brace, added to the
    ones before. -/
def readPairs (readItem : List Char → Option (Node × List Char)) (before : Entries) (s : List Char) :
    Option (Entries × List Char) := do
  let ((path, key), after) ← readKey s
  let (value, after) ← readItem (skipBlanks (← dropChar '=' after))
  let entries ← addKey path key value .inline before
  match skipBlanks after with
  | '\x7d' :: rest => return (entries, rest)
  | ',' :: rest =>
    if _h : rest.length < s.length then readPairs readItem entries rest else none
  | _ => none
termination_by s.length

/-- The number or date at the start of a text, and what follows. -/
def readNumber (s : List Char) : Option (Node × List Char) :=
  match readDateTime s with
  | some rest => some (.dateTime, rest)
  | none =>
    match readFloat s with
    | some rest => some (.float, rest)
    | none => (readInteger s).map fun (value, rest) => (.integer value, rest)

/-- The value at the start of a text, and what follows; at most the given number of arrays and inline tables
    may be opened. -/
def readValue : (nesting : Nat) → List Char → Option (Node × List Char)
  | n + 1, '[' :: rest => do
    let (items, rest) ← readItems (readValue n) rest
    return (.array items, rest)
  | n + 1, '\x7b' :: rest =>
    match skipBlanks rest with
    | '\x7d' :: rest => some (.table .inline [], rest)
    | _ => do
      let (entries, rest) ← readPairs (readValue n) [] rest
      return (.table .inline entries, rest)
  | _, 't' :: 'r' :: 'u' :: 'e' :: rest => some (.boolean true, rest)
  | _, 'f' :: 'a' :: 'l' :: 's' :: 'e' :: rest => some (.boolean false, rest)
  | _, s =>
    match string? s with
    | some (inside, rest) => some (.string (String.ofList inside), rest)
    | none => readNumber s

/-- A document that is being read: its root, and the path of the table that keys are added to. -/
structure Document where
  root : Entries := []
  current : List String := []

/-- Read the header after its opening bracket. -/
def readHeader (document : Document) (s : List Char) : Option (Document × List Char) :=
  match s with
  | '[' :: s => do
    let ((path, key), s) ← readKey s
    let root ← openElement path key document.root
    return (⟨root, path ++ [key]⟩, ← endLine (← dropChar ']' (← dropChar ']' s)))
  | s => do
    let ((path, key), s) ← readKey s
    let root ← openTable path key document.root
    return (⟨root, path ++ [key]⟩, ← endLine (← dropChar ']' s))

/-- Read a key and its value. -/
def readPair (document : Document) (s : List Char) : Option (Document × List Char) := do
  let ((path, key), s) ← readKey s
  let (value, s) ← readValue maxNesting (skipBlanks (← dropChar '=' s))
  let root ← descend .implied (addKey path key value) document.current .header document.root
  return ({ document with root }, ← endLine s)

/-- Read one line, which is not empty at the end of the text. -/
def readLine (document : Document) (s : List Char) : Option (Document × List Char) :=
  match skipBlanks s with
  | '[' :: rest => readHeader document rest
  | c :: rest =>
    if c = '#' ∨ c = '\n' ∨ c = '\r' then (endLine (c :: rest)).map (document, ·)
    else readPair document (c :: rest)
  | [] => some (document, [])

/-- Read all lines of a text. Every line shortens the text. -/
def readLines (document : Document) (s : List Char) : Option Document :=
  if s.isEmpty then some document
  else
    match readLine document s with
    | none => none
    | some (document, rest) =>
      if _h : rest.length < s.length then readLines document rest else none
termination_by s.length

/-- The root table of the document that a text spells; a byte order mark at its start is skipped. -/
def read? (text : String) : Option Entries := do
  let s :=
    match text.toList with
    | '\uFEFF' :: rest => rest
    | s => s
  return (← readLines {} s).root

end YulFuzz.Toml
