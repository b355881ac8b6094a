/-
Module: YulFuzz.Toml.Document
Purpose: TOML documents as trees of tables, and the rules by which keys and headers add to them. A table
  remembers how it came about, since that decides what may still be added: a header may define a table only
  once, dotted keys may only go on with tables made by dotted keys, and an inline table is complete where it
  stands.
Main exports: Toml.Node, Toml.Origin, Toml.descend, Toml.addKey, Toml.openTable, Toml.openElement
-/

namespace YulFuzz.Toml

/-- How a table came about. -/
inductive Origin where
  /-- A header names it, or it is the root. -/
  | header
  /-- A header names a table inside it. -/
  | implied
  /-- A dotted key goes through it. -/
  | dotted
  /-- It is written between braces. -/
  | inline
deriving DecidableEq, Repr

/-- A value or a table. Of floats and of dates only the kind is kept, since no setting takes one. -/
inductive Node where
  | string (text : String)
  | integer (value : Int)
  | boolean (value : Bool)
  | float
  | dateTime
  | array (items : List Node)
  | table (origin : Origin) (entries : List (String × Node))
  /-- An array whose elements are tables with headers of their own. -/
  | tables (elements : List (List (String × Node)))
deriving Inhabited

/-- The keys of a table with their values. -/
abbrev Entries := List (String × Node)

/-- The entries with a new value for a key that is there. -/
def replace (key : String) (node : Node) (entries : Entries) : Entries :=
  entries.map fun entry => if entry.1 = key then (key, node) else entry

/-- Whether a path made with the given origin may go through a table. Headers go through all tables but
    inline ones, dotted keys only through tables that no header names. -/
def mayPass (made through : Origin) : Bool :=
  match made, through with
  | _, .inline => false
  | .dotted, .header => false
  | _, _ => true

/-- Change the table at the end of a path, making the tables that are missing on the way. Of an array of
    tables, the path goes through the last element. -/
def descend (made : Origin) (change : Origin → Entries → Option Entries) :
    (path : List String) → Origin → Entries → Option Entries
  | [], origin, entries => change origin entries
  | key :: path, _, entries =>
    match entries.lookup key with
    | none => do
      let inner ← descend made change path made []
      return entries ++ [(key, .table made inner)]
    | some (.table origin inner) =>
      if mayPass made origin then do
        let inner ← descend made change path origin inner
        return replace key (.table origin inner) entries
      else none
    | some (.tables elements) => do
      let last ← elements.getLast?
      let last ← descend made change path .header last
      return replace key (.tables (elements.dropLast ++ [last])) entries
    | some _ => none

/-- Add a value under a dotted key: to the table itself if the key has one part, else to a table that was
    made by dotted keys. No key is set twice. -/
def addKey (path : List String) (key : String) (value : Node) : Origin → Entries → Option Entries :=
  descend .dotted
    (fun origin entries =>
      if (origin == .dotted) == path.isEmpty then none
      else if (entries.lookup key).isSome then none
      else some (entries ++ [(key, value)]))
    path

/-- Define the table that a header names. It may be implied by then, but not defined. -/
def openTable (path : List String) (key : String) (root : Entries) : Option Entries :=
  descend .implied
    (fun _ entries =>
      match entries.lookup key with
      | none => some (entries ++ [(key, .table .header [])])
      | some (.table .implied inner) => some (replace key (.table .header inner) entries)
      | some _ => none)
    path .header root

/-- Add an element to the array of tables that a header names. -/
def openElement (path : List String) (key : String) (root : Entries) : Option Entries :=
  descend .implied
    (fun _ entries =>
      match entries.lookup key with
      | none => some (entries ++ [(key, .tables [[]])])
      | some (.tables elements) => some (replace key (.tables (elements ++ [[]])) entries)
      | some _ => none)
    path .header root

end YulFuzz.Toml
