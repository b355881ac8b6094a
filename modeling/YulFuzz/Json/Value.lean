/-
Module: YulFuzz.Json.Value
Purpose: JSON values as they stand in a text: members in their order, repeated keys kept, and two things
  told apart that only matter to readers of records, namely plain natural numbers from all other numbers,
  and strings that are Unicode text from those that name half of a surrogate pair.
Main exports: Json
-/

namespace YulFuzz

/-- A JSON value. Keys and strings are `none` where an escape names half of a surrogate pair. -/
inductive Json where
  | null
  | bool (value : Bool)
  /-- A number written with digits alone. -/
  | natural (value : Nat)
  /-- A number with a sign, a fraction or an exponent, as it is written. -/
  | number (lexeme : List Char)
  | string (text : Option String)
  | array (items : List Json)
  | object (members : List (Option String × Json))
deriving Inhabited

namespace Json

/-- A string value that is Unicode text. -/
def text (s : String) : Json := .string (some s)

/-- An object with the given members. -/
def record (members : List (String × Json)) : Json :=
  .object (members.map fun (key, value) => (some key, value))

end Json

end YulFuzz
