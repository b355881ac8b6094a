/-
Module: YulFuzz.Json.Reader
Purpose: JSON text to values. A text is one value with nothing but blanks around it. The containers that are
  still open are kept in a list, so that values of any depth can be read.
Main exports: Json.Frame, Json.build, Json.ofTokens?, Json.read?
-/
import YulFuzz.Json.Token
import YulFuzz.Json.Value

namespace YulFuzz.Json

/-- A container that is still open, with the parts that are complete, latest first. An object also has the
    key of the member whose value is being read. -/
inductive Frame where
  | array (items : List Json)
  | object (members : List (Option String × Json)) (key : Option String)

/-- Read on inside open containers, innermost first. Either a value comes next, or one has just been
    completed. -/
def build : (completed : Option Json) → List Frame → List Token → Option Json
  | none, frames, .null :: rest => build (some .null) frames rest
  | none, frames, .bool value :: rest => build (some (.bool value)) frames rest
  | none, frames, .natural value :: rest => build (some (.natural value)) frames rest
  | none, frames, .number lexeme :: rest => build (some (.number lexeme)) frames rest
  | none, frames, .string text :: rest => build (some (.string text)) frames rest
  | none, frames, .openArray :: .closeArray :: rest => build (some (.array [])) frames rest
  | none, frames, .openArray :: rest => build none (.array [] :: frames) rest
  | none, frames, .openObject :: .closeObject :: rest => build (some (.object [])) frames rest
  | none, frames, .openObject :: .string key :: .colon :: rest =>
    build none (.object [] key :: frames) rest
  | some value, [], [] => some value
  | some value, .array items :: frames, .comma :: rest =>
    build none (.array (value :: items) :: frames) rest
  | some value, .array items :: frames, .closeArray :: rest =>
    build (some (.array (value :: items).reverse)) frames rest
  | some value, .object members key :: frames, .comma :: .string next :: .colon :: rest =>
    build none (.object ((key, value) :: members) next :: frames) rest
  | some value, .object members key :: frames, .closeObject :: rest =>
    build (some (.object ((key, value) :: members).reverse)) frames rest
  | _, _, _ => none

/-- The value that tokens make up. -/
def ofTokens? (tokens : List Token) : Option Json := build none [] tokens

/-- The value that a text spells. -/
def read? (text : String) : Option Json := do ofTokens? (← Token.readAll text.toList)

end YulFuzz.Json
