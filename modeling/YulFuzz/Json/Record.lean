/-
Module: YulFuzz.Json.Record
Purpose: The two shapes in which structured data stand in JSON. A record is an object or an array: in an
  object the keys stand in any order, unknown keys are skipped and a known key stands at most once; in an
  array the fields stand in their order and missing ones are cut off at the end. A variant is its bare name,
  or an object whose single key is the name. Only the containers that these readers look into count towards
  a limit on nesting, and only their keys have to be Unicode text.
Main exports: Json.fields?, Json.variant?, Json.Variant
-/
import YulFuzz.Json.Value

namespace YulFuzz.Json

/-- The value of a key that stands at most once; `some none` if it is missing. -/
def member? (members : List (Option String × Json)) (name : String) : Option (Option Json) :=
  match members.filter fun member => member.1 == some name with
  | [] => some none
  | [(_, value)] => some (some value)
  | _ => none

/-- The fields of a record in the order of their names, with `none` for missing ones. -/
def fields? (names : List String) : Json → Option (List (Option Json))
  | .array items =>
    if items.length ≤ names.length then
      some (items.map some ++ List.replicate (names.length - items.length) none)
    else none
  | .object members =>
    if members.any fun member => member.1.isNone then none else names.mapM (member? members)
  | _ => none

/-- A variant as it is written. -/
inductive Variant where
  /-- A bare name. -/
  | bare (name : String)
  /-- A name with a payload, in an object of its own. -/
  | tagged (name : String) (payload : Json)

/-- The variant that a value spells. -/
def variant? : Json → Option Variant
  | .string (some name) => some (.bare name)
  | .object [(some name, payload)] => some (.tagged name payload)
  | _ => none

end YulFuzz.Json
