/-
Module: YulFuzz.Text.Quoted
Purpose: A character as error messages show it: between apostrophes, with control characters, the
  apostrophe and the backslash escaped.
Main exports: Quoted.char
-/

namespace YulFuzz.Quoted

/-- The escape of a character that has no visible form of its own: its code in hex digits. -/
def byCode (c : Char) : String :=
  "\\u\x7b" ++ String.ofList (Nat.toDigits 16 c.toNat) ++ "\x7d"

/-- The text of a character inside apostrophes. The characters quoted are ASCII: a text is searched for a
    bad digit only once it is known to have one byte per character. -/
def body (c : Char) : String :=
  if c = '\x00' then "\\0"
  else if c = '\t' then "\\t"
  else if c = '\n' then "\\n"
  else if c = '\r' then "\\r"
  else if c = '\x27' then "\\\x27"
  else if c = '\\' then "\\\\"
  else if c < ' ' ∨ c = '\x7f' then byCode c
  else c.toString

/-- The character between apostrophes. -/
def char (c : Char) : String :=
  "\x27" ++ body c ++ "\x27"

end YulFuzz.Quoted
