/-
Module: YulFuzz.Toml.Number
Purpose: Integers, floats and dates of TOML. Integers have 64 bits; underscores stand between digits only.
  A positive float has to be smaller than what rounds to infinity. A date names a day of the calendar, a
  time a moment of a day that may end in a leap second.
Main exports: Toml.readInteger, Toml.readFloat, Toml.readDateTime
-/
import YulFuzz.Text.Hex

namespace YulFuzz.Toml

/-- The digits at the start of a text, without the single underscores between them, and what follows. -/
def digitRun (isDigit : Char → Bool) : List Char → List Char × List Char
  | [] => ([], [])
  | '_' :: d :: rest =>
    if isDigit d then
      let (digits, rest) := digitRun isDigit rest
      (d :: digits, rest)
    else ([], '_' :: d :: rest)
  | c :: rest =>
    if isDigit c then
      let (digits, rest) := digitRun isDigit rest
      (c :: digits, rest)
    else ([], c :: rest)

/-- One digit or more, of which the first is a digit. -/
def readDigits (isDigit : Char → Bool) : List Char → Option (List Char × List Char)
  | [] => none
  | c :: rest =>
    if isDigit c then
      let (digits, rest) := digitRun isDigit rest
      some (c :: digits, rest)
    else none

/-- Digits that do not start with zero, or a zero alone. -/
def readWhole : List Char → Option (List Char × List Char)
  | '0' :: rest => some (['0'], rest)
  | s => readDigits Char.isDigit s

/-- Whether a number is negative, by the sign at the start of a text, and what follows the sign. -/
def readSign : List Char → Bool × List Char
  | '+' :: rest => (false, rest)
  | '-' :: rest => (true, rest)
  | s => (false, s)

/-- The number that digits spell. -/
def numberOf (base : Nat) (digits : List Char) : Nat :=
  digits.foldl (fun value c => value * base + (Hex.digit? c).getD 0) 0

/-- An integer of 64 bits. -/
def int64? (value : Int) : Option Int :=
  if -0x8000000000000000 ≤ value ∧ value < 0x8000000000000000 then some value else none

/-- The digits allowed in octal and in binary numbers. -/
def isOctal (c : Char) : Bool := '0' ≤ c && c ≤ '7'

/-- The digits allowed in binary numbers. -/
def isBinary (c : Char) : Bool := c = '0' || c = '1'

/-- The integer at the start of a text, and what follows. -/
def readInteger : List Char → Option (Int × List Char)
  | '0' :: 'x' :: s => do
    let (digits, rest) ← readDigits Char.isHexDigit s
    return (← int64? (numberOf 16 digits), rest)
  | '0' :: 'o' :: s => do
    let (digits, rest) ← readDigits isOctal s
    return (← int64? (numberOf 8 digits), rest)
  | '0' :: 'b' :: s => do
    let (digits, rest) ← readDigits isBinary s
    return (← int64? (numberOf 2 digits), rest)
  | s => do
    let (negative, s) := readSign s
    let (digits, rest) ← readWhole s
    let size : Int := numberOf 10 digits
    return (← int64? (if negative then -size else size), rest)

/-- The least number that rounds to infinity as a float of 64 bits. -/
def floatLimit : Nat := Nat.pow 2 1024 - Nat.pow 2 970

/-- Whether `mantissa` times ten to the `exponent` rounds to infinity. Only numbers of 309 digits have to be
    computed to tell. -/
def isInfinite (mantissa : Nat) (exponent : Int) : Bool :=
  let digits : Int := (Nat.toDigits 10 mantissa).length + exponent
  if mantissa = 0 ∨ digits < 309 then false
  else if 309 < digits then true
  else if 0 ≤ exponent then floatLimit ≤ mantissa * Nat.pow 10 exponent.toNat
  else floatLimit * Nat.pow 10 (-exponent).toNat ≤ mantissa

/-- The exponent at the start of a text. -/
def readExponent : List Char → Option (Int × List Char)
  | [] => none
  | e :: s => do
    if e ≠ 'e' ∧ e ≠ 'E' then none
    let (negative, s) := readSign s
    let (digits, rest) ← readDigits Char.isDigit s
    let size : Int := numberOf 10 digits
    return (if negative then -size else size, rest)

/-- The word for a float that is no number or infinite, after its sign. -/
def readSpecial : List Char → Option (List Char)
  | 'i' :: 'n' :: 'f' :: rest => some rest
  | 'n' :: 'a' :: 'n' :: rest => some rest
  | _ => none

/-- What follows the float at the start of a text: a whole part with a fraction, an exponent or both, or one
    of the special words. -/
def readFloat (s : List Char) : Option (List Char) :=
  let (negative, s) := readSign s
  match readWhole s with
  | none => readSpecial s
  | some (whole, s) => do
    let (fraction, s) ←
      match s with
      | '.' :: s => readDigits Char.isDigit s
      | s => some ([], s)
    let (exponent, rest) ←
      match readExponent s with
      | some found => some found
      | none => if fraction.isEmpty then none else some (0, s)
    if !negative && isInfinite (numberOf 10 (whole ++ fraction)) (exponent - fraction.length) then none
    return rest

/-- A number of exactly `count` digits, and what follows. -/
def readCount (count : Nat) (s : List Char) : Option (Nat × List Char) :=
  let digits := s.take count
  if digits.length = count ∧ digits.all Char.isDigit then some (numberOf 10 digits, s.drop count)
  else none

/-- What follows a character that has to stand at the start of a text. -/
def dropChar (c : Char) : List Char → Option (List Char)
  | [] => none
  | d :: rest => if d = c then some rest else none

/-- Number of days in a month. -/
def daysIn (year month : Nat) : Nat :=
  if month = 2 then
    if year % 4 = 0 ∧ (year % 100 ≠ 0 ∨ year % 400 = 0) then 29 else 28
  else if month ∈ [4, 6, 9, 11] then 30
  else 31

/-- What follows the date at the start of a text. -/
def readDate (s : List Char) : Option (List Char) := do
  let (year, s) ← readCount 4 s
  let (month, s) ← readCount 2 (← dropChar '-' s)
  let (day, s) ← readCount 2 (← dropChar '-' s)
  if 1 ≤ month ∧ month ≤ 12 ∧ 1 ≤ day ∧ day ≤ daysIn year month then some s else none

/-- What follows the hour and minute at the start of a text. -/
def readHourMinute (s : List Char) : Option (List Char) := do
  let (hour, s) ← readCount 2 s
  let (minute, s) ← readCount 2 (← dropChar ':' s)
  if hour ≤ 23 ∧ minute ≤ 59 then some s else none

/-- What follows the time at the start of a text. -/
def readTime (s : List Char) : Option (List Char) := do
  let s ← readHourMinute s
  let (second, s) ← readCount 2 (← dropChar ':' s)
  if 60 < second then none
  match s with
  | '.' :: d :: rest => if d.isDigit then some (rest.dropWhile Char.isDigit) else some s
  | s => some s

/-- What follows the offset from universal time at the start of a text. -/
def readOffset : List Char → Option (List Char)
  | 'Z' :: rest => some rest
  | 'z' :: rest => some rest
  | '+' :: rest => readHourMinute rest
  | '-' :: rest => readHourMinute rest
  | _ => none

/-- What follows the time, with an offset or without, after the mark between date and time. -/
def readTimeOfDate : List Char → Option (List Char)
  | [] => none
  | mark :: s => do
    if mark ≠ 'T' ∧ mark ≠ 't' ∧ mark ≠ ' ' then none
    let s ← readTime s
    return (readOffset s).getD s

/-- What follows the date, the time or both at the start of a text. -/
def readDateTime (s : List Char) : Option (List Char) :=
  match readDate s with
  | some s => some ((readTimeOfDate s).getD s)
  | none => readTime s

end YulFuzz.Toml
