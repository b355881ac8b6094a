/-
Module: YulFuzz.Toml.Text
Purpose: Blanks, comments and the four kinds of strings of TOML. A line feed ends a line, with or without a
  carriage return in front; a carriage return stands nowhere else. Line ends inside strings become single
  line feeds.
Main exports: Toml.skipBlanks, Toml.skipGap, Toml.endLine, Toml.string?, Toml.simpleString?
-/
import YulFuzz.Text.Hex

namespace YulFuzz.Toml

/-- Spaces and tabs. -/
def isBlank (c : Char) : Bool := c = ' ' || c = '\t'

/-- Characters other than line ends that may stand in comments: all but the control characters, of which
    the tab is allowed. -/
def isPrintable (c : Char) : Bool := c = '\t' || (' ' ≤ c && c ≠ '\x7f')

/-- What follows the blanks at the start of a text. -/
def skipBlanks (s : List Char) : List Char := s.dropWhile isBlank

/-- What follows a line end at the start of a text. -/
def newline? : List Char → Option (List Char)
  | '\n' :: rest => some rest
  | '\r' :: '\n' :: rest => some rest
  | _ => none

theorem length_newline? {s rest : List Char} (h : newline? s = some rest) : rest.length < s.length := by
  unfold newline? at h
  split at h <;> cases h <;> simp only [List.length_cons] <;> omega

/-- What follows the blanks, line ends and comments at the start of a text; a comment has to end with its
    line. -/
def skipGap : (inComment : Bool) → List Char → Option (List Char)
  | false, [] => some []
  | true, [] => none
  | _, '\n' :: rest => skipGap false rest
  | _, '\r' :: '\n' :: rest => skipGap false rest
  | true, c :: rest => if isPrintable c then skipGap true rest else none
  | false, '#' :: rest => skipGap true rest
  | false, c :: rest => if isBlank c then skipGap false rest else some (c :: rest)

/-- What follows the end of the current line, before which only blanks and a comment may stand. The end of
    the text ends the line, too. -/
def endLine (s : List Char) : Option (List Char) :=
  let rest :=
    match skipBlanks s with
    | '#' :: comment => comment.dropWhile isPrintable
    | other => other
  if rest.isEmpty then some [] else newline? rest

/-- The character with a code, if there is one. -/
def charOf? (code : Nat) : Option Char :=
  if code.isValidChar then some (Char.ofNat code) else none

/-- The number that hex digits spell. -/
def hexValue? (digits : List Char) : Option Nat :=
  digits.foldlM (fun value c => (Hex.digit? c).map (value * 16 + ·)) 0

/-- The character of an escape by letter. -/
def escaped? : Char → Option Char
  | 'b' => some '\x08'
  | 't' => some '\t'
  | 'n' => some '\n'
  | 'f' => some '\x0c'
  | 'r' => some '\r'
  | '"' => some '"'
  | '\\' => some '\\'
  | _ => none

/-- The character of an escape after its backslash, and what follows. -/
def readEscape : List Char → Option (Char × List Char)
  | 'u' :: rest => do
    let digits := rest.take 4
    if digits.length < 4 then none
    return (← charOf? (← hexValue? digits), rest.drop 4)
  | 'U' :: rest => do
    let digits := rest.take 8
    if digits.length < 8 then none
    return (← charOf? (← hexValue? digits), rest.drop 8)
  | letter :: rest => do return (← escaped? letter, rest)
  | [] => none

theorem length_readEscape {s rest : List Char} {c : Char} (h : readEscape s = some (c, rest)) :
    rest.length < s.length := by
  unfold readEscape at h
  split at h
  case h_1 | h_2 =>
    dsimp only at h
    split at h
    · simp at h
    · simp only [Option.bind_eq_bind, Option.pure_def, Option.bind_eq_some_iff] at h
      obtain ⟨_, _, _, _, ⟨⟩⟩ := h
      rw [List.length_drop, List.length_cons]
      omega
  case h_3 =>
    simp only [Option.bind_eq_bind, Option.pure_def, Option.bind_eq_some_iff] at h
    obtain ⟨_, _, h⟩ := h
    simp_all
  case h_4 => simp at h

/-- What follows the blanks and line ends at the start of a text. -/
def skipLines : List Char → List Char
  | '\n' :: rest => skipLines rest
  | '\r' :: '\n' :: rest => skipLines rest
  | c :: rest => if isBlank c then skipLines rest else c :: rest
  | [] => []

theorem length_skipLines (s : List Char) : (skipLines s).length ≤ s.length := by
  fun_induction skipLines s <;> simp_all <;> omega

theorem length_skipBlanks (s : List Char) : (skipBlanks s).length ≤ s.length :=
  (List.dropWhile_sublist _).length_le

/-- The inside of a string in double quotes after the opening quote, and what follows the closing one. -/
def readBasic (s : List Char) : Option (List Char × List Char) :=
  match s with
  | [] => none
  | '"' :: rest => some ([], rest)
  | '\\' :: rest =>
    match _h : readEscape rest with
    | none => none
    | some (c, rest') => do
      let (inside, rest) ← readBasic rest'
      return (c :: inside, rest)
  | c :: rest => do
    if !isPrintable c then none
    let (inside, rest) ← readBasic rest
    return (c :: inside, rest)
termination_by s.length
decreasing_by
  · have := length_readEscape _h
    simp only [List.length_cons]
    omega
  · simp

/-- The inside of a string in apostrophes after the opening one, and what follows the closing one. -/
def readLiteral : List Char → Option (List Char × List Char)
  | [] => none
  | '\x27' :: rest => some ([], rest)
  | c :: rest => do
    if !isPrintable c then none
    let (inside, rest) ← readLiteral rest
    return (c :: inside, rest)

/-- The inside of a string in three double quotes, and what follows the closing ones. Up to two quotes may
    stand right before the closing ones. A backslash at the end of a line joins it to the next character
    that is no blank. -/
def readBasicLines (s : List Char) : Option (List Char × List Char) :=
  match s with
  | [] => none
  | '"' :: '"' :: '"' :: '"' :: '"' :: rest => some (['"', '"'], rest)
  | '"' :: '"' :: '"' :: '"' :: rest => some (['"'], rest)
  | '"' :: '"' :: '"' :: rest => some ([], rest)
  | '\r' :: '\n' :: rest => do
    let (inside, rest) ← readBasicLines rest
    return ('\n' :: inside, rest)
  | '\\' :: rest =>
    match _h : newline? (skipBlanks rest) with
    | some rest' => readBasicLines (skipLines rest')
    | none =>
      match _h : readEscape rest with
      | none => none
      | some (c, rest') => do
        let (inside, rest) ← readBasicLines rest'
        return (c :: inside, rest)
  | c :: rest => do
    if !isPrintable c && c ≠ '\n' then none
    let (inside, rest) ← readBasicLines rest
    return (c :: inside, rest)
termination_by s.length
decreasing_by
  · simp only [List.length_cons]
    omega
  · have := length_newline? _h
    have := length_skipLines rest'
    have := length_skipBlanks rest
    simp only [List.length_cons]
    omega
  · have := length_readEscape _h
    simp only [List.length_cons]
    omega
  · simp

/-- The inside of a string in three apostrophes, and what follows the closing ones. Up to two apostrophes
    may stand right before the closing ones. -/
def readLiteralLines : List Char → Option (List Char × List Char)
  | [] => none
  | '\x27' :: '\x27' :: '\x27' :: '\x27' :: '\x27' :: rest => some (['\x27', '\x27'], rest)
  | '\x27' :: '\x27' :: '\x27' :: '\x27' :: rest => some (['\x27'], rest)
  | '\x27' :: '\x27' :: '\x27' :: rest => some ([], rest)
  | '\r' :: '\n' :: rest => do
    let (inside, rest) ← readLiteralLines rest
    return ('\n' :: inside, rest)
  | c :: rest => do
    if !isPrintable c && c ≠ '\n' then none
    let (inside, rest) ← readLiteralLines rest
    return (c :: inside, rest)

/-- What follows a line end right after the opening quotes of a string of several lines. -/
def firstLine (s : List Char) : List Char := (newline? s).getD s

/-- A string of one line at the start of a text, as keys use it, and what follows. -/
def simpleString? : List Char → Option (List Char × List Char)
  | '"' :: rest => readBasic rest
  | '\x27' :: rest => readLiteral rest
  | _ => none

/-- A string of any kind at the start of a text, and what follows. -/
def string? : List Char → Option (List Char × List Char)
  | '"' :: '"' :: '"' :: rest => readBasicLines (firstLine rest)
  | '\x27' :: '\x27' :: '\x27' :: rest => readLiteralLines (firstLine rest)
  | s => simpleString? s

end YulFuzz.Toml
