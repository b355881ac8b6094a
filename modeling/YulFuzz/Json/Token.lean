/-
Module: YulFuzz.Json.Token
Purpose: The tokens of JSON text. Between tokens stand spaces, tabs, line feeds and carriage returns only.
  Strings hold no control characters below U+0020 and only the escapes of the standard; of an escape by
  code, only its four hex digits are checked here, so that any string can be skipped.
Main exports: Json.Token, Json.Token.read?, Json.Token.readAll
-/
import YulFuzz.Text.Hex

namespace YulFuzz.Json

/-- A part of the inside of a string: a character, or a UTF-16 unit given by an escape. -/
inductive Piece where
  | char (c : Char)
  | unit (code : Nat)
deriving DecidableEq, Repr

namespace Piece

/-- The first half of a surrogate pair. -/
def isLeading (code : Nat) : Bool := 0xD800 ≤ code && code < 0xDC00

/-- The second half of a surrogate pair. -/
def isTrailing (code : Nat) : Bool := 0xDC00 ≤ code && code < 0xE000

/-- The code point of a surrogate pair. -/
def pair (leading trailing : Nat) : Nat := 0x10000 + (leading - 0xD800) * 0x400 + (trailing - 0xDC00)

/-- The characters of a string, unless half of a surrogate pair stands alone. -/
def join : List Piece → Option (List Char)
  | [] => some []
  | .char c :: rest => (c :: ·) <$> join rest
  | .unit code :: rest =>
    if isTrailing code then none
    else if isLeading code then
      match rest with
      | .unit second :: rest' =>
        if isTrailing second then (Char.ofNat (pair code second) :: ·) <$> join rest' else none
      | _ => none
    else (Char.ofNat code :: ·) <$> join rest

end Piece

/-- A token. -/
inductive Token where
  | openObject | closeObject | openArray | closeArray | colon | comma
  | null
  | bool (value : Bool)
  | natural (value : Nat)
  | number (lexeme : List Char)
  | string (text : Option String)
deriving DecidableEq, Repr

namespace Token

/-- The characters that may stand between tokens. -/
def isBlank (c : Char) : Bool := c = ' ' || c = '\t' || c = '\n' || c = '\r'

/-- The character of an escape by letter. -/
def escaped? : Char → Option Char
  | '"' => some '"'
  | '\\' => some '\\'
  | '/' => some '/'
  | 'b' => some '\x08'
  | 'f' => some '\x0c'
  | 'n' => some '\n'
  | 'r' => some '\r'
  | 't' => some '\t'
  | _ => none

/-- The number that four hex digits spell. -/
def unit? (a b c d : Char) : Option Nat := do
  let a ← Hex.digit? a
  let b ← Hex.digit? b
  let c ← Hex.digit? c
  let d ← Hex.digit? d
  return ((a * 16 + b) * 16 + c) * 16 + d

/-- The inside of a string after its opening quote, and what follows its closing quote. -/
def readString : List Char → Option (List Piece × List Char)
  | [] => none
  | '"' :: rest => some ([], rest)
  | '\\' :: 'u' :: a :: b :: c :: d :: rest => do
    let code ← unit? a b c d
    let (pieces, rest) ← readString rest
    return (.unit code :: pieces, rest)
  | '\\' :: letter :: rest => do
    let c ← escaped? letter
    let (pieces, rest) ← readString rest
    return (.char c :: pieces, rest)
  | c :: rest =>
    if c < ' ' then none
    else do
      let (pieces, rest) ← readString rest
      return (.char c :: pieces, rest)

/-- The digits at the start of a text, and what follows them. -/
def digits (s : List Char) : List Char × List Char :=
  (s.takeWhile Char.isDigit, s.dropWhile Char.isDigit)

/-- The whole part of a number: a zero alone, or digits that do not start with zero. -/
def readWhole : List Char → Option (List Char × List Char)
  | '0' :: rest => some (['0'], rest)
  | s =>
    match digits s with
    | ([], _) => none
    | found => some found

/-- The fraction at the start of a text, if there is one: a point and digits. -/
def readFraction : List Char → Option (List Char × List Char)
  | '.' :: rest =>
    match digits rest with
    | ([], _) => none
    | (found, rest) => some ('.' :: found, rest)
  | s => some ([], s)

/-- The sign at the start of an exponent, if there is one. -/
def readSign : List Char → List Char × List Char
  | '+' :: rest => (['+'], rest)
  | '-' :: rest => (['-'], rest)
  | s => ([], s)

/-- The exponent at the start of a text, if there is one: the letter, a sign and digits. -/
def readExponent : List Char → Option (List Char × List Char)
  | [] => some ([], [])
  | e :: rest =>
    if e = 'e' || e = 'E' then
      let (sign, rest) := readSign rest
      match digits rest with
      | ([], _) => none
      | (found, rest) => some (e :: sign ++ found, rest)
    else some ([], e :: rest)

/-- A number without its sign, in its three parts. -/
def readNumber (s : List Char) : Option ((List Char × List Char × List Char) × List Char) := do
  let (whole, s) ← readWhole s
  let (fraction, s) ← readFraction s
  let (exponent, s) ← readExponent s
  return ((whole, fraction, exponent), s)

/-- What follows a word that has to stand at the start of a text. -/
def dropWord (word : List Char) (s : List Char) : Option (List Char) :=
  if word.isPrefixOf s then some (s.drop word.length) else none

/-- The token at the start of a text, and what follows it. -/
def read? : List Char → Option (Token × List Char)
  | [] => none
  | '\x7b' :: rest => some (.openObject, rest)
  | '\x7d' :: rest => some (.closeObject, rest)
  | '[' :: rest => some (.openArray, rest)
  | ']' :: rest => some (.closeArray, rest)
  | ':' :: rest => some (.colon, rest)
  | ',' :: rest => some (.comma, rest)
  | '"' :: rest => do
    let (pieces, rest) ← readString rest
    return (.string (String.ofList <$> Piece.join pieces), rest)
  | 'n' :: rest => do return (.null, ← dropWord ['u', 'l', 'l'] rest)
  | 't' :: rest => do return (.bool true, ← dropWord ['r', 'u', 'e'] rest)
  | 'f' :: rest => do return (.bool false, ← dropWord ['a', 'l', 's', 'e'] rest)
  | '-' :: rest => do
    let ((whole, fraction, exponent), rest) ← readNumber rest
    return (.number ('-' :: whole ++ fraction ++ exponent), rest)
  | s => do
    let ((whole, fraction, exponent), rest) ← readNumber s
    if fraction.isEmpty && exponent.isEmpty then
      return (.natural (Nat.ofDigitChars 10 whole 0), rest)
    return (.number (whole ++ fraction ++ exponent), rest)

/-!
Each reader leaves less than it was given, so that reading token after token ends.
-/

theorem length_readString {s rest : List Char} {pieces : List Piece}
    (h : readString s = some (pieces, rest)) : rest.length < s.length := by
  fun_induction readString s generalizing pieces rest with
  | case1 => simp at h
  | case2 r => simp_all
  | case3 a b c d r ih =>
    simp only [Option.bind_eq_bind, Option.bind_eq_some_iff] at h
    obtain ⟨_, _, ⟨_, _⟩, found, h⟩ := h
    have := ih found
    simp_all
    omega
  | case4 letter r _ ih =>
    simp only [Option.bind_eq_bind, Option.bind_eq_some_iff] at h
    obtain ⟨_, _, ⟨_, _⟩, found, h⟩ := h
    have := ih found
    simp_all
    omega
  | case5 c r _ _ _ _ => simp at h
  | case6 c r _ _ _ _ ih =>
    simp only [Option.bind_eq_bind, Option.bind_eq_some_iff] at h
    obtain ⟨⟨_, _⟩, found, h⟩ := h
    have := ih found
    simp_all
    omega

theorem length_digits (s : List Char) : (digits s).2.length ≤ s.length :=
  (List.dropWhile_sublist _).length_le

theorem length_digits_lt {s : List Char} (h : (digits s).1 ≠ []) : (digits s).2.length < s.length := by
  cases s with
  | nil => simp [digits] at h
  | cons c rest =>
    cases hc : c.isDigit with
    | false => simp [digits, hc] at h
    | true =>
      have := (List.dropWhile_sublist Char.isDigit (l := rest)).length_le
      simp [digits, hc]
      omega

theorem length_readWhole {s found rest : List Char} (h : readWhole s = some (found, rest)) :
    rest.length < s.length := by
  unfold readWhole at h
  split at h
  · simp_all
  · split at h
    · simp at h
    · rename_i nonempty
      have hd : digits s = (found, rest) := by simpa using h
      have := length_digits_lt (s := s) (by rintro none; exact nonempty _ (by rw [← none]))
      rwa [hd] at this

theorem length_readFraction {s found rest : List Char} (h : readFraction s = some (found, rest)) :
    rest.length ≤ s.length := by
  unfold readFraction at h
  split at h
  · rename_i r
    split at h
    · simp at h
    · rename_i hd
      have := length_digits r
      simp_all
      omega
  · simp_all

theorem length_readExponent {s found rest : List Char} (h : readExponent s = some (found, rest)) :
    rest.length ≤ s.length := by
  unfold readExponent at h
  split at h
  · simp_all
  · rename_i e r
    split at h
    · have signed : (readSign r).2.length ≤ r.length := by
        unfold readSign
        split <;> simp
      split at h
      rename_i sign r' hs
      split at h
      · simp at h
      · rename_i hd
        have := length_digits r'
        simp_all
        omega
    · simp_all

theorem length_readNumber {s rest : List Char} {parts : List Char × List Char × List Char}
    (h : readNumber s = some (parts, rest)) : rest.length < s.length := by
  simp only [readNumber, Option.bind_eq_bind, Option.bind_eq_some_iff] at h
  obtain ⟨⟨_, _⟩, whole, ⟨_, _⟩, fraction, ⟨_, _⟩, exponent, h⟩ := h
  have := length_readWhole whole
  have := length_readFraction fraction
  have := length_readExponent exponent
  simp_all
  omega

theorem length_dropWord {word s rest : List Char} (h : dropWord word s = some rest) :
    rest.length ≤ s.length := by
  unfold dropWord at h
  split at h <;> simp_all
  subst h
  simp

theorem length_read? {s rest : List Char} {token : Token} (h : read? s = some (token, rest)) :
    rest.length < s.length := by
  unfold read? at h
  split at h
  case h_1 => simp at h
  case h_8 =>
    simp only [Option.bind_eq_bind, Option.bind_eq_some_iff] at h
    obtain ⟨⟨_, _⟩, found, h⟩ := h
    have := length_readString found
    simp_all
    omega
  case h_9 | h_10 | h_11 =>
    simp only [Option.bind_eq_bind, Option.bind_eq_some_iff] at h
    obtain ⟨_, found, h⟩ := h
    have shorter := length_dropWord found
    simp only [Option.some.injEq, Prod.mk.injEq, Option.pure_def] at h
    rw [← h.2, List.length_cons]
    omega
  case h_12 =>
    simp only [Option.bind_eq_bind, Option.bind_eq_some_iff] at h
    obtain ⟨⟨_, _⟩, found, h⟩ := h
    have := length_readNumber found
    simp_all
    omega
  case h_13 =>
    simp only [Option.bind_eq_bind, Option.bind_eq_some_iff] at h
    obtain ⟨⟨_, _⟩, found, h⟩ := h
    have := length_readNumber found
    dsimp only at h
    split at h <;> simp_all
  all_goals simp_all

/-- All tokens of a text. -/
def readAll (s : List Char) : Option (List Token) :=
  match s with
  | [] => some []
  | c :: rest =>
    if isBlank c then readAll rest
    else
      match _h : read? (c :: rest) with
      | none => none
      | some (token, rest') => (token :: ·) <$> readAll rest'
termination_by s.length
decreasing_by
  · simp
  · exact length_read? _h

end Token

end YulFuzz.Json
