/-
Module: YulFuzz.Proofs.Json.Lexeme
Purpose: The lexical grammar of JSON text: the ways in which each token may be written, and the texts that write
  a list of tokens with blanks between them. Every such text is read as its tokens. A number has to end before
  a character that would continue it; all other tokens end by themselves.
Main exports: Json.Token.Written, Json.Laid, Json.Token.read?_of_written, Json.Laid.readAll_eq
-/
import YulFuzz.Json.Token

namespace YulFuzz.Json

/-! ### The lexical grammar -/

/-- At least one decimal digit. -/
def IsDigits (s : List Char) : Prop := s ≠ [] ∧ ∀ c ∈ s, c.isDigit

/-- The whole part of a number: digits without a superfluous zero in front. -/
def IsWhole (s : List Char) : Prop := s = ['0'] ∨ IsDigits s ∧ s.head? ≠ some '0'

/-- The fraction of a number, which may be missing. -/
inductive IsFraction : List Char → Prop where
  | missing : IsFraction []
  | digits {ds : List Char} : IsDigits ds → IsFraction ('.' :: ds)

/-- The exponent of a number, which may be missing. -/
inductive IsExponent : List Char → Prop where
  | missing : IsExponent []
  | digits {e : Char} {sign ds : List Char} : e = 'e' ∨ e = 'E' → sign = [] ∨ sign = ['+'] ∨ sign = ['-'] →
    IsDigits ds → IsExponent (e :: (sign ++ ds))

/-- The ways of writing a part of the inside of a string. -/
inductive Piece.Written : Piece → List Char → Prop where
  /-- As it is. -/
  | plain {c : Char} : c ≠ '"' → c ≠ '\\' → ' ' ≤ c → Written (.char c) [c]
  /-- By the letter of an escape. -/
  | letter {letter c : Char} : Token.escaped? letter = some c → Written (.char c) ['\\', letter]
  /-- By four hex digits. -/
  | code {a b c d : Char} {code : Nat} : Token.unit? a b c d = some code →
    Written (.unit code) ['\\', 'u', a, b, c, d]

/-- The inside of a string, with its parts in order. -/
inductive PiecesWritten : List Piece → List Char → Prop where
  | nil : PiecesWritten [] []
  | cons {piece : Piece} {pieces : List Piece} {here rest : List Char} :
    piece.Written here → PiecesWritten pieces rest → PiecesWritten (piece :: pieces) (here ++ rest)

namespace Token

/-- The ways of writing a token. -/
inductive Written : Token → List Char → Prop where
  | openObject : Written .openObject ['\x7b']
  | closeObject : Written .closeObject ['\x7d']
  | openArray : Written .openArray ['[']
  | closeArray : Written .closeArray [']']
  | colon : Written .colon [':']
  | comma : Written .comma [',']
  | nullWord : Written .null ['n', 'u', 'l', 'l']
  | trueWord : Written (.bool true) ['t', 'r', 'u', 'e']
  | falseWord : Written (.bool false) ['f', 'a', 'l', 's', 'e']
  /-- Digits alone are a natural number. -/
  | natural {whole : List Char} : IsWhole whole → Written (.natural (Nat.ofDigitChars 10 whole 0)) whole
  | positive {whole fraction exponent : List Char} : IsWhole whole → IsFraction fraction →
    IsExponent exponent → fraction ≠ [] ∨ exponent ≠ [] →
    Written (.number (whole ++ fraction ++ exponent)) (whole ++ fraction ++ exponent)
  | negative {whole fraction exponent : List Char} : IsWhole whole → IsFraction fraction →
    IsExponent exponent →
    Written (.number ('-' :: whole ++ fraction ++ exponent)) ('-' :: whole ++ fraction ++ exponent)
  | string {pieces : List Piece} {inside : List Char} : PiecesWritten pieces inside →
    Written (.string (String.ofList <$> Piece.join pieces)) ('"' :: inside ++ ['"'])

/-- The character may be part of a number after its first digit. -/
def Continues (c : Char) : Prop := c.isDigit ∨ c = '.' ∨ c = 'e' ∨ c = 'E'

instance (c : Char) : Decidable (Continues c) := inferInstanceAs (Decidable (_ ∨ _))

/-- The text does not continue a number that stands in front of it. -/
def Ends (s : List Char) : Prop := ∀ c ∈ s.head?, ¬ Continues c

/-- Whether a token ends only where the text does not continue it. -/
def IsNumeric : Token → Prop
  | .natural _ | .number _ => True
  | _ => False

end Token

/-- The texts that write tokens in order, with blanks around them. -/
inductive Laid : List Token → List Char → Prop where
  | nil {blanks : List Char} : (∀ c ∈ blanks, Token.isBlank c) → Laid [] blanks
  | cons {token : Token} {tokens : List Token} {blanks here rest : List Char} :
    (∀ c ∈ blanks, Token.isBlank c) → token.Written here → (token.IsNumeric → Token.Ends rest) →
    Laid tokens rest → Laid (token :: tokens) (blanks ++ here ++ rest)

/-! ### Strings are read back -/

namespace Token

theorem readString_piece {piece : Piece} {here : List Char} (written : piece.Written here) (rest : List Char) :
    readString (here ++ rest) = (fun found => (piece :: found.1, found.2)) <$> readString rest := by
  cases written with
  | @plain c quote backslash visible =>
      rw [List.singleton_append, readString, if_neg (Char.not_lt.2 visible)]
      · cases readString rest <;> rfl
      all_goals simp_all
  | @letter letter c escape =>
      have other : letter ≠ 'u' := by
        rintro rfl
        cases escape
      rw [List.cons_append, List.singleton_append, readString, escape]
      · cases readString rest <;> rfl
      all_goals simp_all
  | code spelled =>
      rw [List.cons_append, List.cons_append, List.cons_append, List.cons_append, List.cons_append,
        List.singleton_append, readString, spelled]
      cases readString rest <;> rfl

/-- The inside of a string is read up to the quote after it. -/
theorem readString_pieces {pieces : List Piece} {inside : List Char} (written : PiecesWritten pieces inside)
    (rest : List Char) : readString (inside ++ '"' :: rest) = some (pieces, rest) := by
  induction written with
  | nil => rfl
  | cons here _ ih => rw [List.append_assoc, readString_piece here, ih]; rfl

/-! ### Numbers are read back -/

theorem digits_append {ds rest : List Char} (all : ∀ c ∈ ds, c.isDigit) (ends : ∀ c ∈ rest.head?, ¬ c.isDigit) :
    digits (ds ++ rest) = (ds, rest) := by
  induction ds with
  | nil =>
      cases rest with
      | nil => rfl
      | cons c rest => simp [digits, ends c rfl]
  | cons d ds ih =>
      have here : d.isDigit := all d List.mem_cons_self
      have others := ih fun c member => all c (List.mem_cons_of_mem _ member)
      rw [digits, Prod.mk.injEq] at others
      rw [digits, List.cons_append, List.takeWhile_cons_of_pos here, List.dropWhile_cons_of_pos here, others.1,
        others.2]

theorem Ends.not_digit {rest : List Char} (ends : Ends rest) : ∀ c ∈ rest.head?, ¬ c.isDigit :=
  fun c first digit => ends c first (.inl digit)

theorem readWhole_append {whole rest : List Char} (written : IsWhole whole)
    (ends : ∀ c ∈ rest.head?, ¬ c.isDigit) : readWhole (whole ++ rest) = some (whole, rest) := by
  rcases written with rfl | ⟨⟨nonempty, all⟩, noZero⟩
  · rfl
  · cases whole with
    | nil => exact absurd rfl nonempty
    | cons d ds =>
        have found := digits_append all ends
        rw [List.cons_append] at found ⊢
        unfold readWhole
        split
        · simp_all
        · rw [found]

theorem readFraction_append {fraction rest : List Char} (written : IsFraction fraction)
    (ends : ∀ c ∈ rest.head?, ¬ c.isDigit) (noPoint : fraction = [] → rest.head? ≠ some '.') :
    readFraction (fraction ++ rest) = some (fraction, rest) := by
  cases written with
  | missing =>
      rw [List.nil_append]
      unfold readFraction
      split
      · simp_all
      · rfl
  | @digits ds written =>
      rw [List.cons_append, readFraction, digits_append written.2 ends]
      cases ds with
      | nil => exact absurd rfl written.1
      | cons d ds => rfl

theorem readSign_append {sign ds : List Char} (written : sign = [] ∨ sign = ['+'] ∨ sign = ['-'])
    (digits : IsDigits ds) (rest : List Char) : readSign (sign ++ (ds ++ rest)) = (sign, ds ++ rest) := by
  rcases written with rfl | rfl | rfl
  · cases ds with
    | nil => exact absurd rfl digits.1
    | cons d ds =>
        have first : d.isDigit := digits.2 d List.mem_cons_self
        rw [List.nil_append, List.cons_append]
        unfold readSign
        split
        · simp_all
        · simp_all
        · rfl
  · rfl
  · rfl

theorem readExponent_append {exponent rest : List Char} (written : IsExponent exponent) (ends : Ends rest) :
    readExponent (exponent ++ rest) = some (exponent, rest) := by
  cases written with
  | missing =>
      cases rest with
      | nil => rfl
      | cons c rest =>
          have other : ¬ (c = 'e' || c = 'E') = true := fun letter =>
            ends c rfl (.inr (.inr (by simpa using letter)))
          rw [List.nil_append, readExponent, if_neg other]
  | @digits e sign ds letter signed written =>
      have here : (e = 'e' || e = 'E') = true := by simpa using letter
      rw [List.cons_append, List.append_assoc, readExponent, if_pos here, readSign_append signed written]
      dsimp only
      rw [digits_append written.2 ends.not_digit]
      cases ds with
      | nil => exact absurd rfl written.1
      | cons d ds => rfl

/-- What follows the fraction of a number is neither a digit nor a point. -/
theorem exponent_head {exponent rest : List Char} (written : IsExponent exponent) (ends : Ends rest) :
    ∀ c ∈ (exponent ++ rest).head?, ¬ c.isDigit ∧ c ≠ '.' := by
  cases written with
  | missing => exact fun c first => ⟨ends.not_digit c first, fun point => ends c first (.inr (.inl point))⟩
  | digits letter =>
      rintro c ⟨⟩
      rcases letter with rfl | rfl <;> decide

/-- What follows the whole part of a number is no digit. -/
theorem fraction_head {fraction exponent rest : List Char} (fractional : IsFraction fraction)
    (written : IsExponent exponent) (ends : Ends rest) :
    ∀ c ∈ (fraction ++ (exponent ++ rest)).head?, ¬ c.isDigit := by
  cases fractional with
  | missing => exact fun c first => (exponent_head written ends c first).1
  | digits =>
      rintro c ⟨⟩
      decide

theorem readNumber_append {whole fraction exponent rest : List Char} (whole_ : IsWhole whole)
    (fractional : IsFraction fraction) (written : IsExponent exponent) (ends : Ends rest) :
    readNumber (whole ++ fraction ++ exponent ++ rest) = some ((whole, fraction, exponent), rest) := by
  have noPoint : (exponent ++ rest).head? ≠ some '.' := fun point => (exponent_head written ends _ point).2 rfl
  rw [List.append_assoc, List.append_assoc, readNumber,
    readWhole_append whole_ (fraction_head fractional written ends)]
  simp only [Option.bind_eq_bind, Option.bind_some,
    readFraction_append fractional (fun c first => (exponent_head written ends c first).1) fun _ => noPoint,
    readExponent_append written ends]
  rfl

theorem exists_digit_of_isWhole {whole : List Char} (written : IsWhole whole) :
    ∃ d ds, whole = d :: ds ∧ d.isDigit := by
  rcases written with rfl | ⟨⟨nonempty, all⟩, _⟩
  · exact ⟨'0', [], rfl, rfl⟩
  · obtain ⟨d, ds, rfl⟩ := List.exists_cons_of_ne_nil nonempty
    exact ⟨d, ds, rfl, all d List.mem_cons_self⟩

/-- A token that starts with a digit is a number. -/
theorem read?_of_digit {d : Char} (digit : d.isDigit) (rest : List Char) :
    read? (d :: rest) = (do
      let ((whole, fraction, exponent), rest) ← readNumber (d :: rest)
      if fraction.isEmpty && exponent.isEmpty then
        return (.natural (Nat.ofDigitChars 10 whole 0), rest)
      return (.number (whole ++ fraction ++ exponent), rest)) := by
  unfold read?
  split <;> first | rfl | simp_all

/-- A token is read from each of the texts that write it. -/
theorem read?_of_written {token : Token} {here rest : List Char} (written : token.Written here)
    (ends : token.IsNumeric → Ends rest) : read? (here ++ rest) = some (token, rest) := by
  cases written with
  | openObject | closeObject | openArray | closeArray | colon | comma | nullWord | trueWord | falseWord => rfl
  | natural whole =>
      have number := readNumber_append whole .missing .missing (ends trivial)
      rw [List.append_nil, List.append_nil] at number
      obtain ⟨d, ds, rfl, digit⟩ := exists_digit_of_isWhole whole
      rw [List.cons_append] at number ⊢
      rw [read?_of_digit digit, number]
      rfl
  | @positive whole fraction exponent written fractional exponential some =>
      have number := readNumber_append written fractional exponential (ends trivial)
      obtain ⟨d, ds, rfl, digit⟩ := exists_digit_of_isWhole written
      rw [List.cons_append, List.cons_append, List.cons_append] at number ⊢
      rw [read?_of_digit digit, number]
      have real : (fraction.isEmpty && exponent.isEmpty) = false := by
        rcases some with some | some <;> simp [some]
      simp only [Option.bind_eq_bind, Option.bind_some, real]
      rfl
  | negative written fractional exponential =>
      have number := readNumber_append written fractional exponential (ends trivial)
      rw [List.cons_append, List.cons_append, List.cons_append, read?, number]
      rfl
  | string written =>
      rw [List.cons_append, List.cons_append, List.append_assoc, read?, List.singleton_append,
        readString_pieces written]
      rfl

theorem isBlank_of_isDigit {d : Char} (digit : d.isDigit) : isBlank d = false := by
  unfold isBlank
  have other (c : Char) (blank : c.isDigit = false) : d ≠ c := by
    rintro rfl
    rw [blank] at digit
    cases digit
  simp [other]

/-- No token starts with a blank. -/
theorem Written.head_not_blank {token : Token} {here : List Char} (written : token.Written here) :
    ∃ c rest, here = c :: rest ∧ isBlank c = false := by
  cases written with
  | openObject | closeObject | openArray | closeArray | colon | comma | nullWord | trueWord | falseWord | negative
  | string => exact ⟨_, _, rfl, rfl⟩
  | natural whole =>
      obtain ⟨d, ds, rfl, digit⟩ := exists_digit_of_isWhole whole
      exact ⟨d, ds, rfl, isBlank_of_isDigit digit⟩
  | positive whole =>
      obtain ⟨d, ds, rfl, digit⟩ := exists_digit_of_isWhole whole
      exact ⟨d, _, rfl, isBlank_of_isDigit digit⟩

end Token

/-! ### Texts are read back -/

theorem Token.readAll_blanks {blanks : List Char} (all : ∀ c ∈ blanks, isBlank c) (rest : List Char) :
    readAll (blanks ++ rest) = readAll rest := by
  induction blanks with
  | nil => rfl
  | cons c blanks ih =>
      rw [List.cons_append, readAll, if_pos (all c List.mem_cons_self),
        ih fun c member => all c (List.mem_cons_of_mem _ member)]

theorem Token.readAll_token {s rest : List Char} {token : Token} {c : Char} {others : List Char}
    (first : s = c :: others) (visible : isBlank c = false) (found : read? s = some (token, rest)) :
    readAll s = (token :: ·) <$> readAll rest := by
  subst first
  rw [readAll, if_neg (by rw [visible]; exact Bool.false_ne_true)]
  split
  · simp_all
  · simp_all

/-- A text that writes tokens is read as them. -/
theorem Laid.readAll_eq {tokens : List Token} {s : List Char} (laid : Laid tokens s) :
    Token.readAll s = some tokens := by
  induction laid with
  | nil blanks =>
      have none := Token.readAll_blanks blanks []
      rw [List.append_nil] at none
      rw [none, Token.readAll]
  | cons blanks written ends _ ih =>
      obtain ⟨c, others, first, visible⟩ := written.head_not_blank
      rw [List.append_assoc, Token.readAll_blanks blanks,
        Token.readAll_token (by rw [first, List.cons_append]) visible (Token.read?_of_written written ends), ih]
      rfl

end YulFuzz.Json
