/-
Module: YulFuzz.Proofs.Json.Text
Purpose: The texts of a JSON value: those that write its tokens, with blanks wherever they may stand and with any
  spelling of strings and numbers. Each of them is read as the value, whatever its depth, and the printed text
  is one of them.
Main exports: Json.tokens, Json.IsText, Json.read?_of_isText, Json.Printable, Json.isText_print
-/
import YulFuzz.Json.Printer
import YulFuzz.Json.Reader
import YulFuzz.Proofs.Json.Lexeme

namespace YulFuzz.Json

mutual

/-- The tokens of a value. -/
def tokens : Json → List Token
  | .null => [.null]
  | .bool value => [.bool value]
  | .natural value => [.natural value]
  | .number lexeme => [.number lexeme]
  | .string text => [.string text]
  | .array items => .openArray :: (itemTokens items ++ [.closeArray])
  | .object members => .openObject :: (memberTokens members ++ [.closeObject])

/-- The tokens of the items of an array, with commas between them. -/
def itemTokens : List Json → List Token
  | [] => []
  | [item] => item.tokens
  | item :: next :: rest => item.tokens ++ .comma :: itemTokens (next :: rest)

/-- The tokens of the members of an object, with commas between them. -/
def memberTokens : List (Option String × Json) → List Token
  | [] => []
  | [(key, value)] => .string key :: .colon :: value.tokens
  | (key, value) :: next :: rest =>
    .string key :: .colon :: (value.tokens ++ .comma :: memberTokens (next :: rest))

end

/-- The text is one of the texts of the value. -/
def IsText (value : Json) (text : String) : Prop := Laid value.tokens text.toList

/-! ### Values are built from their tokens -/

/-- The tokens of a value do not start with the end of an array. -/
theorem head_tokens (value : Json) : value.tokens.head? ≠ some .closeArray := by
  cases value <;> simp [tokens]

theorem head_itemTokens (item : Json) (rest : List Json) (more : List Token) :
    (itemTokens (item :: rest) ++ more).head? ≠ some .closeArray := by
  have first := item.head_tokens
  cases same : item.tokens with
  | nil => cases item <;> simp [tokens] at same
  | cons token others => cases rest <;> simp_all [itemTokens]

/-- An array is opened unless it is closed at once. -/
theorem build_openArray {frames : List Frame} {tokens : List Token} (some : tokens.head? ≠ some .closeArray) :
    build none frames (.openArray :: tokens) = build none (.array [] :: frames) tokens := by
  cases tokens with
  | nil => rfl
  | cons token rest => cases token <;> first | rfl | exact absurd rfl some

mutual

/-- Inside any open containers a value is built from its tokens. -/
theorem build_tokens : ∀ (value : Json) (frames : List Frame) (rest : List Token),
    build none frames (value.tokens ++ rest) = build (some value) frames rest
  | .null, _, _ => rfl
  | .bool _, _, _ => rfl
  | .natural _, _, _ => rfl
  | .number _, _, _ => rfl
  | .string _, _, _ => rfl
  | .array [], _, _ => rfl
  | .array (item :: items), frames, rest => by
      rw [tokens, List.cons_append, List.append_assoc, build_openArray (head_itemTokens item items _)]
      exact build_items (item :: items) [] frames rest (List.cons_ne_nil _ _)
  | .object [], _, _ => rfl
  | .object (member :: members), frames, rest => by
      rw [tokens, List.cons_append, List.append_assoc]
      exact build_members (member :: members) [] frames rest
        (fun tokens => build none frames (.openObject :: tokens)) (fun _ _ => rfl) (List.cons_ne_nil _ _)

/-- The items of an open array are built one after another. -/
theorem build_items : ∀ (items done : List Json) (frames : List Frame) (rest : List Token), items ≠ [] →
    build none (.array done :: frames) (itemTokens items ++ .closeArray :: rest) =
      build (some (.array (done.reverse ++ items))) frames rest
  | [], _, _, _, nonempty => absurd rfl nonempty
  | [item], done, frames, rest, _ => by
      rw [itemTokens, build_tokens item, build, List.reverse_cons]
  | item :: next :: others, done, frames, rest, _ => by
      have further := build_items (next :: others) (item :: done) frames rest (List.cons_ne_nil _ _)
      rw [List.reverse_cons, List.append_assoc] at further
      rw [itemTokens, List.append_assoc, build_tokens item]
      exact further

/-- The members of an open object are built one after another. A member is entered after the opening of the object
    or after a comma. -/
theorem build_members : ∀ (members done : List (Option String × Json)) (frames : List Frame)
    (rest : List Token) (enter : List Token → Option Json),
    (∀ key tokens, enter (.string key :: .colon :: tokens) = build none (.object done key :: frames) tokens) →
    members ≠ [] →
    enter (memberTokens members ++ .closeObject :: rest) =
      build (some (.object (done.reverse ++ members))) frames rest
  | [], _, _, _, _, _, nonempty => absurd rfl nonempty
  | [(key, value)], done, frames, rest, enter, enters, _ => by
      rw [memberTokens, List.cons_append, List.cons_append, enters, build_tokens value, build, List.reverse_cons]
  | (key, value) :: next :: others, done, frames, rest, enter, enters, _ => by
      have further := build_members (next :: others) ((key, value) :: done) frames rest
        (fun tokens => build (some value) (.object done key :: frames) (.comma :: tokens)) (fun _ _ => rfl)
        (List.cons_ne_nil _ _)
      rw [List.reverse_cons, List.append_assoc] at further
      rw [memberTokens, List.cons_append, List.cons_append, List.append_assoc, enters, build_tokens value]
      exact further

end

/-- Every text of a value is read as the value. -/
theorem read?_of_isText {value : Json} {text : String} (written : value.IsText text) :
    read? text = some value := by
  have built := build_tokens value [] []
  rw [List.append_nil] at built
  unfold read?
  rw [Laid.readAll_eq written]
  exact built

/-! ### The printed text -/

mutual

/-- Numbers in the value are written as numbers are. -/
def Printable : Json → Prop
  | .number lexeme => Token.Written (.number lexeme) lexeme
  | .array items => AllPrintable items
  | .object members => MembersPrintable members
  | _ => True

/-- All items are printable. -/
def AllPrintable : List Json → Prop
  | [] => True
  | item :: rest => item.Printable ∧ AllPrintable rest

/-- All members are printable. -/
def MembersPrintable : List (Option String × Json) → Prop
  | [] => True
  | (_, value) :: rest => value.Printable ∧ MembersPrintable rest

end

theorem printable_array {items : List Json} : (array items).Printable ↔ ∀ item ∈ items, item.Printable := by
  rw [Printable]
  induction items with
  | nil => simp [AllPrintable]
  | cons item rest ih => rw [AllPrintable, ih, List.forall_mem_cons]

theorem printable_object {members : List (Option String × Json)} :
    (object members).Printable ↔ ∀ member ∈ members, member.2.Printable := by
  rw [Printable]
  induction members with
  | nil => simp [MembersPrintable]
  | cons member rest ih => rw [MembersPrintable, ih, List.forall_mem_cons]

namespace Laid

variable {first second : List Token} {s t : List Char}

theorem token {token : Token} {tokens : List Token} {here : List Char} (written : token.Written here)
    (ends : token.IsNumeric → Token.Ends t) (further : Laid tokens t) : Laid (token :: tokens) (here ++ t) := by
  rw [← List.nil_append here]
  exact .cons nofun written ends further

theorem single {token : Token} {here : List Char} (written : token.Written here) : Laid [token] here := by
  have laid := Laid.token (t := []) written (fun _ => nofun) (.nil nofun)
  rwa [List.append_nil] at laid

/-- Blanks may stand in front. -/
theorem blanks {tokens : List Token} {front : List Char} (all : ∀ c ∈ front, Token.isBlank c)
    (laid : Laid tokens t) : Laid tokens (front ++ t) := by
  cases laid with
  | nil others =>
      refine .nil fun c member => ?_
      rcases List.mem_append.1 member with here | there
      · exact all c here
      · exact others c there
  | @cons token tokens between here rest others written ends further =>
      rw [← List.append_assoc, ← List.append_assoc]
      refine .cons (fun c member => ?_) written ends further
      rcases List.mem_append.1 member with here | there
      · exact all c here
      · exact others c there

/-- A text may follow that does not continue a number. -/
theorem append (laid : Laid first s) (ends : Token.Ends t) (further : Laid second t) :
    Laid (first ++ second) (s ++ t) := by
  induction laid with
  | nil blanks => exact further.blanks blanks
  | @cons token tokens blanks here rest all written stops _ ih =>
      rw [List.append_assoc]
      refine .cons all written (fun numeric => ?_) ih
      cases rest with
      | nil => exact ends
      | cons c rest => exact stops numeric

end Laid

/-- The four digits of a unit spell it. -/
theorem written_unitDigits {code : Nat} (small : code < 0x10000) :
    Piece.Written (.unit code) ('\\' :: 'u' :: unitDigits code) := by
  apply Piece.Written.code
  unfold Token.unit?
  rw [Hex.digit?_digitChar (Nat.mod_lt _ (by decide)), Hex.digit?_digitChar (Nat.mod_lt _ (by decide)),
    Hex.digit?_digitChar (Nat.mod_lt _ (by decide)), Hex.digit?_digitChar (Nat.mod_lt _ (by decide))]
  simp only [Option.bind_eq_bind, Option.bind_some, Option.pure_def, Option.some.injEq]
  omega

/-- The part of a string that a character is printed as. -/
def pieceOf (c : Char) : Piece :=
  if (escapeLetter? c).isNone ∧ c < ' ' then .unit c.toNat else .char c

theorem escaped?_of_escapeLetter? {c letter : Char} (escape : escapeLetter? c = some letter) :
    Token.escaped? letter = some c := by
  unfold escapeLetter? at escape
  split at escape <;> cases escape <;> rfl

theorem toNat_lt_of_control {c : Char} (control : c < ' ') : c.toNat < 0x20 := UInt32.lt_iff_toNat_lt.1 control

theorem written_printChar (c : Char) : (pieceOf c).Written (printChar c) := by
  unfold pieceOf printChar
  cases escape : escapeLetter? c with
  | some letter => exact .letter (escaped?_of_escapeLetter? escape)
  | none =>
      by_cases control : c < ' '
      · rw [if_pos ⟨rfl, control⟩]
        simp only [if_pos control]
        exact written_unitDigits (Nat.lt_trans (toNat_lt_of_control control) (by decide))
      · rw [if_neg fun both => control both.2]
        simp only [if_neg control]
        have other (d : Char) (escaped : (escapeLetter? d).isSome) : c ≠ d := by
          rintro rfl
          rw [escape] at escaped
          cases escaped
        exact .plain (other _ rfl) (other _ rfl) (Char.not_lt.1 control)

/-- Control characters are not in the range of surrogates. -/
theorem join_pieceOf (c : Char) (rest : List Piece) :
    Piece.join (pieceOf c :: rest) = (c :: ·) <$> Piece.join rest := by
  unfold pieceOf
  split
  case isFalse => rfl
  case isTrue control =>
      have low := toNat_lt_of_control control.2
      have alone : Piece.isTrailing c.toNat = false ∧ Piece.isLeading c.toNat = false := by
        simp [Piece.isTrailing, Piece.isLeading]
        omega
      rw [Piece.join.eq_def]
      simp only [alone.1, alone.2, Char.ofNat_toNat]
      rfl

theorem join_pieces (text : List Char) : Piece.join (text.map pieceOf) = some text := by
  induction text with
  | nil => rfl
  | cons c rest ih => rw [List.map_cons, join_pieceOf, ih]; rfl

theorem written_pieces (text : List Char) : PiecesWritten (text.map pieceOf) (text.flatMap printChar) := by
  induction text with
  | nil => exact .nil
  | cons c rest ih => exact .cons (written_printChar c) ih

/-- A text that is none is written as the first half of a surrogate pair without the second. -/
theorem written_printString (text : Option String) : Token.Written (.string text) (printString text) := by
  cases text with
  | some text =>
      have written := Token.Written.string (written_pieces text.toList)
      rw [join_pieces, Option.map_eq_map, Option.map_some, String.ofList_toList] at written
      exact written
  | none =>
      have unit : Piece.Written (.unit 0xD800) ('\\' :: 'u' :: unitDigits 0xD800) := written_unitDigits (by decide)
      exact .string (.cons unit .nil)

theorem isWhole_toDigits (value : Nat) : IsWhole (Nat.toDigits 10 value) := by
  induction value using Nat.strongRecOn with
  | ind value ih =>
      have digits : IsDigits (Nat.toDigits 10 value) :=
        ⟨Nat.toDigits_ne_nil, fun c member => Nat.isDigit_of_mem_toDigits (by decide) (by decide) member⟩
      by_cases small : value < 10
      · rw [Nat.toDigits_of_lt_base small] at digits ⊢
        by_cases zero : value = 0
        · exact .inl (by rw [zero]; rfl)
        · exact .inr ⟨digits, by simpa [Nat.digitChar_eq_zero] using zero⟩
      · refine .inr ⟨digits, ?_⟩
        have digitsOf := Nat.ofDigitChars_toDigits (b := 10) (n := value / 10) (by decide) (by decide)
        rw [Nat.toDigits_of_base_le (by decide) (Nat.not_lt.1 small), List.head?_append,
          Option.or_of_isSome (by simp [Nat.toDigits_ne_nil])]
        rcases ih (value / 10) (by omega) with zero | ⟨_, noZero⟩
        · rw [zero] at digitsOf
          change 0 = value / 10 at digitsOf
          omega
        · exact noZero

theorem written_toDigits (value : Nat) : Token.Written (.natural value) (Nat.toDigits 10 value) := by
  have written := Token.Written.natural (isWhole_toDigits value)
  rwa [Nat.ofDigitChars_toDigits (by decide) (by decide)] at written

theorem ends_cons {c : Char} {rest : List Char} (other : ¬ Token.Continues c) : Token.Ends (c :: rest) := by
  rintro _ ⟨⟩
  exact other

mutual

/-- A value is printed as a text of its tokens. -/
theorem laid_printChars : ∀ {value : Json}, value.Printable → Laid value.tokens value.printChars
  | .null, _ => .single .nullWord
  | .bool true, _ => .single .trueWord
  | .bool false, _ => .single .falseWord
  | .natural value, _ => .single (written_toDigits value)
  | .number _, printable => .single printable
  | .string text, _ => .single (written_printString text)
  | .array _, printable => by
      have laid := Laid.token .openArray nofun
        ((laid_printItems printable).append (ends_cons (by decide)) (.single .closeArray))
      exact laid
  | .object _, printable => by
      have laid := Laid.token .openObject nofun
        ((laid_printMembers printable).append (ends_cons (by decide)) (.single .closeObject))
      exact laid

/-- The items of an array are printed as texts of their tokens. -/
theorem laid_printItems : ∀ {items : List Json}, AllPrintable items →
    Laid (itemTokens items) (printItems items)
  | [], _ => .nil nofun
  | [_], printable => laid_printChars printable.1
  | _ :: _ :: _, printable =>
      (laid_printChars printable.1).append (ends_cons (by decide))
        (.token .comma nofun (laid_printItems printable.2))

/-- The members of an object are printed as texts of their tokens. -/
theorem laid_printMembers : ∀ {members : List (Option String × Json)}, MembersPrintable members →
    Laid (memberTokens members) (printMembers members)
  | [], _ => .nil nofun
  | [(key, _)], printable =>
      .token (written_printString key) nofun (.token .colon nofun (laid_printChars printable.1))
  | (key, _) :: _ :: _, printable => by
      have laid := Laid.token (written_printString key) nofun (.token .colon nofun
        ((laid_printChars printable.1).append (ends_cons (by decide))
          (.token .comma nofun (laid_printMembers printable.2))))
      simpa [memberTokens, printMembers] using laid

end

/-- A value is read back from the text that it is printed as. -/
theorem isText_print {value : Json} (printable : value.Printable) : value.IsText value.print := by
  rw [IsText, print, String.toList_ofList]
  exact laid_printChars printable

end YulFuzz.Json
