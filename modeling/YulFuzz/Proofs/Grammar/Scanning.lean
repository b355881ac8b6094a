/-
Module: YulFuzz.Proofs.Grammar.Scanning
Purpose: Texts and the tokens that they are scanned to, whatever follows them. A closed text leaves nothing
  pending; the last word of a scanned one is completed by the next character that belongs to no word.
Main exports: Grammar.Closed, Grammar.Scans, Grammar.ScansLines, Grammar.ScansLines.tokens_join
-/
import Mathlib.Data.List.Forall2
import YulFuzz.Proofs.Grammar.Token

namespace YulFuzz.Grammar

variable {a b : String} {ts us : List Token} {c : Char} {rest : List Char}

theorem scan_cons (pending : Pending) (c : Char) (rest : List Char) :
    scan pending (c :: rest) = (do
      let (tokens, pending) ← step pending c
      let (more, pending) ← scan pending rest
      some (tokens ++ more, pending)) := rfl

theorem scan_append (pending : Pending) (first rest : List Char) :
    scan pending (first ++ rest) = (do
      let (tokens, pending) ← scan pending first
      let (more, pending) ← scan pending rest
      some (tokens ++ more, pending)) := by
  induction first generalizing pending with
  | nil =>
      rw [List.nil_append]
      change scan pending rest = (do
        let (more, pending) ← scan pending rest
        some ([] ++ more, pending))
      cases scan pending rest <;> rfl
  | cons c first ih =>
      rw [List.cons_append, scan_cons, scan_cons]
      cases step pending c with
      | none => rfl
      | some here =>
          simp only [Option.bind_eq_bind, Option.bind_some, ih]
          cases scan here.2 first with
          | none => rfl
          | some there =>
              simp only [Option.bind_some]
              cases scan there.2 rest with
              | none => rfl
              | some last => simp

/-- The text is scanned to the tokens, and nothing is pending after it. -/
def Closed (text : String) (tokens : List Token) : Prop :=
  scan .nothing text.toList = some (tokens, .nothing)

/-- The text is scanned to the tokens by the time a character comes that belongs to no word. -/
def Scans (text : String) (tokens : List Token) : Prop :=
  ∀ c, isWordChar c = false →
    scan .nothing (text.toList ++ [c]) = (start c).map fun next => (tokens ++ next.1, next.2)

/-- The text starts with a character that belongs to no word. -/
def Breaks (text : String) : Prop :=
  ∃ c rest, text.toList = c :: rest ∧ isWordChar c = false

theorem Breaks.append (breaks : Breaks a) (b : String) : Breaks (a ++ b) := by
  obtain ⟨c, rest, same, nonword⟩ := breaks
  exact ⟨c, rest ++ b.toList, by rw [String.toList_append, same, List.cons_append], nonword⟩

theorem Closed.scans (closed : Closed a ts) : Scans a ts := by
  intro c _
  rw [scan_append, closed]
  simp only [Option.bind_eq_bind, Option.bind_some, scan_cons, step]
  cases start c with
  | none => rfl
  | some next => simp [scan]

/-- The tokens that a text is scanned to are all the tokens of the text alone. -/
theorem Scans.tokens_eq (scanned : Scans a ts) : tokens a = some ts := by
  have feed := scanned '\n' rfl
  have next : start '\n' = some ([], .nothing) := rfl
  rw [scan_append, next] at feed
  unfold tokens
  cases known : scan .nothing a.toList with
  | none => rw [known] at feed; cases feed
  | some found =>
      obtain ⟨before, pending⟩ := found
      rw [known] at feed
      cases pending with
      | nothing => simpa [scan, step, next, finish] using feed
      | word chars =>
          have nonword : isWordChar '\n' = false := rfl
          cases last : Token.ofWord chars with
          | none => simp [scan, step, nonword, last] at feed
          | some token => simpa [scan, step, next, nonword, last, finish] using feed
      | quoted chars => simp [scan, step] at feed
      | colon => simpa [scan, step, next, finish] using feed
      | dash => simp [scan, step] at feed

theorem Closed.append (first : Closed a ts) (second : Closed b us) : Closed (a ++ b) (ts ++ us) := by
  unfold Closed at *
  rw [String.toList_append, scan_append, first]
  simp only [Option.bind_eq_bind, Option.bind_some, second]

theorem Closed.append_scans (first : Closed a ts) (second : Scans b us) : Scans (a ++ b) (ts ++ us) := by
  intro c nonword
  rw [String.toList_append, List.append_assoc, scan_append, first]
  simp only [Option.bind_eq_bind, Option.bind_some, second c nonword]
  cases start c with
  | none => rfl
  | some next => simp

/-- A scanned text in front of one that starts with no word. -/
theorem Scans.scan_append (first : Scans a ts) (breaks : Breaks b) (rest : List Char) :
    scan .nothing (a.toList ++ (b.toList ++ rest)) =
      (scan .nothing (b.toList ++ rest)).map fun next => (ts ++ next.1, next.2) := by
  obtain ⟨c, others, same, nonword⟩ := breaks
  rw [same, List.cons_append, List.append_cons, Grammar.scan_append, first c nonword, scan_cons]
  simp only [step]
  cases start c with
  | none => rfl
  | some next =>
      simp only [Option.map_some, Option.bind_eq_bind, Option.bind_some]
      cases scan next.2 (others ++ rest) with
      | none => rfl
      | some last => simp

theorem Scans.append_closed (first : Scans a ts) (second : Closed b us) (breaks : Breaks b) :
    Closed (a ++ b) (ts ++ us) := by
  have whole := first.scan_append breaks []
  rw [List.append_nil, second] at whole
  rw [Closed, String.toList_append, whole]
  rfl

theorem Scans.append (first : Scans a ts) (second : Scans b us) (breaks : Breaks b) :
    Scans (a ++ b) (ts ++ us) := by
  intro c nonword
  rw [String.toList_append, List.append_assoc, first.scan_append breaks, second c nonword]
  cases start c with
  | none => rfl
  | some next => simp

/-- A text that ends in a word is scanned to the tokens before it and that of the word. -/
theorem scans_of_word {word : List Char} {token : Token}
    (scanned : scan .nothing a.toList = some (ts, .word word)) (known : Token.ofWord word = some token) :
    Scans a (ts ++ [token]) := by
  intro c nonword
  rw [Grammar.scan_append, scanned]
  simp only [Option.bind_eq_bind, Option.bind_some, scan_cons, step, nonword, known]
  cases start c with
  | none => rfl
  | some next => simp [scan]

/-- The characters of a word all stay pending. -/
theorem scan_word {before word : List Char} (chars : ∀ c ∈ word, isWordChar c) :
    scan (.word before) word = some ([], .word (before ++ word)) := by
  induction word generalizing before with
  | nil => rw [List.append_nil]; rfl
  | cons c word ih =>
      rw [scan_cons, step, if_pos (chars c List.mem_cons_self)]
      simp only [Option.bind_eq_bind, Option.bind_some]
      rw [ih fun c member => chars c (List.mem_cons_of_mem _ member)]
      simp

/-- A word is scanned to the token that it stands for. -/
theorem scans_word {token : Token} (chars : ∀ c ∈ a.toList, isWordChar c)
    (known : Token.ofWord a.toList = some token) : Scans a [token] := by
  cases same : a.toList with
  | nil => rw [same] at known; cases known
  | cons c word =>
      rw [same] at chars known
      have first : step .nothing c = some ([], .word [c]) := if_pos (chars c List.mem_cons_self)
      have scanned : scan .nothing a.toList = some ([], .word (c :: word)) := by
        rw [same, scan_cons, first]
        simp only [Option.bind_eq_bind, Option.bind_some]
        rw [scan_word fun c member => chars c (List.mem_cons_of_mem _ member)]
        rfl
      exact scans_of_word scanned known

/-- Each line is scanned to its part of the tokens. -/
def ScansLines (lines : List String) (ts : List Token) : Prop :=
  ∃ parts, List.Forall₂ Scans lines parts ∧ ts = parts.flatten

namespace ScansLines

variable {lines more : List String}

theorem nil : ScansLines [] [] := ⟨[], .nil, rfl⟩

theorem single (line : Scans a ts) : ScansLines [a] ts := ⟨[ts], .cons line .nil, by simp⟩

theorem of_single (scanned : ScansLines [a] ts) : Scans a ts := by
  obtain ⟨parts, lines, rfl⟩ := scanned
  cases lines with
  | cons line rest =>
      cases rest
      rwa [List.flatten_singleton]

theorem append (first : ScansLines lines ts) (second : ScansLines more us) :
    ScansLines (lines ++ more) (ts ++ us) := by
  obtain ⟨parts, scanned, rfl⟩ := first
  obtain ⟨others, scannedMore, rfl⟩ := second
  exact ⟨parts ++ others, List.rel_append scanned scannedMore, List.flatten_append.symm⟩

/-- Spaces in front of the lines add no tokens. -/
theorem indented (scanned : ScansLines lines ts) : ScansLines (lines.map ("  " ++ ·)) ts := by
  obtain ⟨parts, scanned, rfl⟩ := scanned
  have spaces : Closed "  " [] := rfl
  refine ⟨parts, ?_, rfl⟩
  rw [List.forall₂_map_left_iff]
  exact scanned.imp fun _ _ line => spaces.append_scans line

/-- The tokens of a text are those of its lines. -/
theorem tokens_join (scanned : ScansLines lines ts) :
    tokens (String.join (lines.map (· ++ "\n"))) = some ts := by
  obtain ⟨parts, scanned, rfl⟩ := scanned
  have closed : Closed (String.join (lines.map (· ++ "\n"))) parts.flatten := by
    induction scanned with
    | nil => rfl
    | cons line _ ih =>
        rw [List.map_cons, String.join_cons, List.flatten_cons]
        have feed : Closed "\n" [] := rfl
        have ended := line.append_closed feed ⟨'\n', [], rfl, rfl⟩
        rw [List.append_nil] at ended
        exact ended.append ih
  unfold tokens
  rw [closed]
  simp [finish]

end ScansLines

end YulFuzz.Grammar
