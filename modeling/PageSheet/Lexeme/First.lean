import PageSheet.Lexeme.Basic
namespace PageSheet.Lexeme

/-!
# The first lexeme of a text

Which kind of lexeme a non-empty text starts with is decided by its first
character, and by its second one for comments.  Blanks and words are as long as
possible.  A backslash takes the character behind it with it, in words and in
strings alike, so that an escaped delimiter ends neither.

A reading keeps the slice of source text that the lexeme was read from.  The
slice and the rest make up the text, and the slice is never empty, which is what
lets a whole source be read lexeme by lexeme.
-/

/-- What can be left open at the end of a source text. -/
inductive Unclosed where
  | comment
  | string
  deriving Repr, DecidableEq

/-- The first lexeme of a text, the slice it was read from and what follows it. -/
structure Reading where
  lexeme : Lexeme
  slice : Text
  rest : Text
  deriving Repr, DecidableEq

/--
The body of a comment and what follows the comment, for the text behind `/*`.
The body ends before the first `*/`.
-/
def splitComment? : Text → Option (Text × Text)
  | [] => none
  | '*' :: '/' :: rest => some ([], rest)
  | c :: rest =>
      (splitComment? rest).map fun (body, after) => (c :: body, after)

/--
The remainder of a string, its closing quote included, and what follows the
string, for the text behind the opening quote.
-/
def splitString?
    (quote : Char) :
    Text → Option (Text × Text)
  | [] => none
  | [c] =>
      if c = quote then some ([c], []) else none
  | c :: d :: rest =>
      if c = quote then
        some ([c], d :: rest)
      else if c = '\\' then
        (splitString? quote rest).map fun (text, after) => (c :: d :: text, after)
      else
        (splitString? quote (d :: rest)).map fun (text, after) => (c :: text, after)

/-- The longest word at the start of a text, possibly empty, and what follows it. -/
def splitWord : Text → Text × Text
  | [] => ([], [])
  | '\\' :: c :: rest =>
      let (text, after) := splitWord rest
      ('\\' :: c :: text, after)
  | '/' :: '*' :: rest => ([], '/' :: '*' :: rest)
  | c :: rest =>
      if isDelimiter c then
        ([], c :: rest)
      else
        let (text, after) := splitWord rest
        (c :: text, after)

/-- The lexeme that a punctuation mark is on its own. -/
def ofMark? (c : Char) : Option Lexeme :=
  match c with
  | ':' => some .colon
  | ';' => some .semicolon
  | '\x7b' => some .leftBrace
  | '\x7d' => some .rightBrace
  | '(' => some .leftParen
  | ')' => some .rightParen
  | _ => none

/-- Read a comment, for the text behind `/*`. -/
def readComment (text : Text) : Except Unclosed Reading :=
  match splitComment? text with
  | some (body, rest) =>
      .ok ⟨.comment (Text.trim body), ['/', '*'] ++ body ++ ['*', '/'], rest⟩
  | none => .error .comment

/-- Read a string, for its opening quote and the text behind it. -/
def readString
    (quote : Char)
    (text : Text) :
    Except Unclosed Reading :=
  match splitString? quote text with
  | some (body, rest) =>
      .ok ⟨.string (quote :: body), quote :: body, rest⟩
  | none => .error .string

/-- Read a run of blanks, for its first blank and the text behind it. -/
def readBlanks
    (c : Char)
    (rest : Text) :
    Reading :=
  let blanks := c :: rest.takeWhile isBlank
  ⟨.whitespace blanks, blanks, rest.dropWhile isBlank⟩

/-- Read an at-word, for the text behind its `@`. -/
def readAtWord (text : Text) : Reading :=
  let (name, rest) := splitWord text
  ⟨.atWord name, '@' :: name, rest⟩

/-- Read a word, for a text that starts with one. -/
def readWord (text : Text) : Reading :=
  let (slice, rest) := splitWord text
  ⟨.word slice, slice, rest⟩

/-- Read the first lexeme of a text, for the text's first character and the others. -/
def read
    (c : Char)
    (rest : Text) :
    Except Unclosed Reading :=
  if isBlank c then
    .ok (readBlanks c rest)
  else if c = '\x22' || c = '\x27' then
    readString c rest
  else if c = '@' then
    .ok (readAtWord rest)
  else
    match ofMark? c with
    | some mark => .ok ⟨mark, [c], rest⟩
    | none =>
        match c, rest with
        | '/', '*' :: others => readComment others
        | c, rest => .ok (readWord (c :: rest))

/-- A comment splits into its body, its end and the rest. -/
theorem append_of_splitComment?
    {text body after : Text}
    (split : splitComment? text = some (body, after)) :
    body ++ ['*', '/'] ++ after = text := by
  fun_induction splitComment? text generalizing body after with
  | case1 =>
      simp at split
  | case2 rest =>
      simp_all
  | case3 c rest _ inductionHypothesis =>
      obtain ⟨⟨inner, outer⟩, inside, shape⟩ := Option.map_eq_some_iff.mp split
      simp only [Prod.mk.injEq] at shape
      obtain ⟨rfl, rfl⟩ := shape
      simpa using inductionHypothesis inside

/-- A string splits into its remainder and the rest. -/
theorem append_of_splitString?
    {quote : Char}
    {text body after : Text}
    (split : splitString? quote text = some (body, after)) :
    body ++ after = text := by
  fun_induction splitString? quote text generalizing body after with
  | case1 =>
      simp at split
  | case2 =>
      simp_all
  | case3 =>
      simp at split
  | case4 =>
      simp only [Option.some.injEq, Prod.mk.injEq] at split
      simp [← split.1, ← split.2]
  | case5 _ _ _ inductionHypothesis =>
      obtain ⟨⟨inner, outer⟩, inside, shape⟩ := Option.map_eq_some_iff.mp split
      simp only [Prod.mk.injEq] at shape
      obtain ⟨rfl, rfl⟩ := shape
      simp [← inductionHypothesis inside]
  | case6 _ _ _ _ _ inductionHypothesis =>
      obtain ⟨⟨inner, outer⟩, inside, shape⟩ := Option.map_eq_some_iff.mp split
      simp only [Prod.mk.injEq] at shape
      obtain ⟨rfl, rfl⟩ := shape
      simp [← inductionHypothesis inside]

/-- A text splits into its first word and the rest. -/
theorem splitWord_append (text : Text) :
    (splitWord text).1 ++ (splitWord text).2 = text := by
  fun_induction splitWord text with
  | case1 =>
      rfl
  | case2 c rest word after shape inductionHypothesis =>
      simp_all
  | case3 rest =>
      rfl
  | case4 c rest _ _ delimiter =>
      rfl
  | case5 c rest _ _ delimiter word after shape inductionHypothesis =>
      simp_all

/-- A text that starts with neither a delimiter nor a comment starts with a word. -/
theorem splitWord_fst_ne_nil
    {c : Char}
    {rest : Text}
    (notDelimiter : isDelimiter c = false)
    (notComment : ∀ others, ¬ (c = '/' ∧ rest = '*' :: others)) :
    (splitWord (c :: rest)).1 ≠ [] := by
  rw [splitWord.eq_def]
  split
  · simp_all
  · simp
  · next others shape =>
      simp only [List.cons.injEq] at shape
      exact absurd shape (notComment others)
  · next shape =>
      simp only [List.cons.injEq] at shape
      obtain ⟨rfl, rfl⟩ := shape
      simp [notDelimiter]

/-- The slice and the rest of a reading make up the text that was read. -/
theorem slice_append_rest
    {c : Char}
    {rest : Text}
    {reading : Reading}
    (accepted : read c rest = .ok reading) :
    reading.slice ++ reading.rest = c :: rest := by
  unfold read at accepted
  split at accepted
  · cases accepted
    simp [readBlanks]
  split at accepted
  · unfold readString at accepted
    split at accepted
    · next body after split =>
        cases accepted
        simp [append_of_splitString? split]
    · cases accepted
  split at accepted
  · next isAt =>
      cases accepted
      subst isAt
      simp [readAtWord, splitWord_append]
  split at accepted
  · cases accepted
    rfl
  split at accepted
  · next others =>
      unfold readComment at accepted
      split at accepted
      · next body after split =>
          cases accepted
          simp [← append_of_splitComment? split]
      · cases accepted
  · cases accepted
    simp [readWord, splitWord_append]

/-- A reading takes at least one character. -/
theorem slice_ne_nil
    {c : Char}
    {rest : Text}
    {reading : Reading}
    (accepted : read c rest = .ok reading) :
    reading.slice ≠ [] := by
  unfold read at accepted
  split at accepted
  · cases accepted
    simp [readBlanks]
  next notBlank =>
  split at accepted
  · unfold readString at accepted
    split at accepted
    · cases accepted
      simp
    · cases accepted
  next notQuote =>
  split at accepted
  · cases accepted
    simp [readAtWord]
  next notAt =>
  split at accepted
  · cases accepted
    simp
  next notMark =>
  split at accepted
  · unfold readComment at accepted
    split at accepted
    · cases accepted
      simp
    · cases accepted
  · next notComment =>
      cases accepted
      refine splitWord_fst_ne_nil ?_ ?_
      · have marks : c ≠ ':' ∧ c ≠ ';' ∧ c ≠ '\x7b' ∧ c ≠ '\x7d' ∧ c ≠ '(' ∧ c ≠ ')' := by
          refine ⟨?_, ?_, ?_, ?_, ?_, ?_⟩ <;> rintro rfl <;> simp [ofMark?] at notMark
        simp_all [isDelimiter]
      · rintro others ⟨rfl, rfl⟩
        exact notComment others rfl rfl

/-- What follows the first lexeme is shorter than the text. -/
theorem length_rest_lt
    {c : Char}
    {rest : Text}
    {reading : Reading}
    (accepted : read c rest = .ok reading) :
    reading.rest.length < (c :: rest).length := by
  have whole := congrArg List.length (slice_append_rest accepted)
  have positive := List.length_pos_iff.mpr (slice_ne_nil accepted)
  rw [List.length_append] at whole
  omega

end PageSheet.Lexeme
