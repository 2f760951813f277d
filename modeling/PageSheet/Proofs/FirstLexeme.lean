import PageSheet.Lexeme.First
namespace PageSheet

/-!
# What a first lexeme is

`Begins` tells the ways in which a text can begin with a lexeme; reading a text
gives exactly those.  A lexeme is written as its slice: a comment between its
delimiters, everything else as its own spelling.

What may fuse with the text behind it is a run of blanks with a blank, a word with more
of a word, and a backslash at the very end with whatever comes behind it; strings,
comments and marks end on their own.
-/

namespace Text

/-- Whether a text ends in a backslash that takes no character with it. -/
def endsUnpaired : Text → Bool
  | [] => false
  | ['\\'] => true
  | '\\' :: _ :: rest => endsUnpaired rest
  | _ :: rest => endsUnpaired rest

theorem endsUnpaired_cons
    {c : Char}
    (plain : c ≠ '\\')
    (rest : Text) :
    endsUnpaired (c :: rest) = endsUnpaired rest := by
  simp [endsUnpaired, plain]

/-- Behind a text with all its backslashes paired, pairing starts afresh. -/
theorem endsUnpaired_append
    {first : Text}
    (paired : endsUnpaired first = false)
    (second : Text) :
    endsUnpaired (first ++ second) = endsUnpaired second := by
  fun_induction endsUnpaired first with
  | case1 =>
      rfl
  | case2 =>
      cases paired
  | case3 c rest inductionHypothesis =>
      exact inductionHypothesis paired
  | case4 c rest notLast notPair inductionHypothesis =>
      have plain : c ≠ '\\' := by
        rintro rfl
        cases rest with
        | nil =>
            exact notLast rfl rfl
        | cons d others =>
            exact notPair d others rfl rfl
      rw [List.cons_append, endsUnpaired_cons plain]
      exact inductionHypothesis paired

theorem getLast?_of_endsUnpaired
    {text : Text}
    (unpaired : endsUnpaired text = true) :
    text.getLast? = some '\\' := by
  fun_induction endsUnpaired text with
  | case1 =>
      cases unpaired
  | case2 =>
      rfl
  | case3 c rest inductionHypothesis =>
      simp [List.getLast?_cons, inductionHypothesis unpaired]
  | case4 c rest _ _ inductionHypothesis =>
      simp [List.getLast?_cons, inductionHypothesis unpaired]

theorem endsUnpaired_concat
    {c : Char}
    (plain : c ≠ '\\')
    (text : Text) :
    endsUnpaired (text ++ [c]) = false := by
  apply Bool.eq_false_iff.mpr
  intro unpaired
  have last := getLast?_of_endsUnpaired unpaired
  rw [List.getLast?_concat] at last
  exact plain (Option.some.inj last)

end Text

namespace Lexeme

/-- The ways in which a text begins with the lexeme of a reading. -/
inductive Begins : Char → Text → Reading → Prop where
  | blanks
      {c : Char}
      {rest : Text} :
      isBlank c = true →
      Begins c rest (readBlanks c rest)
  | string
      {quote : Char}
      {rest body after : Text} :
      quote = '\x22' ∨ quote = '\x27' →
      splitString? quote rest = some (body, after) →
      Begins quote rest ⟨.string (quote :: body), quote :: body, after⟩
  | atWord
      {rest : Text} :
      Begins '@' rest (readAtWord rest)
  | mark
      {c : Char}
      {rest : Text}
      {mark : Lexeme} :
      ofMark? c = some mark →
      Begins c rest ⟨mark, [c], rest⟩
  | comment
      {rest body after : Text} :
      splitComment? rest = some (body, after) →
      Begins '/' ('*' :: rest)
        ⟨.comment (Text.trim body), ['/', '*'] ++ body ++ ['*', '/'], after⟩
  | word
      {c : Char}
      {rest : Text} :
      isDelimiter c = false →
      (∀ others, c = '/' → rest = '*' :: others → False) →
      Begins c rest (readWord (c :: rest))

/-- Every reading is one of the ways in which its text begins. -/
theorem begins_of_read
    {c : Char}
    {rest : Text}
    {reading : Reading}
    (accepted : read c rest = .ok reading) :
    Begins c rest reading := by
  unfold read at accepted
  split at accepted
  · next blank =>
      cases accepted
      exact .blanks blank
  next notBlank =>
  split at accepted
  · next isQuote =>
      unfold readString at accepted
      split at accepted
      · next body after split =>
          cases accepted
          exact .string (by simpa using isQuote) split
      · cases accepted
  next notQuote =>
  split at accepted
  · next isAt =>
      cases accepted
      subst isAt
      exact .atWord
  next notAt =>
  split at accepted
  · next mark isMark =>
      cases accepted
      exact .mark isMark
  next notMark =>
  split at accepted
  · unfold readComment at accepted
    split at accepted
    · next body after split =>
        cases accepted
        exact .comment split
    · cases accepted
  · next notComment =>
      cases accepted
      refine .word ?_ fun others slash star => notComment others slash star
      have marks :
          c ≠ ':' ∧ c ≠ ';' ∧ c ≠ '\x7b' ∧ c ≠ '\x7d' ∧ c ≠ '(' ∧ c ≠ ')' := by
        refine ⟨?_, ?_, ?_, ?_, ?_, ?_⟩ <;> rintro rfl <;> simp [ofMark?] at notMark
      simp_all [isDelimiter]

/-- Each of the ways in which a text begins is how it is read. -/
theorem read_of_begins
    {c : Char}
    {rest : Text}
    {reading : Reading}
    (begins : Begins c rest reading) :
    read c rest = .ok reading := by
  cases begins with
  | blanks blank =>
      unfold read
      rw [if_pos blank]
  | string isQuote split =>
      rcases isQuote with rfl | rfl <;> simp [read, isBlank, readString, split]
  | atWord =>
      rfl
  | mark isMark =>
      unfold ofMark? at isMark
      split at isMark <;> cases isMark <;> rfl
  | comment split =>
      simp [read, isBlank, ofMark?, readComment, split]
  | word notDelimiter notComment =>
      simp only [isDelimiter, Bool.or_eq_false_iff, decide_eq_false_iff_not]
        at notDelimiter
      obtain ⟨⟨⟨⟨⟨⟨⟨⟨⟨notBlank, notLeftBrace⟩, notRightBrace⟩, notSemicolon⟩,
        notColon⟩, notLeftParen⟩, notRightParen⟩, notDouble⟩, notSingle⟩, notAt⟩ :=
        notDelimiter
      have notMark : ofMark? c = none := by
        unfold ofMark?
        split <;> first | rfl | contradiction
      unfold read
      rw [if_neg (by simp [notBlank]), if_neg (by simp [notDouble, notSingle]),
        if_neg notAt, notMark]
      split
      · next isNone =>
          cases isNone
      · split
        · exact (notComment _ rfl rfl).elim
        · rfl

/-- Whether a lexeme is a comment. -/
def isComment : Lexeme → Bool
  | .comment _ => true
  | _ => false

/-- What it means that a slice of source text is what a lexeme stands for. -/
def WrittenAs
    (slice : Text) :
    Lexeme → Prop
  | .comment text =>
      ∃ body,
        slice = ['/', '*'] ++ body ++ ['*', '/'] ∧
          ¬ ['*', '/'] <:+: body ∧
            text = Text.trim body
  | lexeme =>
      lexeme.spelling = slice

theorem spelling_of_isComment
    {lexeme : Lexeme}
    (comments : lexeme.isComment = true) :
    lexeme.spelling = [] := by
  cases lexeme with
  | comment =>
      rfl
  | _ =>
      cases comments

theorem spelling_of_writtenAs
    {lexeme : Lexeme}
    {slice : Text}
    (written : lexeme.WrittenAs slice)
    (notComment : lexeme.isComment = false) :
    lexeme.spelling = slice := by
  cases lexeme with
  | comment =>
      cases notComment
  | _ =>
      exact written

/-- The body of a comment ends before the first `*/`. -/
theorem not_infix_of_splitComment?
    {text body after : Text}
    (split : splitComment? text = some (body, after)) :
    ¬ ['*', '/'] <:+: body := by
  fun_induction splitComment? text generalizing body after with
  | case1 =>
      simp at split
  | case2 rest =>
      simp only [Option.some.injEq, Prod.mk.injEq] at split
      simp [← split.1]
  | case3 c rest notEnd inductionHypothesis =>
      obtain ⟨⟨inner, outer⟩, inside, shape⟩ := Option.map_eq_some_iff.mp split
      simp only [Prod.mk.injEq] at shape
      obtain ⟨rfl, rfl⟩ := shape
      intro ended
      rcases List.infix_cons_iff.mp ended with atHead | later
      · obtain ⟨others, shape⟩ := atHead
        simp only [List.cons_append, List.nil_append, List.cons.injEq] at shape
        obtain ⟨rfl, rfl⟩ := shape
        have whole := append_of_splitComment? inside
        exact notEnd (others ++ ['*', '/'] ++ outer) rfl (by simpa using whole.symm)
      · exact inductionHypothesis inside later

/-- A lexeme is written as the slice it was read from. -/
theorem Begins.writtenAs
    {c : Char}
    {rest : Text}
    {reading : Reading}
    (begins : Begins c rest reading) :
    reading.lexeme.WrittenAs reading.slice ∧ reading.lexeme ≠ .endOfSource := by
  cases begins with
  | blanks =>
      exact ⟨rfl, by simp [readBlanks]⟩
  | string =>
      exact ⟨rfl, by simp⟩
  | atWord =>
      exact ⟨rfl, by simp [readAtWord]⟩
  | mark isMark =>
      unfold ofMark? at isMark
      split at isMark <;> cases isMark <;> exact ⟨rfl, by simp⟩
  | comment split =>
      exact ⟨⟨_, rfl, not_infix_of_splitComment? split, rfl⟩, by simp⟩
  | word =>
      exact ⟨rfl, by simp [readWord]⟩

/-- Whether a character ends a lexeme that is written right before it. -/
def isStoppedBy
    (c : Char) :
    Lexeme → Bool
  | .whitespace _ => !isBlank c
  | .word _ => isDelimiter c
  | .atWord _ => isDelimiter c
  | _ => true

/-- A mark stops the lexeme that is written right before it. -/
theorem isStoppedBy_of_ofMark?
    {c : Char}
    {mark : Lexeme}
    (isMark : ofMark? c = some mark)
    (lexeme : Lexeme) :
    lexeme.isStoppedBy c = true := by
  unfold ofMark? at isMark
  split at isMark <;> cases isMark <;> cases lexeme <;> rfl

theorem splitWord_of_isDelimiter
    {c : Char}
    (delimiter : isDelimiter c = true)
    (rest : Text) :
    splitWord (c :: rest) = ([], c :: rest) := by
  rw [splitWord.eq_def]
  split
  · next shape =>
      cases shape
  · next shape =>
      cases shape
      exact absurd delimiter (by decide)
  · next shape =>
      cases shape
      rfl
  · next shape =>
      cases shape
      rw [if_pos delimiter]

/-- A word goes on with a character that neither ends it nor takes another one. -/
theorem splitWord_cons
    {c : Char}
    {rest : Text}
    (notEscape : c ≠ '\\')
    (notComment : ∀ others, c = '/' → rest = '*' :: others → False)
    (notDelimiter : isDelimiter c = false) :
    splitWord (c :: rest) = (c :: (splitWord rest).1, (splitWord rest).2) := by
  rw [splitWord.eq_def]
  split
  · next shape =>
      cases shape
  · next shape =>
      cases shape
      exact absurd rfl notEscape
  · next others shape =>
      cases shape
      exact (notComment others rfl rfl).elim
  · next shape =>
      cases shape
      rw [if_neg (by simp [notDelimiter])]

end Lexeme

end PageSheet
