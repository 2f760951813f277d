import PageSheet.Proofs.FirstLexeme
import PageSheet.Token.Scan
namespace PageSheet.Lexeme

/-!
# Reading a text lexeme by lexeme

A run of readings takes a text apart into lexemes and a rest.  Runs compose, and
a text has tokens exactly when a run uses it up.
-/

/-- A text that begins with a lexeme has the tokens of its rest behind that lexeme. -/
theorem Begins.scanFrom
    {c : Char}
    {rest : Text}
    {reading : Reading}
    (begins : Begins c rest reading)
    (position : Position) :
    Token.scanFrom position (c :: rest) =
      (Token.scanFrom (position.after reading.slice) reading.rest).map
        (⟨reading.lexeme, ⟨position, (position.after reading.slice).offset⟩⟩ :: ·) := by
  have taken := read_of_begins begins
  rw [Token.scanFrom]
  split
  · next refused =>
      rw [taken] at refused
      cases refused
  · next accepted =>
      rw [taken] at accepted
      cases accepted
      dsimp only
      cases Token.scanFrom (position.after reading.slice) reading.rest <;> rfl

/-- A text whose first lexeme is refused is refused where it stands. -/
theorem scanFrom_of_refused
    {c : Char}
    {rest : Text}
    {piece : Unclosed}
    (refused : read c rest = .error piece)
    (position : Position) :
    Token.scanFrom position (c :: rest) = .error ⟨piece, position⟩ := by
  rw [Token.scanFrom]
  split
  · next refusedToo =>
      rw [refused] at refusedToo
      cases refusedToo
      rfl
  · next accepted =>
      rw [refused] at accepted
      cases accepted

/-- The lexemes of a text without the one for its end, if the text has tokens. -/
def ofText? (text : Text) : Option (List Lexeme) :=
  (Token.scan text).toOption.map fun tokens =>
    (tokens.map Token.lexeme).dropLast

/-- A text is read as some lexemes and a rest. -/
inductive Reads : Text → List Lexeme → Text → Prop where
  | done
      (rest : Text) :
      Reads rest [] rest
  | step
      {c : Char}
      {others rest : Text}
      {reading : Reading}
      {lexemes : List Lexeme} :
      Begins c others reading →
      Reads reading.rest lexemes rest →
      Reads (c :: others) (reading.lexeme :: lexemes) rest

/-- Scanned tokens are a run of readings behind which nothing is left. -/
theorem reads_of_scanFrom
    {position : Position}
    {text : Text}
    {tokens : List (Token Span)}
    (scanned : Token.scanFrom position text = .ok tokens) :
    ∃ lexemes,
      tokens.map Token.lexeme = lexemes ++ [.endOfSource] ∧
        Reads text lexemes [] := by
  fun_induction Token.scanFrom position text generalizing tokens with
  | case1 position =>
      cases scanned
      exact ⟨[], rfl, .done []⟩
  | case2 =>
      cases scanned
  | case3 =>
      cases scanned
  | case4 position c rest reading accepted _ behind tail scannedTail =>
      rename_i inductionHypothesis
      cases scanned
      obtain ⟨lexemes, shape, reads⟩ := inductionHypothesis scannedTail
      exact ⟨reading.lexeme :: lexemes, by simp [shape],
        .step (begins_of_read accepted) reads⟩

/-- A run of readings that uses a text up gives its tokens. -/
theorem Reads.exists_scanFrom
    {text : Text}
    {lexemes : List Lexeme}
    (reads : Reads text lexemes [])
    (position : Position) :
    ∃ tokens,
      Token.scanFrom position text = .ok tokens ∧
        tokens.map Token.lexeme = lexemes ++ [.endOfSource] := by
  generalize nothing : ([] : Text) = rest at reads
  induction reads generalizing position with
  | done =>
      subst nothing
      exact ⟨_, by rw [Token.scanFrom], rfl⟩
  | @step c others rest reading lexemes begins _ inductionHypothesis =>
      obtain ⟨tokens, scanned, shape⟩ :=
        inductionHypothesis (position.after reading.slice) nothing
      rw [begins.scanFrom, scanned]
      exact ⟨_, rfl, by simp [shape]⟩

/-- The lexemes of a text are the run of readings that uses it up. -/
theorem ofText?_eq_some_iff
    {text : Text}
    {lexemes : List Lexeme} :
    ofText? text = some lexemes ↔ Reads text lexemes [] := by
  constructor
  · intro given
    unfold ofText? at given
    cases scanned : Token.scan text with
    | error failure =>
        rw [scanned] at given
        cases given
    | ok tokens =>
        obtain ⟨found, shape, reads⟩ := reads_of_scanFrom scanned
        rw [scanned] at given
        simp only [Except.toOption, Option.map_some, shape, List.dropLast_concat,
          Option.some.injEq] at given
        rwa [← given]
  · intro reads
    obtain ⟨tokens, scanned, shape⟩ := reads.exists_scanFrom Position.start
    have scanned : Token.scan text = .ok tokens := scanned
    simp [ofText?, scanned, Except.toOption, shape]

namespace Reads

variable {text middle rest : Text} {lexemes others : List Lexeme}

theorem append
    (first : Reads text lexemes middle)
    (second : Reads middle others rest) :
    Reads text (lexemes ++ others) rest := by
  induction first with
  | done =>
      exact second
  | step begins _ inductionHypothesis =>
      exact .step begins (inductionHypothesis second)

theorem mark
    {c : Char}
    {mark : Lexeme}
    (isMark : ofMark? c = some mark)
    (rest : Text) :
    Reads (c :: rest) [mark] rest :=
  .step (.mark isMark) (.done rest)

/-- The end of the source is not among the lexemes of a run. -/
theorem endOfSource_not_mem
    (reads : Reads text lexemes rest) :
    .endOfSource ∉ lexemes := by
  induction reads with
  | done =>
      exact List.not_mem_nil
  | step begins _ inductionHypothesis =>
      intro member
      rcases List.mem_cons.mp member with isFirst | later
      · exact begins.writtenAs.2 isFirst.symm
      · exact inductionHypothesis later

/-- Lexemes without comments spell what they were read from. -/
theorem spellings_append
    (reads : Reads text lexemes rest)
    (uncommented : lexemes.any isComment = false) :
    spellings lexemes ++ rest = text := by
  induction reads with
  | done =>
      rfl
  | @step c others rest reading lexemes begins _ inductionHypothesis =>
      simp only [List.any_cons, Bool.or_eq_false_iff] at uncommented
      have first := spelling_of_writtenAs begins.writtenAs.1 uncommented.1
      have tail := inductionHypothesis uncommented.2
      have cut := slice_append_rest (read_of_begins begins)
      calc
        spellings (reading.lexeme :: lexemes) ++ rest =
            reading.lexeme.spelling ++ (spellings lexemes ++ rest) := by
          simp [spellings]
        _ = c :: others := by
          rw [first, tail, cut]

end Reads

end PageSheet.Lexeme
