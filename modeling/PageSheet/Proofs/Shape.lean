import Mathlib.Data.List.Chain
import Mathlib.Data.List.TakeWhile
import PageSheet.Proofs.Reading
namespace PageSheet

/-!
# The shape of lexemes

Words and strings are made of pieces: characters that stand for themselves and
characters that a backslash takes with it.  Each kind of lexeme has a shape of its
own, told without the scanner, and ends before certain texts only.

`Begins.stands` and `Stands.begins` say that this is all there is to reading: a text
begins with a lexeme exactly when it starts with a slice of that lexeme's shape and the
lexeme ends before what follows.  So a text that is put together from pieces is read
piece by piece: `Reads.exchange` puts another text behind a run of readings, and
`Reads.before` puts one behind a text that is used up.
-/

/-- A piece of a word or of a string. -/
inductive Piece where
  /-- A character that stands for itself. -/
  | plain (c : Char)
  /-- A character behind a backslash. -/
  | escaped (c : Char)
  deriving Repr, DecidableEq

namespace Piece

/-- The source text of a piece. -/
def text : Piece → Text
  | .plain c => [c]
  | .escaped c => ['\\', c]

/-- The source text of pieces in a row. -/
def texts (pieces : List Piece) : Text :=
  pieces.flatMap text

/-- Whether a piece may stand where plain characters have to pass a test. -/
def fits (passes : Char → Bool) : Piece → Bool
  | .plain c => c != '\\' && passes c
  | .escaped _ => true

/--
What it means that pieces make up a word: none of their plain characters is a
delimiter, and no two neighbours start a comment.
-/
structure MakeWord (pieces : List Piece) : Prop where
  fit :
    ∀ piece ∈ pieces, piece.fits (fun c => !Lexeme.isDelimiter c) = true
  apart :
    pieces.IsChain fun first second =>
      ¬ (first = .plain '/' ∧ second = .plain '*')

theorem texts_cons
    (piece : Piece)
    (rest : List Piece) :
    texts (piece :: rest) = piece.text ++ texts rest :=
  List.flatMap_cons

/-- Every backslash in pieces that fit takes a character with it. -/
theorem endsUnpaired_texts
    {passes : Char → Bool}
    {pieces : List Piece}
    (fit : ∀ piece ∈ pieces, piece.fits passes = true) :
    Text.endsUnpaired (texts pieces) = false := by
  induction pieces with
  | nil =>
      rfl
  | cons piece rest inductionHypothesis =>
      obtain ⟨first, others⟩ := List.forall_mem_cons.mp fit
      rw [texts_cons]
      cases piece with
      | plain c =>
          simp only [fits, Bool.and_eq_true, bne_iff_ne] at first
          exact (Text.endsUnpaired_cons first.1 _).trans (inductionHypothesis others)
      | escaped c =>
          exact inductionHypothesis others

theorem MakeWord.nil : MakeWord [] where
  fit := List.forall_mem_nil _
  apart := .nil

/-- The pieces behind the first piece of a word make up a word. -/
theorem MakeWord.tail
    {piece : Piece}
    {rest : List Piece}
    (word : MakeWord (piece :: rest)) :
    MakeWord rest where
  fit := (List.forall_mem_cons.mp word.fit).2
  apart := word.apart.tail

end Piece

namespace Lexeme

open Piece

/-- Whether nothing of a word is left in front of a text. -/
def StopsWords (rest : Text) : Prop :=
  (splitWord rest).1 = []

theorem stopsWords_nil : StopsWords [] :=
  rfl

theorem stopsWords_of_isDelimiter
    {c : Char}
    (delimiter : isDelimiter c = true)
    (rest : Text) :
    StopsWords (c :: rest) :=
  congrArg Prod.fst (splitWord_of_isDelimiter delimiter rest)

theorem stopsWords_comment
    (rest : Text) :
    StopsWords ('/' :: '*' :: rest) :=
  rfl

/-- A word goes on with every character that starts neither a comment nor a delimiter. -/
theorem not_stopsWords
    {c : Char}
    {rest : Text}
    (notDelimiter : isDelimiter c = false)
    (notComment : ∀ others, c = '/' → rest = '*' :: others → False) :
    ¬ StopsWords (c :: rest) :=
  splitWord_fst_ne_nil notDelimiter fun others both => notComment others both.1 both.2

/-- A text that stops words does not turn a slash before it into a comment. -/
theorem head?_ne_star
    {rest : Text}
    (stops : StopsWords rest) :
    rest.head? ≠ some '*' := by
  intro starts
  cases rest with
  | nil =>
      cases starts
  | cons c others =>
      cases starts
      exact not_stopsWords (by decide) (fun _ isSlash => absurd isSlash (by decide)) stops

/-- What is left behind a word stops words. -/
theorem stopsWords_splitWord
    (text : Text) :
    StopsWords (splitWord text).2 := by
  fun_induction splitWord text with
  | case1 =>
      exact stopsWords_nil
  | case2 c rest word after shape inductionHypothesis =>
      rwa [shape] at inductionHypothesis
  | case3 rest =>
      exact stopsWords_comment rest
  | case4 c rest _ _ delimiter =>
      exact stopsWords_of_isDelimiter delimiter rest
  | case5 c rest _ _ _ word after shape inductionHypothesis =>
      rwa [shape] at inductionHypothesis

/-- The pieces of a word are read as a part of the word at the start of a text. -/
theorem splitWord_texts
    {pieces : List Piece}
    (word : MakeWord pieces)
    {rest : Text}
    (unfused : pieces.getLast? = some (.plain '/') → rest.head? ≠ some '*') :
    splitWord (texts pieces ++ rest) =
      (texts pieces ++ (splitWord rest).1, (splitWord rest).2) := by
  induction pieces with
  | nil =>
      rfl
  | cons piece others inductionHypothesis =>
      have later :
          others.getLast? = some (.plain '/') → rest.head? ≠ some '*' := by
        intro isLast
        apply unfused
        rw [List.getLast?_cons, isLast, Option.getD_some]
      have tail := inductionHypothesis word.tail later
      rw [texts_cons, List.append_assoc]
      cases piece with
      | escaped c =>
          have taken :
              splitWord ('\\' :: c :: (texts others ++ rest)) =
                ('\\' :: c :: (splitWord (texts others ++ rest)).1,
                  (splitWord (texts others ++ rest)).2) :=
            rfl
          simpa [text, tail] using taken
      | plain c =>
          have fit := word.fit (.plain c) List.mem_cons_self
          simp only [fits, Bool.and_eq_true, bne_iff_ne, Bool.not_eq_true'] at fit
          obtain ⟨notEscape, notDelimiter⟩ := fit
          have notComment :
              ∀ behind, c = '/' → texts others ++ rest = '*' :: behind → False := by
            rintro behind rfl starts
            cases others with
            | nil =>
                rw [texts, List.flatMap_nil, List.nil_append] at starts
                exact unfused rfl (by rw [starts]; rfl)
            | cons next more =>
                cases next with
                | escaped d =>
                    cases starts
                | plain d =>
                    cases starts
                    exact word.apart.rel ⟨rfl, rfl⟩
          have taken := splitWord_cons notEscape notComment notDelimiter
          rw [tail] at taken
          exact taken

/--
Whether a text is that of a word.  Only at the end of a source may a backslash be
left over behind the pieces.
-/
def IsWordText
    (isLast : Prop)
    (text : Text) : Prop :=
  ∃ pieces,
    MakeWord pieces ∧
      (text = texts pieces ∨ isLast ∧ text = texts pieces ++ ['\\'])

/-- Whether a text is that of a string: pieces between two equal quotes. -/
def IsStringText (text : Text) : Prop :=
  ∃ quote pieces,
    (quote = '\x22' ∨ quote = '\x27') ∧
      (∀ piece ∈ pieces, piece.fits (fun c => c != quote) = true) ∧
        text = quote :: texts pieces ++ [quote]

/-- A piece in front of a word belongs to the word, unless the two start a comment. -/
theorem IsWordText.cons
    {isLast : Prop}
    {word : Text}
    (isWord : IsWordText isLast word)
    {piece : Piece}
    (fit : piece.fits (fun c => !isDelimiter c) = true)
    (unfused : piece = .plain '/' → word.head? ≠ some '*') :
    IsWordText isLast (piece.text ++ word) := by
  obtain ⟨pieces, makes, split⟩ := isWord
  have apart :
      ∀ next ∈ pieces.head?, ¬ (piece = .plain '/' ∧ next = .plain '*') := by
    rintro next isNext ⟨isSlash, rfl⟩
    obtain ⟨others, rfl⟩ := List.head?_eq_some_iff.mp isNext
    apply unfused isSlash
    rcases split with rfl | ⟨-, rfl⟩ <;> rfl
  have grown : MakeWord (piece :: pieces) :=
    ⟨List.forall_mem_cons.mpr ⟨fit, makes.fit⟩,
      List.isChain_cons.mpr ⟨apart, makes.apart⟩⟩
  refine ⟨piece :: pieces, grown, ?_⟩
  rcases split with rfl | ⟨used, rfl⟩
  · exact .inl rfl
  · exact .inr ⟨used, by rw [texts_cons, List.append_assoc]⟩

/-- The word at the start of a text is made of pieces. -/
theorem isWordText_splitWord
    (text : Text) :
    IsWordText ((splitWord text).2 = []) (splitWord text).1 := by
  have nothing : ∀ isLast, IsWordText isLast [] :=
    fun _ => ⟨[], .nil, .inl rfl⟩
  fun_induction splitWord text with
  | case1 =>
      exact nothing _
  | case2 c rest word after shape inductionHypothesis =>
      rw [shape] at inductionHypothesis
      have isEscaped : Piece.escaped c ≠ .plain '/' :=
        Piece.noConfusion
      exact @IsWordText.cons _ _ inductionHypothesis (.escaped c) rfl
        fun isSlash => absurd isSlash isEscaped
  | case3 rest =>
      exact nothing _
  | case4 c rest _ _ delimiter =>
      exact nothing _
  | case5 c rest notPair notComment notDelimiter word after shape inductionHypothesis =>
      rw [shape] at inductionHypothesis
      by_cases isEscape : c = '\\'
      · subst isEscape
        cases rest with
        | nil =>
            cases shape
            exact ⟨[], .nil, .inr ⟨rfl, rfl⟩⟩
        | cons d others =>
            exact (notPair d others rfl rfl).elim
      · have fit : (Piece.plain c).fits (fun d => !isDelimiter d) = true := by
          simp [fits, isEscape, notDelimiter]
        refine @IsWordText.cons _ _ inductionHypothesis (.plain c) fit ?_
        intro isSlash starts
        obtain ⟨others, rfl⟩ := List.head?_eq_some_iff.mp starts
        have whole := splitWord_append rest
        rw [shape] at whole
        cases isSlash
        exact notComment (others ++ after) rfl whole.symm

/-- A word before a text that stops words is the word at the start of both together. -/
theorem splitWord_of_isWordText
    {text rest : Text}
    (isWord : IsWordText (rest = []) text)
    (stops : StopsWords rest) :
    splitWord (text ++ rest) = (text, rest) := by
  have whole : (splitWord rest).2 = rest := by
    have cut := splitWord_append rest
    rwa [stops] at cut
  obtain ⟨pieces, makes, rfl | ⟨used, rfl⟩⟩ := isWord
  · rw [splitWord_texts makes fun _ => head?_ne_star stops, stops, whole, List.append_nil]
  · subst used
    have unfused :
        pieces.getLast? = some (.plain '/') → ['\\'].head? ≠ some '*' :=
      fun _ => by decide
    rw [List.append_nil, splitWord_texts makes unfused]
    rfl

/-- The pieces of a string end before its quote. -/
theorem splitString?_texts
    {quote : Char}
    (notEscape : quote ≠ '\\')
    {pieces : List Piece}
    (fit : ∀ piece ∈ pieces, piece.fits (fun c => c != quote) = true)
    (rest : Text) :
    splitString? quote (texts pieces ++ quote :: rest) =
      some (texts pieces ++ [quote], rest) := by
  induction pieces with
  | nil =>
      cases rest <;> simp [texts, splitString?]
  | cons piece others inductionHypothesis =>
      obtain ⟨first, later⟩ := List.forall_mem_cons.mp fit
      have tail := inductionHypothesis later
      rw [texts_cons, List.append_assoc]
      cases piece with
      | escaped d =>
          have differs : '\\' ≠ quote := notEscape.symm
          simp [text, splitString?, differs, tail]
      | plain c =>
          simp only [fits, Bool.and_eq_true, bne_iff_ne] at first
          obtain ⟨plain, notQuote⟩ := first
          cases shape : texts others ++ quote :: rest with
          | nil =>
              simp at shape
          | cons d behind =>
              rw [shape] at tail
              simp [text, splitString?, notQuote, plain, tail]

/-- What is read of a string is made of pieces. -/
theorem exists_pieces_of_splitString?
    {quote : Char}
    {text body after : Text}
    (split : splitString? quote text = some (body, after)) :
    ∃ pieces,
      (∀ piece ∈ pieces, piece.fits (fun c => c != quote) = true) ∧
        body = texts pieces ++ [quote] := by
  fun_induction splitString? quote text generalizing body after with
  | case1 =>
      cases split
  | case2 =>
      cases split
      exact ⟨[], List.forall_mem_nil _, rfl⟩
  | case3 =>
      cases split
  | case4 =>
      cases split
      exact ⟨[], List.forall_mem_nil _, rfl⟩
  | case5 d rest _ inductionHypothesis =>
      obtain ⟨⟨inner, outer⟩, inside, shape⟩ := Option.map_eq_some_iff.mp split
      obtain ⟨pieces, fit, rfl⟩ := inductionHypothesis inside
      cases shape
      exact ⟨.escaped d :: pieces, List.forall_mem_cons.mpr ⟨rfl, fit⟩, rfl⟩
  | case6 c d rest notQuote notEscape inductionHypothesis =>
      obtain ⟨⟨inner, outer⟩, inside, shape⟩ := Option.map_eq_some_iff.mp split
      obtain ⟨pieces, fit, rfl⟩ := inductionHypothesis inside
      cases shape
      have plain : (Piece.plain c).fits (fun d => d != quote) = true := by
        simp [fits, notQuote, notEscape]
      exact ⟨.plain c :: pieces, List.forall_mem_cons.mpr ⟨plain, fit⟩, rfl⟩

/-- The body of a comment goes up to the first `*/`. -/
theorem splitComment?_of_unended
    {body : Text}
    (unended : ¬ ['*', '/'] <:+: body)
    (rest : Text) :
    splitComment? (body ++ ['*', '/'] ++ rest) = some (body, rest) := by
  induction body with
  | nil =>
      rfl
  | cons c others inductionHypothesis =>
      have later : ¬ ['*', '/'] <:+: others :=
        fun ended => unended (ended.trans (List.suffix_cons c others).isInfix)
      have notEnd :
          ∀ behind, c = '*' → others ++ ['*', '/'] ++ rest = '/' :: behind → False := by
        rintro behind rfl shape
        cases others with
        | nil =>
            cases shape
        | cons d more =>
            cases shape
            exact unended ⟨[], more, rfl⟩
      rw [List.cons_append, List.cons_append, splitComment?.eq_3 _ _ notEnd,
        inductionHypothesis later]
      rfl

/-- The shape of a lexeme, where `isLast` tells whether the source ends behind it. -/
def HasShape (isLast : Prop) : Lexeme → Prop
  | .whitespace text => text ≠ [] ∧ ∀ c ∈ text, isBlank c = true
  | .word text => text ≠ [] ∧ IsWordText isLast text
  | .atWord name => IsWordText isLast name
  | .string text => IsStringText text
  | _ => True

/-- Whether a lexeme does not go on with the text behind it. -/
def EndsBefore (rest : Text) : Lexeme → Prop
  | .whitespace _ => ∀ c ∈ rest.head?, isBlank c = false
  | .word _ => StopsWords rest
  | .atWord _ => StopsWords rest
  | _ => True

/-- What it means that a slice stands in front of a text as a lexeme of its own. -/
structure Stands
    (lexeme : Lexeme)
    (slice rest : Text) : Prop where
  shown : lexeme ≠ .endOfSource
  shaped : lexeme.HasShape (rest = [])
  written : lexeme.WrittenAs slice
  ends : lexeme.EndsBefore rest

/-- A shape that is good in the middle of a source is good at its end. -/
theorem HasShape.mono
    {lexeme : Lexeme}
    {isLast isLast' : Prop}
    (shaped : lexeme.HasShape isLast)
    (weaker : isLast → isLast') :
    lexeme.HasShape isLast' := by
  have word : ∀ {text}, IsWordText isLast text → IsWordText isLast' text := by
    rintro text ⟨pieces, makes, split⟩
    exact ⟨pieces, makes, split.imp_right fun last => ⟨weaker last.1, last.2⟩⟩
  cases lexeme with
  | word text =>
      exact ⟨shaped.1, word shaped.2⟩
  | atWord name =>
      exact word shaped
  | _ =>
      exact shaped

/-- A shape that is good in the middle of a source pairs its backslashes. -/
theorem HasShape.endsUnpaired
    {lexeme : Lexeme}
    {isLast : Prop}
    {slice : Text}
    (shaped : lexeme.HasShape isLast)
    (written : lexeme.WrittenAs slice)
    (goesOn : ¬ isLast) :
    Text.endsUnpaired slice = false := by
  have word : ∀ {text}, IsWordText isLast text → Text.endsUnpaired text = false := by
    rintro text ⟨pieces, makes, rfl | ⟨last, -⟩⟩
    · exact endsUnpaired_texts makes.fit
    · exact absurd last goesOn
  cases lexeme with
  | whitespace text =>
      cases written
      apply Bool.eq_false_iff.mpr
      intro unpaired
      have last := List.mem_of_getLast? (Text.getLast?_of_endsUnpaired unpaired)
      exact absurd (shaped.2 _ last) (by decide)
  | comment text =>
      obtain ⟨body, rfl, -⟩ := written
      have last :
          ['/', '*'] ++ body ++ ['*', '/'] = ['/', '*'] ++ body ++ ['*'] ++ ['/'] := by
        simp
      rw [last]
      exact Text.endsUnpaired_concat (by decide) _
  | word text =>
      cases written
      exact word shaped.2
  | atWord name =>
      cases written
      exact (Text.endsUnpaired_cons (by decide) name).trans (word shaped)
  | string text =>
      obtain ⟨quote, pieces, isQuote, -, rfl⟩ := shaped
      cases written
      refine Text.endsUnpaired_concat ?_ (quote :: texts pieces)
      rcases isQuote with rfl | rfl <;> decide
  | _ =>
      cases written
      rfl

/-- A shape that pairs its backslashes is good wherever it stands. -/
theorem HasShape.of_paired
    {lexeme : Lexeme}
    {isLast : Prop}
    {slice : Text}
    (shaped : lexeme.HasShape isLast)
    (written : lexeme.WrittenAs slice)
    (paired : Text.endsUnpaired slice = false)
    (isLast' : Prop) :
    lexeme.HasShape isLast' := by
  have word :
      ∀ {text}, IsWordText isLast text → Text.endsUnpaired text = false →
        IsWordText isLast' text := by
    rintro text ⟨pieces, makes, rfl | ⟨-, rfl⟩⟩ pairedText
    · exact ⟨pieces, makes, .inl rfl⟩
    · rw [Text.endsUnpaired_append (endsUnpaired_texts makes.fit)] at pairedText
      cases pairedText
  cases lexeme with
  | word text =>
      cases written
      exact ⟨shaped.1, word shaped.2 paired⟩
  | atWord name =>
      cases written
      rw [Lexeme.spelling, Text.endsUnpaired_cons (by decide)] at paired
      exact word shaped paired
  | _ =>
      exact shaped

/-- The shape and the end of a lexeme that a text begins with. -/
theorem Begins.stands
    {c : Char}
    {others : Text}
    {reading : Reading}
    (begins : Begins c others reading) :
    Stands reading.lexeme reading.slice reading.rest := by
  obtain ⟨written, shown⟩ := begins.writtenAs
  cases begins with
  | blanks blank =>
      refine ⟨shown, ⟨List.cons_ne_nil _ _, ?_⟩, written, ?_⟩
      · exact List.forall_mem_cons.mpr
          ⟨blank, fun d member => List.mem_takeWhile_imp member⟩
      · intro d isFirst
        have first : (others.dropWhile isBlank).head? = some d :=
          isFirst
        have stopped := List.head?_dropWhile_not isBlank others
        rwa [first] at stopped
  | string isQuote split =>
      obtain ⟨pieces, fit, rfl⟩ := exists_pieces_of_splitString? split
      exact ⟨shown, ⟨c, pieces, isQuote, fit, rfl⟩, written, trivial⟩
  | atWord =>
      exact ⟨shown, isWordText_splitWord others, written, stopsWords_splitWord others⟩
  | mark isMark =>
      unfold ofMark? at isMark
      split at isMark <;> cases isMark <;> exact ⟨shown, trivial, written, trivial⟩
  | comment =>
      exact ⟨shown, trivial, written, trivial⟩
  | word notDelimiter notComment =>
      have inhabited := not_stopsWords notDelimiter notComment
      exact ⟨shown, ⟨inhabited, isWordText_splitWord _⟩, written, stopsWords_splitWord _⟩

/-- A text whose start stands as a lexeme begins with that lexeme. -/
theorem Stands.begins
    {lexeme : Lexeme}
    {slice rest others : Text}
    {c : Char}
    (stands : Stands lexeme slice rest)
    (whole : slice ++ rest = c :: others) :
    Begins c others ⟨lexeme, slice, rest⟩ := by
  obtain ⟨shown, shaped, written, ends⟩ := stands
  cases lexeme with
  | whitespace text =>
      cases written
      obtain ⟨inhabited, allBlank⟩ := shaped
      cases text with
      | nil =>
          exact absurd rfl inhabited
      | cons d blanks =>
          cases whole
          obtain ⟨blank, others⟩ := List.forall_mem_cons.mp allBlank
          have stops : rest.takeWhile isBlank = [] ∧ rest.dropWhile isBlank = rest := by
            cases rest with
            | nil =>
                exact ⟨rfl, rfl⟩
            | cons e behind =>
                have notBlank := ends e rfl
                simp [notBlank]
          have taken :
              readBlanks c (blanks ++ rest) =
                ⟨.whitespace (c :: blanks), c :: blanks, rest⟩ := by
            simp only [readBlanks, List.takeWhile_append_of_pos others,
              List.dropWhile_append_of_pos others, stops.1, stops.2, List.append_nil]
          rw [Lexeme.spelling, ← taken]
          exact .blanks blank
  | comment text =>
      obtain ⟨body, rfl, unended, rfl⟩ := written
      cases whole
      exact .comment (splitComment?_of_unended unended rest)
  | word text =>
      cases written
      obtain ⟨inhabited, isWord⟩ := shaped
      have split := splitWord_of_isWordText isWord ends
      rw [Lexeme.spelling] at whole ⊢
      rw [whole] at split
      have taken : readWord (c :: others) = ⟨.word text, text, rest⟩ := by
        simp only [readWord, split]
      have goesOn : ¬ StopsWords (c :: others) := by
        rw [StopsWords, split]
        exact inhabited
      rw [← taken]
      refine .word ?_ ?_
      · by_contra delimiter
        exact goesOn (stopsWords_of_isDelimiter (by simpa using delimiter) others)
      · rintro behind rfl rfl
        exact goesOn (stopsWords_comment behind)
  | atWord name =>
      cases written
      cases whole
      have taken : readAtWord (name ++ rest) = ⟨.atWord name, '@' :: name, rest⟩ := by
        simp only [readAtWord, splitWord_of_isWordText shaped ends]
      rw [Lexeme.spelling, ← taken]
      exact .atWord
  | string text =>
      cases written
      obtain ⟨quote, pieces, isQuote, fit, rfl⟩ := shaped
      cases whole
      have notEscape : c ≠ '\\' := by
        rcases isQuote with rfl | rfl <;> decide
      have split := splitString?_texts notEscape fit rest
      rw [← List.singleton_append, ← List.append_assoc] at split
      exact .string isQuote split
  | endOfSource =>
      exact absurd rfl shown
  | _ =>
      cases written
      cases whole
      exact .mark rfl

/-- A slice that stands in front of a text is read before the text is. -/
theorem Stands.reads
    {lexeme : Lexeme}
    {slice middle rest : Text}
    {lexemes : List Lexeme}
    (stands : Stands lexeme slice middle)
    (inhabited : slice ≠ [])
    (reads : Reads middle lexemes rest) :
    Reads (slice ++ middle) (lexeme :: lexemes) rest := by
  cases slice with
  | nil =>
      exact absurd rfl inhabited
  | cons c more =>
      exact @Reads.step c (more ++ middle) rest ⟨lexeme, c :: more, middle⟩ lexemes
        (stands.begins rfl) reads

/-- Whether one lexeme can stand right before another one. -/
def separate : Lexeme → Lexeme → Bool
  | .whitespace _, .whitespace _ => false
  | .word _, .word _ => false
  | .atWord _, .word _ => false
  | _, _ => true

/-- A lexeme ends before a text exactly when it can stand before the text's first one. -/
theorem Begins.endsBefore_iff
    {c : Char}
    {others : Text}
    {reading : Reading}
    (begins : Begins c others reading)
    (lexeme : Lexeme) :
    lexeme.EndsBefore (c :: others) ↔ separate lexeme reading.lexeme = true := by
  cases begins with
  | blanks blank =>
      have stops : StopsWords (c :: others) :=
        stopsWords_of_isDelimiter (by simp [isDelimiter, blank]) others
      cases lexeme <;> simp [EndsBefore, separate, readBlanks, blank, stops]
  | string isQuote =>
      have notBlank : isBlank c = false := by
        rcases isQuote with rfl | rfl <;> decide
      have stops : StopsWords (c :: others) := by
        rcases isQuote with rfl | rfl <;> exact stopsWords_of_isDelimiter (by decide) others
      cases lexeme <;> simp [EndsBefore, separate, notBlank, stops]
  | atWord =>
      have notBlank : isBlank '@' = false := by
        decide
      have stops : StopsWords ('@' :: others) :=
        stopsWords_of_isDelimiter (by decide) others
      cases lexeme <;> simp [EndsBefore, separate, readAtWord, notBlank, stops]
  | mark isMark =>
      unfold ofMark? at isMark
      split at isMark <;> cases isMark <;> cases lexeme <;>
        simp [EndsBefore, separate, isBlank, StopsWords, splitWord_of_isDelimiter, isDelimiter]
  | @comment rest =>
      have notBlank : isBlank '/' = false := by
        decide
      have stops : StopsWords ('/' :: '*' :: rest) :=
        stopsWords_comment rest
      cases lexeme <;> simp [EndsBefore, separate, notBlank, stops]
  | word notDelimiter notComment =>
      have notBlank : isBlank c = false := by
        simp only [isDelimiter, Bool.or_eq_false_iff] at notDelimiter
        simp [notDelimiter]
      have goesOn := not_stopsWords notDelimiter notComment
      cases lexeme <;> simp [EndsBefore, separate, readWord, notBlank, goesOn]

theorem Reads.eq_of_nil
    {text rest : Text}
    (reads : Reads text [] rest) :
    text = rest := by
  cases reads
  rfl

/-- There is nothing to read in an empty text. -/
theorem Reads.nil_eq
    {lexemes : List Lexeme}
    {rest : Text}
    (reads : Reads [] lexemes rest) :
    lexemes = [] := by
  cases reads
  rfl

/-- Before a run of readings only its first lexeme matters. -/
theorem Reads.endsBefore_iff
    {text rest : Text}
    {next : Lexeme}
    {lexemes : List Lexeme}
    (reads : Reads text (next :: lexemes) rest)
    (lexeme : Lexeme) :
    lexeme.EndsBefore text ↔ separate lexeme next = true := by
  cases reads with
  | step begins _ =>
      exact begins.endsBefore_iff lexeme

/-- Every lexeme ends where the source ends. -/
theorem endsBefore_nil
    (lexeme : Lexeme) :
    lexeme.EndsBefore [] := by
  cases lexeme with
  | whitespace =>
      exact fun _ isFirst => nomatch isFirst
  | word | atWord =>
      exact stopsWords_nil
  | _ =>
      trivial

/--
Another text may stand behind a run of readings, if no backslash in front of it is left
unpaired and the last lexeme ends before it.
-/
theorem Reads.exchange
    {text rest : Text}
    {lexemes : List Lexeme}
    (reads : Reads text lexemes rest) :
    ∃ used,
      text = used ++ rest ∧
        ∀ other, Text.endsUnpaired used = false →
          (∀ last ∈ lexemes.getLast?, last.EndsBefore other) →
            Reads (used ++ other) lexemes other := by
  induction reads with
  | done =>
      exact ⟨[], rfl, fun other _ _ => .done other⟩
  | @step c others rest reading lexemes begins tail inductionHypothesis =>
      obtain ⟨used, shape, goesOn⟩ := inductionHypothesis
      have cut := slice_append_rest (read_of_begins begins)
      obtain ⟨shown, shaped, written, ends⟩ := begins.stands
      refine ⟨reading.slice ++ used, by rw [← cut, shape, List.append_assoc], ?_⟩
      intro other paired stops
      -- What is known of the first slice depends on whether it is the last one, too.
      have stands :
          Reads (used ++ other) lexemes other ∧
            Stands reading.lexeme reading.slice (used ++ other) := by
        cases lexemes with
        | nil =>
            rw [tail.eq_of_nil] at shape
            have nothing : used = [] :=
              List.self_eq_append_left.mp shape
            subst nothing
            rw [List.append_nil] at paired
            exact ⟨.done other, shown, shaped.of_paired written paired _, written,
              stops _ rfl⟩
        | cons next behind =>
            have inhabited : reading.rest ≠ [] := by
              intro nothing
              rw [nothing] at tail
              cases tail.nil_eq
            have pairedSlice := shaped.endsUnpaired written inhabited
            rw [Text.endsUnpaired_append pairedSlice] at paired
            have stopsLater : ∀ last ∈ (next :: behind).getLast?, last.EndsBefore other := by
              intro last isLast
              exact stops last (by simpa using isLast)
            have later := goesOn other paired stopsLater
            have endsLater :=
              (later.endsBefore_iff reading.lexeme).mpr
                ((tail.endsBefore_iff reading.lexeme).mp ends)
            exact ⟨later, shown, shaped.of_paired written pairedSlice _, written, endsLater⟩
      rw [List.append_assoc]
      exact stands.2.reads (slice_ne_nil (read_of_begins begins)) stands.1

theorem endsBefore_of_isStoppedBy
    {lexeme : Lexeme}
    {next : Char}
    (stopped : lexeme.isStoppedBy next = true)
    (more : Text) :
    lexeme.EndsBefore (next :: more) := by
  cases lexeme with
  | whitespace =>
      intro c isFirst
      cases isFirst
      simpa [isStoppedBy] using stopped
  | word | atWord =>
      exact stopsWords_of_isDelimiter stopped more
  | _ =>
      trivial

/-- Every lexeme ends before a comment. -/
theorem endsBefore_comment
    (rest : Text)
    (lexeme : Lexeme) :
    lexeme.EndsBefore ('/' :: '*' :: rest) := by
  cases lexeme with
  | whitespace =>
      intro c isFirst
      cases isFirst
      decide
  | word | atWord =>
      exact stopsWords_comment rest
  | _ =>
      trivial

/--
A text is read in front of a character as it is read alone, if no backslash at
its end is left unpaired and the character stops its last lexeme.
-/
theorem Reads.before
    {text : Text}
    {lexemes : List Lexeme}
    {next : Char}
    (reads : Reads text lexemes [])
    (paired : Text.endsUnpaired text = false)
    (stopped : ∀ last ∈ lexemes.getLast?, last.isStoppedBy next = true)
    (more : Text) :
    Reads (text ++ next :: more) lexemes (next :: more) := by
  obtain ⟨used, rfl, goesOn⟩ := reads.exchange
  rw [List.append_nil] at paired ⊢
  exact goesOn (next :: more) paired fun last isLast =>
    endsBefore_of_isStoppedBy (stopped last isLast) more

end Lexeme

end PageSheet
