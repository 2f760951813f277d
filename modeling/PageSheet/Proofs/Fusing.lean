import PageSheet.Item.Parse
import PageSheet.Proofs.Canonical
import PageSheet.Proofs.Cutting
namespace PageSheet

/-!
# What a spelling is read as

Comments write nothing, so in the spelling of some tokens the lexemes around a comment
stand side by side.  White space goes on as white space and a word as a word, and what is
read then has the same spelling.  But where a slash stands in front of a star, they start
a comment that none of the tokens wrote.  That is the only way in which a spelling is not
read back as itself.
-/

namespace Text

/-- Whether a text ends in a slash that no backslash takes. -/
def endsInSlash (text : Text) : Bool :=
  text.getLast? == some '/' && !endsUnpaired text.dropLast

/-- Pieces end in a slash that no backslash takes if the last one is a plain slash. -/
theorem endsInSlash_texts_iff
    {pieces : List Piece}
    {passes : Char → Bool}
    (fit : ∀ piece ∈ pieces, piece.fits passes = true) :
    endsInSlash (Piece.texts pieces) = true ↔ pieces.getLast? = some (.plain '/') := by
  rcases List.eq_nil_or_concat pieces with rfl | ⟨front, last, rfl⟩
  · exact ⟨nofun, nofun⟩
  rw [List.concat_eq_append] at fit ⊢
  have paired : endsUnpaired (Piece.texts front) = false :=
    Piece.endsUnpaired_texts fun piece member => fit piece (List.mem_append_left _ member)
  have whole : Piece.texts (front ++ [last]) = Piece.texts front ++ last.text := by
    simp [Piece.texts]
  rw [whole, List.getLast?_concat]
  cases last with
  | plain c =>
      simp [endsInSlash, Piece.text, paired]
  | escaped c =>
      have cut : Piece.texts front ++ ['\\', c] = Piece.texts front ++ ['\\'] ++ [c] :=
        List.append_cons _ _ _
      have unpaired : endsUnpaired (Piece.texts front ++ ['\\']) = true :=
        endsUnpaired_append paired ['\\']
      rw [Piece.text, cut, endsInSlash, List.dropLast_concat, unpaired]
      simp

end Text

namespace Lexeme

/-- Whether two lexemes side by side start a comment between them. -/
def opensComment (first second : Lexeme) : Bool :=
  Text.endsInSlash first.spelling && second.spelling.head? == some '*'

/-- The lexemes that write something. -/
def writing (lexemes : List Lexeme) : List Lexeme :=
  lexemes.filter fun lexeme => !lexeme.spelling.isEmpty

theorem writing_cons_of_nil
    {lexeme : Lexeme}
    (silent : lexeme.spelling = [])
    (rest : List Lexeme) :
    writing (lexeme :: rest) = writing rest :=
  List.filter_cons_of_neg (by simp [silent])

theorem writing_cons
    {lexeme : Lexeme}
    (writes : lexeme.spelling ≠ [])
    (rest : List Lexeme) :
    writing (lexeme :: rest) = lexeme :: writing rest :=
  List.filter_cons_of_pos (by simp [writes])

/-- The other lexemes have no part in a spelling. -/
theorem spellings_writing
    (lexemes : List Lexeme) :
    spellings (writing lexemes) = spellings lexemes := by
  induction lexemes with
  | nil =>
      rfl
  | cons lexeme rest inductionHypothesis =>
      by_cases silent : lexeme.spelling = []
      · rw [writing_cons_of_nil silent, inductionHypothesis, spellings_cons, silent]
        rfl
      · rw [writing_cons silent, spellings_cons, spellings_cons, inductionHypothesis]

/-- The lists of lexemes that write something and have the shapes of their kinds. -/
inductive Shaped : List Lexeme → Prop where
  | nil :
      Shaped []
  | cons
      {lexeme : Lexeme}
      {rest : List Lexeme} :
      lexeme.spelling ≠ [] →
      lexeme.HasShape (rest = []) →
      Shaped rest →
      Shaped (lexeme :: rest)

/-- What writes something in the first part of a canonical list is shaped. -/
theorem Canonical.shaped
    {part back : List Lexeme}
    (canonical : Canonical (part ++ back)) :
    Shaped (writing part) := by
  generalize whole : part ++ back = lexemes at canonical
  induction canonical generalizing part with
  | ended =>
      rcases List.append_eq_singleton_iff.mp whole with ⟨rfl, -⟩ | ⟨rfl, -⟩
      · exact .nil
      · exact .nil
  | @cons lexeme rest shown shaped separates _ inductionHypothesis =>
      cases part with
      | nil =>
          exact .nil
      | cons first others =>
          obtain ⟨rfl, rfl⟩ := List.cons.inj whole
          have later := inductionHypothesis rfl
          by_cases silent : first.spelling = []
          · rw [writing_cons_of_nil silent]
            exact later
          · rw [writing_cons silent]
            refine .cons silent (shaped.mono fun isLast => ?_) later
            rcases List.append_eq_singleton_iff.mp isLast with ⟨rfl, -⟩ | ⟨rfl, -⟩
            · rfl
            · rfl

section Joining

variable {first second : Text} {isLast : Prop}

/-- Two words in a row are a word, if they start no comment between them. -/
theorem IsWordText.append
    (one : IsWordText False first)
    (two : IsWordText isLast second)
    (unfused : Text.endsInSlash first = true → second.head? ≠ some '*') :
    IsWordText isLast (first ++ second) := by
  obtain ⟨pieces, makes, rfl | ⟨isLast, -⟩⟩ := one
  · rw [Text.endsInSlash_texts_iff makes.fit] at unfused
    obtain ⟨others, makes', split⟩ := two
    have apart :
        ∀ last ∈ pieces.getLast?, ∀ next ∈ others.head?,
          ¬ (last = .plain '/' ∧ next = .plain '*') := by
      rintro last isLast next isNext ⟨rfl, rfl⟩
      obtain ⟨more, rfl⟩ := List.head?_eq_some_iff.mp isNext
      apply unfused isLast
      rcases split with rfl | ⟨-, rfl⟩ <;> rfl
    have joined : Piece.MakeWord (pieces ++ others) :=
      ⟨List.forall_mem_append.mpr ⟨makes.fit, makes'.fit⟩,
        List.isChain_append.mpr ⟨makes.apart, makes'.apart, apart⟩⟩
    have texts : Piece.texts (pieces ++ others) = Piece.texts pieces ++ Piece.texts others :=
      List.flatMap_append
    refine ⟨pieces ++ others, joined, ?_⟩
    rw [texts]
    rcases split with rfl | ⟨used, rfl⟩
    · exact .inl rfl
    · exact .inr ⟨used, (List.append_assoc ..).symm⟩
  · exact isLast.elim

/-- Without the slash at its end a word is still a word, if anything is left. -/
theorem IsWordText.exists_slash
    (isWord : IsWordText False first)
    (slashed : Text.endsInSlash first = true) :
    ∃ front, first = front ++ ['/'] ∧ ∀ isLast, IsWordText isLast front := by
  obtain ⟨pieces, makes, rfl | ⟨isLast, -⟩⟩ := isWord
  · rw [Text.endsInSlash_texts_iff makes.fit] at slashed
    obtain ⟨front, rfl⟩ := List.getLast?_eq_some_iff.mp slashed
    have shorter : Piece.MakeWord front :=
      ⟨fun piece member => makes.fit piece (List.mem_append_left _ member),
        (List.isChain_append.mp makes.apart).1⟩
    refine ⟨Piece.texts front, ?_, fun isLast => ⟨front, shorter, .inl rfl⟩⟩
    simp [Piece.texts, Piece.text]
  · exact isLast.elim

end Joining

/-- What writes something is no comment and not the end of the source. -/
theorem shown_of_spelling_ne_nil
    {lexeme : Lexeme}
    (writes : lexeme.spelling ≠ []) :
    lexeme ≠ .endOfSource ∧ lexeme.isComment = false := by
  cases lexeme with
  | comment | endOfSource =>
      exact absurd rfl writes
  | _ =>
      exact ⟨nofun, rfl⟩

/-- The slash at the end of an at-word is the one at the end of its name. -/
theorem endsInSlash_atWord
    (name : Text) :
    Text.endsInSlash (Lexeme.atWord name).spelling = Text.endsInSlash name := by
  rw [spelling]
  cases name with
  | nil =>
      rfl
  | cons c rest =>
      rw [Text.endsInSlash, List.getLast?_cons_cons, List.dropLast_cons_cons,
        Text.endsUnpaired_cons (by decide)]
      rfl

/-- Two lexemes that can not stand side by side are read as one, if they start no comment. -/
theorem Stands.exists_joined
    {lexeme next : Lexeme}
    {slice rest : Text}
    (stands : Stands next slice rest)
    (goesOn : lexeme.HasShape False)
    (together : separate lexeme next = false)
    (unfused : Text.endsInSlash lexeme.spelling = true → slice.head? ≠ some '*') :
    ∃ joined,
      joined.isComment = false ∧ Stands joined (lexeme.spelling ++ slice) rest := by
  obtain ⟨-, shaped, written, ends⟩ := stands
  cases next with
  | whitespace blanks =>
      cases written
      cases lexeme with
      | whitespace text =>
          have blank : ∀ c ∈ text ++ blanks, isBlank c = true :=
            List.forall_mem_append.mpr ⟨goesOn.2, shaped.2⟩
          have inhabited : text ++ blanks ≠ [] :=
            List.append_ne_nil_of_left_ne_nil goesOn.1 blanks
          exact ⟨.whitespace (text ++ blanks), rfl, nofun, ⟨inhabited, blank⟩, rfl, ends⟩
      | _ =>
          cases together
  | word text =>
      cases written
      cases lexeme with
      | word front =>
          have isWord : IsWordText (rest = []) (front ++ text) :=
            goesOn.2.append shaped.2 unfused
          have inhabited : front ++ text ≠ [] :=
            List.append_ne_nil_of_left_ne_nil goesOn.1 text
          exact ⟨.word (front ++ text), rfl, nofun, ⟨inhabited, isWord⟩, rfl, ends⟩
      | atWord front =>
          rw [endsInSlash_atWord] at unfused
          have isWord : IsWordText (rest = []) (front ++ text) :=
            IsWordText.append goesOn shaped.2 unfused
          exact ⟨.atWord (front ++ text), rfl, nofun, isWord, rfl, ends⟩
      | _ =>
          cases together
  | _ =>
      cases lexeme <;> cases together

/--
A lexeme in front of a text is read as itself, or it goes on with the first lexeme of the
text, if it starts no comment with the text.
-/
theorem Reads.exists_joined
    {lexeme : Lexeme}
    {text rest : Text}
    {lexemes : List Lexeme}
    (reads : Reads text lexemes rest)
    (uncommented : lexemes.any isComment = false)
    (stops : rest = [] ∨ ∃ behind, rest = '/' :: '*' :: behind)
    (writes : lexeme.spelling ≠ [])
    (shaped : lexeme.HasShape (text = []))
    (unfused : Text.endsInSlash lexeme.spelling = true → text.head? ≠ some '*') :
    ∃ joined,
      Reads (lexeme.spelling ++ text) joined rest ∧ joined.any isComment = false := by
  obtain ⟨shown, isShown⟩ := shown_of_spelling_ne_nil writes
  by_cases ends : lexeme.EndsBefore text
  · have stands : Stands lexeme lexeme.spelling text :=
      ⟨shown, shaped, writtenAs_spelling isShown, ends⟩
    refine ⟨lexeme :: lexemes, stands.reads writes reads, ?_⟩
    rw [List.any_cons, isShown, uncommented]
    rfl
  · cases reads with
    | done =>
        rcases stops with rfl | ⟨behind, rfl⟩
        · exact absurd (endsBefore_nil lexeme) ends
        · exact absurd (endsBefore_comment behind lexeme) ends
    | @step c others _ reading more begins tail =>
        have cut := slice_append_rest (read_of_begins begins)
        have inhabited := slice_ne_nil (read_of_begins begins)
        have together : separate lexeme reading.lexeme = false := by
          rw [begins.endsBefore_iff] at ends
          exact Bool.eq_false_iff.mpr ends
        have goesOn : lexeme.HasShape False :=
          shaped.mono (List.cons_ne_nil c others)
        rw [← cut, List.head?_append_of_ne_nil _ inhabited] at unfused
        obtain ⟨joined, isShown, stands⟩ :=
          begins.stands.exists_joined goesOn together unfused
        have reads :=
          stands.reads (List.append_ne_nil_of_left_ne_nil writes reading.slice) tail
        rw [List.append_assoc, cut] at reads
        rw [List.any_cons, Bool.or_eq_false_iff] at uncommented
        refine ⟨joined :: more, reads, ?_⟩
        rw [List.any_cons, isShown, uncommented.2]
        rfl

/-- In front of a star the slash at the end of a lexeme starts a comment. -/
theorem exists_reads_slash
    {lexeme : Lexeme}
    (goesOn : lexeme.HasShape False)
    (slashed : Text.endsInSlash lexeme.spelling = true)
    (behind : Text) :
    ∃ lexemes,
      Reads (lexeme.spelling ++ '*' :: behind) lexemes ('/' :: '*' :: behind) ∧
        lexemes.any isComment = false := by
  cases lexeme with
  | word text =>
      obtain ⟨front, rfl, isWord⟩ := goesOn.2.exists_slash slashed
      rw [spelling, List.append_assoc]
      by_cases empty : front = []
      · rw [empty]
        exact ⟨[], .done _, rfl⟩
      · have stands : Stands (.word front) front ('/' :: '*' :: behind) :=
          ⟨by simp, ⟨empty, isWord _⟩, rfl, endsBefore_comment behind (.word front)⟩
        exact ⟨[.word front], stands.reads empty (.done _), rfl⟩
  | atWord name =>
      rw [endsInSlash_atWord] at slashed
      obtain ⟨front, rfl, isWord⟩ := IsWordText.exists_slash goesOn slashed
      have stands : Stands (.atWord front) ('@' :: front) ('/' :: '*' :: behind) :=
        ⟨by simp, isWord _, rfl, endsBefore_comment behind (.atWord front)⟩
      refine ⟨[.atWord front], ?_, rfl⟩
      rw [spelling, ← List.cons_append, List.append_assoc]
      exact stands.reads (List.cons_ne_nil '@' front) (.done _)
  | whitespace text =>
      have isLast : text.getLast? = some '/' := by
        simp only [Text.endsInSlash, Bool.and_eq_true, beq_iff_eq] at slashed
        exact slashed.1
      exact absurd (goesOn.2 _ (List.mem_of_getLast? isLast)) (by decide)
  | string text =>
      obtain ⟨quote, pieces, isQuote, -, rfl⟩ := goesOn
      have isLast : (quote :: Piece.texts pieces ++ [quote]).getLast? = some '/' := by
        simp only [Text.endsInSlash, Bool.and_eq_true, beq_iff_eq] at slashed
        exact slashed.1
      rw [List.getLast?_concat] at isLast
      rcases isQuote with rfl | rfl <;> cases isLast
  | _ =>
      cases slashed

/--
What is read of the spelling of shaped lexemes without any comment is all of it, or it
ends where two of the lexemes start a comment.
-/
theorem Shaped.exists_reads
    {lexemes : List Lexeme}
    (shaped : Shaped lexemes) :
    ∃ read rest,
      Reads (spellings lexemes) read rest ∧
        read.any isComment = false ∧
          (rest = [] ∧ lexemes.IsChain (fun one two => opensComment one two = false) ∨
            (∃ behind, rest = '/' :: '*' :: behind) ∧
              ¬ lexemes.IsChain fun one two => opensComment one two = false) := by
  induction shaped with
  | nil =>
      exact ⟨[], [], .done [], rfl, .inl ⟨rfl, .nil⟩⟩
  | @cons lexeme rest writes shape shapedRest inductionHypothesis =>
      rw [spellings_cons]
      -- Reading stops at the first pair that starts a comment, whatever comes later.
      by_cases opens : ∃ next ∈ rest.head?, opensComment lexeme next = true
      · obtain ⟨next, isNext, opens⟩ := opens
        obtain ⟨others, rfl⟩ := List.head?_eq_some_iff.mp isNext
        simp only [opensComment, Bool.and_eq_true, beq_iff_eq] at opens
        obtain ⟨slashed, starred⟩ := opens
        obtain ⟨more, star⟩ := List.head?_eq_some_iff.mp starred
        have goesOn : lexeme.HasShape False :=
          shape.mono (List.cons_ne_nil next others)
        rw [spellings_cons, star]
        obtain ⟨read, reads, uncommented⟩ :=
          exists_reads_slash goesOn slashed (more ++ spellings others)
        refine ⟨read, _, reads, uncommented, .inr ⟨⟨_, rfl⟩, fun chain => ?_⟩⟩
        have apart := chain.rel
        simp [opensComment, slashed, starred] at apart
      · obtain ⟨read, left, reads, uncommented, split⟩ := inductionHypothesis
        have stops : left = [] ∨ ∃ behind, left = '/' :: '*' :: behind :=
          split.imp And.left And.left
        have unfused :
            Text.endsInSlash lexeme.spelling = true →
              (spellings rest).head? ≠ some '*' := by
          intro slashed starred
          cases shapedRest with
          | nil =>
              cases starred
          | @cons next others writesNext =>
              rw [spellings_cons, List.head?_append_of_ne_nil _ writesNext] at starred
              exact opens ⟨next, rfl, by simp [opensComment, slashed, starred]⟩
        have shapedText : lexeme.HasShape (spellings rest = []) := by
          refine shape.mono ?_
          rintro rfl
          rfl
        obtain ⟨joined, readsJoined, shown⟩ :=
          reads.exists_joined uncommented stops writes shapedText unfused
        have sameChain :
            (lexeme :: rest).IsChain (fun one two => opensComment one two = false) ↔
              rest.IsChain fun one two => opensComment one two = false := by
          refine List.isChain_cons.trans ⟨And.right, fun chain => ⟨?_, chain⟩⟩
          intro next isNext
          exact Bool.eq_false_iff.mpr fun opensNext => opens ⟨next, isNext, opensNext⟩
        refine ⟨joined, left, readsJoined, shown, ?_⟩
        rw [sameChain]
        exact split

/-- What is read of a text is the start of all that is read of it. -/
theorem Reads.exists_rest
    {text middle : Text}
    {lexemes all : List Lexeme}
    (reads : Reads text lexemes middle)
    (readsAll : Reads text all []) :
    ∃ others, all = lexemes ++ others ∧ Reads middle others [] := by
  induction reads generalizing all with
  | done =>
      exact ⟨all, rfl, readsAll⟩
  | @step c others rest reading lexemes begins _ inductionHypothesis =>
      cases readsAll with
      | @step _ _ _ reading' more begins' tail =>
          have same := (read_of_begins begins).symm.trans (read_of_begins begins')
          cases Except.ok.inj same
          obtain ⟨behind, rfl, later⟩ := inductionHypothesis tail
          exact ⟨behind, rfl, later⟩

/-- What starts like a comment is read as a comment first. -/
theorem Reads.isComment_of_slash
    {behind rest : Text}
    {lexemes : List Lexeme}
    (reads : Reads ('/' :: '*' :: behind) lexemes rest)
    (reached : rest ≠ '/' :: '*' :: behind) :
    lexemes.any isComment = true := by
  cases reads with
  | done =>
      exact absurd rfl reached
  | step begins tail =>
      cases begins with
      | blanks blank =>
          cases blank
      | string isQuote =>
          rcases isQuote with isQuote | isQuote <;> cases isQuote
      | mark isMark =>
          cases isMark
      | comment =>
          rfl
      | word _ notComment =>
          exact (notComment behind rfl rfl).elim

end Lexeme

namespace Token

/-- What it means that a text is scanned without comments and spelled as it is. -/
def IsStable (text : Text) : Prop :=
  ∃ tokens,
    scan text = .ok tokens ∧
      (∀ token ∈ tokens, token.lexeme.isComment = false) ∧ spelling tokens = text

/-- A text is stable if its lexemes are no comments. -/
theorem isStable_iff
    {text : Text} :
    IsStable text ↔
      ∃ lexemes, Lexeme.Reads text lexemes [] ∧ lexemes.any Lexeme.isComment = false := by
  constructor
  · rintro ⟨tokens, scanned, uncommented, -⟩
    obtain ⟨lexemes, shape, reads⟩ := Lexeme.reads_of_scanFrom scanned
    refine ⟨lexemes, reads, List.any_eq_false.mpr fun lexeme member => ?_⟩
    have inTokens : lexeme ∈ tokens.map Token.lexeme := by
      rw [shape]
      exact List.mem_append_left _ member
    obtain ⟨token, isToken, rfl⟩ := List.mem_map.mp inTokens
    exact Bool.eq_false_iff.mp (uncommented token isToken)
  · rintro ⟨lexemes, reads, uncommented⟩
    obtain ⟨tokens, scanned, shape⟩ := reads.exists_scanFrom Position.start
    refine ⟨tokens, scanned, fun token isToken => ?_, ?_⟩
    · have inLexemes : token.lexeme ∈ lexemes ++ [.endOfSource] := by
        rw [← shape]
        exact List.mem_map_of_mem isToken
      rcases List.mem_append.mp inLexemes with member | isEnd
      · exact Bool.eq_false_iff.mpr (List.any_eq_false.mp uncommented _ member)
      · rw [List.mem_singleton.mp isEnd]
        rfl
    · have whole := reads.spellings_append uncommented
      rw [spelling, shape, Lexeme.spellings_append]
      exact whole

/-- The tokens in a row that write something have the shapes of their kinds. -/
theorem shaped_writing
    {source : Text}
    {front part back : List (Token Span)}
    (scanned : scan source = .ok (front ++ part ++ back)) :
    Lexeme.Shaped (Lexeme.writing (part.map Token.lexeme)) := by
  cases part with
  | nil =>
      exact .nil
  | cons token others =>
      rw [List.append_assoc, List.cons_append] at scanned
      obtain ⟨before, behind, -, -, -, goesOn⟩ := exists_cut scanned
      obtain ⟨lexemes, shape, reads⟩ := Lexeme.reads_of_scanFrom goesOn
      have canonical := reads.canonical
      rw [← shape, ← List.cons_append, List.map_append] at canonical
      exact canonical.shaped

/--
The spelling of tokens in a row is scanned as a text without comments that spells itself
exactly when no two of them, comments left out, start a comment between them.
-/
theorem isStable_spelling_iff
    {source : Text}
    {front part back : List (Token Span)}
    (scanned : scan source = .ok (front ++ part ++ back)) :
    IsStable (spelling part) ↔
      (Lexeme.writing (part.map Token.lexeme)).IsChain fun one two =>
        Lexeme.opensComment one two = false := by
  obtain ⟨read, rest, reads, uncommented, ⟨rfl, chain⟩ | ⟨⟨behind, rfl⟩, unchained⟩⟩ :=
    (shaped_writing scanned).exists_reads
  · rw [Lexeme.spellings_writing] at reads
    exact iff_of_true (isStable_iff.mpr ⟨read, reads, uncommented⟩) chain
  · rw [Lexeme.spellings_writing] at reads
    refine iff_of_false (fun stable => ?_) unchained
    obtain ⟨all, readsAll, shown⟩ := isStable_iff.mp stable
    obtain ⟨others, rfl, later⟩ := reads.exists_rest readsAll
    have commented := later.isComment_of_slash (List.cons_ne_nil '/' _).symm
    rw [List.any_append, commented, Bool.or_true] at shown
    cases shown

/-- The tokens of a source where an empty comment stands between a slash and a star. -/
def joinedBySlash : List (Token Span) :=
  [ ⟨.word ['/'], ⟨⟨0, 1, 1⟩, 1⟩⟩, ⟨.comment [], ⟨⟨1, 1, 2⟩, 5⟩⟩,
    ⟨.word ['*', 'x', '*', '/'], ⟨⟨5, 1, 6⟩, 9⟩⟩, ⟨.endOfSource, ⟨⟨9, 1, 10⟩, 9⟩⟩ ]

/-- All tokens of a source in a row, where the only comment keeps a slash from a star. -/
theorem isStable_spelling_iff_joinedBySlash :
    scan "//**/*x*/".toList = .ok ([] ++ joinedBySlash ++ []) ∧
      (IsStable (spelling joinedBySlash) ↔
        (Lexeme.writing (joinedBySlash.map Token.lexeme)).IsChain fun one two =>
          Lexeme.opensComment one two = false) := by
  have scanned : scan "//**/*x*/".toList = .ok ([] ++ joinedBySlash ++ []) := by
    decide +kernel
  exact ⟨scanned, isStable_spelling_iff scanned⟩

/--
Not every source has a stable spelling: without its comment this one is a comment itself,
and so is a part of the value of a declaration.
-/
theorem exists_unstable_spelling :
    ¬ (∀ source tokens, scan source = .ok tokens → IsStable (spelling tokens)) ∧
      scan "//**/*x*/".toList = .ok joinedBySlash ∧
        spelling joinedBySlash = "/*x*/".toList ∧
          (scan "/*x*/".toList).map (List.map Token.lexeme) =
              .ok [.comment ['x'], .endOfSource] ∧
            (Item.ofSource "a:b//**/*x*/c".toList).map Item.declarationsIn =
              .ok [⟨['a'], "b/*x*/c".toList, ⟨⟨0, 1, 1⟩, 1⟩⟩] := by
  have scanned : scan "//**/*x*/".toList = .ok joinedBySlash := by
    decide +kernel
  have spelled : spelling joinedBySlash = "/*x*/".toList := by
    decide +kernel
  have again :
      (scan "/*x*/".toList).map (List.map Token.lexeme) =
        .ok [.comment ['x'], .endOfSource] := by
    decide +kernel
  refine ⟨fun stable => ?_, scanned, spelled, again, by decide +kernel⟩
  obtain ⟨tokens, scannedAgain, uncommented, -⟩ := stable _ _ scanned
  rw [spelled] at scannedAgain
  rw [scannedAgain] at again
  have shape : tokens.map Token.lexeme = [.comment ['x'], .endOfSource] :=
    Except.ok.inj again
  have inLexemes : .comment ['x'] ∈ tokens.map Token.lexeme := by
    rw [shape]
    exact List.mem_cons_self
  obtain ⟨token, isToken, isRemark⟩ := List.mem_map.mp inLexemes
  have shown := uncommented token isToken
  rw [isRemark] at shown
  cases shown

end Token

end PageSheet
