import PageSheet.Proofs.Outcome
import PageSheet.Proofs.Shape
import PageSheet.Proofs.Uncommented
namespace PageSheet

/-!
# Comments are transparent

A comment may be put in front of any token of a source, if it does not come behind a
backslash that would take its first character away.  The lexemes before it and behind
it stay what they are, whatever they are and wherever they stand, so the source stays
the same sheet but for its comments.
-/

namespace Text

/-- A source with a comment put in at an offset. -/
def commentedAt
    (offset : Nat)
    (body source : Text) :
    Text :=
  source.take offset ++ (['/', '*'] ++ body ++ ['*', '/'] ++ source.drop offset)

end Text

/-- A source is read up to each of its tokens and on from there. -/
theorem Token.exists_reads_of_mem
    {position : Position}
    {text : Text}
    {tokens : List (Token Span)}
    (scanned : scanFrom position text = .ok tokens)
    {token : Token Span}
    (member : token ∈ tokens) :
    ∃ before behind lexemes others,
      text = before ++ behind ∧
        token.place.start.offset = position.offset + before.length ∧
          Lexeme.Reads text lexemes behind ∧ Lexeme.Reads behind others [] := by
  obtain ⟨front, back, rfl⟩ := List.append_of_mem member
  obtain ⟨before, behind, shape, starts, reads, scannedBehind⟩ := exists_cut scanned
  obtain ⟨others, -, more⟩ := Lexeme.reads_of_scanFrom scannedBehind
  exact ⟨before, behind, _, others, shape, by rw [starts, Position.offset_after], reads, more⟩

namespace Lexeme

/-- Between two runs of readings a comment is one more lexeme. -/
theorem Reads.commented
    {before behind body : Text}
    {lexemes others : List Lexeme}
    (reads : Reads (before ++ behind) lexemes behind)
    (more : Reads behind others [])
    (paired : Text.endsUnpaired before = false)
    (unended : ¬ ['*', '/'] <:+: body) :
    Reads (before ++ (['/', '*'] ++ body ++ ['*', '/'] ++ behind))
      (lexemes ++ .comment (Text.trim body) :: others) [] := by
  obtain ⟨used, shape, goesOn⟩ := reads.exchange
  cases List.append_cancel_right shape
  have split := splitComment?_of_unended unended behind
  rw [List.append_assoc] at split
  have remark := Reads.step (.comment split) more
  have cut :
      ['/', '*'] ++ body ++ ['*', '/'] ++ behind =
        '/' :: '*' :: (body ++ (['*', '/'] ++ behind)) := by
    simp
  rw [cut]
  have first := goesOn ('/' :: '*' :: (body ++ (['*', '/'] ++ behind))) paired
    fun last _ => endsBefore_comment _ last
  exact first.append remark

end Lexeme

namespace Item

/-- What lexemes come to without the comments among them. -/
theorem ofLexemes_uncommented
    (lexemes : List Lexeme) :
    ofLexemes (Lexeme.uncommented lexemes) =
      relocated id uncommentedIn (ofLexemes lexemes) := by
  have begins : (Progress.initial : Progress Unit).uncommented = .initial :=
    rfl
  have kept :
      (Lexeme.uncommented lexemes).map Token.bare =
        (lexemes.map Token.bare).filter fun token => !token.lexeme.isComment := by
    rw [List.filter_map]
    rfl
  unfold ofLexemes
  rw [kept, ← begins, Progress.steps_uncommented]
  exact relocated_bind _ _ Progress.finish_uncommented _

/-- What it means that two sources are the same sheet but for their comments. -/
structure SameButComments (source other : Text) : Prop where
  parses :
    (∃ items, ofSource other = .ok items) ↔ ∃ items, ofSource source = .ok items
  trees :
    ∀ {items others}, ofSource source = .ok items → ofSource other = .ok others →
      uncommentedIn (bare others) = uncommentedIn (bare items)
  pages :
    ∀ {items others}, ofSource source = .ok items → ofSource other = .ok others →
      Page.ofItems others = Page.ofItems items ∧
        (Page.ofItems others).html = (Page.ofItems items).html
  messages :
    ∀ {failure failure'},
      ofSource source = .error failure → ofSource other = .error failure' →
        failure'.fault.message = failure.fault.message

/-- Sources with the same outcome but for comments are the same sheet but for comments. -/
theorem sameButComments_of_outcome
    {source other : Text}
    (same :
      relocated id uncommentedIn (outcome other) =
        relocated id uncommentedIn (outcome source)) :
    SameButComments source other := by
  have trees :
      ∀ {items others}, ofSource source = .ok items → ofSource other = .ok others →
        uncommentedIn (bare others) = uncommentedIn (bare items) := by
    intro items others parsed parsedOther
    rw [outcome_of_ok parsed, outcome_of_ok parsedOther] at same
    exact Except.ok.inj same
  refine ⟨exists_ofSource_iff_of_outcome same, trees, ?_, message_eq_of_outcome same⟩
  intro items others parsed parsedOther
  have alike : Page.ofItems others = Page.ofItems items :=
    calc
      Page.ofItems others = Page.ofItems (uncommentedIn (bare others)) := by
        rw [Page.ofItems_uncommentedIn, bare, Page.ofItems_relocateIn]
      _ = Page.ofItems (uncommentedIn (bare items)) := by
        rw [trees parsed parsedOther]
      _ = Page.ofItems items := by
        rw [Page.ofItems_uncommentedIn, bare, Page.ofItems_relocateIn]
  exact ⟨alike, congrArg Page.html alike⟩

/-- A comment in front of a token leaves a source the same sheet but for its comments. -/
theorem sameButComments_commentedAt
    {source : Text}
    {tokens : List (Token Span)}
    (scanned : Token.scan source = .ok tokens)
    {token : Token Span}
    (member : token ∈ tokens)
    (paired : Text.endsUnpaired (source.take token.place.start.offset) = false)
    {body : Text}
    (unended : ¬ ['*', '/'] <:+: body) :
    SameButComments source (Text.commentedAt token.place.start.offset body source) := by
  obtain ⟨before, behind, lexemes, others, rfl, offset, reads, more⟩ :=
    Token.exists_reads_of_mem scanned member
  have isLength : token.place.start.offset = before.length :=
    offset.trans (Nat.zero_add before.length)
  rw [isLength] at paired ⊢
  rw [List.take_left] at paired
  rw [Text.commentedAt, List.take_left, List.drop_left]
  have whole := reads.append more
  have commented := reads.commented more paired unended
  have sameLexemes :
      Lexeme.uncommented (lexemes ++ .comment (Text.trim body) :: others) =
        Lexeme.uncommented (lexemes ++ others) := by
    simp [Lexeme.uncommented, Lexeme.isComment]
  refine sameButComments_of_outcome ?_
  rw [outcome_of_reads whole, outcome_of_reads commented, ← ofLexemes_uncommented,
    ← ofLexemes_uncommented, sameLexemes]

/-- The tokens of a rule whose selector has a parenthesis right behind a slash. -/
def slashed : List (Token Span) :=
  [ ⟨.word ['a', '/'], ⟨⟨0, 1, 1⟩, 2⟩⟩, ⟨.leftParen, ⟨⟨2, 1, 3⟩, 3⟩⟩,
    ⟨.semicolon, ⟨⟨3, 1, 4⟩, 4⟩⟩, ⟨.rightParen, ⟨⟨4, 1, 5⟩, 5⟩⟩,
    ⟨.leftBrace, ⟨⟨5, 1, 6⟩, 6⟩⟩, ⟨.word ['b'], ⟨⟨6, 1, 7⟩, 7⟩⟩,
    ⟨.colon, ⟨⟨7, 1, 8⟩, 8⟩⟩, ⟨.word ['c'], ⟨⟨8, 1, 9⟩, 9⟩⟩,
    ⟨.rightBrace, ⟨⟨9, 1, 10⟩, 10⟩⟩, ⟨.endOfSource, ⟨⟨10, 1, 11⟩, 10⟩⟩ ]

/-- A comment behind the slash, with a slash and a star at its start and a brace in it. -/
theorem sameButComments_commentedAt_slashed :
    Token.scan "a/(;)\x7bb:c\x7d".toList = .ok slashed ∧
      ⟨.leftParen, ⟨⟨2, 1, 3⟩, 3⟩⟩ ∈ slashed ∧
        Text.endsUnpaired ("a/(;)\x7bb:c\x7d".toList.take 2) = false ∧
          ¬ ['*', '/'] <:+: "/*;\x7d".toList ∧
            SameButComments "a/(;)\x7bb:c\x7d".toList
              "a//*/*;\x7d*/(;)\x7bb:c\x7d".toList := by
  have scanned : Token.scan "a/(;)\x7bb:c\x7d".toList = .ok slashed := by
    decide +kernel
  have member : ⟨.leftParen, ⟨⟨2, 1, 3⟩, 3⟩⟩ ∈ slashed :=
    .tail _ (.head _)
  have paired : Text.endsUnpaired ("a/(;)\x7bb:c\x7d".toList.take 2) = false := by
    decide +kernel
  have unended : ¬ ['*', '/'] <:+: "/*;\x7d".toList := by
    decide +kernel
  exact ⟨scanned, member, paired, unended,
    sameButComments_commentedAt scanned member paired unended⟩

end Item

end PageSheet
