import PageSheet.Proofs.Locating
namespace PageSheet

/-!
# Scanning can be taken up at every token

What a lexeme is depends on the text from it on, so the text from a token on is scanned
alone as it is scanned in the source, with its positions counted from the cut.  The text
before the token is scanned alone as well: no lexeme in it goes on at the end of the
text when it does not go on at the token.
-/

namespace Position

/--
A position that was counted from a base, counted from where the base is counted from.
The column moves along only in the line of the base.
-/
def shift
    (base position : Position) :
    Position where
  offset :=
    base.offset + position.offset
  line :=
    base.line + (position.line - 1)
  column :=
    if position.line = 1 then
      base.column + (position.column - 1)
    else
      position.column

theorem next_shift
    {position : Position}
    (line : 0 < position.line)
    (column : 0 < position.column)
    (base : Position)
    (c : Char) :
    (base.shift position).next c = base.shift (position.next c) := by
  by_cases lineFeed : c = '\n'
  · have later : position.line + 1 ≠ 1 := by
      omega
    simp only [next, shift, lineFeed, if_true, if_neg later, Position.mk.injEq, and_true]
    omega
  · by_cases isFirst : position.line = 1
    · simp only [next, shift, if_neg lineFeed, if_pos isFirst, Position.mk.injEq,
        true_and]
      omega
    · simp only [next, shift, if_neg lineFeed, if_neg isFirst, Position.mk.injEq,
        and_true]
      omega

/-- Behind a base a text moves the position as it does from the start, seen from there. -/
theorem after_eq_shift
    (base : Position)
    (text : Text) :
    base.after text = base.shift (start.after text) := by
  induction text using List.reverseRecOn with
  | nil =>
      simp [shift, start]
  | append_singleton text c inductionHypothesis =>
      have counted := after_start text
      rw [after_append, after_append, inductionHypothesis]
      refine next_shift ?_ ?_ base c
      · rw [counted]
        exact Nat.add_pos_left Nat.one_pos _
      · rw [counted]
        exact Nat.add_pos_left Nat.one_pos _

end Position

/-- A span that was counted from a base, counted from where the base is counted from. -/
def Span.shift
    (base : Position)
    (span : Span) :
    Span where
  start :=
    base.shift span.start
  stop :=
    base.offset + span.stop

namespace Lexeme

/-- A slice that stands in front of a text is the first token of both together. -/
theorem Stands.scanFrom
    {lexeme : Lexeme}
    {slice rest : Text}
    (stands : Stands lexeme slice rest)
    (inhabited : slice ≠ [])
    (position : Position) :
    Token.scanFrom position (slice ++ rest) =
      (Token.scanFrom (position.after slice) rest).map
        (⟨lexeme, ⟨position, (position.after slice).offset⟩⟩ :: ·) := by
  obtain ⟨c, others, rfl⟩ := List.exists_cons_of_ne_nil inhabited
  exact (stands.begins rfl).scanFrom position

/-- What a text begins with stands in front of the lexemes behind it when they are cut off. -/
theorem Begins.stands_alone
    {c : Char}
    {others before behind : Text}
    {reading : Reading}
    {lexemes : List Lexeme}
    (begins : Begins c others reading)
    (cut : reading.rest = before ++ behind)
    (reads : Reads (before ++ behind) lexemes behind)
    (goesOn : behind ≠ []) :
    Stands reading.lexeme reading.slice before := by
  obtain ⟨shown, shaped, written, ends⟩ := begins.stands
  have notLast : reading.rest ≠ [] := by
    rw [cut]
    exact List.append_ne_nil_of_right_ne_nil before goesOn
  refine ⟨shown, shaped.mono fun isLast => absurd isLast notLast, written, ?_⟩
  obtain ⟨-, alone⟩ := reads.alone goesOn
  cases lexemes with
  | nil =>
      rw [alone.eq_of_nil]
      exact endsBefore_nil reading.lexeme
  | cons next more =>
      rw [cut] at ends
      exact (alone.endsBefore_iff reading.lexeme).mpr
        ((reads.endsBefore_iff reading.lexeme).mp ends)

end Lexeme

namespace Token

/-- Scanning behind a base gives the tokens that it gives from the start, seen from there. -/
theorem scanFrom_after
    {read text : Text}
    {tokens : List (Token Span)}
    (scanned : scanFrom (Position.start.after read) text = .ok tokens)
    (base : Position) :
    scanFrom (base.after read) text = .ok (tokens.map (relocate (Span.shift base))) := by
  generalize isBehind : Position.start.after read = position at scanned
  fun_induction scanFrom position text generalizing read tokens with
  | case1 position =>
      cases scanned
      rw [scanFrom, Position.after_eq_shift, isBehind]
      rfl
  | case2 =>
      cases scanned
  | case3 =>
      cases scanned
  | case4 position c rest reading accepted _ behind tail scannedTail =>
      rename_i inductionHypothesis
      cases scanned
      have moved : Position.start.after (read ++ reading.slice) = behind := by
        rw [Position.after_append, isBehind]
      have later := inductionHypothesis moved scannedTail
      rw [Position.after_append] at later
      have whole : (base.after read).after reading.slice = base.shift behind := by
        rw [← Position.after_append, Position.after_eq_shift, moved]
      rw [(Lexeme.begins_of_read accepted).scanFrom, later, whole, Position.after_eq_shift,
        isBehind]
      rfl

/-- Up to a token a source is scanned alone as it is scanned in the source. -/
theorem scanFrom_before
    {position : Position}
    {text : Text}
    {front back : List (Token Span)}
    {token : Token Span}
    (scanned : scanFrom position text = .ok (front ++ token :: back)) :
    ∃ before behind,
      text = before ++ behind ∧
        token.place.start = position.after before ∧
          scanFrom token.place.start behind = .ok (token :: back) ∧
            ∃ place,
              scanFrom position before = .ok (front ++ [⟨.endOfSource, place⟩]) := by
  induction front generalizing position text with
  | nil =>
      have starts := start_of_scanFrom scanned
      refine ⟨[], text, rfl, starts, ?_, _, scanFrom.eq_def position []⟩
      rw [starts]
      exact scanned
  | cons first others inductionHypothesis =>
      rcases cases_of_scanFrom scanned with
        ⟨-, -, nothing⟩ | ⟨c, rest, reading, rfl, begins, rfl, scannedRest⟩
      · exact absurd nothing (by simp)
      · obtain ⟨before, behind, cut, starts, goesOn, place, alone⟩ :=
          inductionHypothesis scannedRest
        have whole := Lexeme.slice_append_rest (Lexeme.read_of_begins begins)
        have inhabited := Lexeme.slice_ne_nil (Lexeme.read_of_begins begins)
        -- The last token in front of the cut has the end of the text behind it now.
        have stands : Lexeme.Stands reading.lexeme reading.slice before := by
          by_cases atEnd : behind = []
          · rw [atEnd, List.append_nil] at cut
            rw [← cut]
            exact begins.stands
          · obtain ⟨before', behind', cut', starts', reads, -⟩ := exists_cut scannedRest
            have sameLength : before.length = before'.length := by
              have sameOffset := congrArg Position.offset (starts.symm.trans starts')
              simpa [Position.offset_after] using sameOffset
            obtain ⟨rfl, rfl⟩ := List.append_inj (cut.symm.trans cut') sameLength
            rw [cut] at reads
            exact begins.stands_alone cut reads atEnd
        refine ⟨reading.slice ++ before, behind, ?_, ?_, goesOn, place, ?_⟩
        · rw [← whole, cut, List.append_assoc]
        · rw [starts, Position.after_append]
        · rw [stands.scanFrom inhabited, alone]
          rfl

/--
A source can be cut at each of its tokens: both parts are scanned alone, and their tokens
in a row are those of the source, with the second part counted from the cut.
-/
theorem restarts_of_mem
    {source : Text}
    {tokens : List (Token Span)}
    (scanned : scan source = .ok tokens)
    {token : Token Span}
    (member : token ∈ tokens) :
    ∃ front place back,
      scan (source.take token.place.start.offset) =
          .ok (front ++ [⟨.endOfSource, place⟩]) ∧
        scan (source.drop token.place.start.offset) = .ok back ∧
          tokens =
            front ++
              back.map
                (relocate (Span.shift (.within source token.place.start.offset))) := by
  obtain ⟨front, others, rfl⟩ := List.append_of_mem member
  obtain ⟨before, behind, rfl, starts, goesOn, place, alone⟩ := scanFrom_before scanned
  have isLength : token.place.start.offset = before.length := by
    rw [starts, Position.offset_after]
    exact Nat.zero_add before.length
  obtain ⟨lexemes, -, reads⟩ := Lexeme.reads_of_scanFrom goesOn
  obtain ⟨back, restarted, -⟩ := reads.exists_scanFrom Position.start
  have shifted := @scanFrom_after [] behind back restarted token.place.start
  have same := Except.ok.inj (goesOn.symm.trans shifted)
  refine ⟨front, place, back, ?_, ?_, ?_⟩
  · rw [isLength, List.take_left]
    exact alone
  · rw [isLength, List.drop_left]
    exact restarted
  · rw [same, isLength, ← Position.after_start_eq_within, ← starts]

/-- The tokens of a source with a comment over two lines right between two words. -/
def overLines : List (Token Span) :=
  [ ⟨.whitespace ['\n'], ⟨⟨0, 1, 1⟩, 1⟩⟩, ⟨.atWord ['a'], ⟨⟨1, 2, 1⟩, 3⟩⟩,
    ⟨.comment ['b'], ⟨⟨3, 2, 3⟩, 9⟩⟩, ⟨.word ['*', 'c'], ⟨⟨9, 3, 3⟩, 11⟩⟩,
    ⟨.endOfSource, ⟨⟨11, 3, 5⟩, 11⟩⟩ ]

/-- Cut at the comment, which alone keeps the words apart and moves the second line. -/
theorem restarts_of_mem_overLines :
    scan "\n@a/*b\n*/*c".toList = .ok overLines ∧
      ⟨.comment ['b'], ⟨⟨3, 2, 3⟩, 9⟩⟩ ∈ overLines ∧
        ∃ front place back,
          scan "\n@a".toList = .ok (front ++ [⟨.endOfSource, place⟩]) ∧
            scan "/*b\n*/*c".toList = .ok back ∧
              overLines = front ++ back.map (relocate (Span.shift ⟨3, 2, 3⟩)) := by
  have scanned : scan "\n@a/*b\n*/*c".toList = .ok overLines := by
    decide +kernel
  have member : ⟨.comment ['b'], ⟨⟨3, 2, 3⟩, 9⟩⟩ ∈ overLines :=
    .tail _ (.tail _ (.head _))
  exact ⟨scanned, member, restarts_of_mem scanned member⟩

end Token

end PageSheet
