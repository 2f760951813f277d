import PageSheet.Proofs.Shape
namespace PageSheet

/-!
# Cutting a source between its lexemes

A run of readings that stops in front of more text has its backslashes paired: one that
was left over would have taken the first character of that text with it.  So the text
in front of the cut is read alone as it is read in the source.  Every token of a source
is such a cut, and the position of the token is the one behind the text before it.
-/

namespace Lexeme

/-- In front of more text a run of readings leaves no backslash unpaired. -/
theorem Reads.exists_paired
    {text rest : Text}
    {lexemes : List Lexeme}
    (reads : Reads text lexemes rest)
    (goesOn : rest ≠ []) :
    ∃ used, text = used ++ rest ∧ Text.endsUnpaired used = false := by
  induction reads with
  | done =>
      exact ⟨[], rfl, rfl⟩
  | @step c others rest reading lexemes begins _ inductionHypothesis =>
      obtain ⟨used, shape, paired⟩ := inductionHypothesis goesOn
      obtain ⟨-, shaped, written, -⟩ := begins.stands
      have inhabited : reading.rest ≠ [] := by
        rw [shape]
        exact List.append_ne_nil_of_right_ne_nil used goesOn
      have pairedSlice := shaped.endsUnpaired written inhabited
      have cut := slice_append_rest (read_of_begins begins)
      refine ⟨reading.slice ++ used, ?_, ?_⟩
      · rw [← cut, shape, List.append_assoc]
      · rw [Text.endsUnpaired_append pairedSlice, paired]

/-- What is read in front of more text is read alone as the same lexemes. -/
theorem Reads.alone
    {before behind : Text}
    {lexemes : List Lexeme}
    (reads : Reads (before ++ behind) lexemes behind)
    (goesOn : behind ≠ []) :
    Text.endsUnpaired before = false ∧ Reads before lexemes [] := by
  obtain ⟨used, shape, paired⟩ := reads.exists_paired goesOn
  cases List.append_cancel_right shape
  obtain ⟨used, shape, exchange⟩ := reads.exchange
  cases List.append_cancel_right shape
  have alone := exchange [] paired fun last _ => endsBefore_nil last
  rw [List.append_nil] at alone
  exact ⟨paired, alone⟩

end Lexeme

namespace Token

/--
The first token of a text is the end of the source, or it stands for the first reading
and the others are the tokens of the rest.
-/
theorem cases_of_scanFrom
    {position : Position}
    {text : Text}
    {token : Token Span}
    {back : List (Token Span)}
    (scanned : scanFrom position text = .ok (token :: back)) :
    (text = [] ∧ token = ⟨.endOfSource, ⟨position, position.offset⟩⟩ ∧ back = []) ∨
      ∃ c rest reading,
        text = c :: rest ∧
          Lexeme.Begins c rest reading ∧
            token = ⟨reading.lexeme, ⟨position, (position.after reading.slice).offset⟩⟩ ∧
              scanFrom (position.after reading.slice) reading.rest = .ok back := by
  rw [scanFrom.eq_def] at scanned
  split at scanned
  · cases scanned
    exact .inl ⟨rfl, rfl, rfl⟩
  · next c rest =>
      split at scanned
      · cases scanned
      · next reading accepted =>
          dsimp only at scanned
          split at scanned
          · cases scanned
          · next tokens scannedRest =>
              cases scanned
              exact .inr ⟨c, rest, reading, rfl, Lexeme.begins_of_read accepted, rfl,
                scannedRest⟩

/-- The tokens of a text start with one where the text starts. -/
theorem start_of_scanFrom
    {position : Position}
    {text : Text}
    {token : Token Span}
    {back : List (Token Span)}
    (scanned : scanFrom position text = .ok (token :: back)) :
    token.place.start = position := by
  rcases cases_of_scanFrom scanned with ⟨-, rfl, -⟩ | ⟨c, rest, reading, -, -, rfl, -⟩
  · rfl
  · rfl

/-- Where a token of a source stands, the text is cut and scanning can be taken up. -/
theorem exists_cut
    {position : Position}
    {text : Text}
    {front back : List (Token Span)}
    {token : Token Span}
    (scanned : scanFrom position text = .ok (front ++ token :: back)) :
    ∃ before behind,
      text = before ++ behind ∧
        token.place.start = position.after before ∧
          Lexeme.Reads text (front.map Token.lexeme) behind ∧
            scanFrom token.place.start behind = .ok (token :: back) := by
  induction front generalizing position text with
  | nil =>
      have starts := start_of_scanFrom scanned
      exact ⟨[], text, rfl, starts, .done text, by rw [starts]; exact scanned⟩
  | cons first others inductionHypothesis =>
      rcases cases_of_scanFrom scanned with
        ⟨-, -, nothing⟩ | ⟨c, rest, reading, rfl, begins, rfl, scannedRest⟩
      · exact absurd nothing (by simp)
      · obtain ⟨before, behind, shape, starts, reads, goesOn⟩ :=
          inductionHypothesis scannedRest
        have cut := Lexeme.slice_append_rest (Lexeme.read_of_begins begins)
        refine ⟨reading.slice ++ before, behind, ?_, ?_, .step begins reads, goesOn⟩
        · rw [← cut, shape, List.append_assoc]
        · rw [starts, Position.after_append]

end Token

end PageSheet
