import PageSheet.Proofs.Shape
namespace PageSheet.Lexeme

/-!
# Canonical lists of lexemes

A list of lexemes is canonical when each of them has the shape of its kind, no two
neighbours would be read as one, and the end of the source is the last of them and
no other one.  Without comments, the canonical lists are exactly the lists that
scanning gives, and the spelling of a canonical list is scanned as that list.
-/

/-- The lists of lexemes that a source without comments can have. -/
inductive Canonical : List Lexeme → Prop where
  | ended :
      Canonical [.endOfSource]
  | cons
      {lexeme : Lexeme}
      {rest : List Lexeme} :
      lexeme ≠ .endOfSource →
      lexeme.HasShape (rest = [.endOfSource]) →
      (∀ next ∈ rest.head?, separate lexeme next = true) →
      Canonical rest →
      Canonical (lexeme :: rest)

/-- A shaped lexeme that is no comment is spelled by at least one character. -/
theorem HasShape.spelling_ne_nil
    {lexeme : Lexeme}
    {isLast : Prop}
    (shaped : lexeme.HasShape isLast)
    (shown : lexeme ≠ .endOfSource)
    (uncommented : lexeme.isComment = false) :
    lexeme.spelling ≠ [] := by
  cases lexeme with
  | whitespace | word =>
      exact shaped.1
  | comment =>
      cases uncommented
  | string text =>
      obtain ⟨quote, pieces, -, -, rfl⟩ := shaped
      exact List.cons_ne_nil _ _
  | endOfSource =>
      exact absurd rfl shown
  | _ =>
      exact List.cons_ne_nil _ _

/-- A lexeme that is no comment is written as its spelling. -/
theorem writtenAs_spelling
    {lexeme : Lexeme}
    (uncommented : lexeme.isComment = false) :
    lexeme.WrittenAs lexeme.spelling := by
  cases lexeme with
  | comment =>
      cases uncommented
  | _ =>
      rfl

/-- The lexemes of a source are a canonical list. -/
theorem Reads.canonical
    {text : Text}
    {lexemes : List Lexeme}
    (reads : Reads text lexemes []) :
    Canonical (lexemes ++ [.endOfSource]) := by
  generalize nothing : ([] : Text) = rest at reads
  induction reads with
  | done =>
      exact .ended
  | @step c others rest reading lexemes begins tail inductionHypothesis =>
      subst nothing
      obtain ⟨shown, shaped, -, ends⟩ := begins.stands
      have isLast : reading.rest = [] → lexemes ++ [.endOfSource] = [.endOfSource] := by
        intro used
        rw [used] at tail
        rw [tail.nil_eq, List.nil_append]
      refine .cons shown (shaped.mono isLast) ?_ (inductionHypothesis rfl)
      intro next isNext
      cases lexemes with
      | nil =>
          cases isNext
          cases reading.lexeme <;> rfl
      | cons following behind =>
          cases isNext
          exact (tail.endsBefore_iff reading.lexeme).mp ends

/-- The spelling of a canonical list without comments is read as that list. -/
theorem Canonical.exists_reads
    {lexemes : List Lexeme}
    (canonical : Canonical lexemes)
    (uncommented : lexemes.any isComment = false) :
    ∃ inner,
      lexemes = inner ++ [.endOfSource] ∧ Reads (spellings lexemes) inner [] := by
  induction canonical with
  | ended =>
      exact ⟨[], rfl, .done []⟩
  | @cons lexeme rest shown shaped separates _ inductionHypothesis =>
      rw [List.any_cons, Bool.or_eq_false_iff] at uncommented
      obtain ⟨inner, rfl, reads⟩ := inductionHypothesis uncommented.2
      have inhabited := shaped.spelling_ne_nil shown uncommented.1
      have isLast :
          inner ++ [.endOfSource] = [.endOfSource] →
            spellings (inner ++ [.endOfSource]) = [] := by
        intro last
        rw [last]
        rfl
      have ends : lexeme.EndsBefore (spellings (inner ++ [.endOfSource])) := by
        cases inner with
        | nil =>
            exact endsBefore_nil lexeme
        | cons next behind =>
            exact (reads.endsBefore_iff lexeme).mpr (separates next rfl)
      have stands :
          Stands lexeme lexeme.spelling (spellings (inner ++ [.endOfSource])) :=
        ⟨shown, shaped.mono isLast, writtenAs_spelling uncommented.1, ends⟩
      rw [spellings_cons]
      exact ⟨lexeme :: inner, rfl, stands.reads inhabited reads⟩

/--
A list of lexemes without comments is that of a source exactly when it is canonical,
and then it is that of its own spelling.
-/
theorem canonical_iff_scanned
    {lexemes : List Lexeme}
    (uncommented : lexemes.any isComment = false) :
    ((∃ source tokens,
        Token.scan source = .ok tokens ∧ tokens.map Token.lexeme = lexemes) ↔
      Canonical lexemes) ∧
      (Canonical lexemes →
        ∃ tokens,
          Token.scan (spellings lexemes) = .ok tokens ∧
            tokens.map Token.lexeme = lexemes) := by
  have scanned :
      Canonical lexemes →
        ∃ tokens,
          Token.scan (spellings lexemes) = .ok tokens ∧
            tokens.map Token.lexeme = lexemes := by
    intro canonical
    obtain ⟨inner, rfl, reads⟩ := canonical.exists_reads uncommented
    exact reads.exists_scanFrom Position.start
  refine ⟨⟨?_, fun canonical => ⟨spellings lexemes, scanned canonical⟩⟩, scanned⟩
  rintro ⟨source, tokens, accepted, rfl⟩
  obtain ⟨inner, shape, reads⟩ := reads_of_scanFrom accepted
  rw [shape]
  exact reads.canonical

/-- Lexemes that stand side by side without fusing, up to a last unpaired backslash. -/
def sideBySide : List Lexeme :=
  [ .word "\\;/\\*".toList, .whitespace [' ', '\t'], .atWord [], .string "'\\''".toList,
    .word ['/'], .rightParen, .atWord ['a', '\\'], .endOfSource ]

/-- Escapes, an empty name and a backslash at the end are canonical. -/
theorem canonical_iff_scanned_sideBySide :
    sideBySide.any isComment = false ∧
      Canonical sideBySide ∧
        ∃ tokens,
          Token.scan (spellings sideBySide) = .ok tokens ∧
            tokens.map Token.lexeme = sideBySide := by
  have uncommented : sideBySide.any isComment = false := by
    decide
  have found : ofText? "\\;/\\* \t@'\\''/)@a\\".toList = some sideBySide.dropLast := by
    decide +kernel
  have canonical : Canonical sideBySide :=
    (ofText?_eq_some_iff.mp found).canonical
  exact ⟨uncommented, canonical, (canonical_iff_scanned uncommented).2 canonical⟩

end PageSheet.Lexeme
