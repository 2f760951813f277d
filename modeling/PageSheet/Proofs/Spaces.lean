import PageSheet.Proofs.Cutting
namespace PageSheet.Lexeme

/-!
# Blanks between lexemes

A run of blanks is one lexeme, or none if it is empty.  Between two runs of readings the
blanks in front of a mark, and those behind it, become part of the white space that stands
there already.  So blanks that are written there change that one lexeme only, or they are
a new one, and all others stay what they are.
-/

/-- What it means that two lexemes are of one kind of text and may differ in the text. -/
inductive Alike : Lexeme → Lexeme → Prop where
  | whitespace
      {text other : Text} :
      Alike (.whitespace text) (.whitespace other)
  | word
      {text other : Text} :
      Alike (.word text) (.word other)
  | atWord
      {name other : Text} :
      Alike (.atWord name) (.atWord other)

theorem Alike.separate_eq
    {next next' : Lexeme}
    (alike : Alike next next')
    (lexeme : Lexeme) :
    separate lexeme next' = separate lexeme next := by
  cases alike <;> cases lexeme <;> rfl

/-- A run of readings can be cut between any two of its lexemes. -/
theorem Reads.exists_between
    {text rest : Text}
    {front back : List Lexeme}
    (reads : Reads text (front ++ back) rest) :
    ∃ middle, Reads text front middle ∧ Reads middle back rest := by
  induction front generalizing text with
  | nil =>
      exact ⟨text, .done text, reads⟩
  | cons lexeme others inductionHypothesis =>
      cases reads with
      | step begins tail =>
          obtain ⟨middle, one, two⟩ := inductionHypothesis tail
          exact ⟨middle, .step begins one, two⟩

/-- The last lexeme of a run of readings ends before what is left. -/
theorem Reads.endsBefore_of_getLast?
    {text rest : Text}
    {lexemes : List Lexeme}
    (reads : Reads text lexemes rest)
    {last : Lexeme}
    (isLast : last ∈ lexemes.getLast?) :
    last.EndsBefore rest := by
  induction reads with
  | done =>
      cases isLast
  | @step c others rest reading lexemes begins tail inductionHypothesis =>
      cases lexemes with
      | nil =>
          cases isLast
          rw [← tail.eq_of_nil]
          exact begins.stands.ends
      | cons next behind =>
          exact inductionHypothesis (by simpa using isLast)

/--
Instead of the last lexeme of a source others may stand behind the lexemes before it, if
the first of them is the same lexeme or one of its kind.
-/
theorem Reads.exists_last
    {text : Text}
    {front : List Lexeme}
    {last : Lexeme}
    (reads : Reads text (front ++ [last]) []) :
    ∃ before slice,
      text = before ++ slice ∧
        slice ≠ [] ∧
          Stands last slice [] ∧
            ∀ {behind rest next more},
              next = last ∨ Alike last next →
              Reads behind (next :: more) rest →
                Reads (before ++ behind) (front ++ next :: more) rest := by
  obtain ⟨middle, first, second⟩ := reads.exists_between
  cases second with
  | @step c others rest reading lexemes begins tail =>
      have cut := slice_append_rest (read_of_begins begins)
      have inhabited := slice_ne_nil (read_of_begins begins)
      have stands := begins.stands
      have endsHere := fun lexeme => begins.endsBefore_iff lexeme
      rw [tail.eq_of_nil] at stands cut
      rw [List.append_nil] at cut
      obtain ⟨used, shape, paired⟩ := first.exists_paired (List.cons_ne_nil c others)
      obtain ⟨used', shape', exchange⟩ := first.exchange
      cases List.append_cancel_right (shape.symm.trans shape')
      refine ⟨used, reading.slice, by rw [cut, shape], inhabited, stands, ?_⟩
      intro behind rest next more sameKind more'
      have separates : ∀ lexeme, separate lexeme next = separate lexeme reading.lexeme := by
        intro lexeme
        rcases sameKind with rfl | alike
        · rfl
        · exact alike.separate_eq lexeme
      refine (exchange behind paired fun lexeme isLast => ?_).append more'
      rw [more'.endsBefore_iff, separates, ← endsHere]
      exact first.endsBefore_of_getLast? isLast

/-- The lexemes of a run of blanks. -/
def spaces : Text → List Lexeme
  | [] => []
  | c :: rest => [.whitespace (c :: rest)]

theorem spaces_of_ne_nil
    {blanks : Text}
    (inhabited : blanks ≠ []) :
    spaces blanks = [.whitespace blanks] := by
  obtain ⟨c, rest, rfl⟩ := List.exists_cons_of_ne_nil inhabited
  rfl

theorem spellings_spaces
    (blanks : Text) :
    spellings (spaces blanks) = blanks := by
  cases blanks with
  | nil =>
      rfl
  | cons c rest =>
      exact List.append_nil (c :: rest)

/-- Blanks in front of what is no blank are read as white space. -/
theorem reads_spaces
    {blanks rest : Text}
    (blank : ∀ c ∈ blanks, isBlank c = true)
    (solid : ∀ c ∈ rest.head?, isBlank c = false) :
    Reads (blanks ++ rest) (spaces blanks) rest := by
  cases blanks with
  | nil =>
      exact .done rest
  | cons c others =>
      have stands : Stands (.whitespace (c :: others)) (c :: others) rest :=
        ⟨by simp, ⟨List.cons_ne_nil c others, blank⟩, rfl, solid⟩
      exact stands.reads (List.cons_ne_nil c others) (.done rest)

/-- One blank in front of what is no blank is a lexeme of its own. -/
theorem reads_space
    {rest : Text}
    (solid : ∀ c ∈ rest.head?, isBlank c = false) :
    Reads (' ' :: rest) [.whitespace [' ']] rest := by
  have blank : ∀ c ∈ [' '], isBlank c = true := by
    simp [isBlank]
  exact reads_spaces blank solid

/-- A blank stops every lexeme that is no white space. -/
theorem isStoppedBy_of_isBlank
    {c : Char}
    (blank : isBlank c = true)
    {lexeme : Lexeme}
    (notSpace : ∀ text, lexeme ≠ .whitespace text) :
    lexeme.isStoppedBy c = true := by
  cases lexeme with
  | whitespace text =>
      exact absurd rfl (notSpace text)
  | word | atWord =>
      simp [isStoppedBy, isDelimiter, blank]
  | _ =>
      rfl

/-- A lexeme that is no white space ends before every run of blanks and every mark. -/
theorem endsBefore_blanks_mark
    {lexeme : Lexeme}
    (notSpace : ∀ text, lexeme ≠ .whitespace text)
    {blanks : Text}
    (blank : ∀ c ∈ blanks, isBlank c = true)
    {c : Char}
    {mark : Lexeme}
    (isMark : ofMark? c = some mark)
    (rest : Text) :
    lexeme.EndsBefore (blanks ++ c :: rest) := by
  cases blanks with
  | nil =>
      exact endsBefore_of_isStoppedBy (isStoppedBy_of_ofMark? isMark lexeme) rest
  | cons d others =>
      exact endsBefore_of_isStoppedBy
        (isStoppedBy_of_isBlank (blank d List.mem_cons_self) notSpace) (others ++ c :: rest)

/-- Blanks that are written in front of a mark go to the white space in front of it. -/
theorem Reads.exists_spaces_before
    {text : Text}
    {lexemes : List Lexeme}
    (reads : Reads text lexemes [])
    (paired : Text.endsUnpaired text = false) :
    ∃ front own,
      lexemes = front ++ spaces own ∧
        (∀ c ∈ own, isBlank c = true) ∧
          ∀ {blanks c mark} (rest : Text),
            (∀ c ∈ blanks, isBlank c = true) →
              ofMark? c = some mark →
                Reads (text ++ (blanks ++ c :: rest)) (front ++ spaces (own ++ blanks))
                  (c :: rest) := by
  have solid :
      ∀ {c mark} {rest : Text}, ofMark? c = some mark →
        ∀ d ∈ (c :: rest).head?, isBlank d = false :=
    fun isMark =>
      endsBefore_of_isStoppedBy (isStoppedBy_of_ofMark? isMark (.whitespace [])) _
  by_cases spaced : ∃ front own, lexemes = front ++ [.whitespace own]
  · obtain ⟨front, own, rfl⟩ := spaced
    obtain ⟨before, slice, rfl, inhabited, stands, goesOn⟩ := reads.exists_last
    obtain ⟨-, ⟨-, ownBlank⟩, written, -⟩ := stands
    cases written
    rw [spelling] at inhabited
    refine ⟨front, own, ?_, ownBlank, ?_⟩
    · rw [spaces_of_ne_nil inhabited]
    · intro blanks c mark rest blank isMark
      have longer : own ++ blanks ≠ [] :=
        List.append_ne_nil_of_left_ne_nil inhabited blanks
      have grown : Reads (own ++ blanks ++ c :: rest) (spaces (own ++ blanks)) (c :: rest) :=
        reads_spaces (List.forall_mem_append.mpr ⟨ownBlank, blank⟩) (solid isMark)
      rw [spaces_of_ne_nil longer, List.append_assoc] at grown
      rw [spaces_of_ne_nil longer, List.append_assoc]
      exact goesOn (.inr .whitespace) grown
  · refine ⟨lexemes, [], (List.append_nil lexemes).symm, List.forall_mem_nil _, ?_⟩
    intro blanks c mark rest blank isMark
    obtain ⟨used, shape, exchange⟩ := reads.exchange
    rw [List.append_nil] at shape
    subst shape
    have ends :
        ∀ last ∈ lexemes.getLast?, last.EndsBefore (blanks ++ c :: rest) := by
      intro last isLast
      refine endsBefore_blanks_mark ?_ blank isMark rest
      rintro own rfl
      obtain ⟨front, shape⟩ := List.getLast?_eq_some_iff.mp isLast
      exact spaced ⟨front, own, shape⟩
    exact (exchange _ paired ends).append (reads_spaces blank (solid isMark))

/-- Blanks that are written in front of a text go to the white space that it starts with. -/
theorem Reads.exists_spaces_behind
    {text : Text}
    {lexemes : List Lexeme}
    (reads : Reads text lexemes []) :
    ∃ own back,
      lexemes = spaces own ++ back ∧
        (∀ c ∈ own, isBlank c = true) ∧
          ∀ {blanks : Text},
            (∀ c ∈ blanks, isBlank c = true) →
              Reads (blanks ++ text) (spaces (blanks ++ own) ++ back) [] := by
  cases reads with
  | done =>
      refine ⟨[], [], rfl, List.forall_mem_nil _, fun {blanks} blank => ?_⟩
      have alone : Reads (blanks ++ []) (spaces blanks) [] :=
        reads_spaces blank (by simp)
      simpa using alone
  | @step c others _ reading lexemes begins tail =>
      have stands := begins.stands
      by_cases spaced : ∃ own, reading.lexeme = .whitespace own
      · obtain ⟨own, isSpace⟩ := spaced
        have cut := slice_append_rest (read_of_begins begins)
        rw [isSpace] at stands ⊢
        obtain ⟨-, ⟨inhabited, ownBlank⟩, written, solid⟩ := stands
        rw [← show own = reading.slice from written] at cut
        refine ⟨own, lexemes, ?_, ownBlank, fun {blanks} blank => ?_⟩
        · rw [spaces_of_ne_nil inhabited]
          rfl
        · have grown :=
            reads_spaces (List.forall_mem_append.mpr ⟨blank, ownBlank⟩) solid
          rw [List.append_assoc, cut] at grown
          exact grown.append tail
      · have separates : separate (.whitespace []) reading.lexeme = true := by
          cases isOther : reading.lexeme with
          | whitespace own =>
              exact absurd ⟨own, isOther⟩ spaced
          | _ =>
              rfl
        have solid : ∀ d ∈ (c :: others).head?, isBlank d = false :=
          (begins.endsBefore_iff (.whitespace [])).mpr separates
        refine ⟨[], reading.lexeme :: lexemes, rfl, List.forall_mem_nil _, ?_⟩
        intro blanks blank
        rw [List.append_nil]
        exact (reads_spaces blank solid).append (.step begins tail)

end PageSheet.Lexeme
