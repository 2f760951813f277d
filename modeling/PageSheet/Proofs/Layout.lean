import PageSheet.Proofs.Padding
namespace PageSheet

/-!
# Layout around structure does not matter

Braces and semicolons outside parentheses, and the colons at which declarations are
divided, make up the structure of a source.  Blanks may be written on both sides of each
of them: the white space that stands there changes, or some is put in, and no other
lexeme does.  Whatever the source comes to, a sheet or a fault, it still comes to.
-/

/-- A source with a text put in at an offset. -/
def Text.insertedAt
    (offset : Nat)
    (text source : Text) :
    Text :=
  source.take offset ++ (text ++ source.drop offset)

namespace Lexeme

/--
Whether a colon between some lexemes divides a declaration: what is being read in front of
it is a property so far, and its statement ends without a block.
-/
def dividesDeclaration (front back : List Lexeme) : Bool :=
  (Progress.initial.steps (front.map Token.bare)).toOption.any Progress.readsProperty &&
    Prelude.endsPlainly 0 back

/-- Whether a lexeme is a part of the structure of a source where it stands. -/
def isStructural
    (front : List Lexeme)
    (lexeme : Lexeme)
    (back : List Lexeme) :
    Bool :=
  match lexeme with
  | .leftBrace | .rightBrace | .semicolon => Prelude.depthBehind 0 front == 0
  | .colon => dividesDeclaration front back
  | _ => false

/-- The structure of a source is made up of marks. -/
theorem exists_mark_of_isStructural
    {front back : List Lexeme}
    {lexeme : Lexeme}
    (structural : isStructural front lexeme back = true) :
    ∃ c, ofMark? c = some lexeme ∧ lexeme.spelling = [c] ∧ lexeme.isComment = false := by
  cases lexeme with
  | leftBrace =>
      exact ⟨'\x7b', rfl, rfl, rfl⟩
  | rightBrace =>
      exact ⟨'\x7d', rfl, rfl, rfl⟩
  | semicolon =>
      exact ⟨';', rfl, rfl, rfl⟩
  | colon =>
      exact ⟨':', rfl, rfl, rfl⟩
  | _ =>
      cases structural

/-- The colon at which the grammar divides a declaration is a part of the structure. -/
theorem isStructural_of_divides
    {front others before behind rest : List Lexeme}
    {first : Lexeme}
    {progress : Progress Unit}
    (taken : Progress.initial.steps (front.map Token.bare) = .ok progress)
    (idle : progress.pending = none)
    (opens : first.opensStatement = true)
    (complete : Prelude.isPrelude (first :: others) = true)
    (divides : Prelude.Divides (first :: others) before behind)
    (ends : ∀ last ∈ rest.head?, last = .semicolon ∨ last = .rightBrace) :
    isStructural (front ++ before) .colon (behind ++ rest) = true := by
  obtain ⟨whole, outside, noColon⟩ := divides
  simp only [Prelude.isPrelude, whole, Prelude.shelters_append, Prelude.depthBehind_append,
    outside, Bool.and_eq_true, beq_iff_eq] at complete
  obtain ⟨⟨sheltered, shelteredBehind⟩, leaves⟩ := complete
  have plain : Prelude.endsPlainly 0 (behind ++ rest) = true :=
    Prelude.endsPlainly_iff.mpr ⟨behind, rest, rfl, shelteredBehind, leaves, ends⟩
  have reads :
      (Progress.initial.steps ((front ++ before).map Token.bare)).toOption.any
          Progress.readsProperty =
        true := by
    rw [List.map_append, Progress.steps_append, taken]
    show (progress.steps (before.map Token.bare)).toOption.any _ = true
    cases before with
    | nil =>
        show progress.readsProperty = true
        rw [Progress.readsProperty, idle]
        rfl
    | cons start more =>
        obtain ⟨rfl, -⟩ := List.cons.inj whole
        have steps := Progress.steps_introduces idle (.plain opens) sheltered []
        rw [List.append_nil] at steps
        have closed : (Pending.behind none (first :: more)).parens = [] := by
          simp [Pending.behind, outside]
        have written : (Pending.behind none (first :: more)).prelude = first :: more :=
          List.reverse_reverse _
        rw [steps]
        show (true && (Pending.behind none (first :: more)).parens.isEmpty &&
          Prelude.shelters Prelude.isColon 0 (Pending.behind none (first :: more)).prelude) =
            true
        rw [closed, written, noColon]
        rfl
  rw [isStructural, dividesDeclaration, reads, plain]
  rfl

/-- White space beside a lexeme and the end of the source do not decide its part. -/
theorem isStructural_spaces
    (front back : List Lexeme)
    (lexeme : Lexeme)
    (own others : Text) :
    isStructural (front ++ spaces own) lexeme (spaces others ++ back ++ [.endOfSource]) =
      isStructural front lexeme back := by
  have sameDepth :
      Prelude.depthBehind 0 (front ++ spaces own) = Prelude.depthBehind 0 front := by
    rw [Prelude.depthBehind_append, Prelude.depthBehind_spaces]
  have sameEnd :
      Prelude.endsPlainly 0 (spaces others ++ back ++ [.endOfSource]) =
        Prelude.endsPlainly 0 back := by
    rw [Prelude.endsPlainly_endOfSource, Prelude.endsPlainly_spaces]
  cases lexeme with
  | leftBrace | rightBrace | semicolon =>
      simp only [isStructural, sameDepth]
  | colon =>
      have sameStart :
          (Progress.initial.steps ((front ++ spaces own).map Token.bare)).toOption.any
              Progress.readsProperty =
            (Progress.initial.steps (front.map Token.bare)).toOption.any
              Progress.readsProperty := by
        rw [List.map_append, Progress.steps_append]
        cases Progress.initial.steps (front.map Token.bare) with
        | error failure =>
            rfl
        | ok progress =>
            show (progress.steps ((spaces own).map Token.bare)).toOption.any _ = _
            rw [Progress.steps_spaces]
            exact progress.readsProperty_padded own
      simp only [isStructural, dividesDeclaration, sameStart, sameEnd]
  | _ =>
      rfl

end Lexeme

/-- As many parentheses are open as the depth of the lexemes says. -/
theorem Brackets.length_parens
    (brackets : Brackets Place)
    (tokens : List (Token Place)) :
    (tokens.foldl after brackets).parens.length =
      Prelude.depthBehind brackets.parens.length (tokens.map Token.lexeme) := by
  induction tokens generalizing brackets with
  | nil =>
      rfl
  | cons token rest inductionHypothesis =>
      have first :
          (brackets.after token).parens.length =
            Prelude.depthAfter brackets.parens.length token.lexeme := by
        obtain ⟨lexeme, place⟩ := token
        obtain ⟨parens, braces⟩ := brackets
        cases lexeme <;> cases parens <;> rfl
      rw [List.foldl_cons, inductionHypothesis, first]
      rfl

/-- Where no parentheses are open the statement that is being read has none open. -/
theorem Progress.closed_of_depthBehind
    {front : List Lexeme}
    {progress : Progress Unit}
    (taken : initial.steps (front.map Token.bare) = .ok progress)
    (outside : Prelude.depthBehind 0 front = 0) :
    ∀ pending ∈ progress.pending, pending.parens = [] := by
  have counted := Brackets.length_parens initial.brackets (front.map Token.bare)
  have sameLexemes : (front.map Token.bare).map Token.lexeme = front := by
    rw [List.map_map]
    exact List.map_id front
  rw [← brackets_steps taken, sameLexemes] at counted
  have closed : progress.brackets.parens = [] :=
    List.length_eq_zero_iff.mp (counted.trans outside)
  intro pending isPending
  rw [brackets, isPending] at closed
  exact closed

namespace Item

/-- What lexemes come to is decided by what the parser knows behind the first of them. -/
theorem ofLexemes_append
    (front back : List Lexeme) :
    ofLexemes (front ++ back) =
      (Progress.initial.steps (front.map Token.bare)).bind fun progress =>
        (progress.steps (back.map Token.bare)).bind Progress.finish := by
  rw [ofLexemes, List.map_append, Progress.steps_append]
  cases Progress.initial.steps (front.map Token.bare) <;> rfl

/-- Blanks around a part of the structure do not decide what the lexemes come to. -/
theorem ofLexemes_spaces
    {front back : List Lexeme}
    {lexeme : Lexeme}
    (structural : Lexeme.isStructural front lexeme back = true)
    {blanks others : Text}
    (blank : ∀ c ∈ blanks, Lexeme.isBlank c = true)
    (blank' : ∀ c ∈ others, Lexeme.isBlank c = true) :
    ofLexemes
        (front ++ (Lexeme.spaces blanks ++ lexeme :: (Lexeme.spaces others ++ back))) =
      ofLexemes (front ++ lexeme :: back) := by
  rw [ofLexemes_append, ofLexemes_append]
  cases taken : Progress.initial.steps (front.map Token.bare) with
  | error failure =>
      rfl
  | ok progress =>
      have terminator :
          Prelude.isTerminator lexeme = true → Prelude.depthBehind 0 front = 0 →
            progress.steps
                ((Lexeme.spaces blanks ++ lexeme :: (Lexeme.spaces others ++ back)).map
                  Token.bare) =
              progress.steps ((lexeme :: back).map Token.bare) :=
        fun terminates outside =>
          Progress.steps_terminator (Progress.closed_of_depthBehind taken outside) terminates
            blank others back
      cases lexeme with
      | leftBrace | rightBrace | semicolon =>
          have outside : Prelude.depthBehind 0 front = 0 :=
            beq_iff_eq.mp structural
          exact congrArg (Except.bind · Progress.finish) (terminator rfl outside)
      | colon =>
          rw [Lexeme.isStructural, Lexeme.dividesDeclaration, taken, Bool.and_eq_true]
            at structural
          have counted : progress.IsCounted :=
            Progress.isCounted_steps (Progress.isCounted_of_idle rfl) taken
          exact Progress.finish_colon counted structural.1 structural.2 blank blank'
      | _ =>
          cases structural

/-- What it means that two sources are the same sheet, or none for the same reason. -/
structure SameSheet (source other : Text) : Prop where
  parses :
    (∃ items, ofSource other = .ok items) ↔ ∃ items, ofSource source = .ok items
  trees :
    ∀ {items others}, ofSource source = .ok items → ofSource other = .ok others →
      bare others = bare items
  pages :
    ∀ {items others}, ofSource source = .ok items → ofSource other = .ok others →
      Page.ofItems others = Page.ofItems items ∧
        (Page.ofItems others).html = (Page.ofItems items).html
  messages :
    ∀ {failure failure'},
      ofSource source = .error failure → ofSource other = .error failure' →
        failure'.fault.message = failure.fault.message

/-- Sources with the same outcome are the same sheet. -/
theorem sameSheet_of_outcome
    {source other : Text}
    (same : outcome other = outcome source) :
    SameSheet source other := by
  have trees :
      ∀ {items others}, ofSource source = .ok items → ofSource other = .ok others →
        bare others = bare items := by
    intro items others parsed parsedOther
    rw [outcome_of_ok parsed, outcome_of_ok parsedOther] at same
    exact Except.ok.inj same
  have sameCarried := congrArg (relocated id id) same
  refine ⟨exists_ofSource_iff_of_outcome sameCarried, trees, ?_,
    message_eq_of_outcome sameCarried⟩
  intro items others parsed parsedOther
  have alike := Page.ofItems_eq_of_bare (trees parsed parsedOther)
  exact ⟨alike, congrArg Page.html alike⟩

/--
Around a part of its structure a source is a mark between two texts, and with any blanks
on both sides of the mark it has one and the same outcome.
-/
theorem exists_frame
    {source : Text}
    {front back : List (Token Span)}
    {token : Token Span}
    (scanned : Token.scan source = .ok (front ++ token :: back))
    (structural :
      Lexeme.isStructural (front.map Token.lexeme) token.lexeme (back.map Token.lexeme) =
        true) :
    ∃ before c behind comes,
      source = before ++ c :: behind ∧
        token.place.start.offset = before.length ∧
          token.place.stop = before.length + 1 ∧
            ∀ {blanks others : Text},
              (∀ c ∈ blanks, Lexeme.isBlank c = true) →
                (∀ c ∈ others, Lexeme.isBlank c = true) →
                  outcome (before ++ (blanks ++ c :: (others ++ behind))) = comes := by
  obtain ⟨c, isMark, spelled, uncommented⟩ := Lexeme.exists_mark_of_isStructural structural
  obtain ⟨before, text, rfl, starts, reads, goesOn⟩ := Token.exists_cut scanned
  rcases Token.cases_of_scanFrom goesOn with
    ⟨-, isEnd, -⟩ | ⟨d, rest, reading, rfl, begins, isToken, scannedBehind⟩
  · rw [isEnd] at structural
    cases structural
  have sameLexeme : token.lexeme = reading.lexeme :=
    congrArg Token.lexeme isToken
  have sameStop : token.place.stop = (token.place.start.after reading.slice).offset :=
    congrArg (fun token => token.place.stop) isToken
  have isSlice : reading.slice = [c] := by
    rw [sameLexeme] at uncommented spelled
    rw [← Lexeme.spelling_of_writtenAs begins.writtenAs.1 uncommented, spelled]
  have cut := Lexeme.slice_append_rest (Lexeme.read_of_begins begins)
  rw [isSlice] at cut
  obtain ⟨rfl, rfl⟩ := List.cons.inj cut
  obtain ⟨lexemes, shape, readsBehind⟩ := Lexeme.reads_of_scanFrom scannedBehind
  obtain ⟨paired, readsBefore⟩ := reads.alone (List.cons_ne_nil c reading.rest)
  obtain ⟨first, own, sameFront, ownBlank, growsBefore⟩ :=
    readsBefore.exists_spaces_before paired
  obtain ⟨own', last, rfl, ownBlank', growsBehind⟩ := readsBehind.exists_spaces_behind
  rw [sameFront, shape, Lexeme.isStructural_spaces] at structural
  refine ⟨before, c, reading.rest, ofLexemes (first ++ token.lexeme :: last), rfl, ?_, ?_, ?_⟩
  · rw [starts, Position.offset_after]
    exact Nat.zero_add before.length
  · rw [sameStop, isSlice, starts, Position.offset_after, Position.offset_after]
    exact congrArg (· + 1) (Nat.zero_add before.length)
  · intro blanks others blank blank'
    have readsAll :=
      (growsBefore (others ++ reading.rest) blank isMark).append
        ((Lexeme.Reads.mark isMark (others ++ reading.rest)).append (growsBehind blank'))
    rw [List.append_assoc] at readsAll
    rw [outcome_of_reads readsAll]
    exact ofLexemes_spaces structural (List.forall_mem_append.mpr ⟨ownBlank, blank⟩)
      (List.forall_mem_append.mpr ⟨blank', ownBlank'⟩)

/-- Blanks on either side of a part of its structure leave a source the same sheet. -/
theorem sameSheet_insertedAt
    {source : Text}
    {front back : List (Token Span)}
    {token : Token Span}
    (scanned : Token.scan source = .ok (front ++ token :: back))
    (structural :
      Lexeme.isStructural (front.map Token.lexeme) token.lexeme (back.map Token.lexeme) =
        true)
    {blanks : Text}
    (blank : ∀ c ∈ blanks, Lexeme.isBlank c = true) :
    SameSheet source (Text.insertedAt token.place.start.offset blanks source) ∧
      SameSheet source (Text.insertedAt token.place.stop blanks source) := by
  obtain ⟨before, c, behind, comes, rfl, starts, stops, frame⟩ :=
    exists_frame scanned structural
  have none : ∀ c ∈ ([] : Text), Lexeme.isBlank c = true :=
    List.forall_mem_nil _
  have unchanged : outcome (before ++ c :: behind) = comes :=
    frame none none
  have cut : before ++ c :: behind = before ++ [c] ++ behind :=
    List.append_cons before c behind
  have upTo : before.length + 1 = (before ++ [c]).length := by
    rw [List.length_append, List.length_singleton]
  refine ⟨sameSheet_of_outcome ?_, sameSheet_of_outcome ?_⟩
  · rw [Text.insertedAt, starts, List.take_left, List.drop_left, unchanged]
    exact frame blank none
  · rw [Text.insertedAt, stops, unchanged, cut, upTo, List.take_left, List.drop_left,
      List.append_assoc]
    exact frame none blank

/-- The tokens in front of the colon of a declaration whose property has a colon, too. -/
def colonFront : List (Token Span) :=
  [ ⟨.word ['p'], ⟨⟨0, 1, 1⟩, 1⟩⟩, ⟨.leftBrace, ⟨⟨1, 1, 2⟩, 2⟩⟩,
    ⟨.word ['a'], ⟨⟨2, 1, 3⟩, 3⟩⟩, ⟨.leftParen, ⟨⟨3, 1, 4⟩, 4⟩⟩, ⟨.colon, ⟨⟨4, 1, 5⟩, 5⟩⟩,
    ⟨.rightParen, ⟨⟨5, 1, 6⟩, 6⟩⟩, ⟨.comment [], ⟨⟨6, 1, 7⟩, 10⟩⟩ ]

/-- The tokens behind the colon, white space first. -/
def colonBack : List (Token Span) :=
  [ ⟨.whitespace ['\t'], ⟨⟨11, 1, 12⟩, 12⟩⟩, ⟨.word ['b'], ⟨⟨12, 1, 13⟩, 13⟩⟩,
    ⟨.rightBrace, ⟨⟨13, 1, 14⟩, 14⟩⟩, ⟨.endOfSource, ⟨⟨14, 1, 15⟩, 14⟩⟩ ]

/-- Blanks between a comment and the colon behind it, and in front of the tab behind both. -/
theorem sameSheet_insertedAt_colon :
    Token.scan "p\x7ba(:)/**/:\tb\x7d".toList =
        .ok (colonFront ++ ⟨.colon, ⟨⟨10, 1, 11⟩, 11⟩⟩ :: colonBack) ∧
      Lexeme.isStructural (colonFront.map Token.lexeme) .colon
          (colonBack.map Token.lexeme) =
        true ∧
        (∀ c ∈ ['\r', ' '], Lexeme.isBlank c = true) ∧
          SameSheet "p\x7ba(:)/**/:\tb\x7d".toList
              "p\x7ba(:)/**/\r :\tb\x7d".toList ∧
            SameSheet "p\x7ba(:)/**/:\tb\x7d".toList
              "p\x7ba(:)/**/:\r \tb\x7d".toList := by
  have scanned :
      Token.scan "p\x7ba(:)/**/:\tb\x7d".toList =
        .ok (colonFront ++ ⟨.colon, ⟨⟨10, 1, 11⟩, 11⟩⟩ :: colonBack) := by
    decide +kernel
  have structural :
      Lexeme.isStructural (colonFront.map Token.lexeme) .colon
          (colonBack.map Token.lexeme) =
        true := by
    decide +kernel
  have blank : ∀ c ∈ ['\r', ' '], Lexeme.isBlank c = true := by
    simp [Lexeme.isBlank]
  exact ⟨scanned, structural, blank, sameSheet_insertedAt scanned structural blank⟩

/-- A colon belongs to the structure of a declaration and to the selector of a rule. -/
example :
    Lexeme.isStructural [.word ['a']] .colon [.word ['b'], .rightBrace] = true ∧
      Lexeme.isStructural [.word ['a']] .colon [.word ['b'], .leftBrace] = false := by
  decide +kernel

end Item

end PageSheet
