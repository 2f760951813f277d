import PageSheet.Proofs.Brackets
import PageSheet.Proofs.Spaces
namespace PageSheet

/-!
# Faults of brackets tell the truth

A source with one right brace too many is a sheet up to that brace.  A source that ends
inside blocks becomes a sheet with as many right braces as blocks are open.  The braces
are written behind a blank: if a backslash is left over at the end of the source, the
blank is what it takes, so that the braces stay free.

A blank behind a source either becomes a lexeme of its own or goes to the last lexeme,
which keeps its kind; neither decides what the parser can end or close.
-/

namespace Lexeme

/-- How lexemes may change when a blank is written behind them. -/
inductive Spaced : List Lexeme → List Lexeme → Prop where
  | apart
      {lexemes : List Lexeme} :
      Spaced lexemes (lexemes ++ [.whitespace [' ']])
  | fused
      {front : List Lexeme}
      {last last' : Lexeme} :
      Alike last last' →
      Spaced (front ++ [last]) (front ++ [last'])

/-- Whether a lexeme opens, closes and divides nothing wherever it stands. -/
def isNeutral : Lexeme → Bool
  | .whitespace _ => true
  | .word _ => true
  | .atWord _ => true
  | _ => false

theorem Alike.isNeutral
    {lexeme lexeme' : Lexeme}
    (alike : Alike lexeme lexeme') :
    lexeme.isNeutral = true ∧ lexeme'.isNeutral = true := by
  cases alike <;> exact ⟨rfl, rfl⟩

/-- A backslash at the end of a word takes a blank with it and goes on as the word. -/
theorem isWordText_concat
    {pieces : List Piece}
    (makes : Piece.MakeWord pieces)
    (isLast : Prop) :
    IsWordText isLast (Piece.texts pieces ++ ['\\', ' ']) := by
  have fit :
      ∀ piece ∈ pieces ++ [.escaped ' '],
        piece.fits (fun c => !isDelimiter c) = true := by
    intro piece member
    rcases List.mem_append.mp member with inside | isEscape
    · exact makes.fit piece inside
    · rw [List.mem_singleton.mp isEscape]
      rfl
  have apart :
      (pieces ++ [Piece.escaped ' ']).IsChain fun first second =>
        ¬ (first = .plain '/' ∧ second = .plain '*') := by
    refine List.isChain_append.mpr ⟨makes.apart, .singleton _, ?_⟩
    rintro first - second isEscape ⟨-, rfl⟩
    cases isEscape
  refine ⟨pieces ++ [.escaped ' '], ⟨fit, apart⟩, .inl ?_⟩
  simp [Piece.texts, Piece.text]

/-- Behind the last lexeme of a source a blank is apart from it or fuses with it. -/
theorem Stands.spaced
    {last : Lexeme}
    {slice rest : Text}
    (stands : Stands last slice [])
    (inhabited : slice ≠ [])
    (solid : ∀ c ∈ rest.head?, isBlank c = false)
    (stops : StopsWords rest) :
    Reads (slice ++ ' ' :: rest) [last, .whitespace [' ']] rest ∨
      ∃ last', Alike last last' ∧ Reads (slice ++ ' ' :: rest) [last'] rest := by
  obtain ⟨shown, shaped, written, -⟩ := stands
  have apart :
      Text.endsUnpaired slice = false → last.EndsBefore (' ' :: rest) →
        Reads (slice ++ ' ' :: rest) [last, .whitespace [' ']] rest :=
    fun paired ends =>
      Stands.reads ⟨shown, shaped.of_paired written paired _, written, ends⟩ inhabited
        (reads_space solid)
  have fused :
      ∀ {last'}, Stands last' (slice ++ [' ']) rest →
        Reads (slice ++ ' ' :: rest) [last'] rest := by
    intro last' stands
    have reads := stands.reads (List.append_ne_nil_of_left_ne_nil inhabited _) (.done rest)
    rwa [List.append_assoc] at reads
  have stopsHere : StopsWords (' ' :: rest) :=
    stopsWords_of_isDelimiter (by decide) rest
  cases last with
  | whitespace text =>
      cases written
      have blanks : ∀ c ∈ text ++ [' '], isBlank c = true :=
        List.forall_mem_append.mpr ⟨shaped.2, by simp [isBlank]⟩
      exact .inr ⟨_, .whitespace, fused ⟨by simp, ⟨by simp, blanks⟩, rfl, solid⟩⟩
  | word text =>
      cases written
      obtain ⟨-, pieces, makes, rfl | ⟨-, rfl⟩⟩ := shaped
      · exact .inl (apart (Piece.endsUnpaired_texts makes.fit) stopsHere)
      · have grown := isWordText_concat makes (rest = [])
        refine .inr ⟨.word (Piece.texts pieces ++ ['\\', ' ']), .word, fused ?_⟩
        exact ⟨by simp, ⟨by simp, grown⟩, by simp [WrittenAs, spelling], stops⟩
  | atWord name =>
      cases written
      obtain ⟨pieces, makes, rfl | ⟨-, rfl⟩⟩ := shaped
      · have paired := Piece.endsUnpaired_texts makes.fit
        rw [← Text.endsUnpaired_cons (c := '@') (by decide)] at paired
        exact .inl (apart paired stopsHere)
      · have grown := isWordText_concat makes (rest = [])
        refine .inr ⟨.atWord (Piece.texts pieces ++ ['\\', ' ']), .atWord, fused ?_⟩
        exact ⟨by simp, grown, by simp [WrittenAs, spelling], stops⟩
  | _ =>
      refine .inl (apart (HasShape.endsUnpaired ?_ written not_false) trivial)
      exact shaped

/-- A blank and what is no blank may be written behind every source. -/
theorem Reads.exists_spaced
    {text rest : Text}
    {lexemes : List Lexeme}
    (reads : Reads text lexemes [])
    (solid : ∀ c ∈ rest.head?, isBlank c = false)
    (stops : StopsWords rest) :
    ∃ lexemes', Spaced lexemes lexemes' ∧ Reads (text ++ ' ' :: rest) lexemes' rest := by
  rcases List.eq_nil_or_concat lexemes with rfl | ⟨front, last, rfl⟩
  · cases reads.eq_of_nil
    exact ⟨_, .apart, reads_space solid⟩
  · rw [List.concat_eq_append] at reads ⊢
    obtain ⟨before, slice, rfl, inhabited, stands, goesOn⟩ := reads.exists_last
    rw [List.append_assoc]
    rcases stands.spaced inhabited solid stops with apart | ⟨last', alike, fused⟩
    · have spaced := goesOn (.inl rfl) apart
      exact ⟨_, .apart, by simpa using spaced⟩
    · exact ⟨_, .fused alike, goesOn (.inr alike) fused⟩

/-- Right braces at the end of a source are read one by one. -/
theorem reads_closers
    (count : Nat) :
    Reads (List.replicate count '\x7d') (List.replicate count .rightBrace) [] := by
  induction count with
  | zero =>
      exact .done []
  | succ count inductionHypothesis =>
      exact .step (.mark rfl) inductionHypothesis

/-- A source with a blank and right braces behind it has these braces as lexemes. -/
theorem Reads.exists_closed
    {text : Text}
    {lexemes : List Lexeme}
    (reads : Reads text lexemes [])
    (count : Nat) :
    ∃ lexemes',
      Spaced lexemes lexemes' ∧
        Reads (text ++ ' ' :: List.replicate count '\x7d')
          (lexemes' ++ List.replicate count .rightBrace) [] := by
  have solid : ∀ c ∈ (List.replicate count '\x7d').head?, isBlank c = false := by
    intro c isFirst
    rw [List.eq_of_mem_replicate (List.mem_of_mem_head? isFirst)]
    rfl
  have stops : StopsWords (List.replicate count '\x7d') := by
    cases count with
    | zero =>
        exact stopsWords_nil
    | succ count =>
        exact stopsWords_of_isDelimiter rfl _
  obtain ⟨lexemes', spaced, front⟩ := reads.exists_spaced solid stops
  exact ⟨lexemes', spaced, front.append (reads_closers count)⟩

end Lexeme

namespace Progress

section Spacing

variable {progress next : Progress Unit} {blocks : List (OpenBlock Unit)}

/-- A neutral lexeme in a statement does not decide what settles. -/
theorem settles_wait_extend_iff
    {lexeme : Lexeme}
    (neutral : lexeme.isNeutral = true)
    (pending : Pending Unit) :
    (progress.wait (pending.extend (.bare lexeme))).Settles blocks ↔
      (progress.wait pending).Settles blocks := by
  have notColon : lexeme ≠ .colon := by
    rintro rfl
    cases neutral
  have sameItem := @Pending.exists_item_extend_iff _ (.bare lexeme) notColon pending
  have sameParens : (pending.extend (.bare lexeme)).parens = pending.parens := by
    cases lexeme <;> first | rfl | cases neutral
  rw [settles_iff, settles_iff]
  simp only [wait, Option.mem_some_iff, forall_eq', sameParens, sameItem]

/-- Where lexemes of one kind are taken, the same blocks are left to be closed. -/
theorem exists_step_of_alike
    {lexeme lexeme' : Lexeme}
    (alike : lexeme.Alike lexeme')
    (taken : progress.step (.bare lexeme) = .ok next)
    (settles : next.Settles blocks) :
    ∃ next', progress.step (.bare lexeme') = .ok next' ∧ next'.Settles blocks := by
  have exchanges :
      ∀ {pending : Pending Unit},
        (progress.wait (pending.extend (.bare lexeme))).Settles blocks →
          (progress.wait (pending.extend (.bare lexeme'))).Settles blocks :=
    fun settles =>
      (settles_wait_extend_iff alike.isNeutral.2 _).mpr
        ((settles_wait_extend_iff alike.isNeutral.1 _).mp settles)
  obtain ⟨opened, items, pending⟩ := progress
  cases pending with
  | some pending =>
      cases alike <;>
        (cases taken
         exact ⟨_, rfl, exchanges settles⟩)
  | none =>
      cases alike with
      | whitespace =>
          exact ⟨next, taken, settles⟩
      | word =>
          cases taken
          exact ⟨_, rfl, exchanges settles⟩
      | atWord =>
          cases taken
          refine ⟨_, rfl, settles_iff.mpr ⟨(settles_iff.mp settles).1, ?_⟩⟩
          rintro pending ⟨⟩
          exact ⟨rfl, _, rfl⟩

/-- White space leaves the same blocks to be closed. -/
theorem exists_step_whitespace
    (settles : progress.Settles blocks)
    (text : Text) :
    ∃ next, progress.step (.bare (.whitespace text)) = .ok next ∧ next.Settles blocks := by
  obtain ⟨opened, items, pending⟩ := progress
  cases pending with
  | none =>
      exact ⟨_, rfl, settles⟩
  | some pending =>
      have extended := @settles_wait_extend_iff ⟨opened, items, none⟩ blocks
        (.whitespace text) rfl pending
      exact ⟨_, rfl, extended.mpr settles⟩

/-- A blank behind some lexemes leaves the same blocks to be closed. -/
theorem exists_steps_of_spaced
    {lexemes lexemes' : List Lexeme}
    (spaced : Lexeme.Spaced lexemes lexemes')
    (taken : progress.steps (lexemes.map Token.bare) = .ok next)
    (settles : next.Settles blocks) :
    ∃ next',
      progress.steps (lexemes'.map Token.bare) = .ok next' ∧ next'.Settles blocks := by
  have single :
      ∀ (progress : Progress Unit) (lexeme : Lexeme),
        progress.steps ([lexeme].map Token.bare) = progress.step (.bare lexeme) := by
    intro progress lexeme
    rw [List.map_singleton, steps_cons]
    cases progress.step (.bare lexeme) <;> rfl
  cases spaced with
  | apart =>
      obtain ⟨next', step, settles'⟩ := exists_step_whitespace settles [' ']
      refine ⟨next', ?_, settles'⟩
      rw [List.map_append, steps_append, taken, ← step]
      exact single next _
  | fused alike =>
      rw [List.map_append, steps_append] at taken
      obtain ⟨between, front, last⟩ := exists_of_bind_eq_ok taken
      rw [single] at last
      obtain ⟨next', step, settles'⟩ := exists_step_of_alike alike last settles
      refine ⟨next', ?_, settles'⟩
      rw [List.map_append, steps_append, front, ← step]
      exact single between _

end Spacing

end Progress

namespace Item

/--
Tokens with a fault of brackets have a right brace too many where they could have ended,
or they can all be taken and the fault is that they end.
-/
theorem cases_of_ofTokens
    {tokens : List (Token Place)}
    {failure : Failure Fault Place}
    (refused : ofTokens tokens = .error failure)
    (ofBrackets : failure.fault.isOfBrackets = true) :
    (∃ front token back,
        tokens = front ++ token :: back ∧
          token.lexeme = .rightBrace ∧
            failure = ⟨.unexpectedRightBrace, token.place⟩ ∧
              (Brackets.behind front).parens = [] ∧
                ∃ items, ofTokens front = .ok items) ∨
      ∃ progress,
        Progress.initial.steps tokens = .ok progress ∧
          progress.finish = .error failure ∧ progress.brackets = Brackets.behind tokens := by
  rcases cases_of_bind_eq_error refused with unread | ⟨progress, steps, unfinished⟩
  · obtain ⟨front, token, back, reached, rfl, steps, unread⟩ :=
      Progress.exists_step_of_steps unread
    obtain ⟨isBrace, isUnexpected, closed, items, finished⟩ :=
      Progress.unexpected_of_step unread ofBrackets
    rw [Progress.brackets_steps steps] at closed
    refine .inl ⟨front, token, back, rfl, isBrace, isUnexpected, closed, items, ?_⟩
    unfold ofTokens
    rw [steps]
    exact finished
  · exact .inr ⟨progress, steps, unfinished, Progress.brackets_steps steps⟩

/-- A source with a fault of brackets has tokens, and they have that fault. -/
theorem exists_tokens_of_refused
    {source : Text}
    {failure : Failure Fault Position}
    (refused : ofSource source = .error failure)
    (ofBrackets : failure.fault.isOfBrackets = true) :
    ∃ tokens place,
      Token.scan source = .ok tokens ∧
        ofTokens tokens = .error ⟨failure.fault, place⟩ ∧ failure.place = place.start := by
  rcases cases_of_ofSource refused with
    ⟨refusal, -, rfl⟩ | ⟨tokens, unplaced, scanned, fails, rfl⟩
  · cases ofBrackets
  · exact ⟨tokens, unplaced.place, scanned, fails, rfl⟩

/-- What lexemes come to is what tokens with these lexemes come to, places aside. -/
theorem ofLexemes_lexemes
    (tokens : List (Token Place)) :
    ofLexemes (tokens.map Token.lexeme) =
      relocated (fun _ => ()) bare (ofTokens tokens) := by
  have told := ofTokens_relocate (fun _ => ()) tokens
  rw [ofLexemes, List.map_map]
  exact told

/-- A source with a blank and a number of right braces behind it. -/
def closedBy
    (source : Text)
    (count : Nat) :
    Text :=
  source ++ ' ' :: List.replicate count '\x7d'

/-- What right braces behind a source come to is decided by the open blocks. -/
theorem outcome_closedBy
    {source : Text}
    {lexemes : List Lexeme}
    {progress : Progress Unit}
    (reads : Lexeme.Reads source lexemes [])
    (taken : Progress.initial.steps (lexemes.map Token.bare) = .ok progress)
    (settles : progress.Settles progress.blocks)
    (count : Nat) :
    (count < progress.blocks.length →
        outcome (closedBy source count) = .error ⟨.unclosedBlock, ()⟩) ∧
      (count = progress.blocks.length →
          ∃ items, outcome (closedBy source count) = .ok items) ∧
        (progress.blocks.length < count →
          outcome (closedBy source count) = .error ⟨.unexpectedRightBrace, ()⟩) := by
  obtain ⟨lexemes', spaced, readsClosed⟩ := reads.exists_closed count
  obtain ⟨spacedProgress, takenSpaced, settlesSpaced⟩ :=
    Progress.exists_steps_of_spaced spaced taken settles
  have comes :
      outcome (closedBy source count) =
        (spacedProgress.steps (List.replicate count (Token.bare .rightBrace))).bind
          Progress.finish := by
    rw [closedBy, outcome_of_reads readsClosed, ofLexemes, List.map_append,
      Progress.steps_append, takenSpaced, List.map_replicate]
    rfl
  rw [comes]
  exact Progress.finish_closers settlesSpaced count

/-- What it means that a source is no sheet, and what is said about its fault. -/
def FailsWith
    (source message : Text) : Prop :=
  ∃ failure, ofSource source = .error failure ∧ failure.fault.message = message

theorem failsWith_of_outcome
    {source : Text}
    {fault : Fault}
    (comes : outcome source = .error ⟨fault, ()⟩) :
    FailsWith source fault.message := by
  obtain ⟨failure, refused, sameFault⟩ := exists_of_outcome_eq_error comes
  exact ⟨failure, refused, congrArg Fault.message sameFault⟩

/-- What it means that the faults of brackets in a source tell the truth. -/
structure TellsBrackets (source : Text) : Prop where
  /-- The right brace that is one too many stands behind a sheet. -/
  unexpected :
    ∀ {failure},
      ofSource source = .error failure →
        failure.fault.message = "Unexpected \x7d".toList →
          ∃ front token back,
            Token.scan source = .ok (front ++ token :: back) ∧
              token.lexeme = .rightBrace ∧
                (Brackets.behind front).parens = [] ∧
                  failure.place = token.place.start ∧
                    ∃ items, ofSource (source.take failure.place.offset) = .ok items
  /-- The innermost open block is told, and right braces close as many as are open. -/
  unclosedBlock :
    ∀ {failure},
      ofSource source = .error failure →
        failure.fault.message = "Unclosed block".toList →
          ∃ tokens,
            Token.scan source = .ok tokens ∧
              (Brackets.behind tokens).braces.head?.map Span.start = some failure.place ∧
                ∀ count,
                  (count < (Brackets.behind tokens).braces.length →
                      FailsWith (closedBy source count) "Unclosed block".toList) ∧
                    (count = (Brackets.behind tokens).braces.length →
                        ∃ items, ofSource (closedBy source count) = .ok items) ∧
                      ((Brackets.behind tokens).braces.length < count →
                        FailsWith (closedBy source count) "Unexpected \x7d".toList)
  /-- The innermost open parenthesis is told. -/
  unclosedBracket :
    ∀ {failure},
      ofSource source = .error failure →
        failure.fault.message = "Unclosed bracket".toList →
          ∃ tokens,
            Token.scan source = .ok tokens ∧
              (Brackets.behind tokens).parens.head?.map Span.start = some failure.place

section Telling

variable {source : Text} {failure : Failure Fault Position}

/-- Up to a right brace that is one too many a source is a sheet. -/
theorem exists_sheet_of_unexpected
    (refused : ofSource source = .error failure)
    (isUnexpected : failure.fault = .unexpectedRightBrace) :
    ∃ front token back,
      Token.scan source = .ok (front ++ token :: back) ∧
        token.lexeme = .rightBrace ∧
          (Brackets.behind front).parens = [] ∧
            failure.place = token.place.start ∧
              ∃ items, ofSource (source.take failure.place.offset) = .ok items := by
  have ofBrackets : failure.fault.isOfBrackets = true :=
    congrArg Fault.isOfBrackets isUnexpected
  obtain ⟨tokens, place, scanned, fails, samePlace⟩ :=
    exists_tokens_of_refused refused ofBrackets
  rcases cases_of_ofTokens fails ofBrackets with
    ⟨front, token, back, rfl, isBrace, sameFailure, closed, items, parsed⟩ |
      ⟨progress, -, unfinished, -⟩
  · obtain ⟨-, rfl⟩ := Failure.mk.inj sameFailure
    refine ⟨front, token, back, scanned, isBrace, closed, samePlace, ?_⟩
    obtain ⟨before, behind, rfl, starts, reads, goesOn⟩ := Token.exists_cut scanned
    have inhabited : behind ≠ [] := by
      rintro rfl
      rcases Token.cases_of_scanFrom goesOn with ⟨-, isEnd, -⟩ | ⟨c, rest, reading, isNil, -⟩
      · exact absurd (isBrace.symm.trans (congrArg Token.lexeme isEnd)) nofun
      · cases isNil
    have upTo : failure.place.offset = before.length := by
      rw [samePlace, starts, Position.offset_after]
      exact Nat.zero_add _
    rw [upTo, List.take_left]
    have comes := outcome_of_reads (reads.alone inhabited).2
    rw [ofLexemes_lexemes, parsed] at comes
    obtain ⟨sheet, accepted, -⟩ := exists_of_outcome_eq_ok comes
    exact ⟨sheet, accepted⟩
  · rcases Progress.cases_of_finish unfinished ofBrackets with ⟨isOther, -⟩ | ⟨isOther, -⟩
    · exact nomatch isUnexpected.symm.trans isOther
    · exact nomatch isUnexpected.symm.trans isOther

/-- Where a source ends too early, the innermost bracket that is open is told. -/
theorem exists_tokens_of_unclosed
    (refused : ofSource source = .error failure)
    (ofBrackets : failure.fault.isOfBrackets = true)
    (notUnexpected : failure.fault ≠ .unexpectedRightBrace) :
    ∃ tokens,
      Token.scan source = .ok tokens ∧
        ((failure.fault = .unclosedBracket ∧
            (Brackets.behind tokens).parens.head?.map Span.start = some failure.place) ∨
          failure.fault = .unclosedBlock ∧
            (Brackets.behind tokens).braces.head?.map Span.start = some failure.place) := by
  obtain ⟨tokens, place, scanned, fails, samePlace⟩ :=
    exists_tokens_of_refused refused ofBrackets
  rcases cases_of_ofTokens fails ofBrackets with
    ⟨front, token, back, -, -, sameFailure, -⟩ | ⟨progress, -, unfinished, brackets⟩
  · exact absurd (Failure.mk.inj sameFailure).1 notUnexpected
  · refine ⟨tokens, scanned, ?_⟩
    rw [← brackets, samePlace]
    rcases Progress.cases_of_finish unfinished ofBrackets with
      ⟨isBracket, innermost⟩ | ⟨isBlock, innermost, -⟩
    · exact .inl ⟨isBracket, by rw [innermost]; rfl⟩
    · exact .inr ⟨isBlock, by rw [innermost]; rfl⟩

/-- Where a source ends inside a block, its last statement can end there, too. -/
theorem exists_settles_of_unclosedBlock
    {tokens : List (Token Span)}
    (refused : ofSource source = .error failure)
    (isUnclosed : failure.fault = .unclosedBlock)
    (scanned : Token.scan source = .ok tokens) :
    ∃ lexemes progress,
      Lexeme.Reads source lexemes [] ∧
        Progress.initial.steps (lexemes.map Token.bare) = .ok progress ∧
          progress.Settles progress.blocks ∧
            progress.blocks.length = (Brackets.behind tokens).braces.length := by
  obtain ⟨lexemes, shape, reads⟩ := Lexeme.reads_of_scanFrom scanned
  have comes := outcome_of_error refused
  rw [outcome_of_reads reads, isUnclosed] at comes
  rcases cases_of_ofTokens comes rfl with
    ⟨front, token, back, -, -, sameFailure, -⟩ | ⟨progress, taken, unfinished, brackets⟩
  · cases sameFailure
  rcases Progress.cases_of_finish unfinished rfl with ⟨isOther, -⟩ | ⟨-, -, settles⟩
  · cases isOther
  refine ⟨lexemes, progress, reads, taken, settles, ?_⟩
  have bareTokens :
      tokens.map (Token.relocate fun _ => ()) =
        lexemes.map Token.bare ++ [.bare .endOfSource] := by
    rw [← List.map_singleton, ← List.map_append, ← shape, List.map_map]
    rfl
  have sameBrackets :
      progress.brackets = (Brackets.behind tokens).relocate fun _ => () := by
    rw [brackets, ← Brackets.behind_relocate, bareTokens, Brackets.behind, Brackets.behind,
      List.foldl_concat]
    rfl
  have sameLength := congrArg (fun brackets => brackets.braces.length) sameBrackets
  simpa [Progress.brackets, Brackets.relocate] using sameLength

end Telling

/-- Every fault of brackets tells the truth about its source. -/
theorem tellsBrackets (source : Text) : TellsBrackets source := by
  refine ⟨fun {failure} refused said => ?_, fun {failure} refused said => ?_,
    fun {failure} refused said => ?_⟩
  · have isUnexpected : failure.fault = .unexpectedRightBrace :=
      Fault.eq_of_message_eq said
    exact exists_sheet_of_unexpected refused isUnexpected
  · have isBlock : failure.fault = .unclosedBlock :=
      Fault.eq_of_message_eq said
    obtain ⟨tokens, scanned, ⟨isBracket, -⟩ | ⟨-, innermost⟩⟩ :=
      exists_tokens_of_unclosed refused (congrArg Fault.isOfBrackets isBlock)
        fun isUnexpected => nomatch isBlock.symm.trans isUnexpected
    · exact nomatch isBlock.symm.trans isBracket
    obtain ⟨lexemes, progress, reads, taken, settles, sameLength⟩ :=
      exists_settles_of_unclosedBlock refused isBlock scanned
    refine ⟨tokens, scanned, innermost, fun count => ?_⟩
    obtain ⟨fewer, equal, more⟩ := outcome_closedBy reads taken settles count
    rw [← sameLength]
    refine ⟨fun less => failsWith_of_outcome (fewer less), fun same => ?_,
      fun greater => failsWith_of_outcome (more greater)⟩
    obtain ⟨sheet, comes⟩ := equal same
    obtain ⟨items, parsed, -⟩ := exists_of_outcome_eq_ok comes
    exact ⟨items, parsed⟩
  · have isBracket : failure.fault = .unclosedBracket :=
      Fault.eq_of_message_eq said
    obtain ⟨tokens, scanned, ⟨-, innermost⟩ | ⟨isBlock, -⟩⟩ :=
      exists_tokens_of_unclosed refused (congrArg Fault.isOfBrackets isBracket)
        fun isUnexpected => nomatch isBracket.symm.trans isUnexpected
    · exact ⟨tokens, scanned, innermost⟩
    · exact nomatch isBracket.symm.trans isBlock

/-- The blank keeps the brace free of the backslash at the end of the source. -/
example :
    (ofSource "a\x7b(\x7d)b:c\\".toList).map List.length =
        .error ⟨.unclosedBlock, ⟨1, 1, 2⟩⟩ ∧
      (ofSource (closedBy "a\x7b(\x7d)b:c\\".toList 1)).isOk = true := by
  decide +kernel

end Item

end PageSheet
