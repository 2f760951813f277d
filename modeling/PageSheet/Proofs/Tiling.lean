import Mathlib.Data.List.Chain
import PageSheet.Proofs.FirstLexeme
import PageSheet.Token.Scan
namespace PageSheet

/-!
# The tokens of a source tile it

Scanning keeps the position in step with the text that is left, so the slices
that the lexemes were read from lie end to end, and nothing of the source falls
between two of them.
-/

namespace Span

/-- The piece of a source that a span covers. -/
def slice
    (span : Span)
    (source : Text) :
    Text :=
  (source.drop span.start.offset).take (span.stop - span.start.offset)

theorem slice_of_between
    {span : Span}
    {before piece behind : Text}
    (starts : span.start.offset = before.length)
    (stops : span.stop = before.length + piece.length) :
    span.slice (before ++ (piece ++ behind)) = piece := by
  unfold slice
  rw [starts, stops, Nat.add_sub_cancel_left]
  simp

end Span

namespace Token

/--
Tokens that cover a source from an offset on.  Each of them starts where the one
before it ends, and the last one is the end of the source.
-/
inductive Covers (source : Text) : Nat → List (Token Span) → Prop where
  | finish
      {position : Position} :
      position.offset = source.length →
      Covers source position.offset
        [⟨.endOfSource, ⟨position, position.offset⟩⟩]
  | piece
      {token : Token Span}
      {rest : List (Token Span)} :
      token.lexeme ≠ .endOfSource →
      token.place.start.offset < token.place.stop →
      token.lexeme.WrittenAs (token.place.slice source) →
      Covers source token.place.stop rest →
      Covers source token.place.start.offset (token :: rest)

/-- Scanning covers the text that is left from where it stands. -/
theorem covers_of_scanFrom
    {position : Position}
    {text before : Text}
    {tokens : List (Token Span)}
    (scanned : scanFrom position text = .ok tokens)
    (inStep : position.offset = before.length) :
    Covers (before ++ text) position.offset tokens := by
  fun_induction scanFrom position text generalizing before tokens with
  | case1 position =>
      cases scanned
      exact .finish (by simp [inStep])
  | case2 =>
      cases scanned
  | case3 =>
      cases scanned
  | case4 position c rest reading accepted _ behind tail scannedTail =>
      rename_i inductionHypothesis
      cases scanned
      have cut := Lexeme.slice_append_rest accepted
      have moved : behind.offset = before.length + reading.slice.length := by
        rw [← inStep]
        exact Position.offset_after position reading.slice
      have taken : 0 < reading.slice.length :=
        List.length_pos_iff.mpr (Lexeme.slice_ne_nil accepted)
      obtain ⟨written, shown⟩ := (Lexeme.begins_of_read accepted).writtenAs
      have later : Covers (before ++ (c :: rest)) behind.offset tail := by
        have shifted :=
          @inductionHypothesis (before ++ reading.slice) tail scannedTail
            (by rw [moved, List.length_append])
        rwa [List.append_assoc, cut] at shifted
      refine @Covers.piece _ ⟨reading.lexeme, ⟨position, behind.offset⟩⟩ tail
        shown ?_ ?_ later
      · simp only [moved]
        omega
      · rw [← cut, Span.slice_of_between inStep moved]
        exact written

namespace Covers

variable {source : Text} {offset : Nat} {tokens : List (Token Span)}

theorem head_start
    (covers : Covers source offset tokens) :
    tokens.head?.map (fun token => token.place.start.offset) = some offset := by
  cases covers <;> rfl

theorem isChain
    (covers : Covers source offset tokens) :
    tokens.IsChain fun first second =>
      first.place.stop = second.place.start.offset := by
  induction covers with
  | finish =>
      exact .singleton _
  | @piece token rest _ _ _ behind inductionHypothesis =>
      have continues := behind.head_start
      cases rest with
      | nil =>
          exact .singleton _
      | cons next others =>
          refine .cons_cons ?_ inductionHypothesis
          simpa using continues.symm

/-- The end of the source is the last covering token and no other one. -/
theorem exists_last
    (covers : Covers source offset tokens) :
    ∃ inner place,
      tokens = inner ++ [⟨.endOfSource, place⟩] ∧
        place.start.offset = source.length ∧
        place.stop = source.length ∧
        ∀ token ∈ inner,
          token.lexeme ≠ .endOfSource ∧
            token.place.start.offset < token.place.stop := by
  induction covers with
  | @finish position atEnd =>
      exact ⟨[], ⟨position, position.offset⟩, rfl, atEnd, atEnd, by simp⟩
  | @piece token rest shown positive _ _ inductionHypothesis =>
      obtain ⟨inner, place, rfl, starts, stops, others⟩ := inductionHypothesis
      exact ⟨token :: inner, place, rfl, starts, stops,
        List.forall_mem_cons.mpr ⟨⟨shown, positive⟩, others⟩⟩

/-- Every covering token is written as the slice under its span. -/
theorem writtenAs_slice
    (covers : Covers source offset tokens) :
    ∀ token ∈ tokens, token.lexeme.WrittenAs (token.place.slice source) := by
  induction covers with
  | @finish position atEnd =>
      intro token isLast
      rw [List.mem_singleton.mp isLast]
      simp [Lexeme.WrittenAs, Lexeme.spelling, Span.slice]
  | piece _ _ written _ inductionHypothesis =>
      exact List.forall_mem_cons.mpr ⟨written, inductionHypothesis⟩

/-- The slices under covering tokens make up what they cover. -/
theorem flatMap_slice
    (covers : Covers source offset tokens) :
    tokens.flatMap (fun token => token.place.slice source) =
      source.drop offset := by
  induction covers with
  | @finish position atEnd =>
      simp [Span.slice, atEnd]
  | @piece token rest _ positive _ _ inductionHypothesis =>
      have stops :
          token.place.stop =
            token.place.start.offset
              + (token.place.stop - token.place.start.offset) := by
        omega
      rw [List.flatMap_cons, inductionHypothesis, Span.slice]
      conv_lhs =>
        rw [stops]
      rw [Nat.add_sub_cancel_left, ← List.drop_drop, List.take_append_drop]

end Covers

/--
What it means that tokens tile a source: they lie end to end from its first
character to its last, each is written as its slice, and their spelling is the
source without the slices of its comments.
-/
structure Tiling
    (source : Text)
    (tokens : List (Token Span)) : Prop where
  starts :
    tokens.head?.map (fun token => token.place.start.offset) = some 0
  abuts :
    tokens.IsChain fun first second =>
      first.place.stop = second.place.start.offset
  ends :
    ∃ inner place,
      tokens = inner ++ [⟨.endOfSource, place⟩] ∧
        place.start.offset = source.length ∧
        place.stop = source.length ∧
        ∀ token ∈ inner,
          token.lexeme ≠ .endOfSource ∧
            token.place.start.offset < token.place.stop
  written :
    ∀ token ∈ tokens, token.lexeme.WrittenAs (token.place.slice source)
  whole :
    tokens.flatMap (fun token => token.place.slice source) = source
  spelled :
    Token.spelling tokens =
      (tokens.filter fun token => !token.lexeme.isComment).flatMap
        fun token => token.place.slice source

/-- Tokens that are written as their slices spell what is no comment. -/
theorem spelling_eq_flatMap_slice
    {source : Text}
    {tokens : List (Token Span)}
    (written :
      ∀ token ∈ tokens, token.lexeme.WrittenAs (token.place.slice source)) :
    Token.spelling tokens =
      (tokens.filter fun token => !token.lexeme.isComment).flatMap
        fun token => token.place.slice source := by
  induction tokens with
  | nil =>
      rfl
  | cons token rest inductionHypothesis =>
      obtain ⟨first, others⟩ := List.forall_mem_cons.mp written
      have cut :
          Token.spelling (token :: rest) =
            token.lexeme.spelling ++ Token.spelling rest := by
        simp [Token.spelling, Lexeme.spellings]
      rw [cut, inductionHypothesis others]
      cases kind : token.lexeme.isComment with
      | true =>
          rw [Lexeme.spelling_of_isComment kind, List.nil_append,
            List.filter_cons_of_neg (by simp [kind])]
      | false =>
          rw [Lexeme.spelling_of_writtenAs first kind,
            List.filter_cons_of_pos (by simp [kind]), List.flatMap_cons]

/-- The tokens of a source tile it. -/
theorem tiling_of_scan
    {source : Text}
    {tokens : List (Token Span)}
    (scanned : Token.scan source = .ok tokens) :
    Tiling source tokens := by
  have covers : Covers source 0 tokens :=
    @covers_of_scanFrom Position.start source [] tokens scanned rfl
  exact {
    starts := covers.head_start
    abuts := covers.isChain
    ends := covers.exists_last
    written := covers.writtenAs_slice
    whole := covers.flatMap_slice
    spelled := spelling_eq_flatMap_slice covers.writtenAs_slice
  }

/-- An escape, a NUL, stars inside a comment and a quote inside a string. -/
theorem tiling_of_scan_escapes :
    Token.scan "\\;\x00/* * **/'\\''".toList =
        .ok
          [ ⟨.word ['\\', ';', '\x00'], ⟨⟨0, 1, 1⟩, 3⟩⟩,
            ⟨.comment ['*', ' ', '*'], ⟨⟨3, 1, 4⟩, 11⟩⟩,
            ⟨.string ['\x27', '\\', '\x27', '\x27'], ⟨⟨11, 1, 12⟩, 15⟩⟩,
            ⟨.endOfSource, ⟨⟨15, 1, 16⟩, 15⟩⟩ ] ∧
      Tiling "\\;\x00/* * **/'\\''".toList
        [ ⟨.word ['\\', ';', '\x00'], ⟨⟨0, 1, 1⟩, 3⟩⟩,
          ⟨.comment ['*', ' ', '*'], ⟨⟨3, 1, 4⟩, 11⟩⟩,
          ⟨.string ['\x27', '\\', '\x27', '\x27'], ⟨⟨11, 1, 12⟩, 15⟩⟩,
          ⟨.endOfSource, ⟨⟨15, 1, 16⟩, 15⟩⟩ ] :=
  ⟨by decide +kernel, tiling_of_scan (by decide +kernel)⟩

end Token

end PageSheet
