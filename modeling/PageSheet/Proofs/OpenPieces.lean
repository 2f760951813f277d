import PageSheet.Proofs.Cutting
namespace PageSheet

/-!
# Pieces that are left open

A source is not scanned when it leaves a comment or a string open, and for no other
reason.  The piece starts behind text that is scanned on its own and pairs its
backslashes; nothing inside a word, a string or a comment can be mistaken for it, so
there is only one such place in a source, and it is the one that the failure tells.
-/

namespace Text

/-- The characters of a text that stand free: every backslash takes the next one with it. -/
def unescaped : Text → Text
  | [] => []
  | '\\' :: _ :: rest => unescaped rest
  | c :: rest => c :: unescaped rest

theorem unescaped_cons
    {c : Char}
    (plain : c ≠ '\\')
    (rest : Text) :
    unescaped (c :: rest) = c :: unescaped rest := by
  simp [unescaped, plain]

end Text

namespace Lexeme

/-- What it means that a text starts with a piece that does not end in it. -/
inductive StartsOpen : Unclosed → Text → Prop where
  | comment
      {rest : Text} :
      ¬ ['*', '/'] <:+: rest →
      StartsOpen .comment ('/' :: '*' :: rest)
  | string
      {quote : Char}
      {rest : Text} :
      quote = '\x22' ∨ quote = '\x27' →
      quote ∉ Text.unescaped rest →
      StartsOpen .string (quote :: rest)

/-- A comment does not end exactly when its end occurs nowhere. -/
theorem splitComment?_eq_none_iff
    {text : Text} :
    splitComment? text = none ↔ ¬ ['*', '/'] <:+: text := by
  fun_induction splitComment? text with
  | case1 =>
      simp
  | case2 rest =>
      have occurs : ['*', '/'] <:+: '*' :: '/' :: rest :=
        (List.prefix_append ['*', '/'] rest).isInfix
      simp [occurs]
  | case3 c rest notEnd inductionHypothesis =>
      have notHere : ¬ ['*', '/'] <+: c :: rest := by
        rintro ⟨others, shape⟩
        cases shape
        exact notEnd others rfl rfl
      rw [Option.map_eq_none_iff, inductionHypothesis, List.infix_cons_iff]
      simp [notHere]

/-- A string does not end exactly when its quote stands free nowhere. -/
theorem splitString?_eq_none_iff
    {quote : Char}
    (notEscape : quote ≠ '\\')
    {text : Text} :
    splitString? quote text = none ↔ quote ∉ Text.unescaped text := by
  fun_induction splitString? quote text with
  | case1 =>
      simp [Text.unescaped]
  | case2 =>
      simp [Text.unescaped]
  | case3 c differs =>
      simp [Text.unescaped, Ne.symm differs]
  | case4 d rest =>
      rw [Text.unescaped_cons notEscape]
      simp
  | case5 d rest differs inductionHypothesis =>
      rw [Option.map_eq_none_iff, inductionHypothesis, Text.unescaped]
  | case6 c d rest differs plain inductionHypothesis =>
      rw [Option.map_eq_none_iff, inductionHypothesis, Text.unescaped_cons plain]
      simp [Ne.symm differs]

/-- The first lexeme of a text is refused exactly when it is a piece that does not end. -/
theorem read_eq_error_iff
    {c : Char}
    {rest : Text}
    {piece : Unclosed} :
    read c rest = .error piece ↔ StartsOpen piece (c :: rest) := by
  constructor
  · intro refused
    unfold read at refused
    split at refused
    · cases refused
    split at refused
    · next isQuote =>
        have isQuote : c = '\x22' ∨ c = '\x27' := by
          simpa using isQuote
        have notEscape : c ≠ '\\' := by
          rcases isQuote with rfl | rfl <;> decide
        unfold readString at refused
        split at refused
        · cases refused
        · next unended =>
            cases refused
            exact .string isQuote ((splitString?_eq_none_iff notEscape).mp unended)
    split at refused
    · cases refused
    split at refused
    · cases refused
    split at refused
    · next others =>
        unfold readComment at refused
        split at refused
        · cases refused
        · next unended =>
            cases refused
            exact .comment (splitComment?_eq_none_iff.mp unended)
    · cases refused
  · intro starts
    cases starts with
    | comment unended =>
        have split := splitComment?_eq_none_iff.mpr unended
        simp [read, isBlank, ofMark?, readComment, split]
    | string isQuote unended =>
        have notEscape : c ≠ '\\' := by
          rcases isQuote with rfl | rfl <;> decide
        have split := (splitString?_eq_none_iff notEscape).mpr unended
        rcases isQuote with rfl | rfl <;> simp [read, isBlank, readString, split]

theorem StartsOpen.ne_nil
    {piece : Unclosed}
    {text : Text}
    (starts : StartsOpen piece text) :
    text ≠ [] := by
  rcases starts with _ | _ <;> exact List.cons_ne_nil _ _

/-- Every lexeme ends before a piece that is left open. -/
theorem StartsOpen.endsBefore
    {piece : Unclosed}
    {text : Text}
    (starts : StartsOpen piece text)
    (lexeme : Lexeme) :
    lexeme.EndsBefore text := by
  cases starts with
  | comment =>
      exact endsBefore_comment _ lexeme
  | @string quote rest isQuote _ =>
      have stopped : lexeme.isStoppedBy quote = true := by
        rcases isQuote with rfl | rfl <;> cases lexeme <;> rfl
      exact endsBefore_of_isStoppedBy stopped rest

end Lexeme

namespace Token

open Lexeme

/-- A text that is not scanned has a piece left open behind a run of readings. -/
theorem exists_startsOpen_of_scanFrom
    {position : Position}
    {text : Text}
    {failure : Failure Unclosed Position}
    (refused : scanFrom position text = .error failure) :
    ∃ before behind lexemes,
      text = before ++ behind ∧
        Reads text lexemes behind ∧
          StartsOpen failure.fault behind ∧ failure.place = position.after before := by
  fun_induction scanFrom position text with
  | case1 =>
      cases refused
  | case2 position c rest fault left =>
      cases refused
      exact ⟨[], c :: rest, [], rfl, .done _, read_eq_error_iff.mp left, rfl⟩
  | case3 position c rest reading accepted _ behind failure' refusedTail =>
      rename_i inductionHypothesis
      cases refused
      obtain ⟨before, following, lexemes, shape, reads, starts, place⟩ :=
        inductionHypothesis refusedTail
      refine ⟨reading.slice ++ before, following, reading.lexeme :: lexemes, ?_,
        .step (begins_of_read accepted) reads, starts, ?_⟩
      · rw [← slice_append_rest accepted, shape, List.append_assoc]
      · rw [place, Position.after_append]
  | case4 =>
      cases refused

/-- A text with a piece left open behind a run of readings is not scanned. -/
theorem scanFrom_of_startsOpen
    {before behind : Text}
    {lexemes : List Lexeme}
    {piece : Unclosed}
    (reads : Reads (before ++ behind) lexemes behind)
    (starts : StartsOpen piece behind)
    (position : Position) :
    scanFrom position (before ++ behind) = .error ⟨piece, position.after before⟩ := by
  generalize whole : before ++ behind = text at reads
  induction reads generalizing before position with
  | done rest =>
      cases List.append_left_eq_self.mp whole
      cases starts with
      | comment unended =>
          exact scanFrom_of_refused (read_eq_error_iff.mpr (.comment unended)) position
      | string isQuote unended =>
          exact scanFrom_of_refused (read_eq_error_iff.mpr (.string isQuote unended)) position
  | @step c others rest reading lexemes begins tail inductionHypothesis =>
      obtain ⟨used, shape, -⟩ := tail.exchange
      have cut := slice_append_rest (read_of_begins begins)
      rw [shape, ← List.append_assoc, ← whole] at cut
      cases List.append_cancel_right cut
      rw [begins.scanFrom, inductionHypothesis starts _ shape.symm, Position.after_append]
      rfl

/--
What it means that a piece of a source is left open at an offset: the text before it is
scanned and takes nothing of it along with a backslash, and the piece does not end.
-/
structure OpensAt
    (source : Text)
    (piece : Unclosed)
    (offset : Nat) : Prop where
  scanned : ∃ tokens, scan (source.take offset) = .ok tokens
  paired : Text.endsUnpaired (source.take offset) = false
  starts : StartsOpen piece (source.drop offset)

namespace OpensAt

variable {source : Text} {piece : Unclosed} {offset : Nat}

/-- A source is refused at the piece that it leaves open. -/
theorem scan_eq
    (opens : OpensAt source piece offset) :
    scan source = .error ⟨piece, Position.start.after (source.take offset)⟩ := by
  obtain ⟨⟨tokens, scanned⟩, paired, starts⟩ := opens
  obtain ⟨lexemes, -, alone⟩ := reads_of_scanFrom scanned
  obtain ⟨used, shape, exchange⟩ := alone.exchange
  rw [List.append_nil] at shape
  subst shape
  have reads := exchange (source.drop offset) paired fun last _ => starts.endsBefore last
  have refused := scanFrom_of_startsOpen reads starts Position.start
  rwa [List.take_append_drop] at refused

/-- The place where a source is refused is the offset of its open piece. -/
theorem place_eq
    (opens : OpensAt source piece offset) :
    Position.start.after (source.take offset) =
      ⟨offset, 1 + (source.take offset).count '\n',
        1 + (Text.lastLine (source.take offset)).length⟩ := by
  have within : offset < source.length := by
    by_contra beyond
    exact opens.starts.ne_nil (List.drop_eq_nil_of_le (Nat.not_lt.mp beyond))
  rw [Position.after_start, List.length_take_of_le (Nat.le_of_lt within)]

/-- A source leaves no two pieces open. -/
theorem unique
    {piece' : Unclosed}
    {offset' : Nat}
    (opens : OpensAt source piece offset)
    (opens' : OpensAt source piece' offset') :
    piece = piece' ∧ offset = offset' := by
  have same := opens.scan_eq.symm.trans opens'.scan_eq
  rw [opens.place_eq, opens'.place_eq] at same
  injection same with same
  injection same with samePiece samePlace
  injection samePlace with sameOffset
  exact ⟨samePiece, sameOffset⟩

end OpensAt

/-- A source that is refused leaves a piece open. -/
theorem exists_opensAt_of_scan
    {source : Text}
    {failure : Failure Unclosed Position}
    (refused : scan source = .error failure) :
    ∃ offset, OpensAt source failure.fault offset := by
  obtain ⟨before, behind, lexemes, rfl, reads, starts, -⟩ :=
    exists_startsOpen_of_scanFrom refused
  obtain ⟨paired, alone⟩ := reads.alone starts.ne_nil
  obtain ⟨tokens, scanned, -⟩ := alone.exists_scanFrom Position.start
  refine ⟨before.length, ?_, ?_, ?_⟩
  · rw [List.take_left]
    exact ⟨tokens, scanned⟩
  · rwa [List.take_left]
  · rwa [List.drop_left]

/-- What it means that a source is refused for what it leaves open, and told where. -/
structure RefusedWhereOpen (source : Text) : Prop where
  refused :
    (∃ failure, scan source = .error failure) ↔
      ∃ piece offset, OpensAt source piece offset
  unique :
    ∀ {piece piece' offset offset'},
      OpensAt source piece offset → OpensAt source piece' offset' →
        piece = piece' ∧ offset = offset'
  place :
    ∀ {piece offset failure},
      OpensAt source piece offset → scan source = .error failure →
        failure.place =
          ⟨offset, 1 + (source.take offset).count '\n',
            1 + (Text.lastLine (source.take offset)).length⟩
  comment :
    ∀ {offset failure},
      OpensAt source .comment offset → scan source = .error failure →
        failure.fault.message = "Unclosed comment".toList
  string :
    ∀ {offset failure},
      OpensAt source .string offset → scan source = .error failure →
        failure.fault.message = "Unclosed string".toList

/-- Every source is refused exactly for the piece that it leaves open, if it does. -/
theorem refusedWhereOpen (source : Text) : RefusedWhereOpen source := by
  have failure_eq :
      ∀ {piece offset failure},
        OpensAt source piece offset → scan source = .error failure →
          failure = ⟨piece, Position.start.after (source.take offset)⟩ := by
    intro piece offset failure opens refused
    rw [opens.scan_eq] at refused
    exact (Except.error.inj refused).symm
  refine ⟨⟨?_, ?_⟩, OpensAt.unique, ?_, ?_, ?_⟩
  · rintro ⟨failure, refused⟩
    exact ⟨failure.fault, exists_opensAt_of_scan refused⟩
  · rintro ⟨piece, offset, opens⟩
    exact ⟨_, opens.scan_eq⟩
  · intro piece offset failure opens refused
    rw [failure_eq opens refused, ← opens.place_eq]
  · intro offset failure opens refused
    rw [failure_eq opens refused]
    rfl
  · intro offset failure opens refused
    rw [failure_eq opens refused]
    rfl

/-- Neither an escaped quote nor the slash behind `/*` ends or starts a piece. -/
example :
    scan "\\\"'\\''\n\"\\\"".toList = .error ⟨.string, ⟨7, 2, 1⟩⟩ ∧
      scan "\\\"/*/".toList = .error ⟨.comment, ⟨2, 1, 3⟩⟩ := by
  decide +kernel

end Token

end PageSheet
