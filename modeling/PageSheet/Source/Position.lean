import PageSheet.Text.Basic
namespace PageSheet

/-!
# Positions

A position counts the characters, the lines and the columns of a source text up
to a point in it.  Offsets start at zero, lines and columns at one, and only a
line feed ends a line.
-/

/-- What a text has behind its last line feed, or all of it where it has none. -/
def Text.lastLine (text : Text) : Text :=
  (text.reverse.takeWhile fun c => c != '\n').reverse

/-- A point in a source text. -/
structure Position where
  offset : Nat
  line : Nat
  column : Nat
  deriving Repr, DecidableEq

namespace Position

/-- The position before the first character. -/
def start : Position where
  offset := 0
  line := 1
  column := 1

/-- The position behind one character that stands at a position. -/
def next
    (position : Position)
    (c : Char) :
    Position :=
  if c = '\n' then
    ⟨position.offset + 1, position.line + 1, 1⟩
  else
    ⟨position.offset + 1, position.line, position.column + 1⟩

/-- The position behind a text that stands at a position. -/
def after
    (position : Position)
    (text : Text) :
    Position :=
  text.foldl next position

/-- Nothing moves no position. -/
@[simp] theorem after_nil
    (position : Position) :
    position.after [] = position :=
  rfl

/-- Positions move one character at a time. -/
@[simp] theorem after_cons
    (position : Position)
    (c : Char)
    (rest : Text) :
    position.after (c :: rest) = (position.next c).after rest :=
  rfl

/-- Positions behind two texts in a row are found one text at a time. -/
theorem after_append
    (position : Position)
    (first second : Text) :
    position.after (first ++ second) = (position.after first).after second :=
  List.foldl_append

/-- An offset grows by the length of the text it passes. -/
theorem offset_after
    (position : Position)
    (text : Text) :
    (position.after text).offset = position.offset + text.length := by
  induction text generalizing position with
  | nil =>
      rfl
  | cons c rest inductionHypothesis =>
      have step : (position.next c).offset = position.offset + 1 := by
        unfold next
        split <;> rfl
      rw [after_cons, inductionHypothesis, step, List.length_cons]
      omega

/-- The position behind the start of a source, told by counting in that text. -/
theorem after_start
    (text : Text) :
    start.after text =
      ⟨text.length, 1 + text.count '\n', 1 + text.lastLine.length⟩ := by
  -- The last character decides, so the induction is on the reversed text.
  have reversed :
      ∀ back : Text,
        back.foldr (fun c position => position.next c) start =
          ⟨back.length, 1 + back.count '\n',
            1 + (back.takeWhile fun c => c != '\n').length⟩ := by
    intro back
    induction back with
    | nil =>
        rfl
    | cons c rest inductionHypothesis =>
        rw [List.foldr_cons, inductionHypothesis, next]
        by_cases isLineFeed : c = '\n'
        · simp [isLineFeed, Nat.add_assoc]
        · simp [isLineFeed, Nat.add_assoc]
  have whole := reversed text.reverse
  rw [List.foldr_reverse, List.length_reverse, List.count_reverse] at whole
  rw [Text.lastLine, List.length_reverse]
  exact whole

end Position

/-- The place of a piece of source text: where it starts and the offset behind it. -/
structure Span where
  start : Position
  stop : Nat
  deriving Repr, DecidableEq

/-- A fault together with the place where it was found. -/
structure Failure (Cause Place : Type) where
  fault : Cause
  place : Place
  deriving Repr, DecidableEq

namespace Failure

/-- A failure with its place described in another way. -/
def relocate
    (describe : Place → Place')
    (failure : Failure Cause Place) :
    Failure Cause Place' where
  fault :=
    failure.fault
  place :=
    describe failure.place

end Failure

end PageSheet
