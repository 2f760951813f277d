namespace PageSheet

/-!
# Texts

A text is a list of Unicode scalar values.  Every count and every cut in this
library is made in scalar values, so a list is the view and the representation
at once.

Trimming removes the Unicode property White_Space from both ends.  That class
is wider than the blanks that separate lexemes, which are defined with the
lexemes.
-/

/-- A text is the list of its Unicode scalar values. -/
abbrev Text := List Char

namespace Text

/-- The code points of the Unicode property White_Space, as inclusive ranges. -/
def whiteSpaceRanges : List (Nat × Nat) :=
  [(0x0009, 0x000D), (0x0020, 0x0020), (0x0085, 0x0085), (0x00A0, 0x00A0),
    (0x1680, 0x1680), (0x2000, 0x200A), (0x2028, 0x2029), (0x202F, 0x202F),
    (0x205F, 0x205F), (0x3000, 0x3000)]

/-- Whether a character has the Unicode property White_Space. -/
def isWhiteSpace (c : Char) : Bool :=
  whiteSpaceRanges.any fun range =>
    range.1 ≤ c.toNat && c.toNat ≤ range.2

/-- A text without its leading white space. -/
def trimStart (text : Text) : Text :=
  text.dropWhile isWhiteSpace

/-- A text without its trailing white space. -/
def trimEnd (text : Text) : Text :=
  (text.reverse.dropWhile isWhiteSpace).reverse

/-- A text without the white space at its two ends. -/
def trim (text : Text) : Text :=
  trimEnd (trimStart text)

/-- The decimal digits of a number. -/
def decimal (number : Nat) : Text :=
  Nat.toDigits 10 number

/--
The pieces of a text between the occurrences of a separator.  There is always
one piece more than there are separators, and pieces may be empty.
-/
def pieces (separator : Char) : Text → List Text
  | [] => [[]]
  | c :: rest =>
      if c = separator then
        [] :: pieces separator rest
      else
        match pieces separator rest with
        | [] => [[c]]
        | first :: others => (c :: first) :: others

/-- Texts put one after the other with a separator between neighbours. -/
def join (separator : Text) : List Text → Text
  | [] => []
  | [text] => text
  | text :: next :: others =>
      text ++ separator ++ join separator (next :: others)

/-- A text without one given leading character, if it has it. -/
def dropMarker (marker : Char) : Text → Text
  | [] => []
  | c :: rest =>
      if c = marker then rest else c :: rest

/-- A text has at least one piece. -/
theorem pieces_ne_nil
    (separator : Char)
    (text : Text) :
    pieces separator text ≠ [] := by
  cases text with
  | nil =>
      simp [pieces]
  | cons c rest =>
      rw [pieces]
      split
      · simp
      · split <;> simp

end Text

end PageSheet
