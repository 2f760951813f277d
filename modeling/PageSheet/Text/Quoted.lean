import PageSheet.Text.Visible
namespace PageSheet.Text

/-!
# Quoted texts

The quoted form of a text stands between double quotes.  The quote, the backslash
and the common control characters have short escapes; every other character that
does not show by itself is written as its code point in hexadecimal.  So a quoted
text is one line, and all of it is visible.
-/

/-- A code point between braces, in lower-case hexadecimal without padding. -/
def escapedCodePoint (c : Char) : Text :=
  ['\\', 'u', '\x7b'] ++ Nat.toDigits 16 c.toNat ++ ['\x7d']

/-- One character as it stands between quotes. -/
def quotedChar (c : Char) : Text :=
  match c with
  | '\x22' => ['\\', '\x22']
  | '\\' => ['\\', '\\']
  | '\t' => ['\\', 't']
  | '\n' => ['\\', 'n']
  | '\r' => ['\\', 'r']
  | '\x00' => ['\\', '0']
  | other =>
      if isVisible other then
        [other]
      else
        escapedCodePoint other

/-- A text between double quotes, with its special characters escaped. -/
def quoted (text : Text) : Text :=
  '\x22' :: text.flatMap quotedChar ++ ['\x22']

/-- Hexadecimal digits are visible. -/
theorem isVisible_of_mem_toDigits
    {number : Nat}
    {c : Char}
    (member : c ∈ Nat.toDigits 16 number) :
    isVisible c = true := by
  have digits : ∀ digit < 16, isVisible (Nat.digitChar digit) = true := by
    decide +kernel
  induction number using Nat.strongRecOn with
  | ind number inductionHypothesis =>
      rw [Nat.toDigits_eq_if (by decide)] at member
      split at member
      next isDigit =>
        rw [List.mem_singleton.mp member]
        exact digits number isDigit
      next =>
        rcases List.mem_append.mp member with before | last
        · exact inductionHypothesis (number / 16) (by omega) before
        · rw [List.mem_singleton.mp last]
          exact digits (number % 16) (Nat.mod_lt number (by decide))

/-- An escaped code point is visible. -/
theorem isVisible_of_mem_escapedCodePoint
    {c shown : Char}
    (member : shown ∈ escapedCodePoint c) :
    isVisible shown = true := by
  have opening : ['\\', 'u', '\x7b'].all isVisible = true := by
    decide +kernel
  have closing : isVisible '\x7d' = true := by
    decide +kernel
  rcases List.mem_append.mp member with before | last
  · rcases List.mem_append.mp before with mark | digit
    · exact List.all_eq_true.mp opening shown mark
    · exact isVisible_of_mem_toDigits digit
  · rw [List.mem_singleton.mp last]
    exact closing

/-- A character between quotes is visible, or it is escaped by what is visible. -/
theorem isVisible_of_mem_quotedChar
    {c shown : Char}
    (member : shown ∈ quotedChar c) :
    isVisible shown = true := by
  unfold quotedChar at member
  split at member
  -- Six characters have a short escape.
  iterate 6
    · exact List.all_eq_true.mp (by decide +kernel) shown member
  split at member
  · next visible =>
      rw [List.mem_singleton.mp member]
      exact visible
  · exact isVisible_of_mem_escapedCodePoint member

/-- All of a quoted text is visible. -/
theorem isVisible_of_mem_quoted
    {text : Text}
    {shown : Char}
    (member : shown ∈ quoted text) :
    isVisible shown = true := by
  have quote : isVisible '\x22' = true := by
    decide +kernel
  rcases List.mem_append.mp member with before | closing
  · rcases List.mem_cons.mp before with rfl | inside
    · exact quote
    · obtain ⟨c, -, among⟩ := List.mem_flatMap.mp inside
      exact isVisible_of_mem_quotedChar among
  · rw [List.mem_singleton.mp closing]
    exact quote

/-- A letter shows by itself, but a combining mark and a blank of no width do not. -/
example : quoted "é\u0301\u200B".toList = "\x22é\\u\x7b301\x7d\\u\x7b200b\x7d\x22".toList := by
  decide +kernel

end PageSheet.Text
