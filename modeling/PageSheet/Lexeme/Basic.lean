import PageSheet.Text.Basic
namespace PageSheet

/-!
# Lexemes

A lexeme is a smallest piece of a style sheet that means something.  Its
spelling is the source text that it stands for; comments and the end of the
source have an empty spelling, so that spelling a list of lexemes gives the
source without its comments.
-/

/-- One piece of a style sheet, without the place where it stands. -/
inductive Lexeme where
  | whitespace (text : Text)
  /-- A comment carries its trimmed body. -/
  | comment (body : Text)
  | word (text : Text)
  /-- An at-word carries its name without the leading `@`. -/
  | atWord (name : Text)
  /-- A string carries its quotes and its escapes. -/
  | string (text : Text)
  | colon
  | semicolon
  | leftBrace
  | rightBrace
  | leftParen
  | rightParen
  | endOfSource
  deriving Repr, DecidableEq

namespace Lexeme

/-- The source text that a lexeme stands for. -/
def spelling : Lexeme → Text
  | .whitespace text => text
  | .comment _ => []
  | .word text => text
  | .atWord name => '@' :: name
  | .string text => text
  | .colon => [':']
  | .semicolon => [';']
  | .leftBrace => ['\x7b']
  | .rightBrace => ['\x7d']
  | .leftParen => ['(']
  | .rightParen => [')']
  | .endOfSource => []

/-- The source text that a list of lexemes stands for. -/
def spellings (lexemes : List Lexeme) : Text :=
  lexemes.flatMap spelling

theorem spellings_cons
    (lexeme : Lexeme)
    (rest : List Lexeme) :
    spellings (lexeme :: rest) = lexeme.spelling ++ spellings rest :=
  List.flatMap_cons

/-- Lists of lexemes are spelled one after the other. -/
theorem spellings_append
    (first second : List Lexeme) :
    spellings (first ++ second) = spellings first ++ spellings second :=
  List.flatMap_append

/-- Whether a character is a blank between lexemes. -/
def isBlank (c : Char) : Bool :=
  c = ' ' || c = '\t' || c = '\n' || c = '\r' || c = '\x0c'

/-- Whether a character ends a word wherever it stands unescaped. -/
def isDelimiter (c : Char) : Bool :=
  isBlank c || c = '\x7b' || c = '\x7d' || c = ';' || c = ':' || c = '('
    || c = ')' || c = '\x22' || c = '\x27' || c = '@'

/-- Blanks are white space. -/
theorem isWhiteSpace_of_isBlank
    {c : Char}
    (blank : isBlank c = true) :
    Text.isWhiteSpace c = true := by
  simp only [isBlank, Bool.or_eq_true, decide_eq_true_eq] at blank
  rcases blank with (((rfl | rfl) | rfl) | rfl) | rfl <;> decide

end Lexeme

end PageSheet
