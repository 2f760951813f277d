import PageSheet.Lexeme.First
import PageSheet.Source.Position
import PageSheet.Token.Basic
namespace PageSheet

/-!
# Scanning

Scanning reads lexemes from a source text until the text is used up, and ends
with one token for the end of the source.  Every token spans the slice that its
lexeme was read from, so the spans lie end to end.  A source that leaves a
comment or a string open has no tokens at all; the failure is placed where the
open piece starts.
-/

namespace Lexeme.Unclosed

/-- What is said about a piece that is left open. -/
def message : Lexeme.Unclosed → Text
  | .comment => "Unclosed comment".toList
  | .string => "Unclosed string".toList

end Lexeme.Unclosed

namespace Token

/-- The tokens of a text that stands at a position. -/
def scanFrom
    (position : Position)
    (text : Text) :
    Except (Failure Lexeme.Unclosed Position) (List (Token Span)) :=
  match text with
  | [] => .ok [⟨.endOfSource, ⟨position, position.offset⟩⟩]
  | c :: rest =>
      match accepted : Lexeme.read c rest with
      | .error fault => .error ⟨fault, position⟩
      | .ok reading =>
          have := Lexeme.length_rest_lt accepted
          let behind := position.after reading.slice
          match scanFrom behind reading.rest with
          | .error failure => .error failure
          | .ok tokens =>
              .ok (⟨reading.lexeme, ⟨position, behind.offset⟩⟩ :: tokens)
termination_by text.length
decreasing_by assumption

/-- The tokens of a source text. -/
def scan (source : Text) :
    Except (Failure Lexeme.Unclosed Position) (List (Token Span)) :=
  scanFrom Position.start source

end Token

end PageSheet
