import PageSheet.Lexeme.Basic
namespace PageSheet

/-!
# Tokens

A token is a lexeme together with a description of its place.  The type of that
description is a parameter: tokens that were scanned carry their span, and what
is built from tokens carries the same description on, so a statement about
contents alone can choose a description that says nothing.
-/

/-- A lexeme at a place. -/
structure Token (Place : Type) where
  lexeme : Lexeme
  place : Place
  deriving Repr, DecidableEq

namespace Token

/-- A token with its place described in another way. -/
def relocate
    (describe : Place → Place')
    (token : Token Place) :
    Token Place' where
  lexeme :=
    token.lexeme
  place :=
    describe token.place

/-- The source text that a list of tokens stands for, without its comments. -/
def spelling (tokens : List (Token Place)) : Text :=
  Lexeme.spellings (tokens.map Token.lexeme)

end Token

end PageSheet
