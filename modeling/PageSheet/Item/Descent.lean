import PageSheet.Item.Parse
namespace PageSheet

/-!
# Parsing by descent

A style sheet can also be parsed by going down into every block that opens.  What is kept
then is the position of the next token and nothing else: the blocks that are open are the
calls that have not come back.  A block is read in rounds, and each round reads one item or
leaves out one token, until the block is closed.

Nothing in the rounds says that they come to an end.  So a descent may give no result at
all; that it gives one over the tokens of every source is a theorem.  How many rounds were
begun and how many blocks were opened is counted, and what is read does not depend on it.
-/

/-- Tokens in a row, of which there is at least one. -/
structure Tape (Place : Type) where
  tokens : List (Token Place)
  inhabited : tokens ≠ []

namespace Tape

/-- The position of the last token. -/
def last (tape : Tape Place) : Nat :=
  tape.tokens.length - 1

theorem last_lt (tape : Tape Place) : tape.last < tape.tokens.length :=
  Nat.sub_lt (List.length_pos_iff.mpr tape.inhabited) Nat.one_pos

/-- The token at a position; behind the last token it is the last one still. -/
def tokenAt
    (tape : Tape Place)
    (position : Nat) :
    Token Place :=
  tape.tokens.get
    ⟨min position tape.last, Nat.lt_of_le_of_lt (Nat.min_le_right _ _) tape.last_lt⟩

end Tape

/-- Where a descent stands, and what it has done on the way. -/
structure Cursor where
  position : Nat
  /-- The rounds that were begun, in all blocks. -/
  rounds : Nat
  /-- The blocks that were opened. -/
  opened : Nat
  deriving Repr, DecidableEq

namespace Cursor

/-- The cursor before the first token. -/
def start : Cursor where
  position := 0
  rounds := 0
  opened := 0

/-- The cursor at another position. -/
def moveTo
    (cursor : Cursor)
    (position : Nat) :
    Cursor where
  position := position
  rounds := cursor.rounds
  opened := cursor.opened

/-- The cursor one token further. -/
def next (cursor : Cursor) : Cursor :=
  cursor.moveTo (cursor.position + 1)

/-- The cursor once another round was begun. -/
def beginRound (cursor : Cursor) : Cursor where
  position := cursor.position
  rounds := cursor.rounds + 1
  opened := cursor.opened

/-- The cursor once another block was opened. -/
def openBlock (cursor : Cursor) : Cursor where
  position := cursor.position
  rounds := cursor.rounds
  opened := cursor.opened + 1

section Fields

variable (cursor : Cursor) (position : Nat)

@[simp] theorem position_moveTo : (cursor.moveTo position).position = position :=
  rfl

@[simp] theorem rounds_moveTo : (cursor.moveTo position).rounds = cursor.rounds :=
  rfl

@[simp] theorem position_next : cursor.next.position = cursor.position + 1 :=
  rfl

@[simp] theorem rounds_next : cursor.next.rounds = cursor.rounds :=
  rfl

@[simp] theorem position_beginRound : cursor.beginRound.position = cursor.position :=
  rfl

@[simp] theorem rounds_beginRound : cursor.beginRound.rounds = cursor.rounds + 1 :=
  rfl

end Fields

end Cursor

/-- A computation that reads tokens: it gives a result or fails, if it ends. -/
abbrev Descent (Place α : Type) : Type :=
  ExceptT (Failure Fault Place) (StateT Cursor Option) α

/-- What one round of a block comes to. -/
inductive Round (Place : Type) where
  /-- The block is closed. -/
  | ended
  /-- A token between items was left out. -/
  | separator
  /-- An item was read. -/
  | item (item : Item Place)

namespace Tape

/-- The token at the cursor, which stays. -/
def peek (tape : Tape Place) : Descent Place (Token Place) := do
  return tape.tokenAt (← get).position

/-- Move the cursor behind a token.  It never moves behind the last one. -/
def advance (tape : Tape Place) : Descent Place Unit :=
  modify fun cursor => if cursor.position < tape.last then cursor.next else cursor

/-- Move the cursor behind the white space that it stands before. -/
def skipBlanks (tape : Tape Place) : Descent Place Unit := do
  match (← tape.peek).lexeme with
  | .whitespace _ => do
      tape.advance
      tape |>.skipBlanks
  | _ => return ()
partial_fixpoint

/--
The lexemes up to a brace or semicolon outside parentheses, or up to the end of the source.
The token that ends them is left.
-/
def prelude
    (tape : Tape Place)
    (parens : List Place) :
    Descent Place (List Lexeme) := do
  let token ← tape.peek
  match token.lexeme, parens with
  | .endOfSource, paren :: _ => throw ⟨.unclosedBracket, paren⟩
  | .endOfSource, [] => return []
  | .leftBrace, [] => return []
  | .semicolon, [] => return []
  | .rightBrace, [] => return []
  | _, _ => do
      tape.advance
      let inside := Pending.parensAfter parens token.place token.lexeme
      return token.lexeme :: (← tape |>.prelude inside)
partial_fixpoint

mutual

/--
The items of a block, in rounds, behind those that were read before, the latest first.  The
place of the left brace is given unless the block is the whole sheet.
-/
def block
    (tape : Tape Place)
    (brace? : Option Place)
    (items : List (Item Place)) :
    Descent Place (List (Item Place)) := do
  match ← tape |>.round brace? with
  | .ended => return items.reverse
  | .separator => tape |>.block brace? items
  | .item item => tape |>.block brace? (item :: items)
partial_fixpoint

/-- One round of a block. -/
def round
    (tape : Tape Place)
    (brace? : Option Place) :
    Descent Place (Round Place) := do
  modify Cursor.beginRound
  tape.skipBlanks
  let token ← tape.peek
  match token.lexeme with
  | .endOfSource =>
      match brace? with
      | some brace => throw ⟨.unclosedBlock, brace⟩
      | none => return .ended
  | .rightBrace =>
      match brace? with
      | some _ => do
          tape.advance
          return .ended
      | none => throw ⟨.unexpectedRightBrace, token.place⟩
  | .semicolon => do
      tape.advance
      return .separator
  | .comment text => do
      tape.advance
      return .item (.comment text)
  | .atWord name => return .item (← tape |>.atRule name)
  | _ => return .item (← tape |>.statement)
partial_fixpoint

/-- A rule or a declaration; what ends the prelude tells which of them it is. -/
def statement (tape : Tape Place) : Descent Place (Item Place) := do
  let start := (← tape.peek).place
  let lexemes ← tape.prelude []
  let token ← tape.peek
  match token.lexeme with
  | .leftBrace => do
      tape.advance
      if Prelude.text lexemes = [] then
        throw ⟨.missingSelector, token.place⟩
      else
        modify Cursor.openBlock
        return .rule (Prelude.text lexemes) (← tape |>.block (some token.place) []) start
  | .semicolon => do
      tape.advance
      return .declaration (← MonadExcept.ofExcept (Prelude.declaration lexemes start))
  | _ => return .declaration (← MonadExcept.ofExcept (Prelude.declaration lexemes start))
partial_fixpoint

/-- An at-rule whose at-word the cursor stands before. -/
def atRule
    (tape : Tape Place)
    (name : Text) :
    Descent Place (Item Place) := do
  let start := (← tape.peek).place
  tape.advance
  let params := Prelude.text (← tape.prelude [])
  let token ← tape.peek
  match token.lexeme with
  | .leftBrace => do
      tape.advance
      modify Cursor.openBlock
      return .atBlock name params (← tape |>.block (some token.place) []) start
  | .semicolon => do
      tape.advance
      return .atStatement name params start
  | _ => return .atStatement name params start
partial_fixpoint

end

/-- The items of a style sheet. -/
def sheet (tape : Tape Place) : Descent Place (List (Item Place)) :=
  tape.block none []

end Tape

end PageSheet
