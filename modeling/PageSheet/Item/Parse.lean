import PageSheet.Item.Prelude
namespace PageSheet

/-!
# Parsing

Parsing takes one token at a time.  Between tokens it keeps the blocks that are
open, the items that are complete in the innermost block, and the statement that
is being read, if there is one.

A statement runs up to a left brace, a semicolon or a right brace outside its
parentheses, or to the end of the source.  With a left brace it opens a block;
otherwise it is a declaration, or an at-rule without a block.  White space,
semicolons and comments between statements start none.
-/

/-- What stands before a block: a selector, or an at-word with its parameters. -/
inductive Header (Place : Type) where
  | rule (selector : Text) (place : Place)
  | atBlock (name : Text) (params : Text) (place : Place)
  deriving Repr, DecidableEq

namespace Header

/-- The item that a header makes of the items in its block. -/
def enclose
    (children : List (Item Place)) :
    Header Place → Item Place
  | .rule selector place => .rule selector children place
  | .atBlock name params place => .atBlock name params children place

end Header

/-- A statement that is being read. -/
structure Pending (Place : Type) where
  /-- The name, for an at-rule. -/
  atName : Option Text
  /-- The place of the first token. -/
  place : Place
  /-- The lexemes so far, the latest first, without the at-word. -/
  lexemes : List Lexeme
  /-- The places of the parentheses that are open, the innermost first. -/
  parens : List Place
  deriving Repr, DecidableEq

namespace Pending

/-- A statement that starts at a place. -/
def start
    (atName : Option Text)
    (place : Place) :
    Pending Place where
  atName := atName
  place := place
  lexemes := []
  parens := []

/-- The prelude in source order. -/
def prelude (pending : Pending Place) : List Lexeme :=
  pending.lexemes.reverse

/-- The parentheses that are open behind one more lexeme. -/
def parensAfter
    (parens : List Place)
    (place : Place) :
    Lexeme → List Place
  | .leftParen => place :: parens
  | .rightParen => parens.tail
  | _ => parens

/-- A statement with one more token in its prelude. -/
def extend
    (pending : Pending Place)
    (token : Token Place) :
    Pending Place where
  atName := pending.atName
  place := pending.place
  lexemes := token.lexeme :: pending.lexemes
  parens := parensAfter pending.parens token.place token.lexeme

/-- The item that a statement without a block is. -/
def item (pending : Pending Place) : Except (Failure Fault Place) (Item Place) :=
  match pending.atName with
  | some name =>
      .ok (.atStatement name (Prelude.text pending.prelude) pending.place)
  | none =>
      (Prelude.declaration pending.prelude pending.place).map .declaration

/-- The header that a statement is, for the left brace behind it. -/
def header
    (pending : Pending Place)
    (brace : Place) :
    Except (Failure Fault Place) (Header Place) :=
  match pending.atName with
  | some name =>
      .ok (.atBlock name (Prelude.text pending.prelude) pending.place)
  | none =>
      if Prelude.text pending.prelude = [] then
        .error ⟨.missingSelector, brace⟩
      else
        .ok (.rule (Prelude.text pending.prelude) pending.place)

end Pending

/-- A block that is open. -/
structure OpenBlock (Place : Type) where
  /-- The items before the block in the block around it, the latest first. -/
  before : List (Item Place)
  header : Header Place
  /-- The place of the left brace. -/
  brace : Place
  deriving Repr

/-- What is known of a style sheet behind some of its tokens. -/
structure Progress (Place : Type) where
  /-- The blocks that are open, the innermost first. -/
  blocks : List (OpenBlock Place)
  /-- The complete items of the innermost block, the latest first. -/
  items : List (Item Place)
  pending : Option (Pending Place)
  deriving Repr

namespace Progress

/-- Nothing is known before the first token. -/
def initial : Progress Place where
  blocks := []
  items := []
  pending := none

/-- Add a complete item to the innermost block. -/
def add
    (progress : Progress Place)
    (item : Item Place) :
    Progress Place where
  blocks := progress.blocks
  items := item :: progress.items
  pending := none

/-- Leave a statement as it is and go on reading it. -/
def wait
    (progress : Progress Place)
    (pending : Pending Place) :
    Progress Place where
  blocks := progress.blocks
  items := progress.items
  pending := some pending

/-- End a statement that has no block. -/
def endStatement
    (progress : Progress Place)
    (pending : Pending Place) :
    Except (Failure Fault Place) (Progress Place) :=
  pending.item.map progress.add

/-- Open the block of a statement. -/
def openBlock
    (progress : Progress Place)
    (pending : Pending Place)
    (brace : Place) :
    Except (Failure Fault Place) (Progress Place) :=
  (pending.header brace).map fun header =>
    ⟨⟨progress.items, header, brace⟩ :: progress.blocks, [], none⟩

/-- Close the innermost block. -/
def closeBlock
    (progress : Progress Place)
    (brace : Place) :
    Except (Failure Fault Place) (Progress Place) :=
  match progress.blocks with
  | [] => .error ⟨.unexpectedRightBrace, brace⟩
  | block :: blocks =>
      .ok ⟨blocks, block.header.enclose progress.items.reverse :: block.before, none⟩

/-- Take one token of a statement. -/
def continueStatement
    (progress : Progress Place)
    (pending : Pending Place)
    (token : Token Place) :
    Except (Failure Fault Place) (Progress Place) :=
  match token.lexeme, pending.parens with
  | .leftBrace, [] => progress.openBlock pending token.place
  | .semicolon, [] => progress.endStatement pending
  | .rightBrace, [] => do
      let ended ← progress.endStatement pending
      ended.closeBlock token.place
  | _, _ => .ok (progress.wait (pending.extend token))

/-- Take one token between statements. -/
def startStatement
    (progress : Progress Place)
    (token : Token Place) :
    Except (Failure Fault Place) (Progress Place) :=
  match token.lexeme with
  | .whitespace _ => .ok progress
  | .semicolon => .ok progress
  | .endOfSource => .ok progress
  | .comment text => .ok (progress.add (.comment text))
  | .rightBrace => progress.closeBlock token.place
  | .atWord name => .ok (progress.wait (.start (some name) token.place))
  | _ => progress.continueStatement (.start none token.place) token

/-- Take one token. -/
def step
    (progress : Progress Place)
    (token : Token Place) :
    Except (Failure Fault Place) (Progress Place) :=
  match progress.pending with
  | none => progress.startStatement token
  | some pending => progress.continueStatement pending token

/-- Take the tokens of a list in order. -/
def steps
    (progress : Progress Place)
    (tokens : List (Token Place)) :
    Except (Failure Fault Place) (Progress Place) :=
  tokens.foldlM step progress

/-- End the statement that is being read, if there is one. -/
def settle (progress : Progress Place) :
    Except (Failure Fault Place) (Progress Place) :=
  match progress.pending with
  | none => .ok progress
  | some pending =>
      match pending.parens with
      | [] => progress.endStatement pending
      | paren :: _ => .error ⟨.unclosedBracket, paren⟩

/-- The items of a style sheet that ends here. -/
def finish (progress : Progress Place) :
    Except (Failure Fault Place) (List (Item Place)) := do
  let settled ← progress.settle
  match settled.blocks with
  | [] => .ok settled.items.reverse
  | block :: _ => .error ⟨.unclosedBlock, block.brace⟩

/-- Tokens are taken one by one. -/
theorem steps_cons
    (progress : Progress Place)
    (token : Token Place)
    (tokens : List (Token Place)) :
    progress.steps (token :: tokens) =
      (progress.step token).bind fun next => next.steps tokens :=
  List.foldlM_cons

/-- Tokens that are taken in two parts are taken one part after the other. -/
theorem steps_append
    (progress : Progress Place)
    (first second : List (Token Place)) :
    progress.steps (first ++ second) =
      (progress.steps first).bind fun next => next.steps second :=
  List.foldlM_append

end Progress

namespace Item

/-- The items that a list of tokens makes up. -/
def ofTokens (tokens : List (Token Place)) :
    Except (Failure Fault Place) (List (Item Place)) := do
  let progress ← Progress.initial.steps tokens
  progress.finish

/-- The items of a source text. -/
def ofSource (source : Text) :
    Except (Failure Fault Position) (List (Item Span)) :=
  match Token.scan source with
  | .error failure => .error ⟨.unclosed failure.fault, failure.place⟩
  | .ok tokens => (ofTokens tokens).mapError (Failure.relocate Span.start)

end Item

end PageSheet
