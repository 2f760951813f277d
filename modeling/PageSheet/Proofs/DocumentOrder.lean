import PageSheet.Proofs.Outcome
import PageSheet.Proofs.Tiling
import PageSheet.Proofs.Trails
namespace PageSheet

/-!
# Places are in document order

An item begins with the first token of its statement, and no two items begin with the same
one: a statement takes this token before any item in its block or behind it is begun.  So
the beginnings of the items of a sheet, each before those of the items in it, are some of
the tokens of the sheet in their order, and the places of tokens ascend.
-/

namespace Lexeme

/-- Whether a lexeme is an at-word. -/
def isAtWord : Lexeme → Bool
  | .atWord _ => true
  | _ => false

/-- Whether a lexeme can be the first one of an item that is no comment. -/
def beginsItem : Lexeme → Bool
  | .whitespace _ => false
  | .comment _ => false
  | .semicolon => false
  | .leftBrace => false
  | .rightBrace => false
  | .endOfSource => false
  | _ => true

end Lexeme

/-- Where an item begins, and whether it begins with an at-word. -/
structure Beginning (Place : Type) where
  place : Place
  isAtRule : Bool
  deriving Repr, DecidableEq

/-- The beginning of an item that a token can be the first one of. -/
def Token.beginning? (token : Token Place) : Option (Beginning Place) :=
  if token.lexeme.beginsItem then some ⟨token.place, token.lexeme.isAtWord⟩ else none

theorem Token.of_beginning?
    {token : Token Place}
    {beginning : Beginning Place}
    (begins : token.beginning? = some beginning) :
    token.lexeme.beginsItem = true ∧
      beginning = ⟨token.place, token.lexeme.isAtWord⟩ := by
  unfold beginning? at begins
  split at begins
  · next isFirst =>
      cases begins
      exact ⟨isFirst, rfl⟩
  · cases begins

/-- The beginning of the item that a header is for. -/
def Header.beginning : Header Place → Beginning Place
  | .rule _ place => ⟨place, false⟩
  | .atBlock _ _ place => ⟨place, true⟩

/-- The beginning of a statement that is being read. -/
def Pending.beginning (pending : Pending Place) : Beginning Place where
  place := pending.place
  isAtRule := pending.atName.isSome

namespace Item

mutual

/-- The beginnings of an item and of the items in it, its own one first; a comment has none. -/
def beginnings : Item Place → List (Beginning Place)
  | .rule _ children place => ⟨place, false⟩ :: beginningsIn children
  | .declaration stated => [⟨stated.place, false⟩]
  | .atStatement _ _ place => [⟨place, true⟩]
  | .atBlock _ _ children place => ⟨place, true⟩ :: beginningsIn children
  | .comment _ => []

/-- The beginnings of items and of the items in them, in document order. -/
def beginningsIn : List (Item Place) → List (Beginning Place)
  | [] => []
  | item :: rest => item.beginnings ++ beginningsIn rest

end

theorem beginningsIn_append
    (first second : List (Item Place)) :
    beginningsIn (first ++ second) = beginningsIn first ++ beginningsIn second := by
  induction first with
  | nil =>
      rfl
  | cons item rest inductionHypothesis =>
      rw [List.cons_append, beginningsIn, beginningsIn, inductionHypothesis, List.append_assoc]

/-- One more item at the end is begun behind all others. -/
theorem beginningsIn_concat
    (items : List (Item Place))
    (item : Item Place) :
    beginningsIn (items ++ [item]) = beginningsIn items ++ item.beginnings := by
  rw [beginningsIn_append, beginningsIn, beginningsIn, List.append_nil]

mutual

theorem declarations_sublist_beginnings
    (item : Item Place) :
    (item.declarations.map fun stated => (⟨stated.place, false⟩ : Beginning Place)).Sublist
      item.beginnings := by
  cases item with
  | rule selector children place =>
      exact (declarationsIn_sublist_beginningsIn children).cons _
  | atBlock name params children place =>
      exact (declarationsIn_sublist_beginningsIn children).cons _
  | declaration stated =>
      exact List.Sublist.refl _
  | _ =>
      exact List.nil_sublist _

/-- The declarations of items are begun in the order in which they are listed. -/
theorem declarationsIn_sublist_beginningsIn
    (items : List (Item Place)) :
    ((declarationsIn items).map fun stated => (⟨stated.place, false⟩ : Beginning Place)).Sublist
      (beginningsIn items) := by
  cases items with
  | nil =>
      exact List.Sublist.refl _
  | cons item rest =>
      rw [declarationsIn, beginningsIn, List.map_append]
      exact (declarations_sublist_beginnings item).append
        (declarationsIn_sublist_beginningsIn rest)

end

end Item

theorem Header.beginnings_enclose
    (children : List (Item Place))
    (header : Header Place) :
    (header.enclose children).beginnings = header.beginning :: Item.beginningsIn children := by
  cases header <;> rfl

namespace Pending

variable {pending : Pending Place}

/-- A statement without a block begins where it was begun. -/
theorem beginnings_of_item
    {item : Item Place}
    (stated : pending.item = .ok item) :
    item.beginnings = [pending.beginning] := by
  obtain ⟨atName, place, lexemes, parens⟩ := pending
  cases atName with
  | some name =>
      cases stated
      rfl
  | none =>
      obtain ⟨declaration, states, rfl⟩ := exists_of_map_eq_ok stated
      unfold Prelude.declaration at states
      split at states
      · cases states
      split at states
      · cases states
      · cases states
        rfl

theorem beginning_of_header
    {brace : Place}
    {header : Header Place}
    (headed : pending.header brace = .ok header) :
    header.beginning = pending.beginning := by
  obtain ⟨atName, place, lexemes, parens⟩ := pending
  cases atName with
  | some name =>
      cases headed
      rfl
  | none =>
      unfold Pending.header at headed
      dsimp only at headed
      split at headed
      · cases headed
      · cases headed
        rfl

end Pending

/-- The beginnings that come with an open block: those before it, and its own one. -/
def OpenBlock.beginnings (block : OpenBlock Place) : List (Beginning Place) :=
  Item.beginningsIn block.before.reverse ++ [block.header.beginning]

namespace Progress

/-- The beginnings of what is complete and of the blocks that are open. -/
def begun (progress : Progress Place) : List (Beginning Place) :=
  progress.blocks.reverse.flatMap OpenBlock.beginnings
    ++ Item.beginningsIn progress.items.reverse

/-- The beginnings of all that was begun, the statement that is being read included. -/
def beginnings (progress : Progress Place) : List (Beginning Place) :=
  progress.begun ++ (progress.pending.map Pending.beginning).toList

section Step

variable {progress next : Progress Place} {pending : Pending Place} {token : Token Place}

theorem begun_add
    (progress : Progress Place)
    (item : Item Place) :
    (progress.add item).begun = progress.begun ++ item.beginnings := by
  simp only [begun, add, List.reverse_cons, Item.beginningsIn_concat, List.append_assoc]

theorem beginnings_endStatement
    (ended : progress.endStatement pending = .ok next) :
    next.pending = none ∧ next.begun = progress.begun ++ [pending.beginning] := by
  obtain ⟨item, stated, rfl⟩ := exists_of_map_eq_ok ended
  rw [begun_add, Pending.beginnings_of_item stated]
  exact ⟨rfl, rfl⟩

theorem beginnings_openBlock
    {brace : Place}
    (opened : progress.openBlock pending brace = .ok next) :
    next.beginnings = progress.begun ++ [pending.beginning] := by
  obtain ⟨header, headed, rfl⟩ := exists_of_map_eq_ok opened
  simp [beginnings, begun, OpenBlock.beginnings, Item.beginningsIn,
    Pending.beginning_of_header headed]

theorem beginnings_closeBlock
    {brace : Place}
    (closed : progress.closeBlock brace = .ok next) :
    next.beginnings = progress.begun := by
  obtain ⟨blocks, items, pending⟩ := progress
  cases blocks with
  | nil =>
      cases closed
  | cons block others =>
      cases closed
      simp [beginnings, begun, OpenBlock.beginnings, Item.beginningsIn_concat,
        Header.beginnings_enclose]

/-- A statement stays begun where it is, whatever token it takes. -/
theorem beginnings_continueStatement
    (taken : progress.continueStatement pending token = .ok next) :
    next.beginnings = progress.begun ++ [pending.beginning] := by
  unfold continueStatement at taken
  split at taken
  · exact beginnings_openBlock taken
  · obtain ⟨idle, grown⟩ := beginnings_endStatement taken
    rw [beginnings, idle, grown]
    exact List.append_nil _
  · obtain ⟨ended, ends, closes⟩ := exists_of_bind_eq_ok taken
    rw [beginnings_closeBlock closes]
    exact (beginnings_endStatement ends).2
  · cases taken
    rfl

/-- Between statements nothing is begun but by the token that is taken. -/
theorem beginnings_startStatement
    (taken : progress.startStatement token = .ok next)
    (idle : progress.pending = none) :
    next.beginnings = progress.begun ++ token.beginning?.toList := by
  have stays : progress.beginnings = progress.begun := by
    rw [beginnings, idle]
    exact List.append_nil _
  have begins := @beginnings_continueStatement _ progress next (.start none token.place) token
  obtain ⟨lexeme, place⟩ := token
  cases lexeme with
  | whitespace | semicolon | endOfSource =>
      cases taken
      exact stays.trans (List.append_nil _).symm
  | comment text =>
      cases taken
      rw [beginnings, begun_add, List.append_assoc]
      rfl
  | rightBrace =>
      exact (beginnings_closeBlock taken).trans (List.append_nil _).symm
  | atWord name =>
      cases taken
      rfl
  | leftBrace =>
      cases taken
  | _ =>
      -- A statement is begun at the place of the token and takes the same token at once.
      exact begins taken

/-- One token begins at most one item, and its own place is where the item begins. -/
theorem beginnings_step
    (taken : progress.step token = .ok next) :
    ∃ added,
      next.beginnings = progress.beginnings ++ added ∧
        added.Sublist token.beginning?.toList := by
  obtain ⟨blocks, items, pending⟩ := progress
  cases pending with
  | none =>
      refine ⟨token.beginning?.toList, ?_, List.Sublist.refl _⟩
      rw [beginnings_startStatement taken rfl, beginnings]
      exact congrArg (· ++ _) (List.append_nil _).symm
  | some pending =>
      refine ⟨[], ?_, List.nil_sublist _⟩
      rw [beginnings_continueStatement taken, List.append_nil]
      rfl

/-- What was begun along some tokens was begun by some of them, in their order. -/
theorem beginnings_steps
    {tokens : List (Token Place)}
    (taken : progress.steps tokens = .ok next) :
    ∃ added,
      next.beginnings = progress.beginnings ++ added ∧
        added.Sublist (tokens.filterMap Token.beginning?) := by
  induction tokens generalizing progress with
  | nil =>
      cases taken
      exact ⟨[], (List.append_nil _).symm, List.Sublist.refl _⟩
  | cons token rest inductionHypothesis =>
      rw [steps_cons] at taken
      obtain ⟨between, first, others⟩ := exists_of_bind_eq_ok taken
      obtain ⟨one, grown, isFirst⟩ := beginnings_step first
      obtain ⟨more, grownMore, areOthers⟩ := inductionHypothesis others
      refine ⟨one ++ more, by rw [grownMore, grown, List.append_assoc], ?_⟩
      have cut :
          (token :: rest).filterMap Token.beginning? =
            token.beginning?.toList ++ rest.filterMap Token.beginning? := by
        rw [List.filterMap_cons]
        cases token.beginning? <;> rfl
      rw [cut]
      exact isFirst.append areOthers

/-- The items of a sheet begin where they were begun. -/
theorem beginningsIn_of_finish
    {items : List (Item Place)}
    (finishes : progress.finish = .ok items) :
    Item.beginningsIn items = progress.beginnings := by
  obtain ⟨settled, settles, unfolds⟩ := exists_of_bind_eq_ok finishes
  have same : settled.begun = progress.beginnings := by
    obtain ⟨blocks, complete, pending⟩ := progress
    cases pending with
    | none =>
        cases settles
        exact (List.append_nil _).symm
    | some pending =>
        obtain ⟨atName, place, lexemes, parens⟩ := pending
        cases parens with
        | nil =>
            exact (beginnings_endStatement settles).2
        | cons paren others =>
            cases settles
  obtain ⟨blocks, complete, pending⟩ := settled
  cases blocks with
  | nil =>
      cases unfolds
      exact same
  | cons block others =>
      cases unfolds

end Step

end Progress

/-- The items that tokens make up begin with some of them, in their order. -/
theorem Item.beginningsIn_sublist
    {tokens : List (Token Place)}
    {items : List (Item Place)}
    (parsed : ofTokens tokens = .ok items) :
    (beginningsIn items).Sublist (tokens.filterMap Token.beginning?) := by
  obtain ⟨progress, taken, finishes⟩ := exists_of_bind_eq_ok parsed
  obtain ⟨added, grown, areTokens⟩ := Progress.beginnings_steps taken
  rw [Progress.beginningsIn_of_finish finishes, grown]
  exact areTokens

namespace Token.Covers

variable {source : Text} {offset : Nat} {tokens : List (Token Span)}

theorem le_start
    (covers : Covers source offset tokens) :
    ∀ token ∈ tokens, offset ≤ token.place.start.offset := by
  induction covers with
  | finish =>
      exact List.forall_mem_singleton.mpr (Nat.le_refl _)
  | @piece token rest _ positive _ _ inductionHypothesis =>
      refine List.forall_mem_cons.mpr ⟨Nat.le_refl _, fun later member => ?_⟩
      exact Nat.le_of_lt (Nat.lt_of_lt_of_le positive (inductionHypothesis later member))

/-- Tokens that cover a source start one behind the other. -/
theorem ascending
    (covers : Covers source offset tokens) :
    tokens.Pairwise fun one other => one.place.start.offset < other.place.start.offset := by
  induction covers with
  | finish =>
      exact List.pairwise_singleton _ _
  | @piece token rest _ positive _ behind inductionHypothesis =>
      refine List.pairwise_cons.mpr ⟨fun later member => ?_, inductionHypothesis⟩
      exact Nat.lt_of_lt_of_le positive (behind.le_start later member)

end Token.Covers

namespace Item

/--
What it means that the items of a source are in document order: each begins with a token
of its own, behind those of the items before it and around it.
-/
structure InDocumentOrder
    (source : Text)
    (items : List (Item Span)) : Prop where
  ascending :
    (beginningsIn items).Pairwise fun one other =>
      one.place.start.offset < other.place.start.offset
  /-- At-rules begin with at-words, and rules and declarations with other lexemes. -/
  begins :
    ∃ tokens,
      Token.scan source = .ok tokens ∧
        ∀ beginning ∈ beginningsIn items,
          ∃ token ∈ tokens,
            token.place = beginning.place ∧
              token.lexeme.beginsItem = true ∧
                token.lexeme.isAtWord = beginning.isAtRule
  /-- Every declaration of the tree is listed, and none twice. -/
  listed :
    (trailsIn [] 0 items).Nodup ∧
      (trailsIn [] 0 items).filterMap stated? = declarationsIn items
  listedInOrder :
    (declarationsIn items).Pairwise fun one other =>
      one.place.start.offset < other.place.start.offset

/-- The items of every source are in document order. -/
theorem inDocumentOrder_of_ofSource
    {source : Text}
    {items : List (Item Span)}
    (parsed : ofSource source = .ok items) :
    InDocumentOrder source items := by
  obtain ⟨tokens, scanned, made⟩ := exists_tokens_of_ofSource parsed
  have areTokens := beginningsIn_sublist made
  have covers : Token.Covers source 0 tokens :=
    @Token.covers_of_scanFrom Position.start source [] tokens scanned rfl
  have tokensAscend :
      (tokens.filterMap Token.beginning?).Pairwise fun one other =>
        one.place.start.offset < other.place.start.offset := by
    refine covers.ascending.filterMap _ fun one other inOrder first isFirst last isLast => ?_
    rw [(Token.of_beginning? isFirst).2, (Token.of_beginning? isLast).2]
    exact inOrder
  have ascending := tokensAscend.sublist areTokens
  refine ⟨ascending, ⟨tokens, scanned, fun beginning member => ?_⟩,
    ⟨(listing_trailsIn items [] 0).nodup, filterMap_stated?_trailsIn items [] 0⟩, ?_⟩
  · obtain ⟨token, isToken, begins⟩ := List.mem_filterMap.mp (areTokens.subset member)
    obtain ⟨isFirst, rfl⟩ := Token.of_beginning? begins
    exact ⟨token, isToken, rfl, isFirst, rfl⟩
  · have listedInOrder := ascending.sublist (declarationsIn_sublist_beginningsIn items)
    rw [List.pairwise_map] at listedInOrder
    exact listedInOrder

/-- Statements that begin with a string, a parenthesis, a colon and an at-word. -/
def manyFirst : Text :=
  "/*c*/a\x7b@m x\x7b\"s\":d;(k):l\x7d;;e:f\x7d @i;:root\x7b\x7d".toList

/-- An at-rule stands in a rule and has declarations in it, and more items follow them. -/
theorem inDocumentOrder_of_ofSource_manyFirst :
    ∃ items,
      ofSource manyFirst = .ok items ∧
        InDocumentOrder manyFirst items ∧
          (beginningsIn items).map
              (fun beginning => (beginning.place.start.offset, beginning.isAtRule)) =
            [ (5, false), (7, true), (12, false), (18, false), (26, false), (31, true),
              (34, false) ] := by
  have shown :
      (ofSource manyFirst).map
          (fun items => (beginningsIn items).map
            fun beginning => (beginning.place.start.offset, beginning.isAtRule)) =
        .ok
          [ (5, false), (7, true), (12, false), (18, false), (26, false), (31, true),
            (34, false) ] := by
    decide +kernel
  obtain ⟨items, parsed, places⟩ := exists_of_map_eq_ok shown
  exact ⟨items, parsed, inDocumentOrder_of_ofSource parsed, places⟩

end Item

end PageSheet
