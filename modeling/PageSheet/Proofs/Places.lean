import PageSheet.Proofs.Conveying
namespace PageSheet

/-!
# Places do not matter

Describing the places of tokens in another way describes the places of the parsed
items, and of a failure, in the same way and changes nothing else.  So what a
list of tokens means can be told from its lexemes alone, and a page is the same
whatever its items say about their places.

Describing places is one of several ways to carry what the parser knows over to
another state.  `Progress.Carries` lists what such a way has to respect; a run of
the parser can then be carried over token by token.
-/

/-- A result with its places described in another way. -/
def relocated
    (describe : Place → Place')
    (carry : α → β) :
    Except (Failure Fault Place) α → Except (Failure Fault Place') β
  | .ok result => .ok (carry result)
  | .error failure => .error (failure.relocate describe)

/-- Results that are used one after the other can be relocated one by one. -/
theorem relocated_bind
    {describe : Place → Place'}
    {carry : α → β}
    {carryNext : α' → β'}
    (next : α → Except (Failure Fault Place) α')
    (next' : β → Except (Failure Fault Place') β')
    (agree :
      ∀ result, next' (carry result) = relocated describe carryNext (next result))
    (result : Except (Failure Fault Place) α) :
    (relocated describe carry result).bind next' =
      relocated describe carryNext (result.bind next) := by
  cases result with
  | ok value =>
      exact agree value
  | error failure =>
      rfl

namespace Progress

/--
What it means that a way to carry progress over commutes with the operations of the
parser, for tokens whose lexemes pass a test.
-/
structure Carries
    (describe : Place → Place')
    (passes : Lexeme → Bool)
    (carry : Progress Place → Progress Place')
    (carryPending : Pending Place → Pending Place') : Prop where
  pending :
    ∀ progress, (carry progress).pending = progress.pending.map carryPending
  parens :
    ∀ pending, (carryPending pending).parens = pending.parens.map describe
  starts :
    ∀ atName place, carryPending (.start atName place) = .start atName (describe place)
  extending :
    ∀ pending token, passes token.lexeme = true →
      (carryPending pending).extend (token.relocate describe) =
        carryPending (pending.extend token)
  waits :
    ∀ progress pending,
      (carry progress).wait (carryPending pending) = carry (progress.wait pending)
  remarks :
    ∀ progress text, passes (.comment text) = true →
      (carry progress).add (.comment text) = carry (progress.add (.comment text))
  ends :
    ∀ progress pending,
      (carry progress).endStatement (carryPending pending) =
        relocated describe carry (progress.endStatement pending)
  opens :
    ∀ progress pending brace,
      (carry progress).openBlock (carryPending pending) (describe brace) =
        relocated describe carry (progress.openBlock pending brace)
  closes :
    ∀ progress brace,
      (carry progress).closeBlock (describe brace) =
        relocated describe carry (progress.closeBlock brace)

namespace Carries

variable
  {describe : Place → Place'}
  {passes : Lexeme → Bool}
  {carry : Progress Place → Progress Place'}
  {carryPending : Pending Place → Pending Place'}
  (carries : Carries describe passes carry carryPending)
  (progress : Progress Place)

include carries

/-- The lexeme of a token decides what a statement does with it. -/
theorem continueStatement
    (pending : Pending Place)
    {token : Token Place}
    (passing : passes token.lexeme = true) :
    (carry progress).continueStatement (carryPending pending)
        (token.relocate describe) =
      relocated describe carry (progress.continueStatement pending token) := by
  have waits :
      (carry progress).wait ((carryPending pending).extend (token.relocate describe)) =
        carry (progress.wait (pending.extend token)) := by
    rw [carries.extending pending token passing, carries.waits]
  have parens := carries.parens pending
  obtain ⟨lexeme, place⟩ := token
  unfold Progress.continueStatement
  cases shape : pending.parens with
  | cons paren others =>
      rw [parens, shape]
      cases lexeme <;> exact congrArg Except.ok waits
  | nil =>
      rw [parens, shape]
      cases lexeme with
      | leftBrace =>
          exact carries.opens progress pending place
      | semicolon =>
          exact carries.ends progress pending
      | rightBrace =>
          have closes :=
            relocated_bind (fun ended : Progress Place => ended.closeBlock place)
              (fun ended : Progress Place' => ended.closeBlock (describe place))
              (fun ended => carries.closes ended place)
              (progress.endStatement pending)
          rw [← carries.ends] at closes
          exact closes
      | _ =>
          exact congrArg Except.ok waits

theorem startStatement
    {token : Token Place}
    (passing : passes token.lexeme = true) :
    (carry progress).startStatement (token.relocate describe) =
      relocated describe carry (progress.startStatement token) := by
  have begins := carries.continueStatement progress (.start none token.place) passing
  have closes := carries.closes progress token.place
  have waits := fun atName => carries.waits progress (.start atName token.place)
  simp only [carries.starts] at begins waits
  obtain ⟨lexeme, place⟩ := token
  cases lexeme with
  | whitespace | semicolon | endOfSource =>
      rfl
  | comment text =>
      exact congrArg Except.ok (carries.remarks progress text passing)
  | atWord name =>
      exact congrArg Except.ok (waits (some name))
  | rightBrace =>
      exact closes
  | _ =>
      exact begins

/-- Taking a token can be carried over. -/
theorem step
    {token : Token Place}
    (passing : passes token.lexeme = true) :
    (carry progress).step (token.relocate describe) =
      relocated describe carry (progress.step token) := by
  unfold Progress.step
  rw [carries.pending]
  cases progress.pending with
  | none =>
      exact carries.startStatement progress passing
  | some pending =>
      exact carries.continueStatement progress pending passing

/-- Taking tokens can be carried over one by one. -/
theorem steps
    {tokens : List (Token Place)}
    (passing : ∀ token ∈ tokens, passes token.lexeme = true) :
    (carry progress).steps (tokens.map (Token.relocate describe)) =
      relocated describe carry (progress.steps tokens) := by
  induction tokens generalizing progress with
  | nil =>
      rfl
  | cons token rest inductionHypothesis =>
      obtain ⟨first, others⟩ := List.forall_mem_cons.mp passing
      rw [List.map_cons, steps_cons, steps_cons, carries.step progress first]
      exact relocated_bind _ _ (fun next => inductionHypothesis next others)
        (progress.step token)

theorem settle :
    (carry progress).settle = relocated describe carry progress.settle := by
  have pending := carries.pending progress
  unfold Progress.settle
  rw [pending]
  cases progress.pending with
  | none =>
      rfl
  | some pending =>
      have parens := carries.parens pending
      cases shape : pending.parens with
      | nil =>
          rw [shape] at parens
          simp only [Option.map_some, parens, List.map_nil, shape]
          exact carries.ends progress pending
      | cons paren others =>
          rw [shape] at parens
          simp only [Option.map_some, parens, List.map_cons, shape]
          rfl

end Carries

end Progress

/-- A declaration with its place described in another way. -/
def Declaration.relocate
    (describe : Place → Place')
    (stated : Declaration Place) :
    Declaration Place' where
  property :=
    stated.property
  value :=
    stated.value
  place :=
    describe stated.place

namespace Item

mutual

/-- An item with its places described in another way. -/
def relocate
    (describe : Place → Place') :
    Item Place → Item Place'
  | .rule selector children place =>
      .rule selector (relocateIn describe children) (describe place)
  | .declaration stated => .declaration (stated.relocate describe)
  | .atStatement name params place => .atStatement name params (describe place)
  | .atBlock name params children place =>
      .atBlock name params (relocateIn describe children) (describe place)
  | .comment text => .comment text

/-- A list of items with their places described in another way. -/
def relocateIn
    (describe : Place → Place') :
    List (Item Place) → List (Item Place')
  | [] => []
  | item :: rest => item.relocate describe :: relocateIn describe rest

end

theorem relocateIn_eq_map
    (describe : Place → Place')
    (items : List (Item Place)) :
    relocateIn describe items = items.map (relocate describe) := by
  induction items with
  | nil =>
      rfl
  | cons item rest inductionHypothesis =>
      rw [relocateIn, inductionHypothesis, List.map_cons]

/-- A list of items that says nothing about places. -/
def bare (items : List (Item Place)) : List (Item Unit) :=
  relocateIn (fun _ => ()) items

end Item

/-- A header with its place described in another way. -/
def Header.relocate
    (describe : Place → Place') :
    Header Place → Header Place'
  | .rule selector place => .rule selector (describe place)
  | .atBlock name params place => .atBlock name params (describe place)

theorem Header.enclose_relocate
    (describe : Place → Place')
    (children : List (Item Place))
    (header : Header Place) :
    (header.relocate describe).enclose (Item.relocateIn describe children) =
      (header.enclose children).relocate describe := by
  cases header <;> rfl

namespace Pending

/-- A statement with its places described in another way. -/
def relocate
    (describe : Place → Place')
    (pending : Pending Place) :
    Pending Place' where
  atName :=
    pending.atName
  place :=
    describe pending.place
  lexemes :=
    pending.lexemes
  parens :=
    pending.parens.map describe

theorem extend_relocate
    (describe : Place → Place')
    (pending : Pending Place)
    (token : Token Place) :
    (pending.relocate describe).extend (token.relocate describe) =
      (pending.extend token).relocate describe := by
  obtain ⟨lexeme, place⟩ := token
  cases lexeme <;>
    simp [extend, relocate, Token.relocate, parensAfter]

theorem item_relocate
    (describe : Place → Place')
    (pending : Pending Place) :
    (pending.relocate describe).item =
      relocated describe (Item.relocate describe) pending.item := by
  unfold item
  cases named : pending.atName with
  | some name =>
      simp only [relocate, named]
      rfl
  | none =>
      simp only [relocate, named, prelude, Prelude.declaration]
      split
      · rfl
      · split <;> rfl

theorem header_relocate
    (describe : Place → Place')
    (pending : Pending Place)
    (brace : Place) :
    (pending.relocate describe).header (describe brace) =
      relocated describe (Header.relocate describe) (pending.header brace) := by
  unfold header
  have sameName : (pending.relocate describe).atName = pending.atName :=
    rfl
  rw [sameName]
  cases pending.atName with
  | some name =>
      rfl
  | none =>
      by_cases empty : Prelude.text pending.prelude = []
      · have same : Prelude.text (pending.relocate describe).prelude = [] :=
          empty
        rw [if_pos empty, if_pos same]
        rfl
      · have same : ¬ Prelude.text (pending.relocate describe).prelude = [] :=
          empty
        rw [if_neg empty, if_neg same]
        rfl

end Pending

/-- An open block with its places described in another way. -/
def OpenBlock.relocate
    (describe : Place → Place')
    (block : OpenBlock Place) :
    OpenBlock Place' where
  before :=
    Item.relocateIn describe block.before
  header :=
    block.header.relocate describe
  brace :=
    describe block.brace

namespace Progress

variable (describe : Place → Place') (progress : Progress Place)

/-- What is known of a sheet, with the places described in another way. -/
def relocate : Progress Place' where
  blocks :=
    progress.blocks.map (OpenBlock.relocate describe)
  items :=
    Item.relocateIn describe progress.items
  pending :=
    progress.pending.map (Pending.relocate describe)

theorem endStatement_relocate
    (pending : Pending Place) :
    (progress.relocate describe).endStatement (pending.relocate describe) =
      relocated describe (relocate describe) (progress.endStatement pending) := by
  unfold endStatement
  rw [pending.item_relocate describe]
  cases pending.item <;> rfl

theorem openBlock_relocate
    (pending : Pending Place)
    (brace : Place) :
    (progress.relocate describe).openBlock (pending.relocate describe)
        (describe brace) =
      relocated describe (relocate describe)
        (progress.openBlock pending brace) := by
  unfold openBlock
  rw [pending.header_relocate describe]
  cases pending.header brace <;> rfl

theorem closeBlock_relocate
    (brace : Place) :
    (progress.relocate describe).closeBlock (describe brace) =
      relocated describe (relocate describe) (progress.closeBlock brace) := by
  obtain ⟨blocks, items, pending⟩ := progress
  cases blocks with
  | nil =>
      rfl
  | cons block blocks =>
      have children :
          (Item.relocateIn describe items).reverse =
            Item.relocateIn describe items.reverse := by
        simp only [Item.relocateIn_eq_map, List.map_reverse]
      simp only [closeBlock, relocate, List.map_cons, relocated, children]
      rw [OpenBlock.relocate, Header.enclose_relocate]
      rfl

/-- Describing places in another way respects all that the parser does. -/
theorem carries_relocate :
    Carries describe (fun _ => true) (relocate describe) (Pending.relocate describe) where
  pending := fun _ => rfl
  parens := fun _ => rfl
  starts := fun _ _ => rfl
  extending := fun pending token _ => pending.extend_relocate describe token
  waits := fun _ _ => rfl
  remarks := fun _ _ _ => rfl
  ends := endStatement_relocate describe
  opens := openBlock_relocate describe
  closes := closeBlock_relocate describe

theorem finish_relocate :
    (progress.relocate describe).finish =
      relocated describe (Item.relocateIn describe) progress.finish := by
  unfold finish
  rw [(carries_relocate describe).settle]
  refine relocated_bind _ _ (fun settled => ?_) progress.settle
  obtain ⟨blocks, items, pending⟩ := settled
  cases blocks with
  | nil =>
      simp [relocate, relocated, Item.relocateIn_eq_map]
  | cons block blocks =>
      rfl

end Progress

namespace Item

/-- Parsing commutes with describing places in another way. -/
theorem ofTokens_relocate
    (describe : Place → Place')
    (tokens : List (Token Place)) :
    ofTokens (tokens.map (Token.relocate describe)) =
      relocated describe (relocateIn describe) (ofTokens tokens) := by
  have begins :
      (Progress.initial : Progress Place).relocate describe = .initial :=
    rfl
  have steps :=
    (Progress.carries_relocate describe).steps .initial (fun token (_ : token ∈ tokens) => rfl)
  unfold ofTokens
  rw [← begins, steps]
  exact relocated_bind _ _ (Progress.finish_relocate describe) _

/-- The items of a source are told by the lexemes of the source, places aside. -/
theorem ofSource_eq_ofTokens
    {source : Text}
    {tokens : List (Token Span)}
    (scanned : Token.scan source = .ok tokens)
    {items : List (Item Unit)} :
    (∃ parsed, ofSource source = .ok parsed ∧ bare parsed = items) ↔
      ofTokens (tokens.map fun token => ⟨token.lexeme, ()⟩) = .ok items := by
  have told := ofTokens_relocate (fun _ => ()) tokens
  have same :
      tokens.map (Token.relocate fun _ => ()) =
        tokens.map fun token => (⟨token.lexeme, ()⟩ : Token Unit) :=
    rfl
  have parsing :
      ofSource source = (ofTokens tokens).mapError (Failure.relocate Span.start) := by
    simp only [ofSource, scanned]
  rw [← same, told, parsing]
  cases ofTokens tokens with
  | ok parsed =>
      constructor
      · rintro ⟨items, accepted, rfl⟩
        cases accepted
        rfl
      · intro accepted
        exact ⟨parsed, rfl, Except.ok.inj accepted⟩
  | error failure =>
      constructor
      · rintro ⟨items, accepted, -⟩
        cases accepted
      · intro accepted
        cases accepted

end Item

namespace Item

variable (describe : Place → Place')

mutual

theorem declarations_relocate
    (item : Item Place) :
    (item.relocate describe).declarations =
      item.declarations.map (Declaration.relocate describe) := by
  cases item with
  | rule selector children place =>
      exact declarationsIn_relocateIn children
  | atBlock name params children place =>
      exact declarationsIn_relocateIn children
  | _ =>
      rfl

theorem declarationsIn_relocateIn
    (items : List (Item Place)) :
    declarationsIn (relocateIn describe items) =
      (declarationsIn items).map (Declaration.relocate describe) := by
  cases items with
  | nil =>
      rfl
  | cons item rest =>
      rw [relocateIn, declarationsIn, declarationsIn, declarations_relocate item,
        declarationsIn_relocateIn rest, List.map_append]

end

end Item

theorem Variables.ofItems_relocateIn
    (describe : Place → Place')
    (items : List (Item Place)) :
    Variables.ofItems (Item.relocateIn describe items) = Variables.ofItems items := by
  unfold Variables.ofItems
  rw [Item.declarationsIn_relocateIn, List.foldl_map]
  rfl

namespace Element

variable (describe : Place → Place') (table : Variables)

theorem contentOf?_relocate
    (item : Item Place) :
    contentOf? table (item.relocate describe) = contentOf? table item := by
  cases item <;> rfl

/-- What an item gives to an element does not depend on places. -/
theorem conveys_relocate :
    Conveys table table (fun item => some (Item.relocate describe item)) where
  contents := contentOf?_relocate describe table
  attributes := by
    intro item
    cases item with
    | rule selector children place =>
        rw [Item.relocate, Item.relocateIn_eq_map, ← List.filterMap_eq_map']
        exact attributeOf?_rule_carried (contentOf?_relocate describe table)
          selector children place (describe place)
    | _ =>
        rfl
  rules := by
    intro selector children place _
    refine ⟨describe place, ?_⟩
    rw [Item.relocate, Item.relocateIn_eq_map, List.filterMap_eq_map']
  others := by
    intro item item' notRule carried
    cases carried
    cases item <;> exact notRule

/-- The elements of a sheet are the same whatever its items say about places. -/
theorem ofItems_relocateIn
    (items : List (Item Place)) :
    ofItems table (Item.relocateIn describe items) = ofItems table items := by
  rw [Item.relocateIn_eq_map, ← List.filterMap_eq_map']
  refine (conveys_relocate describe table).ofItems (fun item notRule => ?_) items
  cases item with
  | rule selector children place =>
      exact ofItem?_rule_of_not_isElement notRule table table children _ place (describe place)
  | _ =>
      rfl

end Element

/-- A page is the same whatever its items say about places. -/
theorem Page.ofItems_relocateIn
    (describe : Place → Place')
    (items : List (Item Place)) :
    Page.ofItems (Item.relocateIn describe items) = Page.ofItems items := by
  unfold Page.ofItems
  rw [Variables.ofItems_relocateIn, Element.ofItems_relocateIn]

/-- Items that are the same but for their places make up the same page. -/
theorem Page.ofItems_eq_of_bare
    {first : List (Item Place)}
    {second : List (Item Place')}
    (same : Item.bare first = Item.bare second) :
    Page.ofItems first = Page.ofItems second := by
  rw [← Page.ofItems_relocateIn (fun _ => ()) first,
    ← Page.ofItems_relocateIn (fun _ => ()) second]
  exact congrArg Page.ofItems same

end PageSheet
