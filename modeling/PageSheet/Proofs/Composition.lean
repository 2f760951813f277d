import PageSheet.Proofs.Outcome
import PageSheet.Proofs.Rebuilding
namespace PageSheet

/-!
# Sheets in a row

A source that parses can be put before another source with a semicolon between them.
Behind the semicolon the parser is where it starts, but for the items that it already
has, and these stay untouched below all that it does: so the other source comes to
what it comes to alone, a sheet or a fault.  In front of a right brace the first source
is a block, whatever ends its last statement.  Without variables the page of two sheets
is the page of the one followed by the page of the other.
-/

/-- Open blocks with more items, the latest first, at the start of the sheet around them. -/
def OpenBlock.after (base : List (Item Place)) :
    List (OpenBlock Place) → List (OpenBlock Place)
  | [] => []
  | [block] => [⟨block.before ++ base, block.header, block.brace⟩]
  | block :: next :: others => block :: after base (next :: others)

namespace Progress

/-- What is known of a sheet with more items, the latest first, at its start. -/
def after
    (base : List (Item Place))
    (progress : Progress Place) :
    Progress Place where
  blocks :=
    OpenBlock.after base progress.blocks
  items :=
    match progress.blocks with
    | [] => progress.items ++ base
    | _ :: _ => progress.items
  pending :=
    progress.pending

section Base

variable (base : List (Item Place)) (progress : Progress Place)

theorem add_after
    (item : Item Place) :
    (progress.after base).add item = (progress.add item).after base := by
  obtain ⟨blocks, items, pending⟩ := progress
  cases blocks <;> rfl

/-- The parser does not look at the items that a sheet starts with. -/
theorem carries_after :
    @Carries Place Place id (fun _ => true) (after base) id where
  pending := fun _ => Option.map_id_apply.symm
  parens := fun pending => (List.map_id pending.parens).symm
  starts := fun _ _ => rfl
  extending := fun _ _ _ => rfl
  waits := fun _ _ => rfl
  remarks := fun progress text _ => progress.add_after base (.comment text)
  ends := by
    intro progress pending
    unfold endStatement
    rw [id_eq]
    cases pending.item with
    | error failure =>
        rfl
    | ok item =>
        exact congrArg Except.ok (progress.add_after base item)
  opens := by
    intro progress pending brace
    obtain ⟨blocks, items, before⟩ := progress
    unfold openBlock
    rw [id_eq, id_eq]
    cases pending.header brace with
    | error failure =>
        rfl
    | ok header =>
        cases blocks <;> rfl
  closes := by
    intro progress brace
    obtain ⟨blocks, items, pending⟩ := progress
    cases blocks with
    | nil =>
        rfl
    | cons block others =>
        cases others <;> rfl

theorem finish_after :
    (progress.after base).finish =
      relocated id (fun items => base.reverse ++ items) progress.finish := by
  unfold finish
  rw [(carries_after base).settle]
  refine relocated_bind _ _ (fun settled => ?_) progress.settle
  obtain ⟨blocks, items, pending⟩ := settled
  cases blocks with
  | nil =>
      exact congrArg Except.ok List.reverse_append
  | cons block others =>
      cases others <;> rfl

end Base

/-- Outside parentheses a semicolon settles. -/
theorem step_semicolon_of_closed
    {progress : Progress Unit}
    (closed : ∀ pending ∈ progress.pending, pending.parens = []) :
    progress.step (.bare .semicolon) = progress.settle := by
  obtain ⟨blocks, items, pending⟩ := progress
  cases pending with
  | none =>
      rfl
  | some pending =>
      have outside := closed pending rfl
      exact (step_semicolon ⟨blocks, items, none⟩ outside).trans
        (settle_wait ⟨blocks, items, none⟩ outside).symm

/-- Behind a sheet and a semicolon the parser starts anew, with the items of the sheet. -/
theorem steps_of_grammar_semicolon
    {lexemes : List Lexeme}
    {items : List (Item Unit)}
    (grammar : Grammar lexemes items) :
    initial.steps ((lexemes ++ [Lexeme.semicolon]).map Token.bare) =
      .ok (initial.after items.reverse) := by
  obtain ⟨between, reaches, settles⟩ :=
    exists_of_bind_eq_ok (@settle_of_grammar _ _ grammar initial rfl)
  have step := step_semicolon_of_closed (closed_of_settle settles)
  have start :
      ⟨initial.blocks, items.reverse ++ initial.items, none⟩ =
        initial.after items.reverse := by
    simp [initial, after, OpenBlock.after]
  rw [List.map_append, steps_append, reaches]
  show between.steps [.bare .semicolon] = _
  rw [steps_cons, step, settles, start]
  rfl

end Progress

namespace Item

open Lexeme

/-- What stands behind a sheet and a semicolon comes to what it comes to alone. -/
theorem ofLexemes_append_semicolon
    {lexemes : List Lexeme}
    {items : List (Item Unit)}
    (grammar : Grammar lexemes items)
    (more : List Lexeme) :
    ofLexemes (lexemes ++ [.semicolon] ++ more) =
      relocated id (fun others => items ++ others) (ofLexemes more) := by
  have start := Progress.steps_of_grammar_semicolon grammar
  have later :=
    (Progress.carries_after items.reverse).steps .initial
      (fun token (_ : token ∈ more.map Token.bare) => rfl)
  have finish := Progress.finish_after items.reverse
  rw [List.reverse_reverse] at finish
  have same : (more.map Token.bare).map (Token.relocate id) = more.map Token.bare :=
    List.map_id _
  rw [same] at later
  unfold ofLexemes
  rw [List.map_append, Progress.steps_append, start]
  show ((Progress.initial.after items.reverse).steps _).bind Progress.finish = _
  rw [later]
  exact relocated_bind _ _ finish _

/-- What stands behind a parsed source and a semicolon comes to what it comes to alone. -/
theorem outcome_append_semicolon
    {first : Text}
    {items : List (Item Span)}
    (parsed : ofSource first = .ok items)
    (paired : Text.endsUnpaired first = false)
    (second : Text) :
    outcome (first ++ ';' :: second) =
      relocated id (fun others => bare items ++ others) (outcome second) := by
  obtain ⟨lexemes, alone, grammar⟩ := exists_grammar_of_ofSource parsed
  have isMark : ofMark? ';' = some .semicolon :=
    rfl
  have reads := alone.readsAs_mark paired isMark second
  rw [List.append_assoc, List.singleton_append] at reads
  rcases exists_reads_or_leavesOpen second with ⟨more, used⟩ | ⟨piece, leaves⟩
  · rw [outcome_of_reads (reads.append used), outcome_of_reads used]
    exact ofLexemes_append_semicolon grammar more
  · rw [outcome_of_leavesOpen (reads.leavesOpen leaves), outcome_of_leavesOpen leaves]
    rfl

theorem exists_ofSource_append_semicolon
    {first second : Text}
    {items more : List (Item Span)}
    (parsed : ofSource first = .ok items)
    (paired : Text.endsUnpaired first = false)
    (parsedSecond : ofSource second = .ok more) :
    ∃ whole,
      ofSource (first ++ ';' :: second) = .ok whole ∧
        bare whole = bare items ++ bare more := by
  have comes := outcome_append_semicolon parsed paired second
  rw [outcome_of_ok parsedSecond] at comes
  exact exists_of_outcome_eq_ok comes

/-- A selector and a parsed source in braces make up the rule with the items of the source. -/
theorem exists_ofSource_block
    {selector source : Text}
    {items : List (Item Span)}
    (isSelector : Text.isSelector selector = true)
    (parsed : ofSource source = .ok items)
    (paired : Text.endsUnpaired source = false) :
    ∃ whole,
      ofSource (selector ++ '\x7b' :: source ++ ['\x7d']) = .ok whole ∧
        bare whole = [.rule selector (bare items) ()] := by
  obtain ⟨inner, alone, grammar⟩ := exists_grammar_of_ofSource parsed
  obtain ⟨leading, clean, heads⟩ := exists_heads_of_isSelector isSelector
  have opens : ReadsAs (selector ++ ['\x7b']) (leading ++ [.leftBrace]) :=
    clean.reads.readsAs_mark clean.paired rfl
  have closes : ReadsAs (source ++ ['\x7d']) (inner ++ [.rightBrace]) :=
    alone.readsAs_mark paired rfl
  have reads := (opens.append closes) []
  have derived := Grammar.block heads grammar .nil
  simp only [List.append_assoc, List.append_nil, List.cons_append] at reads derived ⊢
  exact ofSource_eq_ok_iff.mpr ⟨_, ofText?_eq_some_iff.mpr reads, derived⟩

end Item

namespace Text

/-- Two texts with a line feed between them, or one of them where the other one is empty. -/
def onLines (first second : Text) : Text :=
  if first = [] then
    second
  else if second = [] then
    first
  else
    first ++ '\n' :: second

theorem join_append
    (separator : Text)
    {first second : List Text}
    (one : first ≠ [])
    (two : second ≠ []) :
    join separator (first ++ second) =
      join separator first ++ separator ++ join separator second := by
  induction first with
  | nil =>
      exact absurd rfl one
  | cons text rest inductionHypothesis =>
      cases rest with
      | nil =>
          cases second with
          | nil =>
              exact absurd rfl two
          | cons next others =>
              rfl
      | cons next others =>
          have tail := inductionHypothesis (List.cons_ne_nil next others)
          rw [List.cons_append] at tail
          rw [List.cons_append, List.cons_append, join, tail, join]
          simp only [List.append_assoc]

theorem join_eq_nil_iff
    (separator : Text)
    {texts : List Text}
    (inhabited : ∀ text ∈ texts, text ≠ []) :
    join separator texts = [] ↔ texts = [] := by
  cases texts with
  | nil =>
      exact iff_of_true rfl rfl
  | cons text rest =>
      have first := inhabited text List.mem_cons_self
      cases rest <;> simp [join, first]

/-- Lines that are joined in two parts are joined one part after the other. -/
theorem join_append_eq_onLines
    {first second : List Text}
    (one : ∀ text ∈ first, text ≠ [])
    (two : ∀ text ∈ second, text ≠ []) :
    join ['\n'] (first ++ second) = onLines (join ['\n'] first) (join ['\n'] second) := by
  unfold onLines
  simp only [join_eq_nil_iff _ one, join_eq_nil_iff _ two]
  split
  · next nothing =>
      rw [nothing, List.nil_append]
  split
  · next nothing =>
      rw [nothing, List.append_nil]
  · next someFirst someSecond =>
      rw [join_append _ someFirst someSecond, List.append_assoc, List.singleton_append]

end Text

namespace Element

theorem html_ne_nil
    {element : Element}
    (tagged : element.tag ≠ []) :
    element.html ≠ [] := by
  obtain ⟨tag, attributes, content, children⟩ := element
  unfold html
  split
  · exact absurd rfl tagged
  · exact List.cons_ne_nil _ _
  · exact List.cons_ne_nil _ _

/-- An element that is built from an item has a tag. -/
theorem tag_ne_nil_of_ofItem?
    {table : Variables}
    {item : Item Place}
    {element : Element}
    (built : ofItem? table item = some element) :
    element.tag ≠ [] := by
  cases item with
  | rule selector children place =>
      rw [ofItem?] at built
      split at built
      · cases built
        exact List.cons_ne_nil _ _
      · next tag stands =>
          obtain ⟨named, rfl⟩ := Selector.ofText_eq_element_iff.mp stands
          cases built
          rintro rfl
          cases named
      · cases built
      · cases built
  | _ =>
      cases built

end Element

namespace Page

variable {first second : List (Item Place)}

/-- No line in the markup of a page is empty. -/
theorem html_ne_nil_of_ofItems
    {items : List (Item Place)} :
    ∀ text ∈ (ofItems items).map Element.html, text ≠ [] := by
  intro text member
  obtain ⟨element, isElement, rfl⟩ := List.mem_map.mp member
  obtain ⟨item, -, built⟩ := List.mem_filterMap.mp isElement
  exact Element.html_ne_nil (Element.tag_ne_nil_of_ofItem? built)

/-- Without variables items make up their elements one by one. -/
theorem ofItems_append
    (one : ∀ item ∈ first, item.DefinesNothing)
    (two : ∀ item ∈ second, item.DefinesNothing) :
    ofItems (first ++ second) = ofItems first ++ ofItems second := by
  have both : ∀ item ∈ first ++ second, item.DefinesNothing :=
    List.forall_mem_append.mpr ⟨one, two⟩
  unfold ofItems
  rw [Variables.ofItems_eq_empty one, Variables.ofItems_eq_empty two,
    Variables.ofItems_eq_empty both]
  exact List.filterMap_append

theorem html_ofItems_append
    (one : ∀ item ∈ first, item.DefinesNothing)
    (two : ∀ item ∈ second, item.DefinesNothing) :
    (ofItems (first ++ second)).html =
      Text.onLines (ofItems first).html (ofItems second).html := by
  unfold html
  rw [ofItems_append one two, List.map_append]
  exact Text.join_append_eq_onLines html_ne_nil_of_ofItems html_ne_nil_of_ofItems

theorem convert_of_ofSource
    {source : Text}
    {items : List (Item Span)}
    (parsed : Item.ofSource source = .ok items) :
    convert source = .ok (ofItems items).html := by
  rw [convert, parsed]
  rfl

end Page

namespace Item

/--
What it means that a source with some items can be put before every other source, with
a semicolon between them, and into the block of a rule.
-/
structure Composes
    (first : Text)
    (items : List (Item Span)) : Prop where
  /-- The items of the other source follow those of the first one. -/
  sheet :
    ∀ second more,
      ofSource second = .ok more →
      ∃ whole,
        ofSource (first ++ ';' :: second) = .ok whole ∧
          bare whole = bare items ++ bare more
  /-- What is wrong with the other source is wrong with both. -/
  fault :
    ∀ second failure,
      ofSource second = .error failure →
      ∃ refusal,
        ofSource (first ++ ';' :: second) = .error refusal ∧
          refusal.fault.message = failure.fault.message
  /-- In the braces of a rule the items are the children of the rule. -/
  rule :
    ∀ name,
      name ≠ [] →
      (∀ c ∈ name, c.isAlphanum = true) →
      ∃ whole,
        ofSource (name ++ '\x7b' :: first ++ ['\x7d']) = .ok whole ∧
          bare whole = [.rule name (bare items) ()]
  /-- Where neither source defines a variable, their pages are put in a row. -/
  page :
    ∀ second more,
      ofSource second = .ok more →
      (∀ item ∈ items, item.DefinesNothing) →
      (∀ item ∈ more, item.DefinesNothing) →
      ∃ one two,
        Page.convert first = .ok one ∧
          Page.convert second = .ok two ∧
            Page.convert (first ++ ';' :: second) = .ok (Text.onLines one two)

/-- A source that parses composes, unless a backslash at its end is left unpaired. -/
theorem composes_of_ofSource
    {first : Text}
    {items : List (Item Span)}
    (parsed : ofSource first = .ok items)
    (paired : Text.endsUnpaired first = false) :
    Composes first items where
  sheet := fun second more parsedSecond =>
    exists_ofSource_append_semicolon parsed paired parsedSecond
  fault := by
    intro second failure refused
    have comes := outcome_append_semicolon parsed paired second
    rw [outcome_of_error refused] at comes
    obtain ⟨refusal, refusedBoth, same⟩ := exists_of_outcome_eq_error comes
    exact ⟨refusal, refusedBoth, congrArg Fault.message same⟩
  rule := by
    intro name inhabited alphanumeric
    have isTag : Selector.isElementName name = true := by
      simpa [Selector.isElementName, inhabited] using alphanumeric
    exact exists_ofSource_block (Text.isSelector_of_isElementName isTag) parsed paired
  page := by
    intro second more parsedSecond one two
    obtain ⟨whole, parsedBoth, same⟩ :=
      exists_ofSource_append_semicolon parsed paired parsedSecond
    have joined : bare whole = bare (items ++ more) := by
      rw [same]
      simp only [bare, relocateIn_eq_map, List.map_append]
    have page := Page.html_ofItems_append one two
    rw [← Page.ofItems_eq_of_bare joined] at page
    refine ⟨_, _, Page.convert_of_ofSource parsed, Page.convert_of_ofSource parsedSecond, ?_⟩
    rw [Page.convert_of_ofSource parsedBoth, page]

/-- A sheet whose last statement runs to the end and ends in a backslash that is paired. -/
def openEnded : Text :=
  "p\x7bcontent:a\x7d x/**/y:(;)\\\\".toList

theorem composes_of_ofSource_openEnded :
    ∃ items,
      ofSource openEnded = .ok items ∧
        Text.endsUnpaired openEnded = false ∧
          Composes openEnded items := by
  have accepted : (ofSource openEnded).isOk = true := by
    decide +kernel
  have paired : Text.endsUnpaired openEnded = false := by
    decide +kernel
  obtain ⟨items, parsed⟩ := exists_of_isOk accepted
  exact ⟨items, parsed, paired, composes_of_ofSource parsed paired⟩

/-- A sheet behind another one gets a line of its own, and one without elements none. -/
example :
    (Page.convert "p\x7bcontent:a\x7d k:v;q\x7bcontent:b\x7d".toList).toOption =
        some "<p>a</p>\n<q>b</q>".toList ∧
      (Page.convert "p\x7bcontent:a\x7d k:v;k:w".toList).toOption =
        some "<p>a</p>".toList := by
  decide +kernel

end Item

end PageSheet
