import PageSheet.Proofs.Acceptance
import PageSheet.Proofs.Shape
namespace PageSheet

/-!
# Parsing keeps the wording

The wording of a sheet is what its texts and marks say, in document order.  It leaves
out comments, the separators between statements, and all white space.  A source that
parses has the wording of its items: each lexeme goes into exactly one text or mark,
in the order of the source.  The comments among the items are comments of the source,
in the same order, with some left out.
-/

namespace Text

/-- A text without its white space. -/
def solid (text : Text) : Text :=
  text.filter fun c => !isWhiteSpace c

theorem solid_append
    (first second : Text) :
    solid (first ++ second) = solid first ++ solid second :=
  List.filter_append first second

theorem solid_of_white
    {text : Text}
    (white : ∀ c ∈ text, isWhiteSpace c = true) :
    solid text = [] :=
  List.filter_eq_nil_iff.mpr fun c member => by simp [white c member]

/-- Trimming takes nothing but white space off. -/
theorem solid_trim
    (text : Text) :
    solid (trim text) = solid text := by
  have started : ∀ part : Text, solid (part.dropWhile isWhiteSpace) = solid part := by
    intro part
    have white : solid (part.takeWhile isWhiteSpace) = [] :=
      solid_of_white fun c member => List.mem_takeWhile_imp member
    calc
      solid (part.dropWhile isWhiteSpace) =
          solid (part.takeWhile isWhiteSpace) ++ solid (part.dropWhile isWhiteSpace) := by
        rw [white, List.nil_append]
      _ = solid part := by
        rw [← solid_append, List.takeWhile_append_dropWhile]
  have reversed : ∀ part : Text, solid part.reverse = (solid part).reverse :=
    fun part => List.filter_reverse
  rw [trim, trimEnd, reversed, started, reversed, List.reverse_reverse, trimStart, started]

end Text

namespace Lexeme

/--
Whether a lexeme that stands inside a number of open parentheses has no part in the
wording of a sheet.
-/
def isGap (depth : Nat) : Lexeme → Bool
  | .whitespace _ => true
  | .comment _ => true
  | .semicolon => depth == 0
  | _ => false

/-- The lexemes that have a part in the wording of a sheet. -/
def worded : Nat → List Lexeme → List Lexeme
  | _, [] => []
  | depth, lexeme :: rest =>
      if isGap depth lexeme then
        worded (Prelude.depthAfter depth lexeme) rest
      else
        lexeme :: worded (Prelude.depthAfter depth lexeme) rest

/-- The text of a comment. -/
def remark? : Lexeme → Option Text
  | .comment text => some text
  | _ => none

end Lexeme

namespace Item

mutual

/-- What an item says, up to white space. -/
def wording : Item Place → Text
  | .rule selector children _ =>
      selector ++ ['\x7b'] ++ wordingIn children ++ ['\x7d']
  | .declaration stated => stated.property ++ [':'] ++ stated.value
  | .atStatement name params _ => ['@'] ++ name ++ params
  | .atBlock name params children _ =>
      ['@'] ++ name ++ params ++ ['\x7b'] ++ wordingIn children ++ ['\x7d']
  | .comment _ => []

/-- What a list of items says, up to white space. -/
def wordingIn : List (Item Place) → Text
  | [] => []
  | item :: rest => item.wording ++ wordingIn rest

end

mutual

/-- The comments in an item at any depth, in document order. -/
def remarks : Item Place → List Text
  | .rule _ children _ => remarksIn children
  | .declaration _ => []
  | .atStatement .. => []
  | .atBlock _ _ children _ => remarksIn children
  | .comment text => [text]

/-- The comments in a list of items at any depth, in document order. -/
def remarksIn : List (Item Place) → List Text
  | [] => []
  | item :: rest => item.remarks ++ remarksIn rest

end

section Relocating

variable (describe : Place → Place')

mutual

theorem wording_relocate
    (item : Item Place) :
    (item.relocate describe).wording = item.wording := by
  cases item with
  | rule selector children place =>
      rw [relocate, wording, wording, wordingIn_relocateIn children]
  | atBlock name params children place =>
      rw [relocate, wording, wording, wordingIn_relocateIn children]
  | _ =>
      rfl

theorem wordingIn_relocateIn
    (items : List (Item Place)) :
    wordingIn (relocateIn describe items) = wordingIn items := by
  cases items with
  | nil =>
      rfl
  | cons item rest =>
      rw [relocateIn, wordingIn, wordingIn, wording_relocate item,
        wordingIn_relocateIn rest]

end

mutual

theorem remarks_relocate
    (item : Item Place) :
    (item.relocate describe).remarks = item.remarks := by
  cases item with
  | rule selector children place =>
      exact remarksIn_relocateIn children
  | atBlock name params children place =>
      exact remarksIn_relocateIn children
  | _ =>
      rfl

theorem remarksIn_relocateIn
    (items : List (Item Place)) :
    remarksIn (relocateIn describe items) = remarksIn items := by
  cases items with
  | nil =>
      rfl
  | cons item rest =>
      rw [relocateIn, remarksIn, remarksIn, remarks_relocate item,
        remarksIn_relocateIn rest]

end

end Relocating

end Item

/-- What stands before a block says, up to white space. -/
def Header.wording : Header Place → Text
  | .rule selector _ => selector
  | .atBlock name params _ => ['@'] ++ name ++ params

theorem Header.wording_enclose
    (children : List (Item Place))
    (header : Header Place) :
    (header.enclose children).wording =
      header.wording ++ ['\x7b'] ++ Item.wordingIn children ++ ['\x7d'] := by
  cases header <;> rfl

theorem Header.remarks_enclose
    (children : List (Item Place))
    (header : Header Place) :
    (header.enclose children).remarks = Item.remarksIn children := by
  cases header <;> rfl

namespace Lexeme

/-- Lists of lexemes are worded one after the other, with the depth handed on. -/
theorem worded_append
    (depth : Nat)
    (first second : List Lexeme) :
    worded depth (first ++ second) =
      worded depth first ++ worded (Prelude.depthBehind depth first) second := by
  induction first generalizing depth with
  | nil =>
      rfl
  | cons lexeme rest inductionHypothesis =>
      have tail := inductionHypothesis (Prelude.depthAfter depth lexeme)
      simp only [List.cons_append, worded, tail]
      split <;> rfl

/-- Lexemes of which the runs of blanks are blank. -/
def Blank (lexemes : List Lexeme) : Prop :=
  ∀ text, .whitespace text ∈ lexemes → ∀ c ∈ text, Text.isWhiteSpace c = true

theorem Blank.append_iff
    {first second : List Lexeme} :
    Blank (first ++ second) ↔ Blank first ∧ Blank second := by
  constructor
  · intro blank
    exact ⟨fun text member => blank text (List.mem_append_left second member),
      fun text member => blank text (List.mem_append_right first member)⟩
  · rintro ⟨one, two⟩ text member
    rcases List.mem_append.mp member with inFirst | inSecond
    · exact one text inFirst
    · exact two text inSecond

theorem Blank.tail
    {lexeme : Lexeme}
    {rest : List Lexeme}
    (blank : Blank (lexeme :: rest)) :
    Blank rest :=
  fun text member => blank text (List.mem_cons_of_mem lexeme member)

/-- The runs of blanks that a text is read as are blank. -/
theorem Reads.blank
    {text rest : Text}
    {lexemes : List Lexeme}
    (reads : Reads text lexemes rest) :
    Blank lexemes := by
  induction reads with
  | done =>
      exact fun _ member => nomatch member
  | @step c others rest reading lexemes begins _ inductionHypothesis =>
      intro blanks member
      rcases List.mem_cons.mp member with isFirst | later
      · have shaped := begins.stands.shaped
        rw [← isFirst] at shaped
        exact fun d inside => isWhiteSpace_of_isBlank (shaped.2 d inside)
      · exact inductionHypothesis blanks later

/-- Where no separator stands outside parentheses, all that is worded is spelled. -/
theorem solid_worded
    {depth : Nat}
    {lexemes : List Lexeme}
    (sheltered : Prelude.shelters Prelude.isTerminator depth lexemes = true)
    (blank : Blank lexemes) :
    Text.solid (spellings (worded depth lexemes)) = Text.solid (spellings lexemes) := by
  induction lexemes generalizing depth with
  | nil =>
      rfl
  | cons lexeme rest inductionHypothesis =>
      rw [Prelude.shelters, Bool.and_eq_true] at sheltered
      obtain ⟨hidden, later⟩ := sheltered
      have tail := inductionHypothesis later blank.tail
      rw [spellings_cons, Text.solid_append, ← tail]
      by_cases gap : isGap depth lexeme = true
      · have nothing : Text.solid lexeme.spelling = [] := by
          cases lexeme with
          | whitespace text =>
              exact Text.solid_of_white (blank text List.mem_cons_self)
          | comment text =>
              rfl
          | semicolon =>
              simp only [isGap, beq_iff_eq] at gap
              simp [gap, Prelude.isTerminator] at hidden
          | _ =>
              cases gap
        rw [worded, if_pos gap, nothing, List.nil_append]
      · rw [worded, if_neg gap, spellings_cons, Text.solid_append]

end Lexeme

open Lexeme

/-- The lexemes of a statement without a block are a prelude and say what the item says. -/
theorem States.wording
    {lexemes : List Lexeme}
    {item : Item Unit}
    (states : States lexemes item) :
    Prelude.isPrelude lexemes = true ∧
      Text.solid (spellings lexemes) = Text.solid item.wording ∧ item.remarks = [] := by
  cases states with
  | @atStatement name prelude complete =>
      refine ⟨complete, ?_, rfl⟩
      rw [spellings_cons, Item.wording, Prelude.text, Text.solid_append, Text.solid_append,
        Text.solid_trim]
      rfl
  | @declaration first rest before behind opens complete divides =>
      refine ⟨complete, ?_, rfl⟩
      rw [divides.whole, Lexeme.spellings_append, spellings_cons, Item.wording,
        Prelude.text, Prelude.text, List.append_assoc]
      simp only [Text.solid_append, Text.solid_trim]
      rfl

/-- The lexemes before a block are a prelude and say what the header says. -/
theorem Heads.wording
    {lexemes : List Lexeme}
    {header : Header Unit}
    (heads : Heads lexemes header) :
    Prelude.isPrelude lexemes = true ∧
      Text.solid (spellings lexemes) = Text.solid header.wording := by
  cases heads with
  | @atBlock name prelude complete =>
      refine ⟨complete, ?_⟩
      rw [spellings_cons, Header.wording, Prelude.text, Text.solid_append,
        Text.solid_append, Text.solid_trim]
      rfl
  | rule _ complete =>
      exact ⟨complete, (Text.solid_trim _).symm⟩

/-- The words of a prelude are its spelling, and behind it no parenthesis is open. -/
theorem Prelude.solid_worded
    {lexemes : List Lexeme}
    (complete : isPrelude lexemes = true)
    (blank : Blank lexemes) :
    Text.solid (spellings (worded 0 lexemes)) = Text.solid (spellings lexemes) ∧
      depthBehind 0 lexemes = 0 := by
  rw [isPrelude, Bool.and_eq_true, beq_iff_eq] at complete
  exact ⟨Lexeme.solid_worded complete.1 blank, complete.2⟩

namespace Grammar

variable {lexemes : List Lexeme} {items : List (Item Unit)}

/-- A sheet says what its lexemes say, and leaves no parenthesis open. -/
theorem wording
    (grammar : Grammar lexemes items)
    (blank : Blank lexemes) :
    Text.solid (spellings (worded 0 lexemes)) = Text.solid (Item.wordingIn items) ∧
      Prelude.depthBehind 0 lexemes = 0 := by
  induction grammar with
  | nil =>
      exact ⟨rfl, rfl⟩
  | whitespace _ inductionHypothesis =>
      exact inductionHypothesis blank.tail
  | comment _ inductionHypothesis =>
      exact inductionHypothesis blank.tail
  | separator _ inductionHypothesis =>
      exact inductionHypothesis blank.tail
  | @statement lexemes rest item items states _ inductionHypothesis =>
      obtain ⟨blankFirst, blankRest⟩ := Blank.append_iff.mp blank
      obtain ⟨complete, told, -⟩ := states.wording
      obtain ⟨words, outside⟩ := Prelude.solid_worded complete blankFirst
      obtain ⟨later, closed⟩ := inductionHypothesis blankRest.tail
      have skipped : worded 0 (.semicolon :: rest) = worded 0 rest :=
        rfl
      rw [worded_append, outside, skipped, Prelude.depthBehind_append, outside,
        Lexeme.spellings_append, Text.solid_append, words, told, later, Item.wordingIn,
        Text.solid_append]
      exact ⟨rfl, closed⟩
  | lastStatement states =>
      obtain ⟨complete, told, -⟩ := states.wording
      obtain ⟨words, outside⟩ := Prelude.solid_worded complete blank
      rw [words, told, Item.wordingIn, Item.wordingIn, List.append_nil]
      exact ⟨rfl, outside⟩
  | @block lexemes inner rest header children items heads _ _ innerHypothesis restHypothesis =>
      obtain ⟨blankHead, blankBlock⟩ := Blank.append_iff.mp blank
      obtain ⟨blankInner, blankRest⟩ := Blank.append_iff.mp blankBlock.tail
      obtain ⟨complete, told⟩ := heads.wording
      obtain ⟨words, outside⟩ := Prelude.solid_worded complete blankHead
      obtain ⟨inside, closedInside⟩ := innerHypothesis blankInner
      obtain ⟨later, closed⟩ := restHypothesis blankRest.tail
      have opens :
          worded 0 (.leftBrace :: (inner ++ .rightBrace :: rest)) =
            .leftBrace :: (worded 0 inner ++ .rightBrace :: worded 0 rest) := by
        have divided := worded_append 0 inner (.rightBrace :: rest)
        rw [closedInside] at divided
        exact congrArg (List.cons .leftBrace) divided
      have deep :
          Prelude.depthBehind 0 (.leftBrace :: (inner ++ .rightBrace :: rest)) = 0 := by
        have shown :
            Prelude.depthBehind 0 (.leftBrace :: (inner ++ .rightBrace :: rest)) =
              Prelude.depthBehind (Prelude.depthBehind 0 inner) rest :=
          Prelude.depthBehind_append 0 inner (.rightBrace :: rest)
        rw [shown, closedInside, closed]
      rw [worded_append, outside, opens, Prelude.depthBehind_append, outside]
      refine ⟨?_, deep⟩
      rw [Item.wordingIn, Header.wording_enclose]
      simp only [Lexeme.spellings_append, spellings_cons, Text.solid_append, words, told,
        inside, later, List.append_assoc]
      rfl

/-- The comments of a sheet are comments among its lexemes, in the same order. -/
theorem remarks_sublist
    (grammar : Grammar lexemes items) :
    (Item.remarksIn items).Sublist (lexemes.filterMap remark?) := by
  induction grammar with
  | nil =>
      exact .slnil
  | whitespace _ inductionHypothesis =>
      exact inductionHypothesis
  | comment _ inductionHypothesis =>
      exact inductionHypothesis.cons_cons _
  | separator _ inductionHypothesis =>
      exact inductionHypothesis
  | @statement lexemes rest item items states _ inductionHypothesis =>
      rw [Item.remarksIn, states.wording.2.2, List.filterMap_append]
      exact (List.nil_sublist _).append inductionHypothesis
  | lastStatement states =>
      rw [Item.remarksIn, states.wording.2.2]
      exact List.nil_sublist _
  | @block lexemes inner rest header children items _ _ _ innerHypothesis restHypothesis =>
      have shown :
          (lexemes ++ .leftBrace :: (inner ++ .rightBrace :: rest)).filterMap remark? =
            lexemes.filterMap remark? ++
              (inner.filterMap remark? ++ rest.filterMap remark?) := by
        have divided :
            (inner ++ .rightBrace :: rest).filterMap remark? =
              inner.filterMap remark? ++ rest.filterMap remark? :=
          List.filterMap_append
        rw [List.filterMap_append]
        exact congrArg (List.append (lexemes.filterMap remark?)) divided
      rw [Item.remarksIn, Header.remarks_enclose, shown]
      exact (List.nil_sublist _).append (innerHypothesis.append restHypothesis)

end Grammar

namespace Item

/--
The items of a source say what its tokens say, and their comments are comments of the
source in the same order.
-/
theorem wording_ofSource
    {source : Text}
    {items : List (Item Span)}
    (parsed : ofSource source = .ok items) :
    ∃ tokens,
      Token.scan source = .ok tokens ∧
        Text.solid (wordingIn items) =
            Text.solid (spellings (worded 0 (tokens.map Token.lexeme))) ∧
          (remarksIn items).Sublist ((tokens.map Token.lexeme).filterMap remark?) := by
  obtain ⟨lexemes, reads, grammar⟩ := exists_grammar_of_ofSource parsed
  obtain ⟨tokens, scanned, shape⟩ := reads.exists_scanFrom Position.start
  refine ⟨tokens, scanned, ?_, ?_⟩
  · have said := (grammar.wording reads.blank).1
    rw [bare, wordingIn_relocateIn] at said
    have ended :
        spellings (worded (Prelude.depthBehind 0 lexemes) [.endOfSource]) = [] :=
      rfl
    rw [shape, worded_append, Lexeme.spellings_append, ended, List.append_nil, said]
  · have kept := grammar.remarks_sublist
    rw [bare, remarksIn_relocateIn] at kept
    rw [shape, List.filterMap_append]
    exact kept.trans (List.sublist_append_left _ _)

/-- A sheet with every kind of item, comments in and between them, and stray separators. -/
def crowded : Text :=
  "a(;) /*x*/\x7b; b : c(;)/*y*/d; /*z*/ @m (p)\x7b\x7d\x7d; @i/*w*/q; k: v".toList

/-- Its separators are gone but for one in parentheses, and of its comments one is kept. -/
theorem wording_ofSource_crowded :
    ∃ items tokens,
      ofSource crowded = .ok items ∧
        Token.scan crowded = .ok tokens ∧
          Text.solid (wordingIn items) =
              Text.solid (spellings (worded 0 (tokens.map Token.lexeme))) ∧
            (remarksIn items).Sublist ((tokens.map Token.lexeme).filterMap remark?) ∧
              Text.solid (wordingIn items) =
                  "a(;)\x7bb:c(;)d@m(p)\x7b\x7d\x7d@iqk:v".toList ∧
                remarksIn items = [['z']] := by
  have accepted : (ofSource crowded).isOk = true := by
    decide +kernel
  obtain ⟨items, parsed⟩ := exists_of_isOk accepted
  have shown :
      (ofSource crowded).toOption.map
          (fun items => (Text.solid (wordingIn items), remarksIn items)) =
        some ("a(;)\x7bb:c(;)d@m(p)\x7b\x7d\x7d@iqk:v".toList, [['z']]) := by
    decide +kernel
  rw [parsed] at shown
  obtain ⟨wording, remark⟩ := Prod.mk.inj (Option.some.inj shown)
  obtain ⟨tokens, scanned, same, kept⟩ := wording_ofSource parsed
  exact ⟨items, tokens, parsed, scanned, same, kept, wording, remark⟩

end Item

end PageSheet
