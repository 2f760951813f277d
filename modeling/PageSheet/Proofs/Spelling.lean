import PageSheet.Proofs.Acceptance
import PageSheet.Proofs.Spaces
namespace PageSheet

/-!
# Parsing undoes spelling

An item is spelled in one way: a rule as its selector and its block, a
declaration as its property, a colon, its value and a semicolon, an at-rule with
one space behind its name, a comment with one space at each end.  Spellings are
put next to each other with nothing between them.

Clean texts are those that a statement takes in as they are.  A spelled list of
items whose texts are clean has the list as its only reading, because each
delimiter stops the lexeme before it.
-/

namespace Text

open Prelude

/--
Whether a text can stand in a statement as it is: it is its own trim, it has
lexemes, these are no comments and a prelude, and its last backslash is paired.
-/
def isClean (text : Text) : Bool :=
  trim text = text && !endsUnpaired text &&
    (Lexeme.ofText? text).any fun lexemes =>
      !lexemes.any Lexeme.isComment && isPrelude lexemes

/-- Whether the first lexeme of a text is an at-word. -/
def startsWithAtWord (text : Text) : Bool :=
  (Lexeme.ofText? text).any fun
    | .atWord _ :: _ => true
    | _ => false

/-- Whether a text can be the selector of a rule. -/
def isSelector (text : Text) : Bool :=
  !text.isEmpty && isClean text && !startsWithAtWord text

/-- Whether a text can be the property of a declaration. -/
def isProperty (text : Text) : Bool :=
  isSelector text && (Lexeme.ofText? text).any (shelters isColon 0)

/-- Whether a text can be the name of an at-rule. -/
def isAtName (text : Text) : Bool :=
  Lexeme.ofText? ('@' :: text) = some [.atWord text] && !endsUnpaired text

/-- Whether the end of a comment occurs in a text. -/
def endsComment : Text → Bool
  | [] => false
  | c :: rest => ['*', '/'].isPrefixOf (c :: rest) || endsComment rest

/-- Whether a text can be the text of a comment. -/
def isRemark (text : Text) : Bool :=
  trim text = text && !endsComment text

end Text

namespace Item

mutual

/-- Whether all texts in an item can stand where they do. -/
def isSpellable : Item Place → Bool
  | .rule selector children _ =>
      Text.isSelector selector && isSpellableIn children
  | .declaration stated =>
      Text.isProperty stated.property && Text.isClean stated.value
  | .atStatement name params _ =>
      Text.isAtName name && Text.isClean params
  | .atBlock name params children _ =>
      Text.isAtName name && Text.isClean params && isSpellableIn children
  | .comment text => Text.isRemark text

/-- Whether all texts in a list of items can stand where they do. -/
def isSpellableIn : List (Item Place) → Bool
  | [] => true
  | item :: rest => item.isSpellable && isSpellableIn rest

end

mutual

/-- The source text of an item. -/
def spelled : Item Place → Text
  | .rule selector children _ =>
      selector ++ ['\x7b'] ++ spelledIn children ++ ['\x7d']
  | .declaration stated =>
      stated.property ++ [':'] ++ stated.value ++ [';']
  | .atStatement name params _ =>
      ['@'] ++ name ++ [' '] ++ params ++ [';']
  | .atBlock name params children _ =>
      ['@'] ++ name ++ [' '] ++ params ++ ['\x7b'] ++ spelledIn children ++ ['\x7d']
  | .comment text =>
      ['/', '*', ' '] ++ text ++ [' ', '*', '/']

/-- The source text of a list of items. -/
def spelledIn : List (Item Place) → Text
  | [] => []
  | item :: rest => item.spelled ++ spelledIn rest

end

theorem spelledIn_eq_flatMap
    (items : List (Item Place)) :
    spelledIn items = items.flatMap spelled := by
  induction items with
  | nil =>
      rfl
  | cons item rest inductionHypothesis =>
      rw [spelledIn, inductionHypothesis, List.flatMap_cons]

theorem spelledIn_append
    (first second : List (Item Place)) :
    spelledIn (first ++ second) = spelledIn first ++ spelledIn second := by
  simp only [spelledIn_eq_flatMap, List.flatMap_append]

theorem isSpellableIn_eq_all
    (items : List (Item Place)) :
    isSpellableIn items = items.all isSpellable := by
  induction items with
  | nil =>
      rfl
  | cons item rest inductionHypothesis =>
      rw [isSpellableIn, inductionHypothesis, List.all_cons]

theorem isSpellableIn_append
    (first second : List (Item Place)) :
    isSpellableIn (first ++ second) = (isSpellableIn first && isSpellableIn second) := by
  simp only [isSpellableIn_eq_all, List.all_append]

end Item

namespace Text

theorem trim_cons
    {c : Char}
    (white : isWhiteSpace c = true)
    (text : Text) :
    trim (c :: text) = trim text := by
  unfold trim trimStart
  rw [List.dropWhile_cons_of_pos white]

theorem trim_concat
    {c : Char}
    (white : isWhiteSpace c = true)
    (text : Text) :
    trim (text ++ [c]) = trim text := by
  have nothing : List.dropWhile isWhiteSpace [c] = [] := by
    simp [white]
  unfold trim trimStart
  rw [List.dropWhile_append, nothing]
  split
  · next blank =>
      rw [List.isEmpty_iff.mp blank]
  · unfold trimEnd
    rw [List.reverse_append, List.reverse_singleton, List.singleton_append,
      List.dropWhile_cons_of_pos white]

/-- A trimmed text starts with what comes first after white space. -/
theorem head?_trim
    (text : Text) :
    (trim text).head? = text.find? fun c => !isWhiteSpace c := by
  induction text with
  | nil =>
      rfl
  | cons c rest inductionHypothesis =>
      by_cases white : isWhiteSpace c = true
      · rw [trim_cons white, inductionHypothesis, List.find?_cons_of_neg (by simp [white])]
      · have last : List.dropWhile isWhiteSpace [c] = [c] :=
          List.dropWhile_cons_of_neg white
        rw [List.find?_cons_of_pos (by simpa using white)]
        unfold trim trimStart trimEnd
        rw [List.dropWhile_cons_of_neg white, List.reverse_cons, List.dropWhile_append, last]
        split <;> simp

theorem trim_sublist
    (text : Text) :
    (trim text).Sublist text := by
  have started : (trimStart text).Sublist text :=
    List.dropWhile_sublist isWhiteSpace
  have ended : (trimEnd (trimStart text)).Sublist (trimStart text) := by
    have cut :=
      (@List.dropWhile_sublist _ (trimStart text).reverse isWhiteSpace).reverse
    rwa [List.reverse_reverse] at cut
  exact ended.trans started

/-- A text that is its own trim does not start with white space. -/
theorem isWhiteSpace_of_trim
    {c : Char}
    {rest : Text}
    (trimmed : trim (c :: rest) = c :: rest) :
    isWhiteSpace c = false := by
  apply Bool.eq_false_iff.mpr
  intro white
  have kept := trim_sublist rest
  rw [← trim_cons white, trimmed] at kept
  have longer := kept.length_le
  rw [List.length_cons] at longer
  omega

end Text

namespace Lexeme

theorem isBlank_of_isWhiteSpace
    {c : Char}
    (solid : Text.isWhiteSpace c = false) :
    isBlank c = false := by
  apply Bool.eq_false_iff.mpr
  intro blank
  rw [isWhiteSpace_of_isBlank blank] at solid
  cases solid

/-- A text is read as some lexemes whatever stands behind it. -/
def ReadsAs
    (text : Text)
    (lexemes : List Lexeme) : Prop :=
  ∀ rest, Reads (text ++ rest) lexemes rest

theorem ReadsAs.append
    {first second : Text}
    {lexemes others : List Lexeme}
    (one : ReadsAs first lexemes)
    (two : ReadsAs second others) :
    ReadsAs (first ++ second) (lexemes ++ others) := by
  intro rest
  rw [List.append_assoc]
  exact (one (second ++ rest)).append (two rest)

/-- A source can be told from the mark behind it. -/
theorem Reads.readsAs_mark
    {text : Text}
    {lexemes : List Lexeme}
    (reads : Reads text lexemes [])
    (paired : Text.endsUnpaired text = false)
    {c : Char}
    {mark : Lexeme}
    (isMark : ofMark? c = some mark) :
    ReadsAs (text ++ [c]) (lexemes ++ [mark]) := by
  intro rest
  rw [List.append_assoc]
  have stopped : ∀ last ∈ lexemes.getLast?, last.isStoppedBy c = true :=
    fun last _ => isStoppedBy_of_ofMark? isMark last
  exact (reads.before paired stopped rest).append (.mark isMark rest)

/-- What it means that a text is clean, with the lexemes that it has. -/
structure Cleanly
    (text : Text)
    (lexemes : List Lexeme) : Prop where
  trimmed : Text.trim text = text
  paired : Text.endsUnpaired text = false
  reads : Reads text lexemes []
  uncommented : lexemes.any isComment = false
  isPrelude : Prelude.isPrelude lexemes = true

theorem exists_cleanly
    {text : Text}
    (clean : Text.isClean text = true) :
    ∃ lexemes, ofText? text = some lexemes ∧ Cleanly text lexemes := by
  simp only [Text.isClean, Bool.and_eq_true, decide_eq_true_eq,
    Bool.not_eq_true', Option.any_eq_true] at clean
  obtain ⟨⟨trimmed, paired⟩, lexemes, found, uncommented, isPrelude⟩ := clean
  exact ⟨lexemes, found, trimmed, paired, ofText?_eq_some_iff.mp found,
    uncommented, isPrelude⟩

namespace Cleanly

variable {text : Text} {lexemes : List Lexeme}

theorem text_eq
    (clean : Cleanly text lexemes) :
    Prelude.text lexemes = text := by
  have whole := clean.reads.spellings_append clean.uncommented
  rw [List.append_nil] at whole
  rw [Prelude.text, whole, clean.trimmed]

/-- The space before a clean text is no part of the text of its lexemes. -/
theorem text_space
    (clean : Cleanly text lexemes) :
    Prelude.text (.whitespace [' '] :: lexemes) = text := by
  have same := clean.text_eq
  rw [Prelude.text] at same ⊢
  have cut : spellings (.whitespace [' '] :: lexemes) = ' ' :: spellings lexemes :=
    rfl
  rw [cut, Text.trim_cons rfl, same]

/-- The one space before a clean text is a lexeme of its own. -/
theorem readsAs_space
    (clean : Cleanly text lexemes)
    {c : Char}
    {mark : Lexeme}
    (isMark : ofMark? c = some mark) :
    ReadsAs ([' '] ++ text ++ [c]) (.whitespace [' '] :: lexemes ++ [mark]) := by
  intro rest
  have notBlank : ∀ next ∈ (text ++ [c] ++ rest).head?, isBlank next = false := by
    intro next isNext
    cases text with
    | nil =>
        cases isNext
        simpa [isStoppedBy] using isStoppedBy_of_ofMark? isMark (.whitespace [])
    | cons d others =>
        cases isNext
        exact isBlank_of_isWhiteSpace (Text.isWhiteSpace_of_trim clean.trimmed)
  exact (reads_space notBlank).append (clean.reads.readsAs_mark clean.paired isMark rest)

/-- A clean text that starts with no at-word opens a statement. -/
theorem exists_opensStatement
    (clean : Cleanly text lexemes)
    (inhabited : text ≠ [])
    (noAtWord : ∀ name rest, lexemes ≠ .atWord name :: rest) :
    ∃ first rest,
      lexemes = first :: rest ∧ first.opensStatement = true := by
  obtain ⟨trimmed, -, reads, uncommented, -⟩ := clean
  cases reads with
  | done =>
      exact absurd rfl inhabited
  | @step c others _ reading lexemes begins tail =>
      refine ⟨reading.lexeme, lexemes, rfl, ?_⟩
      cases begins with
      | blanks blank =>
          have solid := isBlank_of_isWhiteSpace (Text.isWhiteSpace_of_trim trimmed)
          exact absurd blank (by simp [solid])
      | string =>
          rfl
      | atWord =>
          exact absurd rfl (noAtWord _ _)
      | mark isMark =>
          unfold ofMark? at isMark
          split at isMark <;> cases isMark <;> rfl
      | comment =>
          cases uncommented
      | word =>
          rfl

end Cleanly

/-- A selector is a clean text whose first lexeme opens a statement. -/
theorem exists_of_isSelector
    {text : Text}
    (selector : Text.isSelector text = true) :
    ∃ first rest,
      ofText? text = some (first :: rest) ∧
        Cleanly text (first :: rest) ∧
          first.opensStatement = true ∧ text ≠ [] := by
  simp only [Text.isSelector, Bool.and_eq_true, Bool.not_eq_true',
    List.isEmpty_eq_false_iff] at selector
  obtain ⟨⟨inhabited, isClean⟩, plain⟩ := selector
  obtain ⟨lexemes, found, clean⟩ := exists_cleanly isClean
  have noAtWord : ∀ name rest, lexemes ≠ .atWord name :: rest := by
    rintro name rest rfl
    rw [Text.startsWithAtWord, found] at plain
    cases plain
  obtain ⟨first, rest, rfl, opens⟩ := clean.exists_opensStatement inhabited noAtWord
  exact ⟨first, rest, found, clean, opens, inhabited⟩

/-- A selector heads a rule. -/
theorem exists_heads_of_isSelector
    {text : Text}
    (selector : Text.isSelector text = true) :
    ∃ lexemes, Cleanly text lexemes ∧ Heads lexemes (.rule text ()) := by
  obtain ⟨first, rest, -, clean, opens, inhabited⟩ := exists_of_isSelector selector
  have header := Heads.rule opens clean.isPrelude
  rw [clean.text_eq] at header
  exact ⟨first :: rest, clean, header inhabited⟩

/-- The name of an at-rule can be told from the space behind it. -/
theorem reads_of_isAtName
    {name : Text}
    (isName : Text.isAtName name = true)
    (rest : Text) :
    Reads (['@'] ++ name ++ ' ' :: rest) [.atWord name] (' ' :: rest) := by
  simp only [Text.isAtName, Bool.and_eq_true, decide_eq_true_eq,
    Bool.not_eq_true'] at isName
  obtain ⟨found, paired⟩ := isName
  refine (ofText?_eq_some_iff.mp found).before ?_ ?_ rest
  · rwa [Text.endsUnpaired_cons (by decide)]
  · intro last isLast
    cases isLast
    rfl

/-- A clean text behind the name of an at-rule is read with its space. -/
theorem Cleanly.readsAs_atRule
    {name text : Text}
    {lexemes : List Lexeme}
    (clean : Cleanly text lexemes)
    (isName : Text.isAtName name = true)
    {c : Char}
    {mark : Lexeme}
    (isMark : ofMark? c = some mark) :
    ReadsAs (['@'] ++ name ++ [' '] ++ text ++ [c])
      (.atWord name :: .whitespace [' '] :: lexemes ++ [mark]) := by
  intro rest
  have first := reads_of_isAtName isName (text ++ [c] ++ rest)
  have later := clean.readsAs_space isMark rest
  simpa using first.append later

/-- A comment goes on up to its own end if no other one occurs in it. -/
theorem splitComment?_spaced
    {text : Text}
    (unended : Text.endsComment text = false)
    (rest : Text) :
    splitComment? (text ++ ' ' :: '*' :: '/' :: rest) =
      some (text ++ [' '], rest) := by
  induction text with
  | nil =>
      rfl
  | cons c others inductionHypothesis =>
      rw [Text.endsComment, Bool.or_eq_false_iff] at unended
      have notEnd :
          ∀ behind, c = '*' → others ++ ' ' :: '*' :: '/' :: rest = '/' :: behind →
            False := by
        rintro behind rfl shape
        cases others with
        | nil =>
            cases shape
        | cons d behind =>
            cases shape
            cases unended.1
      rw [List.cons_append, splitComment?.eq_3 _ _ notEnd,
        inductionHypothesis unended.2]
      rfl

/-- The spaces at the two ends of a comment are no part of its text. -/
theorem readsAs_of_isRemark
    {text : Text}
    (remark : Text.isRemark text = true) :
    ReadsAs (['/', '*', ' '] ++ text ++ [' ', '*', '/']) [.comment text] := by
  simp only [Text.isRemark, Bool.and_eq_true, decide_eq_true_eq,
    Bool.not_eq_true'] at remark
  obtain ⟨trimmed, unended⟩ := remark
  intro rest
  have split :
      splitComment? (' ' :: text ++ ' ' :: '*' :: '/' :: rest) =
        some (' ' :: text ++ [' '], rest) := by
    rw [List.cons_append, splitComment?.eq_3 _ _ (by simp),
      splitComment?_spaced unended]
    rfl
  have body : Text.trim (' ' :: text ++ [' ']) = text := by
    rw [Text.trim_concat rfl, Text.trim_cons rfl, trimmed]
  have begins := Begins.comment split
  rw [body] at begins
  simpa using Reads.step begins (.done rest)

end Lexeme

/-- A text is a list of items wherever it stands between statements. -/
def Spells
    (text : Text)
    (sheet : List (Item Unit)) : Prop :=
  ∃ lexemes,
    Lexeme.ReadsAs text lexemes ∧
      ∀ more items, Grammar more items → Grammar (lexemes ++ more) (sheet ++ items)

namespace Spells

open Lexeme

variable {text inner : Text} {lexemes : List Lexeme} {sheet : List (Item Unit)}

theorem nil : Spells [] [] :=
  ⟨[], Reads.done, fun _ _ grammar => grammar⟩

theorem append
    {others : List (Item Unit)}
    (one : Spells text sheet)
    (two : Spells inner others) :
    Spells (text ++ inner) (sheet ++ others) := by
  obtain ⟨first, readFirst, derives⟩ := one
  obtain ⟨second, readSecond, derivesNext⟩ := two
  refine ⟨first ++ second, readFirst.append readSecond, ?_⟩
  intro more items grammar
  rw [List.append_assoc, List.append_assoc]
  exact derives _ _ (derivesNext more items grammar)

theorem comment
    (remark : Text.isRemark text = true) :
    Spells (['/', '*', ' '] ++ text ++ [' ', '*', '/']) [.comment text] :=
  ⟨[.comment text], readsAs_of_isRemark remark, fun _ _ grammar => .comment grammar⟩

theorem statement
    {item : Item Unit}
    (reads : ReadsAs (text ++ [';']) (lexemes ++ [.semicolon]))
    (states : States lexemes item) :
    Spells (text ++ [';']) [item] := by
  refine ⟨lexemes ++ [.semicolon], reads, fun more items grammar => ?_⟩
  rw [List.append_assoc]
  exact .statement states grammar

theorem block
    {header : Header Unit}
    (reads : ReadsAs (text ++ ['\x7b']) (lexemes ++ [.leftBrace]))
    (heads : Heads lexemes header)
    (children : Spells inner sheet) :
    Spells (text ++ ['\x7b'] ++ inner ++ ['\x7d']) [header.enclose sheet] := by
  obtain ⟨inside, readInside, derives⟩ := children
  have closes : ReadsAs ['\x7d'] [.rightBrace] :=
    Reads.mark rfl
  refine ⟨_, (reads.append readInside).append closes, fun more items grammar => ?_⟩
  have whole := derives [] [] .nil
  rw [List.append_nil, List.append_nil] at whole
  simpa using Grammar.block heads whole grammar

/-- A text that spells items is parsed as these items. -/
theorem exists_ofSource
    (spells : Spells text sheet) :
    ∃ items, Item.ofSource text = .ok items ∧ Item.bare items = sheet := by
  obtain ⟨lexemes, reads, derives⟩ := spells
  have whole := derives [] [] .nil
  have used := reads []
  rw [List.append_nil] at used
  rw [List.append_nil, List.append_nil] at whole
  exact Item.ofSource_eq_ok_iff.mpr ⟨lexemes, ofText?_eq_some_iff.mpr used, whole⟩

theorem rule
    {selector : Text}
    (isSelector : Text.isSelector selector = true)
    (children : Spells inner sheet) :
    Spells (selector ++ ['\x7b'] ++ inner ++ ['\x7d']) [.rule selector sheet ()] := by
  obtain ⟨lexemes, clean, heads⟩ := exists_heads_of_isSelector isSelector
  exact block (clean.reads.readsAs_mark clean.paired rfl) heads children

theorem declaration
    {property value : Text}
    (isProperty : Text.isProperty property = true)
    (isClean : Text.isClean value = true) :
    Spells (property ++ [':'] ++ value ++ [';'])
      [.declaration ⟨property, value, ()⟩] := by
  simp only [Text.isProperty, Bool.and_eq_true] at isProperty
  obtain ⟨isSelector, uncoloned⟩ := isProperty
  obtain ⟨first, rest, found, clean, opens, inhabited⟩ := exists_of_isSelector isSelector
  obtain ⟨behind, -, cleanValue⟩ := exists_cleanly isClean
  rw [found, Option.any_some] at uncoloned
  have fromColon : Prelude.isPrelude (.colon :: behind) = true :=
    @Prelude.isPrelude_append [.colon] behind rfl cleanValue.isPrelude
  have whole : Prelude.isPrelude (first :: (rest ++ .colon :: behind)) = true :=
    Prelude.isPrelude_append clean.isPrelude fromColon
  have outside : Prelude.depthBehind 0 (first :: rest) = 0 := by
    have isPrelude := clean.isPrelude
    rw [Prelude.isPrelude, Bool.and_eq_true, beq_iff_eq] at isPrelude
    exact isPrelude.2
  have states :
      States (first :: (rest ++ .colon :: behind))
        (.declaration ⟨property, value, ()⟩) := by
    have stated :=
      @States.declaration first (rest ++ .colon :: behind) (first :: rest) behind
        opens whole ⟨rfl, outside, uncoloned⟩
    rw [clean.text_eq, cleanValue.text_eq] at stated
    exact stated inhabited
  have readsProperty : ReadsAs (property ++ [':']) (first :: rest ++ [.colon]) :=
    clean.reads.readsAs_mark clean.paired rfl
  have readsValue : ReadsAs (value ++ [';']) (behind ++ [.semicolon]) :=
    cleanValue.reads.readsAs_mark cleanValue.paired rfl
  refine @statement (property ++ [':'] ++ value) _ _ ?_ states
  simpa using readsProperty.append readsValue

theorem atStatement
    {name params : Text}
    (isName : Text.isAtName name = true)
    (isClean : Text.isClean params = true) :
    Spells (['@'] ++ name ++ [' '] ++ params ++ [';']) [.atStatement name params ()] := by
  obtain ⟨lexemes, -, clean⟩ := exists_cleanly isClean
  have states :
      States (.atWord name :: .whitespace [' '] :: lexemes)
        (.atStatement name params ()) := by
    have stated :=
      @States.atStatement name (.whitespace [' '] :: lexemes) clean.isPrelude
    rwa [clean.text_space] at stated
  exact statement (clean.readsAs_atRule isName rfl) states

theorem atBlock
    {name params : Text}
    (isName : Text.isAtName name = true)
    (isClean : Text.isClean params = true)
    (children : Spells inner sheet) :
    Spells (['@'] ++ name ++ [' '] ++ params ++ ['\x7b'] ++ inner ++ ['\x7d'])
      [.atBlock name params sheet ()] := by
  obtain ⟨lexemes, -, clean⟩ := exists_cleanly isClean
  have heads :
      Heads (.atWord name :: .whitespace [' '] :: lexemes)
        (.atBlock name params ()) := by
    have header := @Heads.atBlock name (.whitespace [' '] :: lexemes) clean.isPrelude
    rwa [clean.text_space] at header
  exact block (clean.readsAs_atRule isName rfl) heads children

end Spells

namespace Item

mutual

/-- A spellable item is spelled by its source text. -/
theorem spells_spelled
    (item : Item Place)
    (spellable : item.isSpellable = true) :
    Spells item.spelled [item.relocate fun _ => ()] := by
  match item with
  | .rule selector children place =>
      rw [isSpellable, Bool.and_eq_true] at spellable
      exact .rule spellable.1 (spells_spelledIn children spellable.2)
  | .declaration stated =>
      rw [isSpellable, Bool.and_eq_true] at spellable
      exact .declaration spellable.1 spellable.2
  | .atStatement name params place =>
      rw [isSpellable, Bool.and_eq_true] at spellable
      exact .atStatement spellable.1 spellable.2
  | .atBlock name params children place =>
      rw [isSpellable, Bool.and_eq_true, Bool.and_eq_true] at spellable
      exact .atBlock spellable.1.1 spellable.1.2
        (spells_spelledIn children spellable.2)
  | .comment text =>
      rw [isSpellable] at spellable
      exact .comment spellable

theorem spells_spelledIn
    (items : List (Item Place))
    (spellable : isSpellableIn items = true) :
    Spells (spelledIn items) (bare items) := by
  match items with
  | [] =>
      exact .nil
  | item :: rest =>
      rw [isSpellableIn, Bool.and_eq_true] at spellable
      exact (spells_spelled item spellable.1).append
        (spells_spelledIn rest spellable.2)

end

/-- Parsing the source text of spellable items gives these items, places aside. -/
theorem ofSource_spelledIn
    (items : List (Item Place))
    (spellable : isSpellableIn items = true) :
    ∃ parsed,
      ofSource (spelledIn items) = .ok parsed ∧ bare parsed = bare items :=
  (spells_spelledIn items spellable).exists_ofSource

/-- Items that meet at every kind of seam. -/
def seams : List (Item Unit) :=
  [ .comment "a * b /".toList,
    .rule "a:not(;b) \\\x7b".toList
      [ .declaration ⟨"x(:)y".toList, "url(a;b:c) '\x7d'".toList, ()⟩,
        .atBlock "media\\;".toList "(min: 1px) and )".toList
          [ .rule ")\\\\".toList [] (),
            .atStatement [] "\"*/\"".toList () ] (),
        .comment [],
        .declaration ⟨"p/".toList, [], ()⟩ ] () ]

/-- Terminators in parentheses and strings, escapes and empty texts do not fuse. -/
theorem ofSource_spelledIn_seams :
    isSpellableIn seams = true ∧
      ∃ parsed,
        ofSource (spelledIn seams) = .ok parsed ∧ bare parsed = bare seams :=
  ⟨by decide +kernel, ofSource_spelledIn seams (by decide +kernel)⟩

end Item

end PageSheet
