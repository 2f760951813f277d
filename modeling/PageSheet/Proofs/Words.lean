import PageSheet.Proofs.Spelling
import PageSheet.Selector
namespace PageSheet

/-!
# Texts that are one word

Letters, digits and hyphens are plain: they neither end a word nor change what
they are.  A text of plain characters is one word, also behind the attribute
marker, so tags and the names of attributes can be selectors.
-/

/-- Whether a text is a non-empty run of ASCII letters, digits and hyphens. -/
def Attribute.isName (text : Text) : Bool :=
  !text.isEmpty && text.all fun c => c.isAlphanum || c = '-'

namespace Text

theorem trim_of_solid
    {text : Text}
    (solid : ∀ c ∈ text, isWhiteSpace c = false) :
    trim text = text := by
  have kept :
      ∀ {part : Text}, (∀ c ∈ part, isWhiteSpace c = false) →
        part.dropWhile isWhiteSpace = part := by
    intro part holds
    cases part with
    | nil =>
        rfl
    | cons c rest =>
        rw [List.dropWhile_cons_of_neg (by simp [holds c List.mem_cons_self])]
  unfold trim trimStart trimEnd
  rw [kept solid, kept (by simpa using solid), List.reverse_reverse]

end Text

namespace Lexeme

/-- What it means that a character neither ends a word nor changes what it is. -/
structure IsPlain (c : Char) : Prop where
  notDelimiter : isDelimiter c = false
  solid : Text.isWhiteSpace c = false
  notEscape : c ≠ '\\'
  notComment : c ≠ '/'

/-- Letters, digits and hyphens are plain. -/
theorem isPlain_of_name
    {c : Char}
    (inName : (c.isAlphanum || c = '-') = true) :
    IsPlain c := by
  have codes :
      (decide (c.val ≥ 65 ∧ c.val ≤ 90) || (c.val ≥ 97 && c.val ≤ 122)
        || (c.val ≥ 48 && c.val ≤ 57) || c = '-') = true :=
    inName
  have ascii : c.toNat < 128 := by
    simp only [Bool.or_eq_true, Bool.and_eq_true, decide_eq_true_eq] at codes
    rcases codes with ((⟨-, upper⟩ | ⟨-, upper⟩) | ⟨-, upper⟩) | rfl
    · exact Nat.lt_of_le_of_lt upper (by decide)
    · exact Nat.lt_of_le_of_lt upper (by decide)
    · exact Nat.lt_of_le_of_lt upper (by decide)
    · decide
  have checked :
      ∀ code : Fin 128, ((Char.ofNat code).isAlphanum || Char.ofNat code = '-') = true →
        isDelimiter (Char.ofNat code) = false ∧
          Text.isWhiteSpace (Char.ofNat code) = false ∧
            Char.ofNat code ≠ '\\' ∧ Char.ofNat code ≠ '/' := by
    decide +kernel
  have here := checked ⟨c.toNat, ascii⟩
  rw [Char.ofNat_toNat] at here
  obtain ⟨notDelimiter, solid, notEscape, notComment⟩ := here inName
  exact ⟨notDelimiter, solid, notEscape, notComment⟩

theorem splitWord_of_plain
    {text : Text}
    (plain : ∀ c ∈ text, IsPlain c) :
    splitWord text = (text, []) := by
  induction text with
  | nil =>
      rfl
  | cons c rest inductionHypothesis =>
      obtain ⟨first, others⟩ := List.forall_mem_cons.mp plain
      have tail := inductionHypothesis others
      have single : ∀ behind, c = '/' → rest = '*' :: behind → False :=
        fun _ isComment => absurd isComment first.notComment
      rw [splitWord_cons first.notEscape single first.notDelimiter, tail]

/-- A word that is read up to its end is the one lexeme of its text. -/
theorem ofText?_of_splitWord
    {c : Char}
    {rest : Text}
    (notDelimiter : isDelimiter c = false)
    (notComment : c ≠ '/')
    (oneWord : splitWord (c :: rest) = (c :: rest, [])) :
    ofText? (c :: rest) = some [.word (c :: rest)] := by
  have single : ∀ behind, c = '/' → rest = '*' :: behind → False :=
    fun _ isComment => absurd isComment notComment
  have begins := Begins.word notDelimiter single
  have whole : readWord (c :: rest) = ⟨.word (c :: rest), c :: rest, []⟩ := by
    simp only [readWord, oneWord]
  rw [whole] at begins
  exact ofText?_eq_some_iff.mpr (.step begins (.done []))

end Lexeme

namespace Text

theorem endsUnpaired_of_plain
    {text : Text}
    (plain : ∀ c ∈ text, Lexeme.IsPlain c) :
    endsUnpaired text = false := by
  apply Bool.eq_false_iff.mpr
  intro unpaired
  have last := List.mem_of_getLast? (getLast?_of_endsUnpaired unpaired)
  exact (plain '\\' last).notEscape rfl

/-- A word without white space and with its backslashes paired can be a selector. -/
theorem isSelector_of_word
    {c : Char}
    {rest : Text}
    (solid : ∀ d ∈ c :: rest, isWhiteSpace d = false)
    (paired : endsUnpaired (c :: rest) = false)
    (oneWord : Lexeme.ofText? (c :: rest) = some [.word (c :: rest)]) :
    isSelector (c :: rest) = true := by
  have trimmed := trim_of_solid solid
  have isPrelude : Prelude.isPrelude [.word (c :: rest)] = true :=
    rfl
  simp [isSelector, isClean, startsWithAtWord, trimmed, paired, oneWord, isPrelude,
    Lexeme.isComment]

variable {c : Char} {rest : Text}

theorem isSelector_of_plain
    (plain : ∀ d ∈ c :: rest, Lexeme.IsPlain d) :
    isSelector (c :: rest) = true := by
  have first := plain c List.mem_cons_self
  have oneWord := Lexeme.splitWord_of_plain plain
  exact isSelector_of_word (fun d member => (plain d member).solid)
    (endsUnpaired_of_plain plain)
    (Lexeme.ofText?_of_splitWord first.notDelimiter first.notComment oneWord)

/-- The attribute marker takes a plain character with it and is part of the word. -/
theorem isSelector_marked
    (plain : ∀ d ∈ c :: rest, Lexeme.IsPlain d) :
    isSelector (Attribute.marker :: c :: rest) = true := by
  obtain ⟨first, others⟩ := List.forall_mem_cons.mp plain
  have solid : ∀ d ∈ Attribute.marker :: c :: rest, isWhiteSpace d = false :=
    List.forall_mem_cons.mpr ⟨by decide, fun d member => (plain d member).solid⟩
  have pairedRest := endsUnpaired_of_plain others
  have paired : endsUnpaired (Attribute.marker :: c :: rest) = false :=
    pairedRest
  have oneWord :
      Lexeme.splitWord (Attribute.marker :: c :: rest) =
        (Attribute.marker :: c :: rest, []) := by
    have taken :
        Lexeme.splitWord (Attribute.marker :: c :: rest) =
          (Attribute.marker :: c :: (Lexeme.splitWord rest).1,
            (Lexeme.splitWord rest).2) :=
      rfl
    rw [taken, Lexeme.splitWord_of_plain others]
  exact isSelector_of_word solid paired
    (Lexeme.ofText?_of_splitWord (by decide) (by decide) oneWord)

theorem isSelector_of_isElementName
    {tag : Text}
    (isTag : Selector.isElementName tag = true) :
    isSelector tag = true := by
  simp only [Selector.isElementName, Bool.and_eq_true, List.all_eq_true] at isTag
  cases tag with
  | nil =>
      cases isTag.1
  | cons c rest =>
      refine isSelector_of_plain fun d member => Lexeme.isPlain_of_name ?_
      rw [isTag.2 d member]
      rfl

theorem isSelector_of_isName
    {name : Text}
    (isName : Attribute.isName name = true) :
    isSelector (Attribute.marker :: name) = true := by
  simp only [Attribute.isName, Bool.and_eq_true, List.all_eq_true] at isName
  cases name with
  | nil =>
      cases isName.1
  | cons c rest =>
      exact isSelector_marked fun d member =>
        Lexeme.isPlain_of_name (isName.2 d member)

end Text

end PageSheet
