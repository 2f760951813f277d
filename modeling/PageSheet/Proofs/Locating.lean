import PageSheet.Proofs.Outcome
namespace PageSheet

/-!
# Places are where they say

The place of an offset in a source can be told by counting in the text before the
offset.  Scanning moves its position along with that text, so every token stands where
it says.

The parser makes up no places of its own.  It commutes with every description of
places, and so also with forgetting that a place is known to be the place of a token:
the places of the items, and the place of a failure, are places of tokens.
-/

namespace Position

/-- The position of an offset in a source, told by counting in the text before it. -/
def within
    (source : Text)
    (offset : Nat) :
    Position where
  offset :=
    offset
  line :=
    1 + (source.take offset).count '\n'
  column :=
    1 + (Text.lastLine (source.take offset)).length

/-- The position behind the first part of a source is that of the cut. -/
theorem after_start_eq_within
    (before behind : Text) :
    start.after before = within (before ++ behind) before.length := by
  rw [after_start, within, List.take_left]

end Position

namespace Item

mutual

/-- The places in an item, its own one first; a comment has none. -/
def places : Item Place → List Place
  | .rule _ children place => place :: placesIn children
  | .declaration stated => [stated.place]
  | .atStatement _ _ place => [place]
  | .atBlock _ _ children place => place :: placesIn children
  | .comment _ => []

/-- The places in a list of items, in document order. -/
def placesIn : List (Item Place) → List Place
  | [] => []
  | item :: rest => item.places ++ placesIn rest

end

section Relocating

variable (describe : Place → Place')

mutual

theorem places_relocate
    (item : Item Place) :
    (item.relocate describe).places = item.places.map describe := by
  cases item with
  | rule selector children place =>
      exact congrArg (describe place :: ·) (placesIn_relocateIn children)
  | atBlock name params children place =>
      exact congrArg (describe place :: ·) (placesIn_relocateIn children)
  | _ =>
      rfl

/-- The places in items are described one by one. -/
theorem placesIn_relocateIn
    (items : List (Item Place)) :
    placesIn (relocateIn describe items) = (placesIn items).map describe := by
  cases items with
  | nil =>
      rfl
  | cons item rest =>
      rw [relocateIn, placesIn, placesIn, places_relocate item, placesIn_relocateIn rest,
        List.map_append]

end

end Relocating

end Item

namespace Token

/-- Tokens whose places are known to be the places of some of them. -/
def known (tokens : List (Token Place)) :
    List (Token { place // ∃ token ∈ tokens, token.place = place }) :=
  tokens.attach.map fun ⟨token, member⟩ =>
    ⟨token.lexeme, token.place, token, member, rfl⟩

/-- Without what is known of their places they are the same tokens. -/
theorem map_val_known
    (tokens : List (Token Place)) :
    (known tokens).map (relocate Subtype.val) = tokens := by
  rw [known, List.map_map]
  exact List.attach_map_subtype_val tokens

end Token

namespace Item

variable {tokens : List (Token Place)}

/-- Every place in the items that tokens make up is the place of a token. -/
theorem exists_token_of_mem_placesIn
    {items : List (Item Place)}
    (parsed : ofTokens tokens = .ok items) :
    ∀ place ∈ placesIn items, ∃ token ∈ tokens, token.place = place := by
  rw [← Token.map_val_known tokens, ofTokens_relocate] at parsed
  cases parsedKnown : ofTokens (Token.known tokens) with
  | error failure =>
      rw [parsedKnown] at parsed
      cases parsed
  | ok knownItems =>
      rw [parsedKnown] at parsed
      cases parsed
      rw [placesIn_relocateIn]
      intro place member
      obtain ⟨isKnown, -, rfl⟩ := List.mem_map.mp member
      exact isKnown.property

/-- A failure is found at the place of a token. -/
theorem exists_token_of_failure
    {failure : Failure Fault Place}
    (refused : ofTokens tokens = .error failure) :
    ∃ token ∈ tokens, token.place = failure.place := by
  rw [← Token.map_val_known tokens, ofTokens_relocate] at refused
  cases refusedKnown : ofTokens (Token.known tokens) with
  | error knownFailure =>
      rw [refusedKnown] at refused
      cases refused
      exact knownFailure.place.property
  | ok items =>
      rw [refusedKnown] at refused
      cases refused

end Item

namespace Token

/-- Every token of a source stands where it says. -/
theorem start_eq_within
    {source : Text}
    {tokens : List (Token Span)}
    (scanned : scan source = .ok tokens)
    {token : Token Span}
    (member : token ∈ tokens) :
    token.place.start = .within source token.place.start.offset ∧
      token.place.start.offset ≤ source.length := by
  obtain ⟨front, back, rfl⟩ := List.append_of_mem member
  obtain ⟨before, behind, rfl, starts, -, -⟩ := exists_cut scanned
  have offset : token.place.start.offset = before.length := by
    rw [starts, Position.offset_after]
    exact Nat.zero_add before.length
  refine ⟨?_, ?_⟩
  · rw [offset, starts]
    exact Position.after_start_eq_within before behind
  · rw [offset, List.length_append]
    exact Nat.le_add_right _ _

/-- A source that is not scanned is refused where its open piece stands. -/
theorem place_eq_within
    {source : Text}
    {failure : Failure Lexeme.Unclosed Position}
    (refused : scan source = .error failure) :
    ∃ offset,
      OpensAt source failure.fault offset ∧ failure.place = .within source offset := by
  obtain ⟨offset, opens⟩ := exists_opensAt_of_scan refused
  have same := refused.symm.trans opens.scan_eq
  refine ⟨offset, opens, ?_⟩
  rw [Except.error.inj same]
  exact opens.place_eq

end Token

namespace Item

/--
What it means that everything which is found in a source, or wrong with it, is told to be
where it is.
-/
structure LocatesAll (source : Text) : Prop where
  tokens :
    ∀ {tokens},
      Token.scan source = .ok tokens →
        ∀ token ∈ tokens,
          token.place.start = .within source token.place.start.offset ∧
            token.place.start.offset ≤ source.length
  /-- Items have the places of tokens. -/
  items :
    ∀ {items},
      ofSource source = .ok items →
        ∃ tokens,
          Token.scan source = .ok tokens ∧
            ∀ place ∈ placesIn items,
              place.start = .within source place.start.offset ∧
                ∃ token ∈ tokens, token.place = place
  /-- What is wrong is told at a token, or where a piece is left open. -/
  failure :
    ∀ {failure},
      ofSource source = .error failure →
        (∃ tokens,
            Token.scan source = .ok tokens ∧
              ∃ token ∈ tokens,
                failure.place = .within source token.place.start.offset) ∨
          ∃ piece offset,
            failure.fault = .unclosed piece ∧
              Token.OpensAt source piece offset ∧ failure.place = .within source offset
  unclosed :
    ∀ {failure},
      Token.scan source = .error failure →
        ∃ offset,
          Token.OpensAt source failure.fault offset ∧ failure.place = .within source offset

/-- Every source has its tokens, items and failures where they say. -/
theorem locatesAll (source : Text) : LocatesAll source where
  tokens := fun scanned _ member => Token.start_eq_within scanned member
  items := by
    intro items parsed
    obtain ⟨tokens, scanned, made⟩ := exists_tokens_of_ofSource parsed
    refine ⟨tokens, scanned, fun place member => ?_⟩
    obtain ⟨token, isToken, rfl⟩ := exists_token_of_mem_placesIn made place member
    exact ⟨(Token.start_eq_within scanned isToken).1, token, isToken, rfl⟩
  failure := by
    intro failure refused
    rcases cases_of_ofSource refused with
      ⟨refusal, scanned, rfl⟩ | ⟨tokens, unplaced, scanned, made, rfl⟩
    · obtain ⟨offset, opens, place⟩ := Token.place_eq_within scanned
      exact .inr ⟨refusal.fault, offset, rfl, opens, place⟩
    · obtain ⟨token, isToken, place⟩ := exists_token_of_failure made
      refine .inl ⟨tokens, scanned, token, isToken, ?_⟩
      rw [Failure.relocate, ← place]
      exact (Token.start_eq_within scanned isToken).1
  unclosed := Token.place_eq_within

/-- An escaped line feed, one inside a string, and a carriage return that ends no line. -/
example :
    (ofSource "a\\\n\"\n\":\r\n  b;\r c".toList).map placesIn =
      .error ⟨.unknownWord ['c'], ⟨15, 4, 7⟩⟩ := by
  decide +kernel

end Item

end PageSheet
