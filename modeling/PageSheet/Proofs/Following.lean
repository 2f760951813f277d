import Mathlib.Data.List.TakeWhile
import PageSheet.Disk
import PageSheet.Proofs.Results
namespace PageSheet

/-!
# Following paths

The segments of a path that is joined from two are those of the first and then those of
the second, up to a segment between them that stands for no step.  So a joined path
leads where its second part leads from where its first part does.

Segments without a step up never leave what lies below the location they start from, and
nothing else is looked at on the way.  So two disks that agree below a location lead to
the same places below it.
-/

namespace Text

/-- A character that is no separator belongs to the first piece behind it. -/
theorem exists_pieces_cons
    {separator c : Char}
    (differs : c ≠ separator)
    (rest : Text) :
    ∃ first others,
      pieces separator rest = first :: others ∧
        pieces separator (c :: rest) = (c :: first) :: others := by
  obtain ⟨first, others, shape⟩ :=
    List.exists_cons_of_ne_nil (pieces_ne_nil separator rest)
  refine ⟨first, others, shape, ?_⟩
  rw [pieces, if_neg differs, shape]

/-- A separator divides the pieces in front of it from those behind it. -/
theorem pieces_append
    (separator : Char)
    (first second : Text) :
    pieces separator (first ++ separator :: second) =
      pieces separator first ++ pieces separator second := by
  induction first with
  | nil =>
      simp [pieces]
  | cons c rest inductionHypothesis =>
      by_cases isSeparator : c = separator
      · simp [pieces, isSeparator, inductionHypothesis]
      · obtain ⟨piece, others, shape, whole⟩ := exists_pieces_cons isSeparator rest
        rw [List.cons_append, pieces, if_neg isSeparator, inductionHypothesis, shape, whole]
        rfl

/-- A text without the separator is one piece. -/
theorem pieces_of_not_mem
    {separator : Char}
    {text : Text}
    (absent : separator ∉ text) :
    pieces separator text = [text] := by
  induction text with
  | nil =>
      rfl
  | cons c rest inductionHypothesis =>
      rw [List.mem_cons, not_or] at absent
      rw [pieces, if_neg (Ne.symm absent.1), inductionHypothesis absent.2]

/-- The separator is in no piece. -/
theorem not_mem_of_mem_pieces
    {separator : Char}
    {text piece : Text}
    (member : piece ∈ pieces separator text) :
    separator ∉ piece := by
  induction text generalizing piece with
  | nil =>
      rw [List.mem_singleton.mp member]
      exact List.not_mem_nil
  | cons c rest inductionHypothesis =>
      by_cases isSeparator : c = separator
      · rw [pieces, if_pos isSeparator] at member
        rcases List.mem_cons.mp member with rfl | inRest
        · exact List.not_mem_nil
        · exact inductionHypothesis inRest
      · obtain ⟨first, others, shape, whole⟩ := exists_pieces_cons isSeparator rest
        rw [whole] at member
        rw [shape] at inductionHypothesis
        rcases List.mem_cons.mp member with rfl | inOthers
        · have absent := inductionHypothesis List.mem_cons_self
          simp [absent, Ne.symm isSeparator]
        · exact inductionHypothesis (List.mem_cons_of_mem first inOthers)

end Text

namespace Path

theorem segments_ne_nil
    (path : Text) :
    segments path ≠ [] :=
  Text.pieces_ne_nil '/' path

theorem isAbsolute_of_not_mem
    {path : Text}
    (absent : '/' ∉ path) :
    isAbsolute path = false := by
  cases path with
  | nil =>
      rfl
  | cons c rest =>
      rw [List.mem_cons, not_or] at absent
      simpa [isAbsolute] using Ne.symm absent.1

/-- Slashes at the end of a path add segments that stand for no step. -/
theorem segments_append_slashes
    (path : Text)
    (count : Nat) :
    segments (path ++ List.replicate count '/') =
      segments path ++ List.replicate count [] := by
  induction count generalizing path with
  | zero =>
      simp
  | succ count inductionHypothesis =>
      have first : segments (path ++ ['/']) = segments path ++ [[]] :=
        Text.pieces_append '/' path []
      have others := inductionHypothesis (path ++ ['/'])
      rw [first, List.append_assoc, List.append_assoc] at others
      exact others

theorem exists_segments_withoutSlashes
    (path : Text) :
    ∃ count,
      segments path = segments (Disk.withoutSlashes path) ++ List.replicate count [] := by
  have whole :
      path =
        Disk.withoutSlashes path ++ (path.reverse.takeWhile fun c => c == '/').reverse := by
    rw [Disk.withoutSlashes, ← List.reverse_append, List.takeWhile_append_dropWhile,
      List.reverse_reverse]
  have ending :
      (path.reverse.takeWhile fun c => c == '/').reverse =
        List.replicate (path.reverse.takeWhile fun c => c == '/').length '/' := by
    rw [List.reverse_eq_iff, List.reverse_replicate]
    refine List.eq_replicate_of_mem fun c member => ?_
    simpa using List.mem_takeWhile_imp member
  refine ⟨(path.reverse.takeWhile fun c => c == '/').length, ?_⟩
  rw [← segments_append_slashes, ← ending, ← whole]

/-- The extension is the only thing that a name loses. -/
theorem mem_of_mem_withoutExtension
    {name : Text}
    {c : Char}
    (member : c ∈ withoutExtension name) :
    c ∈ name := by
  unfold withoutExtension at member
  split at member
  · exact member
  · exact member
  · next stem _ shape =>
      have inName : c ∈ name.reverse.dropWhile fun c => c != '.' := by
        rw [shape]
        exact List.mem_cons_of_mem _ (List.mem_reverse.mp member)
      exact List.mem_reverse.mp ((List.dropWhile_suffix _).subset inName)

section Joining

variable {path below : Text}

/-- A path that is joined with a relative one starts where it started before. -/
theorem isAbsolute_join
    (relative : isAbsolute below = false) :
    isAbsolute (join path below) = isAbsolute path := by
  cases path with
  | nil =>
      simp only [join, relative]
      exact relative
  | cons c rest =>
      obtain ⟨slash, shape⟩ := @join_of_relative (c :: rest) below relative
      rw [shape]
      rfl

/--
The segments of a joined path are those of its parts, where a last segment of the first
part may be missing if it stands for no step.
-/
theorem exists_segments_join
    (path : Text)
    (relative : isAbsolute below = false) :
    ∃ front,
      (segments path = front ∨ segments path = front ++ [[]]) ∧
        segments (join path below) = front ++ segments below := by
  unfold join
  rw [if_neg (by simp [relative])]
  by_cases empty : path = []
  · subst empty
    exact ⟨[], .inr rfl, rfl⟩
  by_cases slashed : path.getLast? = some '/'
  · obtain ⟨rest, rfl⟩ := List.getLast?_eq_some_iff.mp slashed
    refine ⟨segments rest, .inr (Text.pieces_append '/' rest []), ?_⟩
    rw [if_pos (by simp), List.append_assoc]
    exact Text.pieces_append '/' rest below
  · refine ⟨segments path, .inl rfl, ?_⟩
    rw [if_neg (by simp [empty, slashed])]
    exact Text.pieces_append '/' path below

end Joining

end Path

namespace Disk

section Following

variable (disk : Disk)

theorem follow_cons
    (location : Location)
    (segment : Text)
    (rest : List Text) :
    disk.follow location (segment :: rest) =
      (disk.followSegment location segment).bind fun next => disk.follow next rest :=
  List.foldlM_cons

theorem follow_singleton
    (location : Location)
    (segment : Text) :
    disk.follow location [segment] = disk.followSegment location segment := by
  rw [follow_cons]
  cases disk.followSegment location segment <;> rfl

theorem follow_append
    (location : Location)
    (first second : List Text) :
    disk.follow location (first ++ second) =
      (disk.follow location first).bind fun next => disk.follow next second :=
  List.foldlM_append

/-- The last segment is taken from where the others lead to. -/
theorem follow_concat_eq_ok_iff
    {start location : Location}
    {front : List Text}
    {last : Text} :
    disk.follow start (front ++ [last]) = .ok location ↔
      ∃ parent,
        disk.follow start front = .ok parent ∧
          disk.followSegment parent last = .ok location := by
  rw [follow_append]
  constructor
  · intro leads
    obtain ⟨parent, follows, taken⟩ := exists_of_bind_eq_ok leads
    exact ⟨parent, follows, (disk.follow_singleton parent last).symm.trans taken⟩
  · rintro ⟨parent, follows, taken⟩
    rw [follows]
    exact (disk.follow_singleton parent last).trans taken

/-- A segment that stands for no step only asks for what the next one asks for, too. -/
theorem follow_blank
    (location : Location)
    {segments : List Text}
    (inhabited : segments ≠ []) :
    disk.follow location ([] :: segments) = disk.follow location segments := by
  obtain ⟨segment, rest, rfl⟩ := List.exists_cons_of_ne_nil inhabited
  have stays :
      (disk.followSegment location []).bind (fun next => disk.followSegment next segment) =
        disk.followSegment location segment := by
    unfold followSegment
    cases found : disk.find? location with
    | none =>
        rfl
    | some entry =>
        cases entry with
        | file bytes =>
            rfl
        | directory =>
            simp [Path.isStep, Except.bind, found]
  rw [follow_cons, follow_cons disk location segment rest, ← stays]
  cases disk.followSegment location [] with
  | error fault =>
      rfl
  | ok next =>
      exact follow_cons disk next segment rest

/-- The location that a path leads to; the empty path leads to the working directory. -/
def baseOf (path : Text) : Except FileFault Location :=
  disk.follow (disk.origin path) (Path.segments path)

theorem baseOf_of_locate
    {path : Text}
    {location : Location}
    (leads : disk.locate path = .ok location) :
    disk.baseOf path = .ok location := by
  unfold locate at leads
  split at leads
  · cases leads
  · exact leads

theorem locate_of_baseOf
    {path : Text}
    {location : Location}
    (inhabited : path ≠ [])
    (base : disk.baseOf path = .ok location) :
    disk.locate path = .ok location := by
  rw [locate, if_neg inhabited]
  exact base

/-- A joined path leads where its second part leads from where its first part does. -/
theorem locate_join
    (path : Text)
    {below : Text}
    (relative : Path.isAbsolute below = false)
    (inhabited : below ≠ []) :
    disk.locate (Path.join path below) =
      (disk.baseOf path).bind fun base => disk.follow base (Path.segments below) := by
  have notEmpty : Path.join path below ≠ [] := by
    obtain ⟨slash, shape⟩ := @Path.join_of_relative path below relative
    rw [shape]
    exact List.append_ne_nil_of_right_ne_nil _ inhabited
  have sameOrigin : disk.origin (Path.join path below) = disk.origin path := by
    unfold origin
    rw [Path.isAbsolute_join relative]
  obtain ⟨front, isFront, whole⟩ := Path.exists_segments_join path relative
  rw [locate, if_neg notEmpty, sameOrigin, whole, baseOf, ← follow_append]
  rcases isFront with same | longer
  · rw [same]
  · rw [longer, List.append_assoc, follow_append, follow_append]
    simp only [List.singleton_append, disk.follow_blank _ (Path.segments_ne_nil below)]

theorem lookup_eq_ok_iff
    {path : Text}
    {entry : Entry} :
    disk.lookup path = .ok entry ↔
      ∃ location, disk.locate path = .ok location ∧ disk.find? location = some entry := by
  unfold lookup
  cases disk.locate path with
  | error fault =>
      exact ⟨nofun, nofun⟩
  | ok location =>
      cases found : disk.find? location <;> simp [bind, Except.bind, found]

/-- A path is read exactly where it leads to a file. -/
theorem read_eq_ok_iff
    {path : Text}
    {bytes : ByteArray} :
    disk.read path = .ok bytes ↔
      ∃ location,
        disk.locate path = .ok location ∧ disk.find? location = some (.file bytes) := by
  rw [← lookup_eq_ok_iff]
  unfold read
  rcases disk.lookup path with fault | (bytes' | _) <;> simp [bind, Except.bind]

/-- A segment is taken in a directory, and stays there, leads up or leads to an entry. -/
theorem followSegment_eq_ok_iff
    {location next : Location}
    {segment : Text} :
    disk.followSegment location segment = .ok next ↔
      disk.find? location = some .directory ∧
        ((Path.isStep segment = false ∧ next = location) ∨
          (segment = Path.above ∧ next = location.tail) ∨
            (isName segment = true ∧ next = segment :: location ∧
              ∃ entry, disk.find? (segment :: location) = some entry)) := by
  unfold followSegment
  rcases disk.find? location with _ | (bytes | _)
  · exact ⟨nofun, nofun⟩
  · exact ⟨nofun, nofun⟩
  by_cases step : Path.isStep segment = true
  · by_cases up : segment = Path.above
    · subst up
      simp [step, isName, eq_comm]
    · cases disk.find? (segment :: location) <;> simp [step, up, isName, eq_comm]
  · have up : segment ≠ Path.above := by
      rintro rfl
      exact step rfl
    simp [step, up, isName, eq_comm]

end Following

section Agreeing

variable {first second : Disk} {base base' : Location}

/-- Below locations where two disks agree they take every segment but a step up alike. -/
theorem followSegment_congr
    (agree : ∀ names, first.find? (names ++ base) = second.find? (names ++ base'))
    {segment : Text}
    (notAbove : segment ≠ Path.above)
    (names : Location) :
    ∃ reached : Except FileFault Location,
      first.followSegment (names ++ base) segment = reached.map (· ++ base) ∧
        second.followSegment (names ++ base') segment = reached.map (· ++ base') := by
  have next := agree (segment :: names)
  rw [List.cons_append, List.cons_append] at next
  unfold followSegment
  rw [agree names, next, if_neg notAbove, if_neg notAbove]
  cases second.find? (names ++ base') with
  | none =>
      exact ⟨.error .missing, rfl, rfl⟩
  | some entry =>
      cases entry with
      | file bytes =>
          exact ⟨.error .notDirectory, rfl, rfl⟩
      | directory =>
          by_cases step : Path.isStep segment = true
          · simp only [step]
            cases second.find? (segment :: (names ++ base')) with
            | none =>
                exact ⟨.error .missing, rfl, rfl⟩
            | some entry =>
                exact ⟨.ok (segment :: names), rfl, rfl⟩
          · simp only [step]
            exact ⟨.ok names, rfl, rfl⟩

/-- Segments without a step up stay below the locations and are taken alike there. -/
theorem follow_congr
    (agree : ∀ names, first.find? (names ++ base) = second.find? (names ++ base'))
    {segments : List Text}
    (downwards : Path.above ∉ segments)
    (names : Location) :
    ∃ reached : Except FileFault Location,
      first.follow (names ++ base) segments = reached.map (· ++ base) ∧
        second.follow (names ++ base') segments = reached.map (· ++ base') := by
  induction segments generalizing names with
  | nil =>
      exact ⟨.ok names, rfl, rfl⟩
  | cons segment rest inductionHypothesis =>
      have notAbove : segment ≠ Path.above := by
        rintro rfl
        exact downwards List.mem_cons_self
      have others : Path.above ∉ rest :=
        fun member => downwards (List.mem_cons_of_mem segment member)
      obtain ⟨reached, one, two⟩ := followSegment_congr agree notAbove names
      rw [follow_cons, follow_cons, one, two]
      cases reached with
      | error fault =>
          exact ⟨.error fault, rfl, rfl⟩
      | ok next =>
          exact inductionHypothesis others next

end Agreeing

end Disk

end PageSheet
