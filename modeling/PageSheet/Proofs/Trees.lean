import Mathlib.Data.List.Induction
import PageSheet.Proofs.Following
namespace PageSheet

/-!
# Trees of directories

On a disk that is a tree every entry lies in a directory.  A disk keeps another one if
directories stay directories and entries stay entries; then every path that led somewhere
leads there still.

A file is always reached by a name: a segment that stands for no step stays in a
directory, and a step up leads to one.
-/

namespace Disk

/-- A text of more than two characters can be a name. -/
theorem isName_of_length
    {segment : Text}
    (long : 2 < segment.length) :
    isName segment = true := by
  have differs : ∀ {other : Text}, other.length ≤ 2 → segment ≠ other := by
    rintro other short rfl
    exact absurd long (Nat.not_lt.mpr short)
  have notEmpty : segment ≠ [] := differs (by decide)
  have notHere : segment ≠ Path.here := differs (by decide)
  have notAbove : segment ≠ Path.above := differs (by decide)
  simp [isName, Path.isStep, notEmpty, notHere, notAbove]

/-- What it means that every entry, and the working directory, lies in a directory. -/
structure IsTree (disk : Disk) : Prop where
  parent :
    ∀ {name location entry},
      disk.find? (name :: location) = some entry →
        disk.find? location = some .directory
  working :
    disk.find? disk.working = some .directory

/-- The top directory alone is a tree. -/
theorem isTree_bare : (⟨[], []⟩ : Disk).IsTree where
  parent := nofun
  working := rfl

/-- What it means that a disk has all directories and all other entries of another one. -/
structure Keeps (before after : Disk) : Prop where
  working : after.working = before.working
  directory :
    ∀ {location},
      before.find? location = some .directory → after.find? location = some .directory
  present :
    ∀ {location entry},
      before.find? location = some entry → ∃ entry', after.find? location = some entry'

namespace Keeps

variable {before after : Disk}

/-- What is put where no directory is leaves everything else as it is. -/
theorem put
    {location : Location}
    (notTop : location ≠ [])
    (notDirectory : before.find? location ≠ some .directory)
    (entry : Entry) :
    before.Keeps (before.put location entry) where
  working := rfl
  directory {other} found := by
    rw [find?_put notTop]
    have differs : other ≠ location := by
      rintro rfl
      exact notDirectory found
    rw [if_neg differs, found]
  present {other _} found := by
    rw [find?_put notTop]
    by_cases same : other = location
    · exact ⟨entry, if_pos same⟩
    · exact ⟨_, by rw [if_neg same, found]⟩

theorem followSegment
    (keeps : before.Keeps after)
    {location next : Location}
    {segment : Text}
    (leads : before.followSegment location segment = .ok next) :
    after.followSegment location segment = .ok next := by
  obtain ⟨isDirectory, cases⟩ := before.followSegment_eq_ok_iff.mp leads
  refine after.followSegment_eq_ok_iff.mpr ⟨keeps.directory isDirectory, ?_⟩
  rcases cases with stays | up | ⟨isName, isNext, entry, found⟩
  · exact .inl stays
  · exact .inr (.inl up)
  · exact .inr (.inr ⟨isName, isNext, keeps.present found⟩)

/-- Paths lead where they led before. -/
theorem follow
    (keeps : before.Keeps after)
    {location next : Location}
    {segments : List Text}
    (leads : before.follow location segments = .ok next) :
    after.follow location segments = .ok next := by
  induction segments generalizing location with
  | nil =>
      exact leads
  | cons segment rest inductionHypothesis =>
      rw [follow_cons] at leads ⊢
      obtain ⟨between, first, others⟩ := exists_of_bind_eq_ok leads
      rw [keeps.followSegment first]
      exact inductionHypothesis others

theorem origin_eq
    (keeps : before.Keeps after)
    (path : Text) :
    after.origin path = before.origin path := by
  unfold origin
  rw [keeps.working]

theorem locate
    (keeps : before.Keeps after)
    {path : Text}
    {location : Location}
    (leads : before.locate path = .ok location) :
    after.locate path = .ok location := by
  unfold Disk.locate at leads ⊢
  rw [keeps.origin_eq]
  by_cases empty : path = []
  · rw [if_pos empty] at leads
    cases leads
  · rw [if_neg empty] at leads ⊢
    exact keeps.follow leads

theorem baseOf
    (keeps : before.Keeps after)
    {path : Text}
    {location : Location}
    (leads : before.baseOf path = .ok location) :
    after.baseOf path = .ok location := by
  unfold Disk.baseOf at leads ⊢
  rw [keeps.origin_eq]
  exact keeps.follow leads

end Keeps

namespace IsTree

variable {disk : Disk}

/-- A tree stays one when an entry is put in a directory, where no directory is. -/
theorem put
    (isTree : disk.IsTree)
    {name : Text}
    {location : Location}
    (inside : disk.find? location = some .directory)
    (notDirectory : disk.find? (name :: location) ≠ some .directory)
    (entry : Entry) :
    (disk.put (name :: location) entry).IsTree where
  parent {other parent found'} found := by
    have keeps := @Keeps.put disk _ (List.cons_ne_nil name location) notDirectory entry
    rw [find?_put (List.cons_ne_nil name location)] at found
    by_cases same : other :: parent = name :: location
    · cases same
      exact keeps.directory inside
    · rw [if_neg same] at found
      exact keeps.directory (isTree.parent found)
  working := by
    have keeps := @Keeps.put disk _ (List.cons_ne_nil name location) notDirectory entry
    exact keeps.directory isTree.working

/-- Above a directory there is a directory. -/
theorem tail
    (isTree : disk.IsTree)
    {location : Location}
    (isDirectory : disk.find? location = some .directory) :
    disk.find? location.tail = some .directory := by
  cases location with
  | nil =>
      exact isDirectory
  | cons name parent =>
      exact isTree.parent isDirectory

/-- Every path starts in a directory. -/
theorem origin
    (isTree : disk.IsTree)
    (path : Text) :
    disk.find? (disk.origin path) = some .directory := by
  unfold Disk.origin
  split
  · rfl
  · exact isTree.working

/--
A segment that is no step up leads to what lies below the parent under its name, if
something does; if it stands for no step, it leads to the parent, a directory.
-/
theorem followSegment_eq_ok_iff_of_ne_above
    (isTree : disk.IsTree)
    {parent location : Location}
    {segment : Text}
    (notAbove : segment ≠ Path.above) :
    disk.followSegment parent segment = .ok location ↔
      location = ([segment].filter Path.isStep).reverse ++ parent ∧
        ∃ entry,
          disk.find? location = some entry ∧
            (Path.isStep segment = false → entry = .directory) := by
  rw [disk.followSegment_eq_ok_iff]
  by_cases step : Path.isStep segment = true
  · rw [List.filter_cons_of_pos step, List.filter_nil]
    constructor
    · rintro ⟨-, ⟨noStep, -⟩ | ⟨isAbove, -⟩ | ⟨-, rfl, entry, found⟩⟩
      · cases step.symm.trans noStep
      · exact absurd isAbove notAbove
      · exact ⟨rfl, entry, found, fun noStep => nomatch step.symm.trans noStep⟩
    · rintro ⟨rfl, entry, found, -⟩
      have named : Disk.isName segment = true := by
        simp [Disk.isName, step, notAbove]
      exact ⟨isTree.parent found, .inr (.inr ⟨named, rfl, entry, found⟩)⟩
  · have noStep : Path.isStep segment = false := by
      simpa using step
    rw [List.filter_cons_of_neg step, List.filter_nil]
    constructor
    · rintro ⟨found, ⟨-, rfl⟩ | ⟨isAbove, -⟩ | ⟨named, -⟩⟩
      · exact ⟨rfl, .directory, found, fun _ => rfl⟩
      · exact absurd isAbove notAbove
      · simp only [Disk.isName, Bool.and_eq_true] at named
        exact absurd named.1 step
    · rintro ⟨rfl, entry, found, ends⟩
      rw [ends noStep] at found
      exact ⟨found, .inl ⟨noStep, rfl⟩⟩

/--
Segments without a step up lead to what lies below their start under their names, if
something does; if the last of them stands for no step, it has to be a directory.
-/
theorem follow_eq_ok_iff
    (isTree : disk.IsTree)
    {start location : Location}
    (isDirectory : disk.find? start = some .directory)
    {segments : List Text}
    (downwards : Path.above ∉ segments) :
    disk.follow start segments = .ok location ↔
      location = (segments.filter Path.isStep).reverse ++ start ∧
        ∃ entry,
          disk.find? location = some entry ∧
            ∀ last ∈ segments.getLast?, Path.isStep last = false → entry = .directory := by
  induction segments using List.reverseRecOn generalizing location with
  | nil =>
      constructor
      · rintro ⟨⟩
        exact ⟨rfl, _, isDirectory, fun _ isLast => nomatch isLast⟩
      · rintro ⟨rfl, -⟩
        rfl
  | append_singleton front last inductionHypothesis =>
      have notAbove : last ≠ Path.above := by
        rintro rfl
        exact downwards List.mem_concat_self
      have before : Path.above ∉ front :=
        fun member => downwards (List.mem_append_left [last] member)
      have isLast : ∀ last' ∈ (front ++ [last]).getLast?, last' = last := by
        intro last' isLast
        rw [List.getLast?_concat] at isLast
        exact (Option.some.inj isLast).symm
      rw [follow_concat_eq_ok_iff, List.filter_append, List.reverse_append, List.append_assoc]
      constructor
      · rintro ⟨parent, follows, taken⟩
        obtain ⟨rfl, -⟩ := (inductionHypothesis before).mp follows
        obtain ⟨isBelow, entry, found, ends⟩ :=
          (isTree.followSegment_eq_ok_iff_of_ne_above notAbove).mp taken
        refine ⟨isBelow, entry, found, fun last' member => ?_⟩
        rw [isLast last' member]
        exact ends
      · rintro ⟨isBelow, entry, found, ends⟩
        have taken :=
          (isTree.followSegment_eq_ok_iff_of_ne_above notAbove).mpr
            ⟨isBelow, entry, found, ends last List.getLast?_concat⟩
        -- A segment is taken in a directory, so the segments in front of it lead there.
        have inside := (disk.followSegment_eq_ok_iff.mp taken).1
        have follows :=
          (inductionHypothesis before).mpr ⟨rfl, .directory, inside, fun _ _ _ => rfl⟩
        exact ⟨_, follows, taken⟩

/-- The last segment of a path to a file is its name. -/
theorem exists_name_of_file
    (isTree : disk.IsTree)
    {path : Text}
    {location : Location}
    {bytes : ByteArray}
    (leads : disk.locate path = .ok location)
    (isFile : disk.find? location = some (.file bytes)) :
    ∃ name parent,
      location = name :: parent ∧ Path.fileName? path = some name ∧ '/' ∉ name := by
  unfold locate at leads
  split at leads
  · cases leads
  obtain ⟨front, last, shape⟩ :=
    (List.eq_nil_or_concat (Path.segments path)).resolve_left (Path.segments_ne_nil path)
  rw [List.concat_eq_append] at shape
  rw [shape] at leads
  obtain ⟨parent, -, step⟩ := disk.follow_concat_eq_ok_iff.mp leads
  obtain ⟨isDirectory, ⟨-, rfl⟩ | ⟨-, rfl⟩ | ⟨isName, rfl, -⟩⟩ :=
    disk.followSegment_eq_ok_iff.mp step
  · cases isDirectory.symm.trans isFile
  · cases (isTree.tail isDirectory).symm.trans isFile
  simp only [Disk.isName, Bool.and_eq_true, decide_eq_true_eq] at isName
  obtain ⟨isStep, notAbove⟩ := isName
  have member : last ∈ Path.segments path := by
    rw [shape]
    exact List.mem_concat_self
  refine ⟨last, parent, rfl, ?_, Text.not_mem_of_mem_pieces member⟩
  simp [Path.fileName?, Path.steps, shape, List.filter_append, isStep, notAbove]

end IsTree

section Slots

variable {disk after : Disk} {path name : Text} {parent : Location}

/-- The slot of a path is where its last segment is taken, the others being followed. -/
theorem slot_eq_ok_iff :
    disk.slot path = .ok (parent, name) ↔
      path ≠ [] ∧
        disk.follow (disk.origin path) (Path.segments (withoutSlashes path)).dropLast =
            .ok parent ∧
          disk.find? parent = some .directory ∧
            name = (Path.segments (withoutSlashes path)).getLastD [] := by
  unfold slot
  by_cases empty : path = []
  · rw [if_pos empty]
    exact ⟨nofun, fun known => absurd empty known.1⟩
  rw [if_neg empty]
  constructor
  · intro taken
    obtain ⟨location, follows, inside⟩ := exists_of_bind_eq_ok taken
    rcases found : disk.find? location with _ | (bytes | _)
    all_goals rw [found] at inside
    all_goals cases inside
    exact ⟨empty, follows, found, rfl⟩
  · rintro ⟨-, follows, isDirectory, rfl⟩
    simp only [bind, Except.bind, follows, isDirectory]

theorem follow_blanks
    (isDirectory : disk.find? parent = some .directory)
    (count : Nat) :
    disk.follow parent (List.replicate count []) = .ok parent := by
  induction count with
  | zero =>
      rfl
  | succ count inductionHypothesis =>
      have stays : disk.followSegment parent [] = .ok parent :=
        disk.followSegment_eq_ok_iff.mpr ⟨isDirectory, .inl ⟨rfl, rfl⟩⟩
      rw [List.replicate_succ, follow_cons, stays]
      exact inductionHypothesis

/-- A path leads to what lies in its slot once that is a directory. -/
theorem locate_of_slot
    (keeps : disk.Keeps after)
    (slot : disk.slot path = .ok (parent, name))
    (isName : isName name = true)
    (made : after.find? (name :: parent) = some .directory) :
    after.locate path = .ok (name :: parent) := by
  obtain ⟨notEmpty, follows, isDirectory, isLast⟩ := slot_eq_ok_iff.mp slot
  obtain ⟨count, whole⟩ := Path.exists_segments_withoutSlashes path
  have split :
      Path.segments (withoutSlashes path) =
        (Path.segments (withoutSlashes path)).dropLast ++ [name] := by
    have last := List.getLast?_eq_some_getLast (Path.segments_ne_nil (withoutSlashes path))
    rw [isLast, List.getLastD_eq_getLast?, last, Option.getD_some,
      List.dropLast_concat_getLast]
  have step : after.followSegment parent name = .ok (name :: parent) :=
    after.followSegment_eq_ok_iff.mpr
      ⟨keeps.directory isDirectory, .inr (.inr ⟨isName, rfl, _, made⟩)⟩
  rw [locate, if_neg notEmpty, keeps.origin_eq, whole, split, follow_append, follow_append,
    keeps.follow follows]
  simp only [Except.bind, follow_singleton, step]
  exact follow_blanks made count

/-- The slot of a path that is joined with a name lies where the path leads to. -/
theorem slot_join
    {leaf : Text}
    (base : disk.baseOf path = .ok parent)
    (isDirectory : disk.find? parent = some .directory)
    (noSlash : '/' ∉ leaf)
    (inhabited : leaf ≠ []) :
    disk.slot (Path.join path leaf) = .ok (parent, leaf) := by
  have relative := Path.isAbsolute_of_not_mem noSlash
  obtain ⟨slash, shape⟩ := @Path.join_of_relative path leaf relative
  have notEmpty : Path.join path leaf ≠ [] := by
    rw [shape]
    exact List.append_ne_nil_of_right_ne_nil _ inhabited
  have unslashed : withoutSlashes (Path.join path leaf) = Path.join path leaf := by
    obtain ⟨front, last, rfl⟩ := (List.eq_nil_or_concat leaf).resolve_left inhabited
    have notSlash : last ≠ '/' := by
      rintro rfl
      exact noSlash (by simp)
    rw [shape, withoutSlashes]
    simp [notSlash]
  obtain ⟨front, isFront, whole⟩ := Path.exists_segments_join path relative
  have oneSegment : Path.segments leaf = [leaf] :=
    Text.pieces_of_not_mem noSlash
  rw [oneSegment] at whole
  have sameOrigin : disk.origin (Path.join path leaf) = disk.origin path := by
    unfold origin
    rw [Path.isAbsolute_join relative]
  refine slot_eq_ok_iff.mpr ⟨notEmpty, ?_, isDirectory, ?_⟩
  · rw [unslashed, whole, List.dropLast_concat, sameOrigin]
    unfold baseOf at base
    rcases isFront with same | longer
    · rwa [same] at base
    · rw [longer] at base
      obtain ⟨between, follows, stays⟩ := disk.follow_concat_eq_ok_iff.mp base
      obtain ⟨-, ⟨-, rfl⟩ | ⟨isAbove, -⟩ | ⟨isName, -⟩⟩ :=
        disk.followSegment_eq_ok_iff.mp stays
      · exact follows
      · cases isAbove
      · cases isName
  · rw [unslashed, whole]
    simp

/-- A file that is written into a directory is the only thing that changes. -/
theorem eq_put_of_write_join
    {leaf : Text}
    {bytes : ByteArray}
    (base : disk.baseOf path = .ok parent)
    (isDirectory : disk.find? parent = some .directory)
    (noSlash : '/' ∉ leaf)
    (inhabited : leaf ≠ [])
    (written : disk.write (Path.join path leaf) bytes = .ok after) :
    disk.find? (leaf :: parent) ≠ some .directory ∧
      after = disk.put (leaf :: parent) (.file bytes) := by
  obtain ⟨slot, taken, rest⟩ := exists_of_bind_eq_ok written
  cases (slot_join base isDirectory noSlash inhabited).symm.trans taken
  dsimp only at rest
  split at rest
  · cases rest
  rcases found : disk.find? (leaf :: parent) with _ | (bytes' | _)
  all_goals rw [found] at rest
  all_goals cases rest
  all_goals exact ⟨nofun, rfl⟩

end Slots

end Disk

end PageSheet
