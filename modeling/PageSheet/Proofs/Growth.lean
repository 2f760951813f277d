import PageSheet.Proofs.Trees
namespace PageSheet

/-!
# Making directories

Making the directories along a path adds directories where nothing was and changes
nothing else, whether it succeeds or fails on the way.  Every directory that is added is
one that a path of the list leads to.  When it succeeds, the path leads to a directory,
and so do all paths above it.
-/

namespace Disk

theorem isDirectory_iff
    {disk : Disk}
    {path : Text} :
    disk.isDirectory path = true ↔
      ∃ location,
        disk.locate path = .ok location ∧ disk.find? location = some .directory := by
  rw [← lookup_eq_ok_iff]
  unfold isDirectory
  rcases disk.lookup path with fault | (bytes | _) <;> simp

/-- What it means that a disk grew by directories that the paths of a list lead to. -/
structure GrownAlong
    (paths : List Text)
    (before after : Disk) : Prop where
  working : after.working = before.working
  found :
    ∀ location,
      after.find? location = before.find? location ∨
        before.find? location = none ∧
          after.find? location = some .directory ∧
            ∃ path ∈ paths, after.locate path = .ok location
  isTree : before.IsTree → after.IsTree

namespace GrownAlong

variable {paths others : List Text} {before between after : Disk}

theorem refl
    (paths : List Text)
    (disk : Disk) :
    GrownAlong paths disk disk where
  working := rfl
  found := fun _ => .inl rfl
  isTree := id

theorem keeps
    (grown : GrownAlong paths before after) :
    before.Keeps after where
  working := grown.working
  directory {location} isDirectory := by
    rcases grown.found location with same | ⟨absent, -⟩
    · rw [same, isDirectory]
    · cases absent.symm.trans isDirectory
  present {location entry} there := by
    rcases grown.found location with same | ⟨absent, -⟩
    · exact ⟨entry, same.trans there⟩
    · cases absent.symm.trans there

theorem mono
    (grown : GrownAlong paths before after)
    (within : ∀ path ∈ paths, path ∈ others) :
    GrownAlong others before after where
  working := grown.working
  found location := by
    rcases grown.found location with same | ⟨absent, made, path, member, leads⟩
    · exact .inl same
    · exact .inr ⟨absent, made, path, within path member, leads⟩
  isTree := grown.isTree

theorem trans
    (first : GrownAlong paths before between)
    (second : GrownAlong paths between after) :
    GrownAlong paths before after where
  working :=
    second.working.trans first.working
  found location := by
    rcases second.found location with same | ⟨absent, made, later⟩
    · rw [same]
      rcases first.found location with same | ⟨absent, made, path, member, leads⟩
      · exact .inl same
      · exact .inr ⟨absent, made, path, member, second.keeps.locate leads⟩
    · refine .inr ⟨?_, made, later⟩
      rcases first.found location with same | ⟨-, made, -⟩
      · exact same.symm.trans absent
      · cases absent.symm.trans made
  isTree :=
    second.isTree ∘ first.isTree

end GrownAlong

/-- One directory that is made is the only thing that changes. -/
theorem grownAlong_of_makeDirectory
    {disk after : Disk}
    {path : Text}
    (made : disk.makeDirectory path = .ok after) :
    GrownAlong [path] disk after ∧ after.isDirectory path = true := by
  obtain ⟨⟨parent, name⟩, slot, rest⟩ := exists_of_bind_eq_ok made
  dsimp only at rest
  split at rest
  · cases rest
  next named =>
  have isName : isName name = true := by
    simpa using named
  split at rest
  · cases rest
  next absent =>
  cases rest
  have notTop := List.cons_ne_nil name parent
  have notDirectory : disk.find? (name :: parent) ≠ some .directory := by
    rw [absent]
    exact nofun
  have keeps := Keeps.put notTop notDirectory .directory
  have there : (disk.put (name :: parent) .directory).find? (name :: parent) =
      some .directory := by
    rw [find?_put notTop, if_pos rfl]
  have leads := locate_of_slot keeps slot isName there
  refine ⟨⟨rfl, fun location => ?_, fun isTree => ?_⟩, isDirectory_iff.mpr ⟨_, leads, there⟩⟩
  · by_cases same : location = name :: parent
    · subst same
      exact .inr ⟨absent, there, path, List.mem_singleton.mpr rfl, leads⟩
    · exact .inl (by rw [find?_put notTop, if_neg same])
  · exact isTree.put (slot_eq_ok_iff.mp slot).2.2.1 notDirectory .directory

/-- What it means that directories were made, or were tried to be made, along paths. -/
structure Makes
    (paths : List Text)
    (before : Disk)
    (made : Except FileFault Unit × Disk) : Prop where
  grown : GrownAlong paths before made.2
  first : made.1 = .ok () → ∀ path ∈ paths.head?, made.2.isDirectory path = true

section Making

variable (disk : Disk) (path : Text)

theorem run_change
    (alter : Disk → Except FileFault Disk) :
    (change alter).run disk =
      match alter disk with
      | .error fault => (.error fault, disk)
      | .ok after => (.ok (), after) := by
  unfold change
  rw [StateT.run_bind]
  show StateT.run (match alter disk with | .error _ => _ | .ok _ => _) disk = _
  cases alter disk <;> rfl

/-- To tolerate a fault changes nothing, and succeeds only where a directory is. -/
theorem run_tolerate
    (fault : FileFault) :
    (files.tolerate path fault).run disk =
      (if disk.isDirectory path = true then .ok () else .error fault, disk) := by
  unfold Files.tolerate
  rw [StateT.run_bind]
  show StateT.run (if disk.isDirectory path = true then _ else _) disk = _
  cases disk.isDirectory path <;> rfl

/-- To try a directory that fails to be made is to tolerate its fault. -/
theorem makes_of_tolerate
    {before : Disk}
    {above : List Text}
    (grown : GrownAlong (path :: above) before disk)
    (fault : FileFault) :
    Makes (path :: above) before ((files.tolerate path fault).run disk) := by
  rw [run_tolerate]
  refine ⟨grown, fun succeeds => ?_⟩
  rintro _ ⟨⟩
  by_cases isDirectory : disk.isDirectory path = true
  · exact isDirectory
  · rw [if_neg isDirectory] at succeeds
    cases succeeds

/-- A directory that is made behind others is there, and one more. -/
theorem makes_of_makeDirectory
    {before after : Disk}
    {above : List Text}
    (grown : GrownAlong (path :: above) before disk)
    (made : disk.makeDirectory path = .ok after) :
    Makes (path :: above) before (.ok (), after) := by
  obtain ⟨added, isDirectory⟩ := grownAlong_of_makeDirectory made
  have within : ∀ other ∈ [path], other ∈ path :: above :=
    fun other member => List.mem_cons.mpr (.inl (List.mem_singleton.mp member))
  refine ⟨grown.trans (added.mono within), fun _ => ?_⟩
  rintro _ ⟨⟩
  exact isDirectory

/-- Directories are made along the paths of the list, and the first one is there. -/
theorem makes_makeFirst
    (paths : List Text) :
    Makes paths disk ((files.makeFirst paths).run disk) := by
  induction paths generalizing disk with
  | nil =>
      exact ⟨.refl [] disk, fun _ _ isFirst => nomatch isFirst⟩
  | cons path above inductionHypothesis =>
      have untouched := GrownAlong.refl (path :: above) disk
      have tried :=
        fun disk : Disk => run_change disk fun disk => disk.makeDirectory path
      have unfolded : files.makeDirectory path = change fun disk => disk.makeDirectory path :=
        rfl
      rw [Files.makeFirst, StateT.run_bind, unfolded, tried]
      cases made : disk.makeDirectory path with
      | ok after =>
          exact makes_of_makeDirectory disk path untouched made
      | error fault =>
          cases fault with
          | missing =>
              -- The directories above may have been made even if one of them failed.
              have outer := (inductionHypothesis disk).grown.mono
                fun other member => List.mem_cons_of_mem path member
              show Makes (path :: above) disk ((files.makeFirst above >>= _).run disk)
              rw [StateT.run_bind]
              generalize (files.makeFirst above).run disk = reached at outer
              obtain ⟨result, between⟩ := reached
              cases result with
              | error fault =>
                  exact ⟨outer, nofun⟩
              | ok nothing =>
                  show Makes (path :: above) disk
                    ((change (fun disk => disk.makeDirectory path) >>= _).run between)
                  rw [StateT.run_bind, tried]
                  cases made : between.makeDirectory path with
                  | ok after =>
                      exact makes_of_makeDirectory between path outer made
                  | error fault =>
                      exact makes_of_tolerate between path outer fault
          | _ =>
              exact makes_of_tolerate disk path untouched _

end Making

section Above

variable {disk : Disk}

/-- Segments that stand for no step can be left out. -/
theorem follow_steps
    {location next : Location}
    {segments : List Text}
    (follows : disk.follow location segments = .ok next) :
    disk.follow location (segments.filter Path.isStep) = .ok next := by
  induction segments generalizing location with
  | nil =>
      exact follows
  | cons segment rest inductionHypothesis =>
      rw [follow_cons] at follows
      obtain ⟨between, first, others⟩ := exists_of_bind_eq_ok follows
      have shorter := inductionHypothesis others
      by_cases step : Path.isStep segment = true
      · rw [List.filter_cons_of_pos step, follow_cons, first]
        exact shorter
      · obtain ⟨-, ⟨-, rfl⟩ | ⟨rfl, -⟩ | ⟨named, -⟩⟩ := disk.followSegment_eq_ok_iff.mp first
        · rwa [List.filter_cons_of_neg step]
        · exact absurd rfl step
        · simp only [isName, Bool.and_eq_true] at named
          exact absurd named.1 step

/-- In front of a step that can be taken there is a directory. -/
theorem isDirectory_of_mem_pathsAbove
    {path : Text}
    {base location : Location}
    {steps : List Text}
    (reaches : disk.baseOf path = .ok base)
    (areSegments : ∀ step ∈ steps, '/' ∉ step ∧ step ≠ [])
    (follows : disk.follow base steps = .ok location) :
    ∀ above ∈ Path.pathsAbove path steps, disk.isDirectory above = true := by
  induction steps generalizing path base with
  | nil =>
      exact List.forall_mem_nil _
  | cons step rest inductionHypothesis =>
      cases rest with
      | nil =>
          exact List.forall_mem_nil _
      | cons next more =>
          obtain ⟨⟨noSlash, inhabited⟩, others⟩ := List.forall_mem_cons.mp areSegments
          rw [follow_cons] at follows
          obtain ⟨between, first, later⟩ := exists_of_bind_eq_ok follows
          have relative := Path.isAbsolute_of_not_mem noSlash
          have leads : disk.locate (Path.join path step) = .ok between := by
            have oneSegment : Path.segments step = [step] :=
              Text.pieces_of_not_mem noSlash
            rw [disk.locate_join path relative inhabited, reaches, oneSegment, ← first]
            exact disk.follow_singleton base step
          have reachesNext := disk.baseOf_of_locate leads
          have isDirectory : disk.find? between = some .directory := by
            rw [follow_cons] at later
            obtain ⟨after, taken, beyond⟩ := exists_of_bind_eq_ok later
            exact (disk.followSegment_eq_ok_iff.mp taken).1
          intro above member
          rcases List.mem_append.mp member with higher | same
          · exact inductionHypothesis reachesNext others later above higher
          · rw [List.mem_singleton.mp same]
            exact isDirectory_iff.mpr ⟨between, leads, isDirectory⟩

/-- If a path leads to a directory, so do the paths above it. -/
theorem isDirectory_of_mem_upwards
    {path : Text}
    (isDirectory : disk.isDirectory path = true) :
    ∀ above ∈ Path.upwards path, disk.isDirectory above = true := by
  obtain ⟨location, leads, -⟩ := isDirectory_iff.mp isDirectory
  unfold locate at leads
  split at leads
  · cases leads
  next inhabited =>
  unfold Path.upwards
  rw [if_neg inhabited]
  intro above member
  rcases List.mem_cons.mp member with rfl | higher
  · exact isDirectory
  refine isDirectory_of_mem_pathsAbove ?_ ?_ (follow_steps leads) above higher
  · obtain ⟨segment, rest, shape⟩ := List.exists_cons_of_ne_nil (Path.segments_ne_nil path)
    rw [shape, follow_cons] at leads
    obtain ⟨between, taken, others⟩ := exists_of_bind_eq_ok leads
    have starts := (disk.followSegment_eq_ok_iff.mp taken).1
    have stays := fun count => follow_blanks starts count
    unfold baseOf
    by_cases absolute : Path.isAbsolute path = true
    · simp only [origin, absolute, if_true] at stays ⊢
      exact stays 2
    · simp only [origin, absolute] at stays ⊢
      exact stays 1
  · intro step member
    obtain ⟨inPath, isStep⟩ := List.mem_filter.mp member
    refine ⟨Text.not_mem_of_mem_pieces inPath, ?_⟩
    rintro rfl
    cases isStep

end Above

end Disk

end PageSheet
