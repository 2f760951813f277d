import PageSheet.Text.Basic
namespace PageSheet.Path

/-!
# Paths

A path is a text whose slashes separate the names on the way to a file.  A path
that starts with a slash starts at the top directory.  Empty pieces and single
dots stand for no step, and two dots stand for a step up.

Everything here is about the text of a path; nothing is looked up.
-/

/-- A single dot, which stands for no step. -/
def here : Text :=
  ['.']

/-- Two dots, which stand for a step up. -/
def above : Text :=
  ['.', '.']

/-- Whether a path starts at the top directory. -/
def isAbsolute (path : Text) : Bool :=
  path.head? = some '/'

/-- The pieces of a path between its slashes, those that stand for no step included. -/
def segments (path : Text) : List Text :=
  Text.pieces '/' path

/-- Whether a segment stands for a step. -/
def isStep (segment : Text) : Bool :=
  segment ≠ [] && segment ≠ here

/-- The segments of a path that stand for a step. -/
def steps (path : Text) : List Text :=
  (segments path).filter isStep

/-- One part of a path on the way to a file. -/
inductive Component where
  /-- The top directory. -/
  | top
  /-- A single dot at the start of a path. -/
  | here
  /-- A step up. -/
  | above
  /-- A step to a name. -/
  | name (text : Text)
  deriving Repr, DecidableEq

namespace Component

/-- The component that a step is. -/
def ofStep (step : Text) : Component :=
  if step = Path.above then .above else .name step

/-- Whether a component stays where it is taken, or below. -/
def isDownwards : Component → Bool
  | .top => false
  | .here => true
  | .above => false
  | .name _ => true

end Component

/-- The component that a path starts with, if it is no step. -/
def first? (path : Text) : Option Component :=
  if isAbsolute path then
    some .top
  else if (segments path).head? = some here then
    some .here
  else
    none

/--
The components of a path.  Segments that stand for no step are left out, but for a single
dot that a path starts with.
-/
def components (path : Text) : List Component :=
  (first? path).toList ++ (steps path).map Component.ofStep

/-- The path to something that lies below a path, unless it starts at the top itself. -/
def join
    (path below : Text) :
    Text :=
  if isAbsolute below then
    below
  else if path = [] || path.getLast? = some '/' then
    path ++ below
  else
    path ++ '/' :: below

/-- The name of the file that a path leads to, if its last step is a name. -/
def fileName? (path : Text) : Option Text :=
  (steps path).getLast?.filter fun name => name != above

/--
A file name without its extension, which starts at the last dot.  A dot at the
start of a name starts no extension.
-/
def withoutExtension (name : Text) : Text :=
  match name.reverse.dropWhile fun c => c != '.' with
  | [] => name
  | [_] => name
  | _ :: stem => stem.reverse

/-- The name without extension of the file that a path leads to. -/
def stem? (path : Text) : Option Text :=
  (fileName? path).map withoutExtension

/-- The paths above a list of steps from a path on, the deepest first. -/
def pathsAbove
    (path : Text) :
    List Text → List Text
  | [] => []
  | [_] => []
  | step :: next :: rest =>
      pathsAbove (join path step) (next :: rest) ++ [join path step]

/-- A path and the paths of the directories above it, the deepest first. -/
def upwards (path : Text) : List Text :=
  if path = [] then
    []
  else
    path :: pathsAbove (if isAbsolute path then ['/'] else []) (steps path)

/-- What stands between a path and something below it. -/
def slashBehind (path : Text) : Text :=
  if path = [] ∨ path.getLast? = some '/' then [] else ['/']

/-- A relative path is joined by writing it behind a path and a slash. -/
theorem join_eq
    (path : Text)
    {below : Text}
    (relative : isAbsolute below = false) :
    join path below = path ++ slashBehind path ++ below := by
  unfold join slashBehind
  rw [if_neg (by simp [relative])]
  split <;> simp_all

/-- Below a path, a relative path stays below it. -/
theorem join_of_relative
    {path below : Text}
    (relative : isAbsolute below = false) :
    ∃ slash, join path below = path ++ slash ++ below :=
  ⟨slashBehind path, join_eq path relative⟩

/-- A relative path stays below exactly when none of its segments stands for a step up. -/
theorem all_isDownwards_iff
    {path : Text}
    (relative : isAbsolute path = false) :
    (components path).all Component.isDownwards = true ↔ above ∉ segments path := by
  have first : (first? path).toList.all Component.isDownwards = true := by
    rw [first?, relative, if_neg Bool.false_ne_true]
    split <;> rfl
  have isDownwards_ofStep :
      ∀ step, (Component.ofStep step).isDownwards = true ↔ step ≠ above := by
    intro step
    unfold Component.ofStep
    split <;> simp_all [Component.isDownwards]
  rw [components, List.all_append, first, Bool.true_and, List.all_eq_true]
  constructor
  · intro stays member
    have isStep : above ∈ steps path :=
      List.mem_filter.mpr ⟨member, rfl⟩
    exact (isDownwards_ofStep above).mp (stays _ (List.mem_map_of_mem isStep)) rfl
  · intro absent component member
    obtain ⟨step, taken, rfl⟩ := List.mem_map.mp member
    refine (isDownwards_ofStep step).mpr ?_
    rintro rfl
    exact absent (List.mem_filter.mp taken).1

end PageSheet.Path
