import PageSheet.Proofs.Following
import PageSheet.Site
namespace PageSheet

/-!
# Where an address leads to

An address is refused for its components and resolved as a text, and the two views of it
agree: slashes at its start and segments that stand for no step change nothing in the
components, and no other segment is taken for a step up.  So exactly the addresses with a
segment of two dots are refused, and all others lead to a path that starts with the root as
it is written and takes no step up behind it.
-/

namespace Path

/-- A path without the slashes at its start. -/
def unrooted (path : Text) : Text :=
  path.dropWhile fun c => c == '/'

theorem isAbsolute_unrooted
    (path : Text) :
    isAbsolute (unrooted path) = false := by
  have stopped := List.head?_dropWhile_not (fun c => c == '/') path
  unfold isAbsolute unrooted
  split at stopped
  · next c isFirst =>
      rw [isFirst]
      simpa using stopped
  · next nothing =>
      rw [nothing]
      rfl

/-- Slashes at the start of a path add segments that stand for no step. -/
theorem exists_segments_unrooted
    (path : Text) :
    ∃ count, segments path = List.replicate count [] ++ segments (unrooted path) := by
  induction path with
  | nil =>
      exact ⟨0, rfl⟩
  | cons c rest inductionHypothesis =>
      by_cases isSlash : c = '/'
      · subst isSlash
        obtain ⟨count, whole⟩ := inductionHypothesis
        exact ⟨count + 1, congrArg ([] :: ·) whole⟩
      · have same : unrooted (c :: rest) = c :: rest :=
          List.dropWhile_cons_of_neg (by simpa using isSlash)
        exact ⟨0, by rw [same]; rfl⟩

/-- So they take no step away and add none. -/
theorem mem_segments_unrooted_iff
    {path step : Text}
    (inhabited : step ≠ []) :
    step ∈ segments (unrooted path) ↔ step ∈ segments path := by
  obtain ⟨count, whole⟩ := exists_segments_unrooted path
  rw [whole, List.mem_append, List.mem_replicate]
  simp [inhabited]

theorem steps_unrooted
    (path : Text) :
    steps (unrooted path) = steps path := by
  obtain ⟨count, whole⟩ := exists_segments_unrooted path
  have noSteps : (List.replicate count ([] : Text)).filter isStep = [] := by
    rw [List.filter_replicate_of_neg (by decide)]
  rw [steps, steps, whole, List.filter_append, noSteps, List.nil_append]

end Path

namespace Site

/-- The path below the root that an address asks for. -/
def wanted (address : Text) : Text :=
  if Path.unrooted (pathPart address) = [] then
    "index.html".toList
  else
    Path.unrooted (pathPart address)

theorem isAbsolute_wanted
    (address : Text) :
    Path.isAbsolute (wanted address) = false := by
  unfold wanted
  split
  · decide +kernel
  · exact Path.isAbsolute_unrooted (pathPart address)

theorem wanted_ne_nil
    (address : Text) :
    wanted address ≠ [] := by
  unfold wanted
  split
  · decide +kernel
  · assumption

/-- The step up is wanted only by an address that has it. -/
theorem above_mem_wanted_iff
    (address : Text) :
    Path.above ∈ Path.segments (wanted address) ↔
      Path.above ∈ Path.segments (pathPart address) := by
  have same := @Path.mem_segments_unrooted_iff (pathPart address) Path.above (by decide)
  rw [← same]
  unfold wanted
  split
  · next empty =>
      rw [empty]
      decide +kernel
  · exact Iff.rfl

/-- An address is resolved unless it wants a step up, and then to what it wants. -/
theorem resolve?_eq
    (root address : Text) :
    resolve? root address =
      if Path.above ∈ Path.segments (wanted address) then
        none
      else
        some (Path.join root (wanted address)) := by
  unfold resolve? wanted
  dsimp only
  rw [← Path.unrooted]
  by_cases empty : Path.unrooted (pathPart address) = []
  · simp only [if_pos empty]
    rw [if_neg (by decide +kernel)]
  · simp only [if_neg empty,
      Path.all_isDownwards_iff (Path.isAbsolute_unrooted (pathPart address))]
    exact ite_not ..

theorem resolve?_eq_some_iff
    {root address path : Text} :
    resolve? root address = some path ↔
      Path.above ∉ Path.segments (wanted address) ∧
        path = Path.join root (wanted address) := by
  rw [resolve?_eq]
  split <;> simp_all [eq_comm]

/--
What it means that an address is refused for a step up alone, and else leads to a path
that is the root as it is written with the wanted path behind it.
-/
structure LeadsBelow (root address : Text) : Prop where
  refused :
    resolve? root address = none ↔ Path.above ∈ Path.segments (pathPart address)
  written :
    ∀ {path},
      resolve? root address = some path →
        path = root ++ Path.slashBehind root ++ wanted address
  /-- The path starts where the root starts. -/
  anchored :
    ∀ {path},
      resolve? root address = some path → Path.isAbsolute path = Path.isAbsolute root
  /-- Behind the root no step up is taken. -/
  downwards :
    ∀ {path},
      resolve? root address = some path →
        Path.above ∉ Path.segments (path.drop root.length)

/-- Every address leads below the root, or nowhere. -/
theorem leadsBelow
    (root address : Text) :
    LeadsBelow root address where
  refused := by
    rw [resolve?_eq, ← above_mem_wanted_iff]
    split <;> simp_all
  written isResolved := by
    rw [(resolve?_eq_some_iff.mp isResolved).2]
    exact Path.join_eq root (isAbsolute_wanted address)
  anchored isResolved := by
    rw [(resolve?_eq_some_iff.mp isResolved).2]
    exact Path.isAbsolute_join (isAbsolute_wanted address)
  downwards isResolved := by
    obtain ⟨stays, rfl⟩ := resolve?_eq_some_iff.mp isResolved
    rw [Path.join_eq root (isAbsolute_wanted address), List.append_assoc, List.drop_left]
    unfold Path.slashBehind
    split
    · exact stays
    · have segments :
          Path.segments (['/'] ++ wanted address) = [] :: Path.segments (wanted address) :=
        rfl
      rw [segments, List.mem_cons, not_or]
      exact ⟨by decide, stays⟩

/-- Names that only look like steps up, steps that are none, and a slash too many. -/
example :
    resolve? "dist/".toList "//./.../..a?../..".toList = some "dist/./.../..a".toList ∧
      resolve? [] "//etc/passwd#x".toList = some "etc/passwd".toList ∧
        resolve? ['/'] "?x".toList = some "/index.html".toList ∧
          resolve? "dist".toList "a/./..".toList = none := by
  decide +kernel

end Site

end PageSheet
