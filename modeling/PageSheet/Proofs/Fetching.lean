import PageSheet.Proofs.Seclusion
namespace PageSheet

/-!
# Every file of a site can be fetched

A file below the root is served under every address whose path takes the steps to it, with
as many slashes and segments for no step in it as one likes.  Only at its end such a
segment would ask for a directory.  What follows the path in an address does not matter.

The HTTP library that delivers the files is any one that does what is documented about it.

The type of the content is told by the end of the path, and it is the name of the file that
decides, since a suffix without a slash can only lie in the last segment of a path.
-/

namespace Path

section LastSegment

variable {path last : Text} {front : List Text}

/-- The last segment of a path is all of it, or what stands behind its last slash. -/
theorem cases_of_segments
    (shape : segments path = front ++ [last]) :
    ('/' ∉ path ∧ path = last) ∨ ∃ before, path = before ++ '/' :: last := by
  by_cases slashed : '/' ∈ path
  · obtain ⟨back, before, reversed, absent⟩ :=
      List.eq_append_cons_of_mem (List.mem_reverse.mpr slashed)
    have whole : path = before.reverse ++ '/' :: back.reverse := by
      rw [← List.reverse_reverse path, reversed]
      simp
    have oneSegment : Text.pieces '/' back.reverse = [back.reverse] :=
      Text.pieces_of_not_mem fun member => absent (List.mem_reverse.mp member)
    rw [segments, whole, Text.pieces_append, oneSegment] at shape
    have same : back.reverse = last :=
      List.singleton_inj.mp (List.append_inj' shape rfl).2
    exact .inr ⟨before.reverse, same ▸ whole⟩
  · have same : [] ++ [path] = front ++ [last] :=
      (Text.pieces_of_not_mem slashed).symm.trans shape
    exact .inl ⟨slashed, List.singleton_inj.mp (List.append_inj' same rfl).2⟩

/-- A text without a slash can end a path only if it ends the last segment. -/
theorem isSuffix_iff_of_segments
    (shape : segments path = front ++ [last])
    {ending : Text}
    (noSlash : '/' ∉ ending) :
    ending <:+ path ↔ ending <:+ last := by
  rcases cases_of_segments shape with ⟨-, rfl⟩ | ⟨before, rfl⟩
  · exact Iff.rfl
  have behind : last <:+ before ++ '/' :: last :=
    (List.suffix_cons '/' last).trans (List.suffix_append before _)
  constructor
  · intro ends
    -- An ending that is longer than the last segment would have the slash before it.
    rcases Nat.lt_or_ge last.length ending.length with longer | shorter
    · have inside : '/' :: last <:+ ending :=
        List.suffix_of_suffix_length_le (List.suffix_append before _) ends longer
      exact absurd (inside.subset List.mem_cons_self) noSlash
    · exact List.suffix_of_suffix_length_le ends behind shorter
  · exact fun ends => ends.trans behind

/-- A path whose last segment stands for a step is not empty. -/
theorem ne_nil_of_segments
    (shape : segments path = front ++ [last])
    (step : isStep last = true) :
    path ≠ [] := by
  rintro rfl
  have same : [] ++ [[]] = front ++ [last] :=
    shape
  rw [← List.singleton_inj.mp (List.append_inj' same rfl).2] at step
  cases step

/-- An absolute path that ends neither in a slash nor in a dot behind one ends in a step. -/
theorem isStep_of_segments
    (shape : segments path = front ++ [last])
    (rooted : isAbsolute path = true)
    (notSlash : ¬ ['/'] <:+ path)
    (notHere : ¬ ['/', '.'] <:+ path) :
    isStep last = true := by
  rcases cases_of_segments shape with ⟨noSlash, rfl⟩ | ⟨before, rfl⟩
  · rw [isAbsolute_of_not_mem noSlash] at rooted
    cases rooted
  have notEmpty : last ≠ [] := by
    rintro rfl
    exact notSlash (List.suffix_append before _)
  have notDot : last ≠ here := by
    rintro rfl
    exact notHere (List.suffix_append before _)
  simp [isStep, notEmpty, notDot]

end LastSegment

end Path

namespace Disk.IsTree

variable {disk : Disk} {root below : Text} {base : Location} {bytes : ByteArray}

/-- Everything that lies below a location lies below a directory. -/
theorem directory_of_below
    (isTree : disk.IsTree)
    {names : List Text}
    {name : Text}
    {entry : Entry}
    (found : disk.find? (name :: (names ++ base)) = some entry) :
    disk.find? base = some .directory := by
  induction names generalizing name entry with
  | nil =>
      exact isTree.parent found
  | cons next rest inductionHypothesis =>
      exact inductionHypothesis (isTree.parent found)

/-- A file is read below a path under every path that takes the steps to it. -/
theorem read_join_of_segments
    (isTree : disk.IsTree)
    (reaches : disk.baseOf root = .ok base)
    (relative : Path.isAbsolute below = false)
    (downwards : Path.above ∉ Path.segments below)
    {front : List Text}
    {last : Text}
    (shape : Path.segments below = front ++ [last])
    (isStep : Path.isStep last = true)
    (isFile : disk.find? ((Path.steps below).reverse ++ base) = some (.file bytes)) :
    disk.read (Path.join root below) = .ok bytes := by
  have inhabited : below ≠ [] :=
    Path.ne_nil_of_segments shape isStep
  have steps : Path.steps below = front.filter Path.isStep ++ [last] := by
    rw [Path.steps, shape, List.filter_append, List.filter_cons_of_pos isStep, List.filter_nil]
  have isDirectory : disk.find? base = some .directory := by
    rw [steps, List.reverse_concat] at isFile
    exact isTree.directory_of_below isFile
  refine disk.read_eq_ok_iff.mpr ⟨_, ?_, isFile⟩
  rw [disk.locate_join root relative inhabited, reaches]
  refine (isTree.follow_eq_ok_iff isDirectory downwards).mpr ⟨rfl, _, isFile, ?_⟩
  intro last' isLast noStep
  rw [shape, List.getLast?_concat] at isLast
  rw [← Option.some.inj isLast, isStep] at noStep
  cases noStep

end Disk.IsTree

namespace Site

/-- The types of contents can stand in a header. -/
theorem isGraphic_contentType
    (path : Text) :
    Http.isGraphic (contentType path) = true := by
  unfold contentType
  split <;> decide +kernel

section Answering

variable {http : Http HeaderLine Reply} {disk : Disk} {root address path : Text}

/-- A file that is found is delivered with success, with its type and as it is. -/
theorem found_of_reliable
    (reliable : http.Reliable)
    (method path : Text)
    (bytes : ByteArray) :
    found http method path bytes =
      { status := 200
        contentType := contentType path
        body := if method = "HEAD".toList then .empty else bytes } := by
  have named : Http.isGraphic Http.contentTypeName = true := by
    decide +kernel
  have graphic := isGraphic_contentType path
  obtain ⟨header, isHeader⟩ := reliable.header named graphic
  have body :
      (http.deliver method (http.ofFile bytes)).body =
        if method = "HEAD".toList then .empty else bytes := by
    split
    next isHead =>
      rw [isHead]
      exact reliable.body_head (http.ofFile bytes)
    next other =>
      exact reliable.body_ofFile other bytes
  simp only [found, isHeader, reliable.deliver_withHeader graphic isHeader,
    reliable.status_ofFile, body]

/-- What is resolved and read is found. -/
theorem answer_of_read
    {bytes : ByteArray}
    (resolved : resolve? root address = some path)
    (taken : disk.read path = .ok bytes)
    (method : Text) :
    answer http disk root method address = found http method path bytes := by
  rw [answer_eq]
  simp only [resolved, taken]

/-- Addresses that want the same path are answered alike. -/
theorem answer_eq_of_wanted
    {other : Text}
    (same : wanted address = wanted other)
    (method : Text) :
    answer http disk root method address = answer http disk root method other := by
  have resolved : resolve? root address = resolve? root other := by
    rw [resolve?_eq, resolve?_eq, same]
  rw [answer_eq, answer_eq, resolved]

end Answering

/-- What it means that an address spells the names on the way down from the root to a file. -/
structure Spells
    (address : Text)
    (names : List Text) : Prop where
  rooted : Path.isAbsolute (pathPart address) = true
  steps : Path.steps (pathPart address) = names
  notSlash : ¬ ['/'] <:+ pathPart address
  notHere : ¬ ['/', '.'] <:+ pathPart address

/-- What is wanted of an address that spells names ends in a segment for the last of them. -/
theorem Spells.exists_segments
    {address name : Text}
    {front : List Text}
    (spells : Spells address (front ++ [name])) :
    Path.steps (wanted address) = front ++ [name] ∧
      Path.isStep name = true ∧
        ∃ before, Path.segments (wanted address) = before ++ [name] := by
  obtain ⟨count, whole⟩ := Path.exists_segments_unrooted (pathPart address)
  obtain ⟨before, last, shape⟩ :=
    (List.eq_nil_or_concat _).resolve_left
      (Path.segments_ne_nil (Path.unrooted (pathPart address)))
  rw [List.concat_eq_append] at shape
  have isStep : Path.isStep last = true := by
    rw [shape, ← List.append_assoc] at whole
    exact Path.isStep_of_segments whole spells.rooted spells.notSlash spells.notHere
  have isWanted : wanted address = Path.unrooted (pathPart address) :=
    if_neg (Path.ne_nil_of_segments shape isStep)
  have steps := (Path.steps_unrooted (pathPart address)).trans spells.steps
  have isName : last = name := by
    rw [Path.steps, shape, List.filter_append, List.filter_cons_of_pos isStep] at steps
    exact List.singleton_inj.mp (List.append_inj' steps rfl).2
  rw [isWanted, ← isName]
  exact ⟨isName ▸ steps, isStep, before, shape⟩

/-- The name of a file alone tells the type of what is found. -/
theorem contentType_of_segments
    {path name : Text}
    {front : List Text}
    (shape : Path.segments path = front ++ [name]) :
    contentType path =
      if ".css".toList <:+ name then "text/css".toList else "text/html".toList := by
  have noSlash : '/' ∉ ".css".toList := by
    decide +kernel
  simp only [contentType, List.isSuffixOf_iff_suffix,
    Path.isSuffix_iff_of_segments shape noSlash]

/-- What it means that a site serves all files that a disk has below its root. -/
structure Serves
    (http : Http HeaderLine Reply)
    (disk : Disk)
    (root : Text) : Prop where
  /-- A file is found under all spellings; no entry of a directory is named by two dots. -/
  file :
    ∀ {base : Location} {front : List Text} {name address : Text} {bytes : ByteArray},
      disk.baseOf root = .ok base →
        Path.above ∉ front ++ [name] →
          disk.find? ((front ++ [name]).reverse ++ base) = some (.file bytes) →
            Spells address (front ++ [name]) →
              ∀ method,
                answer http disk root method address =
                  { status := 200
                    contentType :=
                      if ".css".toList <:+ name then
                        "text/css".toList
                      else
                        "text/html".toList
                    body := if method = "HEAD".toList then .empty else bytes }
  /-- An address without a path is answered like that of the index page. -/
  index :
    ∀ {address : Text},
      (∀ c ∈ pathPart address, c = '/') →
        ∀ method,
          answer http disk root method address =
            answer http disk root method "/index.html".toList

/-- A site on a tree of directories serves all files below its root. -/
theorem serves_of_isTree
    {http : Http HeaderLine Reply}
    (reliable : http.Reliable)
    {disk : Disk}
    (isTree : disk.IsTree)
    (root : Text) :
    Serves http disk root where
  file := by
    intro base front name address bytes reaches named isFile spells method
    obtain ⟨steps, isStep, before, shape⟩ := spells.exists_segments
    have relative := isAbsolute_wanted address
    have downwards : Path.above ∉ Path.segments (wanted address) := by
      intro member
      have isTaken : Path.above ∈ Path.steps (wanted address) :=
        List.mem_filter.mpr ⟨member, rfl⟩
      rw [steps] at isTaken
      exact named isTaken
    have taken : disk.read (Path.join root (wanted address)) = .ok bytes :=
      isTree.read_join_of_segments reaches relative downwards shape isStep (steps ▸ isFile)
    have resolved : resolve? root address = some (Path.join root (wanted address)) :=
      resolve?_eq_some_iff.mpr ⟨downwards, rfl⟩
    obtain ⟨above, -, joined⟩ := Path.exists_segments_join root relative
    rw [shape, ← List.append_assoc] at joined
    rw [answer_of_read resolved taken, found_of_reliable reliable,
      contentType_of_segments joined]
  index := by
    intro address slashes method
    have empty : Path.unrooted (pathPart address) = [] :=
      List.dropWhile_eq_nil_iff.mpr fun c member => beq_iff_eq.mpr (slashes c member)
    refine answer_eq_of_wanted ?_ method
    rw [wanted, if_pos empty]
    decide +kernel

/-- A disk with a site that has one file, in a directory below its root. -/
def builtSite : Disk :=
  (oneSite.put [['a'], "site".toList] .directory).put
    ["b.css".toList, ['a'], "site".toList] (.file "p\x7b\x7d".toUTF8)

/-- An address with slashes and dots too many, a query and a fragment. -/
def roundabout : Text :=
  "//./a//./b.css?/.#/..".toList

/-- A file is served, for its name as a style sheet, under a roundabout address. -/
theorem serves_of_isTree_roundabout :
    builtSite.IsTree ∧
      builtSite.baseOf "./site".toList = .ok ["site".toList] ∧
        builtSite.find? ["b.css".toList, ['a'], "site".toList] =
            some (.file "p\x7b\x7d".toUTF8) ∧
          Spells roundabout [['a'], "b.css".toList] ∧
            Serves Http.plain builtSite "./site".toList ∧
              answer Http.plain builtSite "./site".toList "GET".toList roundabout =
                ⟨200, "text/css".toList, "p\x7b\x7d".toUTF8⟩ := by
  have noDirectory : oneSite.find? [['a'], "site".toList] = none := by
    decide +kernel
  have noFile :
      (oneSite.put [['a'], "site".toList] .directory).find?
        ["b.css".toList, ['a'], "site".toList] = none := by
    decide +kernel
  have isTree : builtSite.IsTree := by
    have first : oneSite.IsTree :=
      Disk.isTree_bare.put rfl nofun _
    have second : (oneSite.put [['a'], "site".toList] .directory).IsTree :=
      first.put rfl (by rw [noDirectory]; exact nofun) _
    exact second.put rfl (by rw [noFile]; exact nofun) _
  have reaches : builtSite.baseOf "./site".toList = .ok ["site".toList] := by
    decide +kernel
  have isFile :
      builtSite.find? ["b.css".toList, ['a'], "site".toList] =
        some (.file "p\x7b\x7d".toUTF8) :=
    rfl
  have spells : Spells roundabout ([['a']] ++ ["b.css".toList]) :=
    ⟨by decide +kernel, by decide +kernel, by decide +kernel, by decide +kernel⟩
  have serves := serves_of_isTree Http.reliable_plain isTree "./site".toList
  have named : Path.above ∉ [['a']] ++ ["b.css".toList] := by
    decide +kernel
  exact ⟨isTree, reaches, isFile, spells, serves,
    serves.file reaches named isFile spells "GET".toList⟩

end Site

end PageSheet
