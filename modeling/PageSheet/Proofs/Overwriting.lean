import PageSheet.Proofs.Footprint
namespace PageSheet

/-!
# When a page takes the place of its sheet

A page is called after its sheet, with another extension, and nothing keeps it apart from
the sheet.  So the file of a sheet holds after a run of a build what it held before, but
for one case: its name has the extension of a page already, and the directory for pages is
the one that the file lies in, under whatever path.  Then a run that is done leaves the
page in place of the sheet.
-/

namespace Path

theorem withoutExtension_ne_nil
    {name : Text}
    (inhabited : name ≠ []) :
    withoutExtension name ≠ [] := by
  unfold withoutExtension
  split
  · exact inhabited
  · exact inhabited
  · next notEmpty _ =>
      intro empty
      exact notEmpty (List.reverse_eq_nil_iff.mp empty)

/-- A name is cut before its last dot, unless it starts there. -/
theorem withoutExtension_append
    {stem extension : Text}
    (inhabited : stem ≠ [])
    (plain : '.' ∉ extension) :
    withoutExtension (stem ++ '.' :: extension) = stem := by
  have behind : ∀ c ∈ extension.reverse, (c != '.') = true := by
    intro c member
    rw [bne_iff_ne]
    rintro rfl
    exact plain (List.mem_reverse.mp member)
  have shape :
      (stem ++ '.' :: extension).reverse.dropWhile (fun c => c != '.') =
        '.' :: stem.reverse := by
    rw [List.reverse_append, List.reverse_cons, List.append_assoc,
      List.dropWhile_append_of_pos behind]
    rfl
  obtain ⟨c, rest, reversed⟩ :=
    List.exists_cons_of_ne_nil (List.reverse_ne_nil_iff.mpr inhabited)
  rw [reversed] at shape
  simp only [withoutExtension, shape]
  rw [← reversed, List.reverse_reverse]

/-- A name keeps its extension exactly if it is the new one, behind something. -/
theorem withoutExtension_append_eq_iff
    {name extension : Text}
    (plain : '.' ∉ extension) :
    withoutExtension name ++ '.' :: extension = name ↔
      ∃ stem, stem ≠ [] ∧ name = stem ++ '.' :: extension := by
  constructor
  · intro same
    refine ⟨withoutExtension name, withoutExtension_ne_nil ?_, same.symm⟩
    rw [← same]
    exact List.append_ne_nil_of_right_ne_nil _ (List.cons_ne_nil '.' extension)
  · rintro ⟨stem, inhabited, rfl⟩
    rw [withoutExtension_append inhabited plain]

end Path

namespace Command

/-- What it means that a run of a build puts the page where its sheet is. -/
structure TakesPlace
    (outdir : Text)
    (location : Location)
    (outcome : Outcome)
    (after : Disk) : Prop where
  done : outcome.code = 0
  /-- The sheet is called like a page. -/
  named : ∃ stem, stem ≠ [] ∧ location.head? = some (stem ++ ".html".toList)
  /-- The directory for pages is the one that the sheet lies in. -/
  beside : after.baseOf outdir = .ok location.tail

/-- What a run of a build leaves of the file at a location that holds its sheet. -/
structure LeavesSheet
    (source outdir : Text)
    (location : Location)
    (bytes : ByteArray)
    (outcome : Outcome)
    (after : Disk) : Prop where
  leads : after.locate source = .ok location
  kept :
    ¬ TakesPlace outdir location outcome after →
      after.find? location = some (.file bytes)
  replaced :
    TakesPlace outdir location outcome after →
      ∃ text html,
        Text.ofBytes? bytes = some text ∧
          Page.convert text = .ok html ∧
            after.find? location = some (.file (Text.toBytes html))

section Leaving

variable {before between after : Disk} {source outdir : Text} {location : Location}
  {bytes : ByteArray}

/-- Where a disk only grows, files stay as they are. -/
theorem isFile_of_grown
    {paths : List Text}
    (grown : Disk.GrownAlong paths before after)
    (isFile : before.find? location = some (.file bytes)) :
    after.find? location = some (.file bytes) := by
  rcases grown.found location with same | ⟨absent, -⟩
  · exact same.trans isFile
  · cases absent.symm.trans isFile

/-- A run that fails leaves the sheet as it was. -/
theorem leavesSheet_of_grown
    {paths : List Text}
    (leads : before.locate source = .ok location)
    (isFile : before.find? location = some (.file bytes))
    (grown : Disk.GrownAlong paths before after)
    (fault : CommandFault) :
    LeavesSheet source outdir location bytes (.failed fault) after where
  leads := grown.keeps.locate leads
  kept _ := isFile_of_grown grown isFile
  replaced takes := absurd takes.done (code_failed_ne fault)

/-- A page has the place of its sheet exactly if the two have the same name and directory. -/
theorem takesPlace_iff
    {name : Text}
    {directory parent : Location}
    (base : after.baseOf outdir = .ok parent)
    (line : Text) :
    TakesPlace outdir (name :: directory) (.done line) after ↔
      name :: directory =
        (Path.withoutExtension name ++ ".html".toList) :: parent := by
  have extension : ".html".toList = '.' :: "html".toList := by
    decide +kernel
  have plain : '.' ∉ "html".toList := by
    decide +kernel
  have named := @Path.withoutExtension_append_eq_iff name _ plain
  rw [← extension] at named
  constructor
  · rintro ⟨-, ⟨stem, inhabited, isHead⟩, beside⟩
    have same := named.mpr ⟨stem, inhabited, Option.some.inj isHead⟩
    rw [same, Except.ok.inj (base.symm.trans beside)]
    rfl
  · intro same
    obtain ⟨sameName, rfl⟩ := List.cons.inj same
    obtain ⟨stem, inhabited, isName⟩ := named.mp sameName.symm
    exact ⟨rfl, ⟨stem, inhabited, congrArg some isName⟩, base⟩

/-- A run of a build leaves the sheet as it was, unless the page takes its place. -/
theorem leavesSheet_of_build
    {outcome : Outcome}
    (isTree : before.IsTree)
    (leads : before.locate source = .ok location)
    (isFile : before.find? location = some (.file bytes))
    (run : (conclude (build Disk.files source outdir)).run before = (outcome, after)) :
    LeavesSheet source outdir location bytes outcome after := by
  cases ends_of_build isTree run with
  | noSheet absent =>
      exact leavesSheet_of_grown leads isFile (.refl [] before) _
  | noPage fault present grown =>
      exact leavesSheet_of_grown leads isFile grown fault
  | @done text html between _ parent line present converted grown base isDirectory written =>
      obtain ⟨name, directory, rfl, noSlash, isJoined⟩ :=
        exists_pagePath isTree leads isFile outdir
      obtain ⟨leafNoSlash, isName⟩ := isName_page noSlash
      have inhabited : Path.withoutExtension name ++ ".html".toList ≠ [] := by
        intro empty
        rw [empty] at isName
        cases isName
      rw [isJoined] at written
      obtain ⟨notDirectory, rfl⟩ :=
        Disk.eq_put_of_write_join base isDirectory leafNoSlash inhabited written
      have notTop := List.cons_ne_nil (Path.withoutExtension name ++ ".html".toList) parent
      have keeps := Disk.Keeps.put notTop notDirectory (.file (Text.toBytes html))
      have takes :
          TakesPlace outdir (name :: directory) (.done line) _ ↔
            name :: directory =
              (Path.withoutExtension name ++ ".html".toList) :: parent :=
        takesPlace_iff (keeps.baseOf base) line
      refine ⟨keeps.locate (grown.keeps.locate leads), ?_, ?_⟩
      · intro apart
        rw [takes] at apart
        rw [Disk.find?_put notTop, if_neg apart]
        exact isFile_of_grown grown isFile
      · intro together
        obtain ⟨bytes', read, isText⟩ := present.holds
        have same : bytes' = bytes :=
          Except.ok.inj (read.symm.trans (before.read_eq_ok_iff.mpr ⟨_, leads, isFile⟩))
        refine ⟨text, html, same ▸ isText, converted, ?_⟩
        rw [Disk.find?_put notTop, if_pos (takes.mp together)]

end Leaving

/-- A disk with nothing but a sheet that is called like a page. -/
def pageNamed : Disk :=
  (⟨[], []⟩ : Disk).put ["a.html".toList] (.file (Text.toBytes "p\x7b\x7d".toList))

theorem isTree_pageNamed : pageNamed.IsTree := by
  exact Disk.isTree_bare.put rfl nofun _

/-- The directory of the sheet is reached through one that is made for the page. -/
theorem leavesSheet_of_build_roundabout :
    ∃ outcome after,
      pageNamed.IsTree ∧
        pageNamed.locate "./a.html".toList = .ok ["a.html".toList] ∧
          pageNamed.find? ["a.html".toList] =
              some (.file (Text.toBytes "p\x7b\x7d".toList)) ∧
            (conclude (build Disk.files "./a.html".toList "new/..".toList)).run pageNamed =
                (outcome, after) ∧
              TakesPlace "new/..".toList ["a.html".toList] outcome after ∧
                LeavesSheet "./a.html".toList "new/..".toList ["a.html".toList]
                  (Text.toBytes "p\x7b\x7d".toList) outcome after := by
  have leads : pageNamed.locate "./a.html".toList = .ok ["a.html".toList] := by
    decide +kernel
  have isFile :
      pageNamed.find? ["a.html".toList] = some (.file (Text.toBytes "p\x7b\x7d".toList)) :=
    rfl
  have leaves :=
    @leavesSheet_of_build _ _ _ "new/..".toList _ _ _ isTree_pageNamed leads isFile rfl
  refine ⟨_, _, isTree_pageNamed, leads, isFile, rfl, ⟨?_, ?_, ?_⟩, leaves⟩
  · decide +kernel
  · exact ⟨['a'], by decide, by decide +kernel⟩
  · decide +kernel

/-- A sheet that is called like a page is lost when it is built into its own directory. -/
theorem exists_sheet_overwritten :
    ∃ (disk : Disk) (source outdir : Text) (bytes : ByteArray),
      disk.IsTree ∧
        disk.read source = .ok bytes ∧
          ((conclude (build Disk.files source outdir)).run disk).2.read source ≠ .ok bytes :=
  ⟨pageNamed, "a.html".toList, Path.here, Text.toBytes "p\x7b\x7d".toList, isTree_pageNamed,
    by decide +kernel, by decide +kernel⟩

end Command

end PageSheet
