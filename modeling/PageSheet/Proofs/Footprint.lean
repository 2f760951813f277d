import PageSheet.Command.Run
import PageSheet.Proofs.GivenValues
import PageSheet.Proofs.Growth
namespace PageSheet.Command

/-!
# What runs change

Checking and building start alike: both look for a sheet, and if there is none they fail
alike and change nothing.  Checking changes nothing in any case.  Building goes on by
making directories, which adds nothing but them, and writes one file into the last one.

So each run of a sequence leaves all but a known part of the tree as it was, whatever the
runs before it did.  Which command lines ask for a run is decided by their reader, of which
nothing is known but that it gives every build a directory for its page.
-/

section Running

variable (disk : Disk)

/-- The operations of a command are carried out until one of them fails. -/
theorem run_bind
    (first : ExceptT CommandFault (StateM Disk) α)
    (next : α → ExceptT CommandFault (StateM Disk) β) :
    (first >>= next).run.run disk =
      match first.run.run disk with
      | (.error fault, after) => (.error fault, after)
      | (.ok value, after) => (next value).run.run after := by
  rw [ExceptT.run_bind, StateT.run_bind]
  rcases first.run.run disk with ⟨_ | _, after⟩ <;> rfl

theorem run_lift
    (operation : StateM Disk α) :
    (ExceptT.lift operation : ExceptT CommandFault (StateM Disk) α).run.run disk =
      (.ok (operation.run disk).1, (operation.run disk).2) :=
  rfl

theorem run_blame
    (tell : FileFault → CommandFault)
    (operation : StateM Disk (Except FileFault α)) :
    (blame tell operation).run.run disk =
      ((operation.run disk).1.mapError tell, (operation.run disk).2) := by
  unfold blame
  rw [run_bind, run_lift]
  rcases operation.run disk with ⟨_ | _, after⟩ <;> rfl

theorem run_conclude
    (command : ExceptT CommandFault (StateM Disk) Text) :
    (conclude command).run disk =
      match command.run.run disk with
      | (.ok line, after) => (.done line, after)
      | (.error fault, after) => (.failed fault, after) := by
  unfold conclude
  rw [StateT.run_bind]
  rcases command.run.run disk with ⟨_ | _, after⟩ <;> rfl

end Running

/-- The text that is read at a path of a disk, or why none is. -/
def sourceOn
    (disk : Disk)
    (path : Text) :
    Except CommandFault Text :=
  if disk.isPresent path then
    match disk.read path with
    | .error fault => .error (.unreadable path fault)
    | .ok bytes =>
        match Text.ofBytes? bytes with
        | some source => .ok source
        | none => .error (.notText path)
  else
    .error (.notFound path)

/-- The text of the sheet at a path of a disk, or why there is none. -/
def sheetOn
    (disk : Disk)
    (path : Text) :
    Except CommandFault Text :=
  (sourceOn disk path).bind fun source =>
    match Item.ofSource source with
    | .error failure => .error (.notSheet failure)
    | .ok _ => .ok source

/-- What it means that a path leads to a file with a sheet as its text. -/
structure SheetAt
    (disk : Disk)
    (path text : Text) : Prop where
  holds : ∃ bytes, disk.read path = .ok bytes ∧ Text.ofBytes? bytes = some text
  parses : ∃ items, Item.ofSource text = .ok items

section Reading

variable (disk : Disk) (path : Text)

/-- To read a sheet changes nothing. -/
theorem run_readSource :
    (readSource Disk.files path).run.run disk = (sourceOn disk path, disk) := by
  have present : (Disk.files.isPresent path).run disk = (disk.isPresent path, disk) :=
    rfl
  have read : (Disk.files.read path).run disk = (disk.read path, disk) :=
    rfl
  unfold readSource sourceOn
  rw [run_bind, run_lift, present]
  by_cases there : disk.isPresent path = true
  · simp only [there, if_true]
    rw [run_bind, run_blame, read]
    cases disk.read path with
    | error fault =>
        rfl
    | ok bytes =>
        simp only [Except.mapError]
        cases Text.ofBytes? bytes <;> rfl
  · simp only [there]
    rfl

/-- What can be read is there. -/
theorem isPresent_of_read
    {disk : Disk}
    {path : Text}
    {bytes : ByteArray}
    (read : disk.read path = .ok bytes) :
    disk.isPresent path = true := by
  have found : disk.lookup path = .ok (.file bytes) :=
    disk.lookup_eq_ok_iff.mpr (disk.read_eq_ok_iff.mp read)
  unfold Disk.isPresent
  rw [found]

theorem sourceOn_eq_ok_iff
    {text : Text} :
    sourceOn disk path = .ok text ↔
      ∃ bytes, disk.read path = .ok bytes ∧ Text.ofBytes? bytes = some text := by
  unfold sourceOn
  constructor
  · intro known
    split at known
    · split at known
      · cases known
      next bytes read =>
        split at known
        · next source isText =>
            cases known
            exact ⟨bytes, read, isText⟩
        · cases known
    · cases known
  · rintro ⟨bytes, read, isText⟩
    rw [if_pos (isPresent_of_read read)]
    simp only [read, isText]

/-- There is a sheet at a path exactly where one is found. -/
theorem sheetOn_eq_ok_iff
    {text : Text} :
    sheetOn disk path = .ok text ↔ SheetAt disk path text := by
  constructor
  · intro known
    obtain ⟨source, known, parses⟩ := exists_of_bind_eq_ok known
    split at parses
    · cases parses
    next items parsed =>
      cases parses
      exact ⟨(sourceOn_eq_ok_iff disk path).mp known, items, parsed⟩
  · rintro ⟨holds, items, parsed⟩
    unfold sheetOn
    rw [(sourceOn_eq_ok_iff disk path).mpr holds]
    simp only [Except.bind, parsed]

/-- To check a sheet changes nothing, and tells what is found. -/
theorem run_check :
    (conclude (check Disk.files path)).run disk =
      (match sheetOn disk path with
        | .ok _ => .done ("OK: ".toList ++ path)
        | .error fault => .failed fault,
        disk) := by
  unfold check sheetOn
  rw [run_conclude, run_bind, run_readSource]
  cases sourceOn disk path with
  | error fault =>
      rfl
  | ok source =>
      simp only [Except.bind]
      cases Item.ofSource source <;> rfl

/-- To build a page where there is no sheet changes nothing, and tells why. -/
theorem run_build_of_error
    {fault : CommandFault}
    (absent : sheetOn disk path = .error fault)
    (outdir : Text) :
    (conclude (build Disk.files path outdir)).run disk = (.failed fault, disk) := by
  unfold sheetOn at absent
  unfold build
  rw [run_conclude, run_bind, run_readSource]
  cases known : sourceOn disk path with
  | error fault =>
      rw [known] at absent
      cases absent
      rfl
  | ok source =>
      simp only [known, Except.bind] at absent
      cases parsed : Item.ofSource source with
      | error failure =>
          simp only [parsed] at absent
          cases absent
          simp only [Page.convert, parsed, Except.map]
          rfl
      | ok items =>
          simp only [parsed] at absent
          cases absent

/-- Where there is a sheet, its directory is made and then its page is written. -/
theorem run_build_of_ok
    {text : Text}
    (present : sheetOn disk path = .ok text)
    (outdir : Text) :
    ∃ html,
      Page.convert text = .ok html ∧
        (conclude (build Disk.files path outdir)).run disk =
          match (Disk.files.makeDirectories outdir).run disk with
          | (.error fault, between) => (.failed (.unwritable outdir fault), between)
          | (.ok (), between) =>
              match between.write (pagePath path outdir) (Text.toBytes html) with
              | .error fault =>
                  (.failed (.unwritable (pagePath path outdir) fault), between)
              | .ok after =>
                  (.done ("Successfully converted ".toList ++ path ++ " to ".toList
                    ++ pagePath path outdir), after) := by
  obtain ⟨holds, items, parsed⟩ := (sheetOn_eq_ok_iff disk path).mp present
  have known := (sourceOn_eq_ok_iff disk path).mpr holds
  have converted : Page.convert text = .ok (Page.ofItems items).html := by
    unfold Page.convert
    rw [parsed]
    rfl
  refine ⟨_, converted, ?_⟩
  unfold build
  rw [run_conclude, run_bind, run_readSource, known]
  simp only [converted]
  rw [run_bind, run_blame]
  rcases (Disk.files.makeDirectories outdir).run disk with ⟨fault | nothing, between⟩
  · rfl
  simp only [Except.mapError]
  have written :
      (Disk.files.write (pagePath path outdir) (Text.toBytes (Page.ofItems items).html)).run
        between = _ :=
    Disk.run_change between fun disk =>
      disk.write (pagePath path outdir) (Text.toBytes (Page.ofItems items).html)
  rw [run_bind, run_blame, written]
  cases between.write (pagePath path outdir) (Text.toBytes (Page.ofItems items).html) <;> rfl

end Reading

/--
What it means that a page was built: one file was written right into the directory for
pages, and nothing else is new but the directories along the path of that directory.
-/
structure PageBuilt
    (source outdir html : Text)
    (before after : Disk)
    (parent : Location)
    (leaf : Text) : Prop where
  working : after.working = before.working
  isJoined : pagePath source outdir = Path.join outdir leaf
  outdirLeads : after.locate outdir = .ok parent
  pageLeads : after.locate (pagePath source outdir) = .ok (leaf :: parent)
  page : after.find? (leaf :: parent) = some (.file (Text.toBytes html))
  replaced : before.find? (leaf :: parent) ≠ some .directory
  directories : ∀ path ∈ Path.upwards outdir, after.isDirectory path = true
  others :
    ∀ location, location ≠ leaf :: parent →
      after.find? location = before.find? location ∨
        before.find? location = none ∧
          after.find? location = some .directory ∧
            ∃ path ∈ Path.upwards outdir, after.locate path = .ok location

section Building

variable {before between after : Disk} {source outdir : Text}

/-- The page of a sheet in a file is called after the file, without its extension. -/
theorem exists_pagePath
    (isTree : before.IsTree)
    {location : Location}
    {bytes : ByteArray}
    (leads : before.locate source = .ok location)
    (isFile : before.find? location = some (.file bytes))
    (outdir : Text) :
    ∃ name parent,
      location = name :: parent ∧
        '/' ∉ name ∧
          pagePath source outdir =
            Path.join outdir (Path.withoutExtension name ++ ".html".toList) := by
  obtain ⟨name, parent, rfl, isName, noSlash⟩ := isTree.exists_name_of_file leads isFile
  refine ⟨name, parent, rfl, noSlash, ?_⟩
  have stem : Path.stem? source = some (Path.withoutExtension name) := by
    rw [Path.stem?, isName, Option.map_some]
  rw [pagePath, stem, Option.getD_some]

/-- What a page is called can be the name of a file. -/
theorem isName_page
    {name : Text}
    (noSlash : '/' ∉ name) :
    '/' ∉ Path.withoutExtension name ++ ".html".toList ∧
      Disk.isName (Path.withoutExtension name ++ ".html".toList) = true := by
  constructor
  · intro member
    rcases List.mem_append.mp member with inStem | inExtension
    · exact noSlash (Path.mem_of_mem_withoutExtension inStem)
    · exact absurd inExtension (by decide +kernel)
  · have extension : ".html".toList.length = 5 := by
      decide +kernel
    refine Disk.isName_of_length ?_
    rw [List.length_append, extension]
    omega

/-- Where a page is written into a directory that was made for it, the page is built. -/
theorem pageBuilt_of_write
    {parent : Location}
    {leaf html : Text}
    (grown : Disk.GrownAlong (Path.upwards outdir) before between)
    (leads : between.locate outdir = .ok parent)
    (isDirectory : between.find? parent = some .directory)
    (isJoined : pagePath source outdir = Path.join outdir leaf)
    (noSlash : '/' ∉ leaf)
    (isName : Disk.isName leaf = true)
    (written : between.write (pagePath source outdir) (Text.toBytes html) = .ok after) :
    PageBuilt source outdir html before after parent leaf ∧
      (between.IsTree → after.IsTree) := by
  have inhabited : leaf ≠ [] := by
    rintro rfl
    cases isName
  have base := between.baseOf_of_locate leads
  rw [isJoined] at written
  obtain ⟨notDirectory, rfl⟩ :=
    Disk.eq_put_of_write_join base isDirectory noSlash inhabited written
  have notTop := List.cons_ne_nil leaf parent
  have keeps := Disk.Keeps.put notTop notDirectory (.file (Text.toBytes html))
  have page :
      (between.put (leaf :: parent) (.file (Text.toBytes html))).find? (leaf :: parent) =
        some (.file (Text.toBytes html)) := by
    rw [Disk.find?_put notTop, if_pos rfl]
  have outdirLeads := keeps.locate leads
  refine ⟨⟨?_, isJoined, outdirLeads, ?_, page, ?_, ?_, ?_⟩, ?_⟩
  · exact keeps.working.trans grown.working
  · have relative := Path.isAbsolute_of_not_mem noSlash
    have oneSegment : Path.segments leaf = [leaf] :=
      Text.pieces_of_not_mem noSlash
    rw [isJoined, Disk.locate_join _ outdir relative inhabited,
      Disk.baseOf_of_locate _ outdirLeads, oneSegment]
    refine (Disk.follow_singleton _ parent leaf).trans ?_
    exact (Disk.followSegment_eq_ok_iff _).mpr
      ⟨keeps.directory isDirectory, .inr (.inr ⟨isName, rfl, _, page⟩)⟩
  · intro wasDirectory
    exact notDirectory (grown.keeps.directory wasDirectory)
  · exact Disk.isDirectory_of_mem_upwards
      (Disk.isDirectory_iff.mpr ⟨parent, outdirLeads, keeps.directory isDirectory⟩)
  · intro location differs
    rw [Disk.find?_put notTop, if_neg differs]
    rcases grown.found location with same | ⟨absent, made, path, member, leads⟩
    · exact .inl same
    · exact .inr ⟨absent, made, path, member, keeps.locate leads⟩
  · intro isTree
    exact isTree.put isDirectory notDirectory _

end Building

/-- How a run of a build can end, and what it leaves of the disk. -/
inductive BuildEnds
    (source outdir : Text)
    (before : Disk) :
    Outcome → Disk → Prop where
  /-- There is no sheet, and nothing is changed. -/
  | noSheet
      {fault : CommandFault} :
      sheetOn before source = .error fault →
      BuildEnds source outdir before (.failed fault) before
  /-- The page cannot be written, but directories may have been made. -/
  | noPage
      {text : Text}
      {after : Disk}
      (fault : CommandFault) :
      SheetAt before source text →
      Disk.GrownAlong (Path.upwards outdir) before after →
      BuildEnds source outdir before (.failed fault) after
  /-- The page is written into the directory that was made for it. -/
  | done
      {text html : Text}
      {between after : Disk}
      {parent : Location}
      (line : Text) :
      SheetAt before source text →
      Page.convert text = .ok html →
      Disk.GrownAlong (Path.upwards outdir) before between →
      between.baseOf outdir = .ok parent →
      between.find? parent = some .directory →
      between.write (pagePath source outdir) (Text.toBytes html) = .ok after →
      BuildEnds source outdir before (.done line) after

/-- Directories that were made lead to a directory; without any, it is the working one. -/
theorem exists_baseOf_of_makes
    {before between : Disk}
    {outdir : Text}
    (isTree : before.IsTree)
    (makes : Disk.Makes (Path.upwards outdir) before (.ok (), between)) :
    ∃ parent,
      between.baseOf outdir = .ok parent ∧ between.find? parent = some .directory := by
  have working := (makes.grown.isTree isTree).working
  by_cases inhabited : outdir = []
  · subst inhabited
    exact ⟨between.working, Disk.follow_blanks working 1, working⟩
  · have isFirst : outdir ∈ (Path.upwards outdir).head? := by
      unfold Path.upwards
      rw [if_neg inhabited]
      rfl
    obtain ⟨parent, leads, isDirectory⟩ :=
      Disk.isDirectory_iff.mp (makes.first rfl outdir isFirst)
    exact ⟨parent, between.baseOf_of_locate leads, isDirectory⟩

/-- Every run of a build on a tree ends in one of these ways. -/
theorem ends_of_build
    {before after : Disk}
    {source outdir : Text}
    {outcome : Outcome}
    (isTree : before.IsTree)
    (run : (conclude (build Disk.files source outdir)).run before = (outcome, after)) :
    BuildEnds source outdir before outcome after := by
  cases found : sheetOn before source with
  | error fault =>
      rw [run_build_of_error before source found outdir] at run
      obtain ⟨rfl, rfl⟩ := Prod.mk.inj run
      exact .noSheet found
  | ok text =>
      have present := (sheetOn_eq_ok_iff before source).mp found
      obtain ⟨html, converted, shape⟩ := run_build_of_ok before source found outdir
      rw [shape] at run
      have makes := Disk.makes_makeFirst before (Path.upwards outdir)
      change Disk.Makes _ _ ((Disk.files.makeDirectories outdir).run before) at makes
      generalize (Disk.files.makeDirectories outdir).run before = reached at makes run
      obtain ⟨result, between⟩ := reached
      have grown := makes.grown
      cases result with
      | error fault =>
          obtain ⟨rfl, rfl⟩ := Prod.mk.inj run
          exact .noPage _ present grown
      | ok nothing =>
          obtain ⟨parent, base, isDirectory⟩ := exists_baseOf_of_makes isTree makes
          dsimp only at run
          cases written : between.write (pagePath source outdir) (Text.toBytes html) with
          | error fault =>
              rw [written] at run
              obtain ⟨rfl, rfl⟩ := Prod.mk.inj run
              exact .noPage _ present grown
          | ok last =>
              rw [written] at run
              obtain ⟨rfl, rfl⟩ := Prod.mk.inj run
              exact .done _ present converted grown base isDirectory written

/-- One run of the program on a disk. -/
structure Run where
  before : Disk
  request : Request
  outcome : Outcome
  after : Disk

/-- What it means that a reader of command lines accepts no build into an empty path. -/
def GivesDirectory (read : List Text → Except Refused Request) : Prop :=
  ∀ {line : List Text} {source outdir : Text},
    read line = .ok (.build source outdir) → outdir ≠ []

/-- Runs one after the other, each for a command line that a reader finds a request in. -/
inductive Runs (read : List Text → Except Refused Request) :
    Disk → List Run → Disk → Prop where
  | none (disk : Disk) :
      Runs read disk [] disk
  | next
      {line : List Text}
      {request : Request}
      {ended : StateM Disk Outcome}
      {before last : Disk}
      {others : List Run} :
      read line = .ok request →
      outcome? Disk.files request = some ended →
      Runs read (ended.run before).2 others last →
      Runs read before
        (⟨before, request, (ended.run before).1, (ended.run before).2⟩ :: others) last

/-- What a run may change, and what its code tells. -/
structure Run.Contract (run : Run) : Prop where
  /-- Checking changes nothing and succeeds exactly where there is a sheet. -/
  checked :
    ∀ {source}, run.request = .check source →
      run.after = run.before ∧
        (run.outcome.code = 0 ↔ ∃ text, SheetAt run.before source text)
  /-- Building that succeeds found a sheet and built its page. -/
  built :
    ∀ {source outdir}, run.request = .build source outdir →
      run.outcome.code = 0 →
        ∃ text html parent leaf,
          SheetAt run.before source text ∧
            Page.convert text = .ok html ∧
              PageBuilt source outdir html run.before run.after parent leaf
  /-- Building where there is no sheet fails and changes nothing. -/
  refused :
    ∀ {source outdir}, run.request = .build source outdir →
      (¬ ∃ text, SheetAt run.before source text) →
        run.outcome.code = 1 ∧ run.after = run.before
  /-- Building that fails adds at most directories. -/
  failed :
    ∀ {source outdir}, run.request = .build source outdir →
      run.outcome.code ≠ 0 →
        run.after.working = run.before.working ∧
          ∀ location,
            run.after.find? location = run.before.find? location ∨
              run.before.find? location = none ∧
                run.after.find? location = some .directory
  /-- Where checking fails, building would have failed with the same code and words. -/
  foretold :
    ∀ {source}, run.request = .check source →
      run.outcome.code ≠ 0 →
        ∀ outdir, ∃ ended,
          outcome? Disk.files (.build source outdir) = some ended ∧
            (ended.run run.before).1.code = run.outcome.code ∧
              (ended.run run.before).1.errors = run.outcome.errors

section Contract

variable {before after : Disk} {source outdir : Text} {outcome : Outcome}

theorem code_failed_ne
    (fault : CommandFault) :
    (Outcome.failed fault).code ≠ 0 := by
  have differs : (1 : UInt32) ≠ 0 := by
    decide
  exact differs

/-- A run of a check keeps its contract, and a tree stays a tree. -/
theorem contract_of_check
    (isTree : before.IsTree)
    (run : (conclude (check Disk.files source)).run before = (outcome, after)) :
    Run.Contract ⟨before, .check source, outcome, after⟩ ∧ after.IsTree := by
  rw [run_check] at run
  obtain ⟨rfl, rfl⟩ := Prod.mk.inj run
  refine ⟨⟨?_, nofun, nofun, nofun, ?_⟩, isTree⟩
  · rintro _ ⟨⟩
    refine ⟨rfl, ?_⟩
    cases found : sheetOn before source with
    | ok text =>
        exact iff_of_true rfl ⟨text, (sheetOn_eq_ok_iff before source).mp found⟩
    | error fault =>
        refine iff_of_false (code_failed_ne fault) ?_
        rintro ⟨text, present⟩
        rw [(sheetOn_eq_ok_iff before source).mpr present] at found
        cases found
  · rintro _ ⟨⟩ fails outdir
    cases found : sheetOn before source with
    | ok text =>
        simp only [found] at fails
        exact absurd rfl fails
    | error fault =>
        have build := run_build_of_error before source found outdir
        exact ⟨_, rfl, by rw [build], by rw [build]⟩

/-- A build that fails where a sheet is keeps its contract if it only adds directories. -/
theorem contract_of_failed
    {text : Text}
    {paths : List Text}
    (present : SheetAt before source text)
    (grown : Disk.GrownAlong paths before after)
    (fault : CommandFault) :
    Run.Contract ⟨before, .build source outdir, .failed fault, after⟩ where
  checked := nofun
  built := by
    rintro _ _ ⟨⟩ succeeds
    exact absurd succeeds (code_failed_ne fault)
  refused := by
    rintro _ _ ⟨⟩ absent
    exact absurd ⟨text, present⟩ absent
  failed := by
    rintro _ _ ⟨⟩ -
    refine ⟨grown.working, fun location => ?_⟩
    exact (grown.found location).imp_right fun ⟨absent, made, _⟩ => ⟨absent, made⟩
  foretold := nofun

/-- A build that fails and changes nothing keeps its contract. -/
theorem contract_of_refused
    (fault : CommandFault) :
    Run.Contract ⟨before, .build source outdir, .failed fault, before⟩ where
  checked := nofun
  built := by
    rintro _ _ ⟨⟩ succeeds
    exact absurd succeeds (code_failed_ne fault)
  refused := by
    rintro _ _ ⟨⟩ -
    exact ⟨rfl, rfl⟩
  failed := by
    rintro _ _ ⟨⟩ -
    exact ⟨rfl, fun location => .inl rfl⟩
  foretold := nofun

/-- A build that is done keeps its contract if a sheet is there and its page was built. -/
theorem contract_of_done
    {text html leaf : Text}
    {parent : Location}
    (present : SheetAt before source text)
    (converted : Page.convert text = .ok html)
    (built : PageBuilt source outdir html before after parent leaf)
    (line : Text) :
    Run.Contract ⟨before, .build source outdir, .done line, after⟩ where
  checked := nofun
  built := by
    rintro _ _ ⟨⟩ -
    exact ⟨text, html, parent, leaf, present, converted, built⟩
  refused := by
    rintro _ _ ⟨⟩ absent
    exact absurd ⟨text, present⟩ absent
  failed := by
    rintro _ _ ⟨⟩ fails
    exact absurd rfl fails
  foretold := nofun

/-- A run of a build keeps its contract, and a tree stays a tree. -/
theorem contract_of_build
    (isTree : before.IsTree)
    (inhabited : outdir ≠ [])
    (run : (conclude (build Disk.files source outdir)).run before = (outcome, after)) :
    Run.Contract ⟨before, .build source outdir, outcome, after⟩ ∧ after.IsTree := by
  cases ends_of_build isTree run with
  | noSheet absent =>
      exact ⟨contract_of_refused _, isTree⟩
  | noPage fault present grown =>
      exact ⟨contract_of_failed present grown fault, grown.isTree isTree⟩
  | done line present converted grown base isDirectory written =>
      obtain ⟨bytes, read, isText⟩ := present.holds
      obtain ⟨location, leads, isFile⟩ := before.read_eq_ok_iff.mp read
      obtain ⟨name, directory, rfl, noSlash, isJoined⟩ :=
        exists_pagePath isTree leads isFile outdir
      obtain ⟨leafNoSlash, isName⟩ := isName_page noSlash
      have outdirLeads := Disk.locate_of_baseOf _ inhabited base
      obtain ⟨built, stays⟩ :=
        pageBuilt_of_write grown outdirLeads isDirectory isJoined leafNoSlash isName written
      exact ⟨contract_of_done present converted built line, stays (grown.isTree isTree)⟩

end Contract

/-- Each run of a sequence that starts on a tree keeps its contract. -/
theorem contract_of_runs
    {read : List Text → Except Refused Request}
    (gives : GivesDirectory read)
    {disk last : Disk}
    {runs : List Run}
    (isTree : disk.IsTree)
    (carriedOut : Runs read disk runs last) :
    ∀ run ∈ runs, run.Contract := by
  induction carriedOut with
  | none disk =>
      exact List.forall_mem_nil _
  | @next line request ended before last others accepted ends _ inductionHypothesis =>
      have first :
          Run.Contract ⟨before, request, (ended.run before).1, (ended.run before).2⟩ ∧
            (ended.run before).2.IsTree := by
        cases request with
        | build source outdir =>
            cases ends
            exact contract_of_build isTree (gives accepted) rfl
        | check source =>
            cases ends
            exact contract_of_check isTree rfl
        | serve directory port =>
            cases ends
      exact List.forall_mem_cons.mpr ⟨first.1, inductionHypothesis first.2⟩

/-- The reader of the program gives every build a directory. -/
theorem givesDirectory_ofArguments : GivesDirectory Request.ofArguments :=
  fun accepted => (Request.ne_nil_of_build accepted).2

/-- A disk with nothing but a sheet in its top directory, where the runs work. -/
def oneSheet : Disk :=
  (⟨[], []⟩ : Disk).put ["a.css".toList] (.file (Text.toBytes "p\x7b\x7d".toList))

theorem isTree_oneSheet : oneSheet.IsTree := by
  exact Disk.isTree_bare.put rfl nofun _

/-- A sheet is checked, its page is built below new directories, and no other page is. -/
theorem contract_of_runs_oneSheet :
    ∃ runs last,
      Runs Request.ofArguments oneSheet runs last ∧
        runs.map (fun run => run.outcome.code) = [0, 0, 1] ∧
          ∀ run ∈ runs, run.Contract := by
  have checks :
      Request.ofArguments ["check".toList, "a.css".toList] = .ok (.check "a.css".toList) := by
    decide +kernel
  have builds :
      Request.ofArguments ["build".toList, "-o".toList, "out/new".toList, "a.css".toList] =
        .ok (.build "a.css".toList "out/new".toList) := by
    decide +kernel
  have misses :
      Request.ofArguments ["build".toList, "b.css".toList] =
        .ok (.build "b.css".toList "dist".toList) := by
    decide +kernel
  have runs := @Runs.next _ Request.ofArguments _ _ _ oneSheet _ _ checks rfl
    (.next builds rfl (.next misses rfl (.none _)))
  exact ⟨_, _, runs, by decide +kernel,
    contract_of_runs givesDirectory_ofArguments isTree_oneSheet runs⟩

end PageSheet.Command
