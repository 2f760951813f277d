import PageSheet.Http.Plain
import PageSheet.Proofs.Resolving
import PageSheet.Proofs.Trees
namespace PageSheet

/-!
# A site does not tell what lies outside

Whatever a request asks for, a site looks only at its root and below it.  So disks that
have the same root, and the same below the root, answer every list of requests in the
same way, whatever else they hold and whatever HTTP library delivers the answers.

The root is the location where the path of the root leads to.  On the way there a path
may pass other directories, so it is asked of both disks that it leads to the same
location; `SameSite.of_agree` tells when this is so for a root that takes no step up.
-/

namespace Site

/-- What it means that two disks agree on the root of a site and on all that is below. -/
structure SameSite
    (first second : Disk)
    (root : Text) : Prop where
  /-- The path of the root leads somewhere on both or on neither. -/
  reach :
    (∃ base, first.baseOf root = .ok base) ↔ ∃ base, second.baseOf root = .ok base
  /-- The same lies at the root and below it, wherever the root is. -/
  below :
    ∀ {base base'},
      first.baseOf root = .ok base → second.baseOf root = .ok base' →
        ∀ names, first.find? (names ++ base) = second.find? (names ++ base')

/-- The answers of a site on a disk to requests, each with a method and an address. -/
def answers
    (http : Http HeaderLine Reply)
    (disk : Disk)
    (root : Text)
    (requests : List (Text × Text)) :
    List Http.Response :=
  ((requests.mapM fun (method, address) => respond Disk.files http root method address).run
    disk).1

namespace SameSite

variable {first second : Disk} {root : Text}

theorem symm
    (same : SameSite first second root) :
    SameSite second first root where
  reach :=
    same.reach.symm
  below reaches reaches' names :=
    (same.below reaches' reaches names).symm

/-- What is read below the root on one disk is read there on the other. -/
theorem read_join
    (same : SameSite first second root)
    {below : Text}
    (relative : Path.isAbsolute below = false)
    (inhabited : below ≠ [])
    (downwards : Path.above ∉ Path.segments below)
    {bytes : ByteArray}
    (taken : first.read (Path.join root below) = .ok bytes) :
    second.read (Path.join root below) = .ok bytes := by
  obtain ⟨location, leads, found⟩ := first.read_eq_ok_iff.mp taken
  rw [first.locate_join root relative inhabited] at leads
  obtain ⟨base, reaches, follows⟩ := exists_of_bind_eq_ok leads
  obtain ⟨base', reaches'⟩ := same.reach.mp ⟨base, reaches⟩
  have agree := same.below reaches reaches'
  obtain ⟨reached, one, two⟩ := Disk.follow_congr agree downwards []
  obtain ⟨names, arrived, rfl⟩ := exists_of_map_eq_ok (one.symm.trans follows)
  refine second.read_eq_ok_iff.mpr ⟨names ++ base', ?_, ?_⟩
  · rw [second.locate_join root relative inhabited, reaches']
    exact two.trans (congrArg (Except.map (· ++ base')) arrived)
  · rw [← agree names]
    exact found

/-- A path without a step up leads to the location that its steps name. -/
theorem baseOf_eq_ok_iff
    {disk : Disk}
    (isTree : disk.IsTree)
    (downwards : Path.above ∉ Path.segments root)
    {base : Location} :
    disk.baseOf root = .ok base ↔
      base = (Path.steps root).reverse ++ disk.origin root ∧
        ∃ entry,
          disk.find? base = some entry ∧
            ∀ last ∈ (Path.segments root).getLast?,
              Path.isStep last = false → entry = .directory :=
  isTree.follow_eq_ok_iff (isTree.origin root) downwards

/--
Two trees have the same site if they agree at the location that the steps of the root
name, and below it, and the root takes no step up.
-/
theorem of_agree
    (isTree : first.IsTree)
    (isTree' : second.IsTree)
    (downwards : Path.above ∉ Path.segments root)
    (agree :
      ∀ names,
        first.find? (names ++ ((Path.steps root).reverse ++ first.origin root)) =
          second.find? (names ++ ((Path.steps root).reverse ++ second.origin root))) :
    SameSite first second root where
  reach := by
    have atRoot := agree []
    constructor
    · rintro ⟨base, reaches⟩
      obtain ⟨rfl, fits⟩ := (baseOf_eq_ok_iff isTree downwards).mp reaches
      rw [List.nil_append] at atRoot
      rw [atRoot] at fits
      exact ⟨_, (baseOf_eq_ok_iff isTree' downwards).mpr ⟨rfl, fits⟩⟩
    · rintro ⟨base, reaches⟩
      obtain ⟨rfl, fits⟩ := (baseOf_eq_ok_iff isTree' downwards).mp reaches
      rw [List.nil_append, List.nil_append] at atRoot
      rw [← atRoot] at fits
      exact ⟨_, (baseOf_eq_ok_iff isTree downwards).mpr ⟨rfl, fits⟩⟩
  below := by
    intro base base' reaches reaches' names
    obtain ⟨rfl, -⟩ := (baseOf_eq_ok_iff isTree downwards).mp reaches
    obtain ⟨rfl, -⟩ := (baseOf_eq_ok_iff isTree' downwards).mp reaches'
    exact agree names

end SameSite

/-- An address is resolved to the root with a path below it that takes no step up. -/
theorem exists_join_of_resolve?
    {root address path : Text}
    (resolved : resolve? root address = some path) :
    ∃ below,
      path = Path.join root below ∧
        Path.isAbsolute below = false ∧
          below ≠ [] ∧ Path.above ∉ Path.segments below := by
  obtain ⟨downwards, isJoined⟩ := resolve?_eq_some_iff.mp resolved
  exact ⟨wanted address, isJoined, isAbsolute_wanted address, wanted_ne_nil address, downwards⟩

section Answering

variable (http : Http HeaderLine Reply)

/-- The answer to one request, for a disk that holds the files of the site. -/
def answer
    (disk : Disk)
    (root method address : Text) :
    Http.Response :=
  ((respond Disk.files http root method address).run disk).1

/-- To answer a request is to read at the path it is resolved to, and changes nothing. -/
theorem run_respond_eq
    (disk : Disk)
    (root method address : Text) :
    (respond Disk.files http root method address).run disk =
      (match resolve? root address with
        | none => notFound http method
        | some path =>
            match disk.read path with
            | .error _ => notFound http method
            | .ok bytes => found http method path bytes,
        disk) := by
  unfold respond
  cases resolve? root address with
  | none =>
      rfl
  | some path =>
      have read : (Disk.files.read path).run disk = (disk.read path, disk) :=
        rfl
      simp only [StateT.run_bind, read]
      cases disk.read path <;> rfl

/-- A request is answered, and the disk stays as it is. -/
theorem run_respond
    (disk : Disk)
    (root method address : Text) :
    (respond Disk.files http root method address).run disk =
      (answer http disk root method address, disk) := by
  refine Prod.ext rfl ?_
  rw [run_respond_eq]

/-- The answer to a request is found by reading at the path it is resolved to. -/
theorem answer_eq
    (disk : Disk)
    (root method address : Text) :
    answer http disk root method address =
      match resolve? root address with
      | none => notFound http method
      | some path =>
          match disk.read path with
          | .error _ => notFound http method
          | .ok bytes => found http method path bytes :=
  congrArg Prod.fst (run_respond_eq http disk root method address)

/-- Every request is answered as if it were the only one. -/
theorem answers_eq_map
    (disk : Disk)
    (root : Text)
    (requests : List (Text × Text)) :
    answers http disk root requests =
      requests.map fun (method, address) => answer http disk root method address := by
  have run :
      (requests.mapM fun (method, address) =>
          respond Disk.files http root method address).run disk =
        (requests.map fun (method, address) => answer http disk root method address,
          disk) := by
    induction requests with
    | nil =>
        rfl
    | cons request rest inductionHypothesis =>
        obtain ⟨method, address⟩ := request
        rw [List.mapM_cons, StateT.run_bind, run_respond]
        show StateT.run (do let others ← _; pure _) disk = _
        rw [StateT.run_bind, inductionHypothesis]
        rfl
  exact congrArg Prod.fst run

/-- On disks with the same site a request gets the same answer. -/
theorem answer_congr
    {first second : Disk}
    {root : Text}
    (same : SameSite first second root)
    (method address : Text) :
    answer http first root method address = answer http second root method address := by
  rw [answer_eq, answer_eq]
  cases resolved : resolve? root address with
  | none =>
      rfl
  | some path =>
      obtain ⟨below, rfl, relative, inhabited, downwards⟩ :=
        exists_join_of_resolve? resolved
      cases taken : first.read (Path.join root below) with
      | ok bytes =>
          simp only [taken, same.read_join relative inhabited downwards taken]
      | error fault =>
          cases taken' : second.read (Path.join root below) with
          | ok bytes =>
              have back := same.symm.read_join relative inhabited downwards taken'
              rw [taken] at back
              cases back
          | error fault' =>
              simp only [taken, taken']

/-- Disks with the same site answer every list of requests in the same way. -/
theorem answers_eq_of_sameSite
    {first second : Disk}
    {root : Text}
    (same : SameSite first second root)
    (requests : List (Text × Text)) :
    answers http first root requests = answers http second root requests := by
  rw [answers_eq_map, answers_eq_map]
  exact List.map_congr_left fun request _ => answer_congr http same request.1 request.2

end Answering

/-- A disk with a site in its top directory. -/
def oneSite : Disk :=
  (⟨[], []⟩ : Disk).put ["site".toList] .directory

/-- A secret beside a site is not told, whatever path is tried to reach it. -/
theorem answers_eq_of_sameSite_secret :
    let secret := oneSite.put ["secret".toList] (.file "no".toUTF8)
    let requests :=
      [("GET".toList, "//../secret".toList), ("GET".toList, "/a/..//../secret?q".toList)]
    oneSite.find? ["secret".toList] = none ∧
      (secret.find? ["secret".toList]).isSome = true ∧
        answers Http.plain secret "site".toList requests =
          answers Http.plain oneSite "site".toList requests := by
  intro secret requests
  have absent : oneSite.find? ["secret".toList] = none := by
    decide +kernel
  have isTree : oneSite.IsTree :=
    Disk.isTree_bare.put rfl nofun _
  have isTree' : secret.IsTree :=
    isTree.put rfl (by rw [absent]; exact nofun) _
  refine ⟨absent, by decide +kernel, answers_eq_of_sameSite Http.plain ?_ requests⟩
  refine SameSite.of_agree isTree' isTree (by decide +kernel) fun names => ?_
  have aside : names ++ ["site".toList] ≠ ["secret".toList] := by
    intro same
    have sameLast := congrArg List.getLast? same
    rw [List.getLast?_concat] at sameLast
    exact absurd sameLast (by decide +kernel)
  have root :
      (Path.steps "site".toList).reverse ++ oneSite.origin "site".toList =
        ["site".toList] := by
    decide +kernel
  show secret.find? (names ++ ((Path.steps "site".toList).reverse ++
    oneSite.origin "site".toList)) = _
  rw [root, Disk.find?_put (List.cons_ne_nil _ _), if_neg aside]

end Site

end PageSheet
