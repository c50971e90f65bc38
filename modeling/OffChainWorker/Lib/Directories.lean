/-
  Making directories: `mkdir`, and `create_dir_all`, which makes the missing ones above first.

  `create_dir_all` tries the whole path, and only when something above is missing does it turn to
  the parent and then try again; when it fails, the directories that it has made stay.  However it
  ends, it has only put directories where nothing was (`Grows`).  So every path that led somewhere
  leads there still, and every file is what it was; and when it succeeds, its path leads to a
  directory.
-/
import OffChainWorker.Lib.FileSystem

namespace Proc
namespace FileSystem

variable (fs : FileSystem)

/-- `Path::is_dir`. -/
def isDir (p : Path) : Bool := (fs.resolve p).bind fs.node == some .dir

/-- The content of the file at a location. -/
def fileAt (loc : Location) : Option (List UInt8) :=
  match fs.node loc with
  | some (.file content) => some content
  | _ => none

/-- A directory at a location. -/
def makeDir (loc : Location) : FileSystem := { fs with nodes := fs.nodes.insert loc .dir }

/-- A path is cut short by a directory that is missing, not by a file in its place. -/
def lacks (loc : Location) : List Component → Bool
  | [] => false
  | c :: cs =>
    match fs.node loc with
    | none => true
    | some (.file _) => false
    | some .dir => lacks (enter loc c) cs

/-- What `mkdir` comes to: `ErrorKind::NotFound` is told apart. -/
inductive MkdirResult where
  | made (fs : FileSystem)
  | notFound
  | failed

/-- `mkdir`, with room for so many more directories. -/
def mkdir (room : Nat) (p : Path) : MkdirResult :=
  match fs.resolve p with
  | none => if fs.lacks fs.workingDir p.components then .notFound else .failed
  | some loc =>
    match fs.node loc with
    | some _ => .failed
    | none => if room = 0 then .failed else .made (fs.makeDir loc)

/-- How `create_dir_all` ends, the room that is left, and what is there then. -/
structure DirsMade where
  ok : Bool
  room : Nat
  fs : FileSystem

/-- `create_dir_all` of the path with these components, the last one first. -/
def createDirAllRev (room : Nat) : List Component → DirsMade
  | [] => ⟨true, room, fs⟩
  | c :: above =>
    let p : Path := ⟨(c :: above).reverse⟩
    match fs.mkdir room p with
    | .made fs' => ⟨true, room - 1, fs'⟩
    | .failed => ⟨fs.isDir p, room, fs⟩
    | .notFound =>
      -- the root has no parent
      if c = .rootDir then ⟨false, room, fs⟩
      else
        let r := createDirAllRev room above
        if r.ok then
          match r.fs.mkdir r.room p with
          | .made fs' => ⟨true, r.room - 1, fs'⟩
          | _ => ⟨r.fs.isDir p, r.room, r.fs⟩
        else r

/-- `fs::create_dir_all`. -/
def createDirAll (room : Nat) (p : Path) : DirsMade := fs.createDirAllRev room p.components.reverse

variable {fs} {fs' fs'' : FileSystem}

theorem isDir_iff {p : Path} :
    fs.isDir p = true ↔ ∃ loc, fs.resolve p = some loc ∧ fs.node loc = some .dir := by
  unfold isDir
  rw [beq_iff_eq]
  exact Option.bind_eq_some_iff

theorem read_eq_fileAt {p : Path} {loc : Location} (h : fs.resolve p = some loc) :
    fs.read p = fs.fileAt loc :=
  read_eq h

theorem fileAt_write {loc : Location} (h : fs.node loc ≠ some .dir) (content : List UInt8)
    (l : Location) :
    (fs.write loc content).fileAt l = if l = loc then some content else fs.fileAt l := by
  unfold fileAt
  rw [node_write h]
  by_cases hl : l = loc
  · rw [if_pos hl, if_pos hl]
  · rw [if_neg hl, if_neg hl]

theorem isDir_write {loc : Location} (h : fs.node loc ≠ some .dir) (content : List UInt8)
    (p : Path) : (fs.write loc content).isDir p = fs.isDir p := by
  rw [Bool.eq_iff_iff, isDir_iff, isDir_iff]
  refine exists_congr fun l => ?_
  rw [resolve_write h, dir_write h]

/-! ## Where a path behind another one leads -/

/-- A walk that comes to its end has entered every component. -/
theorem walk_eq {cs : List Component} {loc l : Location} (h : fs.walk loc cs = some l) :
    l = cs.foldl enter loc := by
  induction cs generalizing loc with
  | nil => exact (Option.some.inj h).symm
  | cons c cs ih =>
    rw [walk] at h
    by_cases hdir : fs.node loc = some .dir
    · rw [if_pos hdir] at h
      exact ih h
    · rw [if_neg hdir] at h
      cases h

theorem resolve_append {p q : Path} {cs : List Component} {loc l : Location}
    (hq : q.components = p.components ++ cs) (hp : fs.resolve p = some loc)
    (hl : fs.resolve q = some l) : l = cs.foldl enter loc := by
  have hne := components_ne_nil hp
  unfold resolve at hp hl
  rw [if_neg hne] at hp
  rw [if_neg (by rw [hq]; exact fun hnil => hne (List.append_eq_nil_iff.mp hnil).1), hq,
    walk_append, hp] at hl
  exact walk_eq hl

/-! ## Only directories are new -/

/-- What is there stays, and what is new is a directory. -/
structure Grows (fs fs' : FileSystem) : Prop where
  workingDir : fs'.workingDir = fs.workingDir
  node : ∀ l, fs'.node l = fs.node l ∨ fs.node l = none ∧ fs'.node l = some .dir

namespace Grows

theorem refl (fs : FileSystem) : Grows fs fs := ⟨rfl, fun _ => .inl rfl⟩

theorem trans (h : Grows fs fs') (h' : Grows fs' fs'') : Grows fs fs'' := by
  refine ⟨h'.workingDir.trans h.workingDir, fun l => ?_⟩
  rcases h'.node l with hsame | ⟨hnone, hdir⟩
  · rw [hsame]
    exact h.node l
  · rcases h.node l with hsame | ⟨-, hdir'⟩
    · rw [hsame] at hnone
      exact .inr ⟨hnone, hdir⟩
    · rw [hdir'] at hnone
      nomatch hnone

theorem dir (h : Grows fs fs') {l : Location} (hl : fs.node l = some .dir) :
    fs'.node l = some .dir := by
  rcases h.node l with hsame | ⟨-, hdir⟩
  · rw [hsame, hl]
  · exact hdir

/-- **Frame.**  The files are the same. -/
theorem fileAt (h : Grows fs fs') (l : Location) : fs'.fileAt l = fs.fileAt l := by
  unfold FileSystem.fileAt
  rcases h.node l with hsame | ⟨hnone, hdir⟩
  · rw [hsame]
  · rw [hnone, hdir]

theorem walk (h : Grows fs fs') {cs : List Component} {loc l : Location}
    (hl : fs.walk loc cs = some l) : fs'.walk loc cs = some l := by
  induction cs generalizing loc with
  | nil => exact hl
  | cons c cs ih =>
    rw [FileSystem.walk] at hl ⊢
    by_cases hdir : fs.node loc = some .dir
    · rw [if_pos hdir] at hl
      rw [if_pos (h.dir hdir)]
      exact ih hl
    · rw [if_neg hdir] at hl
      cases hl

/-- **Frame.**  A path that leads somewhere leads there still. -/
theorem resolve (h : Grows fs fs') {p : Path} {l : Location} (hl : fs.resolve p = some l) :
    fs'.resolve p = some l := by
  unfold FileSystem.resolve at hl ⊢
  split at hl
  · nomatch hl
  · rename_i hne
    rw [if_neg hne, h.workingDir]
    exact h.walk hl

theorem isDir (h : Grows fs fs') {p : Path} (hp : fs.isDir p = true) : fs'.isDir p = true := by
  obtain ⟨l, hl, hdir⟩ := isDir_iff.mp hp
  exact isDir_iff.mpr ⟨l, h.resolve hl, h.dir hdir⟩

end Grows

theorem node_makeDir {loc : Location} (h : fs.node loc = none) (l : Location) :
    (fs.makeDir loc).node l = if l = loc then some .dir else fs.node l := by
  have hroot : loc ≠ [] := by
    intro hnil
    rw [hnil] at h
    nomatch h
  unfold node makeDir
  by_cases hl : l = loc
  · subst hl
    rw [if_neg hroot, if_pos rfl, AList.lookup_insert]
  · rw [if_neg hl, AList.lookup_insert_ne hl]

theorem grows_makeDir {loc : Location} (h : fs.node loc = none) : Grows fs (fs.makeDir loc) := by
  refine ⟨rfl, fun l => ?_⟩
  rw [node_makeDir h]
  by_cases hl : l = loc
  · subst hl
    rw [if_pos rfl]
    exact .inr ⟨h, rfl⟩
  · rw [if_neg hl]
    exact .inl rfl

/-- **Step lemma.**  The directory that `mkdir` makes is the only thing that is new. -/
theorem mkdir_made {room : Nat} {p : Path} (h : fs.mkdir room p = .made fs') :
    Grows fs fs' ∧ fs'.isDir p = true := by
  unfold mkdir at h
  cases hloc : fs.resolve p with
  | none =>
    rw [hloc] at h
    dsimp only at h
    split at h <;> nomatch h
  | some loc =>
    rw [hloc] at h
    dsimp only at h
    cases hnode : fs.node loc with
    | some n =>
      rw [hnode] at h
      nomatch h
    | none =>
      rw [hnode] at h
      dsimp only at h
      split at h
      · nomatch h
      · obtain rfl := MkdirResult.made.inj h
        have hgrows := grows_makeDir hnode
        refine ⟨hgrows, isDir_iff.mpr ⟨loc, hgrows.resolve hloc, ?_⟩⟩
        rw [node_makeDir hnode, if_pos rfl]

/-- The run of `mkdir`s, by induction on the way up. -/
theorem createDirAllRev_spec (fs : FileSystem) (room : Nat) (rev : List Component) :
    Grows fs (fs.createDirAllRev room rev).fs ∧
      (rev ≠ [] → (fs.createDirAllRev room rev).ok = true →
        (fs.createDirAllRev room rev).fs.isDir ⟨rev.reverse⟩ = true) := by
  induction rev with
  | nil => exact ⟨.refl fs, fun hne => absurd rfl hne⟩
  | cons c above ih =>
    obtain ⟨habove, -⟩ := ih
    rw [createDirAllRev]
    cases hfirst : fs.mkdir room ⟨(c :: above).reverse⟩ with
    | made fs' =>
      obtain ⟨hgrows, hdir⟩ := mkdir_made hfirst
      exact ⟨hgrows, fun _ _ => hdir⟩
    | failed => exact ⟨.refl fs, fun _ hok => hok⟩
    | notFound =>
      dsimp only
      split
      · exact ⟨.refl fs, fun _ hok => nomatch hok⟩
      split
      · cases hagain : (fs.createDirAllRev room above).fs.mkdir
            (fs.createDirAllRev room above).room ⟨(c :: above).reverse⟩ with
        | made fs' =>
          obtain ⟨hgrows, hdir⟩ := mkdir_made hagain
          exact ⟨habove.trans hgrows, fun _ _ => hdir⟩
        | failed => exact ⟨habove, fun _ hok => hok⟩
        | notFound => exact ⟨habove, fun _ hok => hok⟩
      · rename_i hnot
        exact ⟨habove, fun _ hok => absurd hok hnot⟩

/-- **Frame.**  However it ends, `create_dir_all` makes nothing but directories. -/
theorem createDirAll_grows (fs : FileSystem) (room : Nat) (p : Path) :
    Grows fs (fs.createDirAll room p).fs :=
  (createDirAllRev_spec fs room p.components.reverse).1

theorem createDirAll_isDir {room : Nat} {p : Path} (hp : p.components ≠ [])
    (hok : (fs.createDirAll room p).ok = true) : (fs.createDirAll room p).fs.isDir p = true := by
  have hspec := (createDirAllRev_spec fs room p.components.reverse).2
    (fun hnil => hp (List.reverse_eq_nil_iff.mp hnil)) hok
  rw [List.reverse_reverse] at hspec
  exact hspec

end FileSystem
end Proc
