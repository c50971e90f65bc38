/-
  A file system without links: directories and files at locations, and a working directory.

  A location is the list of names from the root.  A path is walked from the working directory, or
  from the root, and every component but the last must lead through a directory.  Writing a file
  never makes or removes a directory, so all paths lead where they led before (`resolve_write`), and
  only what is read at the location written to changes (`read_write`).
-/
import Mathlib.Data.List.AList
import OffChainWorker.Lib.Path

namespace Proc

abbrev Location := List Name

inductive Node where
  | dir
  | file (content : List UInt8)
deriving Repr, DecidableEq

structure FileSystem where
  workingDir : Location
  /-- What is there, but for the root. -/
  nodes : AList fun _ : Location => Node

namespace FileSystem

variable (fs : FileSystem)

def node (loc : Location) : Option Node :=
  if loc = [] then some .dir else fs.nodes.lookup loc

/-! ## Paths -/

/-- Where a component leads from a directory. -/
def enter (loc : Location) : Component → Location
  | .rootDir => []
  | .curDir => loc
  | .parentDir => loc.dropLast
  | .normal name => loc ++ [name]

def walk (loc : Location) : List Component → Option Location
  | [] => some loc
  | c :: cs => if fs.node loc = some .dir then walk (enter loc c) cs else none

/-- Where a path leads; nothing needs to be there yet.  The empty path leads nowhere. -/
def resolve (p : Path) : Option Location :=
  if p.components = [] then none else fs.walk fs.workingDir p.components

/-- `Path::exists`. -/
def exists? (p : Path) : Bool := ((fs.resolve p).bind fs.node).isSome

/-- `File::open`, and reading to the end; a directory cannot be read. -/
def read (p : Path) : Option (List UInt8) :=
  match (fs.resolve p).bind fs.node with
  | some (.file content) => some content
  | _ => none

/-- The names in a directory; `fs::read_dir`. -/
def readDir (p : Path) : Option (List Name) := do
  let loc ← fs.resolve p
  if fs.node loc = some .dir then
    some (fs.nodes.keys.filterMap fun l =>
      if l.dropLast = loc then l.getLast? else none)
  else none

/-- Where `File::create` makes a file: not in place of a directory. -/
def creates (p : Path) : Option Location := do
  let loc ← fs.resolve p
  if fs.node loc = some .dir then none else some loc

/-- The file at a location, with this content. -/
def write (loc : Location) (content : List UInt8) : FileSystem :=
  { fs with nodes := fs.nodes.insert loc (.file content) }

variable {fs}

theorem components_ne_nil {p : Path} {loc : Location} (h : fs.resolve p = some loc) :
    p.components ≠ [] := by
  intro hnil
  unfold resolve at h
  rw [if_pos hnil] at h
  nomatch h

/-! ## What writing a file changes -/

theorem creates_eq_some {p : Path} {loc : Location} :
    fs.creates p = some loc ↔ fs.resolve p = some loc ∧ fs.node loc ≠ some .dir := by
  unfold creates
  cases hloc : fs.resolve p with
  | none => exact iff_of_false nofun fun h => nomatch h.1
  | some l =>
    show (if fs.node l = some .dir then none else some l) = some loc ↔ _
    by_cases hdir : fs.node l = some .dir
    · rw [if_pos hdir]
      refine iff_of_false nofun fun h => h.2 ?_
      rw [← Option.some.inj h.1]
      exact hdir
    · rw [if_neg hdir]
      refine ⟨fun h => ⟨h, ?_⟩, fun h => h.1⟩
      rw [← Option.some.inj h]
      exact hdir

theorem ne_root_of_node {loc : Location} (h : fs.node loc ≠ some .dir) : loc ≠ [] := by
  rintro rfl
  exact h rfl

theorem node_write {loc : Location} (h : fs.node loc ≠ some .dir) (content : List UInt8)
    (l : Location) :
    (fs.write loc content).node l = if l = loc then some (.file content) else fs.node l := by
  unfold node write
  by_cases hl : l = loc
  · subst hl
    rw [if_neg (ne_root_of_node h), if_pos rfl, AList.lookup_insert]
  · rw [if_neg hl, AList.lookup_insert_ne hl]

/-- **Frame.**  The directories are the same. -/
theorem dir_write {loc : Location} (h : fs.node loc ≠ some .dir) (content : List UInt8)
    (l : Location) : (fs.write loc content).node l = some .dir ↔ fs.node l = some .dir := by
  rw [node_write h]
  by_cases hl : l = loc
  · subst hl
    rw [if_pos rfl]
    exact iff_of_false nofun h
  · rw [if_neg hl]

theorem walk_congr {fs' : FileSystem}
    (h : ∀ l, fs'.node l = some .dir ↔ fs.node l = some .dir) (cs : List Component)
    (loc : Location) : fs'.walk loc cs = fs.walk loc cs := by
  induction cs generalizing loc with
  | nil => rfl
  | cons c cs ih =>
    rw [walk, walk]
    by_cases hdir : fs.node loc = some .dir
    · rw [if_pos hdir, if_pos ((h loc).mpr hdir)]
      exact ih (enter loc c)
    · rw [if_neg hdir, if_neg fun hdir' => hdir ((h loc).mp hdir')]

/-- **Frame.**  All paths lead where they led before. -/
theorem resolve_write {loc : Location} (h : fs.node loc ≠ some .dir) (content : List UInt8)
    (p : Path) : (fs.write loc content).resolve p = fs.resolve p := by
  unfold resolve
  rw [walk_congr (dir_write h content)]
  rfl

theorem read_eq {p : Path} {loc : Location} (h : fs.resolve p = some loc) :
    fs.read p = match fs.node loc with
      | some (.file content) => some content
      | _ => none := by
  unfold read
  rw [h]
  rfl

/-- **Frame.**  Only the file that is written changes. -/
theorem read_write {loc : Location} (h : fs.node loc ≠ some .dir) (content : List UInt8)
    (p : Path) :
    (fs.write loc content).read p =
      if fs.resolve p = some loc then some content else fs.read p := by
  unfold read
  rw [resolve_write h]
  cases hp : fs.resolve p with
  | none =>
    rw [if_neg nofun]
    rfl
  | some l =>
    show (match (fs.write loc content).node l with
      | some (.file content) => some content
      | _ => none) = _
    rw [node_write h]
    by_cases hl : l = loc
    · rw [if_pos hl, if_pos (congrArg some hl)]
    · rw [if_neg hl, if_neg fun hsome => hl (Option.some.inj hsome)]
      rfl

/-! ## Directories and their files -/

theorem walk_append (cs cs' : List Component) (loc : Location) :
    fs.walk loc (cs ++ cs') = (fs.walk loc cs).bind fun l => fs.walk l cs' := by
  induction cs generalizing loc with
  | nil => rfl
  | cons c cs ih =>
    rw [List.cons_append, walk, walk]
    by_cases hdir : fs.node loc = some .dir
    · rw [if_pos hdir, if_pos hdir]
      exact ih (enter loc c)
    · rw [if_neg hdir, if_neg hdir]
      rfl

/-- One component further. -/
theorem resolve_snoc {p : Path} {d : Location} (hp : fs.resolve p = some d)
    (hdir : fs.node d = some .dir) (c : Component) :
    fs.resolve ⟨p.components ++ [c]⟩ = some (enter d c) := by
  unfold resolve at hp ⊢
  split at hp
  · nomatch hp
  · rw [if_neg (by simp), walk_append, hp]
    show fs.walk d [c] = some (enter d c)
    rw [walk, if_pos hdir]
    rfl

theorem resolve_child {p : Path} {d : Location} (hp : fs.resolve p = some d)
    (hdir : fs.node d = some .dir) (name : Name) :
    fs.resolve (p.child name) = some (d ++ [name]) :=
  resolve_snoc hp hdir (.normal name)

/-- Two names at the end of one path lead equally far down. -/
theorem resolve_sibling {front : List Component} {name name' : Name} {d loc : Location}
    (h : fs.resolve ⟨front ++ [.normal name]⟩ = some d)
    (h' : fs.resolve ⟨front ++ [.normal name']⟩ = some loc) : loc.length = d.length := by
  have hlast : ∀ {n : Name} {l : Location}, fs.resolve ⟨front ++ [.normal n]⟩ = some l →
      ∃ q, fs.walk fs.workingDir front = some q ∧ l = q ++ [n] := by
    intro n l hl
    unfold resolve at hl
    rw [if_neg (by simp), walk_append] at hl
    obtain ⟨q, hq, hl⟩ := Option.bind_eq_some_iff.mp hl
    rw [walk] at hl
    split at hl
    · exact ⟨q, hq, (Option.some.inj hl).symm⟩
    · nomatch hl
  obtain ⟨q, hq, rfl⟩ := hlast h
  obtain ⟨q', hq', rfl⟩ := hlast h'
  obtain rfl := Option.some.inj (hq.symm.trans hq')
  rw [List.length_append, List.length_append]
  rfl

theorem readDir_eq {p : Path} {d : Location} (hp : fs.resolve p = some d)
    (hdir : fs.node d = some .dir) :
    fs.readDir p = some (fs.nodes.keys.filterMap fun l =>
      if l.dropLast = d then l.getLast? else none) := by
  unfold readDir
  rw [hp]
  exact if_pos hdir

theorem readDir_eq_some {p : Path} {files : List Name} (h : fs.readDir p = some files) :
    ∃ d, fs.resolve p = some d ∧ fs.node d = some .dir := by
  obtain ⟨d, hp, h⟩ := Option.bind_eq_some_iff.mp h
  by_cases hdir : fs.node d = some .dir
  · exact ⟨d, hp, hdir⟩
  · rw [if_neg hdir] at h
    nomatch h

theorem dropLast_getLast?_iff {l d : Location} {name : Name} :
    (if l.dropLast = d then l.getLast? else none) = some name ↔ l = d ++ [name] := by
  constructor
  · intro h
    split at h
    · rename_i hd
      obtain ⟨init, rfl⟩ := List.getLast?_eq_some_iff.mp h
      rw [List.dropLast_concat] at hd
      rw [hd]
    · nomatch h
  · rintro rfl
    rw [if_pos List.dropLast_concat, List.getLast?_concat]

/-- The names in a directory are those of the locations right below it. -/
theorem mem_readDir {p : Path} {d : Location} {files : List Name} (hp : fs.resolve p = some d)
    (hdir : fs.node d = some .dir) (h : fs.readDir p = some files) {name : Name} :
    name ∈ files ↔ d ++ [name] ∈ fs.nodes.keys := by
  rw [readDir_eq hp hdir] at h
  obtain rfl := Option.some.inj h
  rw [List.mem_filterMap]
  constructor
  · rintro ⟨l, hl, hname⟩
    rw [← dropLast_getLast?_iff.mp hname]
    exact hl
  · intro hl
    exact ⟨_, hl, dropLast_getLast?_iff.mpr rfl⟩

/-- Each of them once. -/
theorem readDir_nodup {p : Path} {files : List Name} (h : fs.readDir p = some files) :
    files.Nodup := by
  obtain ⟨d, hp, hdir⟩ := readDir_eq_some h
  rw [readDir_eq hp hdir] at h
  obtain rfl := Option.some.inj h
  refine fs.nodes.keys_nodup.filterMap fun l l' name hl hl' => ?_
  rw [dropLast_getLast?_iff.mp hl, dropLast_getLast?_iff.mp hl']

theorem mem_keys_write {loc l : Location} {content : List UInt8} :
    l ∈ (fs.write loc content).nodes.keys ↔ l = loc ∨ l ∈ fs.nodes.keys := by
  unfold write
  rw [← AList.mem_keys, ← AList.mem_keys]
  exact AList.mem_insert fs.nodes

end FileSystem
end Proc
