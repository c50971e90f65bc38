/-
  Paths as `std::path` reads them on Unix: lists of components.

  A path is parsed from its text, `join` puts a path behind another one or replaces it by an
  absolute one, and the stem and the extension of a file name are what stands before and after its
  last dot, unless that dot is its first character.
-/

namespace Proc

/-- The name of a file in its directory. -/
abbrev Name := List Char

/-- `Component`. -/
inductive Component where
  | rootDir
  | curDir
  | parentDir
  | normal (name : Name)
deriving Repr, DecidableEq

/-- `PathBuf`, by its components. -/
structure Path where
  components : List Component
deriving Repr, DecidableEq

namespace Path

/-! ## The text of a path -/

/-- What stands between the separators. -/
def segments : List Char → List Name
  | [] => [[]]
  | c :: cs =>
    if c = '/' then [] :: segments cs
    else
      match segments cs with
      | [] => [[c]]
      | s :: ss => (c :: s) :: ss

/-- The component of a segment that is not the first one. -/
def inner (s : Name) : Option Component :=
  if s = [] ∨ s = ['.'] then none
  else if s = ['.', '.'] then some .parentDir
  else some (.normal s)

/-- The component of the first segment: a single dot counts there. -/
def leading (s : Name) : Option Component := if s = ['.'] then some .curDir else inner s

def parse (text : List Char) : Path :=
  if text.head? = some '/' then ⟨.rootDir :: (segments text).filterMap inner⟩
  else
    match segments text with
    | [] => ⟨[]⟩
    | s :: ss => ⟨(leading s).toList ++ ss.filterMap inner⟩

theorem segments_of_notMem {text : List Char} (h : '/' ∉ text) : segments text = [text] := by
  induction text with
  | nil => rfl
  | cons c cs ih =>
    rw [List.mem_cons, not_or] at h
    rw [segments, if_neg (Ne.symm h.1), ih h.2]

/-- A text without separators is at most one component. -/
theorem parse_of_notMem {text : List Char} (h : '/' ∉ text) :
    parse text = ⟨(leading text).toList⟩ := by
  have hhead : text.head? ≠ some '/' := by
    intro hhead
    exact h (List.mem_of_head? hhead)
  rw [parse, if_neg hhead, segments_of_notMem h]
  exact congrArg Path.mk (List.append_nil _)

/-! ## Joining -/

/-- `is_absolute`. -/
def isAbsolute (p : Path) : Bool := p.components.head? == some .rootDir

/-- `join`. -/
def join (p q : Path) : Path :=
  if q.isAbsolute then q
  else if p.components = [] then q
  else ⟨p.components ++ q.components.filter (· ≠ .curDir)⟩

/-- `join` of a file name. -/
def child (p : Path) (name : Name) : Path := ⟨p.components ++ [.normal name]⟩

/-- A name of which `parse` makes a normal component. -/
def IsFileName (name : Name) : Prop :=
  name ≠ [] ∧ '/' ∉ name ∧ name ≠ ['.'] ∧ name ≠ ['.', '.']

theorem IsFileName.parse {name : Name} (h : IsFileName name) : parse name = ⟨[.normal name]⟩ := by
  obtain ⟨hne, hslash, hdot, hdots⟩ := h
  rw [parse_of_notMem hslash, leading, if_neg hdot, inner, if_neg (by simp [hne, hdot]),
    if_neg hdots]
  rfl

theorem join_fileName {p : Path} {name : Name} (h : IsFileName name) :
    p.join (Path.parse name) = p.child name := by
  rw [h.parse]
  unfold join child
  rw [if_neg (by simp [isAbsolute])]
  split
  · rename_i hnil
    rw [hnil]
    rfl
  · rfl

theorem join_curDir {p : Path} (hp : p.components ≠ []) : p.join (parse ['.']) = p := by
  have hnone : (parse ['.']).components.filter (· ≠ Component.curDir) = [] := by decide
  unfold join
  rw [if_neg (by decide), if_neg hp, hnone, List.append_nil]

theorem join_parentDir {p : Path} (hp : p.components ≠ []) :
    p.join (parse ['.', '.']) = ⟨p.components ++ [.parentDir]⟩ := by
  have hparent : (parse ['.', '.']).components.filter (· ≠ Component.curDir) = [.parentDir] := by
    decide
  unfold join
  rw [if_neg (by decide), if_neg hp, hparent]

/-! ## The last component -/

/-- `file_name`. -/
def fileName (p : Path) : Option Name :=
  match p.components.getLast? with
  | some (.normal name) => some name
  | _ => none

/-- What stands before and after the last dot. -/
def rsplitDot : Name → Option (Name × Name)
  | [] => none
  | c :: cs =>
    match rsplitDot cs with
    | some (before, after) => some (c :: before, after)
    | none => if c = '.' then some ([], cs) else none

/-- `rsplit_file_at_dot`. -/
def rsplitFileAtDot (file : Name) : Option Name × Option Name :=
  if file = ['.', '.'] then (some file, none)
  else
    match rsplitDot file with
    | none => (none, some file)
    | some ([], _) => (some file, none)
    | some (before, after) => (some before, some after)

/-- `file_stem` of a file name. -/
def stem (file : Name) : Option Name :=
  (rsplitFileAtDot file).1.or (rsplitFileAtDot file).2

/-- `file_stem`. -/
def fileStem (p : Path) : Option Name := p.fileName.bind stem

/-- `extension`. -/
def extension (p : Path) : Option Name :=
  p.fileName.bind fun file => (rsplitFileAtDot file).1.bind fun _ => (rsplitFileAtDot file).2

/-- `set_extension`, to an extension that is not empty. -/
def setExtension (p : Path) (ext : Name) : Path :=
  match p.fileStem with
  | none => p
  | some s => ⟨p.components.dropLast ++ [.normal (s ++ '.' :: ext)]⟩

@[simp] theorem fileName_child (p : Path) (name : Name) : (p.child name).fileName = some name := by
  unfold fileName child
  rw [List.getLast?_concat]

theorem setExtension_child {p : Path} {name s : Name} (h : stem name = some s) (ext : Name) :
    (p.child name).setExtension ext = p.child (s ++ '.' :: ext) := by
  unfold setExtension fileStem
  rw [fileName_child, show (some name).bind stem = some s from h]
  simp [child]

/-- Another name in the place of the last one, or nothing changes. -/
theorem setExtension_cases (p : Path) (ext : Name) :
    p.setExtension ext = p ∨ ∃ front name name', p.components = front ++ [.normal name] ∧
      p.setExtension ext = ⟨front ++ [.normal name']⟩ := by
  unfold setExtension
  cases hstem : p.fileStem with
  | none => exact .inl rfl
  | some s =>
    obtain ⟨name, hname, -⟩ := Option.bind_eq_some_iff.mp hstem
    unfold fileName at hname
    split at hname
    · rename_i n hlast
      obtain ⟨front, hfront⟩ := List.getLast?_eq_some_iff.mp hlast
      refine .inr ⟨front, n, s ++ '.' :: ext, hfront, ?_⟩
      show (⟨p.components.dropLast ++ _⟩ : Path) = _
      rw [hfront, List.dropLast_concat]
    · nomatch hname

theorem setExtension_parentDir (front : List Component) (ext : Name) :
    (⟨front ++ [.parentDir]⟩ : Path).setExtension ext = ⟨front ++ [.parentDir]⟩ := by
  unfold setExtension fileStem fileName
  rw [List.getLast?_concat]
  rfl

/-! ## Stems -/

theorem rsplitDot_eq_none {file : Name} : rsplitDot file = none ↔ '.' ∉ file := by
  induction file with
  | nil => exact iff_of_true rfl List.not_mem_nil
  | cons c cs ih =>
    rw [rsplitDot, List.mem_cons, not_or, ← ih]
    cases rsplitDot cs with
    | some r => exact iff_of_false nofun fun h => nomatch h.2
    | none =>
      by_cases hc : c = '.'
      · exact iff_of_false (by simp [hc]) fun h => h.1 hc.symm
      · exact iff_of_true (by simp [hc]) ⟨Ne.symm hc, rfl⟩

/-- The two parts and the dot between them. -/
theorem rsplitDot_eq_some {file before after : Name} (h : rsplitDot file = some (before, after)) :
    file = before ++ '.' :: after := by
  induction file generalizing before with
  | nil => nomatch h
  | cons c cs ih =>
    rw [rsplitDot] at h
    cases hcs : rsplitDot cs with
    | some r =>
      obtain ⟨b, a⟩ := r
      rw [hcs] at h
      obtain ⟨rfl, rfl⟩ := Prod.mk.inj (Option.some.inj h)
      exact congrArg (c :: ·) (ih hcs)
    | none =>
      rw [hcs] at h
      by_cases hc : c = '.'
      · rw [if_pos hc] at h
        obtain ⟨rfl, rfl⟩ := Prod.mk.inj (Option.some.inj h)
        rw [hc]
        rfl
      · rw [if_neg hc] at h
        nomatch h

theorem rsplitDot_append (s : Name) {ext : Name} (h : '.' ∉ ext) :
    rsplitDot (s ++ '.' :: ext) = some (s, ext) := by
  induction s with
  | nil =>
    rw [List.nil_append, rsplitDot, rsplitDot_eq_none.mpr h]
    rfl
  | cons c s ih => rw [List.cons_append, rsplitDot, ih]

/-- The name with an extension put behind it is split there. -/
theorem rsplitFileAtDot_append {s ext : Name} (hs : s ≠ []) (hext : ext ≠ []) (h : '.' ∉ ext) :
    rsplitFileAtDot (s ++ '.' :: ext) = (some s, some ext) := by
  have hdots : s ++ '.' :: ext ≠ ['.', '.'] := by
    intro heq
    have hlength := congrArg List.length heq
    have hspos := List.length_pos_iff.mpr hs
    have hextpos := List.length_pos_iff.mpr hext
    simp only [List.length_append, List.length_cons, List.length_nil] at hlength
    omega
  rw [rsplitFileAtDot, if_neg hdots, rsplitDot_append s h]
  cases s with
  | nil => exact absurd rfl hs
  | cons c s => rfl

theorem stem_append {s ext : Name} (hs : s ≠ []) (hext : ext ≠ []) (h : '.' ∉ ext) :
    stem (s ++ '.' :: ext) = some s := by
  rw [stem, rsplitFileAtDot_append hs hext h]
  rfl

theorem extension_append {p : Path} {s ext : Name} (hs : s ≠ []) (hext : ext ≠ [])
    (h : '.' ∉ ext) : (p.child (s ++ '.' :: ext)).extension = some ext := by
  rw [extension, fileName_child]
  show ((rsplitFileAtDot _).1.bind fun _ => (rsplitFileAtDot _).2) = some ext
  rw [rsplitFileAtDot_append hs hext h]
  rfl

/-- The stem of a file name: the whole name when no dot follows its first character, and otherwise
    a shorter one. -/
theorem stem_cases {file : Name} (hne : file ≠ []) (hdots : file ≠ ['.', '.']) :
    ∃ s, stem file = some s ∧ s ≠ [] ∧
      ('.' ∉ file.tail ∧ s = file ∨ '.' ∈ file.tail ∧ s.length < file.length) := by
  obtain ⟨c, cs, rfl⟩ := List.exists_cons_of_ne_nil hne
  unfold stem rsplitFileAtDot
  rw [if_neg hdots]
  cases hsplit : rsplitDot (c :: cs) with
  | none =>
    have hdot := rsplitDot_eq_none.mp hsplit
    exact ⟨c :: cs, rfl, hne, .inl ⟨fun h => hdot (List.mem_cons_of_mem c h), rfl⟩⟩
  | some r =>
    obtain ⟨before, after⟩ := r
    have hfile := rsplitDot_eq_some hsplit
    cases before with
    | nil =>
      -- the last dot is the first character
      refine ⟨c :: cs, rfl, hne, .inl ⟨fun h => ?_, rfl⟩⟩
      rw [rsplitDot] at hsplit
      cases hcs : rsplitDot cs with
      | none => exact rsplitDot_eq_none.mp hcs h
      | some r =>
        rw [hcs] at hsplit
        nomatch hsplit
    | cons b before =>
      obtain ⟨rfl, rfl⟩ := List.cons.inj hfile
      refine ⟨_, rfl, List.cons_ne_nil _ _, .inr ⟨?_, ?_⟩⟩
      · show '.' ∈ before ++ '.' :: after
        simp
      · simp

theorem stem_eq_self_iff {file : Name} (hne : file ≠ []) (hdots : file ≠ ['.', '.']) :
    stem file = some file ↔ '.' ∉ file.tail := by
  obtain ⟨s, hs, -, ⟨hdot, rfl⟩ | ⟨hdot, hless⟩⟩ := stem_cases hne hdots
  · exact iff_of_true hs hdot
  · refine iff_of_false (fun h => ?_) fun h => h hdot
    obtain rfl := Option.some.inj (hs.symm.trans h)
    exact absurd hless (Nat.lt_irrefl _)

end Path
end Proc
