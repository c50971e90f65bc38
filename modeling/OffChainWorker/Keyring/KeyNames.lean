/-
  The key store as a map from names to keys.

  On disk the name of a key is its file: `set_extension` puts `.json` behind the stem of the name,
  and `keys` takes the stem of the file for the name.  The stem of a name is the name itself unless
  a dot follows its first character; then it is shorter, so the way back leads to another name.
  The single dot is not a file name at all: its file lies next to the folder.

  When every name added is among the names that `keys` finds, a longest name is the stem of a name
  that is no shorter, hence of itself; so, from the longest names down, every name is its own stem
  (`fixed_of_covered`).
-/
import OffChainWorker.Keyring.StoredKeys
import OffChainWorker.Lib.Lists

namespace OffChainWorker.Keyring

open Proc

variable {Pub Prv : Type} (format : KeyFormat Pub Prv)

/-! ## What is asked of the store -/

/-- The store after all these calls of `add_key`, when every one of them returns `Ok`. -/
def addAll : KeyStore Pub Prv → List (Addition Pub Prv) → Option (KeyStore Pub Prv)
  | s, [] => some s
  | s, a :: as =>
    match s.addKey format a.fault a.keyName a.keyEntry with
    | (.ok (), s') => addAll s' as
    | (.error _, _) => none

/-- A new key ring: nothing in memory, or nothing in the folder. -/
def IsNew (s : KeyStore Pub Prv) : Prop :=
  match s.ring with
  | .memory m => m.keys.entries = []
  | .test t => s.fs.readDir t.store = some []

/-- The name and the entry. -/
def Addition.pair (a : Addition Pub Prv) : String × KeyEntry Pub Prv := (a.keyName, a.keyEntry)

/-- Every name resolves to its entry, and `keys` returns the pairs, each once. -/
def MapLike (s : KeyStore Pub Prv) (adds : List (Addition Pub Prv)) : Prop :=
  (∀ a ∈ adds, s.getKey format a.keyName = .ok a.keyEntry) ∧
    ∃ l, s.keys format = .ok l ∧ l.Perm (adds.map Addition.pair)

/-- Not a single dot, and no dot after the first character. -/
def OwnStem (name : String) : Prop := name.toList ≠ ['.'] ∧ '.' ∉ name.toList.tail

/-! ## The files of the names -/

/-- A name without separators is a file name, or one or two dots. -/
theorem name_cases {name : String} (hne : name ≠ "") (hslash : '/' ∉ name.toList) :
    Path.IsFileName name.toList ∨ name.toList = ['.'] ∨ name.toList = ['.', '.'] := by
  have hlist : name.toList ≠ [] := fun h => hne (String.toList_eq_nil_iff.mp h)
  by_cases hdot : name.toList = ['.']
  · exact .inr (.inl hdot)
  by_cases hdots : name.toList = ['.', '.']
  · exact .inr (.inr hdots)
  · exact .inl ⟨hlist, hslash, hdot, hdots⟩

/-- The names that are their own stems. -/
theorem ownStem_iff {name : String} (hne : name ≠ "") (hslash : '/' ∉ name.toList) :
    OwnStem name ↔
      Path.IsFileName name.toList ∧ Path.stem name.toList = some name.toList := by
  constructor
  · rintro ⟨hdot, htail⟩
    rcases name_cases hne hslash with hname | hone | htwo
    · exact ⟨hname, (Path.stem_eq_self_iff hname.1 hname.2.2.2).mpr htail⟩
    · exact absurd hone hdot
    · rw [htwo] at htail
      exact absurd (by decide) htail
  · rintro ⟨hname, hstem⟩
    exact ⟨hname.2.2.1, (Path.stem_eq_self_iff hname.1 hname.2.2.2).mp hstem⟩

namespace Test

variable (t : Test) {fs : FileSystem}

/-- The file of a stem. -/
def fileOf (stem : Name) : Name := stem ++ '.' :: KEYSTORE_FILE_EXTENSION

theorem keyFile_child {name : String} {s : Name} (h : Path.IsFileName name.toList)
    (hs : Path.stem name.toList = some s) : t.keyFile name = t.store.child (fileOf s) := by
  unfold keyFile
  rw [Path.join_fileName h, Path.setExtension_child hs]
  rfl

/-- A single dot leads to a file next to the folder, or nowhere. -/
theorem keyFile_dot {name : String} (hname : name.toList = ['.']) {d loc : Location}
    (hd : fs.resolve t.store = some d) (hdir : fs.node d = some .dir)
    (hloc : fs.resolve (t.keyFile name) = some loc) (hnode : fs.node loc ≠ some .dir)
    (file : Name) : loc ≠ d ++ [file] := by
  unfold keyFile at hloc
  rw [hname, Path.join_curDir (FileSystem.components_ne_nil hd)] at hloc
  rcases t.store.setExtension_cases KEYSTORE_FILE_EXTENSION with
    hsame | ⟨front, last, last', hcomponents, hpath⟩
  · rw [hsame, hd] at hloc
    obtain rfl := Option.some.inj hloc
    exact absurd hdir hnode
  · have hsplit : t.store = ⟨front ++ [.normal last]⟩ := congrArg Proc.Path.mk hcomponents
    rw [hsplit] at hd
    rw [hpath] at hloc
    have hlength := FileSystem.resolve_sibling hd hloc
    rintro rfl
    rw [List.length_append] at hlength
    exact absurd hlength (by simp)

/-- Two dots lead to the directory above. -/
theorem keyFile_dots {name : String} (hname : name.toList = ['.', '.']) {d loc : Location}
    (hd : fs.resolve t.store = some d) (hdir : fs.node d = some .dir)
    (hloc : fs.resolve (t.keyFile name) = some loc) (file : Name) : loc ≠ d ++ [file] := by
  unfold keyFile at hloc
  rw [hname, Path.join_parentDir (FileSystem.components_ne_nil hd), Path.setExtension_parentDir,
    FileSystem.resolve_snoc hd hdir] at hloc
  obtain rfl := Option.some.inj hloc
  intro heq
  have hlength := congrArg List.length heq
  simp only [FileSystem.enter, List.length_dropLast, List.length_append,
    List.length_singleton] at hlength
  omega

end Test

/-! ## A run in memory -/

theorem addAll_memory {m : Memory Pub Prv} {fs : FileSystem} {adds : List (Addition Pub Prv)}
    {s' : KeyStore Pub Prv} (h : addAll format ⟨.memory m, fs⟩ adds = some s') :
    ∃ m', s' = ⟨.memory m', fs⟩ ∧ m'.keys.entries =
      (adds.map fun a => ⟨a.keyName, a.keyEntry⟩).reverse ++ m.keys.entries := by
  induction adds generalizing m with
  | nil => exact ⟨m, (Option.some.inj h).symm, rfl⟩
  | cons a as ih =>
    unfold addAll KeyStore.addKey Memory.addKey at h
    dsimp only at h
    by_cases hmem : a.keyName ∈ m.keys
    · rw [if_pos hmem] at h
      nomatch h
    · rw [if_neg hmem] at h
      obtain ⟨m', rfl, hentries⟩ := ih h
      refine ⟨m', rfl, ?_⟩
      rw [hentries, AList.entries_insert_of_notMem hmem]
      simp

theorem memory_mapLike {s s' : KeyStore Pub Prv} {m : Memory Pub Prv}
    {adds : List (Addition Pub Prv)} (hring : s.ring = .memory m) (hempty : IsNew s)
    (h : addAll format s adds = some s') : MapLike format s' adds := by
  obtain ⟨ring, fs⟩ := s
  obtain rfl : ring = .memory m := hring
  obtain ⟨m', rfl, hentries⟩ := addAll_memory format h
  rw [show m.keys.entries = [] from hempty, List.append_nil] at hentries
  refine ⟨fun a ha => ?_, _, rfl, ?_⟩
  · show m'.getKey a.keyName = .ok a.keyEntry
    rw [Memory.getKey_eq_ok]
    refine AList.mem_lookup_iff.mpr ?_
    rw [hentries, List.mem_reverse]
    exact List.mem_map.mpr ⟨a, ha, rfl⟩
  · rw [hentries, List.map_reverse, List.map_map]
    exact List.reverse_perm _

/-! ## A run on disk -/

namespace Test

variable (t : Test)

/-- The files are written one after the other. -/
inductive Written : FileSystem → List (Addition Pub Prv) → FileSystem → Prop
  | nil (fs : FileSystem) : Written fs [] fs
  | cons {fs fs' : FileSystem} {a : Addition Pub Prv} {as : List (Addition Pub Prv)}
      {loc : Location} {content : Bytes} (hloc : fs.resolve (t.keyFile a.keyName) = some loc)
      (hnode : fs.node loc ≠ some .dir) (hread : format.fromReader content = some a.keyEntry)
      (h : Written (fs.write loc content) as fs') : Written fs (a :: as) fs'

variable {t format} {fs fs' : FileSystem} {adds : List (Addition Pub Prv)}

theorem written_of_addAll {s' : KeyStore Pub Prv}
    (h : addAll format ⟨.test t, fs⟩ adds = some s') :
    ∃ fs', s' = ⟨.test t, fs'⟩ ∧ Written format t fs adds fs' := by
  induction adds generalizing fs with
  | nil => exact ⟨fs, (Option.some.inj h).symm, .nil fs⟩
  | cons a as ih =>
    unfold addAll KeyStore.addKey at h
    dsimp only at h
    rcases t.addKey_cases format fs a.fault a.keyName a.keyEntry with
      ⟨-, hadd⟩ | ⟨loc, content, hsome, ⟨-, hadd⟩ | ⟨hread, hadd⟩⟩
    · rw [hadd] at h
      nomatch h
    · rw [hadd] at h
      nomatch h
    · rw [hadd] at h
      obtain ⟨hloc, hnode⟩ := t.created_eq_some hsome
      obtain ⟨fs', rfl, hwritten⟩ := ih h
      exact ⟨fs', rfl, .cons hloc hnode hread hwritten⟩

theorem Written.resolve (h : Written format t fs adds fs') (p : Path) :
    fs'.resolve p = fs.resolve p := by
  induction h with
  | nil fs => rfl
  | cons hloc hnode hread h ih => rw [ih, FileSystem.resolve_write hnode]

theorem Written.dir (h : Written format t fs adds fs') (l : Location) :
    fs'.node l = some .dir ↔ fs.node l = some .dir := by
  induction h with
  | nil fs => exact Iff.rfl
  | cons hloc hnode hread h ih => rw [ih, FileSystem.dir_write hnode]

theorem Written.created (h : Written format t fs adds fs') :
    ∀ a ∈ adds, ∃ loc, fs.resolve (t.keyFile a.keyName) = some loc ∧
      fs.node loc ≠ some .dir := by
  induction h with
  | nil fs => exact List.forall_mem_nil _
  | cons hloc hnode hread h ih =>
    refine List.forall_mem_cons.mpr ⟨⟨_, hloc, hnode⟩, fun a ha => ?_⟩
    obtain ⟨loc, hloc', hnode'⟩ := ih a ha
    rw [FileSystem.resolve_write hnode] at hloc'
    exact ⟨loc, hloc', fun hdir => hnode' ((FileSystem.dir_write hnode _ _).mpr hdir)⟩

/-- What is there afterwards: what was there, and the files of the keys. -/
theorem Written.mem_keys (h : Written format t fs adds fs') (l : Location) :
    l ∈ fs'.nodes.keys ↔
      l ∈ fs.nodes.keys ∨ ∃ a ∈ adds, fs.resolve (t.keyFile a.keyName) = some l := by
  induction h with
  | nil fs => simp
  | @cons fs fs' a as loc content hloc hnode hread h ih =>
    simp only [ih, FileSystem.mem_keys_write, FileSystem.resolve_write hnode,
      List.exists_mem_cons_iff, hloc, Option.some.injEq]
    grind

/-- **Frame.**  A name whose file is not written keeps its entry. -/
theorem Written.stored_other (h : Written format t fs adds fs') {name : String}
    (hother : ∀ a ∈ adds, fs.resolve (t.keyFile a.keyName) ≠ fs.resolve (t.keyFile name)) :
    t.stored format fs' name = t.stored format fs name := by
  induction h with
  | nil fs => rfl
  | cons hloc hnode hread h ih =>
    obtain ⟨hfirst, hrest⟩ := List.forall_mem_cons.mp hother
    rw [ih fun a ha => by
      rw [FileSystem.resolve_write hnode, FileSystem.resolve_write hnode]
      exact hrest a ha]
    rw [stored_write format t hnode, if_neg fun heq => hfirst (hloc.trans heq.symm)]

/-- When no two names have one file, every name has its own entry. -/
theorem Written.stored (h : Written format t fs adds fs')
    (hfiles : (adds.map fun a => fs.resolve (t.keyFile a.keyName)).Nodup) :
    ∀ a ∈ adds, t.stored format fs' a.keyName = some a.keyEntry := by
  induction h with
  | nil fs => exact List.forall_mem_nil _
  | @cons fs fs' a as loc content hloc hnode hread h ih =>
    rw [List.map_cons, List.nodup_cons] at hfiles
    obtain ⟨hfirst, hrest⟩ := hfiles
    have hframe : ∀ b : Addition Pub Prv,
        (fs.write loc content).resolve (t.keyFile b.keyName) =
          fs.resolve (t.keyFile b.keyName) := fun b => FileSystem.resolve_write hnode _ _
    refine List.forall_mem_cons.mpr ⟨?_, ih ?_⟩
    · rw [h.stored_other fun b hb => ?_, stored_write format t hnode, if_pos hloc, hread]
      rw [hframe, hframe]
      exact fun heq => hfirst (List.mem_map.mpr ⟨b, hb, heq⟩)
    · rw [List.map_congr_left fun b _ => hframe b]
      exact hrest

/-! ## The names that `keys` finds -/

theorem allKeys_eq_ok {l : List (String × KeyEntry Pub Prv)} :
    t.allKeys format fs = .ok l ↔ ∃ files, fs.readDir t.store = some files ∧
      l.map Prod.fst = files.filterMap t.keyNameOf ∧ ∀ p ∈ l, t.getKey format fs p.1 = .ok p.2 := by
  unfold allKeys
  cases hfiles : fs.readDir t.store with
  | none => exact iff_of_false nofun fun ⟨_, h, _⟩ => nomatch h
  | some files =>
    refine mapM_pairs.trans ⟨fun h => ⟨files, rfl, h⟩, fun ⟨files', h, hl⟩ => ?_⟩
    obtain rfl := Option.some.inj h
    exact hl

/-- The file of a stem is found under this stem. -/
theorem keyNameOf_fileOf {s : Name} (hs : s ≠ []) :
    t.keyNameOf (fileOf s) = some (String.ofList s) := by
  have hextension : (t.store.child (fileOf s)).extension = some KEYSTORE_FILE_EXTENSION :=
    Path.extension_append hs (by decide) (by decide)
  have hstem : (t.store.child (fileOf s)).fileStem = some s := by
    unfold Path.fileStem
    rw [Path.fileName_child]
    exact Path.stem_append hs (by decide) (by decide)
  unfold keyNameOf
  dsimp only
  rw [if_pos hextension, hstem]
  rfl

/-- The file of a name lies in the folder when the name is a file name, under its stem. -/
theorem location_iff {name : String} (hne : name ≠ "") (hslash : '/' ∉ name.toList)
    {d loc : Location} (hd : fs.resolve t.store = some d) (hdir : fs.node d = some .dir)
    (hloc : fs.resolve (t.keyFile name) = some loc) (hnode : fs.node loc ≠ some .dir)
    (file : Name) :
    loc = d ++ [file] ↔ Path.IsFileName name.toList ∧
      ∃ s, Path.stem name.toList = some s ∧ file = fileOf s := by
  rcases name_cases hne hslash with hname | hdots
  · obtain ⟨s, hs, -, -⟩ := Path.stem_cases hname.1 hname.2.2.2
    rw [t.keyFile_child hname hs, FileSystem.resolve_child hd hdir] at hloc
    obtain rfl := Option.some.inj hloc
    constructor
    · intro heq
      exact ⟨hname, s, hs, (List.cons.inj (List.append_cancel_left heq)).1.symm⟩
    · rintro ⟨-, s', hs', rfl⟩
      obtain rfl := Option.some.inj (hs.symm.trans hs')
      rfl
  · rcases hdots with hdot | hdots
    · exact iff_of_false (t.keyFile_dot hdot hd hdir hloc hnode file) fun h => h.1.2.2.1 hdot
    · exact iff_of_false (t.keyFile_dots hdots hd hdir hloc file) fun h => h.1.2.2.2 hdots

/-! ## The two directions -/

variable (hempty : fs.readDir t.store = some [])
  (hnames : ∀ a ∈ adds, a.keyName ≠ "" ∧ '/' ∉ a.keyName.toList)
include hempty hnames

/-- The files in the folder are those of the keys. -/
theorem Written.mem_folder (h : Written format t fs adds fs') {files : List Name}
    (hfiles : fs'.readDir t.store = some files) (file : Name) :
    file ∈ files ↔ ∃ a ∈ adds, Path.IsFileName a.keyName.toList ∧
      ∃ s, Path.stem a.keyName.toList = some s ∧ file = fileOf s := by
  obtain ⟨d, hd, hdir⟩ := FileSystem.readDir_eq_some hempty
  have hfree : d ++ [file] ∉ fs.nodes.keys := fun hmem =>
    List.not_mem_nil ((FileSystem.mem_readDir hd hdir hempty).mpr hmem)
  rw [FileSystem.mem_readDir ((h.resolve _).trans hd) ((h.dir d).mpr hdir) hfiles, h.mem_keys,
    or_iff_right hfree]
  refine exists_congr fun a => and_congr_right fun ha => ?_
  obtain ⟨hne, hslash⟩ := hnames a ha
  obtain ⟨loc, hloc, hnode⟩ := h.created a ha
  rw [hloc, Option.some.injEq]
  exact location_iff hne hslash hd hdir hloc hnode file

/-- Names that are found are their own stems. -/
theorem Written.ownStem (h : Written format t fs adds fs')
    (hmap : MapLike format ⟨.test t, fs'⟩ adds) : ∀ a ∈ adds, OwnStem a.keyName := by
  obtain ⟨-, l, hkeys, hperm⟩ := hmap
  obtain ⟨files, hfiles, hfst, -⟩ := allKeys_eq_ok.mp hkeys
  have hfound : (adds.map Addition.keyName).Perm (files.filterMap t.keyNameOf) := by
    rw [← hfst]
    have hpairs := hperm.map Prod.fst
    rw [List.map_map] at hpairs
    exact hpairs.symm
  let stemOf (name : Name) : Name := (Path.stem name).getD name
  have hstemOf : ∀ {m s : Name}, Path.stem m = some s → stemOf m = s := by
    intro m s hs
    show (Path.stem m).getD m = s
    rw [hs]
    rfl
  have hcover : ∀ n ∈ adds.map fun a => a.keyName.toList,
      ∃ m ∈ adds.map fun a => a.keyName.toList, Path.IsFileName m ∧ stemOf m = n := by
    intro n hn
    obtain ⟨a, ha, rfl⟩ := List.mem_map.mp hn
    obtain ⟨file, hfile, hname⟩ :=
      List.mem_filterMap.mp (hfound.subset (List.mem_map_of_mem ha))
    obtain ⟨b, hb, hbname, s, hs, rfl⟩ := (h.mem_folder hempty hnames hfiles file).mp hfile
    obtain ⟨s', hs', hne, -⟩ := Path.stem_cases hbname.1 hbname.2.2.2
    obtain rfl := Option.some.inj (hs.symm.trans hs')
    rw [keyNameOf_fileOf hne] at hname
    refine ⟨_, List.mem_map.mpr ⟨b, hb, rfl⟩, hbname, ?_⟩
    rw [hstemOf hs, ← Option.some.inj hname, String.toList_ofList]
  have hsize : ∀ m ∈ adds.map fun a => a.keyName.toList, Path.IsFileName m →
      stemOf m = m ∨ (stemOf m).length < m.length := by
    intro m _ hm
    obtain ⟨s, hs, -, ⟨-, heq⟩ | ⟨-, hless⟩⟩ := Path.stem_cases hm.1 hm.2.2.2
    · exact .inl ((hstemOf hs).trans heq)
    · exact .inr (by rw [hstemOf hs]; exact hless)
  intro a ha
  obtain ⟨hne, hslash⟩ := hnames a ha
  obtain ⟨hname, hfix⟩ := fixed_of_covered hcover hsize _ (List.mem_map.mpr ⟨a, ha, rfl⟩)
  obtain ⟨s, hs, -⟩ := Path.stem_cases hname.1 hname.2.2.2
  rw [hstemOf hs] at hfix
  rw [hfix] at hs
  exact (ownStem_iff hne hslash).mpr ⟨hname, hs⟩

/-- Names that are their own stems lie in files of their own, and lead to their entries. -/
theorem Written.getKey_own (h : Written format t fs adds fs')
    (hnodup : (adds.map Addition.keyName).Nodup) (hown : ∀ a ∈ adds, OwnStem a.keyName) :
    (adds.map fun a => fileOf a.keyName.toList).Nodup ∧
      ∀ a ∈ adds, t.getKey format fs' a.keyName = .ok a.keyEntry := by
  obtain ⟨d, hd, hdir⟩ := FileSystem.readDir_eq_some hempty
  have hfileNames : (adds.map fun a => fileOf a.keyName.toList).Nodup := by
    have hinj : Function.Injective fun name : String => fileOf name.toList :=
      fun name name' heq => String.toList_inj.mp (List.append_cancel_right heq)
    have hmapped := hnodup.map hinj
    rw [List.map_map] at hmapped
    exact hmapped
  have hlocs : (adds.map fun a => fs.resolve (t.keyFile a.keyName)).Nodup := by
    have hmapped := hfileNames.map (f := fun file => some (d ++ [file])) fun file file' heq =>
      (List.cons.inj (List.append_cancel_left (Option.some.inj heq))).1
    rw [List.map_map] at hmapped
    rw [List.map_congr_left fun a ha => by
      obtain ⟨hname, hstem⟩ := (ownStem_iff (hnames a ha).1 (hnames a ha).2).mp (hown a ha)
      rw [t.keyFile_child hname hstem, FileSystem.resolve_child hd hdir]]
    exact hmapped
  exact ⟨hfileNames, fun a ha => (t.getKey_eq_ok format).mpr (h.stored hlocs a ha)⟩

/-- The names that are found are the names added. -/
theorem Written.found (h : Written format t fs adds fs')
    (hfileNames : (adds.map fun a => fileOf a.keyName.toList).Nodup)
    (hown : ∀ a ∈ adds, OwnStem a.keyName) {files : List Name}
    (hfiles : fs'.readDir t.store = some files) :
    (files.filterMap t.keyNameOf).Perm (adds.map Addition.keyName) := by
  have hstem : ∀ a ∈ adds, Path.IsFileName a.keyName.toList ∧
      Path.stem a.keyName.toList = some a.keyName.toList :=
    fun a ha => (ownStem_iff (hnames a ha).1 (hnames a ha).2).mp (hown a ha)
  have hperm : files.Perm (adds.map fun a => fileOf a.keyName.toList) := by
    refine (List.perm_ext_iff_of_nodup (FileSystem.readDir_nodup hfiles) hfileNames).mpr
      fun file => ?_
    rw [h.mem_folder hempty hnames hfiles, List.mem_map]
    refine exists_congr fun a => and_congr_right fun ha => ?_
    constructor
    · rintro ⟨-, s, hs, rfl⟩
      rw [Option.some.inj ((hstem a ha).2.symm.trans hs)]
    · rintro rfl
      exact ⟨(hstem a ha).1, _, (hstem a ha).2, rfl⟩
  refine (hperm.filterMap t.keyNameOf).trans (.of_eq ?_)
  rw [List.filterMap_map, ← List.filterMap_eq_map]
  refine List.filterMap_congr fun a ha => ?_
  show t.keyNameOf (fileOf a.keyName.toList) = some a.keyName
  rw [keyNameOf_fileOf (hstem a ha).1.1, String.ofList_toList]

theorem Written.mapLike (h : Written format t fs adds fs')
    (hnodup : (adds.map Addition.keyName).Nodup) (hown : ∀ a ∈ adds, OwnStem a.keyName) :
    MapLike format ⟨.test t, fs'⟩ adds := by
  obtain ⟨d, hd, hdir⟩ := FileSystem.readDir_eq_some hempty
  obtain ⟨hfileNames, hkeys⟩ := h.getKey_own hempty hnames hnodup hown
  have hfiles := FileSystem.readDir_eq ((h.resolve t.store).trans hd) ((h.dir d).mpr hdir)
  have hfound := h.found hempty hnames hfileNames hown hfiles
  have hfirsts : (adds.map Addition.pair).map Prod.fst = adds.map Addition.keyName := by
    rw [List.map_map]
    rfl
  rw [← hfirsts] at hfound
  obtain ⟨l, hnamed, hl⟩ := perm_of_map_perm hfound
  refine ⟨hkeys, l, allKeys_eq_ok.mpr ⟨_, hfiles, hnamed, fun p hp => ?_⟩, hl⟩
  obtain ⟨a, ha, rfl⟩ := List.mem_map.mp (hl.subset hp)
  exact hkeys a ha

end Test

/-! ## The two stores -/

/-- **Headline.**  After keys were added to a new key ring under distinct names, the store is the
    map of these names iff the keys are in memory or every name is its own stem. -/
theorem store_mapLike_iff (format : KeyFormat Pub Prv) (s s' : KeyStore Pub Prv)
    (adds : List (Addition Pub Prv)) (hempty : IsNew s)
    (hnodup : (adds.map Addition.keyName).Nodup)
    (hnames : ∀ a ∈ adds, a.keyName ≠ "" ∧ '/' ∉ a.keyName.toList)
    (hadd : addAll format s adds = some s') :
    MapLike format s' adds ↔
      (∃ m, s.ring = .memory m) ∨ ∀ a ∈ adds, OwnStem a.keyName := by
  obtain ⟨ring, fs⟩ := s
  cases ring with
  | memory m => exact iff_of_true (memory_mapLike format rfl hempty hadd) (.inl ⟨m, rfl⟩)
  | test t =>
    obtain ⟨fs', rfl, hwritten⟩ := Test.written_of_addAll hadd
    rw [or_iff_right fun ⟨m, hm⟩ => nomatch hm]
    exact ⟨hwritten.ownStem hempty hnames, hwritten.mapLike hempty hnames hnodup⟩

theorem demoStore_isNew : IsNew demoStore := by
  show demoStore.fs.readDir ⟨[.rootDir, .normal ['k', 'e', 'y', 's']]⟩ = some []
  decide +kernel

/-- The keys 2 and 3 under two names. -/
def twoKeys (name name' : String) : List (Addition Bytes Bytes) :=
  [⟨name, demoEntry [2], .none⟩, ⟨name', demoEntry [3], .none⟩]

theorem addAll_twoKeys (name name' : String)
    (h : (addAll demoFormat demoStore (twoKeys name name')).isSome = true) :
    ∃ s', addAll demoFormat demoStore (twoKeys name name') = some s' :=
  Option.isSome_iff_exists.mp h

/-- Two names without dots on disk. -/
theorem store_mapLike_two :
    ∃ s', addAll demoFormat demoStore (twoKeys "worker" "relayer") = some s' ∧
      MapLike demoFormat s' (twoKeys "worker" "relayer") := by
  obtain ⟨s', hadd⟩ := addAll_twoKeys "worker" "relayer" (by decide +kernel)
  refine ⟨s', hadd, (store_mapLike_iff demoFormat demoStore s' _ demoStore_isNew
    (by decide +kernel) (by decide +kernel) hadd).mpr (.inr ?_)⟩
  unfold OwnStem
  decide +kernel

/-- Two names with one stem share a file. -/
theorem dotted_names_collide :
    ¬ ∀ (format : KeyFormat Bytes Bytes) (s s' : KeyStore Bytes Bytes)
        (adds : List (Addition Bytes Bytes)),
      IsNew s → (adds.map Addition.keyName).Nodup →
      (∀ a ∈ adds, a.keyName ≠ "" ∧ '/' ∉ a.keyName.toList) →
      addAll format s adds = some s' → MapLike format s' adds := by
  intro h
  have hentry : (addAll demoFormat demoStore (twoKeys "a.b" "a.c")).map
      (fun s' => s'.getKey demoFormat "a.b") = some (.ok (demoEntry [3])) := by
    decide +kernel
  obtain ⟨s', hadd⟩ := addAll_twoKeys "a.b" "a.c" (by decide +kernel)
  have hmap := h demoFormat demoStore s' _ demoStore_isNew (by decide +kernel)
    (by decide +kernel) hadd
  have hfirst := hmap.1 ⟨"a.b", demoEntry [2], .none⟩ List.mem_cons_self
  rw [hadd] at hentry
  have hother := hfirst.symm.trans (Option.some.inj hentry)
  exact absurd hother (by decide)

end OffChainWorker.Keyring
