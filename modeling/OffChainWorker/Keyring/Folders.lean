/-
  The key rings of all chains under one home directory, over any number of restarts.

  `KeyRing::new` gives the ring of a chain a folder of its own: under the home directory
  `~/.keys/`, the id of the chain and `keyring-test`.  The `~` is no home to `Path::join` but a
  directory of that name, and an id may be `.` or `..`, which make other paths than a name does;
  still the folders of two chains are never one, and a file in one of them is in no other
  (`ringFile_inj`).  Making a folder makes nothing but directories.  So what the rings of all chains
  know is a table by chain and by stem of the name: opening a ring and starting again change nothing
  in it, and adding a key changes the place of this key.
-/
import OffChainWorker.Keyring.KeyNames
import OffChainWorker.Lib.Directories

namespace OffChainWorker.Keyring

open Proc

variable {Pub Prv : Type}

/-! ## Opening a ring -/

/-- `tendermint::chain::Id`: letters, digits, `-`, `_` and `.`, at least one; only what keeps it
    from being no name at all is stated. -/
structure ChainId where
  text : String
  ne_empty : text ≠ ""
  no_slash : '/' ∉ text.toList
deriving DecidableEq

/-- `"~/.keys/"`. -/
def KEYSTORE_DEFAULT_FOLDER : List Char := ['~', '/', '.', 'k', 'e', 'y', 's', '/']

/-- `"keyring-test"`. -/
def KEYSTORE_DISK_BACKEND : List Char :=
  ['k', 'e', 'y', 'r', 'i', 'n', 'g', '-', 't', 'e', 's', 't']

inductive Store where
  | memory
  | test
deriving Repr, DecidableEq

/-- `disk_store_path`, under the answer of `dirs_next::home_dir`. -/
def diskStorePath (homeDir : Option Path) (folderName : String) : Except Kind Path :=
  match homeDir with
  | none => .error .keyStore
  | some home =>
    .ok (((home.join (Path.parse KEYSTORE_DEFAULT_FOLDER)).join
      (Path.parse folderName.toList)).join (Path.parse KEYSTORE_DISK_BACKEND))

/-- `KeyRing::new`, with room for so many more directories. -/
def KeyRing.new (homeDir : Option Path) (room : Nat) (fs : FileSystem) (store : Store)
    (accountPrefix chainId : String) : Except Kind (KeyRing Pub Prv) × FileSystem :=
  match store with
  | .memory => (.ok (.memory ⟨accountPrefix, ∅⟩), fs)
  | .test =>
    match diskStorePath homeDir chainId with
    | .error _ => (.error .keyStore, fs)
    | .ok keysFolder =>
      let r := fs.createDirAll room keysFolder
      if r.ok then (.ok (.test ⟨accountPrefix, keysFolder⟩), r.fs) else (.error .keyStore, r.fs)

/-! ## The machine -/

/-- The rings that are open, each with its chain, and the file system. -/
structure Rings (Pub Prv : Type) where
  fs : FileSystem
  rings : List (ChainId × KeyRing Pub Prv)

inductive RingOp (Pub Prv : Type) where
  | new (room : Nat) (store : Store) (accountPrefix : String) (chainId : ChainId)
  /-- `add_key` of the ring with this number. -/
  | addKey (ring : Nat) (a : Addition Pub Prv)
  /-- The process ends, and another one starts. -/
  | restart

def Rings.step (homeDir : Option Path) (format : KeyFormat Pub Prv) (s : Rings Pub Prv) :
    RingOp Pub Prv → Option (Rings Pub Prv)
  | .new room store accountPrefix chainId =>
    match KeyRing.new homeDir room s.fs store accountPrefix chainId.text with
    | (.ok ring, fs) => some ⟨fs, s.rings ++ [(chainId, ring)]⟩
    | (.error _, fs) => some ⟨fs, s.rings⟩
  | .addKey ring a =>
    match s.rings[ring]? with
    | none => none
    | some (chainId, r) =>
      let after := ((⟨r, s.fs⟩ : KeyStore Pub Prv).addKey format a.fault a.keyName a.keyEntry).2
      some ⟨after.fs, s.rings.set ring (chainId, after.ring)⟩
  | .restart => some ⟨s.fs, []⟩

/-- A call of `add_key` on disk: the chain of its ring, and whether it returned `Ok`. -/
structure DiskAddition (Pub Prv : Type) where
  chainId : ChainId
  addition : Addition Pub Prv
  ok : Bool

/-- The calls of `add_key` on disk so far, and what the operation adds to them. -/
def noteAddition (format : KeyFormat Pub Prv) (log : List (DiskAddition Pub Prv))
    (s : Rings Pub Prv) : RingOp Pub Prv → List (DiskAddition Pub Prv)
  | .addKey ring a =>
    match s.rings[ring]? with
    | some (chainId, .test t) =>
      log ++ [⟨chainId, a, (t.addKey format s.fs a.fault a.keyName a.keyEntry).1.isOk⟩]
    | _ => log
  | _ => log

/-- All that processes do to the rings of one home directory, and the calls of `add_key`. -/
def ringMachine (homeDir : Option Path) (format : KeyFormat Pub Prv) (fs₀ : FileSystem) :
    Machine (Rings Pub Prv × List (DiskAddition Pub Prv)) (RingOp Pub Prv) :=
  Machine.recording ⟨fun s => s = ⟨fs₀, []⟩, Rings.step homeDir format⟩ [] (noteAddition format)

/-- Keys are added under file names. -/
def RingOp.Plain : RingOp Pub Prv → Prop
  | .addKey _ a => Path.IsFileName a.keyName.toList
  | _ => True

instance (op : RingOp Pub Prv) : Decidable op.Plain :=
  match op with
  | .addKey _ a =>
    inferInstanceAs (Decidable (a.keyName.toList ≠ [] ∧ '/' ∉ a.keyName.toList ∧
      a.keyName.toList ≠ ['.'] ∧ a.keyName.toList ≠ ['.', '.']))
  | .new .. => .isTrue trivial
  | .restart => .isTrue trivial

/-! ## The table -/

/-- What is known for each chain under each stem. -/
abbrev Table (α : Type) := ChainId → Name → Option α

/-- What one call of `add_key` can do to a table. -/
inductive Change (α : Type) where
  | nothing
  | put (chainId : ChainId) (stem : Name) (entry : Option α)

/-- The table after a change. -/
def Change.apply {α : Type} (T : Table α) : Change α → Table α
  | .nothing => T
  | .put chainId stem entry => fun id s => if id = chainId ∧ s = stem then entry else T id s

theorem Change.apply_put {α : Type} (T : Table α) (id id' : ChainId) (stem stem' : Name)
    (entry : Option α) :
    (Change.put id stem entry).apply T id' stem' =
      if id' = id ∧ stem' = stem then entry else T id' stem' :=
  rfl

/-- A call that returns `Ok` puts its entry under the stem of its name; one that fails leaves the
    table as it was, or nothing at that place. -/
inductive DiskAddition.Makes (c : DiskAddition Pub Prv) : Change (KeyEntry Pub Prv) → Prop where
  | stored {stem : Name} (hok : c.ok = true)
      (hstem : Path.stem c.addition.keyName.toList = some stem) :
      c.Makes (.put c.chainId stem (some c.addition.keyEntry))
  | refused (hok : c.ok = false) : c.Makes .nothing
  | lost {stem : Name} (hok : c.ok = false)
      (hstem : Path.stem c.addition.keyName.toList = some stem) :
      c.Makes (.put c.chainId stem none)

/-! ## The folder of a chain -/

/-- The components that the id of a chain adds to a path: a single dot adds none. -/
def ChainId.components (id : ChainId) : List Component :=
  (Path.parse id.text.toList).components.filter (· ≠ .curDir)

/-- The components of the folder of a chain, under the home directory. -/
def ringComponents (id : ChainId) : List Component :=
  [.normal ['~'], .normal ['.', 'k', 'e', 'y', 's']] ++ id.components ++
    [.normal KEYSTORE_DISK_BACKEND]

/-- Where the folder of a chain is. -/
def ringDir (h : Location) (id : ChainId) : Location :=
  (ringComponents id).foldl FileSystem.enter h

/-- Where the key file of a stem is. -/
def ringFile (h : Location) (id : ChainId) (stem : Name) : Location :=
  ringDir h id ++ [Test.fileOf stem]

theorem join_relative {p q : Path} (hp : p.components ≠ []) (hq : q.isAbsolute = false) :
    (p.join q).components = p.components ++ q.components.filter (· ≠ .curDir) := by
  unfold Path.join
  rw [if_neg (by rw [hq]; decide), if_neg hp]

/-- An id is a file name, or one or two dots. -/
theorem ChainId.parse_cases (id : ChainId) :
    (Path.IsFileName id.text.toList ∧
        Path.parse id.text.toList = ⟨[.normal id.text.toList]⟩) ∨
      (id.text.toList = ['.'] ∧ Path.parse id.text.toList = ⟨[.curDir]⟩) ∨
      (id.text.toList = ['.', '.'] ∧ Path.parse id.text.toList = ⟨[.parentDir]⟩) := by
  rcases name_cases id.ne_empty id.no_slash with hname | hdot | hdots
  · exact .inl ⟨hname, hname.parse⟩
  · refine .inr (.inl ⟨hdot, ?_⟩)
    rw [hdot]
    rfl
  · refine .inr (.inr ⟨hdots, ?_⟩)
    rw [hdots]
    rfl

theorem ChainId.isRelative (id : ChainId) :
    (Path.parse id.text.toList).isAbsolute = false := by
  rcases id.parse_cases with ⟨-, hparse⟩ | ⟨-, hparse⟩ | ⟨-, hparse⟩
  all_goals
    rw [hparse]
    rfl

theorem diskStorePath_components {home : Path} (hhome : home.components ≠ []) (id : ChainId) :
    ∃ path, diskStorePath (some home) id.text = .ok path ∧
      path.components = home.components ++ ringComponents id := by
  refine ⟨_, rfl, ?_⟩
  have hfolder := join_relative hhome
    (show (Path.parse KEYSTORE_DEFAULT_FOLDER).isAbsolute = false by decide)
  have hchain := join_relative
    (p := home.join (Path.parse KEYSTORE_DEFAULT_FOLDER)) (by
      rw [hfolder]
      exact fun hnil => hhome (List.append_eq_nil_iff.mp hnil).1) id.isRelative
  rw [join_relative (by
    rw [hchain, hfolder, List.append_assoc]
    exact fun hnil => hhome (List.append_eq_nil_iff.mp hnil).1)
    (show (Path.parse KEYSTORE_DISK_BACKEND).isAbsolute = false by decide), hchain, hfolder]
  show ((home.components ++ [.normal ['~'], .normal ['.', 'k', 'e', 'y', 's']]) ++ id.components) ++
    [.normal KEYSTORE_DISK_BACKEND] = _
  rw [ringComponents, List.append_assoc, List.append_assoc, List.append_assoc]

/-- How many directories lie between the home directory and the folder, and which. -/
theorem ringDir_cases (h : Location) (id : ChainId) :
    (Path.IsFileName id.text.toList ∧ ringDir h id =
        h ++ [['~'], ['.', 'k', 'e', 'y', 's'], id.text.toList, KEYSTORE_DISK_BACKEND]) ∨
      (id.text.toList = ['.'] ∧
        ringDir h id = h ++ [['~'], ['.', 'k', 'e', 'y', 's'], KEYSTORE_DISK_BACKEND]) ∨
      (id.text.toList = ['.', '.'] ∧ ringDir h id = h ++ [['~'], KEYSTORE_DISK_BACKEND]) := by
  unfold ringDir ringComponents ChainId.components
  rcases id.parse_cases with ⟨hname, hparse⟩ | ⟨hdot, hparse⟩ | ⟨hdots, hparse⟩
  · refine .inl ⟨hname, ?_⟩
    rw [hparse]
    simp [FileSystem.enter]
  · refine .inr (.inl ⟨hdot, ?_⟩)
    rw [hparse]
    simp [FileSystem.enter]
  · refine .inr (.inr ⟨hdots, ?_⟩)
    rw [hparse]
    simp [FileSystem.enter]

theorem ChainId.eq_of_toList {id id' : ChainId} (h : id.text.toList = id'.text.toList) :
    id = id' := by
  have htext := String.toList_inj.mp h
  cases id
  cases id'
  cases htext
  rfl

/-- **Frame.**  No file of a ring is a file of another chain or of another stem. -/
theorem ringFile_inj {h : Location} {id id' : ChainId} {s s' : Name}
    (heq : ringFile h id s = ringFile h id' s') : id = id' ∧ s = s' := by
  obtain ⟨hdir, hfile⟩ := List.append_inj' heq rfl
  have hstem : s = s' := List.append_cancel_right (List.cons.inj hfile).1
  refine ⟨ChainId.eq_of_toList ?_, hstem⟩
  have hlength := congrArg List.length hdir
  rcases ringDir_cases h id with ⟨-, hid⟩ | ⟨ht, hid⟩ | ⟨ht, hid⟩ <;>
    rcases ringDir_cases h id' with ⟨-, hid'⟩ | ⟨ht', hid'⟩ | ⟨ht', hid'⟩
  case inl.inl =>
    rw [hid, hid'] at hdir
    have hrest := List.append_cancel_left hdir
    exact (List.cons.inj (List.cons.inj (List.cons.inj hrest).2).2).1
  case inr.inl.inr.inl => rw [ht, ht']
  case inr.inr.inr.inr => rw [ht, ht']
  -- the folders of the others lie at different depths
  all_goals
    rw [hid, hid', List.length_append, List.length_append] at hlength
    exact absurd (Nat.add_left_cancel hlength) (by simp)

/-! ## The files that the rings read -/

/-- What is on disk for each chain under each stem. -/
def table (format : KeyFormat Pub Prv) (h : Location) (fs : FileSystem) :
    Table (KeyEntry Pub Prv) :=
  fun id stem => (fs.fileAt (ringFile h id stem)).bind format.fromReader

/-- The home directory is at `h`, and every ring on disk has its folder under it. -/
structure RingsInv (home : Path) (h : Location) (s : Rings Pub Prv) : Prop where
  resolved : s.fs.resolve home = some h
  dir : s.fs.node h = some .dir
  folder : ∀ id t, (id, .test t) ∈ s.rings →
    t.store.components = home.components ++ ringComponents id ∧ s.fs.isDir t.store = true

section
variable {home : Path} {h : Location} {s : Rings Pub Prv} {id : ChainId} {t : Test}

/-- The file of a name, by the chain and the stem. -/
theorem RingsInv.resolve (hi : RingsInv home h s) (hring : (id, .test t) ∈ s.rings)
    {name : String} {stem : Name} (hname : Path.IsFileName name.toList)
    (hstem : Path.stem name.toList = some stem) :
    s.fs.resolve (t.keyFile name) = some (ringFile h id stem) := by
  obtain ⟨hcomponents, hfolder⟩ := hi.folder id t hring
  obtain ⟨d, hd, hdir⟩ := FileSystem.isDir_iff.mp hfolder
  have hat : d = ringDir h id := FileSystem.resolve_append hcomponents hi.resolved hd
  rw [t.keyFile_child hname hstem, FileSystem.resolve_child hd hdir, hat]
  rfl

theorem RingsInv.stored (hi : RingsInv home h s) (hring : (id, .test t) ∈ s.rings)
    (format : KeyFormat Pub Prv) {name : String} {stem : Name}
    (hname : Path.IsFileName name.toList) (hstem : Path.stem name.toList = some stem) :
    t.stored format s.fs name = table format h s.fs id stem := by
  unfold Test.stored table
  rw [FileSystem.read_eq_fileAt (hi.resolve hring hname hstem)]

/-- Making directories and opening a ring whose folder is there keep the invariant. -/
theorem RingsInv.grow (hi : RingsInv home h s) {fs : FileSystem}
    (hgrows : FileSystem.Grows s.fs fs) {rings : List (ChainId × KeyRing Pub Prv)}
    (hrings : ∀ id t, (id, .test t) ∈ rings → (id, .test t) ∈ s.rings ∨
      t.store.components = home.components ++ ringComponents id ∧ fs.isDir t.store = true) :
    RingsInv home h ⟨fs, rings⟩ where
  resolved := hgrows.resolve hi.resolved
  dir := hgrows.dir hi.dir
  folder := by
    intro id t hmem
    rcases hrings id t hmem with hold | hnew
    · obtain ⟨hcomponents, hfolder⟩ := hi.folder id t hold
      exact ⟨hcomponents, hgrows.isDir hfolder⟩
    · exact hnew

/-- Writing a file keeps it. -/
theorem RingsInv.write (hi : RingsInv home h s) {loc : Location}
    (hloc : s.fs.node loc ≠ some .dir) (content : Bytes) :
    RingsInv home h ⟨s.fs.write loc content, s.rings⟩ where
  resolved := (FileSystem.resolve_write hloc content home).trans hi.resolved
  dir := (FileSystem.dir_write hloc content h).mpr hi.dir
  folder := by
    intro id t hmem
    obtain ⟨hcomponents, hfolder⟩ := hi.folder id t hmem
    exact ⟨hcomponents, (FileSystem.isDir_write hloc content t.store).trans hfolder⟩

end

/-- The table does not see directories. -/
theorem table_grows (format : KeyFormat Pub Prv) (h : Location) {fs fs' : FileSystem}
    (hgrows : FileSystem.Grows fs fs') : table format h fs' = table format h fs := by
  funext id stem
  unfold table
  rw [hgrows.fileAt]

/-- A file that is written is the place of its chain and its stem. -/
theorem table_write (format : KeyFormat Pub Prv) (h : Location) {fs : FileSystem} (id : ChainId)
    (stem : Name) (hnode : fs.node (ringFile h id stem) ≠ some .dir) (content : Bytes) :
    table format h (fs.write (ringFile h id stem) content) =
      (Change.put id stem (format.fromReader content)).apply (table format h fs) := by
  funext id' stem'
  rw [Change.apply_put]
  unfold table
  rw [FileSystem.fileAt_write hnode]
  by_cases heq : id' = id ∧ stem' = stem
  · obtain ⟨rfl, rfl⟩ := heq
    rw [if_pos rfl, if_pos ⟨rfl, rfl⟩]
    rfl
  · rw [if_neg heq, if_neg fun hfile => heq (ringFile_inj hfile)]

/-! ## One operation -/

variable {format : KeyFormat Pub Prv} {home : Path} {h : Location}

/-- What `KeyRing::new` does: directories, and a ring whose folder is there. -/
theorem new_spec (hhome : home.components ≠ []) (room : Nat) (fs : FileSystem) (store : Store)
    (accountPrefix : String) (id : ChainId) {r : Except Kind (KeyRing Pub Prv) × FileSystem}
    (hr : KeyRing.new (some home) room fs store accountPrefix id.text = r) :
    FileSystem.Grows fs r.2 ∧ ∀ t, r.1 = .ok (.test t) →
      t.store.components = home.components ++ ringComponents id ∧ r.2.isDir t.store = true := by
  subst hr
  cases store with
  | memory => exact ⟨.refl fs, fun t ht => nomatch ht⟩
  | test =>
    obtain ⟨path, hpath, hcomponents⟩ := diskStorePath_components hhome id
    unfold KeyRing.new
    rw [hpath]
    dsimp only
    have hne : path.components ≠ [] := by
      rw [hcomponents]
      exact fun hnil => hhome (List.append_eq_nil_iff.mp hnil).1
    have hgrows := FileSystem.createDirAll_grows fs room path
    by_cases hok : (fs.createDirAll room path).ok = true
    · rw [if_pos hok]
      refine ⟨hgrows, fun t ht => ?_⟩
      obtain rfl : Test.mk accountPrefix path = t := KeyRing.test.inj (Except.ok.inj ht)
      exact ⟨hcomponents, FileSystem.createDirAll_isDir hne hok⟩
    · rw [if_neg hok]
      exact ⟨hgrows, fun t ht => nomatch ht⟩

/-- Adding a key on disk makes one change, at the place of the chain and the stem. -/
theorem addKey_change (format : KeyFormat Pub Prv) {s : Rings Pub Prv} {id : ChainId} {t : Test}
    (hi : RingsInv home h s) (hring : (id, .test t) ∈ s.rings) (a : Addition Pub Prv)
    (hname : Path.IsFileName a.keyName.toList) :
    RingsInv home h ⟨(t.addKey format s.fs a.fault a.keyName a.keyEntry).2, s.rings⟩ ∧
      ∃ change, DiskAddition.Makes
          ⟨id, a, (t.addKey format s.fs a.fault a.keyName a.keyEntry).1.isOk⟩ change ∧
        table format h (t.addKey format s.fs a.fault a.keyName a.keyEntry).2 =
          change.apply (table format h s.fs) := by
  rcases t.addKey_cases format s.fs a.fault a.keyName a.keyEntry with
    ⟨-, hadd⟩ | ⟨loc, content, hsome, hends⟩
  · rw [hadd]
    exact ⟨hi, .nothing, .refused rfl, rfl⟩
  · obtain ⟨hloc, hnode⟩ := t.created_eq_some hsome
    obtain ⟨stem, hstem, -⟩ := Path.stem_cases hname.1 hname.2.2.2
    obtain rfl : ringFile h id stem = loc :=
      Option.some.inj ((hi.resolve hring hname hstem).symm.trans hloc)
    have htable := table_write format h id stem hnode content
    rcases hends with ⟨hread, hadd⟩ | ⟨hread, hadd⟩
    all_goals
      rw [hread] at htable
      rw [hadd]
    · exact ⟨hi.write hnode content, _, .lost rfl hstem, htable⟩
    · exact ⟨hi.write hnode content, _, .stored rfl hstem, htable⟩

/-- **Step lemma.**  An operation keeps the invariant, and the table with it, unless a key is added
    on disk; then the call is noted and its change is made. -/
theorem rings_step {s u : Rings Pub Prv} {op : RingOp Pub Prv} (hi : RingsInv home h s)
    (hplain : op.Plain) (hstep : s.step (some home) format op = some u)
    (log : List (DiskAddition Pub Prv)) :
    RingsInv home h u ∧
      ((noteAddition format log s op = log ∧ table format h u.fs = table format h s.fs) ∨
        ∃ call change, noteAddition format log s op = log ++ [call] ∧ call.Makes change ∧
          table format h u.fs = change.apply (table format h s.fs)) := by
  have hhome : home.components ≠ [] := FileSystem.components_ne_nil hi.resolved
  cases op with
  | restart =>
    obtain rfl := Option.some.inj hstep
    exact ⟨hi.grow (.refl _) nofun, .inl ⟨rfl, rfl⟩⟩
  | new room store accountPrefix id =>
    rw [Rings.step] at hstep
    cases hnew : KeyRing.new (some home) room s.fs store accountPrefix id.text with
    | mk res fs =>
      obtain ⟨hgrows, hring⟩ := new_spec hhome room s.fs store accountPrefix id hnew
      rw [hnew] at hstep
      cases res with
      | error kind =>
        obtain rfl := Option.some.inj hstep
        exact ⟨hi.grow hgrows fun id t hmem => .inl hmem, .inl ⟨rfl, table_grows format h hgrows⟩⟩
      | ok ring =>
        obtain rfl := Option.some.inj hstep
        refine ⟨hi.grow hgrows fun id' t hmem => ?_, .inl ⟨rfl, table_grows format h hgrows⟩⟩
        rcases List.mem_append.mp hmem with hold | hlast
        · exact .inl hold
        · obtain ⟨rfl, rfl⟩ := Prod.mk.inj (List.mem_singleton.mp hlast)
          exact .inr (hring t rfl)
  | addKey ring a =>
    rw [Rings.step] at hstep
    cases hget : s.rings[ring]? with
    | none =>
      rw [hget] at hstep
      nomatch hstep
    | some pair =>
      obtain ⟨id, r⟩ := pair
      rw [hget] at hstep
      obtain rfl := Option.some.inj hstep
      have hmem : (id, r) ∈ s.rings := List.mem_of_getElem? hget
      cases r with
      | memory m =>
        have hnote : noteAddition format log s (.addKey ring a) = log := by
          rw [noteAddition, hget]
        refine ⟨hi.grow (.refl _) fun id' t hmem' => .inl ?_, .inl ⟨hnote, rfl⟩⟩
        rcases List.mem_or_eq_of_mem_set hmem' with hold | hset
        · exact hold
        · nomatch hset
      | test t =>
        have hnote : noteAddition format log s (.addKey ring a) = log ++
            [⟨id, a, (t.addKey format s.fs a.fault a.keyName a.keyEntry).1.isOk⟩] := by
          rw [noteAddition, hget]
        have hset : s.rings.set ring (id, .test t) = s.rings := by
          obtain ⟨hlt, hring⟩ := List.getElem?_eq_some_iff.mp hget
          rw [← hring]
          exact List.set_getElem_self hlt
        obtain ⟨hinv, change, hmakes, htable⟩ := addKey_change format hi hmem a hplain
        rw [← hset] at hinv
        exact ⟨hinv, .inr ⟨_, change, hnote, hmakes, htable⟩⟩

/-! ## Runs -/

/-- The table is the first one with a change for each call of `add_key`. -/
def Accounted (format : KeyFormat Pub Prv) (h : Location) (fs₀ : FileSystem)
    (s : Rings Pub Prv) (log : List (DiskAddition Pub Prv)) : Prop :=
  ∃ changes, List.Forall₂ DiskAddition.Makes log changes ∧
    table format h s.fs = changes.foldl Change.apply (table format h fs₀)

/-- The run lemma. -/
theorem rings_reachable {fs₀ : FileSystem} (hhome : fs₀.resolve home = some h)
    (hdir : fs₀.node h = some .dir) {p : Rings Pub Prv × List (DiskAddition Pub Prv)}
    (hp : (ringMachine (some home) format fs₀).ReachableIf (fun _ op => op.Plain) p) :
    RingsInv home h p.1 ∧ Accounted format h fs₀ p.1 p.2 := by
  unfold ringMachine at hp
  refine Machine.recording_invariant (C := fun _ => RingOp.Plain) (J := fun _ => True)
    (I := fun s log => RingsInv home h s ∧ Accounted format h fs₀ s log)
    (fun _ _ => trivial) (fun s hs => ?_) (fun s log op u _ hi hplain hstep => ?_) hp
  · obtain rfl : s = ⟨fs₀, []⟩ := hs
    exact ⟨⟨hhome, hdir, nofun⟩, [], .nil, rfl⟩
  · obtain ⟨hinv, changes, hmakes, htable⟩ := hi
    obtain ⟨hinv', ⟨hnote, hsame⟩ | ⟨call, change, hnote, hmake, hchange⟩⟩ :=
      rings_step hinv hplain hstep log
    · rw [hnote]
      exact ⟨hinv', changes, hmakes, hsame.trans htable⟩
    · rw [hnote]
      refine ⟨hinv', changes ++ [change], List.rel_append hmakes (.cons hmake .nil), ?_⟩
      rw [hchange, htable, List.foldl_append]
      rfl

/-- **Headline.**  Whatever the processes under one home directory do, opening rings, adding keys
    under file names and starting again: the rings of all chains answer from one table by chain and
    stem, and this table is the one at the start with one change for each call of `add_key`, at the
    place of its own chain and stem.  So no chain sees the keys of another one, all rings of a chain
    see the same keys, also after a restart, and opening a ring changes no answer. -/
theorem rings_share_table (format : KeyFormat Pub Prv) {home : Path} {h : Location}
    {fs₀ : FileSystem} (hhome : fs₀.resolve home = some h) (hdir : fs₀.node h = some .dir)
    {p : Rings Pub Prv × List (DiskAddition Pub Prv)}
    (hp : (ringMachine (some home) format fs₀).ReachableIf (fun _ op => op.Plain) p) :
    (∃ changes, List.Forall₂ DiskAddition.Makes p.2 changes ∧
        table format h p.1.fs = changes.foldl Change.apply (table format h fs₀)) ∧
      ∀ id t, (id, .test t) ∈ p.1.rings → ∀ (name : String) (stem : Name),
        Path.IsFileName name.toList → Path.stem name.toList = some stem →
          t.getKey format p.1.fs name =
            (table format h p.1.fs id stem).elim (.error .keyStore) .ok := by
  obtain ⟨hinv, haccounted⟩ := rings_reachable hhome hdir hp
  refine ⟨haccounted, fun id t hring name stem hname hstem => ?_⟩
  rw [Test.getKey_eq, hinv.stored hring format hname hstem]

def gaia : ChainId := ⟨"gaia", by decide, by decide⟩

/-- Two rings of two chains take one name each, the second one fails partway; then the process
    starts again and opens the first ring. -/
def twoRings : List (RingOp Bytes Bytes) :=
  [.new 9 .test "cosmos" gaia, .new 9 .test "band" ⟨"..", by decide, by decide⟩,
    .addKey 0 ⟨"worker", demoEntry [2], .none⟩, .addKey 1 ⟨"worker", demoEntry [3], .write 1⟩,
    .restart, .new 0 .test "cosmos" gaia]

/-- The home directory, and nothing in it. -/
def demoHome : FileSystem := { workingDir := [], nodes := AList.singleton [['r']] .dir }

theorem rings_share_table_restart :
    ∃ p, (ringMachine (some ⟨[.rootDir, .normal ['r']]⟩) demoFormat demoHome).execIf
        (fun _ op => op.Plain) (⟨demoHome, []⟩, []) twoRings = some p ∧
      p.1.rings.length = 1 ∧
      ∃ changes, List.Forall₂ DiskAddition.Makes p.2 changes ∧
        table demoFormat [['r']] p.1.fs =
          changes.foldl Change.apply (table demoFormat [['r']] demoHome) := by
  have hlength : ((ringMachine (some ⟨[.rootDir, .normal ['r']]⟩) demoFormat demoHome).execIf
      (fun _ op => op.Plain) (⟨demoHome, []⟩, []) twoRings).map (fun p => p.1.rings.length) =
        some 1 := by
    decide +kernel
  obtain ⟨p, hp, hone⟩ := Option.map_eq_some_iff.mp hlength
  have hinit : (ringMachine (some ⟨[.rootDir, .normal ['r']]⟩) demoFormat demoHome).init
      (⟨demoHome, []⟩, []) := ⟨rfl, rfl⟩
  have hreach := Machine.execIf_reachableIf (.init hinit) hp
  exact ⟨p, hp, hone, (rings_share_table demoFormat (by decide) (by decide) hreach).1⟩

end OffChainWorker.Keyring
