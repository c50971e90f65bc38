/-
  What adding a key does to the keys that are stored already.

  In memory a name is taken once.  On disk `add_key` creates the file of the key without looking:
  `File::create` truncates a file that is there, and a write that fails leaves a part of the new
  text, which cannot be read.  So a stored key is lost exactly when a key is added under a name that
  resolves and the file can be created (`protects_iff`).  What a name resolves to is the entry that
  its file holds (`getKey_eq`), and adding a key changes the file of that key and no other.
-/
import OffChainWorker.Keyring
import OffChainWorker.Lib.Machine
import OffChainWorker.Lib.Protobuf

namespace OffChainWorker.Keyring

open Proc

variable {Pub Prv : Type} (format : KeyFormat Pub Prv)

/-- A call of `add_key`. -/
structure Addition (Pub Prv : Type) where
  keyName : String
  keyEntry : KeyEntry Pub Prv
  fault : Fault

/-- A key ring to which keys are added. -/
def machine (s₀ : KeyStore Pub Prv) : Machine (KeyStore Pub Prv) (Addition Pub Prv) where
  init s := s = s₀
  step s a := some (s.addKey format a.fault a.keyName a.keyEntry).2

/-- A name that resolves is refused, and a key that is refused changes no answer. -/
def Protects (s : KeyStore Pub Prv) (a : Addition Pub Prv) : Prop :=
  (∀ entry, s.getKey format a.keyName = .ok entry →
      ∃ kind, (s.addKey format a.fault a.keyName a.keyEntry).1 = .error kind) ∧
    ∀ kind, (s.addKey format a.fault a.keyName a.keyEntry).1 = .error kind →
      ∀ name, (s.addKey format a.fault a.keyName a.keyEntry).2.getKey format name =
        s.getKey format name

/-- The keys are in memory, or the file cannot be created, or the name does not resolve. -/
def Harmless (s : KeyStore Pub Prv) (a : Addition Pub Prv) : Prop :=
  match s.ring with
  | .memory _ => True
  | .test t => t.created s.fs a.fault a.keyName = none ∨
      ∀ entry, s.getKey format a.keyName ≠ .ok entry

/-! ## The entry in a file -/

namespace Test

variable (t : Test) {fs : FileSystem}

/-- The entry that the file of a key holds. -/
def stored (fs : FileSystem) (keyName : String) : Option (KeyEntry Pub Prv) :=
  (fs.read (t.keyFile keyName)).bind format.fromReader

theorem getKey_eq (fs : FileSystem) (keyName : String) :
    t.getKey format fs keyName = (t.stored format fs keyName).elim (.error .keyStore) .ok := by
  have hread : fs.exists? (t.keyFile keyName) = false → fs.read (t.keyFile keyName) = none := by
    intro hexists
    unfold FileSystem.exists? at hexists
    unfold FileSystem.read
    cases hnode : (fs.resolve (t.keyFile keyName)).bind fs.node with
    | none => rfl
    | some node =>
      rw [hnode] at hexists
      nomatch hexists
  unfold getKey stored
  cases hexists : fs.exists? (t.keyFile keyName) with
  | false =>
    rw [if_pos (show (!false) = true from rfl), hread hexists]
    rfl
  | true =>
    rw [if_neg (show ¬ (!true) = true by decide)]
    cases fs.read (t.keyFile keyName) with
    | none => rfl
    | some content =>
      rw [Option.bind_some]
      dsimp only
      cases format.fromReader content <;> rfl

theorem getKey_eq_ok {keyName : String} {entry : KeyEntry Pub Prv} :
    t.getKey format fs keyName = .ok entry ↔ t.stored format fs keyName = some entry := by
  rw [getKey_eq]
  cases t.stored format fs keyName with
  | none => exact iff_of_false nofun nofun
  | some e =>
    exact ⟨fun h => congrArg some (Except.ok.inj h),
      fun h => congrArg Except.ok (Option.some.inj h)⟩

/-- Where a key file is made, its path leads, and there is no directory. -/
theorem created_eq_some {fault : Fault} {keyName : String} {loc : Location}
    (h : t.created fs fault keyName = some loc) :
    fs.resolve (t.keyFile keyName) = some loc ∧ fs.node loc ≠ some .dir := by
  unfold created at h
  split at h
  · nomatch h
  · exact FileSystem.creates_eq_some.mp h

/-- **Frame.**  The names that lead to the file have its new entry, the others theirs. -/
theorem stored_write {loc : Location} (hloc : fs.node loc ≠ some .dir) (content : Bytes)
    (keyName : String) :
    t.stored format (fs.write loc content) keyName =
      if fs.resolve (t.keyFile keyName) = some loc then format.fromReader content
      else t.stored format fs keyName := by
  unfold stored
  rw [FileSystem.read_write hloc]
  split <;> rfl

/-- Two names of one file hold one entry. -/
theorem stored_congr {name name' : String} {loc : Location}
    (h : fs.resolve (t.keyFile name) = some loc) (h' : fs.resolve (t.keyFile name') = some loc) :
    t.stored format fs name = t.stored format fs name' := by
  unfold stored
  rw [FileSystem.read_eq h, FileSystem.read_eq h']

/-- **Step lemma.**  What `add_key` comes to on disk. -/
theorem addKey_cases (fs : FileSystem) (fault : Fault) (keyName : String)
    (keyEntry : KeyEntry Pub Prv) :
    (t.created fs fault keyName = none ∧
        t.addKey format fs fault keyName keyEntry = (.error .keyStore, fs)) ∨
      ∃ loc content, t.created fs fault keyName = some loc ∧
        ((format.fromReader content = none ∧
            t.addKey format fs fault keyName keyEntry = (.error .keyStore, fs.write loc content)) ∨
          (format.fromReader content = some keyEntry ∧
            t.addKey format fs fault keyName keyEntry = (.ok (), fs.write loc content))) := by
  unfold addKey
  cases hcreated : t.created fs fault keyName with
  | none => exact .inl ⟨rfl, rfl⟩
  | some loc =>
    refine .inr ⟨loc, fault.kept (format.toWriterPretty keyEntry), rfl, ?_⟩
    have hkept : ∃ n, fault.kept (format.toWriterPretty keyEntry) =
        (format.toWriterPretty keyEntry).take n := by
      cases fault with
      | none => exact ⟨_, (List.take_length).symm⟩
      | create => exact ⟨_, (List.take_length).symm⟩
      | write written => exact ⟨written, rfl⟩
    obtain ⟨n, hn⟩ := hkept
    dsimp only
    rw [hn, List.length_take]
    by_cases hcut : n < (format.toWriterPretty keyEntry).length
    · rw [if_pos (by omega)]
      exact .inl ⟨format.read_cut keyEntry n hcut, rfl⟩
    · rw [if_neg (by omega), List.take_of_length_le (by omega)]
      exact .inr ⟨format.read_written keyEntry, rfl⟩

end Test

/-! ## In memory -/

theorem Memory.addKey_error {m : Memory Pub Prv} {keyName : String}
    {keyEntry : KeyEntry Pub Prv} {kind : Kind} (h : (m.addKey keyName keyEntry).1 = .error kind) :
    (m.addKey keyName keyEntry).2 = m := by
  unfold Memory.addKey at h ⊢
  split
  · rfl
  · rename_i hmem
    rw [if_neg hmem] at h
    nomatch h

theorem Memory.getKey_eq_ok {m : Memory Pub Prv} {keyName : String} {entry : KeyEntry Pub Prv} :
    m.getKey keyName = .ok entry ↔ m.keys.lookup keyName = some entry := by
  unfold Memory.getKey
  cases m.keys.lookup keyName with
  | none => exact iff_of_false nofun nofun
  | some e =>
    exact ⟨fun h => congrArg some (Except.ok.inj h),
      fun h => congrArg Except.ok (Option.some.inj h)⟩

theorem Memory.addKey_taken {m : Memory Pub Prv} {keyName : String}
    {entry : KeyEntry Pub Prv} (h : m.getKey keyName = .ok entry) (keyEntry : KeyEntry Pub Prv) :
    (m.addKey keyName keyEntry).1 = .error .existingKey := by
  have hlookup := Memory.getKey_eq_ok.mp h
  have hmem : keyName ∈ m.keys := AList.lookup_isSome.mp (by rw [hlookup]; rfl)
  unfold Memory.addKey
  rw [if_pos hmem]

/-! ## One step -/

/-- **Step lemma.**  A key that is stored already is safe exactly from a harmless addition. -/
theorem protects_iff (s : KeyStore Pub Prv) (a : Addition Pub Prv) :
    Protects format s a ↔ Harmless format s a := by
  obtain ⟨ring, fs⟩ := s
  cases ring with
  | memory m =>
    refine iff_of_true ⟨fun entry hentry => ⟨.existingKey, Memory.addKey_taken hentry _⟩,
      fun kind hkind name => ?_⟩ trivial
    have hsame := Memory.addKey_error hkind
    show (m.addKey a.keyName a.keyEntry).2.getKey name = m.getKey name
    rw [hsame]
  | test t =>
    show ((∀ entry, t.getKey format fs a.keyName = .ok entry →
        ∃ kind, (t.addKey format fs a.fault a.keyName a.keyEntry).1 = .error kind) ∧
      ∀ kind, (t.addKey format fs a.fault a.keyName a.keyEntry).1 = .error kind →
        ∀ name, t.getKey format (t.addKey format fs a.fault a.keyName a.keyEntry).2 name =
          t.getKey format fs name) ↔
      (t.created fs a.fault a.keyName = none ∨ ∀ entry, t.getKey format fs a.keyName ≠ .ok entry)
    rcases t.addKey_cases format fs a.fault a.keyName a.keyEntry with
      ⟨hnone, hadd⟩ | ⟨loc, content, hsome, ⟨hread, hadd⟩ | ⟨hread, hadd⟩⟩
    · -- the file is not created
      rw [hadd]
      exact iff_of_true ⟨fun _ _ => ⟨_, rfl⟩, fun _ _ _ => rfl⟩ (.inl hnone)
    · -- a part of the text is written
      obtain ⟨hresolve, hnode⟩ := t.created_eq_some hsome
      rw [hadd, hsome]
      constructor
      · rintro ⟨-, hsame⟩
        refine .inr fun entry hentry => ?_
        have hafter := (hsame .keyStore rfl a.keyName).trans hentry
        rw [Test.getKey_eq_ok, Test.stored_write format t hnode, if_pos hresolve, hread] at hafter
        nomatch hafter
      · rintro (hnone | hfree)
        · nomatch hnone
        refine ⟨fun entry hentry => absurd hentry (hfree entry), fun _ _ name => ?_⟩
        have hbefore : t.stored format fs a.keyName = none := by
          cases hstored : t.stored format fs a.keyName with
          | none => rfl
          | some entry => exact absurd ((t.getKey_eq_ok format).mpr hstored) (hfree entry)
        have hstored : t.stored format (fs.write loc content) name =
            t.stored format fs name := by
          rw [Test.stored_write format t hnode]
          split
          · rename_i hname
            rw [hread, t.stored_congr format hname hresolve, hbefore]
          · rfl
        rw [Test.getKey_eq, Test.getKey_eq, hstored]
    · -- the text is written
      rw [hadd, hsome]
      constructor
      · rintro ⟨hrefused, -⟩
        refine .inr fun entry hentry => ?_
        obtain ⟨kind, hkind⟩ := hrefused entry hentry
        nomatch hkind
      · rintro (hnone | hfree)
        · nomatch hnone
        · exact ⟨fun entry hentry => absurd hentry (hfree entry), nofun⟩

/-- A harmless addition keeps every entry. -/
theorem getKey_addKey (s : KeyStore Pub Prv) (a : Addition Pub Prv) (hsafe : Harmless format s a)
    {name : String} {entry : KeyEntry Pub Prv} (hentry : s.getKey format name = .ok entry) :
    (s.addKey format a.fault a.keyName a.keyEntry).2.getKey format name = .ok entry := by
  obtain ⟨hrefused, hsame⟩ := (protects_iff format s a).mpr hsafe
  cases hadd : (s.addKey format a.fault a.keyName a.keyEntry).1 with
  | error kind => rw [hsame kind hadd, hentry]
  | ok u =>
    -- the name added was free, so `name` is another one
    have hfree : ∀ e, s.getKey format a.keyName ≠ .ok e := by
      intro e he
      obtain ⟨kind, hkind⟩ := hrefused e he
      rw [hadd] at hkind
      nomatch hkind
    obtain ⟨ring, fs⟩ := s
    cases ring with
    | memory m =>
      have hne : name ≠ a.keyName := by
        rintro rfl
        exact hfree entry hentry
      show (m.addKey a.keyName a.keyEntry).2.getKey name = .ok entry
      rw [Memory.getKey_eq_ok]
      have hlookup := Memory.getKey_eq_ok.mp hentry
      unfold Memory.addKey
      split
      · exact hlookup
      · exact (AList.lookup_insert_ne hne).trans hlookup
    | test t =>
      have hstored := (t.getKey_eq_ok format).mp hentry
      show t.getKey format (t.addKey format fs a.fault a.keyName a.keyEntry).2 name = .ok entry
      rcases t.addKey_cases format fs a.fault a.keyName a.keyEntry with
        ⟨-, heq⟩ | ⟨loc, content, hsome, ⟨-, heq⟩ | ⟨-, heq⟩⟩
      · rw [heq]
        exact hentry
      all_goals
        obtain ⟨hresolve, hnode⟩ := t.created_eq_some hsome
        rw [heq, Test.getKey_eq_ok, Test.stored_write format t hnode, if_neg]
        · exact hstored
        · intro hname
          rw [t.stored_congr format hname hresolve] at hstored
          exact hfree entry ((t.getKey_eq_ok format).mpr hstored)

/-! ## Runs -/

/-- **Headline.**  In every store that is reached, `add_key` protects the stored keys iff the
    addition is harmless, and in a run of harmless additions no key is ever lost. -/
theorem stored_keys_safe_iff (format : KeyFormat Pub Prv) (s₀ : KeyStore Pub Prv) :
    (∀ s, (machine format s₀).Reachable s → ∀ a, Protects format s a ↔ Harmless format s a) ∧
      ∀ s, (machine format s₀).ReachableIf (Harmless format) s →
        ∀ name entry, s₀.getKey format name = .ok entry → s.getKey format name = .ok entry := by
  refine ⟨fun s _ a => protects_iff format s a, fun s hs name entry hentry => ?_⟩
  induction hs with
  | init h =>
    obtain rfl := h
    exact hentry
  | step hs hsafe hstep ih =>
    obtain rfl := Option.some.inj hstep
    exact getKey_addKey format _ _ hsafe ih

/-! ## A folder to run -/

def entryFields (entry : KeyEntry Bytes Bytes) : List Protobuf.Field :=
  Protobuf.put 1 Protobuf.bytes entry.publicKey ++ Protobuf.put 2 Protobuf.bytes entry.privateKey ++
    Protobuf.put 3 Protobuf.string entry.account ++ Protobuf.put 4 Protobuf.bytes entry.address

def entryCodec : Codec (KeyEntry Bytes Bytes) where
  encode entry := Protobuf.emit (entryFields entry)
  decode data := do
    let fs ← Protobuf.parse data
    return {
      publicKey := ← Protobuf.pick 1 Protobuf.bytes fs
      privateKey := ← Protobuf.pick 2 Protobuf.bytes fs
      account := ← Protobuf.pick 3 Protobuf.string fs
      address := ← Protobuf.pick 4 Protobuf.bytes fs }
  decode_encode entry := by simp [entryFields, Protobuf.pick]

/-- Extended keys as bytes, and an entry as a text that ends by itself. -/
def demoFormat : KeyFormat Bytes Bytes where
  toWriterPretty entry := closed (entryCodec.encode entry)
  fromReader data := (readClosed data).bind entryCodec.decode
  read_written entry := by
    rw [readClosed_closed]
    exact entryCodec.decode_encode entry
  read_cut entry n h := by
    rw [readClosed_take _ h]
    rfl

/-- An empty folder for the keys. -/
def demoStore : KeyStore Bytes Bytes where
  ring := .test ⟨"cosmos", ⟨[.rootDir, .normal ['k', 'e', 'y', 's']]⟩⟩
  fs := { workingDir := [], nodes := AList.singleton [['k', 'e', 'y', 's']] .dir }

def demoEntry (publicKey : Bytes) : KeyEntry Bytes Bytes where
  publicKey := publicKey
  privateKey := [9]
  account := "cosmos1abc"
  address := [5]

/-- The second key of a name takes the place of the first one. -/
theorem stored_key_overwritten :
    ¬ ∀ (format : KeyFormat Bytes Bytes) (s₀ s : KeyStore Bytes Bytes),
      (machine format s₀).Reachable s → ∀ a, Protects format s a := by
  intro h
  let first : Addition Bytes Bytes := ⟨"worker", demoEntry [2], .none⟩
  let s := (demoStore.addKey demoFormat .none "worker" (demoEntry [2])).2
  have hreach : (machine demoFormat demoStore).Reachable s :=
    Machine.Reachable.step (l := first) (.init rfl) rfl
  have hentry : s.getKey demoFormat "worker" = .ok (demoEntry [2]) := by
    decide +kernel
  obtain ⟨kind, hkind⟩ :=
    (h demoFormat demoStore s hreach ⟨"worker", demoEntry [3], .none⟩).1 _ hentry
  have hadd : (s.addKey demoFormat .none "worker" (demoEntry [3])).1 = .ok () := by
    decide +kernel
  rw [hadd] at hkind
  nomatch hkind

end OffChainWorker.Keyring
