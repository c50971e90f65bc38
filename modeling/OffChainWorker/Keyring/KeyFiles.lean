/-
  Importing a key file: when it panics, and what an accepted file proves.

  The public key of the file comes out of one of two encodings with any number of bytes.  Before the
  leading ones are cut off, the code asserts that there are at least as many as the derived key has,
  so a shorter key is no mismatch but a panic.  A key that is compared at all is compared at its
  end.
-/
import OffChainWorker.Keyring.Identity

namespace OffChainWorker.Keyring

open Proc

variable {Pub Prv : Type} {crypto : Crypto Pub Prv} {bech32 : Bech32} {format : KeyFileFormat}

/-- When everything in the file can be decoded, its public key is not shorter than the derived
    one. -/
def LongEnough (crypto : Crypto Pub Prv) (bech32 : Bech32) (format : KeyFileFormat)
    (keyFile : KeyFile) (hdPath : HDPath) : Prop :=
  ∀ address encodedKey privateKey, bech32.decode keyFile.address = some address →
    encodedPubKeyFromStr bech32 format keyFile.pubkey = .ok encodedKey →
      privateKeyFromMnemonic crypto keyFile.mnemonic hdPath = .ok privateKey →
        (crypto.publicKeyBytes (crypto.fromPrivate privateKey)).length ≤
          encodedKey.intoBytes.length

/-! ## The calls before the assertion -/

theorem decodeBech32_ne_panic (input : String) : decodeBech32 bech32 input ≠ .panic := by
  unfold decodeBech32
  cases bech32.decode input with
  | none => nofun
  | some data => nofun

theorem decodeBech32_eq_ok {input : String} {data : Bytes} :
    decodeBech32 bech32 input = .ok data ↔ bech32.decode input = some data := by
  refine ⟨Outcome.okOr_eq_ok, fun h => ?_⟩
  unfold decodeBech32
  rw [h]
  rfl

/-- A JSON key, a Bech32 key, or neither: every text is answered. -/
theorem encodedPubKeyFromStr_ne_panic (s : String) :
    encodedPubKeyFromStr bech32 format s ≠ .panic := by
  unfold encodedPubKeyFromStr
  split
  · split
    · nofun
    · nofun
  · exact Outcome.bind_ne_panic.mpr
      ⟨decodeBech32_ne_panic s, fun data _ => Outcome.ok_ne_panic _⟩
  · nofun

theorem privateKeyFromMnemonic_ne_panic (mnemonicWords : String) (hdPath : HDPath) :
    privateKeyFromMnemonic crypto mnemonicWords hdPath ≠ .panic := by
  refine Outcome.okOr_bind_ne_panic.mpr fun seed _ => ?_
  cases crypto.derivePriv seed hdPath with
  | none => nofun
  | some privateKey => nofun

/-! ## The comparison -/

/-- `from_key_file` from the assertion on. -/
def compareKeys (crypto : Crypto Pub Prv) (account : String) (address keyfileKey : Bytes)
    (privateKey : Prv) : Outcome Kind (KeyEntry Pub Prv) :=
  let derivedPubkey := crypto.fromPrivate privateKey
  let derivedPubkeyBytes := crypto.publicKeyBytes derivedPubkey
  if keyfileKey.length < derivedPubkeyBytes.length then .panic
  else
    let cut := keyfileKey.drop (keyfileKey.length - derivedPubkeyBytes.length)
    if cut ≠ derivedPubkeyBytes then .err (.publicKeyMismatch cut derivedPubkeyBytes)
    else
      .ok { publicKey := derivedPubkey, privateKey := privateKey, account := account,
            address := address }

theorem fromKeyFile_eq (keyFile : KeyFile) (hdPath : HDPath) :
    fromKeyFile crypto bech32 format keyFile hdPath =
      decodeBech32 bech32 keyFile.address >>= fun address =>
        encodedPubKeyFromStr bech32 format keyFile.pubkey >>= fun encodedKey =>
          privateKeyFromMnemonic crypto keyFile.mnemonic hdPath >>= fun privateKey =>
            compareKeys crypto keyFile.address address encodedKey.intoBytes privateKey := rfl

theorem compareKeys_ne_panic_iff {account : String} {address keyfileKey : Bytes}
    {privateKey : Prv} :
    compareKeys crypto account address keyfileKey privateKey ≠ .panic ↔
      (crypto.publicKeyBytes (crypto.fromPrivate privateKey)).length ≤ keyfileKey.length := by
  unfold compareKeys
  dsimp only
  split
  · rename_i hshort
    exact iff_of_false (fun h => h rfl) (Nat.not_le.mpr hshort)
  · rename_i hlong
    refine iff_of_true ?_ (Nat.le_of_not_lt hlong)
    split
    · nofun
    · nofun

/-- Keys that agree: the derived one is the end of the other. -/
theorem compareKeys_ok {account : String} {address keyfileKey : Bytes} {privateKey : Prv}
    {e : KeyEntry Pub Prv} (h : compareKeys crypto account address keyfileKey privateKey = .ok e) :
    e.privateKey = privateKey ∧ e.publicKey = crypto.fromPrivate privateKey ∧
      crypto.publicKeyBytes e.publicKey <:+ keyfileKey := by
  unfold compareKeys at h
  dsimp only at h
  split at h
  · nomatch h
  · split at h
    · nomatch h
    · rename_i hequal
      obtain rfl := Outcome.ok.inj h
      refine ⟨rfl, rfl, ?_⟩
      have hcut := Decidable.not_not.mp hequal
      exact hcut ▸ List.drop_suffix _ keyfileKey

/-! ## The whole import -/

theorem fromKeyFile_ne_panic_iff {keyFile : KeyFile} {hdPath : HDPath} :
    fromKeyFile crypto bech32 format keyFile hdPath ≠ .panic ↔
      LongEnough crypto bech32 format keyFile hdPath := by
  rw [fromKeyFile_eq]
  constructor
  · intro h address encodedKey privateKey haddress hencoded hprivate
    have hrest := (Outcome.bind_ne_panic.mp h).2 address (decodeBech32_eq_ok.mpr haddress)
    have hrest := (Outcome.bind_ne_panic.mp hrest).2 encodedKey hencoded
    have hrest := (Outcome.bind_ne_panic.mp hrest).2 privateKey hprivate
    exact compareKeys_ne_panic_iff.mp hrest
  · intro h
    refine Outcome.bind_ne_panic.mpr ⟨decodeBech32_ne_panic _, fun address haddress => ?_⟩
    refine Outcome.bind_ne_panic.mpr ⟨encodedPubKeyFromStr_ne_panic _, fun key hencoded => ?_⟩
    refine Outcome.bind_ne_panic.mpr ⟨privateKeyFromMnemonic_ne_panic _ _, fun prv hprivate => ?_⟩
    have hlong := h address key prv (decodeBech32_eq_ok.mp haddress) hencoded hprivate
    exact compareKeys_ne_panic_iff.mpr hlong

theorem keyFromSeedFile_ne_panic_iff {content : String} {hdPath : HDPath} :
    keyFromSeedFile crypto bech32 format content hdPath ≠ .panic ↔
      ∀ keyFile, format.keyFile content = some keyFile →
        LongEnough crypto bech32 format keyFile hdPath := by
  refine Outcome.okOr_bind_ne_panic.trans ?_
  apply forall_congr'
  intro keyFile
  apply imp_congr_right
  intro _
  exact fromKeyFile_ne_panic_iff

theorem fromKeyFile_ok {keyFile : KeyFile} {hdPath : HDPath} {e : KeyEntry Pub Prv}
    (h : fromKeyFile crypto bech32 format keyFile hdPath = .ok e) :
    ∃ encodedKey, encodedPubKeyFromStr bech32 format keyFile.pubkey = .ok encodedKey ∧
      privateKeyFromMnemonic crypto keyFile.mnemonic hdPath = .ok e.privateKey ∧
      e.publicKey = crypto.fromPrivate e.privateKey ∧
      crypto.publicKeyBytes e.publicKey <:+ encodedKey.intoBytes := by
  rw [fromKeyFile_eq] at h
  obtain ⟨address, -, h⟩ := Outcome.bind_eq_ok h
  obtain ⟨encodedKey, hencoded, h⟩ := Outcome.bind_eq_ok h
  obtain ⟨privateKey, hprivate, h⟩ := Outcome.bind_eq_ok h
  obtain ⟨rfl, hpublic, hsuffix⟩ := compareKeys_ok h
  exact ⟨encodedKey, hencoded, hprivate, hpublic, hsuffix⟩

/-- **Headline.** Importing a key file returns a key or an error iff the public key in it is not
    shorter than the derived one, and an imported key ends the one in the file. -/
theorem keyFromSeedFile_iff (crypto : Crypto Pub Prv) (bech32 : Bech32) (format : KeyFileFormat)
    (content : String) (hdPath : HDPath) :
    (keyFromSeedFile crypto bech32 format content hdPath ≠ .panic ↔
      ∀ keyFile, format.keyFile content = some keyFile →
        LongEnough crypto bech32 format keyFile hdPath) ∧
    ∀ e, keyFromSeedFile crypto bech32 format content hdPath = .ok e →
      ∃ keyFile encodedKey, format.keyFile content = some keyFile ∧
        encodedPubKeyFromStr bech32 format keyFile.pubkey = .ok encodedKey ∧
        privateKeyFromMnemonic crypto keyFile.mnemonic hdPath = .ok e.privateKey ∧
        e.publicKey = crypto.fromPrivate e.privateKey ∧
        crypto.publicKeyBytes e.publicKey <:+ encodedKey.intoBytes := by
  refine ⟨keyFromSeedFile_ne_panic_iff, ?_⟩
  intro e h
  obtain ⟨keyFile, hfile, h⟩ := Outcome.bind_eq_ok h
  obtain ⟨encodedKey, himported⟩ := fromKeyFile_ok h
  exact ⟨keyFile, encodedKey, Outcome.okOr_eq_ok hfile, himported⟩

/-- The text of a key file whose public key has no bytes. -/
def emptyKeyFile : String :=
  "\x7b\"name\":\"worker\",\"type\":\"local\",\"address\":\"" ++ demoAccount ++
    "\",\"pubkey\":\"\x7b\\\"@type\\\":\\\"/cosmos.crypto.secp256k1.PubKey\\\"," ++
    "\\\"key\\\":\\\"\\\"\x7d\",\"mnemonic\":\"" ++ demoMnemonic ++ "\"\x7d"

/-- The public key in it, as JSON. -/
def emptyKeyJson : String := "\x7b\"@type\":\"/cosmos.crypto.secp256k1.PubKey\",\"key\":\"\"\x7d"

/-- These two texts are read. -/
def emptyKeyFiles : KeyFileFormat where
  keyFile content :=
    if content = emptyKeyFile then some ⟨demoAccount, emptyKeyJson, demoMnemonic⟩ else none
  protoAny text :=
    if text = emptyKeyJson then .ok ⟨"/cosmos.crypto.secp256k1.PubKey", []⟩ else .error .malformed

/-- Every derived public key has 33 bytes. -/
def compressedCrypto : Crypto Bytes Bytes :=
  { demoCrypto with fromPrivate := fun _ => demoPublicKey }

/-- The assertion fails on the empty key. -/
theorem empty_key_panics :
    ¬ ∀ (crypto : Crypto Bytes Bytes) (bech32 : Bech32) (format : KeyFileFormat) (content : String)
        (hdPath : HDPath),
      (∃ n, 0 < n ∧ ∀ key, (crypto.publicKeyBytes (crypto.fromPrivate key)).length = n) →
        keyFromSeedFile crypto bech32 format content hdPath ≠ .panic := by
  intro h
  have hrun : keyFromSeedFile compressedCrypto demoBech32 emptyKeyFiles emptyKeyFile demoPath =
      .panic := by
    decide +kernel
  exact h compressedCrypto demoBech32 emptyKeyFiles emptyKeyFile demoPath
    ⟨33, by decide, fun _ => rfl⟩ hrun

end OffChainWorker.Keyring
