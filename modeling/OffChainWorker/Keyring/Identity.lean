/-
  Whether an imported key stands for one account.

  `key_from_mnemonic` computes the address and the account of the key it derives.  For a key file
  only the public key is compared with the derived one: the address and the account are what the
  file says.  So the two ways of importing agree on the keys, and on the rest exactly when the
  address in the file is the account of its mnemonic (`identity_iff`).  Only such an entry is one
  account to the chain, which signs with the private key, asks the node about the account of the
  entry, and answers `get_signer` by its address.
-/
import OffChainWorker.Chain.Signer
import OffChainWorker.Keyring.StoredKeys

namespace OffChainWorker.Keyring

open Proc

variable {Pub Prv : Type} (crypto : Crypto Pub Prv) (bech32 : Bech32)

/-! ## One account -/

/-- The public key, the address and the account of an entry are those of its private key. -/
structure OneAccount (accountPrefix : String) (e : KeyEntry Pub Prv) : Prop where
  publicKey : e.publicKey = crypto.fromPrivate e.privateKey
  address : e.address = getAddress crypto e.publicKey
  account : bech32.encode accountPrefix e.address = some e.account

/-- The account of a mnemonic and a path. -/
def accountOf (accountPrefix mnemonicWords : String) (hdPath : HDPath) : Option String := do
  let seed ← crypto.seed mnemonicWords
  let privateKey ← crypto.derivePriv seed hdPath
  bech32.encode accountPrefix (getAddress crypto (crypto.fromPrivate privateKey))

/-! ## The chain with this key ring -/

/-- The entry, its keys as bytes. -/
def KeyEntry.toChain (e : KeyEntry Pub Prv) : Cosmos.KeyEntry where
  publicKey := crypto.publicKeyBytes e.publicKey
  privateKey := crypto.privateKeyBytes e.privateKey
  account := e.account
  address := e.address

/-- `get_key`, for the chain. -/
def KeyStore.keybase (format : KeyFormat Pub Prv) (s : KeyStore Pub Prv) : Cosmos.KeyRing where
  getKey keyName :=
    match s.getKey format keyName with
    | .ok e => some (e.toChain crypto)
    | .error _ => none

variable (accountId : Cosmos.AccountId) (format : KeyFormat Pub Prv)

/-- The chain acts for the account of `e`: `get_signer` answers it, a transaction asks the node
    about no other, and the key of `e` is the one that is named and signs. -/
structure ActsFor {N : Type} (env : Cosmos.Env N) (e : KeyEntry Pub Prv) : Prop where
  getSigner : Cosmos.getSigner accountId bech32 env = .ok e.account
  queried : ∀ protoMsgs s, ∀ c ∈ Cosmos.txCalls env protoMsgs s,
    c.address = none ∨ c.address = some e.account
  named : ∀ sequence info, Cosmos.signer env sequence = .ok info →
    info.publicKey = some ⟨"/cosmos.crypto.secp256k1.PubKey",
      env.prost.bytes (crypto.publicKeyBytes e.publicKey)⟩
  signed : ∀ msg, Cosmos.signMsg env env.config.keyName msg =
    env.sign (crypto.privateKeyBytes e.privateKey) msg

/-- Stored under the configured name of a chain with this account prefix, `e` is the account that
    the chain acts for. -/
def SpeaksFor (accountPrefix : String) (e : KeyEntry Pub Prv) : Prop :=
  ∀ (N : Type) (env : Cosmos.Env N) (s : KeyStore Pub Prv),
    env.config.accountPrefix = accountPrefix → env.keybase = s.keybase crypto format →
      s.getKey format env.config.keyName = .ok e → ActsFor crypto bech32 accountId env e

/-! ## What is imported -/

section
variable {crypto bech32}

theorem privateKeyFromMnemonic_eq_ok {mnemonicWords : String} {hdPath : HDPath}
    {privateKey : Prv} : privateKeyFromMnemonic crypto mnemonicWords hdPath = .ok privateKey ↔
      ∃ seed, crypto.seed mnemonicWords = some seed ∧
        crypto.derivePriv seed hdPath = some privateKey := by
  constructor
  · intro h
    obtain ⟨seed, hseed, hkey⟩ := Outcome.bind_eq_ok h
    exact ⟨seed, Outcome.okOr_eq_ok hseed, Outcome.okOr_eq_ok hkey⟩
  · rintro ⟨seed, hseed, hkey⟩
    unfold privateKeyFromMnemonic
    rw [hseed]
    show Outcome.okOr _ (crypto.derivePriv seed hdPath) = _
    rw [hkey]
    rfl

theorem accountOf_eq_some {accountPrefix mnemonicWords account : String} {hdPath : HDPath} :
    accountOf crypto bech32 accountPrefix mnemonicWords hdPath = some account ↔
      ∃ privateKey, privateKeyFromMnemonic crypto mnemonicWords hdPath = .ok privateKey ∧
        bech32.encode accountPrefix (getAddress crypto (crypto.fromPrivate privateKey)) =
          some account := by
  unfold accountOf
  constructor
  · intro h
    obtain ⟨seed, hseed, h⟩ := Option.bind_eq_some_iff.mp h
    obtain ⟨privateKey, hkey, h⟩ := Option.bind_eq_some_iff.mp h
    exact ⟨privateKey, privateKeyFromMnemonic_eq_ok.mpr ⟨seed, hseed, hkey⟩, h⟩
  · rintro ⟨privateKey, hkey, h⟩
    obtain ⟨seed, hseed, hkey⟩ := privateKeyFromMnemonic_eq_ok.mp hkey
    exact Option.bind_eq_some_iff.mpr
      ⟨seed, hseed, Option.bind_eq_some_iff.mpr ⟨privateKey, hkey, h⟩⟩

/-- The entry of `key_from_mnemonic`. -/
theorem keyFromMnemonic_eq_ok {ring : KeyRing Pub Prv} {mnemonicWords : String}
    {hdPath : HDPath} {e : KeyEntry Pub Prv} :
    keyFromMnemonic crypto bech32 ring mnemonicWords hdPath = .ok e ↔
      privateKeyFromMnemonic crypto mnemonicWords hdPath = .ok e.privateKey ∧
        OneAccount crypto bech32 ring.accountPrefix e := by
  constructor
  · intro h
    obtain ⟨privateKey, hkey, h⟩ := Outcome.bind_eq_ok h
    obtain ⟨account, haccount, h⟩ := Outcome.bind_eq_ok h
    obtain rfl := Outcome.ok.inj h
    exact ⟨hkey, rfl, rfl, Outcome.okOr_eq_ok haccount⟩
  · rintro ⟨hkey, hone⟩
    obtain ⟨publicKey, privateKey, account, address⟩ := e
    obtain rfl : publicKey = crypto.fromPrivate privateKey := hone.publicKey
    obtain rfl : address = getAddress crypto (crypto.fromPrivate privateKey) := hone.address
    have haccount := hone.account
    unfold keyFromMnemonic
    rw [hkey]
    show (Outcome.okOr _ (bech32.encode _ _) >>= _) = _
    rw [haccount]
    rfl

/-- The entry of `key_from_seed_file`: the keys are derived, address and account are read. -/
theorem keyFromSeedFile_ok {format : KeyFileFormat} {content : String} {hdPath : HDPath}
    {e : KeyEntry Pub Prv} (h : keyFromSeedFile crypto bech32 format content hdPath = .ok e) :
    ∃ keyFile, format.keyFile content = some keyFile ∧
      privateKeyFromMnemonic crypto keyFile.mnemonic hdPath = .ok e.privateKey ∧
        e.publicKey = crypto.fromPrivate e.privateKey ∧
          bech32.decode keyFile.address = some e.address ∧ e.account = keyFile.address := by
  obtain ⟨keyFile, hfile, h⟩ := Outcome.bind_eq_ok h
  obtain ⟨address, haddress, h⟩ := Outcome.bind_eq_ok h
  obtain ⟨encodedKey, -, h⟩ := Outcome.bind_eq_ok h
  obtain ⟨privateKey, hkey, h⟩ := Outcome.bind_eq_ok h
  refine ⟨keyFile, Outcome.okOr_eq_ok hfile, ?_⟩
  dsimp only at h
  split at h
  · nomatch h
  · split at h
    · nomatch h
    · obtain rfl := Outcome.ok.inj h
      exact ⟨hkey, rfl, Outcome.okOr_eq_ok haddress, rfl⟩

/-- What the mnemonic of an accepted file yields is the entry of the file if its address is the
    account of the mnemonic, and only then. -/
theorem keyFromMnemonic_eq_ok_iff {ring : KeyRing Pub Prv} {mnemonicWords : String}
    {hdPath : HDPath} {e : KeyEntry Pub Prv}
    (hkey : privateKeyFromMnemonic crypto mnemonicWords hdPath = .ok e.privateKey)
    (hpublic : e.publicKey = crypto.fromPrivate e.privateKey)
    (haddress : bech32.decode e.account = some e.address) :
    keyFromMnemonic crypto bech32 ring mnemonicWords hdPath = .ok e ↔
      accountOf crypto bech32 ring.accountPrefix mnemonicWords hdPath = some e.account := by
  rw [keyFromMnemonic_eq_ok, accountOf_eq_some]
  constructor
  · rintro ⟨-, hone⟩
    refine ⟨e.privateKey, hkey, ?_⟩
    rw [← hone.publicKey, ← hone.address]
    exact hone.account
  · rintro ⟨privateKey, hkey', haccount⟩
    obtain rfl : privateKey = e.privateKey := Outcome.ok.inj (hkey'.symm.trans hkey)
    rw [← hpublic] at haccount
    have hsame : e.address = getAddress crypto e.publicKey :=
      Option.some.inj (haddress.symm.trans (bech32.decode_encode haccount))
    refine ⟨hkey, hpublic, hsame, ?_⟩
    rw [hsame]
    exact haccount

end

/-! ## What the chain makes of it -/

theorem getAddress_length (pk : Pub) : (getAddress crypto pk).length = 20 :=
  crypto.ripemd160_length _

theorem keybase_getKey {format : KeyFormat Pub Prv} {s : KeyStore Pub Prv} {keyName : String}
    {e : KeyEntry Pub Prv} (h : s.getKey format keyName = .ok e) :
    (s.keybase crypto format).getKey keyName = some (e.toChain crypto) := by
  unfold KeyStore.keybase
  dsimp only
  rw [h]

theorem OneAccount.speaksFor {crypto : Crypto Pub Prv} {bech32 : Bech32} {accountPrefix : String}
    {e : KeyEntry Pub Prv} (hone : OneAccount crypto bech32 accountPrefix e) :
    SpeaksFor crypto bech32 accountId format accountPrefix e := by
  intro N env s hprefix hring hget
  have hkey : env.keybase.getKey env.config.keyName = some (e.toChain crypto) := by
    rw [hring]
    exact keybase_getKey crypto hget
  have hlength : (e.toChain crypto).address.length = 20 := by
    show e.address.length = 20
    rw [hone.address]
    exact getAddress_length crypto _
  refine ⟨?_, fun protoMsgs s => Cosmos.txCalls_address hkey protoMsgs s, ?_, fun msg => ?_⟩
  · rw [Cosmos.getSigner_eq accountId bech32 hkey hlength, hprefix]
    show Outcome.okOr _ (bech32.encode accountPrefix e.address) = _
    rw [hone.account]
    rfl
  · intro sequence info hinfo
    obtain ⟨key, hkey', hinfo⟩ := Outcome.bind_eq_ok hinfo
    obtain rfl := Outcome.ok.inj (hkey'.symm.trans (Cosmos.key_eq hkey))
    obtain rfl := Outcome.ok.inj hinfo
    rfl
  · unfold Cosmos.signMsg
    rw [hkey]
    rfl

/-- **Headline.**  An entry from a mnemonic is one account, and the chain acts for it.  An entry
    from a key file is the one of its mnemonic, and so one account, if and only if the address in
    the file is the account of the mnemonic. -/
theorem identity_iff (keyFiles : KeyFileFormat) (ring : KeyRing Pub Prv) :
    (∀ mnemonicWords hdPath e,
      keyFromMnemonic crypto bech32 ring mnemonicWords hdPath = .ok e →
        OneAccount crypto bech32 ring.accountPrefix e ∧
          SpeaksFor crypto bech32 accountId format ring.accountPrefix e) ∧
      ∀ content hdPath e, keyFromSeedFile crypto bech32 keyFiles content hdPath = .ok e →
        ∃ keyFile, keyFiles.keyFile content = some keyFile ∧
          ((keyFromMnemonic crypto bech32 ring keyFile.mnemonic hdPath = .ok e ∧
              OneAccount crypto bech32 ring.accountPrefix e ∧
                SpeaksFor crypto bech32 accountId format ring.accountPrefix e) ↔
            accountOf crypto bech32 ring.accountPrefix keyFile.mnemonic hdPath =
              some keyFile.address) := by
  have hone : ∀ {mnemonicWords hdPath e},
      keyFromMnemonic crypto bech32 ring mnemonicWords hdPath = .ok e →
        OneAccount crypto bech32 ring.accountPrefix e ∧
          SpeaksFor crypto bech32 accountId format ring.accountPrefix e := by
    intro mnemonicWords hdPath e h
    obtain ⟨-, hone⟩ := keyFromMnemonic_eq_ok.mp h
    exact ⟨hone, hone.speaksFor accountId format⟩
  refine ⟨fun _ _ _ => hone, fun content hdPath e h => ?_⟩
  obtain ⟨keyFile, hfile, hkey, hpublic, haddress, haccount⟩ := keyFromSeedFile_ok h
  rw [← haccount] at haddress
  refine ⟨keyFile, hfile, ?_⟩
  rw [← haccount, ← keyFromMnemonic_eq_ok_iff hkey hpublic haddress]
  exact ⟨fun h => h.1, fun h => ⟨h, hone h⟩⟩

/-! ## A mnemonic to import -/

/-- The first test mnemonic of BIP39, at `m/44'/118'/0'/0/0`. -/
def demoMnemonic : String :=
  "abandon abandon abandon abandon abandon abandon abandon abandon abandon abandon abandon about"

def demoPath : HDPath := ⟨44, 118, 0, 0, 0⟩

def demoSeed : Bytes :=
  [94, 176, 11, 189, 220, 240, 105, 8, 72, 137, 168, 171, 145, 85, 86, 129, 101, 245, 196, 83,
   204, 184, 94, 112, 129, 26, 174, 214, 246, 218, 95, 193, 154, 90, 196, 11, 56, 156, 211,
   112, 208, 134, 32, 109, 236, 138, 166, 196, 61, 174, 166, 105, 15, 32, 173, 61, 141, 72,
   178, 210, 206, 158, 56, 228]

def demoPrivateKey : Bytes :=
  [196, 164, 142, 47, 206, 20, 129, 205, 50, 148, 180, 73, 15, 102, 120, 9, 14, 169, 141, 61,
   14, 92, 217, 132, 85, 138, 176, 150, 135, 65, 177, 4]

def demoPublicKey : Bytes :=
  [2, 79, 78, 42, 217, 156, 52, 214, 11, 155, 166, 40, 60, 148, 49, 168, 65, 138, 248, 103,
   50, 18, 150, 31, 151, 167, 123, 99, 119, 252, 208, 91, 98]

def demoPublicKeyHash : Bytes :=
  [73, 22, 150, 14, 158, 213, 68, 10, 133, 253, 104, 140, 31, 88, 86, 244, 220, 66, 151, 197,
   201, 36, 112, 63, 30, 11, 224, 80, 77, 170, 160, 135]

def demoAddress : Bytes :=
  [40, 255, 92, 109, 87, 216, 207, 212, 146, 182, 251, 66, 97, 69, 54, 237, 100, 142, 1, 253]

def demoAccount : String := "cosmos19rl4cm2hmr8afy4kldpxz3fka4jguq0auqdal4"

/-- The same address under another human-readable part. -/
def foreignAccount : String := "osmo19rl4cm2hmr8afy4kldpxz3fka4jguq0a5m7df8"

def demoBech32PublicKey : String :=
  "cosmospub1addwnpepqf85u2kens6dvzum5c5re9p34pqc47r8xgffv8uh5aakxalu6pdky2qr0sc"

/-- The functions at these inputs, and nothing elsewhere. -/
def demoCrypto : Crypto Bytes Bytes where
  seed words := if words = demoMnemonic then some demoSeed else none
  derivePriv seed hdPath :=
    if seed = demoSeed ∧ hdPath = demoPath then some demoPrivateKey else none
  fromPrivate key := if key = demoPrivateKey then demoPublicKey else []
  publicKeyBytes key := key
  privateKeyBytes key := key
  sha256 data := if data = demoPublicKey then demoPublicKeyHash else []
  ripemd160 data := if data = demoPublicKeyHash then demoAddress else List.replicate 20 0
  ripemd160_length data := by split <;> rfl

def demoBech32 : Bech32 where
  encode hrp data :=
    if data = demoAddress then
      if hrp = "cosmos" then some demoAccount
      else if hrp = "osmo" then some foreignAccount
      else none
    else none
  decode text :=
    if text = demoAccount ∨ text = foreignAccount then some demoAddress
    -- the amino bytes of a key stand in front of it
    else if text = demoBech32PublicKey then some ([235, 90, 233, 135, 33] ++ demoPublicKey)
    else none
  decode_encode := by
    intro hrp data text h
    split at h
    · rename_i hdata
      subst hdata
      split at h
      · obtain rfl := Option.some.inj h
        exact if_pos (.inl rfl)
      · split at h
        · obtain rfl := Option.some.inj h
          exact if_pos (.inr rfl)
        · nomatch h
    · nomatch h

/-- The text of a key file. -/
def demoFile (address : String) : String :=
  "\x7b\"name\":\"worker\",\"type\":\"local\",\"address\":\"" ++ address ++
    "\",\"pubkey\":\"" ++ demoBech32PublicKey ++ "\",\"mnemonic\":\"" ++ demoMnemonic ++ "\"\x7d"

/-- The two texts are read; a public key in Bech32 is no JSON. -/
def demoKeyFiles : KeyFileFormat where
  keyFile content :=
    if content = demoFile demoAccount then
      some ⟨demoAccount, demoBech32PublicKey, demoMnemonic⟩
    else if content = demoFile foreignAccount then
      some ⟨foreignAccount, demoBech32PublicKey, demoMnemonic⟩
    else none
  protoAny _ := .error .malformed

def demoImported (account : String) : KeyEntry Bytes Bytes where
  publicKey := demoPublicKey
  privateKey := demoPrivateKey
  account := account
  address := demoAddress

def demoRing : KeyRing Bytes Bytes := .memory ⟨"cosmos", ∅⟩

def demoAccountId : Cosmos.AccountId where
  fromStr text := (Hex.decode text).filter fun data => data.length = 20
  fromStr_hex := by
    intro data hlength
    rw [Hex.decode_encode]
    exact if_pos (decide_eq_true hlength)

/-- The address in the file is the account of the mnemonic. -/
theorem identity_iff_worker :
    keyFromMnemonic demoCrypto demoBech32 demoRing demoMnemonic demoPath =
        .ok (demoImported demoAccount) ∧
      OneAccount demoCrypto demoBech32 "cosmos" (demoImported demoAccount) ∧
        SpeaksFor demoCrypto demoBech32 demoAccountId demoFormat "cosmos"
          (demoImported demoAccount) := by
  have haccepted : keyFromSeedFile demoCrypto demoBech32 demoKeyFiles (demoFile demoAccount)
      demoPath = .ok (demoImported demoAccount) := by
    decide +kernel
  obtain ⟨keyFile, hfile, h⟩ := (identity_iff demoCrypto demoBech32 demoAccountId demoFormat
    demoKeyFiles demoRing).2 _ _ _ haccepted
  have hread : demoKeyFiles.keyFile (demoFile demoAccount) =
      some ⟨demoAccount, demoBech32PublicKey, demoMnemonic⟩ := by
    decide +kernel
  obtain rfl := Option.some.inj (hread.symm.trans hfile)
  exact h.mpr (by decide +kernel)

/-- A file is accepted with an address under another human-readable part. -/
theorem foreign_account_imported :
    ¬ ∀ (ring : KeyRing Bytes Bytes) (content : String) (hdPath : HDPath)
      (e : KeyEntry Bytes Bytes),
      keyFromSeedFile demoCrypto demoBech32 demoKeyFiles content hdPath = .ok e →
        ∀ keyFile, demoKeyFiles.keyFile content = some keyFile →
          keyFromMnemonic demoCrypto demoBech32 ring keyFile.mnemonic hdPath = .ok e := by
  intro h
  have haccepted : keyFromSeedFile demoCrypto demoBech32 demoKeyFiles (demoFile foreignAccount)
      demoPath = .ok (demoImported foreignAccount) := by
    decide +kernel
  have hmnemonic : keyFromMnemonic demoCrypto demoBech32 demoRing demoMnemonic demoPath =
      .ok (demoImported demoAccount) := by
    decide +kernel
  have hforeign := h demoRing (demoFile foreignAccount) demoPath _ haccepted
    ⟨foreignAccount, demoBech32PublicKey, demoMnemonic⟩ (by decide +kernel)
  have hsame := Outcome.ok.inj (hmnemonic.symm.trans hforeign)
  exact absurd (congrArg KeyEntry.account hsame) (by decide +kernel)

end OffChainWorker.Keyring
