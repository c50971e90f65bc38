/-
  The key ring (`src/keyring.rs`, `src/keyring/errors.rs`, `src/keyring/pub_key.rs`).

  Keys are imported from a mnemonic or from a key file, and kept under names in one of two stores:
  in memory, or as one JSON file a key in a folder.  The extended keys are of arbitrary types; what
  BIP32, BIP39, the hashes, Bech32 and JSON do to them is third-party and enters as `Crypto`,
  `Bech32`, `KeyFileFormat` and `KeyFormat`.
-/
import OffChainWorker.Lib.FileSystem
import OffChainWorker.Lib.Outcome
import OffChainWorker.Prost

namespace OffChainWorker.Keyring

open Proc

/-- `errors::Kind`, the variants that the key ring raises. -/
inductive Kind where
  | invalidKey
  | keyNotFound
  | existingKey
  | invalidMnemonic
  /-- Cannot generate private key. -/
  | privateKey
  /-- Cannot deserialize the encoded public key. -/
  | encodedPublicKey (key error : String)
  | bech32Account
  | publicKeyMismatch (keyfile mnemonic : Bytes)
  | keyStore
deriving Repr, DecidableEq

def KEYSTORE_FILE_EXTENSION : Name := ['j', 's', 'o', 'n']

/-- `StandardHDPath`. -/
structure HDPath where
  purpose : UInt32
  coinType : UInt32
  account : UInt32
  change : UInt32
  index : UInt32
deriving Repr, DecidableEq

/-- `KeyEntry`; the extended keys are of types `Pub` and `Prv`. -/
structure KeyEntry (Pub Prv : Type) where
  publicKey : Pub
  privateKey : Prv
  /-- Account in Bech32 format. -/
  account : String
  address : Bytes
deriving Repr, DecidableEq

/-- `KeyFile`, the fields that are read. -/
structure KeyFile where
  address : String
  pubkey : String
  mnemonic : String
deriving Repr, DecidableEq

/-- `ProtoAny`, the key decoded from base64. -/
structure ProtoAny where
  tpe : String
  key : Bytes
deriving Repr, DecidableEq

/-- `EncodedPubKey`. -/
inductive EncodedPubKey where
  | bech32 (vec : Bytes)
  | proto (any : ProtoAny)
deriving Repr, DecidableEq

/-- `into_bytes`. -/
def EncodedPubKey.intoBytes : EncodedPubKey → Bytes
  | .bech32 vec => vec
  | .proto any => any.key

/-! ## Third-party code -/

/-- `serde_json::Error`, by its category: not JSON at all, or anything else with its text. -/
inductive JsonError where
  | malformed
  | other (text : String)
deriving Repr, DecidableEq

/-- Bech32, of bytes. -/
structure Bech32 where
  /-- The text under a human-readable part: none when that part is not valid. -/
  encode : String → Bytes → Option String
  decode : String → Option Bytes
  decode_encode : ∀ {hrp data text}, encode hrp data = some text → decode text = some data

/-- Mnemonics, derived keys and hashes. -/
structure Crypto (Pub Prv : Type) where
  /-- `Mnemonic::from_phrase`, and the seed it makes without a password. -/
  seed : String → Option Bytes
  /-- `new_master` and `derive_priv`. -/
  derivePriv : Bytes → HDPath → Option Prv
  fromPrivate : Prv → Pub
  publicKeyBytes : Pub → Bytes
  privateKeyBytes : Prv → Bytes
  sha256 : Bytes → Bytes
  ripemd160 : Bytes → Bytes
  ripemd160_length : ∀ data, (ripemd160 data).length = 20

/-- The JSON of a key file. -/
structure KeyFileFormat where
  keyFile : String → Option KeyFile
  protoAny : String → Except JsonError ProtoAny

/-- The JSON of a key entry: it is read back, and cut off before its end it cannot be read. -/
structure KeyFormat (Pub Prv : Type) where
  toWriterPretty : KeyEntry Pub Prv → Bytes
  fromReader : Bytes → Option (KeyEntry Pub Prv)
  read_written : ∀ entry, fromReader (toWriterPretty entry) = some entry
  read_cut : ∀ entry n, n < (toWriterPretty entry).length →
    fromReader ((toWriterPretty entry).take n) = none

/-! ## Importing keys -/

variable {Pub Prv : Type}

section
variable (crypto : Crypto Pub Prv) (bech32 : Bech32) (format : KeyFileFormat)

/-- `decode_bech32`. -/
def decodeBech32 (input : String) : Outcome Kind Bytes :=
  Outcome.okOr .bech32Account (bech32.decode input)

/-- `private_key_from_mnemonic`. -/
def privateKeyFromMnemonic (mnemonicWords : String) (hdPath : HDPath) : Outcome Kind Prv := do
  let seed ← Outcome.okOr .invalidMnemonic (crypto.seed mnemonicWords)
  Outcome.okOr .privateKey (crypto.derivePriv seed hdPath)

/-- `get_address`. -/
def getAddress (pk : Pub) : Bytes := crypto.ripemd160 (crypto.sha256 (crypto.publicKeyBytes pk))

/-- `EncodedPubKey::from_str`. -/
def encodedPubKeyFromStr (s : String) : Outcome Kind EncodedPubKey :=
  match format.protoAny s with
  | .ok proto =>
    if proto.tpe ≠ "/cosmos.crypto.secp256k1.PubKey" then
      .err (.encodedPublicKey s "only secp256k1 pub keys are currently supported")
    else .ok (.proto proto)
  | .error .malformed => do
    -- the old format
    let bytes ← decodeBech32 bech32 s
    return .bech32 bytes
  | .error (.other text) => .err (.encodedPublicKey s text)

/-- `KeyEntry::from_key_file`. -/
def fromKeyFile (keyFile : KeyFile) (hdPath : HDPath) : Outcome Kind (KeyEntry Pub Prv) := do
  let keyfileAddressBytes ← decodeBech32 bech32 keyFile.address
  let encodedKey ← encodedPubKeyFromStr bech32 format keyFile.pubkey
  let keyfilePubkeyBytes := encodedKey.intoBytes
  let privateKey ← privateKeyFromMnemonic crypto keyFile.mnemonic hdPath
  let derivedPubkey := crypto.fromPrivate privateKey
  let derivedPubkeyBytes := crypto.publicKeyBytes derivedPubkey
  -- `assert!`
  if keyfilePubkeyBytes.length < derivedPubkeyBytes.length then Outcome.panic
  else
    let keyfilePubkeyBytes :=
      keyfilePubkeyBytes.drop (keyfilePubkeyBytes.length - derivedPubkeyBytes.length)
    if keyfilePubkeyBytes ≠ derivedPubkeyBytes then
      .err (.publicKeyMismatch keyfilePubkeyBytes derivedPubkeyBytes)
    else
      return {
        publicKey := derivedPubkey
        privateKey := privateKey
        account := keyFile.address
        address := keyfileAddressBytes }

end

/-! ## The stores -/

/-- `Memory`. -/
structure Memory (Pub Prv : Type) where
  accountPrefix : String
  keys : AList fun _ : String => KeyEntry Pub Prv

namespace Memory

def getKey (m : Memory Pub Prv) (keyName : String) : Except Kind (KeyEntry Pub Prv) :=
  match m.keys.lookup keyName with
  | some keyEntry => .ok keyEntry
  | none => .error .keyNotFound

def addKey (m : Memory Pub Prv) (keyName : String) (keyEntry : KeyEntry Pub Prv) :
    Except Kind Unit × Memory Pub Prv :=
  if keyName ∈ m.keys then (.error .existingKey, m)
  else (.ok (), { m with keys := m.keys.insert keyName keyEntry })

/-- `keys`, in some order. -/
def allKeys (m : Memory Pub Prv) : Except Kind (List (String × KeyEntry Pub Prv)) :=
  .ok (m.keys.entries.map fun e => (e.1, e.2))

end Memory

/-- `Test`. -/
structure Test where
  accountPrefix : String
  store : Path
deriving Repr, DecidableEq

/-- What goes wrong while a key file is created and written. -/
inductive Fault where
  | none
  | create
  /-- The write fails after so many bytes. -/
  | write (written : Nat)
deriving Repr, DecidableEq

/-- The bytes that reach the file. -/
def Fault.kept (fault : Fault) (text : Bytes) : Bytes :=
  match fault with
  | .write written => text.take written
  | _ => text

namespace Test

variable (t : Test) (format : KeyFormat Pub Prv) (fs : FileSystem)

/-- The file of a key. -/
def keyFile (keyName : String) : Path :=
  (t.store.join (Path.parse keyName.toList)).setExtension KEYSTORE_FILE_EXTENSION

def getKey (keyName : String) : Except Kind (KeyEntry Pub Prv) :=
  if !fs.exists? (t.keyFile keyName) then .error .keyStore
  else
    match fs.read (t.keyFile keyName) with
    | none => .error .keyStore
    | some content =>
      match format.fromReader content with
      | none => .error .keyStore
      | some keyEntry => .ok keyEntry

/-- Where `File::create` makes the file of a key, when it does. -/
def created (fault : Fault) (keyName : String) : Option Location :=
  if fault = .create then none else fs.creates (t.keyFile keyName)

def addKey (fault : Fault) (keyName : String) (keyEntry : KeyEntry Pub Prv) :
    Except Kind Unit × FileSystem :=
  match t.created fs fault keyName with
  | none => (.error .keyStore, fs)
  | some loc =>
    let text := format.toWriterPretty keyEntry
    let kept := fault.kept text
    (if kept.length < text.length then .error .keyStore else .ok (), fs.write loc kept)

/-- The name of the key in a file of the folder, when it is a key file. -/
def keyNameOf (file : Name) : Option String :=
  let path := t.store.child file
  if path.extension = some KEYSTORE_FILE_EXTENSION then path.fileStem.map String.ofList else none

def allKeys : Except Kind (List (String × KeyEntry Pub Prv)) :=
  match fs.readDir t.store with
  | none => .error .keyStore
  | some files => (files.filterMap t.keyNameOf).mapM fun name => do
    let key ← t.getKey format fs name
    return (name, key)

end Test

/-! ## The key ring -/

/-- `KeyRing`. -/
inductive KeyRing (Pub Prv : Type) where
  | memory (m : Memory Pub Prv)
  | test (t : Test)

/-- `account_prefix`. -/
def KeyRing.accountPrefix : KeyRing Pub Prv → String
  | .memory m => m.accountPrefix
  | .test t => t.accountPrefix

/-- A key ring and the file system. -/
structure KeyStore (Pub Prv : Type) where
  ring : KeyRing Pub Prv
  fs : FileSystem

namespace KeyStore

variable (format : KeyFormat Pub Prv) (s : KeyStore Pub Prv)

/-- `get_key`. -/
def getKey (keyName : String) : Except Kind (KeyEntry Pub Prv) :=
  match s.ring with
  | .memory m => m.getKey keyName
  | .test t => t.getKey format s.fs keyName

/-- `add_key`. -/
def addKey (fault : Fault) (keyName : String) (keyEntry : KeyEntry Pub Prv) :
    Except Kind Unit × KeyStore Pub Prv :=
  match s.ring with
  | .memory m =>
    let r := m.addKey keyName keyEntry
    (r.1, { s with ring := .memory r.2 })
  | .test t =>
    let r := t.addKey format s.fs fault keyName keyEntry
    (r.1, { s with fs := r.2 })

/-- `keys`. -/
def keys : Except Kind (List (String × KeyEntry Pub Prv)) :=
  match s.ring with
  | .memory m => m.allKeys
  | .test t => t.allKeys format s.fs

end KeyStore

/-- `key_from_seed_file`. -/
def keyFromSeedFile (crypto : Crypto Pub Prv) (bech32 : Bech32) (format : KeyFileFormat)
    (keyFileContent : String) (hdPath : HDPath) : Outcome Kind (KeyEntry Pub Prv) := do
  let keyFile ← Outcome.okOr .invalidKey (format.keyFile keyFileContent)
  fromKeyFile crypto bech32 format keyFile hdPath

/-- `key_from_mnemonic`. -/
def keyFromMnemonic (crypto : Crypto Pub Prv) (bech32 : Bech32) (ring : KeyRing Pub Prv)
    (mnemonicWords : String) (hdPath : HDPath) : Outcome Kind (KeyEntry Pub Prv) := do
  let privateKey ← privateKeyFromMnemonic crypto mnemonicWords hdPath
  let publicKey := crypto.fromPrivate privateKey
  let address := getAddress crypto publicKey
  let account ← Outcome.okOr .bech32Account (bech32.encode ring.accountPrefix address)
  return { publicKey := publicKey, privateKey := privateKey, account := account, address := address }

end OffChainWorker.Keyring
