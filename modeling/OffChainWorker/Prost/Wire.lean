/-
  The encodings of the messages of a transaction, with the tags of `src/prost/`.

  `Prost.wire` is the instance of `Prost` that these encodings make.  Every codec is a message of
  the wire format, and decodes what it encodes because each of its components does.
-/
import OffChainWorker.Lib.Protobuf
import OffChainWorker.Prost

namespace OffChainWorker

open Proc Proc.Protobuf

/-- An `int32`, or an enumeration: the sign is extended to 64 bits. -/
def int32 : FieldKind Int32 where
  write n := uint64.write n.toInt64.toUInt64
  read vs := (uint64.read vs).map fun n => n.toInt64.toInt32
  read_write n := by
    rw [uint64.read_write]
    simp

namespace Any

def fields (m : Any) : List Field := put 1 string m.typeUrl ++ put 2 bytes m.value

def codec : Codec Any where
  encode m := emit m.fields
  decode data := do
    let fs ← parse data
    return { typeUrl := ← pick 1 string fs, value := ← pick 2 bytes fs }
  decode_encode m := by simp [fields, pick]

end Any

namespace BaseAccount

def fields (m : BaseAccount) : List Field :=
  put 1 string m.address ++ put 2 (message Any.codec) m.pubKey ++
    put 3 uint64 m.accountNumber ++ put 4 uint64 m.sequence

def codec : Codec BaseAccount where
  encode m := emit m.fields
  decode data := do
    let fs ← parse data
    return {
      address := ← pick 1 string fs
      pubKey := ← pick 2 (message Any.codec) fs
      accountNumber := ← pick 3 uint64 fs
      sequence := ← pick 4 uint64 fs }
  decode_encode m := by simp [fields, pick]

end BaseAccount

namespace Coin

def fields (m : Coin) : List Field := put 1 string m.denom ++ put 2 string m.amount

def codec : Codec Coin where
  encode m := emit m.fields
  decode data := do
    let fs ← parse data
    return { denom := ← pick 1 string fs, amount := ← pick 2 string fs }
  decode_encode m := by simp [fields, pick]

end Coin

namespace Fee

def fields (m : Fee) : List Field :=
  put 1 (repeated Coin.codec) m.amount ++ put 2 uint64 m.gasLimit ++
    put 3 string m.payer ++ put 4 string m.granter

def codec : Codec Fee where
  encode m := emit m.fields
  decode data := do
    let fs ← parse data
    return {
      amount := ← pick 1 (repeated Coin.codec) fs
      gasLimit := ← pick 2 uint64 fs
      payer := ← pick 3 string fs
      granter := ← pick 4 string fs }
  decode_encode m := by simp [fields, pick]

end Fee

namespace Single

def codec : Codec Single where
  encode m := emit (put 1 int32 m.mode)
  decode data := do
    let fs ← parse data
    return { mode := ← pick 1 int32 fs }
  decode_encode m := by simp [pick]

end Single

namespace ModeInfo

def codec : Codec ModeInfo where
  encode m := emit (put 1 (message Single.codec) m.sum)
  decode data := do
    let fs ← parse data
    return { sum := ← pick 1 (message Single.codec) fs }
  decode_encode m := by simp [pick]

end ModeInfo

namespace SignerInfo

def fields (m : SignerInfo) : List Field :=
  put 1 (message Any.codec) m.publicKey ++ put 2 (message ModeInfo.codec) m.modeInfo ++
    put 3 uint64 m.sequence

def codec : Codec SignerInfo where
  encode m := emit m.fields
  decode data := do
    let fs ← parse data
    return {
      publicKey := ← pick 1 (message Any.codec) fs
      modeInfo := ← pick 2 (message ModeInfo.codec) fs
      sequence := ← pick 3 uint64 fs }
  decode_encode m := by simp [fields, pick]

end SignerInfo

namespace AuthInfo

def fields (m : AuthInfo) : List Field :=
  put 1 (repeated SignerInfo.codec) m.signerInfos ++ put 2 (message Fee.codec) m.fee

def codec : Codec AuthInfo where
  encode m := emit m.fields
  decode data := do
    let fs ← parse data
    return {
      signerInfos := ← pick 1 (repeated SignerInfo.codec) fs
      fee := ← pick 2 (message Fee.codec) fs }
  decode_encode m := by simp [fields, pick]

end AuthInfo

def TxBody.fields (m : TxBody) : List Field :=
  put 1 (repeated Any.codec) m.messages ++ put 2 string m.memo ++ put 3 uint64 m.timeoutHeight ++
    put 1023 (repeated Any.codec) m.extensionOptions ++
    put 2047 (repeated Any.codec) m.nonCriticalExtensionOptions

def TxBody.codec : Codec TxBody where
  encode m := emit m.fields
  decode data := do
    let fs ← parse data
    return {
      messages := ← pick 1 (repeated Any.codec) fs
      memo := ← pick 2 string fs
      timeoutHeight := ← pick 3 uint64 fs
      extensionOptions := ← pick 1023 (repeated Any.codec) fs
      nonCriticalExtensionOptions := ← pick 2047 (repeated Any.codec) fs }
  decode_encode m := by simp [TxBody.fields, pick]

namespace TxRaw

def fields (m : TxRaw) : List Field :=
  put 1 bytes m.bodyBytes ++ put 2 bytes m.authInfoBytes ++ put 3 (repeated raw) m.signatures

def codec : Codec TxRaw where
  encode m := emit m.fields
  decode data := do
    let fs ← parse data
    return {
      bodyBytes := ← pick 1 bytes fs
      authInfoBytes := ← pick 2 bytes fs
      signatures := ← pick 3 (repeated raw) fs }
  decode_encode m := by simp [fields, pick]

end TxRaw

def SignDoc.fields (m : SignDoc) : List Field :=
  put 1 bytes m.bodyBytes ++ put 2 bytes m.authInfoBytes ++ put 3 string m.chainId ++
    put 4 uint64 m.accountNumber

def SignDoc.codec : Codec SignDoc where
  encode m := emit m.fields
  decode data := do
    let fs ← parse data
    return {
      bodyBytes := ← pick 1 bytes fs
      authInfoBytes := ← pick 2 bytes fs
      chainId := ← pick 3 string fs
      accountNumber := ← pick 4 uint64 fs }
  decode_encode m := by simp [SignDoc.fields, pick]

/-- `BytesValue`, which a byte vector is encoded as. -/
def bytesValue : Codec Bytes where
  encode data := emit (put 1 Protobuf.bytes data)
  decode data := do
    let fs ← parse data
    return ← pick 1 Protobuf.bytes fs
  decode_encode data := by simp [pick]

/-- The protobuf encodings. -/
def Prost.wire : Prost where
  any := Any.codec.encode
  bytes data := emit (put 1 Protobuf.bytes data)
  txBody m := emit m.fields
  signDoc m := emit m.fields
  authInfo := AuthInfo.codec
  txRaw := TxRaw.codec
  baseAccount := BaseAccount.codec

end OffChainWorker
