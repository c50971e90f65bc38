/-
  The protobuf messages that a transaction is made of (`src/prost/cosmos.tx.v1beta1.rs` and the
  files it refers to), with the fields the chain code sets or reads.

  Encoding and decoding are third-party.  They enter as `Prost`: an encoder for each message the
  code encodes, with a decoder that undoes it where somebody decodes the message again.
-/
import OffChainWorker.Lib.Codec

namespace OffChainWorker

open Proc

abbrev Bytes := List UInt8

/-- `prost_types::Any`. -/
structure Any where
  typeUrl : String
  value : Bytes
deriving Repr, DecidableEq

structure BaseAccount where
  address : String
  pubKey : Option Any
  accountNumber : UInt64
  sequence : UInt64
deriving Repr, DecidableEq

structure Coin where
  denom : String
  amount : String
deriving Repr, DecidableEq

structure Fee where
  amount : List Coin
  gasLimit : UInt64
  payer : String
  granter : String
deriving Repr, DecidableEq

/-- `mode_info::Single`. -/
structure Single where
  mode : Int32
deriving Repr, DecidableEq

/-- `ModeInfo`; of `mode_info::Sum` the code only makes `Sum::Single`. -/
structure ModeInfo where
  sum : Option Single
deriving Repr, DecidableEq

structure SignerInfo where
  publicKey : Option Any
  modeInfo : Option ModeInfo
  sequence : UInt64
deriving Repr, DecidableEq

structure AuthInfo where
  signerInfos : List SignerInfo
  fee : Option Fee
deriving Repr, DecidableEq

structure TxBody where
  messages : List Any
  memo : String
  timeoutHeight : UInt64
  extensionOptions : List Any
  nonCriticalExtensionOptions : List Any
deriving Repr, DecidableEq

structure Tx where
  body : Option TxBody
  authInfo : Option AuthInfo
  signatures : List Bytes
deriving Repr, DecidableEq

structure TxRaw where
  bodyBytes : Bytes
  authInfoBytes : Bytes
  signatures : List Bytes
deriving Repr, DecidableEq

structure SignDoc where
  bodyBytes : Bytes
  authInfoBytes : Bytes
  chainId : String
  accountNumber : UInt64
deriving Repr, DecidableEq

structure SimulateRequest where
  tx : Option Tx
deriving Repr, DecidableEq

structure GasInfo where
  gasUsed : UInt64
deriving Repr, DecidableEq

structure SimulateResponse where
  gasInfo : Option GasInfo
deriving Repr, DecidableEq

/-- `prost::Message` for these messages. -/
structure Prost where
  any : Any → Bytes
  /-- A byte vector, encoded as a `BytesValue`. -/
  bytes : Bytes → Bytes
  txBody : TxBody → Bytes
  signDoc : SignDoc → Bytes
  authInfo : Codec AuthInfo
  txRaw : Codec TxRaw
  baseAccount : Codec BaseAccount

end OffChainWorker
