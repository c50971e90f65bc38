/-
  The configuration of a chain (`src/config.rs`), the fields that the chain code reads.
-/

namespace OffChainWorker

/-- An `f64` as the code uses it: by the decimal that `Decimal::from_f64` makes of it, which is none
    when it is not finite or too large. -/
structure F64 where
  decimal : Option Rat
deriving Repr, DecidableEq

structure GasPrice where
  price : F64
  denom : String
deriving Repr, DecidableEq

structure ChainConfig where
  id : String
  rpcAddr : String
  /-- In milliseconds. -/
  rpcTimeout : Nat
  accountPrefix : String
  keyName : String
  maxGas : Option UInt64
  gasAdjustment : Option F64
  maxMsgNum : Option Nat
  maxTxSize : Option Nat
  gasPrice : GasPrice
deriving Repr, DecidableEq

end OffChainWorker
