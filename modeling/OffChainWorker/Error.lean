/-
  The kinds of error that the chain side raises (`src/error.rs`).  An `anomaly::Error<Kind>` is its
  kind; the source error attached to it as context is only ever printed.
-/

namespace OffChainWorker

/-- `error::Kind`, the variants that the methods of a chain and the chain runtime raise. -/
inductive Kind where
  /-- RPC error to an endpoint. -/
  | rpc (url : String)
  | grpc
  /-- Did not find tx confirmation. -/
  | txNoConfirmation (msg : String)
  /-- Failed to send or receive through channel. -/
  | channel
  /-- Gas estimate from simulated Tx exceeds the maximum configured. -/
  | txSimulateGasEstimateExceeded (chainId : String) (estimatedGas maxGas : UInt64)
  | keyBase
  | balanceOfDenomNotFound (address denom : String)
  | invalidKeyAddress (address : String)
  | bech32Encoding
deriving Repr, DecidableEq

end OffChainWorker
