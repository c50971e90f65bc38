/-
  The events a worker handles (`src/events.rs`).
-/

namespace OffChainWorker

/-- `tendermint::block::Height`. -/
abbrev Height := Nat

structure NewBlock where
  height : Height
deriving Repr, DecidableEq

inductive Event where
  | newBlock (ev : NewBlock)
  /-- Special event, signifying empty response. -/
  | empty (ev : String)
  /-- Special event, signifying an error on CheckTx or DeliverTx. -/
  | chainError (ev : String)
deriving Repr, DecidableEq

end OffChainWorker
