/-
  Sending messages and waiting for their transactions: `send_msgs`, `wait_for_block_commits` and
  `query_events_from_txs` of `CosmosSdkChain` (`src/chain/cosmos.rs`).

  The messages are cut into batches, one `send_tx` each.  A batch that was accepted is remembered
  with one `Event::Empty` for each of its messages; then the transactions are looked up again and
  again by their hashes until no `Event::Empty` is left or the tries are used up.
-/
import OffChainWorker.Chain.Cosmos
import OffChainWorker.Events
import OffChainWorker.Prost.Wire
import OffChainWorker.Util.Retry

namespace OffChainWorker.Cosmos

open Proc

/-- `TxSyncResult`. -/
structure TxSyncResult where
  /-- The broadcast_tx_sync response. -/
  response : Response
  /-- The events generated by a Tx once executed. -/
  events : List Event
deriving Repr, DecidableEq

variable {N : Type} (env : Env N)

/-! ## Texts -/

/-- A digit of an upper-case hexadecimal number. -/
def hexDigit (n : Nat) : Char := if n < 10 then Char.ofNat (48 + n) else Char.ofNat (55 + n)

/-- `Hash::to_string`. -/
def hashToString (hash : Hash) : String :=
  String.ofList (hash.flatMap fun byte => [hexDigit (byte.toNat / 16), hexDigit (byte.toNat % 16)])

/-- The debug format of a code. -/
def AbciCode.debug : AbciCode → String
  | .ok => "Ok"
  | .err value => "Err(" ++ toString value ++ ")"

/-- The text of the `ChainError` of a transaction that failed. -/
def deliverTxError (response : Response) : String :=
  "deliver_tx on chain " ++ env.config.id ++ " for Tx hash " ++ hashToString response.hash ++
    " reports error: code=" ++ response.code.debug ++ ", log=" ++ env.debugLog response.log

/-- The hashes of the transactions, as they are printed. -/
def joinHashes (results : List TxSyncResult) : String :=
  ", ".intercalate (results.map fun r => hashToString r.response.hash)

/-- The error when the tries are used up. -/
def noConfirmation (results : List TxSyncResult) : Kind :=
  .txNoConfirmation ("from chain " ++ env.config.id ++ " for hash(es) " ++ joinHashes results)

/-! ## Looking transactions up -/

/-- `query_events_from_txs` for a transaction hash. -/
def queryEventsFromTxs (hash : Hash) (node : N) : Except Kind (List Event) × N :=
  match env.node.txSearch hash node with
  | (.error _, node) => (.error .grpc, node)
  | (.ok txs, node) =>
    if txs.isEmpty then (.ok [], node)
    else
      -- TODO implementation
      (.ok [], node)

def emptyEventPresent (events : List Event) : Bool :=
  events.any fun
    | .empty _ => true
    | _ => false

def allTxResultsFound (results : List TxSyncResult) : Bool :=
  results.all fun r => !emptyEventPresent r.events

section
variable {σ : Type} (query : Hash → σ → Except Kind (List Event) × σ)

/-- The body of the `for` loop of `wait_for_block_commits`, for one transaction. -/
def resolve (r : TxSyncResult) (s : σ) : TxSyncResult × σ :=
  if emptyEventPresent r.events then
    -- a transaction that failed is not looked up
    if r.response.code.value ≠ 0 then
      ({ r with events := [.chainError (deliverTxError env r.response)] }, s)
    else
      match query r.response.hash s with
      | (.ok eventsPerTx, s) =>
        (if eventsPerTx.isEmpty then r else { r with events := eventsPerTx }, s)
      | (.error _, s) => (r, s)
  else (r, s)

/-- The `for` loop. -/
def resolveAll : List TxSyncResult → σ → List TxSyncResult × σ
  | [], s => ([], s)
  | r :: rest, s =>
    let resolved := resolve env query r s
    let others := resolveAll rest resolved.2
    (resolved.1 :: others.1, others.2)

/-- The closure that is retried. -/
def tryCommits (index : Nat) (s : List TxSyncResult × σ) :
    RetryResult Unit Nat × (List TxSyncResult × σ) :=
  if allTxResultsFound s.1 then (.ok (), s) else (.retry index, resolveAll env query s.1 s.2)

/-- The `count` of `retry_strategy::wait_for_block_commits`, for a wait in milliseconds.  The cast
    `as usize` takes it modulo 2 ^ 64, and there are waits for which that makes a difference. -/
def commitCount (maxTotalWait : Nat) : Nat := maxTotalWait / 300 % UInt64.size

/-- `retry_strategy::wait_for_block_commits`, in milliseconds. -/
def commitDelays (maxTotalWait : Nat) : List Nat := List.replicate (commitCount maxTotalWait) 300

@[simp] theorem length_commitDelays (maxTotalWait : Nat) :
    (commitDelays maxTotalWait).length = commitCount maxTotalWait := List.length_replicate

/-- `wait_for_block_commits`. -/
def waitForBlockCommits (results : List TxSyncResult) (s : σ) :
    Except Kind (List TxSyncResult) × σ :=
  match retryWithIndex (commitDelays env.config.rpcTimeout) (tryCommits env query) (results, s) with
  | (.ok (), (results', s)) => (.ok results', s)
  | (.error _, (_, s)) => (.error (noConfirmation env results), s)

/-! What every query keeps, waiting keeps. -/

variable {query} {I : σ → Prop} (hquery : ∀ hash s, I s → I (query hash s).2)
include hquery

theorem resolve_keeps (r : TxSyncResult) {s : σ} (hs : I s) : I (resolve env query r s).2 := by
  unfold resolve
  split
  · split
    · exact hs
    · have hnext := hquery r.response.hash s hs
      split <;> (rename_i heq; rw [heq] at hnext; exact hnext)
  · exact hs

theorem resolveAll_keeps (results : List TxSyncResult) {s : σ} (hs : I s) :
    I (resolveAll env query results s).2 := by
  induction results generalizing s with
  | nil => exact hs
  | cons r rest ih => exact ih (resolve_keeps env hquery r hs)

theorem waitForBlockCommits_keeps (results : List TxSyncResult) {s : σ} (hs : I s) :
    I (waitForBlockCommits env query results s).2 := by
  have htry : ∀ n p, I p.2 → I (tryCommits env query n p).2.2 := by
    intro n p hp
    unfold tryCommits
    split
    · exact hp
    · exact resolveAll_keeps env hquery p.1 hp
  have hloop := retryLoop_keeps htry (commitDelays env.config.rpcTimeout) 1
    (show I (results, s).2 from hs)
  unfold waitForBlockCommits retryWithIndex
  split <;> (rename_i heq; rw [heq] at hloop; exact hloop)

end

theorem queryEventsFromTxs_node (hash : Hash) (node : N) :
    (queryEventsFromTxs env hash node).2 = (env.node.txSearch hash node).2 := by
  unfold queryEventsFromTxs
  split
  · rename_i heq
    rw [heq]
  · rename_i heq
    rw [heq]
    split <;> rfl

/-! ## `send_msgs` -/

def maxMsgNum : Nat := env.config.maxMsgNum.getD DEFAULT_MAX_MSG_NUM

def maxTxSize : Nat := env.config.maxTxSize.getD DEFAULT_MAX_TX_SIZE

/-- Send a batch and remember it. -/
def sendBatch (msgBatch : List Any) (results : List TxSyncResult) :
    ChainM N (List TxSyncResult) := do
  let response ← sendTx env msgBatch
  return results ++ [{ response := response, events := List.replicate msgBatch.length (.empty "") }]

/-- The loop over the messages: the number and the size of the messages in `msgBatch`, and the
    transactions sent so far. -/
def sendBatches : List Any → (n size : Nat) → List Any → List TxSyncResult →
    ChainM N (List TxSyncResult)
  | [], _, _, msgBatch, results =>
    if msgBatch.isEmpty then return results else sendBatch env msgBatch results
  | msg :: msgs, n, size, msgBatch, results =>
    let msgBatch := msgBatch ++ [msg]
    let n := n + 1
    let size := size + (env.prost.any msg).length
    -- the message that reaches a limit still goes with its batch
    if maxMsgNum env ≤ n ∨ maxTxSize env ≤ size then do
      let results ← sendBatch env msgBatch results
      sendBatches msgs 0 0 [] results
    else sendBatches msgs n size msgBatch results

/-- `wait_for_block_commits` on the chain's own `query_events_from_txs`. -/
def awaitCommits (results : List TxSyncResult) : ChainM N (List TxSyncResult) := fun s =>
  match waitForBlockCommits env (queryEventsFromTxs env) results s.node with
  | (.ok results, node) => (.ok results, { s with node := node })
  | (.error kind, node) => (.err kind, { s with node := node })

/-- `send_msgs`. -/
def sendMsgs (protoMsgs : List Any) : ChainM N (List Event) :=
  if protoMsgs.isEmpty then return []
  else do
    let results ← sendBatches env protoMsgs 0 0 [] []
    let results ← awaitCommits env results
    return results.flatMap TxSyncResult.events

/-! ## A worker to run -/

def demoKey : KeyEntry := ⟨[2, 7], [9], "cosmos1abc", [5]⟩

/-- One message a transaction, and three delays before the last try. -/
def demoConfig : ChainConfig where
  id := "demo-1"
  rpcAddr := "http://localhost:26657"
  rpcTimeout := 900
  accountPrefix := "cosmos"
  keyName := "worker"
  maxGas := none
  gasAdjustment := none
  maxMsgNum := some 1
  maxTxSize := none
  gasPrice := ⟨⟨some (1 / 1000)⟩, "stake"⟩

/-- The protobuf encodings and exact products; the signature is not one. -/
def demoEnv (node : Node N) : Env N where
  config := demoConfig
  keybase := ⟨fun name => if name = "worker" then some demoKey else none⟩
  prost := .wire
  sign key msg := some (key ++ msg.take 2)
  decimalMul a b := some (a * b)
  debugLog log := log
  overflowChecks := true
  node := node

def demoMsgs : List Any :=
  [⟨"/cosmos.bank.v1beta1.MsgSend", [10]⟩, ⟨"/cosmos.bank.v1beta1.MsgSend", [11]⟩]

end OffChainWorker.Cosmos
