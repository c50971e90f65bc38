/-
  The calls that the chain makes of its node.

  `Env.logged` is the environment whose node keeps a log of its calls and of its own answers.  The
  log changes nothing else: the methods answer there as they do without it (`maps_sendMsgs`).
-/
import OffChainWorker.Chain.SendMsgs

namespace OffChainWorker.Cosmos

open Proc

/-! ## The log -/

/-- A call of the node, with its answer. -/
inductive NodeCall where
  | account (address : String) (answer : Except Unit (Option Any))
  | balance (address denom : String) (answer : Except Unit (Option Coin))
  | simulate (request : SimulateRequest) (answer : Except Unit SimulateResponse)
  | broadcastTxSync (data : Bytes) (answer : Except Unit Response)
  | txSearch (hash : Hash) (answer : Except Unit (List Bytes))

variable {N : Type}

/-- The node with a log of its calls. -/
def Node.logged (node : Node N) : Node (N × List NodeCall) where
  account address n :=
    let r := node.account address n.1
    (r.1, (r.2, n.2 ++ [.account address r.1]))
  balance address denom n :=
    let r := node.balance address denom n.1
    (r.1, (r.2, n.2 ++ [.balance address denom r.1]))
  simulate request n :=
    let r := node.simulate request n.1
    (r.1, (r.2, n.2 ++ [.simulate request r.1]))
  broadcastTxSync data n :=
    let r := node.broadcastTxSync data n.1
    (r.1, (r.2, n.2 ++ [.broadcastTxSync data r.1]))
  txSearch hash n :=
    let r := node.txSearch hash n.1
    (r.1, (r.2, n.2 ++ [.txSearch hash r.1]))

/-- The environment with this node. -/
def Env.logged (env : Env N) : Env (N × List NodeCall) := { env with node := env.node.logged }

/-- The state without the log. -/
def unlog (s : ChainState (N × List NodeCall)) : ChainState N := ⟨s.account, s.node.1⟩

/-- The state with an empty log. -/
def startLog (s : ChainState N) : ChainState (N × List NodeCall) := ⟨s.account, (s.node, [])⟩

/-- The calls of one `send_tx`. -/
def txCalls (env : Env N) (protoMsgs : List Any) (s : ChainState N) : List NodeCall :=
  (sendTx env.logged protoMsgs (startLog s)).2.node.2

/-- The calls of one `send_msgs`. -/
def msgsCalls (env : Env N) (protoMsgs : List Any) (s : ChainState N) : List NodeCall :=
  (sendMsgs env.logged protoMsgs (startLog s)).2.node.2

/-! ## The log changes nothing else -/

variable (env : Env N)

open Action

theorem maps_call {α : Type} {kind : Kind} {op : N → Except Unit α × N}
    {op' : N × List NodeCall → Except Unit α × (N × List NodeCall)}
    (h : ∀ n, op n.1 = ((op' n).1, (op' n).2.1)) : Maps unlog (call kind op') (call kind op) := by
  intro s
  unfold call
  rw [show (unlog s).node = s.node.1 from rfl, h s.node]
  cases op' s.node with
  | mk r n => cases r <;> rfl

/-- What is done to the cached account alone. -/
theorem maps_cache (f : Option BaseAccount → Option BaseAccount) :
    Maps unlog
      (Action.modify fun s => { s with account := f s.account } : ChainM (N × List NodeCall) Unit)
      (Action.modify fun s => { s with account := f s.account } : ChainM N Unit) :=
  fun _ => rfl

theorem maps_balance : Maps unlog (balance env.logged) (balance env) := by
  refine (maps_lift _).bind fun key => ?_
  refine (maps_call fun n => rfl).bind fun balance => ?_
  exact maps_lift _

theorem maps_expect {α : Type} {x : ChainM (N × List NodeCall) α} {y : ChainM N α}
    (h : Maps unlog x y) : Maps unlog (expect x) (expect y) := by
  refine h.attempt.bind fun r => ?_
  cases r with
  | ok a => exact maps_pure a
  | error e => exact maps_lift _

theorem maps_refreshAccount : Maps unlog (refreshAccount env.logged) (refreshAccount env) := by
  refine (maps_lift _).bind fun key => ?_
  have hquery : Maps unlog (queryAccount env.logged key.account)
      (queryAccount env key.account) := by
    refine (maps_call fun n => rfl).bind fun account => ?_
    exact (maps_lift _).bind fun account => maps_lift _
  refine hquery.bind fun account => (maps_cache fun _ => some account).bind fun _ => ?_
  exact (maps_expect (maps_balance env)).bind fun _ => maps_pure account

theorem maps_account : Maps unlog (account env.logged) (account env) := by
  intro s
  cases hs : s.account with
  | some a => rw [account_cached _ hs, account_cached env (show (unlog s).account = some a from hs)]
  | none =>
    rw [account_none _ hs, account_none env (show (unlog s).account = none from hs)]
    exact maps_refreshAccount env s

theorem maps_estimateGas (request : SimulateRequest) :
    Maps unlog (estimateGas env.logged request) (estimateGas env request) := by
  refine (maps_call fun n => rfl).attempt.bind fun r => ?_
  cases r with
  | ok response =>
    obtain ⟨gasInfo⟩ := response
    cases gasInfo <;> exact maps_pure _
  | error e => exact maps_pure _

theorem maps_prepareTx (protoMsgs : List Any) (seq : UInt64) :
    Maps unlog (prepareTx env.logged protoMsgs seq) (prepareTx env protoMsgs seq) := by
  refine (maps_lift _).bind fun signerInfo => (maps_lift _).bind fun fee => ?_
  refine (maps_lift _).bind fun signed => ?_
  exact (maps_estimateGas env _).bind fun gas => maps_pure _

theorem maps_encodeTx (signerInfo : SignerInfo) (bodyBuf : Bytes) (gas : UInt64) :
    Maps unlog (encodeTx env.logged signerInfo bodyBuf gas)
      (encodeTx env signerInfo bodyBuf gas) := by
  refine (maps_lift _).bind fun fee => ?_
  refine ((maps_account env).bind fun account => maps_pure _).bind fun number => ?_
  exact (maps_lift _).bind fun signed => maps_pure _

theorem maps_incrAccountSequence :
    Maps unlog (incrAccountSequence env.logged) (incrAccountSequence env) := by
  refine (maps_account env).bind fun account => (maps_lift _).bind fun sequence => ?_
  exact maps_cache fun _ => some { account with sequence := sequence }

theorem maps_finishTx (signerInfo : SignerInfo) (bodyBuf : Bytes) (gas : UInt64) :
    Maps unlog (finishTx env.logged signerInfo bodyBuf gas)
      (finishTx env signerInfo bodyBuf gas) := by
  unfold finishTx
  rw [show maxGas env.logged = maxGas env from rfl]
  split
  · exact maps_lift _
  · refine (maps_encodeTx env signerInfo bodyBuf gas).bind fun data => ?_
    refine (maps_call fun n => rfl).bind fun response => ?_
    exact (maps_incrAccountSequence env).bind fun _ => maps_pure response

theorem maps_sendTx (protoMsgs : List Any) :
    Maps unlog (sendTx env.logged protoMsgs) (sendTx env protoMsgs) := by
  refine (maps_cache fun _ => none).bind fun _ => ?_
  refine ((maps_account env).bind fun account => maps_pure _).bind fun seq => ?_
  exact (maps_prepareTx env protoMsgs seq).bind fun r => maps_finishTx env r.1 r.2.1 r.2.2

theorem maps_sendBatches (msgs : List Any) (n size : Nat) (msgBatch : List Any)
    (results : List TxSyncResult) :
    Maps unlog (sendBatches env.logged msgs n size msgBatch results)
      (sendBatches env msgs n size msgBatch results) := by
  have hsend : ∀ (msgBatch : List Any) (results : List TxSyncResult),
      Maps unlog (sendBatch env.logged msgBatch results) (sendBatch env msgBatch results) :=
    fun msgBatch results => (maps_sendTx env msgBatch).bind fun response => maps_pure _
  induction msgs generalizing n size msgBatch results with
  | nil =>
    unfold sendBatches
    split
    · exact maps_pure results
    · exact hsend msgBatch results
  | cons msg msgs ih =>
    unfold sendBatches
    by_cases hlimit : maxMsgNum env ≤ n + 1 ∨ maxTxSize env ≤ size + (env.prost.any msg).length
    · rw [if_pos hlimit, if_pos (show maxMsgNum env.logged ≤ n + 1 ∨
        maxTxSize env.logged ≤ size + (env.logged.prost.any msg).length from hlimit)]
      exact (hsend (msgBatch ++ [msg]) results).bind fun results => ih 0 0 [] results
    · rw [if_neg hlimit, if_neg (show ¬ (maxMsgNum env.logged ≤ n + 1 ∨
        maxTxSize env.logged ≤ size + (env.logged.prost.any msg).length) from hlimit)]
      exact ih (n + 1) _ (msgBatch ++ [msg]) results

theorem queryEventsFromTxs_logged (hash : Hash) (n : N × List NodeCall) :
    queryEventsFromTxs env hash n.1 =
      ((queryEventsFromTxs env.logged hash n).1, (queryEventsFromTxs env.logged hash n).2.1) := by
  have hlog : env.logged.node.txSearch hash n =
      ((env.node.txSearch hash n.1).1,
        ((env.node.txSearch hash n.1).2, n.2 ++ [.txSearch hash (env.node.txSearch hash n.1).1])) :=
    rfl
  unfold queryEventsFromTxs
  rw [hlog]
  cases env.node.txSearch hash n.1 with
  | mk answer m =>
    cases answer with
    | error e => rfl
    | ok txs => cases txs <;> rfl

theorem resolve_logged (r : TxSyncResult) (n : N × List NodeCall) :
    resolve env (queryEventsFromTxs env) r n.1 =
      ((resolve env.logged (queryEventsFromTxs env.logged) r n).1,
        (resolve env.logged (queryEventsFromTxs env.logged) r n).2.1) := by
  unfold resolve
  split
  · split
    · rfl
    · rw [queryEventsFromTxs_logged]
      cases queryEventsFromTxs env.logged r.response.hash n with
      | mk answer n' => cases answer <;> rfl
  · rfl

theorem resolveAll_logged (results : List TxSyncResult) (n : N × List NodeCall) :
    resolveAll env (queryEventsFromTxs env) results n.1 =
      ((resolveAll env.logged (queryEventsFromTxs env.logged) results n).1,
        (resolveAll env.logged (queryEventsFromTxs env.logged) results n).2.1) := by
  induction results generalizing n with
  | nil => rfl
  | cons r rest ih =>
    unfold resolveAll
    rw [resolve_logged]
    simp only
    rw [ih]

theorem maps_awaitCommits (results : List TxSyncResult) :
    Maps unlog (awaitCommits env.logged results) (awaitCommits env results) := by
  have htry : ∀ n (p : List TxSyncResult × (N × List NodeCall)),
      tryCommits env (queryEventsFromTxs env) n (p.1, p.2.1) =
        ((tryCommits env.logged (queryEventsFromTxs env.logged) n p).1,
          ((tryCommits env.logged (queryEventsFromTxs env.logged) n p).2.1,
            (tryCommits env.logged (queryEventsFromTxs env.logged) n p).2.2.1)) := by
    intro n p
    unfold tryCommits
    split
    · rfl
    · exact Prod.ext rfl (resolveAll_logged env p.1 p.2)
  intro s
  have hloop := retryLoop_map (f := fun p : List TxSyncResult × (N × List NodeCall) =>
    (p.1, p.2.1)) htry (commitDelays env.config.rpcTimeout) 1 (results, s.node)
  unfold awaitCommits waitForBlockCommits retryWithIndex
  rw [show (unlog s).node = s.node.1 from rfl, hloop, show env.logged.config = env.config from rfl]
  cases retryLoop (tryCommits env.logged (queryEventsFromTxs env.logged))
      (commitDelays env.config.rpcTimeout) 1 (results, s.node) with
  | mk answer p => cases answer <;> rfl

theorem maps_sendMsgs (protoMsgs : List Any) :
    Maps unlog (sendMsgs env.logged protoMsgs) (sendMsgs env protoMsgs) := by
  unfold sendMsgs
  split
  · exact maps_pure []
  · refine (maps_sendBatches env protoMsgs 0 0 [] []).bind fun results => ?_
    exact (maps_awaitCommits env results).bind fun results => maps_pure _

end OffChainWorker.Cosmos
