/-
  The runs of one `send_tx`.

  `send_tx` makes at most four calls of the node: the account, the balance, the simulation, the
  broadcast.  What it puts into the two transactions is computed between the calls, by
  `simulatedTx` and `rawTx`, which call nobody.  `Refreshed` and `Sent` list the ways the two halves
  of it can go, each with its calls and its result, and `sendTx_run` says that there is no other.
-/
import OffChainWorker.Chain.NodeLog

namespace OffChainWorker.Cosmos

open Proc Action

variable {N : Type} (env : Env N)

/-! ## What is sent, without the calls -/

/-- The signer info of a transaction and the request for its simulation. -/
def simulatedTx (protoMsgs : List Any) (sequence : UInt64) :
    Outcome Kind (SignerInfo × SimulateRequest) := do
  let signerInfo ← signer env sequence
  let fee ← defaultFee env
  let auth := authInfo signerInfo fee
  let signed ← signedDoc env (env.prost.txBody (txBody protoMsgs))
    (env.prost.authInfo.encode auth) sequence
  return (signerInfo,
    ⟨some { body := some (txBody protoMsgs), authInfo := some auth, signatures := [signed] }⟩)

/-- The transaction that is broadcast. -/
def rawTx (signerInfo : SignerInfo) (bodyBuf : Bytes) (gas accountNumber : UInt64) :
    Outcome Kind TxRaw := do
  let adjustedFee ← feeWithGas env gas
  let authBufAdjusted := env.prost.authInfo.encode (authInfo signerInfo adjustedFee)
  let signed ← signedDoc env bodyBuf authBufAdjusted accountNumber
  return { bodyBytes := bodyBuf, authInfoBytes := authBufAdjusted, signatures := [signed] }

/-- The gas that is read off the answer to the simulation. -/
def gasOf : Except Unit SimulateResponse → UInt64
  | .ok ⟨some gasInfo⟩ => gasInfo.gasUsed
  | _ => maxGas env

theorem prepareTx_eq (protoMsgs : List Any) (seq : UInt64) :
    prepareTx env protoMsgs seq = Action.lift (simulatedTx env protoMsgs seq) >>= fun r =>
      estimateGas env r.2 >>= fun gas => pure (r.1, env.prost.txBody (txBody protoMsgs), gas) := by
  unfold simulatedTx
  simp only [lift_bind, bind_bind, lift_pure, Action.pure_bind]
  rfl

/-- With a cached account no call is needed to encode the transaction. -/
theorem encodeTx_cached {signerInfo : SignerInfo} {bodyBuf : Bytes} {gas : UInt64}
    {s : ChainState N} {a : BaseAccount} (hs : s.account = some a) :
    encodeTx env signerInfo bodyBuf gas s =
      (rawTx env signerInfo bodyBuf gas a.accountNumber >>= fun raw =>
        pure (env.prost.txRaw.encode raw), s) := by
  have hnumber : accountNumber env s = (.ok a.accountNumber, s) := by
    unfold accountNumber
    rw [Action.bind_ok (account_cached env hs)]
    rfl
  unfold encodeTx rawTx
  rw [bind_run, lift_run]
  cases feeWithGas env gas with
  | err e => rfl
  | panic => rfl
  | ok fee =>
    show (accountNumber env >>= _) s = (signedDoc env bodyBuf
      (env.prost.authInfo.encode (authInfo signerInfo fee)) a.accountNumber >>= _ >>= _, s)
    rw [bind_ok hnumber, bind_run, lift_run]
    cases signedDoc env bodyBuf (env.prost.authInfo.encode (authInfo signerInfo fee))
      a.accountNumber <;> rfl

/-! ## The runs -/

/-- The account is queried and cached, and its balance is asked for. -/
inductive Refreshed (env : Env N) : List NodeCall → Outcome Kind BaseAccount → Prop
  | noKey {kind : Kind} (hkey : key env = .err kind) : Refreshed env [] (.err kind)
  | failed {key : KeyEntry} (hkey : Cosmos.key env = .ok key) :
      Refreshed env [.account key.account (.error ())] (.err .grpc)
  | absent {key : KeyEntry} (hkey : Cosmos.key env = .ok key) :
      Refreshed env [.account key.account (.ok none)] .panic
  | garbled {key : KeyEntry} {any : Any} (hkey : Cosmos.key env = .ok key)
      (hany : env.prost.baseAccount.decode any.value = none) :
      Refreshed env [.account key.account (.ok (some any))] (.err .grpc)
  | noBalance {key : KeyEntry} {any : Any} {a : BaseAccount} {answer : Except Unit (Option Coin)}
      (hkey : Cosmos.key env = .ok key) (hany : env.prost.baseAccount.decode any.value = some a)
      (hanswer : ∀ coin, answer ≠ .ok (some coin)) :
      Refreshed env [.account key.account (.ok (some any)),
        .balance key.account env.config.gasPrice.denom answer] .panic
  | cached {key : KeyEntry} {any : Any} {a : BaseAccount} {coin : Coin}
      (hkey : Cosmos.key env = .ok key) (hany : env.prost.baseAccount.decode any.value = some a) :
      Refreshed env [.account key.account (.ok (some any)),
        .balance key.account env.config.gasPrice.denom (.ok (some coin))] (.ok a)

/-- From the estimate on, with the account `a` in the cache. -/
inductive Finished (env : Env N) (signerInfo : SignerInfo) (bodyBuf : Bytes) (gas : UInt64)
    (a : BaseAccount) : List NodeCall → Outcome Kind Response → Prop
  | exceeded (hgas : maxGas env < gas) :
      Finished env signerInfo bodyBuf gas a []
        (.err (.txSimulateGasEstimateExceeded env.config.id gas (maxGas env)))
  | unsigned {kind : Kind} (hgas : ¬ maxGas env < gas)
      (hraw : rawTx env signerInfo bodyBuf gas a.accountNumber = .err kind) :
      Finished env signerInfo bodyBuf gas a [] (.err kind)
  | outOfRange (hgas : ¬ maxGas env < gas)
      (hraw : rawTx env signerInfo bodyBuf gas a.accountNumber = .panic) :
      Finished env signerInfo bodyBuf gas a [] .panic
  | refused {raw : TxRaw} (hgas : ¬ maxGas env < gas)
      (hraw : rawTx env signerInfo bodyBuf gas a.accountNumber = .ok raw) :
      Finished env signerInfo bodyBuf gas a
        [.broadcastTxSync (env.prost.txRaw.encode raw) (.error ())] (.err (.rpc env.config.rpcAddr))
  | overflowed {raw : TxRaw} {response : Response} (hgas : ¬ maxGas env < gas)
      (hraw : rawTx env signerInfo bodyBuf gas a.accountNumber = .ok raw)
      (hincr : addU64 env a.sequence 1 = .panic) :
      Finished env signerInfo bodyBuf gas a
        [.broadcastTxSync (env.prost.txRaw.encode raw) (.ok response)] .panic
  | accepted {raw : TxRaw} {response : Response} (hgas : ¬ maxGas env < gas)
      (hraw : rawTx env signerInfo bodyBuf gas a.accountNumber = .ok raw)
      (hincr : addU64 env a.sequence 1 = .ok (a.sequence + 1)) :
      Finished env signerInfo bodyBuf gas a
        [.broadcastTxSync (env.prost.txRaw.encode raw) (.ok response)] (.ok response)

/-- With the account `a` in the cache. -/
inductive Sent (env : Env N) (protoMsgs : List Any) (a : BaseAccount) :
    List NodeCall → Outcome Kind Response → Prop
  | unsigned {kind : Kind} (htx : simulatedTx env protoMsgs a.sequence = .err kind) :
      Sent env protoMsgs a [] (.err kind)
  | outOfRange (htx : simulatedTx env protoMsgs a.sequence = .panic) :
      Sent env protoMsgs a [] .panic
  | simulated {signerInfo : SignerInfo} {request : SimulateRequest}
      {answer : Except Unit SimulateResponse} {calls : List NodeCall} {r : Outcome Kind Response}
      (htx : simulatedTx env protoMsgs a.sequence = .ok (signerInfo, request))
      (h : Finished env signerInfo (env.prost.txBody (txBody protoMsgs)) (gasOf env answer) a
        calls r) :
      Sent env protoMsgs a (.simulate request answer :: calls) r

/-- One `send_tx`. -/
inductive TxRun (env : Env N) (protoMsgs : List Any) :
    List NodeCall → Outcome Kind Response → Prop
  | noAccount {calls : List NodeCall} {kind : Kind} (h : Refreshed env calls (.err kind)) :
      TxRun env protoMsgs calls (.err kind)
  | crashed {calls : List NodeCall} (h : Refreshed env calls .panic) :
      TxRun env protoMsgs calls .panic
  | sent {calls calls' : List NodeCall} {a : BaseAccount} {r : Outcome Kind Response}
      (h : Refreshed env calls (.ok a)) (h' : Sent env protoMsgs a calls' r) :
      TxRun env protoMsgs (calls ++ calls') r

/-! ## There is no other run -/

/-- A failed call raises the error of its kind. -/
def answered {α : Type} (kind : Kind) : Except Unit α → Outcome Kind α
  | .ok a => .ok a
  | .error _ => .err kind

/-- The state after the call `c`, which left the node in `n`. -/
def called (s : ChainState (N × List NodeCall)) (n : N) (c : NodeCall) :
    ChainState (N × List NodeCall) :=
  { s with node := (n, s.node.2 ++ [c]) }

/-- A call of the node that keeps a log. -/
theorem call_logged {α : Type} (kind : Kind) (op : N → Except Unit α × N)
    (c : Except Unit α → NodeCall) (s : ChainState (N × List NodeCall)) :
    ∃ answer n, call kind (fun n => ((op n.1).1, ((op n.1).2, n.2 ++ [c (op n.1).1]))) s =
      (answered kind answer, called s n (c answer)) := by
  refine ⟨(op s.node.1).1, (op s.node.1).2, ?_⟩
  unfold call
  dsimp only
  cases (op s.node.1).1 <;> rfl

/-- What `query_account` makes of the answer. -/
def accountIn (answer : Except Unit (Option Any)) : Outcome Kind BaseAccount := do
  let account ← answered .grpc answer
  let account ← Outcome.unwrap account
  Outcome.okOr .grpc (env.prost.baseAccount.decode account.value)

theorem accountIn_some (any : Any) : accountIn env (.ok (some any)) =
    Outcome.okOr .grpc (env.prost.baseAccount.decode any.value) := rfl

theorem queryAccount_logged (address : String) (s : ChainState (N × List NodeCall)) :
    ∃ answer n, queryAccount env.logged address s =
      (accountIn env answer, called s n (.account address answer)) := by
  obtain ⟨answer, n, hcall⟩ :=
    call_logged .grpc (env.node.account address) (.account address) s
  refine ⟨answer, n, ?_⟩
  unfold queryAccount
  simp only [← lift_bind]
  rw [bind_lift_run]
  exact congrArg (fun p => (p.1 >>= _, p.2)) hcall

/-- `account` makes a panic of anything but a balance. -/
def expectedIn : Except Unit (Option Coin) → Outcome Kind Coin
  | .ok (some coin) => .ok coin
  | _ => .panic

theorem expect_balance_logged {key : KeyEntry} (hkey : Cosmos.key env = .ok key)
    (s : ChainState (N × List NodeCall)) :
    ∃ answer n, expect (balance env.logged) s =
      (expectedIn answer, called s n (.balance key.account env.config.gasPrice.denom answer)) := by
  obtain ⟨answer, n, hcall⟩ :=
    call_logged .grpc (env.node.balance key.account env.config.gasPrice.denom)
      (.balance key.account env.config.gasPrice.denom) s
  have hbalance : balance env.logged s =
      (answered .grpc answer >>= Outcome.okOr
        (.balanceOfDenomNotFound key.account env.config.gasPrice.denom),
        called s n (.balance key.account env.config.gasPrice.denom answer)) := by
    refine (bind_ok (congrArg (·, s) hkey)).trans ((bind_lift_run _ _ s).trans ?_)
    exact congrArg (fun p => (p.1 >>= _, p.2)) hcall
  refine ⟨answer, n, ?_⟩
  unfold expect
  rw [bind_run]
  unfold attempt
  rw [hbalance]
  cases answer with
  | error e => rfl
  | ok balance => cases balance <;> rfl

theorem refreshAccount_run (s : ChainState (N × List NodeCall)) :
    ∃ calls, (refreshAccount env.logged s).2.node.2 = s.node.2 ++ calls ∧
      Refreshed env calls (refreshAccount env.logged s).1 ∧
      ∀ a, (refreshAccount env.logged s).1 = .ok a →
        (refreshAccount env.logged s).2.account = some a := by
  cases hkey : Cosmos.key env with
  | err kind =>
    have hrun : refreshAccount env.logged s = (.err kind, s) := bind_err (congrArg (·, s) hkey)
    rw [hrun]
    exact ⟨[], (List.append_nil _).symm, .noKey hkey, fun _ h => nomatch h⟩
  | panic =>
    unfold Cosmos.key at hkey
    cases hget : env.keybase.getKey env.config.keyName <;> (rw [hget] at hkey; nomatch hkey)
  | ok key =>
    obtain ⟨answer, n, hquery⟩ := queryAccount_logged env key.account s
    have hrun : refreshAccount env.logged s = _ := bind_ok (congrArg (·, s) hkey)
    rw [hrun]
    cases answer with
    | error e =>
      rw [bind_err hquery]
      exact ⟨_, rfl, .failed hkey, fun _ h => nomatch h⟩
    | ok account =>
      cases account with
      | none =>
        rw [bind_panic hquery]
        exact ⟨_, rfl, .absent hkey, fun _ h => nomatch h⟩
      | some any =>
        rw [accountIn_some] at hquery
        cases hany : env.prost.baseAccount.decode any.value with
        | none =>
          rw [hany] at hquery
          rw [bind_err hquery]
          exact ⟨_, rfl, .garbled hkey hany, fun _ h => nomatch h⟩
        | some a =>
          rw [hany] at hquery
          rw [bind_ok hquery, bind_ok (modify_run _ _)]
          obtain ⟨answer, m, hbalance⟩ := expect_balance_logged env hkey
            { called s n (.account key.account (.ok (some any))) with account := some a }
          have hlog (c c' : NodeCall) : s.node.2 ++ [c] ++ [c'] = s.node.2 ++ [c, c'] :=
            List.append_assoc ..
          cases answer with
          | error e =>
            rw [bind_panic hbalance]
            exact ⟨_, hlog _ _, .noBalance hkey hany (fun _ h => nomatch h), fun _ h => nomatch h⟩
          | ok balance =>
            cases balance with
            | none =>
              rw [bind_panic hbalance]
              exact ⟨_, hlog _ _, .noBalance hkey hany (fun _ h => nomatch h), fun _ h => nomatch h⟩
            | some coin =>
              rw [bind_ok hbalance]
              refine ⟨_, hlog _ _, .cached hkey hany, fun a' ha => ?_⟩
              exact congrArg some (Outcome.ok.inj ha)

theorem incrAccountSequence_cached {s : ChainState N} {a : BaseAccount}
    (hs : s.account = some a) :
    ∃ account, incrAccountSequence env s =
      (addU64 env a.sequence 1 >>= fun _ => pure (), { s with account := account }) := by
  unfold incrAccountSequence
  rw [bind_ok (account_cached env hs), bind_run, lift_run]
  cases addU64 env a.sequence 1 with
  | ok sequence => exact ⟨_, rfl⟩
  | err kind => exact ⟨s.account, rfl⟩
  | panic => exact ⟨s.account, rfl⟩

theorem addU64_cases (a b : UInt64) : addU64 env a b = .panic ∨ addU64 env a b = .ok (a + b) := by
  unfold addU64
  split
  · exact .inl rfl
  · exact .inr rfl

theorem broadcastTxSync_logged (data : Bytes) (s : ChainState (N × List NodeCall)) :
    ∃ answer n, broadcastTxSync env.logged data s =
      (answered (.rpc env.config.rpcAddr) answer, called s n (.broadcastTxSync data answer)) :=
  call_logged (.rpc env.config.rpcAddr) (env.node.broadcastTxSync data) (.broadcastTxSync data) s

theorem finishTx_run (signerInfo : SignerInfo) (bodyBuf : Bytes) (gas : UInt64) {a : BaseAccount}
    {s : ChainState (N × List NodeCall)} (hs : s.account = some a) :
    ∃ calls, (finishTx env.logged signerInfo bodyBuf gas s).2.node.2 = s.node.2 ++ calls ∧
      Finished env signerInfo bodyBuf gas a calls
        (finishTx env.logged signerInfo bodyBuf gas s).1 := by
  unfold finishTx
  by_cases hgas : maxGas env < gas
  · rw [if_pos (show maxGas env.logged < gas from hgas)]
    exact ⟨[], (List.append_nil _).symm, .exceeded hgas⟩
  rw [if_neg (show ¬ maxGas env.logged < gas from hgas)]
  have hencode : encodeTx env.logged signerInfo bodyBuf gas s =
      (rawTx env signerInfo bodyBuf gas a.accountNumber >>= fun raw =>
        pure (env.prost.txRaw.encode raw), s) := encodeTx_cached env.logged hs
  cases hraw : rawTx env signerInfo bodyBuf gas a.accountNumber with
  | err kind =>
    rw [hraw] at hencode
    rw [bind_err hencode]
    exact ⟨[], (List.append_nil _).symm, .unsigned hgas hraw⟩
  | panic =>
    rw [hraw] at hencode
    rw [bind_panic hencode]
    exact ⟨[], (List.append_nil _).symm, .outOfRange hgas hraw⟩
  | ok raw =>
    rw [hraw] at hencode
    rw [bind_ok hencode]
    obtain ⟨answer, n, hcall⟩ := broadcastTxSync_logged env (env.prost.txRaw.encode raw) s
    cases answer with
    | error e =>
      rw [bind_err hcall]
      exact ⟨_, rfl, .refused hgas hraw⟩
    | ok response =>
      rw [bind_ok hcall]
      have hcached : (called s n (.broadcastTxSync (env.prost.txRaw.encode raw)
        (.ok response))).account = some a := hs
      obtain ⟨account, hincr⟩ := incrAccountSequence_cached env.logged hcached
      rcases addU64_cases env a.sequence 1 with hsum | hsum
      · rw [show addU64 env.logged a.sequence 1 = .panic from hsum] at hincr
        rw [bind_panic hincr]
        exact ⟨_, rfl, .overflowed hgas hraw hsum⟩
      · rw [show addU64 env.logged a.sequence 1 = .ok (a.sequence + 1) from hsum] at hincr
        rw [bind_ok hincr]
        exact ⟨_, rfl, .accepted hgas hraw hsum⟩

theorem estimateGas_logged (request : SimulateRequest) (s : ChainState (N × List NodeCall)) :
    ∃ answer n, estimateGas env.logged request s =
      (.ok (gasOf env answer), called s n (.simulate request answer)) := by
  obtain ⟨answer, n, hcall⟩ : ∃ answer n, call .grpc (env.logged.node.simulate request) s =
      (answered .grpc answer, called s n (.simulate request answer)) :=
    call_logged .grpc (env.node.simulate request) (.simulate request) s
  refine ⟨answer, n, ?_⟩
  unfold estimateGas
  rw [bind_run]
  unfold attempt
  rw [hcall]
  cases answer with
  | error e => rfl
  | ok response =>
    obtain ⟨gasInfo⟩ := response
    cases gasInfo <;> rfl

theorem sent_run (protoMsgs : List Any) {a : BaseAccount} {s : ChainState (N × List NodeCall)}
    (hs : s.account = some a) :
    let x := prepareTx env.logged protoMsgs a.sequence >>= fun r =>
      finishTx env.logged r.1 r.2.1 r.2.2
    ∃ calls, (x s).2.node.2 = s.node.2 ++ calls ∧ Sent env protoMsgs a calls (x s).1 := by
  intro x
  have hx : x s = (Action.lift (simulatedTx env protoMsgs a.sequence) >>= fun r =>
      estimateGas env.logged r.2 >>= fun gas =>
        finishTx env.logged r.1 (env.prost.txBody (txBody protoMsgs)) gas) s := by
    show (prepareTx env.logged protoMsgs a.sequence >>= _) s = _
    rw [prepareTx_eq]
    simp only [bind_bind, Action.pure_bind]
    rfl
  rw [hx, bind_run, lift_run]
  cases htx : simulatedTx env protoMsgs a.sequence with
  | err kind => exact ⟨[], (List.append_nil _).symm, .unsigned htx⟩
  | panic => exact ⟨[], (List.append_nil _).symm, .outOfRange htx⟩
  | ok r =>
    obtain ⟨signerInfo, request⟩ := r
    obtain ⟨answer, n, hestimate⟩ := estimateGas_logged env request s
    have hcached : (called s n (.simulate request answer)).account = some a := hs
    obtain ⟨calls, hlog, hrun⟩ := finishTx_run env signerInfo
      (env.prost.txBody (txBody protoMsgs)) (gasOf env answer) hcached
    dsimp only
    rw [bind_ok hestimate]
    refine ⟨.simulate request answer :: calls, ?_, .simulated htx hrun⟩
    rw [hlog]
    exact List.append_assoc ..

/-- **Run lemma.**  One `send_tx` adds its calls to the log, and they are one of the runs. -/
theorem sendTx_run (protoMsgs : List Any) (s : ChainState (N × List NodeCall)) :
    ∃ calls, (sendTx env.logged protoMsgs s).2.node.2 = s.node.2 ++ calls ∧
      TxRun env protoMsgs calls (sendTx env.logged protoMsgs s).1 := by
  have hfresh : ({ s with account := none } : ChainState (N × List NodeCall)).account = none := rfl
  obtain ⟨calls, hlog, hrefresh, hcached⟩ := refreshAccount_run env { s with account := none }
  have hsequence : accountSequence env.logged { s with account := none } =
      ((refreshAccount env.logged { s with account := none }).1 >>= fun a => pure a.sequence,
        (refreshAccount env.logged { s with account := none }).2) := by
    rw [← account_none env.logged hfresh]
    exact bind_lift_run (account env.logged) (fun a => pure a.sequence) _
  have hrun : sendTx env.logged protoMsgs s = (accountSequence env.logged >>= _) _ :=
    bind_ok (modify_run _ _)
  rw [hrun, bind_run, hsequence]
  cases hr : refreshAccount env.logged { s with account := none } with
  | mk r s₁ =>
    rw [hr] at hlog hrefresh hcached
    cases r with
    | err kind => exact ⟨calls, hlog, .noAccount hrefresh⟩
    | panic => exact ⟨calls, hlog, .crashed hrefresh⟩
    | ok a =>
      obtain ⟨calls', hlog', hsent⟩ := sent_run env protoMsgs (hcached a rfl)
      refine ⟨calls ++ calls', ?_, .sent hrefresh hsent⟩
      rw [← List.append_assoc, ← hlog]
      exact hlog'

end OffChainWorker.Cosmos
