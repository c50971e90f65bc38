/-
  One transaction: `CosmosSdkChain::send_tx` and what it calls (`src/chain/cosmos.rs`).

  The fields of `CosmosSdkChain` that no operation changes are in `Env`, together with the
  third-party code: the protobuf encodings, the signature scheme, decimal multiplication and the
  node.  The cached account, which `send_tx` drops, queries and increments, is the state, next to
  the state of the node.  A node is any type with an operation for each remote call; a failed
  connect and a failed call raise the same kind of error and are one failure here.
-/
import OffChainWorker.Config
import OffChainWorker.Error
import OffChainWorker.Lib.Outcome
import OffChainWorker.Prost

namespace OffChainWorker.Cosmos

open Proc

def DEFAULT_MAX_GAS : UInt64 := 3000000
def DEFAULT_GAS_PRICE_ADJUSTMENT : F64 := ⟨some (1 / 10)⟩
def DEFAULT_MAX_MSG_NUM : Nat := 30
def DEFAULT_MAX_TX_SIZE : Nat := 2 * 1048576

/-! ## Keys and the node -/

/-- `KeyEntry`, the keys as bytes. -/
structure KeyEntry where
  publicKey : Bytes
  privateKey : Bytes
  account : String
  address : Bytes
deriving Repr, DecidableEq

/-- What the chain uses of its `KeyRing`: the entry that `get_key` finds, none when it fails. -/
structure KeyRing where
  getKey : String → Option KeyEntry

/-- `abci::Code`. -/
inductive AbciCode where
  | ok
  | err (value : Nat)
deriving Repr, DecidableEq

/-- `Code::value`. -/
def AbciCode.value : AbciCode → Nat
  | .ok => 0
  | .err value => value

/-- The transaction hash of a response. -/
abbrev Hash := Bytes

/-- `tx_sync::Response`. -/
structure Response where
  code : AbciCode
  log : String
  hash : Hash
deriving Repr, DecidableEq

/-- The remote calls; each may change the node, and an `Unit` error is a failed call. -/
structure Node (N : Type) where
  /-- The `account` field of the answer to `QueryAccountRequest`. -/
  account : String → N → Except Unit (Option Any) × N
  /-- The `balance` field of the answer to `QueryBalanceRequest`. -/
  balance : String → String → N → Except Unit (Option Coin) × N
  simulate : SimulateRequest → N → Except Unit SimulateResponse × N
  broadcastTxSync : Bytes → N → Except Unit Response × N
  /-- `tx_search` by a hash: the transactions found, each by its encoding. -/
  txSearch : Hash → N → Except Unit (List Bytes) × N

/-- What stays fixed while messages are sent. -/
structure Env (N : Type) where
  config : ChainConfig
  keybase : KeyRing
  prost : Prost
  /-- `SigningKey::from_bytes` and `sign`: none for bytes that are not a key. -/
  sign : Bytes → Bytes → Option Bytes
  /-- `Decimal` multiplication: none when it panics. -/
  decimalMul : Rat → Rat → Option Rat
  /-- The debug format of a `Log`. -/
  debugLog : String → String
  /-- The build checks integer arithmetic for overflow. -/
  overflowChecks : Bool
  node : Node N

/-- The cached copy of the account information, and the node. -/
structure ChainState (N : Type) where
  account : Option BaseAccount
  node : N

/-- What the methods of the chain run in. -/
abbrev ChainM (N : Type) := Action (ChainState N) Kind

variable {N : Type} (env : Env N)

/-- A remote call, with the kind of error it raises. -/
def call {α : Type} (kind : Kind) (op : N → Except Unit α × N) : ChainM N α := fun s =>
  match op s.node with
  | (.ok a, node) => (.ok a, { s with node := node })
  | (.error _, node) => (.err kind, { s with node := node })

/-! ## Machine integers -/

/-- `a + b` of two `u64`. -/
def addU64 (a b : UInt64) : Outcome Kind UInt64 :=
  if env.overflowChecks && decide (UInt64.size ≤ a.toNat + b.toNat) then .panic else .ok (a + b)

/-- `Decimal::to_u64` followed by `unwrap`, of an integral decimal. -/
def toU64 (n : Int) : Outcome Kind UInt64 :=
  if 0 ≤ n ∧ n < UInt64.size then .ok (UInt64.ofNat n.toNat) else .panic

/-! ## Gas and fees -/

def maxGas : UInt64 := env.config.maxGas.getD DEFAULT_MAX_GAS

def gasAdjustment : F64 := env.config.gasAdjustment.getD DEFAULT_GAS_PRICE_ADJUSTMENT

/-- `Decimal::from_u64(gas) * Decimal::from_f64(factor)`. -/
def gasTimes (gas : UInt64) (factor : F64) : Outcome Kind Rat := do
  let factor ← Outcome.unwrap factor.decimal
  Outcome.unwrap (env.decimalMul gas.toNat factor)

/-- `apply_adjustment_to_gas`. -/
def applyAdjustmentToGas (gasAmount : UInt64) : Outcome Kind UInt64 := do
  let product ← gasTimes env gasAmount (gasAdjustment env)
  let adjustment ← toU64 product.ceil
  let sum ← addU64 env gasAmount adjustment
  return min sum (maxGas env)

/-- `calculate_fee`. -/
def calculateFee (adjustedGasAmount : UInt64) (gasPrice : GasPrice) : Outcome Kind Coin := do
  let feeAmount ← gasTimes env adjustedGasAmount gasPrice.price
  return ⟨gasPrice.denom, toString feeAmount.ceil⟩

def maxFeeInCoins : Outcome Kind Coin := calculateFee env (maxGas env) env.config.gasPrice

def feeFromGasInCoins (gas : UInt64) : Outcome Kind Coin :=
  calculateFee env gas env.config.gasPrice

def defaultFee : Outcome Kind Fee := do
  let amount ← maxFeeInCoins env
  return { amount := [amount], gasLimit := maxGas env, payer := "", granter := "" }

def feeWithGas (gasLimit : UInt64) : Outcome Kind Fee := do
  let adjustedGasLimit ← applyAdjustmentToGas env gasLimit
  let amount ← feeFromGasInCoins env adjustedGasLimit
  let fee ← defaultFee env
  return { fee with amount := [amount], gasLimit := adjustedGasLimit }

/-! ## Keys and signatures -/

/-- `key`. -/
def key : Outcome Kind KeyEntry := Outcome.okOr .keyBase (env.keybase.getKey env.config.keyName)

/-- `KeyRing::sign_msg`. -/
def signMsg (keyName : String) (msg : Bytes) : Option Bytes :=
  (env.keybase.getKey keyName).bind fun key => env.sign key.privateKey msg

/-- `signed_doc`. -/
def signedDoc (bodyBytes authInfoBytes : Bytes) (accountNumber : UInt64) : Outcome Kind Bytes :=
  let signDoc : SignDoc :=
    { bodyBytes := bodyBytes, authInfoBytes := authInfoBytes, chainId := env.config.id,
      accountNumber := accountNumber }
  Outcome.okOr .keyBase (signMsg env env.config.keyName (env.prost.signDoc signDoc))

/-- `signer`. -/
def signer (sequence : UInt64) : Outcome Kind SignerInfo := do
  let key ← key env
  let pkAny : Any := ⟨"/cosmos.crypto.secp256k1.PubKey", env.prost.bytes key.publicKey⟩
  return { publicKey := some pkAny, modeInfo := some ⟨some ⟨1⟩⟩, sequence := sequence }

/-! ## Encodings of a transaction -/

/-- The message part of `tx_body_and_bytes`. -/
def txBody (protoMsgs : List Any) : TxBody where
  messages := protoMsgs
  memo := ""
  timeoutHeight := 0
  extensionOptions := []
  nonCriticalExtensionOptions := []

/-- The message part of `auth_info_and_bytes`. -/
def authInfo (signerInfo : SignerInfo) (fee : Fee) : AuthInfo where
  signerInfos := [signerInfo]
  fee := some fee

/-! ## The account -/

/-- `query_account`. -/
def queryAccount (address : String) : ChainM N BaseAccount := do
  let account ← call .grpc (env.node.account address)
  let account ← Action.lift (Outcome.unwrap account)
  Action.lift (Outcome.okOr .grpc (env.prost.baseAccount.decode account.value))

/-- `query_balance_by_denom`. -/
def queryBalanceByDenom (address denom : String) : ChainM N Coin := do
  let balance ← call .grpc (env.node.balance address denom)
  Action.lift (Outcome.okOr (.balanceOfDenomNotFound address denom) balance)

/-- `query_balance`. -/
def queryBalance (address : String) : ChainM N Coin :=
  queryBalanceByDenom env address env.config.gasPrice.denom

/-- `balance`. -/
def balance : ChainM N Coin := do
  let key ← Action.lift (key env)
  queryBalance env key.account

/-- `expect` on a result: its error is a panic. -/
def expect {α : Type} (x : ChainM N α) : ChainM N α := do
  match ← x.attempt with
  | .ok a => return a
  | .error _ => Action.lift .panic

/-- `account` when nothing is cached: query it, cache it, and insist on a balance. -/
def refreshAccount : ChainM N BaseAccount := do
  let key ← Action.lift (key env)
  let account ← queryAccount env key.account
  Action.modify fun s => { s with account := some account }
  let _balance ← expect (balance env)
  return account

/-- `account`. -/
def account : ChainM N BaseAccount := do
  let s ← Action.get
  match s.account with
  | some account => return account
  | none => refreshAccount env

theorem account_cached {s : ChainState N} {a : BaseAccount} (h : s.account = some a) :
    account env s = (.ok a, s) := by
  unfold account
  rw [Action.bind_ok (Action.get_run s), h]
  rfl

theorem account_none {s : ChainState N} (h : s.account = none) :
    account env s = refreshAccount env s := by
  unfold account
  rw [Action.bind_ok (Action.get_run s), h]

def accountNumber : ChainM N UInt64 := do
  let account ← account env
  return account.accountNumber

def accountSequence : ChainM N UInt64 := do
  let account ← account env
  return account.sequence

/-- `incr_account_sequence`. -/
def incrAccountSequence : ChainM N Unit := do
  let account ← account env
  let sequence ← Action.lift (addU64 env account.sequence 1)
  Action.modify fun s => { s with account := some { account with sequence := sequence } }

/-! ## `send_tx` -/

/-- The simulation: its gas, and the maximum when it fails or reports no gas info. -/
def estimateGas (request : SimulateRequest) : ChainM N UInt64 := do
  match ← (call .grpc (env.node.simulate request)).attempt with
  | .ok response =>
    match response.gasInfo with
    | some gasInfo => return gasInfo.gasUsed
    | none => return maxGas env
  | .error _ => return maxGas env

/-- `send_tx` from the sequence up to the estimate: the signer info, the encoded body, and the
    estimated gas.  The simulated transaction is signed with the sequence in place of the account
    number. -/
def prepareTx (protoMsgs : List Any) (accountSeq : UInt64) :
    ChainM N (SignerInfo × Bytes × UInt64) := do
  let signerInfo ← Action.lift (signer env accountSeq)
  let fee ← Action.lift (defaultFee env)
  let body := txBody protoMsgs
  let bodyBuf := env.prost.txBody body
  let auth := authInfo signerInfo fee
  let signed ← Action.lift (signedDoc env bodyBuf (env.prost.authInfo.encode auth) accountSeq)
  let estimatedGas ← estimateGas env
    ⟨some { body := some body, authInfo := some auth, signatures := [signed] }⟩
  return (signerInfo, bodyBuf, estimatedGas)

/-- `send_tx` from the fee on: the signed transaction is encoded. -/
def encodeTx (signerInfo : SignerInfo) (bodyBuf : Bytes) (estimatedGas : UInt64) :
    ChainM N Bytes := do
  let adjustedFee ← Action.lift (feeWithGas env estimatedGas)
  let authBufAdjusted := env.prost.authInfo.encode (authInfo signerInfo adjustedFee)
  let accountNumber ← accountNumber env
  let signed ← Action.lift (signedDoc env bodyBuf authBufAdjusted accountNumber)
  return env.prost.txRaw.encode
    { bodyBytes := bodyBuf, authInfoBytes := authBufAdjusted, signatures := [signed] }

/-- `broadcast_tx_sync`. -/
def broadcastTxSync (data : Bytes) : ChainM N Response :=
  call (.rpc env.config.rpcAddr) (env.node.broadcastTxSync data)

/-- `send_tx` from the check of the estimate on. -/
def finishTx (signerInfo : SignerInfo) (bodyBuf : Bytes) (estimatedGas : UInt64) :
    ChainM N Response :=
  if maxGas env < estimatedGas then
    Action.lift (.err (.txSimulateGasEstimateExceeded env.config.id estimatedGas (maxGas env)))
  else do
    let txBytes ← encodeTx env signerInfo bodyBuf estimatedGas
    let response ← broadcastTxSync env txBytes
    incrAccountSequence env
    return response

/-- `send_tx`. -/
def sendTx (protoMsgs : List Any) : ChainM N Response := do
  -- forced refresh account when send tx
  Action.modify fun s => { s with account := none }
  let accountSeq ← accountSequence env
  let (signerInfo, bodyBuf, estimatedGas) ← prepareTx env protoMsgs accountSeq
  finishTx env signerInfo bodyBuf estimatedGas

end OffChainWorker.Cosmos
