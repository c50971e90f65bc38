/-
  A broadcast transaction, as somebody reads it who has only its bytes.

  The reader (`checkTx`) decodes the bytes, takes the key, the sequence and the messages from what
  it finds, and has the signature checked over the document that it makes of the same bytes, the
  chain and the number of the account.  With the protobuf encodings and a signature scheme that
  accepts what the configured key has signed, every transaction that a worker broadcasts passes, and
  is read as the messages it was made for.  The document that is signed determines the whole
  transaction (`signBytes_inj`), so the signature is good for no other one, on no other chain and
  for no other account.
-/
import OffChainWorker.Chain.Delivery

namespace OffChainWorker.Cosmos

open Proc

variable {N : Type} {env : Env N}

/-! ## The reader -/

/-- The bytes of the key of a signer. -/
def readPublicKey (publicKey : Any) : Option Bytes :=
  if publicKey.typeUrl = "/cosmos.crypto.secp256k1.PubKey" then bytesValue.decode publicKey.value
  else none

/-- What is read in a transaction. -/
structure CheckedTx where
  publicKey : Bytes
  sequence : UInt64
  fee : Option Fee
  messages : List Any
deriving Repr, DecidableEq

/-- Read a transaction of one signer, and `verify` its signature for an account of a chain. -/
def checkTx (verify : (publicKey msg signature : Bytes) → Bool) (chainId : String)
    (accountNumber : UInt64) (data : Bytes) : Option CheckedTx := do
  let raw ← TxRaw.codec.decode data
  let body ← TxBody.codec.decode raw.bodyBytes
  let auth ← AuthInfo.codec.decode raw.authInfoBytes
  match auth.signerInfos, raw.signatures with
  | [info], [signature] =>
    let publicKey ← readPublicKey (← info.publicKey)
    let doc := SignDoc.codec.encode
      { bodyBytes := raw.bodyBytes, authInfoBytes := raw.authInfoBytes, chainId := chainId,
        accountNumber := accountNumber }
    if verify publicKey doc signature then
      some ⟨publicKey, info.sequence, auth.fee, body.messages⟩
    else none
  | _, _ => none

/-- What is signed for a transaction. -/
def signBytes (body : TxBody) (auth : AuthInfo) (chainId : String) (accountNumber : UInt64) :
    Bytes :=
  SignDoc.codec.encode
    { bodyBytes := TxBody.codec.encode body, authInfoBytes := AuthInfo.codec.encode auth,
      chainId := chainId, accountNumber := accountNumber }

/-- **Binding.**  What is signed determines the transaction, the chain and the account. -/
theorem signBytes_inj {body body' : TxBody} {auth auth' : AuthInfo} {chainId chainId' : String}
    {n n' : UInt64} (h : signBytes body auth chainId n = signBytes body' auth' chainId' n') :
    body = body' ∧ auth = auth' ∧ chainId = chainId' ∧ n = n' := by
  have hdoc := SignDoc.codec.encode_inj h
  obtain ⟨hbody, hauth, hchain, hn⟩ := SignDoc.mk.inj hdoc
  exact ⟨TxBody.codec.encode_inj hbody, AuthInfo.codec.encode_inj hauth, hchain, hn⟩

/-! ## What the reader makes of a transaction -/

/-- The key that is put into a transaction is the one that is read. -/
theorem readPublicKey_encode (publicKey : Bytes) :
    readPublicKey ⟨"/cosmos.crypto.secp256k1.PubKey", Prost.wire.bytes publicKey⟩ =
      some publicKey := by
  rw [readPublicKey, if_pos rfl]
  exact bytesValue.decode_encode publicKey

/-- A transaction of one signer is read as it is, when its signature is right. -/
theorem checkTx_encode {verify : Bytes → Bytes → Bytes → Bool} {body : TxBody} {auth : AuthInfo}
    {info : SignerInfo} {signature publicKey : Bytes} {chainId : String} {n : UInt64}
    (hauth : auth.signerInfos = [info])
    (hkey : info.publicKey =
      some ⟨"/cosmos.crypto.secp256k1.PubKey", Prost.wire.bytes publicKey⟩)
    (hverify : verify publicKey (signBytes body auth chainId n) signature = true) :
    checkTx verify chainId n (TxRaw.codec.encode
      { bodyBytes := TxBody.codec.encode body, authInfoBytes := AuthInfo.codec.encode auth,
        signatures := [signature] }) =
      some ⟨publicKey, info.sequence, auth.fee, body.messages⟩ := by
  unfold signBytes at hverify
  simp [checkTx, TxRaw.codec.decode_encode, TxBody.codec.decode_encode,
    AuthInfo.codec.decode_encode, hauth, hkey, readPublicKey_encode, hverify]

/-- The scheme accepts what the configured key has signed. -/
def Accepts (env : Env N) (verify : (publicKey msg signature : Bytes) → Bool) : Prop :=
  ∀ key msg signature, env.keybase.getKey env.config.keyName = some key →
    env.sign key.privateKey msg = some signature → verify key.publicKey msg signature = true

/-- The bytes of a broadcast. -/
def NodeCall.broadcastBytes : NodeCall → Option Bytes
  | .broadcastTxSync data _ => some data
  | _ => none

/-- A broadcast for an account passes the check for that account. -/
theorem BroadcastFor.checked (hwire : env.prost = Prost.wire)
    {verify : Bytes → Bytes → Bytes → Bool} (hverify : Accepts env verify) {a : BaseAccount}
    {msgBatch : List Any} {c : NodeCall} (h : BroadcastFor env a msgBatch c) {data : Bytes}
    (hdata : c.broadcastBytes = some data) :
    ∃ key fee, env.keybase.getKey env.config.keyName = some key ∧ fee.gasLimit ≤ maxGas env ∧
      checkTx verify env.config.id a.accountNumber data =
        some ⟨key.publicKey, a.sequence, some fee, msgBatch⟩ := by
  obtain ⟨key, auth, signatures, fee, hkey, hcarries, hsigned, hfee, hgas⟩ := h
  obtain ⟨hmessages, ⟨info, hinfo, hsequence, hpublic⟩, signature, rfl, hsignature⟩ := hsigned
  have haccepted := hverify key _ _ hkey hsignature
  rw [hwire] at hpublic haccepted
  refine ⟨key, fee, hkey, hgas, ?_⟩
  cases hcarries with
  | simulate answer => nomatch hdata
  | broadcast answer =>
    obtain rfl := Option.some.inj hdata
    rw [hwire]
    have hread := checkTx_encode hinfo hpublic haccepted
    rw [hfee, hsequence] at hread
    exact hread

/-- Every broadcast of some batches passes the check, and is read as its batch. -/
theorem broadcastBatches_checked (hwire : env.prost = Prost.wire)
    {verify : Bytes → Bytes → Bytes → Bool} (hverify : Accepts env verify)
    {calls : List NodeCall} {sent : List (List Any)} (h : BroadcastBatches env calls sent) :
    ∃ txs : List CheckedTx,
      List.Forall₂ (fun tx data => ∃ n, checkTx verify env.config.id n data = some tx) txs
        (calls.filterMap NodeCall.broadcastBytes) ∧
      txs.map CheckedTx.messages = sent := by
  have hbytes : calls.filterMap NodeCall.broadcastBytes =
      (broadcasts calls).filterMap NodeCall.broadcastBytes := by
    rw [broadcasts, List.filterMap_filter]
    refine List.filterMap_congr fun c _ => ?_
    cases c <;> rfl
  rw [hbytes]
  have hall : ∀ c ∈ broadcasts calls, c.isBroadcast = true := fun c hc => (List.mem_filter.mp hc).2
  unfold BroadcastBatches at h
  generalize broadcasts calls = cs at h hall ⊢
  induction h with
  | nil => exact ⟨[], .nil, rfl⟩
  | @cons msgBatch c sent cs hfor _ ih =>
    obtain ⟨hc, hall⟩ := List.forall_mem_cons.mp hall
    obtain ⟨txs, htxs, hmessages⟩ := ih hall
    obtain ⟨a, hfor⟩ := hfor
    cases c with
    | broadcastTxSync data answer =>
      obtain ⟨key, fee, -, -, hread⟩ := hfor.checked hwire hverify rfl
      exact ⟨⟨key.publicKey, a.sequence, some fee, msgBatch⟩ :: txs,
        .cons ⟨a.accountNumber, hread⟩ htxs, congrArg (msgBatch :: ·) hmessages⟩
    | _ => exact absurd hc Bool.false_ne_true

end OffChainWorker.Cosmos

namespace OffChainWorker.Worker

open Proc
open OffChainWorker.Cosmos

variable {N : Type}

/-! ## Headline -/

/-- **Headline.**  With the protobuf encodings and a scheme that accepts what the configured key has
    signed: every transaction that a worker broadcasts passes the check for its chain and the number
    of the account that the node has answered with last, and it is read with the configured key, the
    sequence of that account and a gas limit within the maximum; the messages that are read in all
    of them are, in order, messages of the calls in the order of the calls; and what is signed for a
    transaction is signed for no other transaction, chain or account. -/
theorem broadcasts_authentic (menv : Monitor.Env) (env : Cosmos.Env N) (node : N)
    (hwire : env.prost = Prost.wire) {verify : Bytes → Bytes → Bytes → Bool}
    (hverify : Accepts env verify) {s : State (ChainState (N × List NodeCall))}
    (h : (loggedWorker menv env node).Reachable s) :
    (∀ before c after data, s.log = before ++ c :: after → c.broadcastBytes = some data →
      ∃ a key fee msgBatch, before.foldl (NodeCall.freshAfter env) none = some a ∧
        env.keybase.getKey env.config.keyName = some key ∧ fee.gasLimit ≤ maxGas env ∧
        checkTx verify env.config.id a.accountNumber data =
          some ⟨key.publicKey, a.sequence, some fee, msgBatch⟩) ∧
    (∃ txs : List CheckedTx,
      List.Forall₂ (fun tx data => ∃ n, checkTx verify env.config.id n data = some tx) txs
        (s.log.filterMap NodeCall.broadcastBytes) ∧
      (txs.flatMap CheckedTx.messages).Sublist
        (s.runtime.history.sent.flatMap (askedMsgs s.runtime))) ∧
    ∀ body auth chainId n body' auth' chainId' n',
      signBytes body auth chainId n = signBytes body' auth' chainId' n' →
        body = body' ∧ auth = auth' ∧ chainId = chainId' ∧ n = n' := by
  refine ⟨fun before c after data hsplit hdata => ?_, ?_, fun _ _ _ _ _ _ _ _ => signBytes_inj⟩
  · have hbroadcast : c.isBroadcast = true := by
      cases c with
      | broadcastTxSync data answer => rfl
      | _ => nomatch hdata
    obtain ⟨a, msgBatch, hlatest, hfor⟩ :=
      along_iff.mp (signed_reachable h) before c after hsplit hbroadcast
    obtain ⟨key, fee, hkey, hgas, hread⟩ := hfor.checked hwire hverify hdata
    exact ⟨a, key, fee, msgBatch, hlatest, hkey, hgas, hread⟩
  · obtain ⟨sent, hsent, hsub⟩ := broadcasts_reachable h
    obtain ⟨txs, hread, hmessages⟩ := broadcastBatches_checked hwire hverify hsent
    refine ⟨txs, hread, ?_⟩
    rw [List.flatMap_def, hmessages]
    exact hsub

/-- A scheme for the one key of the tests: the signature is the text behind the secret. -/
def demoVerify (publicKey msg signature : Bytes) : Bool :=
  publicKey == demoKey.publicKey && signature == demoKey.privateKey ++ msg

theorem signEnv_accepts (node : Node N) : Accepts (signEnv node) demoVerify := by
  intro key msg signature hkey hsign
  obtain rfl : demoKey = key := Option.some.inj hkey
  obtain rfl := Option.some.inj hsign
  simp [demoVerify]

/-- The two transactions of two messages, of which the node refuses both. -/
theorem broadcasts_authentic_two :
    ∃ s, (loggedWorker Monitor.demoEnv (signEnv refusingNode) []).exec
        (initialState Monitor.demoEnv ⟨none, ([], [])⟩) sendRun = some s ∧
      (s.log.filterMap NodeCall.broadcastBytes).length = 2 ∧
      ∃ txs : List CheckedTx,
        List.Forall₂ (fun tx data => ∃ n, checkTx demoVerify "demo-1" n data = some tx) txs
          (s.log.filterMap NodeCall.broadcastBytes) := by
  have hrun : ((loggedWorker Monitor.demoEnv (signEnv refusingNode) []).exec
      (initialState Monitor.demoEnv ⟨none, ([], [])⟩) sendRun).any (fun s =>
        (s.log.filterMap NodeCall.broadcastBytes).length == 2) = true := by
    decide +kernel
  obtain ⟨s, hs, hlength⟩ := (Option.any_eq_true _ _).mp hrun
  obtain ⟨-, ⟨txs, htxs, -⟩, -⟩ := broadcasts_authentic Monitor.demoEnv (signEnv refusingNode) []
    rfl (signEnv_accepts refusingNode) (Machine.exec_reachable (.init rfl) hs)
  exact ⟨s, hs, eq_of_beq hlength, txs, htxs⟩

end OffChainWorker.Worker
