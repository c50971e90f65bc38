/-
  The sequence numbers that successive transactions are signed with.

  The node of this module (`NonceNode`) answers an account query with the number of committed
  transactions of the account, accepts a transaction iff it is signed with that number plus the
  number of accepted ones that are not committed yet, and commits at arbitrary moments: `commits`
  says how many pending transactions each coming call finds committed.  What else it answers is
  arbitrary.

  `send_tx` drops the cached account and queries it again, so it signs with what was committed at
  its query; the sequence that it increments after the broadcast is never read.  A commit moves a
  transaction from pending to committed and leaves their sum, the expected sequence, alone.  Hence
  a signed sequence is the expected one exactly when nothing was pending at the query.
-/
import OffChainWorker.Chain.SendMsgs

namespace OffChainWorker.Cosmos

open Proc

/-! ## The node -/

/-- A transaction that was broadcast: the sequence it is signed with, the sequence that the node
    expected, and the number of pending transactions when the account was last queried. -/
structure Broadcast where
  signed : UInt64
  expected : UInt64
  pendingAtQuery : UInt64
deriving Repr, DecidableEq

/-- Transactions of one account, and the state `inner` of whatever else the node does. -/
structure NonceNode (X : Type) where
  committed : UInt64
  /-- Accepted and not committed yet. -/
  pending : UInt64
  /-- The number of pending transactions to be committed before each of the coming calls. -/
  commits : List UInt64
  inner : X
  pendingAtQuery : UInt64
  broadcasts : List Broadcast

/-- The answers of the node that have nothing to do with sequences. -/
structure OtherAnswers (X : Type) where
  /-- The account, but for its sequence. -/
  baseAccount : String → X → BaseAccount × X
  balance : String → String → X → Except Unit (Option Coin) × X
  simulate : SimulateRequest → X → Except Unit SimulateResponse × X
  /-- The log, the hash and, for a rejected transaction, the code less one. -/
  receipt : Bytes → X → (String × Hash × Nat) × X
  txSearch : Hash → X → Except Unit (List Bytes) × X

namespace NonceNode

variable {X : Type}

def start (committed pending : UInt64) (commits : List UInt64) (inner : X) : NonceNode X :=
  ⟨committed, pending, commits, inner, 0, []⟩

/-- The sequence that the next transaction is expected to be signed with. -/
def total (n : NonceNode X) : UInt64 := n.committed + n.pending

/-- What has been committed when the next call arrives. -/
def commit (n : NonceNode X) : NonceNode X :=
  match n.commits with
  | [] => n
  | k :: rest =>
    let k := min k n.pending
    { n with committed := n.committed + k, pending := n.pending - k, commits := rest }

/-- The account query. -/
def queried (n : NonceNode X) (inner : X) : NonceNode X :=
  { n with inner := inner, pendingAtQuery := n.pending }

/-- A broadcast transaction, signed with `signed`. -/
def logged (n : NonceNode X) (signed : UInt64) (inner : X) : NonceNode X :=
  { n with
    inner := inner
    broadcasts := n.broadcasts ++ [⟨signed, n.total, n.pendingAtQuery⟩] }

end NonceNode

/-- The sequence of the `SignerInfo` of a transaction. -/
def txSequence (prost : Prost) (data : Bytes) : Option UInt64 := do
  let txRaw ← prost.txRaw.decode data
  let authInfo ← prost.authInfo.decode txRaw.authInfoBytes
  let signerInfo ← authInfo.signerInfos.head?
  return signerInfo.sequence

variable {X : Type}

/-- The node that counts transactions. -/
def nonceNode (prost : Prost) (others : OtherAnswers X) : Node (NonceNode X) where
  account address n :=
    let n := n.commit
    let base := others.baseAccount address n.inner
    (.ok (some ⟨"/cosmos.auth.v1beta1.BaseAccount",
      prost.baseAccount.encode { base.1 with sequence := n.committed }⟩), n.queried base.2)
  balance address denom n :=
    let n := n.commit
    let answer := others.balance address denom n.inner
    (answer.1, { n with inner := answer.2 })
  simulate request n :=
    let n := n.commit
    let answer := others.simulate request n.inner
    (answer.1, { n with inner := answer.2 })
  broadcastTxSync data n :=
    let n := n.commit
    let receipt := others.receipt data n.inner
    let log := receipt.1.1
    let hash := receipt.1.2.1
    let code := receipt.1.2.2
    match txSequence prost data with
    | none => (.ok ⟨.err (code + 1), log, hash⟩, { n with inner := receipt.2 })
    | some signed =>
      let n := n.logged signed receipt.2
      if signed = n.total then (.ok ⟨.ok, log, hash⟩, { n with pending := n.pending + 1 })
      else (.ok ⟨.err (code + 1), log, hash⟩, n)
  txSearch hash n :=
    let n := n.commit
    let answer := others.txSearch hash n.inner
    (answer.1, { n with inner := answer.2 })

/-- The environment with this node. -/
def nonceEnv {N : Type} (env : Env N) (others : OtherAnswers X) : Env (NonceNode X) :=
  { env with node := nonceNode env.prost others }

/-! ## What a call does to the node -/

/-- Nothing was broadcast. -/
def SameBroadcasts (s t : ChainState (NonceNode X)) : Prop :=
  t.node.broadcasts = s.node.broadcasts

/-- With a cached account: it stays, nothing was broadcast, and the expected sequence and the last
    account query are the same. -/
def Quiet (s t : ChainState (NonceNode X)) : Prop :=
  SameBroadcasts s t ∧ ∀ a, s.account = some a →
    t.account = some a ∧ t.node.total = s.node.total ∧ t.node.pendingAtQuery = s.node.pendingAtQuery

theorem sameBroadcasts_refl (s : ChainState (NonceNode X)) : SameBroadcasts s s := rfl

theorem sameBroadcasts_trans ⦃s t u : ChainState (NonceNode X)⦄ (h : SameBroadcasts s t)
    (h' : SameBroadcasts t u) : SameBroadcasts s u := Eq.trans h' h

theorem quiet_refl (s : ChainState (NonceNode X)) : Quiet s s :=
  ⟨rfl, fun _ h => ⟨h, rfl, rfl⟩⟩

theorem quiet_trans ⦃s t u : ChainState (NonceNode X)⦄ (h : Quiet s t) (h' : Quiet t u) :
    Quiet s u := by
  refine ⟨sameBroadcasts_trans h.1 h'.1, fun a ha => ?_⟩
  obtain ⟨hat, htotal, hquery⟩ := h.2 a ha
  obtain ⟨hau, htotal', hquery'⟩ := h'.2 a hat
  exact ⟨hau, htotal'.trans htotal, hquery'.trans hquery⟩

/-- A commit leaves the expected sequence alone. -/
@[simp] theorem commit_total (n : NonceNode X) : n.commit.total = n.total := by
  unfold NonceNode.commit
  split
  · rfl
  · simp only [NonceNode.total]
    grind

@[simp] theorem commit_broadcasts (n : NonceNode X) : n.commit.broadcasts = n.broadcasts := by
  unfold NonceNode.commit
  split <;> rfl

@[simp] theorem commit_pendingAtQuery (n : NonceNode X) :
    n.commit.pendingAtQuery = n.pendingAtQuery := by
  unfold NonceNode.commit
  split <;> rfl

/-- A call that only changes the rest of the node. -/
theorem quiet_inner {s : ChainState (NonceNode X)} (inner : X) :
    Quiet s { s with node := { s.node.commit with inner := inner } } :=
  ⟨commit_broadcasts _, fun _ h => ⟨h, commit_total _, commit_pendingAtQuery _⟩⟩

variable {N : Type} (env : Env N) (others : OtherAnswers X)

theorem call_state {M α : Type} (kind : Kind) (op : M → Except Unit α × M) (s : ChainState M) :
    (call kind op s).2 = { s with node := (op s.node).2 } := by
  unfold call
  split <;> (rename_i heq; rw [heq])

theorem keeps_call {M α : Type} {R : ChainState M → ChainState M → Prop} {kind : Kind}
    {op : M → Except Unit α × M} (hop : ∀ s, R s { s with node := (op s.node).2 }) :
    Action.Keeps R (call kind op) := by
  intro s
  rw [call_state]
  exact hop s

/-- Errors and panics come from outside the node. -/
theorem quiet_lift {α : Type} (x : Outcome Kind α) :
    Action.Keeps Quiet (Action.lift x : ChainM (NonceNode X) α) :=
  Action.keeps_lift quiet_refl x

theorem quiet_pure {α : Type} (a : α) : Action.Keeps Quiet (pure a : ChainM (NonceNode X) α) :=
  Action.keeps_pure quiet_refl a

theorem quiet_bind {α β : Type} {x : ChainM (NonceNode X) α} {f : α → ChainM (NonceNode X) β}
    (hx : Action.Keeps Quiet x) (hf : ∀ a, Action.Keeps Quiet (f a)) :
    Action.Keeps Quiet (x >>= f) :=
  hx.bind quiet_trans hf

/-! ## The methods that do not broadcast -/

theorem quiet_balance : Action.Keeps Quiet (balance (nonceEnv env others)) := by
  refine quiet_bind (quiet_lift _) fun key => ?_
  refine quiet_bind (keeps_call fun s => quiet_inner _) fun balance => ?_
  exact quiet_lift _

theorem quiet_expect {α : Type} {x : ChainM (NonceNode X) α} (hx : Action.Keeps Quiet x) :
    Action.Keeps Quiet (expect x) := by
  refine quiet_bind hx.attempt fun r => ?_
  cases r with
  | ok a => exact quiet_pure a
  | error e => exact quiet_lift _

theorem quiet_estimateGas (request : SimulateRequest) :
    Action.Keeps Quiet (estimateGas (nonceEnv env others) request) := by
  refine quiet_bind (Action.Keeps.attempt (keeps_call fun s => quiet_inner _)) fun r => ?_
  cases r with
  | ok response =>
    obtain ⟨gasInfo⟩ := response
    cases gasInfo with
    | some gasInfo => exact quiet_pure _
    | none => exact quiet_pure _
  | error e => exact quiet_pure _

/-- The account query changes the record of the last query, and nothing else. -/
theorem sameBroadcasts_queryAccount (address : String) :
    Action.Keeps SameBroadcasts (queryAccount (nonceEnv env others) address) := by
  have hcall : Action.Keeps SameBroadcasts
      (call .grpc ((nonceEnv env others).node.account address)) :=
    keeps_call fun s => commit_broadcasts s.node
  refine hcall.bind sameBroadcasts_trans fun account => ?_
  exact (Action.keeps_lift sameBroadcasts_refl _).bind sameBroadcasts_trans fun account =>
    Action.keeps_lift sameBroadcasts_refl _

theorem sameBroadcasts_of_quiet {α : Type} {x : ChainM (NonceNode X) α}
    (hx : Action.Keeps Quiet x) : Action.Keeps SameBroadcasts x := fun s => (hx s).1

theorem sameBroadcasts_refreshAccount :
    Action.Keeps SameBroadcasts (refreshAccount (nonceEnv env others)) := by
  refine (Action.keeps_lift sameBroadcasts_refl _).bind sameBroadcasts_trans fun key => ?_
  refine (sameBroadcasts_queryAccount env others _).bind sameBroadcasts_trans fun account => ?_
  refine Action.Keeps.bind sameBroadcasts_trans (fun s => rfl) fun _ => ?_
  have hbalance := sameBroadcasts_of_quiet (quiet_expect (quiet_balance env others))
  refine hbalance.bind sameBroadcasts_trans fun _ => ?_
  exact Action.keeps_pure sameBroadcasts_refl _

/-- With a cached account nothing is queried. -/
theorem quiet_account : Action.Keeps Quiet (account (nonceEnv env others)) := by
  intro s
  cases hs : s.account with
  | some a =>
    rw [account_cached _ hs]
    exact quiet_refl s
  | none =>
    rw [account_none _ hs]
    refine ⟨sameBroadcasts_refreshAccount env others s, fun a ha => ?_⟩
    cases hs.symm.trans ha

theorem quiet_encodeTx (signerInfo : SignerInfo) (bodyBuf : Bytes) (estimatedGas : UInt64) :
    Action.Keeps Quiet (encodeTx (nonceEnv env others) signerInfo bodyBuf estimatedGas) := by
  refine quiet_bind (quiet_lift _) fun fee => ?_
  refine quiet_bind (quiet_bind (quiet_account env others) fun account => quiet_pure _)
    fun number => ?_
  exact quiet_bind (quiet_lift _) fun signed => quiet_pure _

/-- `send_tx` from the sequence to the estimate. -/
theorem quiet_prepareTx (protoMsgs : List Any) (seq : UInt64) :
    Action.Keeps Quiet (prepareTx (nonceEnv env others) protoMsgs seq) := by
  refine quiet_bind (quiet_lift _) fun signerInfo => ?_
  refine quiet_bind (quiet_lift _) fun fee => ?_
  refine quiet_bind (quiet_lift _) fun signed => ?_
  exact quiet_bind (quiet_estimateGas env others _) fun gas => quiet_pure _

/-! ## The sequence that is signed -/

section
variable {env others}

/-- The cached account has sequence `seq`, which is what the node had committed when the account was
    last queried: with what was pending then it makes the expected sequence. -/
def Synced (seq : UInt64) (s : ChainState (NonceNode X)) : Prop :=
  (∃ a, s.account = some a ∧ a.sequence = seq) ∧ seq + s.node.pendingAtQuery = s.node.total

theorem Synced.quiet {seq : UInt64} {s t : ChainState (NonceNode X)} (h : Synced seq s)
    (hst : Quiet s t) : Synced seq t := by
  obtain ⟨⟨a, ha, hseq⟩, hsum⟩ := h
  obtain ⟨hat, htotal, hquery⟩ := hst.2 a ha
  exact ⟨⟨a, hat, hseq⟩, by rw [hquery, htotal]; exact hsum⟩

/-- A successful query of the account. -/
theorem queryAccount_ok {address : String} {s s' : ChainState (NonceNode X)} {a : BaseAccount}
    (h : queryAccount (nonceEnv env others) address s = (.ok a, s')) :
    a.sequence + s'.node.pendingAtQuery = s'.node.total := by
  obtain ⟨answer, s₁, hcall, h⟩ := Action.bind_eq_ok h
  obtain ⟨any, s₂, hany, h⟩ := Action.bind_eq_ok h
  obtain ⟨hanswer, rfl⟩ := Prod.mk.inj hcall
  obtain rfl := Outcome.ok.inj hanswer
  obtain ⟨hsome, rfl⟩ := Prod.mk.inj hany
  obtain ⟨hdecode, rfl⟩ := Prod.mk.inj h
  obtain rfl := Outcome.ok.inj hsome
  have hbase := Outcome.okOr_eq_ok hdecode
  have hlaw := env.prost.baseAccount.decode_encode
    { (others.baseAccount address s.node.commit.inner).1 with sequence := s.node.commit.committed }
  obtain rfl := Option.some.inj (hbase.symm.trans hlaw)
  rfl

/-- `account_sequence` right after the cached account was dropped. -/
theorem accountSequence_ok {s s' : ChainState (NonceNode X)} {seq : UInt64}
    (hnone : s.account = none)
    (h : accountSequence (nonceEnv env others) s = (.ok seq, s')) : Synced seq s' := by
  obtain ⟨a, s₁, haccount, h⟩ := Action.bind_eq_ok h
  obtain ⟨hseq, rfl⟩ := Prod.mk.inj h
  obtain rfl := Outcome.ok.inj hseq
  rw [account_none _ hnone] at haccount
  obtain ⟨key, s₂, -, h⟩ := Action.bind_eq_ok haccount
  obtain ⟨a', s₃, hquery, h⟩ := Action.bind_eq_ok h
  obtain ⟨_, s₄, hcache, h⟩ := Action.bind_eq_ok h
  obtain ⟨_, s₅, hbalance, h⟩ := Action.bind_eq_ok h
  obtain ⟨ha, rfl⟩ := Prod.mk.inj h
  obtain rfl := Outcome.ok.inj ha
  obtain ⟨-, rfl⟩ := Prod.mk.inj hcache
  -- in sync after the query; caching the account and the balance query keep it so
  have hsum := queryAccount_ok hquery
  have hsynced : Synced a'.sequence { s₃ with account := some a' } := ⟨⟨a', rfl, rfl⟩, hsum⟩
  have hquiet := quiet_expect (quiet_balance env others)
    { s₃ with account := some a' }
  rw [hbalance] at hquiet
  exact hsynced.quiet hquiet

/-- The signer info carries the sequence. -/
theorem prepareTx_ok {protoMsgs : List Any} {seq : UInt64} {s s' : ChainState (NonceNode X)}
    {signerInfo : SignerInfo} {bodyBuf : Bytes} {gas : UInt64}
    (h : prepareTx (nonceEnv env others) protoMsgs seq s = (.ok (signerInfo, bodyBuf, gas), s')) :
    signerInfo.sequence = seq := by
  obtain ⟨signerInfo', s₁, hsigner, h⟩ := Action.bind_eq_ok h
  obtain ⟨fee, s₂, -, h⟩ := Action.bind_eq_ok h
  obtain ⟨signed, s₃, -, h⟩ := Action.bind_eq_ok h
  obtain ⟨gas', s₄, -, h⟩ := Action.bind_eq_ok h
  obtain ⟨hret, -⟩ := Prod.mk.inj h
  obtain ⟨rfl, -, -⟩ := Prod.mk.inj (Outcome.ok.inj hret)
  obtain ⟨hsigner, -⟩ := Prod.mk.inj hsigner
  obtain ⟨key, -, hinfo⟩ := Outcome.bind_eq_ok hsigner
  obtain rfl := Outcome.ok.inj hinfo
  rfl

/-- The encoded transaction is signed with the sequence of its signer info. -/
theorem encodeTx_ok {signerInfo : SignerInfo} {bodyBuf : Bytes} {gas : UInt64}
    {s s' : ChainState (NonceNode X)} {data : Bytes}
    (h : encodeTx (nonceEnv env others) signerInfo bodyBuf gas s = (.ok data, s')) :
    txSequence env.prost data = some signerInfo.sequence := by
  obtain ⟨fee, s₁, -, h⟩ := Action.bind_eq_ok h
  obtain ⟨number, s₂, -, h⟩ := Action.bind_eq_ok h
  obtain ⟨signed, s₃, -, h⟩ := Action.bind_eq_ok h
  obtain ⟨hret, -⟩ := Prod.mk.inj h
  obtain rfl := Outcome.ok.inj hret
  show (do
    let txRaw ← env.prost.txRaw.decode (env.prost.txRaw.encode
      ⟨bodyBuf, env.prost.authInfo.encode (authInfo signerInfo fee), [signed]⟩)
    let authInfo ← env.prost.authInfo.decode txRaw.authInfoBytes
    let signerInfo ← authInfo.signerInfos.head?
    return signerInfo.sequence) = _
  rw [env.prost.txRaw.decode_encode]
  show (do
    let authInfo ← env.prost.authInfo.decode (env.prost.authInfo.encode (authInfo signerInfo fee))
    let signerInfo ← authInfo.signerInfos.head?
    return signerInfo.sequence) = _
  rw [env.prost.authInfo.decode_encode]
  rfl

/-! ## What is broadcast -/

/-- The transaction agrees with the node exactly when nothing was pending at the query. -/
def Broadcast.Fair (b : Broadcast) : Prop := b.signed = b.expected ↔ b.pendingAtQuery = 0

def AllFair (s : ChainState (NonceNode X)) : Prop := ∀ b ∈ s.node.broadcasts, b.Fair

/-- All broadcasts stay fair. -/
def KeepsFair (s t : ChainState (NonceNode X)) : Prop := AllFair s → AllFair t

theorem keepsFair_refl (s : ChainState (NonceNode X)) : KeepsFair s s := id

theorem keepsFair_trans ⦃s t u : ChainState (NonceNode X)⦄ (h : KeepsFair s t)
    (h' : KeepsFair t u) : KeepsFair s u := h' ∘ h

theorem SameBroadcasts.keepsFair {s t : ChainState (NonceNode X)} (h : SameBroadcasts s t) :
    KeepsFair s t := by
  intro hs
  rw [AllFair, h]
  exact hs

theorem broadcastTxSync_broadcasts {data : Bytes} {seq : UInt64}
    (hdata : txSequence env.prost data = some seq) (n : NonceNode X) :
    ((nonceNode env.prost others).broadcastTxSync data n).2.broadcasts
      = n.broadcasts ++ [⟨seq, n.total, n.pendingAtQuery⟩] := by
  simp only [nonceNode, hdata]
  split <;> simp [NonceNode.logged]

/-- **The node logs a fair broadcast** when the transaction is signed with the cached sequence. -/
theorem broadcastTxSync_fair {data : Bytes} {seq : UInt64} {s : ChainState (NonceNode X)}
    (hdata : txSequence env.prost data = some seq) (hs : Synced seq s) :
    KeepsFair s (broadcastTxSync (nonceEnv env others) data s).2 := by
  intro hfair b hb
  rw [broadcastTxSync, call_state] at hb
  have hb' : b ∈ ((nonceNode env.prost others).broadcastTxSync data s.node).2.broadcasts := hb
  rw [broadcastTxSync_broadcasts hdata] at hb'
  rcases List.mem_append.mp hb' with hb' | hb'
  · exact hfair b hb'
  · rw [List.mem_singleton.mp hb']
    -- the expected sequence is `seq` plus what was pending
    show seq = s.node.total ↔ s.node.pendingAtQuery = 0
    rw [← hs.2]
    constructor <;> intro h <;> grind

end

theorem sameBroadcasts_accountSequence :
    Action.Keeps SameBroadcasts (accountSequence (nonceEnv env others)) :=
  (sameBroadcasts_of_quiet (quiet_account env others)).bind sameBroadcasts_trans fun _ =>
    Action.keeps_pure sameBroadcasts_refl _

theorem sameBroadcasts_incrAccountSequence :
    Action.Keeps SameBroadcasts (incrAccountSequence (nonceEnv env others)) := by
  have haccount := sameBroadcasts_of_quiet (quiet_account env others)
  refine haccount.bind sameBroadcasts_trans fun account => ?_
  refine (Action.keeps_lift sameBroadcasts_refl _).bind sameBroadcasts_trans fun sequence => ?_
  exact fun s => rfl

/-- What `send_tx` does once it has the sequence. -/
theorem keepsFair_finishTx {signerInfo : SignerInfo} {bodyBuf : Bytes} {gas : UInt64}
    {s : ChainState (NonceNode X)} (hs : Synced signerInfo.sequence s) :
    KeepsFair s (finishTx (nonceEnv env others) signerInfo bodyBuf gas s).2 := by
  unfold finishTx
  split
  · exact keepsFair_refl s
  · have hencode := quiet_encodeTx env others signerInfo bodyBuf gas s
    refine Action.rel_bind keepsFair_trans hencode.1.keepsFair fun data s₁ hdata => ?_
    rw [hdata] at hencode
    have hs₁ := hs.quiet hencode
    refine Action.rel_bind keepsFair_trans (broadcastTxSync_fair (encodeTx_ok hdata) hs₁)
      fun response s₂ _ => ?_
    refine Action.rel_bind keepsFair_trans
      (sameBroadcasts_incrAccountSequence env others s₂).keepsFair fun _ s₃ _ => ?_
    exact keepsFair_refl s₃

/-- **Step lemma**: one `send_tx` broadcasts at most one transaction, and a fair one. -/
theorem keepsFair_sendTx (protoMsgs : List Any) :
    Action.Keeps KeepsFair (sendTx (nonceEnv env others) protoMsgs) := by
  intro s
  refine Action.rel_bind keepsFair_trans (keepsFair_refl s) fun _ s₀ hdrop => ?_
  have hnone : s₀.account = none := by
    obtain ⟨-, rfl⟩ := Prod.mk.inj hdrop
    rfl
  refine Action.rel_bind keepsFair_trans
    (sameBroadcasts_accountSequence env others s₀).keepsFair fun seq s₁ hseq => ?_
  have hs₁ := accountSequence_ok hnone hseq
  have hprepare := quiet_prepareTx env others protoMsgs seq s₁
  refine Action.rel_bind keepsFair_trans hprepare.1.keepsFair fun prepared s₂ hprepared => ?_
  rw [hprepared] at hprepare
  have hs₂ := hs₁.quiet hprepare
  obtain ⟨signerInfo, bodyBuf, gas⟩ := prepared
  rw [← prepareTx_ok hprepared] at hs₂
  exact keepsFair_finishTx env others hs₂

/-- The loop over the batches. -/
theorem keepsFair_sendBatches (msgs : List Any) (n size : Nat) (msgBatch : List Any)
    (results : List TxSyncResult) :
    Action.Keeps KeepsFair (sendBatches (nonceEnv env others) msgs n size msgBatch results) := by
  have hbatch : ∀ msgBatch results,
      Action.Keeps KeepsFair (sendBatch (nonceEnv env others) msgBatch results) :=
    fun msgBatch results => (keepsFair_sendTx env others msgBatch).bind keepsFair_trans fun _ =>
      Action.keeps_pure keepsFair_refl _
  induction msgs generalizing n size msgBatch results with
  | nil =>
    unfold sendBatches
    split
    · exact Action.keeps_pure keepsFair_refl _
    · exact hbatch _ _
  | cons msg msgs ih =>
    rw [sendBatches]
    split
    · exact (hbatch _ _).bind keepsFair_trans fun _ => ih _ _ _ _
    · exact ih _ _ _ _

theorem sameBroadcasts_awaitCommits (results : List TxSyncResult) :
    Action.Keeps SameBroadcasts (awaitCommits (nonceEnv env others) results) := by
  intro s
  have hquery : ∀ hash (n : NonceNode X), n.broadcasts = s.node.broadcasts →
      (queryEventsFromTxs (nonceEnv env others) hash n).2.broadcasts = s.node.broadcasts := by
    intro hash n hn
    rw [queryEventsFromTxs_node]
    exact (commit_broadcasts n).trans hn
  have hwait := waitForBlockCommits_keeps (nonceEnv env others) hquery results rfl
  unfold awaitCommits
  split <;> (rename_i heq; rw [heq] at hwait; exact hwait)

/-- **Run lemma**: all of `send_msgs`. -/
theorem keepsFair_sendMsgs (protoMsgs : List Any) :
    Action.Keeps KeepsFair (sendMsgs (nonceEnv env others) protoMsgs) := by
  unfold sendMsgs
  split
  · exact Action.keeps_pure keepsFair_refl _
  · refine (keepsFair_sendBatches env others _ _ _ _ _).bind keepsFair_trans fun results => ?_
    refine Action.Keeps.bind keepsFair_trans
      (fun s => (sameBroadcasts_awaitCommits env others results s).keepsFair) fun results => ?_
    exact Action.keeps_pure keepsFair_refl _

/-- Every transaction that `send_msgs` broadcasts is signed with the sequence that the node expects
    exactly when no accepted transaction was waiting to be committed at the account query in front
    of it. -/
theorem sequences_agree_iff (env : Env N) (others : OtherAnswers X) (protoMsgs : List Any)
    (cached : Option BaseAccount) (committed pending : UInt64) (commits : List UInt64)
    (inner : X) :
    let sent := (sendMsgs (nonceEnv env others) protoMsgs
      ⟨cached, .start committed pending commits inner⟩).2.node.broadcasts
    (∀ b ∈ sent, b.signed = b.expected) ↔ ∀ b ∈ sent, b.pendingAtQuery = 0 := by
  intro sent
  have hfair : ∀ b ∈ sent, b.Fair :=
    keepsFair_sendMsgs env others protoMsgs
      ⟨cached, .start committed pending commits inner⟩ fun b hb => nomatch hb
  constructor <;> intro h b hb
  · exact (hfair b hb).mp (h b hb)
  · exact (hfair b hb).mpr (h b hb)

/-- A node with the account of `demoKey`. -/
def demoAnswers : OtherAnswers Unit where
  baseAccount address _ := (⟨address, none, 4, 0⟩, ())
  balance _ denom _ := (.ok (some ⟨denom, "1000000"⟩), ())
  simulate _ _ := (.ok ⟨some ⟨70000⟩⟩, ())
  receipt _ _ := (("", [171], 31), ())
  txSearch _ _ := (.ok [], ())

/-- Two transactions and no commit: both are signed with the sequence 0, which is the expected one
    of the first transaction only. -/
theorem second_batch_out_of_sequence :
    ¬ ∀ (env : Env (NonceNode Unit)) (others : OtherAnswers Unit) (protoMsgs : List Any)
        (cached : Option BaseAccount) (committed pending : UInt64) (commits : List UInt64),
      ∀ b ∈ (sendMsgs (nonceEnv env others) protoMsgs
        ⟨cached, .start committed pending commits ()⟩).2.node.broadcasts,
        b.signed = b.expected := by
  intro h
  have hrun : (sendMsgs (nonceEnv (demoEnv (nonceNode .wire demoAnswers)) demoAnswers) demoMsgs
      ⟨none, .start 0 0 [] ()⟩).2.node.broadcasts = [⟨0, 0, 0⟩, ⟨0, 1, 1⟩] := by
    decide +kernel
  have hsecond := h (demoEnv (nonceNode .wire demoAnswers)) demoAnswers demoMsgs none 0 0 []
    ⟨0, 1, 1⟩ (by rw [hrun]; decide)
  nomatch hsecond

end OffChainWorker.Cosmos
