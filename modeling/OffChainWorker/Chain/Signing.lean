/-
  What the transactions of one `send_tx` are signed with.

  A transaction names its signer by a key and a sequence, and its signature is over a `SignDoc` that
  repeats the bytes of the transaction next to the chain id and the number of the account.  The
  broadcast transaction is made so.  The simulated one is signed with the sequence where the
  account number belongs, so its signature is the right one exactly when the two numbers agree.
-/
import OffChainWorker.Chain.Confirmation
import OffChainWorker.Chain.TxRun

namespace OffChainWorker.Cosmos

open Proc

variable {N : Type}

/-! ## What is asked of a transaction -/

/-- The account that the node has answered with, when it has answered the balance too. -/
def answeredAccount (env : Env N) : List NodeCall → Option BaseAccount
  | .account _ (.ok (some any)) :: .balance _ _ (.ok (some _)) :: _ =>
    env.prost.baseAccount.decode any.value
  | _ => none

/-- The call gives a transaction to the node. -/
def NodeCall.GivesTx : NodeCall → Prop
  | .simulate _ _ => True
  | .broadcastTxSync _ _ => True
  | _ => False

/-- The transaction that a call gives to the node. -/
inductive Carries (env : Env N) (body : TxBody) (auth : AuthInfo) (signatures : List Bytes) :
    NodeCall → Prop
  | simulate (answer : Except Unit SimulateResponse) :
      Carries env body auth signatures (.simulate
        ⟨some { body := some body, authInfo := some auth, signatures := signatures }⟩ answer)
  | broadcast (answer : Except Unit Response) :
      Carries env body auth signatures (.broadcastTxSync (env.prost.txRaw.encode
        { bodyBytes := env.prost.txBody body, authInfoBytes := env.prost.authInfo.encode auth,
          signatures := signatures }) answer)

/-- The transaction has the messages, and is signed by `key` for the account `a`. -/
structure SignedFor (env : Env N) (protoMsgs : List Any) (key : KeyEntry) (a : BaseAccount)
    (body : TxBody) (auth : AuthInfo) (signatures : List Bytes) : Prop where
  messages : body.messages = protoMsgs
  signer : ∃ info, auth.signerInfos = [info] ∧ info.sequence = a.sequence ∧
    info.publicKey =
      some ⟨"/cosmos.crypto.secp256k1.PubKey", env.prost.bytes key.publicKey⟩
  signature : ∃ signature, signatures = [signature] ∧
    env.sign key.privateKey (env.prost.signDoc
      { bodyBytes := env.prost.txBody body, authInfoBytes := env.prost.authInfo.encode auth,
        chainId := env.config.id, accountNumber := a.accountNumber }) = some signature

/-- Every transaction given to the node is signed by the configured key for the account that was
    queried. -/
def ConsistentlySigned (env : Env N) (protoMsgs : List Any) (calls : List NodeCall) : Prop :=
  ∀ c ∈ calls, c.GivesTx → ∃ key a body auth signatures,
    env.keybase.getKey env.config.keyName = some key ∧ answeredAccount env calls = some a ∧
      Carries env body auth signatures c ∧ SignedFor env protoMsgs key a body auth signatures

/-- The account has the same number as sequence, if a transaction can be made for it at all. -/
def NumbersAgree (env : Env N) (protoMsgs : List Any) (calls : List NodeCall) : Prop :=
  ∀ a, answeredAccount env calls = some a →
    ∀ r, simulatedTx env protoMsgs a.sequence = .ok r → a.sequence = a.accountNumber

/-- Documents for different accounts get different signatures. -/
def DistinctSignatures (env : Env N) : Prop :=
  ∀ bodyBytes authInfoBytes m n signature,
    signedDoc env bodyBytes authInfoBytes m = .ok signature →
      signedDoc env bodyBytes authInfoBytes n = .ok signature → m = n

/-! ## What is put into a transaction -/

variable {env : Env N}

theorem signer_ok {seq : UInt64} {info : SignerInfo} (h : signer env seq = .ok info) :
    ∃ key, env.keybase.getKey env.config.keyName = some key ∧ info.sequence = seq ∧
      info.publicKey =
        some ⟨"/cosmos.crypto.secp256k1.PubKey", env.prost.bytes key.publicKey⟩ := by
  obtain ⟨key, hkey, hinfo⟩ := Outcome.bind_eq_ok h
  obtain rfl := Outcome.ok.inj hinfo
  exact ⟨key, Outcome.okOr_eq_ok hkey, rfl, rfl⟩

theorem signedDoc_ok {bodyBytes authInfoBytes : Bytes} {accountNumber : UInt64} {key : KeyEntry}
    (hkey : env.keybase.getKey env.config.keyName = some key) (signature : Bytes) :
    signedDoc env bodyBytes authInfoBytes accountNumber = .ok signature ↔
      env.sign key.privateKey (env.prost.signDoc
        { bodyBytes := bodyBytes, authInfoBytes := authInfoBytes, chainId := env.config.id,
          accountNumber := accountNumber }) = some signature := by
  unfold signedDoc signMsg
  rw [hkey]
  refine ⟨fun h => Outcome.okOr_eq_ok h, fun h => ?_⟩
  exact congrArg (Outcome.okOr Kind.keyBase) h

/-- The simulated transaction is signed with the sequence as the account number. -/
theorem simulatedTx_ok {protoMsgs : List Any} {seq : UInt64} {info : SignerInfo}
    {request : SimulateRequest} (h : simulatedTx env protoMsgs seq = .ok (info, request)) :
    signer env seq = .ok info ∧ ∃ fee signature,
      request =
        ⟨some
          { body := some (txBody protoMsgs), authInfo := some (authInfo info fee),
            signatures := [signature] }⟩ ∧
      signedDoc env (env.prost.txBody (txBody protoMsgs))
        (env.prost.authInfo.encode (authInfo info fee)) seq = .ok signature := by
  obtain ⟨info', hinfo, h⟩ := Outcome.bind_eq_ok h
  obtain ⟨fee, -, h⟩ := Outcome.bind_eq_ok h
  obtain ⟨signature, hsigned, h⟩ := Outcome.bind_eq_ok h
  obtain ⟨rfl, rfl⟩ := Prod.mk.inj (Outcome.ok.inj h)
  exact ⟨hinfo, fee, signature, rfl, hsigned⟩

theorem rawTx_ok {info : SignerInfo} {bodyBuf : Bytes} {gas accountNumber : UInt64} {raw : TxRaw}
    (h : rawTx env info bodyBuf gas accountNumber = .ok raw) :
    ∃ fee signature,
      raw =
        { bodyBytes := bodyBuf, authInfoBytes := env.prost.authInfo.encode (authInfo info fee),
          signatures := [signature] } ∧
      signedDoc env bodyBuf (env.prost.authInfo.encode (authInfo info fee)) accountNumber =
        .ok signature := by
  obtain ⟨fee, -, h⟩ := Outcome.bind_eq_ok h
  obtain ⟨signature, hsigned, h⟩ := Outcome.bind_eq_ok h
  exact ⟨fee, signature, (Outcome.ok.inj h).symm, hsigned⟩

/-- The signer info and a signature over the account number make what is asked for. -/
theorem signedFor_of_signedDoc {protoMsgs : List Any} {a : BaseAccount} {key : KeyEntry}
    {info : SignerInfo} {fee : Fee} {signature : Bytes}
    (hkey : env.keybase.getKey env.config.keyName = some key)
    (hseq : info.sequence = a.sequence)
    (hpublic : info.publicKey =
      some ⟨"/cosmos.crypto.secp256k1.PubKey", env.prost.bytes key.publicKey⟩)
    (hsigned : signedDoc env (env.prost.txBody (txBody protoMsgs))
      (env.prost.authInfo.encode (authInfo info fee)) a.accountNumber = .ok signature) :
    SignedFor env protoMsgs key a (txBody protoMsgs) (authInfo info fee) [signature] where
  messages := rfl
  signer := ⟨info, rfl, hseq, hpublic⟩
  signature := ⟨signature, rfl, (signedDoc_ok hkey signature).mp hsigned⟩

/-! ## The calls -/

theorem Refreshed.no_tx {calls : List NodeCall} {r : Outcome Kind BaseAccount}
    (h : Refreshed env calls r) : ∀ c ∈ calls, ¬ c.GivesTx := by
  cases h <;> simp [NodeCall.GivesTx]

theorem Refreshed.answeredAccount_ok {calls calls' : List NodeCall} {a : BaseAccount}
    (h : Refreshed env calls (.ok a)) : answeredAccount env (calls ++ calls') = some a := by
  cases h with
  | cached hkey hany => exact hany

theorem Refreshed.answeredAccount_failed {calls : List NodeCall} {r : Outcome Kind BaseAccount}
    (h : Refreshed env calls r) (hr : ∀ a, r ≠ .ok a) : answeredAccount env calls = none := by
  cases h with
  | noKey hkey => rfl
  | failed hkey => rfl
  | absent hkey => rfl
  | garbled hkey hany => rfl
  | @noBalance key any a answer hkey hany hanswer =>
    cases answer with
    | error e => rfl
    | ok balance =>
      cases balance with
      | none => rfl
      | some coin => exact absurd rfl (hanswer coin)
  | cached hkey hany => exact absurd rfl (hr _)

/-- The broadcast transaction is signed with the number of the account. -/
theorem Finished.signed {protoMsgs : List Any} {a : BaseAccount} {info : SignerInfo} {gas : UInt64}
    {calls : List NodeCall} {r : Outcome Kind Response} (hinfo : signer env a.sequence = .ok info)
    (h : Finished env info (env.prost.txBody (txBody protoMsgs)) gas a calls r) :
    ∀ c ∈ calls, ∃ key body auth signatures,
      env.keybase.getKey env.config.keyName = some key ∧ Carries env body auth signatures c ∧
        SignedFor env protoMsgs key a body auth signatures := by
  have hbroadcast : ∀ {raw : TxRaw} (answer : Except Unit Response),
      rawTx env info (env.prost.txBody (txBody protoMsgs)) gas a.accountNumber = .ok raw →
      ∃ key body auth signatures, env.keybase.getKey env.config.keyName = some key ∧
        Carries env body auth signatures
          (.broadcastTxSync (env.prost.txRaw.encode raw) answer) ∧
        SignedFor env protoMsgs key a body auth signatures := by
    intro raw answer hraw
    obtain ⟨key, hkey, hseq, hpublic⟩ := signer_ok hinfo
    obtain ⟨fee, signature, rfl, hsigned⟩ := rawTx_ok hraw
    exact ⟨key, _, _, _, hkey, .broadcast answer,
      signedFor_of_signedDoc hkey hseq hpublic hsigned⟩
  cases h with
  | exceeded hgas => exact List.forall_mem_nil _
  | unsigned hgas hraw => exact List.forall_mem_nil _
  | outOfRange hgas hraw => exact List.forall_mem_nil _
  | refused hgas hraw => exact List.forall_mem_singleton.mpr (hbroadcast _ hraw)
  | overflowed hgas hraw hincr => exact List.forall_mem_singleton.mpr (hbroadcast _ hraw)
  | accepted hgas hraw hincr => exact List.forall_mem_singleton.mpr (hbroadcast _ hraw)

/-- The simulated transaction is signed for the account when the numbers agree. -/
theorem simulated_signed {protoMsgs : List Any} {a : BaseAccount} {info : SignerInfo}
    {request : SimulateRequest} (answer : Except Unit SimulateResponse)
    (htx : simulatedTx env protoMsgs a.sequence = .ok (info, request))
    (hnumbers : a.sequence = a.accountNumber) :
    ∃ key body auth signatures, env.keybase.getKey env.config.keyName = some key ∧
      Carries env body auth signatures (.simulate request answer) ∧
      SignedFor env protoMsgs key a body auth signatures := by
  obtain ⟨hinfo, fee, signature, rfl, hsigned⟩ := simulatedTx_ok htx
  obtain ⟨key, hkey, hseq, hpublic⟩ := signer_ok hinfo
  rw [hnumbers] at hsigned
  exact ⟨key, _, _, _, hkey, .simulate answer,
    signedFor_of_signedDoc hkey hseq hpublic hsigned⟩

/-- When the simulated transaction is signed for the account, its signature is at once over the
    sequence and over the account number. -/
theorem numbers_of_simulated_signed (hdistinct : DistinctSignatures env) {protoMsgs : List Any}
    {a : BaseAccount} {info : SignerInfo} {request : SimulateRequest}
    {answer : Except Unit SimulateResponse} {key : KeyEntry} {body : TxBody} {auth : AuthInfo}
    {signatures : List Bytes} (htx : simulatedTx env protoMsgs a.sequence = .ok (info, request))
    (hkey : env.keybase.getKey env.config.keyName = some key)
    (hcarries : Carries env body auth signatures (.simulate request answer))
    (hsigned : SignedFor env protoMsgs key a body auth signatures) :
    a.sequence = a.accountNumber := by
  obtain ⟨-, fee, signature, rfl, hsequence⟩ := simulatedTx_ok htx
  cases hcarries
  obtain ⟨signature', hsignatures, hnumber⟩ := hsigned.signature
  obtain rfl := (List.cons.inj hsignatures).1
  exact hdistinct _ _ _ _ _ hsequence ((signedDoc_ok hkey _).mpr hnumber)

theorem TxRun.signed {protoMsgs : List Any} {calls : List NodeCall} {r : Outcome Kind Response}
    (h : TxRun env protoMsgs calls r) (hnumbers : NumbersAgree env protoMsgs calls) :
    ConsistentlySigned env protoMsgs calls := by
  intro c hc hgives
  cases h with
  | noAccount h => exact absurd hgives (h.no_tx c hc)
  | crashed h => exact absurd hgives (h.no_tx c hc)
  | @sent calls calls' a r h h' =>
    have hanswered : answeredAccount env (calls ++ calls') = some a := h.answeredAccount_ok
    have hsigned : ∃ key body auth signatures,
        env.keybase.getKey env.config.keyName = some key ∧ Carries env body auth signatures c ∧
          SignedFor env protoMsgs key a body auth signatures := by
      rcases List.mem_append.mp hc with hold | hnew
      · exact absurd hgives (h.no_tx c hold)
      cases h' with
      | unsigned htx => exact absurd hnew List.not_mem_nil
      | outOfRange htx => exact absurd hnew List.not_mem_nil
      | simulated htx hfinished =>
        rcases List.mem_cons.mp hnew with rfl | hnew
        · exact simulated_signed _ htx (hnumbers a hanswered _ htx)
        · exact hfinished.signed (simulatedTx_ok htx).1 c hnew
    obtain ⟨key, body, auth, signatures, hkey, hcarries, hfor⟩ := hsigned
    exact ⟨key, a, body, auth, signatures, hkey, hanswered, hcarries, hfor⟩

theorem TxRun.numbersAgree {protoMsgs : List Any} {calls : List NodeCall}
    {r : Outcome Kind Response} (h : TxRun env protoMsgs calls r)
    (hdistinct : DistinctSignatures env) (hsigned : ConsistentlySigned env protoMsgs calls) :
    NumbersAgree env protoMsgs calls := by
  intro a ha tx htx
  cases h with
  | noAccount h =>
    rw [h.answeredAccount_failed fun _ hr => nomatch hr] at ha
    nomatch ha
  | crashed h =>
    rw [h.answeredAccount_failed fun _ hr => nomatch hr] at ha
    nomatch ha
  | @sent calls calls' a' r h h' =>
    have hanswered : answeredAccount env (calls ++ calls') = some a' := h.answeredAccount_ok
    obtain rfl := Option.some.inj (hanswered.symm.trans ha)
    cases h' with
    | unsigned herr => rw [herr] at htx; nomatch htx
    | outOfRange hpanic => rw [hpanic] at htx; nomatch htx
    | @simulated info request answer calls' r htx' hfinished =>
      obtain ⟨key, a, body, auth, signatures, hkey, ha', hcarries, hfor⟩ :=
        hsigned (.simulate request answer) (by simp) trivial
      obtain rfl := Option.some.inj (hanswered.symm.trans ha')
      exact numbers_of_simulated_signed hdistinct htx' hkey hcarries hfor

/-! ## `send_tx` -/

/-- One `send_tx` of the node without a log. -/
theorem txCalls_run (env : Env N) (protoMsgs : List Any) (s : ChainState N) :
    TxRun env protoMsgs (txCalls env protoMsgs s) (sendTx env protoMsgs s).1 := by
  obtain ⟨calls, hlog, hrun⟩ := sendTx_run env protoMsgs (startLog s)
  rw [show sendTx env protoMsgs s = _ from maps_sendTx env protoMsgs (startLog s),
    show txCalls env protoMsgs s = calls from hlog]
  exact hrun

/-- **Headline.**  The transactions of `send_tx` are signed for the account that was queried when
    its sequence is its account number, and otherwise the simulated one is not. -/
theorem consistently_signed_iff (env : Env N) (protoMsgs : List Any) (s : ChainState N) :
    (NumbersAgree env protoMsgs (txCalls env protoMsgs s) →
        ConsistentlySigned env protoMsgs (txCalls env protoMsgs s)) ∧
      (DistinctSignatures env → ConsistentlySigned env protoMsgs (txCalls env protoMsgs s) →
        NumbersAgree env protoMsgs (txCalls env protoMsgs s)) :=
  ⟨fun h => (txCalls_run env protoMsgs s).signed h,
    fun hdistinct h => (txCalls_run env protoMsgs s).numbersAgree hdistinct h⟩

/-- A worker whose signature of a text is the text behind the key. -/
def signEnv (node : Node N) : Env N :=
  { demoEnv node with sign := fun privateKey msg => some (privateKey ++ msg) }

theorem signDoc_wire_inj {doc doc' : SignDoc}
    (h : Prost.wire.signDoc doc = Prost.wire.signDoc doc') :
    doc.accountNumber = doc'.accountNumber := by
  have hfields : doc.fields = doc'.fields := by
    have hparse := congrArg Protobuf.parse h
    simpa [Prost.wire] using hparse
  have hpick := congrArg (Protobuf.pick 4 Protobuf.uint64) hfields
  simpa [SignDoc.fields, Protobuf.pick] using hpick

theorem signEnv_distinct (node : Node N) : DistinctSignatures (signEnv node) := by
  intro bodyBytes authInfoBytes m n signature hm hn
  have hkey : (signEnv node).keybase.getKey (signEnv node).config.keyName = some demoKey := rfl
  have htexts := ((signedDoc_ok hkey signature).mp hm).trans
    ((signedDoc_ok hkey signature).mp hn).symm
  exact signDoc_wire_inj (List.append_cancel_left (Option.some.inj htexts))

/-- Four transactions are on the chain, or none, and the number of the account is four. -/
theorem consistently_signed_at_four :
    ConsistentlySigned (signEnv commitNode) demoMsgs
        (txCalls (signEnv commitNode) demoMsgs ⟨none, [[], [], [], []]⟩) ∧
      (ConsistentlySigned (signEnv commitNode) demoMsgs
          (txCalls (signEnv commitNode) demoMsgs ⟨none, []⟩) →
        NumbersAgree (signEnv commitNode) demoMsgs
          (txCalls (signEnv commitNode) demoMsgs ⟨none, []⟩)) := by
  refine ⟨(consistently_signed_iff _ _ _).1 fun a ha r hr => ?_,
    (consistently_signed_iff _ _ _).2 (signEnv_distinct commitNode)⟩
  have hanswered : answeredAccount (signEnv commitNode)
      (txCalls (signEnv commitNode) demoMsgs ⟨none, [[], [], [], []]⟩) =
        some ⟨"cosmos1abc", none, 4, 4⟩ := by
    decide +kernel
  obtain rfl := Option.some.inj (hanswered.symm.trans ha)
  rfl

/-- Account number 4 and sequence 0: the simulated transaction is signed for account 0. -/
theorem simulation_signed_with_sequence :
    ¬ ∀ (env : Env (List Bytes)) (protoMsgs : List Any) (s : ChainState (List Bytes)),
      ConsistentlySigned env protoMsgs (txCalls env protoMsgs s) := by
  intro h
  have hanswered : answeredAccount (signEnv commitNode)
      (txCalls (signEnv commitNode) demoMsgs ⟨none, []⟩) = some ⟨"cosmos1abc", none, 4, 0⟩ := by
    decide +kernel
  have htx : (simulatedTx (signEnv commitNode) demoMsgs 0).isOk = true := by
    decide +kernel
  obtain ⟨r, hr⟩ := Outcome.isOk_iff.mp htx
  have hnumbers := (txCalls_run (signEnv commitNode) demoMsgs ⟨none, []⟩).numbersAgree
    (signEnv_distinct commitNode) (h _ _ _) _ hanswered r hr
  exact absurd hnumbers (by decide)

end OffChainWorker.Cosmos
