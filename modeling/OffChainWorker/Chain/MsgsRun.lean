/-
  One `send_msgs` as a run of calls of the node.

  The log of a `send_msgs` is a piece for each batch that reached `send_tx`, which is a `TxRun`,
  followed by the searches of `wait_for_block_commits` (`MsgsRun`).  A piece holds at most one
  broadcast, and one for sure when its `send_tx` returned; so the broadcasts of a `send_msgs` carry
  the first batches of its messages, and all of them when it returned events.
-/
import OffChainWorker.Chain.Batching
import OffChainWorker.Chain.Panics
import OffChainWorker.Lib.Lists

namespace OffChainWorker.Cosmos

open Proc

variable {N : Type} (env : Env N)

/-! ## The runs of `send_msgs` -/

/-- The call looks a transaction up. -/
def NodeCall.isTxSearch : NodeCall → Bool
  | .txSearch _ _ => true
  | _ => false

/-- A call of `send_tx`, with the calls it makes of the node. -/
def BatchRun (env : Env N) (sent : List Any × Outcome Kind Response) (calls : List NodeCall) :
    Prop :=
  TxRun env sent.1 calls sent.2

/-- What the calls of `send_tx` have to do with the messages and with what `send_msgs` comes to. -/
structure Dispatched (env : Env N) (protoMsgs : List Any)
    (sent : List (List Any × Outcome Kind Response)) (out : Outcome Kind (List Event)) : Prop where
  front : sent.map Prod.fst <+: batches env protoMsgs
  returned : ∀ c ∈ sent.dropLast, ∃ response, c.2 = .ok response
  complete : ∀ events, out = .ok events →
    sent.map Prod.fst = batches env protoMsgs ∧ ∀ c ∈ sent, ∃ response, c.2 = .ok response
  panicked : out = .panic ↔ ∃ c ∈ sent, c.2 = .panic

/-- One `send_msgs`. -/
def MsgsRun (env : Env N) (protoMsgs : List Any) (calls : List NodeCall)
    (out : Outcome Kind (List Event)) : Prop :=
  ∃ sent pieces searches, calls = List.flatten pieces ++ searches ∧
    List.Forall₂ (BatchRun env) sent pieces ∧ (∀ c ∈ searches, c.isTxSearch = true) ∧
    Dispatched env protoMsgs sent out

/-- Waiting puts searches to the log. -/
theorem awaitCommits_run (results : List TxSyncResult) (s : ChainState (N × List NodeCall)) :
    ∃ searches, (awaitCommits env.logged results s).2.node.2 = s.node.2 ++ searches ∧
      (∀ c ∈ searches, c.isTxSearch = true) ∧ (awaitCommits env.logged results s).1 ≠ .panic := by
  have hquery : ∀ hash (n : N × List NodeCall),
      (∃ searches, n.2 = s.node.2 ++ searches ∧ ∀ c ∈ searches, c.isTxSearch = true) →
      ∃ searches, (queryEventsFromTxs env.logged hash n).2.2 = s.node.2 ++ searches ∧
        ∀ c ∈ searches, c.isTxSearch = true := by
    rintro hash n ⟨searches, hlog, hsearches⟩
    refine ⟨searches ++ [.txSearch hash (env.node.txSearch hash n.1).1], ?_, ?_⟩
    · rw [queryEventsFromTxs_node, ← List.append_assoc, ← hlog]
      rfl
    · intro c hc
      rcases List.mem_append.mp hc with hc | hc
      · exact hsearches c hc
      · rw [List.mem_singleton.mp hc]
        rfl
  obtain ⟨searches, hlog, hsearches⟩ := waitForBlockCommits_keeps env.logged hquery results
    ⟨[], (List.append_nil _).symm, List.forall_mem_nil _⟩
  unfold awaitCommits
  cases hwait : waitForBlockCommits env.logged (queryEventsFromTxs env.logged) results s.node with
  | mk r n =>
    rw [hwait] at hlog
    cases r with
    | ok results => exact ⟨searches, hlog, hsearches, nofun⟩
    | error kind => exact ⟨searches, hlog, hsearches, nofun⟩

/-- What follows the sending: waiting, and the events of what was waited for. -/
theorem awaitEvents_run (results : List TxSyncResult) (s : ChainState (N × List NodeCall)) :
    let x := awaitCommits env.logged results >>= fun results =>
      (pure (results.flatMap TxSyncResult.events) : ChainM (N × List NodeCall) (List Event))
    ∃ searches, (x s).2.node.2 = s.node.2 ++ searches ∧
      (∀ c ∈ searches, c.isTxSearch = true) ∧ (x s).1 ≠ .panic := by
  intro x
  obtain ⟨searches, hlog, hsearches, hwait⟩ := awaitCommits_run env results s
  have hx : x s = ((awaitCommits env.logged results s).1 >>= fun results =>
      pure (results.flatMap TxSyncResult.events), (awaitCommits env.logged results s).2) :=
    Action.bind_lift_run (awaitCommits env.logged results)
      (fun results : List TxSyncResult => pure (results.flatMap TxSyncResult.events)) s
  rw [hx]
  refine ⟨searches, hlog, hsearches, Outcome.bind_ne_panic.mpr ⟨hwait, fun results _ => ?_⟩⟩
  exact Outcome.ok_ne_panic _

/-- The sending part: the calls of `send_tx`, with what the node was asked in each. -/
theorem sendBatches_run (protoMsgs : List Any) (s : ChainState (N × List NodeCall)) :
    sendBatches env.logged protoMsgs 0 0 [] [] s =
        Action.callEach (sendTx env.logged) remember (batches env protoMsgs) [] s ∧
      ∃ pieces, (sendBatches env.logged protoMsgs 0 0 [] [] s).2.node.2 =
          s.node.2 ++ List.flatten pieces ∧
        List.Forall₂ (BatchRun env)
          (Action.callsOf (sendTx env.logged) (batches env protoMsgs) s) pieces := by
  have heq : sendBatches env.logged protoMsgs 0 0 [] [] s =
      Action.callEach (sendTx env.logged) remember (batches env protoMsgs) [] s := by
    rw [← sendBatchesVia_sendTx, sendBatchesVia_eq]
    rfl
  have hsend : ∀ msgBatch (s : ChainState (N × List NodeCall)), ∃ calls,
      (sendTx env.logged msgBatch s).2.node.2 = s.node.2 ++ calls ∧
        BatchRun env (msgBatch, (sendTx env.logged msgBatch s).1) calls :=
    fun msgBatch s => sendTx_run env msgBatch s
  refine ⟨heq, ?_⟩
  rw [heq]
  exact Action.callEach_log (fun s => s.node.2) (BatchRun env) hsend remember _ [] s

/-- **Run lemma.**  One `send_msgs` adds its calls to the log, and they are one of the runs. -/
theorem sendMsgs_run (protoMsgs : List Any) (s : ChainState (N × List NodeCall)) :
    ∃ calls, (sendMsgs env.logged protoMsgs s).2.node.2 = s.node.2 ++ calls ∧
      MsgsRun env protoMsgs calls (sendMsgs env.logged protoMsgs s).1 := by
  unfold sendMsgs
  by_cases hempty : protoMsgs.isEmpty = true
  · rw [if_pos hempty, List.isEmpty_iff.mp hempty]
    refine ⟨[], (List.append_nil _).symm, [], [], [], rfl, .nil, List.forall_mem_nil _, ?_⟩
    exact ⟨List.prefix_refl _, List.forall_mem_nil _, fun _ _ => ⟨rfl, List.forall_mem_nil _⟩,
      iff_of_false nofun nofun⟩
  rw [if_neg hempty]
  obtain ⟨hsend, pieces, hlog, hpieces⟩ := sendBatches_run env protoMsgs s
  have hfront : (Action.callsOf (sendTx env.logged) (batches env protoMsgs) s).map Prod.fst <+:
      batches env protoMsgs := Action.callsOf_inputs _ _ s
  have hreturned : ∀ c ∈ (Action.callsOf (sendTx env.logged) (batches env protoMsgs) s).dropLast,
      ∃ response, c.2 = .ok response := Action.callsOf_dropLast _ s
  have hpanic : (sendBatches env.logged protoMsgs 0 0 [] [] s).1 = .panic ↔
      ∃ c ∈ Action.callsOf (sendTx env.logged) (batches env protoMsgs) s, c.2 = .panic := by
    rw [hsend]
    exact (Action.callEach_stopped remember _ [] s).1
  rw [Action.bind_run]
  cases hrun : sendBatches env.logged protoMsgs 0 0 [] [] s with
  | mk r s₁ =>
    rw [hrun] at hlog hsend hpanic
    cases r with
    | ok results =>
      obtain ⟨hok, -⟩ := Action.callsOf_of_callEach_ok hsend.symm
      have hall := (Action.callEach_ok remember hok []).1
      obtain ⟨searches, hlog', hsearches, hwait⟩ := awaitEvents_run env results s₁
      refine ⟨pieces.flatten ++ searches, ?_, _, pieces, searches, rfl, hpieces, hsearches,
        hfront, hreturned, fun _ _ => ⟨hall, hok⟩, iff_of_false hwait fun h => ?_⟩
      · rw [← List.append_assoc, ← hlog]
        exact hlog'
      · cases hpanic.mpr h
    | err kind =>
      exact ⟨pieces.flatten, hlog, _, pieces, [], (List.append_nil _).symm, hpieces,
        List.forall_mem_nil _, hfront, hreturned, nofun,
        iff_of_false nofun fun h => nomatch hpanic.mpr h⟩
    | panic =>
      exact ⟨pieces.flatten, hlog, _, pieces, [], (List.append_nil _).symm, hpieces,
        List.forall_mem_nil _, hfront, hreturned, nofun, iff_of_true rfl (hpanic.mp rfl)⟩

/-! ## The broadcasts -/

def broadcasts (calls : List NodeCall) : List NodeCall := calls.filter NodeCall.isBroadcast

/-- The call broadcasts a transaction with the messages of a batch, signed by the configured key
    for the account `a`, with at most the maximum of gas. -/
def BroadcastFor (a : BaseAccount) (msgBatch : List Any) (c : NodeCall) : Prop :=
  ∃ key auth signatures fee, env.keybase.getKey env.config.keyName = some key ∧
    Carries env (txBody msgBatch) auth signatures c ∧
    SignedFor env msgBatch key a (txBody msgBatch) auth signatures ∧
    auth.fee = some fee ∧ fee.gasLimit ≤ maxGas env

variable {env}

theorem feeWithGas_le {gas : UInt64} {fee : Fee} (h : feeWithGas env gas = .ok fee) :
    fee.gasLimit ≤ maxGas env := by
  obtain ⟨adjusted, hadjusted, h⟩ := Outcome.bind_eq_ok h
  obtain ⟨amount, -, h⟩ := Outcome.bind_eq_ok h
  obtain ⟨default, -, h⟩ := Outcome.bind_eq_ok h
  obtain rfl := Outcome.ok.inj h
  exact applyAdjustmentToGas_le env hadjusted

theorem rawTx_broadcast {msgBatch : List Any} {a : BaseAccount} {info : SignerInfo} {gas : UInt64}
    {raw : TxRaw} (hinfo : signer env a.sequence = .ok info)
    (hraw : rawTx env info (env.prost.txBody (txBody msgBatch)) gas a.accountNumber = .ok raw)
    (answer : Except Unit Response) :
    BroadcastFor env a msgBatch (.broadcastTxSync (env.prost.txRaw.encode raw) answer) := by
  obtain ⟨key, hkey, hseq, hpublic⟩ := signer_ok hinfo
  obtain ⟨fee, hfee, h⟩ := Outcome.bind_eq_ok hraw
  obtain ⟨signature, hsigned, h⟩ := Outcome.bind_eq_ok h
  obtain rfl := Outcome.ok.inj h
  exact ⟨key, authInfo info fee, [signature], fee, hkey, .broadcast answer,
    signedFor_of_signedDoc hkey hseq hpublic hsigned, rfl, feeWithGas_le hfee⟩

/-- At most one broadcast comes after the estimate, and one for sure before a response. -/
theorem Finished.broadcasts {msgBatch : List Any} {a : BaseAccount} {info : SignerInfo}
    {gas : UInt64} {calls : List NodeCall} {r : Outcome Kind Response}
    (hinfo : signer env a.sequence = .ok info)
    (h : Finished env info (env.prost.txBody (txBody msgBatch)) gas a calls r) :
    (Cosmos.broadcasts calls = [] ∧ ∀ response, r ≠ .ok response) ∨
      ∃ c, Cosmos.broadcasts calls = [c] ∧ BroadcastFor env a msgBatch c := by
  cases h with
  | exceeded _ => exact .inl ⟨rfl, nofun⟩
  | unsigned _ _ => exact .inl ⟨rfl, nofun⟩
  | outOfRange _ _ => exact .inl ⟨rfl, nofun⟩
  | refused _ hraw => exact .inr ⟨_, rfl, rawTx_broadcast hinfo hraw _⟩
  | overflowed _ hraw _ => exact .inr ⟨_, rfl, rawTx_broadcast hinfo hraw _⟩
  | accepted _ hraw _ => exact .inr ⟨_, rfl, rawTx_broadcast hinfo hraw _⟩

theorem Refreshed.no_broadcasts {calls : List NodeCall} {r : Outcome Kind BaseAccount}
    (h : Refreshed env calls r) : broadcasts calls = [] := by
  cases h <;> rfl

/-- **Run lemma** of `send_tx`. -/
theorem TxRun.broadcasts {msgBatch : List Any} {calls : List NodeCall} {r : Outcome Kind Response}
    (h : TxRun env msgBatch calls r) :
    (Cosmos.broadcasts calls = [] ∧ ∀ response, r ≠ .ok response) ∨
      ∃ a c, Cosmos.broadcasts calls = [c] ∧ BroadcastFor env a msgBatch c := by
  cases h with
  | noAccount h => exact .inl ⟨h.no_broadcasts, nofun⟩
  | crashed h => exact .inl ⟨h.no_broadcasts, nofun⟩
  | @sent calls calls' a _ h h' =>
    have happend : Cosmos.broadcasts (calls ++ calls') = Cosmos.broadcasts calls' := by
      rw [Cosmos.broadcasts, List.filter_append]
      exact congrArg (· ++ _) h.no_broadcasts
    rw [happend]
    cases h' with
    | unsigned _ => exact .inl ⟨rfl, nofun⟩
    | outOfRange _ => exact .inl ⟨rfl, nofun⟩
    | simulated htx hfinished =>
      rcases hfinished.broadcasts (simulatedTx_ok htx).1 with hnone | ⟨c, hcalls, hc⟩
      · exact .inl hnone
      · exact .inr ⟨a, c, hcalls, hc⟩

/-- The broadcasts, in order, are for these batches. -/
def BroadcastBatches (env : Env N) (calls : List NodeCall) (sent : List (List Any)) : Prop :=
  List.Forall₂ (fun msgBatch c => ∃ a, BroadcastFor env a msgBatch c) sent (broadcasts calls)

theorem broadcastBatches_nil : BroadcastBatches env [] [] := .nil

theorem BroadcastBatches.append {calls calls' : List NodeCall} {sent sent' : List (List Any)}
    (h : BroadcastBatches env calls sent) (h' : BroadcastBatches env calls' sent') :
    BroadcastBatches env (calls ++ calls') (sent ++ sent') := by
  unfold BroadcastBatches broadcasts
  rw [List.filter_append]
  exact List.rel_append h h'

/-- Searches are no broadcasts. -/
theorem broadcasts_searches {calls : List NodeCall} (h : ∀ c ∈ calls, c.isTxSearch = true) :
    broadcasts calls = [] := by
  refine List.filter_eq_nil_iff.mpr fun c hc => ?_
  cases c with
  | txSearch _ _ => exact Bool.false_ne_true
  | _ => cases h _ hc

theorem broadcastBatches_searches {calls : List NodeCall}
    (h : ∀ c ∈ calls, c.isTxSearch = true) : BroadcastBatches env calls [] := by
  unfold BroadcastBatches
  rw [broadcasts_searches h]
  exact .nil

theorem TxRun.broadcastBatches {msgBatch : List Any} {calls : List NodeCall}
    {r : Outcome Kind Response} (h : TxRun env msgBatch calls r) :
    BroadcastBatches env calls [msgBatch] ∨
      BroadcastBatches env calls [] ∧ ∀ response, r ≠ .ok response := by
  unfold BroadcastBatches
  rcases h.broadcasts with ⟨hnone, hr⟩ | ⟨a, c, hcalls, hc⟩
  · rw [hnone]
    exact .inr ⟨.nil, hr⟩
  · rw [hcalls]
    exact .inl (.cons ⟨a, hc⟩ .nil)

/-- The pieces of the log that belong to the calls of `send_tx`. -/
theorem pieces_broadcasts {sent : List (List Any × Outcome Kind Response)}
    {pieces : List (List NodeCall)} (h : List.Forall₂ (BatchRun env) sent pieces)
    (hreturned : ∀ c ∈ sent.dropLast, ∃ response, c.2 = .ok response) :
    ∃ front, BroadcastBatches env pieces.flatten front ∧ front <+: sent.map Prod.fst ∧
      ((∀ c ∈ sent, ∃ response, c.2 = .ok response) → front = sent.map Prod.fst) := by
  induction h with
  | nil => exact ⟨[], broadcastBatches_nil, List.prefix_refl _, fun _ => rfl⟩
  | @cons c piece sent pieces hc hrest ih =>
    have hrun : TxRun env c.1 piece c.2 := hc
    by_cases hok : ∃ response, c.2 = .ok response
    · obtain ⟨response, hresponse⟩ := hok
      obtain ⟨front, hfront, hfirst, hall⟩ := ih fun c' hc' => by
        have hne : sent ≠ [] := fun hnil => by rw [hnil] at hc'; exact absurd hc' List.not_mem_nil
        refine hreturned c' ?_
        rw [List.dropLast_cons_of_ne_nil hne]
        exact List.mem_cons_of_mem _ hc'
      have hone : BroadcastBatches env piece [c.1] := by
        rcases hrun.broadcastBatches with hone | ⟨-, hr⟩
        · exact hone
        · exact absurd hresponse (hr response)
      refine ⟨c.1 :: front, hone.append hfront, List.cons_prefix_cons.mpr ⟨rfl, hfirst⟩, ?_⟩
      intro hevery
      exact congrArg (c.1 :: ·) (hall fun c' hc' => hevery c' (List.mem_cons_of_mem _ hc'))
    · -- nothing is handed to `send_tx` after a call that did not return
      have hlast : sent = [] := by
        cases sent with
        | nil => rfl
        | cons c' rest => exact absurd (hreturned c List.mem_cons_self) hok
      subst hlast
      cases hrest
      rw [show [piece].flatten = piece from List.append_nil piece]
      rcases hrun.broadcastBatches with hone | ⟨hnone, -⟩
      · exact ⟨[c.1], hone, List.prefix_refl _, fun _ => rfl⟩
      · exact ⟨[], hnone, List.nil_prefix, fun h => absurd (h c List.mem_cons_self) hok⟩

/-- **Run lemma** of `send_msgs`: the first batches are broadcast, and all of them when it returns
    events. -/
theorem MsgsRun.broadcasts {protoMsgs : List Any} {calls : List NodeCall}
    {out : Outcome Kind (List Event)} (h : MsgsRun env protoMsgs calls out) :
    ∃ front, BroadcastBatches env calls front ∧ front <+: batches env protoMsgs ∧
      ∀ events, out = .ok events → front = batches env protoMsgs := by
  obtain ⟨sent, pieces, searches, rfl, hpieces, hsearches, hdispatched⟩ := h
  obtain ⟨front, hfront, hfirst, hall⟩ := pieces_broadcasts hpieces hdispatched.returned
  have hcalls := hfront.append (broadcastBatches_searches hsearches)
  rw [List.append_nil] at hcalls
  refine ⟨front, hcalls, hfirst.trans hdispatched.front, fun events hout => ?_⟩
  obtain ⟨hsent, hok⟩ := hdispatched.complete events hout
  rw [hall hok, hsent]

/-! ## The account that a broadcast is signed for -/

/-- The account that the node has answered with last, if nothing was broadcast since. -/
def NodeCall.freshAfter (env : Env N) (last : Option BaseAccount) : NodeCall → Option BaseAccount
  | .account _ (.ok (some any)) => env.prost.baseAccount.decode any.value
  | .broadcastTxSync _ _ => none
  | _ => last

/-- A broadcast is signed for that account. -/
def SignedForFresh (env : Env N) (last : Option BaseAccount) (c : NodeCall) : Prop :=
  c.isBroadcast = true → ∃ a msgBatch, last = some a ∧ BroadcastFor env a msgBatch c

/-- Every broadcast is. -/
def SignedForLatest (env : Env N) (last : Option BaseAccount) (calls : List NodeCall) : Prop :=
  Along (NodeCall.freshAfter env) (SignedForFresh env) last calls

theorem signedForLatest_of_no_broadcasts {calls : List NodeCall} (h : broadcasts calls = [])
    (last : Option BaseAccount) : SignedForLatest env last calls :=
  along_of_forall fun c hc _ hbroadcast =>
    absurd hbroadcast (List.filter_eq_nil_iff.mp h c hc)

theorem Refreshed.freshAfter {calls : List NodeCall} {a : BaseAccount}
    (h : Refreshed env calls (.ok a)) (last : Option BaseAccount) :
    calls.foldl (NodeCall.freshAfter env) last = some a := by
  cases h with
  | cached hkey hany => exact hany

theorem Finished.signedForLatest {msgBatch : List Any} {a : BaseAccount} {info : SignerInfo}
    {gas : UInt64} {calls : List NodeCall} {r : Outcome Kind Response}
    (hinfo : signer env a.sequence = .ok info)
    (h : Finished env info (env.prost.txBody (txBody msgBatch)) gas a calls r) :
    SignedForLatest env (some a) calls := by
  have hone : ∀ {raw : TxRaw} (answer : Except Unit Response),
      rawTx env info (env.prost.txBody (txBody msgBatch)) gas a.accountNumber = .ok raw →
      SignedForLatest env (some a) [.broadcastTxSync (env.prost.txRaw.encode raw) answer] :=
    fun answer hraw => ⟨fun _ => ⟨a, msgBatch, rfl, rawTx_broadcast hinfo hraw answer⟩, trivial⟩
  cases h with
  | exceeded _ => trivial
  | unsigned _ _ => trivial
  | outOfRange _ _ => trivial
  | refused _ hraw => exact hone _ hraw
  | overflowed _ hraw _ => exact hone _ hraw
  | accepted _ hraw _ => exact hone _ hraw

theorem TxRun.signedForLatest {msgBatch : List Any} {calls : List NodeCall}
    {r : Outcome Kind Response} (h : TxRun env msgBatch calls r) (last : Option BaseAccount) :
    SignedForLatest env last calls := by
  cases h with
  | noAccount h => exact signedForLatest_of_no_broadcasts h.no_broadcasts last
  | crashed h => exact signedForLatest_of_no_broadcasts h.no_broadcasts last
  | sent h h' =>
    refine along_append.mpr ⟨signedForLatest_of_no_broadcasts h.no_broadcasts last, ?_⟩
    rw [h.freshAfter last]
    cases h' with
    | unsigned _ => trivial
    | outOfRange _ => trivial
    | simulated htx hfinished =>
      exact ⟨nofun, hfinished.signedForLatest (simulatedTx_ok htx).1⟩

/-- Pieces put together, when each is signed whatever came before. -/
theorem signedForLatest_flatten {pieces : List (List NodeCall)}
    (h : ∀ calls ∈ pieces, ∀ last, SignedForLatest env last calls) (last : Option BaseAccount) :
    SignedForLatest env last pieces.flatten := by
  induction pieces generalizing last with
  | nil => trivial
  | cons calls pieces ih =>
    refine along_append.mpr ⟨h calls List.mem_cons_self last, ih (fun calls' hcalls' => ?_) _⟩
    exact h calls' (List.mem_cons_of_mem _ hcalls')

theorem MsgsRun.signedForLatest {protoMsgs : List Any} {calls : List NodeCall}
    {out : Outcome Kind (List Event)} (h : MsgsRun env protoMsgs calls out)
    (last : Option BaseAccount) : SignedForLatest env last calls := by
  obtain ⟨sent, pieces, searches, rfl, hpieces, hsearches, -⟩ := h
  have hsigned : ∀ calls ∈ pieces, ∀ last, SignedForLatest env last calls := by
    intro calls hcalls
    induction hpieces with
    | nil => exact absurd hcalls List.not_mem_nil
    | @cons c piece _ _ hrun _ ih =>
      have hrun' : TxRun env c.1 piece c.2 := hrun
      rcases List.mem_cons.mp hcalls with rfl | hcalls
      · exact hrun'.signedForLatest
      · exact ih hcalls
  exact along_append.mpr ⟨signedForLatest_flatten hsigned last,
    signedForLatest_of_no_broadcasts (broadcasts_searches hsearches) _⟩

end OffChainWorker.Cosmos
