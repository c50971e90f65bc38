/-
  What a request costs the node.

  Sending a batch asks the node four things at most: the account, its balance, an estimate and to
  take the transaction.  Then the transactions are looked up, in every try of
  `wait_for_block_commits`; since no lookup ever finds events, an accepted transaction is looked up
  again in each of the tries, whatever the node has answered, and one that was refused in none.  So
  the lookups of a request are as many rounds over its accepted transactions as there are tries.
-/
import OffChainWorker.Chain.Delivery
import OffChainWorker.Chain.Timeouts

namespace OffChainWorker.Cosmos

open Proc

variable {N : Type} (env : Env N)

/-! ## One try -/

/-- The call looks a transaction up. -/
def SearchFor (hash : Hash) (c : NodeCall) : Prop := ∃ answer, c = .txSearch hash answer

/-- The log grows by lookups of these transactions, in this order. -/
def Looked (before after : List NodeCall) (hashes : List Hash) : Prop :=
  ∃ searches, after = before ++ searches ∧ List.Forall₂ SearchFor hashes searches

theorem Looked.refl (log : List NodeCall) : Looked log log [] :=
  ⟨[], (List.append_nil _).symm, .nil⟩

theorem Looked.trans {log log' log'' : List NodeCall} {hashes hashes' : List Hash}
    (h : Looked log log' hashes) (h' : Looked log' log'' hashes') :
    Looked log log'' (hashes ++ hashes') := by
  obtain ⟨searches, rfl, hsearches⟩ := h
  obtain ⟨searches', rfl, hsearches'⟩ := h'
  exact ⟨searches ++ searches', List.append_assoc .., List.rel_append hsearches hsearches'⟩

theorem query_looked (hash : Hash) (n : N × List NodeCall) :
    Looked n.2 (queryEventsFromTxs env.logged hash n).2.2 [hash] := by
  rw [queryEventsFromTxs_node]
  exact ⟨[.txSearch hash (env.node.txSearch hash n.1).1], rfl, .cons ⟨_, rfl⟩ .nil⟩

/-- One turn of the `for` loop. -/
theorem resolve_looked (r : TxSyncResult) (n : N × List NodeCall) :
    Looked n.2 (resolve env.logged (queryEventsFromTxs env.logged) r n).2.2 r.awaited.toList := by
  unfold resolve TxSyncResult.awaited
  by_cases hempty : emptyEventPresent r.events = true
  · rw [if_pos hempty]
    by_cases hcode : r.response.code.value = 0
    · rw [if_neg (not_not_intro hcode), if_pos ⟨hempty, hcode⟩]
      have hquery := query_looked env r.response.hash n
      cases hrun : queryEventsFromTxs env.logged r.response.hash n with
      | mk answer n' =>
        rw [hrun] at hquery
        cases answer <;> exact hquery
    · rw [if_pos hcode, if_neg fun h => hcode h.2]
      exact .refl _
  · rw [if_neg hempty, if_neg fun h => hempty h.1]
    exact .refl _

/-- **Step lemma.**  One run of the `for` loop. -/
theorem resolveAll_looked (results : List TxSyncResult) (n : N × List NodeCall) :
    Looked n.2 (resolveAll env.logged (queryEventsFromTxs env.logged) results n).2.2
      (awaited results) := by
  induction results generalizing n with
  | nil => exact .refl _
  | cons r rest ih =>
    have hrest := (resolve_looked env r n).trans
      (ih (resolve env.logged (queryEventsFromTxs env.logged) r n).2)
    rw [awaited_cons]
    exact hrest

/-! ## All tries -/

/-- **Run lemma.**  Every run of the `for` loop looks up the same transactions. -/
theorem passes_looked (k : Nat) (results : List TxSyncResult) (n : N × List NodeCall) :
    Looked n.2 (passes env.logged (queryEventsFromTxs env.logged) k (results, n)).2.2
      (List.replicate k (awaited results)).flatten := by
  induction k generalizing results n with
  | zero => exact .refl _
  | succ k ih =>
    rw [passes_succ, List.replicate_succ, List.flatten_cons]
    have hfirst := resolveAll_looked env results n
    have hsettled := resolveAll_silent env.logged (queryEventsFromTxs_silent env.logged) results n
    have hrest := ih (results.map (settle env.logged))
      (resolveAll env.logged (queryEventsFromTxs env.logged) results n).2
    rw [awaited_map_settle, ← hsettled] at hrest
    exact hfirst.trans hrest

/-- The tries of `wait_for_block_commits`: one for each delay, and the last one. -/
def tries : Nat := commitCount env.config.rpcTimeout + 1

theorem wait_looked (results : List TxSyncResult) (n : N × List NodeCall) :
    Looked n.2 (waitForBlockCommits env.logged (queryEventsFromTxs env.logged) results n).2.2
      (List.replicate (tries env) (awaited results)).flatten := by
  rw [waitForBlockCommits_state, length_commitDelays]
  exact passes_looked env (tries env) results n

/-! ## The sending -/

/-- The response to a broadcast. -/
def NodeCall.response : NodeCall → Option Response
  | .broadcastTxSync _ (.ok response) => some response
  | _ => none

/-- The responses to the broadcasts among some calls. -/
def responses (calls : List NodeCall) : List Response := calls.filterMap NodeCall.response

theorem responses_append (calls calls' : List NodeCall) :
    responses (calls ++ calls') = responses calls ++ responses calls' :=
  List.filterMap_append

/-- The transactions that were accepted. -/
def accepted (answers : List Response) : List Hash :=
  (answers.filter fun response => response.code.value = 0).map Response.hash

/-- The calls of one `send_tx`: four at most, no lookup, and a response unless it failed. -/
structure TxLoad (calls : List NodeCall) (r : Outcome Kind Response) : Prop where
  length : calls.length ≤ 4
  noSearch : ∀ c ∈ calls, c.isTxSearch = false
  returned : ∀ response, r = .ok response → responses calls = [response]
  failed : ∀ kind, r = .err kind → responses calls = []
  once : (responses calls).length ≤ 1

theorem TxLoad.failed_at_once (kind : Kind) : TxLoad [] (.err kind) :=
  ⟨Nat.zero_le 4, List.forall_mem_nil _, nofun, fun _ _ => rfl, Nat.zero_le 1⟩

theorem TxLoad.panicked_at_once : TxLoad [] .panic :=
  ⟨Nat.zero_le 4, List.forall_mem_nil _, nofun, nofun, Nat.zero_le 1⟩

/-- Calls before the estimate, of which none is a broadcast. -/
theorem TxLoad.after {calls calls' : List NodeCall} {r : Outcome Kind Response}
    (h : TxLoad calls' r) (hlength : (calls ++ calls').length ≤ 4)
    (hsearch : ∀ c ∈ calls, c.isTxSearch = false) (hnone : responses calls = []) :
    TxLoad (calls ++ calls') r := by
  have hresponses : responses (calls ++ calls') = responses calls' := by
    rw [responses_append, hnone, List.nil_append]
  refine ⟨hlength, fun c hc => ?_, ?_, ?_, ?_⟩
  · rcases List.mem_append.mp hc with hc | hc
    · exact hsearch c hc
    · exact h.noSearch c hc
  · rw [hresponses]
    exact h.returned
  · rw [hresponses]
    exact h.failed
  · rw [hresponses]
    exact h.once

variable {env}

theorem Finished.load {info : SignerInfo} {bodyBuf : Bytes} {gas : UInt64} {a : BaseAccount}
    {calls : List NodeCall} {r : Outcome Kind Response}
    (h : Finished env info bodyBuf gas a calls r) : calls.length ≤ 1 ∧ TxLoad calls r := by
  cases h with
  | exceeded _ => exact ⟨Nat.zero_le 1, .failed_at_once _⟩
  | unsigned _ _ => exact ⟨Nat.zero_le 1, .failed_at_once _⟩
  | outOfRange _ _ => exact ⟨Nat.zero_le 1, .panicked_at_once⟩
  | refused _ _ =>
    exact ⟨Nat.le_refl 1, by simp, by simp [NodeCall.isTxSearch], nofun, fun _ _ => rfl,
      Nat.zero_le 1⟩
  | overflowed _ _ _ =>
    exact ⟨Nat.le_refl 1, by simp, by simp [NodeCall.isTxSearch], nofun, nofun, Nat.le_refl 1⟩
  | accepted _ _ _ =>
    refine ⟨Nat.le_refl 1, by simp, by simp [NodeCall.isTxSearch], fun response hr => ?_, nofun,
      Nat.le_refl 1⟩
    obtain rfl := Outcome.ok.inj hr
    rfl

theorem Refreshed.load {calls : List NodeCall} {r : Outcome Kind BaseAccount}
    (h : Refreshed env calls r) : calls.length ≤ 2 ∧ (∀ c ∈ calls, c.isTxSearch = false) ∧
      responses calls = [] := by
  cases h <;> simp [NodeCall.isTxSearch, responses, NodeCall.response]

/-- **Run lemma** of `send_tx`. -/
theorem TxRun.load {msgBatch : List Any} {calls : List NodeCall} {r : Outcome Kind Response}
    (h : TxRun env msgBatch calls r) : TxLoad calls r := by
  cases h with
  | @noAccount calls kind h =>
    obtain ⟨hlength, hsearch, hnone⟩ := h.load
    have hload := (TxLoad.failed_at_once kind).after (by simp; omega) hsearch hnone
    rw [List.append_nil] at hload
    exact hload
  | crashed h =>
    obtain ⟨hlength, hsearch, hnone⟩ := h.load
    have hload := TxLoad.panicked_at_once.after (by simp; omega) hsearch hnone
    rw [List.append_nil] at hload
    exact hload
  | @sent calls calls' a _ h h' =>
    obtain ⟨hlength, hsearch, hnone⟩ := h.load
    have hsent : calls'.length ≤ 2 ∧ TxLoad calls' r := by
      cases h' with
      | unsigned _ => exact ⟨Nat.zero_le 2, .failed_at_once _⟩
      | outOfRange _ => exact ⟨Nat.zero_le 2, .panicked_at_once⟩
      | @simulated signerInfo request answer calls _ _ hfinished =>
        obtain ⟨hone, hload⟩ := hfinished.load
        refine ⟨Nat.succ_le_succ hone, ?_⟩
        show TxLoad ([.simulate request answer] ++ calls) r
        refine hload.after ?_ ?_ rfl
        · show calls.length + 1 ≤ 4
          omega
        · exact List.forall_mem_cons.mpr ⟨rfl, List.forall_mem_nil _⟩
    refine hsent.2.after ?_ hsearch hnone
    rw [List.length_append]
    omega

/-! ## One `send_msgs` -/

/-- The calls of the batches, one after the other. -/
theorem pieces_load {sent : List (List Any × Outcome Kind Response)}
    {pieces : List (List NodeCall)} (h : List.Forall₂ (BatchRun env) sent pieces) :
    pieces.flatten.length ≤ 4 * sent.length ∧
      (∀ c ∈ pieces.flatten, c.isTxSearch = false) ∧
      (responses pieces.flatten).length ≤ sent.length ∧
      ∀ c ∈ sent, ∀ kind, c.2 = .err kind → (responses pieces.flatten).length < sent.length := by
  induction h with
  | nil => exact ⟨Nat.zero_le _, List.forall_mem_nil _, Nat.zero_le _, List.forall_mem_nil _⟩
  | @cons c piece sent pieces hpiece _ ih =>
    have hload := TxRun.load hpiece
    obtain ⟨hlength, hsearch, hresponses, hfailed⟩ := ih
    have hone := hload.once
    have hfour := hload.length
    rw [List.flatten_cons, responses_append, List.length_append, List.length_append,
      List.length_cons]
    refine ⟨by omega, fun c' hc' => ?_, by omega, fun c' hc' kind hkind => ?_⟩
    · rcases List.mem_append.mp hc' with hc' | hc'
      · exact hload.noSearch c' hc'
      · exact hsearch c' hc'
    · rcases List.mem_cons.mp hc' with rfl | hc'
      · rw [hload.failed kind hkind, List.length_nil]
        omega
      · have hless := hfailed c' hc' kind hkind
        omega

/-- The responses that are remembered are those of the broadcasts. -/
theorem remembered_responses {sent : List (List Any × Outcome Kind Response)}
    {pieces : List (List NodeCall)} (h : List.Forall₂ (BatchRun env) sent pieces)
    (hok : ∀ c ∈ sent, ∃ response, c.2 = .ok response) (results : List TxSyncResult) :
    (Action.addAll remember results sent).map TxSyncResult.response =
      results.map TxSyncResult.response ++ responses pieces.flatten := by
  induction h generalizing results with
  | nil => exact (List.append_nil _).symm
  | @cons c piece sent pieces hpiece _ ih =>
    obtain ⟨response, hc⟩ := hok c List.mem_cons_self
    have hload := TxRun.load hpiece
    have hrest := ih (fun c' hc' => hok c' (List.mem_cons_of_mem c hc'))
      (remember results c.1 response)
    rw [List.flatten_cons, responses_append, hload.returned response hc, ← List.append_assoc]
    obtain ⟨msgBatch, outcome⟩ := c
    obtain rfl : outcome = .ok response := hc
    rw [remember, List.map_append] at hrest
    exact hrest

/-- Every transaction waits, so the accepted ones are looked up. -/
theorem awaited_waiting {results : List TxSyncResult} (hwaiting : AllWaiting results) :
    awaited results = accepted (results.map TxSyncResult.response) := by
  induction results with
  | nil => rfl
  | cons r rest ih =>
    have hrest := ih fun r' hr' => hwaiting r' (List.mem_cons_of_mem r hr')
    have hempty := hwaiting r List.mem_cons_self
    unfold awaited accepted at hrest ⊢
    by_cases hcode : r.response.code.value = 0
    · have hr : r.awaited = some r.response.hash := if_pos ⟨hempty, hcode⟩
      rw [List.filterMap_cons_some hr, hrest]
      simp [hcode]
    · have hr : r.awaited = none := if_neg fun h => hcode h.2
      rw [List.filterMap_cons_none hr, hrest]
      simp [hcode]

/-- What one `send_msgs` that comes to `out` asks the node: four calls at most for each batch, and
    then, if every batch was answered, as many rounds of lookups as there are tries, each of them
    over the accepted transactions. -/
structure MsgsLoad (env : Env N) (protoMsgs : List Any) (out : Outcome Kind (List Event))
    (sending searches : List NodeCall) : Prop where
  length : sending.length ≤ 4 * (batches env protoMsgs).length
  noSearch : ∀ c ∈ sending, c.isTxSearch = false
  polled : out ≠ .panic → (responses sending).length = (batches env protoMsgs).length →
    List.Forall₂ SearchFor
      (List.replicate (tries env) (accepted (responses sending))).flatten searches
  stopped : out = .panic ∨ (responses sending).length ≠ (batches env protoMsgs).length →
    searches = []

/-- Waiting asks the node for nothing but the lookups. -/
theorem awaitEvents_node (env : Env N) (results : List TxSyncResult) (s : ChainState N) :
    ((awaitCommits env results >>= fun results =>
        (pure (results.flatMap TxSyncResult.events) : ChainM N (List Event))) s).2.node =
      (waitForBlockCommits env (queryEventsFromTxs env) results s.node).2 := by
  rw [Action.bind_run]
  unfold awaitCommits
  cases waitForBlockCommits env (queryEventsFromTxs env) results s.node with
  | mk r n => cases r <;> rfl

/-- **Run lemma.** -/
theorem sendMsgs_load (protoMsgs : List Any) (s : ChainState (N × List NodeCall)) :
    ∃ sending searches,
      (sendMsgs env.logged protoMsgs s).2.node.2 = s.node.2 ++ (sending ++ searches) ∧
        MsgsLoad env protoMsgs (sendMsgs env.logged protoMsgs s).1 sending searches := by
  unfold sendMsgs
  by_cases hempty : protoMsgs.isEmpty = true
  · rw [if_pos hempty, List.isEmpty_iff.mp hempty]
    refine ⟨[], [], (List.append_nil _).symm, Nat.zero_le _, List.forall_mem_nil _, ?_,
      fun _ => rfl⟩
    intro _ _
    have hnone : (List.replicate (tries env) (accepted (responses []))).flatten = [] :=
      List.flatten_replicate_nil
    rw [hnone]
    exact .nil
  rw [if_neg hempty]
  obtain ⟨hsend, pieces, hlog, hpieces⟩ := sendBatches_run env protoMsgs s
  obtain ⟨hlength, hsearch, -, hfailed⟩ := pieces_load hpieces
  have hfront := (Action.callsOf_inputs (sendTx env.logged) (batches env protoMsgs) s).length_le
  rw [List.length_map] at hfront
  have herr : ∀ kind, (sendBatches env.logged protoMsgs 0 0 [] [] s).1 = .err kind ↔
      ∃ c ∈ Action.callsOf (sendTx env.logged) (batches env protoMsgs) s, c.2 = .err kind := by
    rw [hsend]
    exact (Action.callEach_stopped remember _ [] s).2
  rw [Action.bind_run]
  cases hrun : sendBatches env.logged protoMsgs 0 0 [] [] s with
  | mk r s₁ =>
    rw [hrun] at hlog herr hsend
    cases r with
    | ok results =>
      obtain ⟨hok, hresults⟩ := Action.callsOf_of_callEach_ok hsend.symm
      obtain ⟨hcount, hwaiting⟩ := sendBatches_waiting hrun
      have hmap : results.map TxSyncResult.response = responses pieces.flatten := by
        rw [hresults, remembered_responses hpieces hok []]
        rfl
      have hawaited : awaited results = accepted (responses pieces.flatten) := by
        rw [awaited_waiting hwaiting, hmap]
      have hall : (responses pieces.flatten).length = (batches env protoMsgs).length := by
        rw [← hmap, List.length_map]
        exact hcount
      obtain ⟨searches, hlooked, hsearches⟩ := wait_looked env results s₁.node
      rw [hawaited] at hsearches
      obtain ⟨-, -, -, hquiet⟩ := awaitEvents_run env results s₁
      refine ⟨pieces.flatten, searches, ?_, by omega, hsearch, fun _ _ => hsearches, ?_⟩
      · rw [← List.append_assoc, ← hlog, ← hlooked]
        exact congrArg Prod.snd (awaitEvents_node env.logged results s₁)
      · rintro (hpanicked | hshort)
        · exact absurd hpanicked hquiet
        · exact absurd hall hshort
    | err kind =>
      obtain ⟨c, hc, hkind⟩ := (herr kind).mp rfl
      have hless := hfailed c hc kind hkind
      refine ⟨pieces.flatten, [], by rw [List.append_nil]; exact hlog, by omega, hsearch, ?_,
        fun _ => rfl⟩
      intro _ hall
      omega
    | panic =>
      exact ⟨pieces.flatten, [], by rw [List.append_nil]; exact hlog, by omega, hsearch,
        fun hne => absurd rfl hne, fun _ => rfl⟩

/-- The lookups of a request are not more than its tries and its batches allow. -/
theorem MsgsLoad.total {protoMsgs : List Any} {out : Outcome Kind (List Event)}
    {sending searches : List NodeCall} (h : MsgsLoad env protoMsgs out sending searches) :
    (sending ++ searches).length ≤ (4 + tries env) * (batches env protoMsgs).length := by
  have hsending := h.length
  rw [List.length_append, Nat.add_mul]
  by_cases hpolled : out ≠ .panic ∧ (responses sending).length = (batches env protoMsgs).length
  · have hrounds := (h.polled hpolled.1 hpolled.2).length_eq
    have haccepted : (accepted (responses sending)).length ≤ (batches env protoMsgs).length := by
      rw [← hpolled.2, accepted, List.length_map]
      exact List.length_filter_le ..
    have hbound := Nat.mul_le_mul_left (tries env) haccepted
    rw [List.length_flatten, List.map_replicate, List.sum_replicate_nat] at hrounds
    omega
  · have hnone : searches = [] := h.stopped (by tauto)
    rw [hnone, List.length_nil]
    omega

end OffChainWorker.Cosmos

namespace OffChainWorker.Worker

open Proc
open OffChainWorker.Cosmos
open OffChainWorker.Runtime (CallId)

variable {N : Type}

/-- The calls that a request has made of the node. -/
def RequestLoad (env : Cosmos.Env N) (v : Served) (calls : List NodeCall) : Prop :=
  ∃ sending searches, calls = sending ++ searches ∧
    MsgsLoad env v.protoMsgs v.out sending searches

/-- All requests together. -/
theorem requests_total {env : Cosmos.Env N} {served : List Served} {pieces : List (List NodeCall)}
    (h : List.Forall₂ (RequestLoad env) served pieces) :
    pieces.flatten.length ≤
      (4 + tries env) * (served.map fun v => (batches env v.protoMsgs).length).sum := by
  induction h with
  | nil => exact Nat.zero_le _
  | @cons v calls served pieces hv _ ih =>
    obtain ⟨sending, searches, rfl, hload⟩ := hv
    have htotal := hload.total
    rw [List.flatten_cons, List.length_append, List.map_cons, List.sum_cons, Nat.mul_add]
    omega

/-! ## Headline -/

/-- **Headline.**  In every reachable state of a worker, whatever its callers and its node do, the
    node was asked for each request in turn: for every batch four calls at most, and then, when
    every batch was answered, as many rounds of lookups as there are tries, each of them over the
    transactions that were accepted; so the calls are bounded by the batches of the requests. -/
theorem requests_load (menv : Monitor.Env) (env : Cosmos.Env N) (node : N)
    {s : State (ChainState (N × List NodeCall))}
    (h : (loggedWorker menv env node).Reachable s) :
    (∃ pieces, s.log = List.flatten pieces ∧
        List.Forall₂ (RequestLoad env) s.served pieces) ∧
      s.log.length ≤
        (4 + tries env) * (s.served.map fun v => (batches env v.protoMsgs).length).sum := by
  have hserve : ∀ (id : CallId) protoMsgs (chain : ChainState (N × List NodeCall)), ∃ calls,
      (sendMsgs env.logged protoMsgs chain).2.node.2 = chain.node.2 ++ calls ∧
        RequestLoad env ⟨id, protoMsgs, (sendMsgs env.logged protoMsgs chain).1⟩ calls := by
    intro id protoMsgs chain
    obtain ⟨sending, searches, hlog, hload⟩ := sendMsgs_load protoMsgs chain
    exact ⟨sending ++ searches, hlog, sending, searches, rfl, hload⟩
  obtain ⟨pieces, hlog, hpieces⟩ := pieces_reachable hserve h
  refine ⟨⟨pieces, hlog, hpieces⟩, ?_⟩
  rw [hlog]
  exact requests_total hpieces

/-- Two transactions that the node has on the chain at once: each of them is looked up four times,
    and the bound is met. -/
theorem requests_load_two :
    ∃ s, (loggedWorker Monitor.demoEnv (demoEnv commitNode) []).exec
        (initialState Monitor.demoEnv ⟨none, ([], [])⟩) sendRun = some s ∧
      s.log.length = (4 + tries (demoEnv commitNode)) * 2 ∧
      ∃ pieces, s.log = List.flatten pieces ∧
        List.Forall₂ (RequestLoad (demoEnv commitNode)) s.served pieces := by
  have hrun : ((loggedWorker Monitor.demoEnv (demoEnv commitNode) []).exec
      (initialState Monitor.demoEnv ⟨none, ([], [])⟩) sendRun).map (fun s => s.log.length) =
        some ((4 + tries (demoEnv commitNode)) * 2) := by
    decide +kernel
  obtain ⟨s, hs, hlength⟩ := Option.map_eq_some_iff.mp hrun
  have hreach := Machine.exec_reachable (.init rfl) hs
  exact ⟨s, hs, hlength,
    (requests_load Monitor.demoEnv (demoEnv commitNode) [] hreach).1⟩

end OffChainWorker.Worker
