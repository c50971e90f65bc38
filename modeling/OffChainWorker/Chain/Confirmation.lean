/-
  What `send_msgs` answers once its transactions are accepted.

  A transaction that was accepted waits with one `Event::Empty` for each of its messages until
  `query_events_from_txs` returns its events.  That query returns no events, whether the node
  has found the transaction or not, so no `Event::Empty` is ever replaced: every try of
  `wait_for_block_commits` asks for another one, and the answer is the error of the last.
-/
import OffChainWorker.Chain.SendMsgs

namespace OffChainWorker.Cosmos

open Proc

variable {N : Type} (env : Env N)

/-- Every broadcast is answered with code 0. -/
def Node.AcceptsAll (node : Node N) : Prop :=
  ∀ data n, ∃ response, (node.broadcastTxSync data n).1 = .ok response ∧ response.code = .ok

/-- Every transaction is accepted and at once among the `committed` ones, which stay, and a search
    by its hash finds it. -/
structure Node.CommitsAtOnce (node : Node N) (hash : Bytes → Hash) (committed : N → List Bytes) :
    Prop where
  broadcastTxSync : ∀ data n, ∃ log, (node.broadcastTxSync data n).1 = .ok ⟨.ok, log, hash data⟩ ∧
    data ∈ committed (node.broadcastTxSync data n).2
  txSearch : ∀ n, ∀ data ∈ committed n, ∃ txs,
    (node.txSearch (hash data) n).1 = .ok txs ∧ data ∈ txs
  account_keeps : ∀ address n, committed n ⊆ committed (node.account address n).2
  balance_keeps : ∀ address denom n, committed n ⊆ committed (node.balance address denom n).2
  simulate_keeps : ∀ request n, committed n ⊆ committed (node.simulate request n).2
  broadcastTxSync_keeps : ∀ data n, committed n ⊆ committed (node.broadcastTxSync data n).2
  txSearch_keeps : ∀ hash n, committed n ⊆ committed (node.txSearch hash n).2

/-! ## Waiting for events that never come -/

/-- An accepted transaction that still waits for its events. -/
def Unresolved (r : TxSyncResult) : Prop :=
  r.response.code = .ok ∧ emptyEventPresent r.events = true

section
variable {σ : Type} {query : Hash → σ → Except Kind (List Event) × σ}

/-- The query never returns an event. -/
def Silent (query : Hash → σ → Except Kind (List Event) × σ) : Prop :=
  ∀ hash s events, (query hash s).1 = .ok events → events = []

theorem resolve_unresolved (hquery : Silent query) {r : TxSyncResult} (hr : Unresolved r) (s : σ) :
    (resolve env query r s).1 = r := by
  obtain ⟨hcode, hempty⟩ := hr
  unfold resolve
  rw [if_pos hempty, hcode, if_neg (by decide)]
  split
  · rename_i events s' heq
    obtain rfl := hquery r.response.hash s events (by rw [heq])
    rfl
  · rfl

/-- The `for` loop changes nothing. -/
theorem resolveAll_unresolved (hquery : Silent query) {results : List TxSyncResult}
    (hresults : ∀ r ∈ results, Unresolved r) (s : σ) :
    (resolveAll env query results s).1 = results := by
  induction results generalizing s with
  | nil => rfl
  | cons r rest ih =>
    have hr := resolve_unresolved env hquery (hresults r (List.mem_cons_self ..)) s
    have hrest := ih (fun r' hr' => hresults r' (List.mem_cons_of_mem _ hr'))
      (resolve env query r s).2
    exact congr (congrArg List.cons hr) hrest

theorem allTxResultsFound_unresolved {results : List TxSyncResult} (hne : results ≠ [])
    (hresults : ∀ r ∈ results, Unresolved r) : allTxResultsFound results = false := by
  obtain ⟨r, rest, rfl⟩ := List.exists_cons_of_ne_nil hne
  have hempty := (hresults r (List.mem_cons_self ..)).2
  unfold allTxResultsFound
  rw [List.all_cons, hempty]
  rfl

/-- **Step lemma**: a try leaves the transactions as they are and asks for another one. -/
theorem tryCommits_unresolved (hquery : Silent query) {results : List TxSyncResult}
    (hne : results ≠ []) (hresults : ∀ r ∈ results, Unresolved r) (index : Nat) (s : σ) :
    (tryCommits env query index (results, s)).1 = .retry index ∧
      (tryCommits env query index (results, s)).2.1 = results := by
  unfold tryCommits
  rw [if_neg (by rw [allTxResultsFound_unresolved hne hresults]; decide)]
  exact ⟨rfl, resolveAll_unresolved env hquery hresults s⟩

/-- **Run lemma**: all tries together give up. -/
theorem waitForBlockCommits_unresolved (hquery : Silent query) {results : List TxSyncResult}
    (hne : results ≠ []) (hresults : ∀ r ∈ results, Unresolved r) (s : σ) :
    (waitForBlockCommits env query results s).1 = .error (noConfirmation env results) := by
  have htry : ∀ index (p : List TxSyncResult × σ), p.1 = results →
      (tryCommits env query index p).2.1 = results ∧
        ∃ error, (tryCommits env query index p).1 = .retry error := by
    rintro index ⟨results', s⟩ rfl
    obtain ⟨hretry, hsame⟩ := tryCommits_unresolved env hquery hne hresults index s
    exact ⟨hsame, index, hretry⟩
  obtain ⟨error, herror⟩ := retryLoop_gives_up htry (commitDelays env.config.rpcTimeout) 1
    (show (results, s).1 = results from rfl)
  unfold waitForBlockCommits retryWithIndex
  split
  · rename_i heq
    rw [heq] at herror
    nomatch herror
  · rfl

end

/-- The query of the chain finds the transaction or not, and returns nothing. -/
theorem queryEventsFromTxs_silent : Silent (queryEventsFromTxs env) := by
  intro hash s events h
  unfold queryEventsFromTxs at h
  split at h
  · nomatch h
  · split at h <;> exact (Except.ok.inj h).symm

theorem awaitCommits_unresolved {results : List TxSyncResult} (hne : results ≠ [])
    (hresults : ∀ r ∈ results, Unresolved r) (s : ChainState N) :
    (awaitCommits env results s).1 = .err (noConfirmation env results) := by
  have hwait := waitForBlockCommits_unresolved env (queryEventsFromTxs_silent env) hne hresults
    s.node
  unfold awaitCommits
  split
  · rename_i heq
    rw [heq] at hwait
    nomatch hwait
  · rename_i heq
    rw [heq] at hwait
    exact congrArg Outcome.err (Except.error.inj hwait)

/-! ## The transactions that are waited for -/

variable {env}

theorem broadcastTxSync_code (haccepts : env.node.AcceptsAll) {data : Bytes}
    {s s' : ChainState N} {response : Response}
    (h : broadcastTxSync env data s = (.ok response, s')) : response.code = .ok := by
  obtain ⟨answer, hanswer, hcode⟩ := haccepts data s.node
  unfold broadcastTxSync call at h
  split at h
  · rename_i heq
    rw [heq] at hanswer
    obtain rfl := Outcome.ok.inj (Prod.mk.inj h).1
    obtain rfl := Except.ok.inj hanswer
    exact hcode
  · nomatch h

/-- A transaction that `send_tx` sent was accepted. -/
theorem sendTx_code (haccepts : env.node.AcceptsAll) {protoMsgs : List Any}
    {s s' : ChainState N} {response : Response}
    (h : sendTx env protoMsgs s = (.ok response, s')) : response.code = .ok := by
  obtain ⟨_, s₁, -, h⟩ := Action.bind_eq_ok h
  obtain ⟨seq, s₂, -, h⟩ := Action.bind_eq_ok h
  obtain ⟨⟨signerInfo, bodyBuf, gas⟩, s₃, -, h⟩ := Action.bind_eq_ok h
  have hfinish : finishTx env signerInfo bodyBuf gas s₃ = (.ok response, s') := h
  unfold finishTx at hfinish
  split at hfinish
  · nomatch hfinish
  · obtain ⟨data, s₄, -, h⟩ := Action.bind_eq_ok hfinish
    obtain ⟨answer, s₅, hbroadcast, h⟩ := Action.bind_eq_ok h
    obtain ⟨_, s₆, -, h⟩ := Action.bind_eq_ok h
    obtain rfl := Outcome.ok.inj (Prod.mk.inj h).1
    exact broadcastTxSync_code haccepts hbroadcast

theorem emptyEventPresent_replicate {n : Nat} (hn : 0 < n) :
    emptyEventPresent (List.replicate n (.empty "")) = true := by
  obtain ⟨n, rfl⟩ := Nat.exists_eq_succ_of_ne_zero (Nat.pos_iff_ne_zero.mp hn)
  rfl

theorem sendBatch_unresolved (haccepts : env.node.AcceptsAll) {msgBatch : List Any}
    (hbatch : msgBatch ≠ []) {results results' : List TxSyncResult}
    (hresults : ∀ r ∈ results, Unresolved r) {s s' : ChainState N}
    (h : sendBatch env msgBatch results s = (.ok results', s')) :
    results' ≠ [] ∧ ∀ r ∈ results', Unresolved r := by
  obtain ⟨response, s₁, hsent, h⟩ := Action.bind_eq_ok h
  obtain rfl := Outcome.ok.inj (Prod.mk.inj h).1
  refine ⟨by simp, fun r hr => ?_⟩
  rcases List.mem_append.mp hr with hr | hr
  · exact hresults r hr
  · rw [List.mem_singleton.mp hr]
    exact ⟨sendTx_code haccepts hsent,
      emptyEventPresent_replicate (List.length_pos_iff.mpr hbatch)⟩

/-- The loop over the messages: something is sent, and all of it waits. -/
theorem sendBatches_unresolved (haccepts : env.node.AcceptsAll) {msgs : List Any} {n size : Nat}
    {msgBatch : List Any} {results results' : List TxSyncResult} {s s' : ChainState N}
    (hsome : msgs ≠ [] ∨ msgBatch ≠ [] ∨ results ≠ []) (hresults : ∀ r ∈ results, Unresolved r)
    (h : sendBatches env msgs n size msgBatch results s = (.ok results', s')) :
    results' ≠ [] ∧ ∀ r ∈ results', Unresolved r := by
  induction msgs generalizing n size msgBatch results s with
  | nil =>
    rw [sendBatches] at h
    split at h
    · rename_i hempty
      obtain rfl := Outcome.ok.inj (Prod.mk.inj h).1
      have hbatch : msgBatch = [] := List.isEmpty_iff.mp hempty
      refine ⟨?_, hresults⟩
      rcases hsome with hsome | hsome | hsome
      · exact absurd rfl hsome
      · exact absurd hbatch hsome
      · exact hsome
    · rename_i hempty
      have hbatch : msgBatch ≠ [] := fun heq => hempty (List.isEmpty_iff.mpr heq)
      exact sendBatch_unresolved haccepts hbatch hresults h
  | cons msg msgs ih =>
    rw [sendBatches] at h
    have hbatch : msgBatch ++ [msg] ≠ [] := by simp
    -- the batch is sent with this message, or goes on being filled
    split at h
    · obtain ⟨results₁, s₁, hsent, h⟩ := Action.bind_eq_ok h
      obtain ⟨hne, hwait⟩ := sendBatch_unresolved haccepts hbatch hresults hsent
      exact ih (.inr (.inr hne)) hwait h
    · exact ih (.inr (.inl hbatch)) hresults h

/-- When the node accepts every transaction, `send_msgs` returns no events: it fails like the batch
    that could not be sent, and with `TxNoConfirmation` when all of them were. -/
theorem sendMsgs_never_confirms (env : Env N) (haccepts : env.node.AcceptsAll)
    (protoMsgs : List Any) (hmsgs : protoMsgs ≠ []) (s : ChainState N) :
    (∀ events, (sendMsgs env protoMsgs s).1 ≠ .ok events) ∧
      (sendMsgs env protoMsgs s).1 = (sendBatches env protoMsgs 0 0 [] [] s).1.bind fun results =>
        .err (noConfirmation env results) := by
  have hanswer : (sendMsgs env protoMsgs s).1 = (sendBatches env protoMsgs 0 0 [] [] s).1.bind
      fun results => .err (noConfirmation env results) := by
    unfold sendMsgs
    rw [if_neg (by simpa using hmsgs), Action.bind_run]
    cases hsent : sendBatches env protoMsgs 0 0 [] [] s with
    | mk r s' =>
      cases r with
      | ok results =>
        obtain ⟨hne, hwait⟩ := sendBatches_unresolved haccepts (.inl hmsgs)
          (List.forall_mem_nil _) hsent
        have herr := awaitCommits_unresolved env hne hwait s'
        show ((awaitCommits env results >>= fun results =>
          pure (results.flatMap TxSyncResult.events)) s').1 = .err (noConfirmation env results)
        rw [Action.bind_run]
        cases hrun : awaitCommits env results s' with
        | mk r s'' =>
          rw [hrun] at herr
          obtain rfl : r = .err (noConfirmation env results) := herr
          rfl
      | err e => rfl
      | panic => rfl
  refine ⟨fun events hok => ?_, hanswer⟩
  rw [hanswer] at hok
  cases hsent : (sendBatches env protoMsgs 0 0 [] [] s).1 with
  | ok results => rw [hsent] at hok; nomatch hok
  | err e => rw [hsent] at hok; nomatch hok
  | panic => rw [hsent] at hok; nomatch hok

/-- A node whose state is the transactions on the chain; their hashes are their first bytes. -/
def commitNode : Node (List Bytes) where
  account address n := (.ok (some ⟨"/cosmos.auth.v1beta1.BaseAccount",
    Prost.wire.baseAccount.encode ⟨address, none, 4, UInt64.ofNat n.length⟩⟩), n)
  balance _ denom n := (.ok (some ⟨denom, "1000000"⟩), n)
  simulate _ n := (.ok ⟨some ⟨70000⟩⟩, n)
  broadcastTxSync data n := (.ok ⟨.ok, "", data.take 32⟩, n ++ [data])
  txSearch hash n := (.ok (n.filter fun data => data.take 32 = hash), n)

theorem commitNode_accepts : commitNode.AcceptsAll :=
  fun data _ => ⟨⟨.ok, "", data.take 32⟩, rfl, rfl⟩

theorem commitNode_commits : commitNode.CommitsAtOnce (fun data => data.take 32) id where
  broadcastTxSync data n := ⟨"", rfl, by simp [commitNode]⟩
  txSearch n data hdata := ⟨_, rfl, by simpa using hdata⟩
  account_keeps _ n := List.Subset.refl n
  balance_keeps _ _ n := List.Subset.refl n
  simulate_keeps _ n := List.Subset.refl n
  broadcastTxSync_keeps _ n := List.subset_append_left n _
  txSearch_keeps _ n := List.Subset.refl n

/-- Two messages in two transactions. -/
theorem sendMsgs_never_confirms_two :
    (∀ events, (sendMsgs (demoEnv commitNode) demoMsgs ⟨none, []⟩).1 ≠ .ok events) ∧
      (sendMsgs (demoEnv commitNode) demoMsgs ⟨none, []⟩).1
        = (sendBatches (demoEnv commitNode) demoMsgs 0 0 [] [] ⟨none, []⟩).1.bind fun results =>
          .err (noConfirmation (demoEnv commitNode) results) :=
  sendMsgs_never_confirms (demoEnv commitNode) commitNode_accepts demoMsgs (by decide) ⟨none, []⟩

/-- The same two transactions are committed before the first of four tries. -/
theorem committed_not_confirmed :
    ¬ ∀ (env : Env (List Bytes)) (hash : Bytes → Hash) (committed : List Bytes → List Bytes)
        (protoMsgs : List Any) (s : ChainState (List Bytes)),
      env.node.CommitsAtOnce hash committed → 1 ≤ (commitDelays env.config.rpcTimeout).length →
      protoMsgs ≠ [] → ∃ events, (sendMsgs env protoMsgs s).1 = .ok events := by
  intro h
  obtain ⟨events, hok⟩ := h (demoEnv commitNode) _ _ demoMsgs ⟨none, []⟩ commitNode_commits
    (by decide) (by decide)
  have hrun : (match (sendMsgs (demoEnv commitNode) demoMsgs ⟨none, []⟩).1 with
      | .err (.txNoConfirmation _) => true
      | _ => false) = true := by
    decide +kernel
  rw [hok] at hrun
  nomatch hrun

end OffChainWorker.Cosmos
