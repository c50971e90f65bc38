/-
  What `send_msgs` reports.

  `query_events_from_txs` answers an empty list for every transaction, found or not, so waiting
  changes one thing only: a transaction with a code other than zero gets its `ChainError`
  (`settle`), in the first try that finds it waiting.  Hence the report is a function of the
  responses to the broadcasts (`report`).  Events are returned when every transaction was refused,
  one error for each; a single accepted transaction makes the whole call fail.
-/
import OffChainWorker.Chain.Batching
import OffChainWorker.Chain.Commits

namespace OffChainWorker.Cosmos

open Proc

variable {N σ : Type} (env : Env N) {query : Hash → σ → Except Kind (List Event) × σ}

/-! ## Waiting with a query that finds nothing -/

/-- What one try makes of a transaction. -/
def settle (r : TxSyncResult) : TxSyncResult :=
  if emptyEventPresent r.events = true ∧ r.response.code.value ≠ 0 then
    { r with events := [.chainError (deliverTxError env r.response)] }
  else r

theorem resolve_silent (hquery : Silent query) (r : TxSyncResult) (s : σ) :
    (resolve env query r s).1 = settle env r := by
  unfold resolve settle
  by_cases hempty : emptyEventPresent r.events = true
  · by_cases hcode : r.response.code.value ≠ 0
    · rw [if_pos hempty, if_pos hcode, if_pos ⟨hempty, hcode⟩]
    · rw [if_pos hempty, if_neg hcode, if_neg fun h => hcode h.2]
      split
      · rename_i events s' heq
        obtain rfl : events = [] := hquery r.response.hash s events (by rw [heq])
        rfl
      · rfl
  · rw [if_neg hempty, if_neg fun h => hempty h.1]

theorem resolveAll_silent (hquery : Silent query) (results : List TxSyncResult) (s : σ) :
    (resolveAll env query results s).1 = results.map (settle env) := by
  induction results generalizing s with
  | nil => rfl
  | cons r rest ih =>
    have hr := resolve_silent env hquery r s
    have hrest := ih (resolve env query r s).2
    exact congr (congrArg List.cons hr) hrest

/-- A transaction that was settled has no `Event::Empty` left, or is still to be found. -/
theorem settle_settle (r : TxSyncResult) : settle env (settle env r) = settle env r := by
  unfold settle
  by_cases h : emptyEventPresent r.events = true ∧ r.response.code.value ≠ 0
  · rw [if_pos h]
    exact if_neg fun h' => Bool.false_ne_true h'.1
  · rw [if_neg h, if_neg h]

/-- One run of the `for` loop does what all of them do. -/
theorem passes_silent (hquery : Silent query) (k : Nat) (p : List TxSyncResult × σ) :
    (passes env query (k + 1) p).1 = p.1.map (settle env) := by
  induction k generalizing p with
  | zero => exact resolveAll_silent env hquery p.1 p.2
  | succ k ih =>
    have hpass : (pass env query p).1 = p.1.map (settle env) := resolveAll_silent env hquery p.1 p.2
    rw [passes_succ, ih, hpass, List.map_map]
    refine List.map_congr_left fun r _ => ?_
    exact settle_settle env r

/-! ## The transactions that are waited for -/

/-- Every transaction waits. -/
def AllWaiting (results : List TxSyncResult) : Prop :=
  ∀ r ∈ results, emptyEventPresent r.events = true

/-- What `send_msgs` reports of the transactions it has broadcast. -/
def report (results : List TxSyncResult) : Outcome Kind (List Event) :=
  if results = [] ∨
      (0 < commitCount env.config.rpcTimeout ∧ ∀ r ∈ results, r.response.code.value ≠ 0) then
    .ok (results.map fun r => .chainError (deliverTxError env r.response))
  else .err (noConfirmation env results)

variable {env}

theorem settle_refused {r : TxSyncResult} (hempty : emptyEventPresent r.events = true)
    (hcode : r.response.code.value ≠ 0) :
    settle env r = { r with events := [.chainError (deliverTxError env r.response)] } :=
  if_pos ⟨hempty, hcode⟩

theorem settle_accepted {r : TxSyncResult} (hcode : r.response.code.value = 0) :
    settle env r = r :=
  if_neg fun h => h.2 hcode

/-- All of them are found after a try iff all were refused. -/
theorem allFound_settle {results : List TxSyncResult} (hwaiting : AllWaiting results) :
    allTxResultsFound (results.map (settle env)) = true ↔
      ∀ r ∈ results, r.response.code.value ≠ 0 := by
  rw [allTxResultsFound_iff, List.forall_mem_map]
  refine forall_congr' fun r => forall_congr' fun hr => ?_
  constructor
  · intro hfound hcode
    rw [settle_accepted hcode, hwaiting r hr] at hfound
    cases hfound
  · intro hcode
    rw [settle_refused (hwaiting r hr) hcode]
    rfl

theorem events_settle {results : List TxSyncResult} (hwaiting : AllWaiting results)
    (hcodes : ∀ r ∈ results, r.response.code.value ≠ 0) :
    (results.map (settle env)).flatMap TxSyncResult.events =
      results.map fun r => .chainError (deliverTxError env r.response) := by
  rw [List.flatMap_map, List.map_eq_flatMap]
  refine List.flatMap_congr fun r hr => ?_
  rw [settle_refused (hwaiting r hr) (hcodes r hr)]

theorem allFound_waiting {results : List TxSyncResult} (hwaiting : AllWaiting results)
    (hne : results ≠ []) : allTxResultsFound results = false := by
  obtain ⟨r, rest, rfl⟩ := List.exists_cons_of_ne_nil hne
  rw [Bool.eq_false_iff, Ne, allTxResultsFound_iff]
  intro hfound
  have hempty := hwaiting r List.mem_cons_self
  rw [hfound r List.mem_cons_self] at hempty
  cases hempty

/-- **Run lemma**: the wait for transactions that all wait. -/
theorem waitForBlockCommits_silent (hquery : Silent query) {results : List TxSyncResult}
    (hwaiting : AllWaiting results) (hne : results ≠ []) (s : σ) :
    (waitForBlockCommits env query results s).1 =
      if 0 < commitCount env.config.rpcTimeout ∧ ∀ r ∈ results, r.response.code.value ≠ 0 then
        .ok (results.map (settle env))
      else .error (noConfirmation env results) := by
  rw [waitForBlockCommits_passes, beforeLastTry, length_commitDelays]
  cases commitCount env.config.rpcTimeout with
  | zero =>
    -- no delay: the only try that checks finds what was sent
    rw [passes_zero, allFound_waiting hwaiting hne, if_neg Bool.false_ne_true,
      if_neg fun h => Nat.lt_irrefl 0 h.1]
  | succ k =>
    rw [passes_silent env hquery k (results, s)]
    by_cases hcodes : ∀ r ∈ results, r.response.code.value ≠ 0
    · rw [if_pos ((allFound_settle hwaiting).mpr hcodes), if_pos ⟨Nat.succ_pos k, hcodes⟩]
    · rw [if_neg fun h => hcodes ((allFound_settle hwaiting).mp h), if_neg fun h => hcodes h.2]

/-- What follows the sending. -/
theorem awaitEvents_report {results : List TxSyncResult} (hwaiting : AllWaiting results)
    (hne : results ≠ []) (s : ChainState N) :
    ((awaitCommits env results >>= fun results =>
        (pure (results.flatMap TxSyncResult.events) : ChainM N (List Event))) s).1 =
      report env results := by
  have hwait : (waitForBlockCommits env (queryEventsFromTxs env) results s.node).1 = _ :=
    waitForBlockCommits_silent (queryEventsFromTxs_silent env) hwaiting hne s.node
  rw [Action.bind_run]
  unfold awaitCommits report
  cases hrun : waitForBlockCommits env (queryEventsFromTxs env) results s.node with
  | mk r n =>
    rw [hrun] at hwait
    by_cases hrefused :
        0 < commitCount env.config.rpcTimeout ∧ ∀ r ∈ results, r.response.code.value ≠ 0
    · rw [if_pos hrefused] at hwait
      obtain rfl : r = .ok (results.map (settle env)) := hwait
      rw [if_pos (.inr hrefused), ← events_settle hwaiting hrefused.2]
      rfl
    · rw [if_neg hrefused] at hwait
      obtain rfl : r = .error (noConfirmation env results) := hwait
      rw [if_neg fun h => h.elim hne hrefused]

/-! ## The transactions that are sent -/

/-- There is one transaction for each batch, and it waits. -/
theorem sendBatches_waiting {protoMsgs : List Any} {s s' : ChainState N}
    {results : List TxSyncResult}
    (h : sendBatches env protoMsgs 0 0 [] [] s = (.ok results, s')) :
    results.length = (batches env protoMsgs).length ∧ AllWaiting results := by
  rw [← sendBatchesVia_sendTx, sendBatchesVia_eq] at h
  obtain ⟨hok, rfl⟩ := Action.callsOf_of_callEach_ok h
  have hall := (Action.callEach_ok remember hok []).1
  have hevents : (Action.addAll remember []
      (Action.callsOf (sendTx env) (batches env protoMsgs) s)).map TxSyncResult.events =
      (batches env protoMsgs).map placeholders := by
    rw [addAll_remember [] hok, List.map_nil, List.nil_append]
    exact (List.map_map ..).symm.trans (congrArg (List.map placeholders) hall)
  constructor
  · have hlength := congrArg List.length hevents
    rw [List.length_map, List.length_map] at hlength
    exact hlength
  · intro r hr
    have hmem : r.events ∈ (batches env protoMsgs).map placeholders := by
      rw [← hevents]
      exact List.mem_map_of_mem hr
    obtain ⟨msgBatch, hbatch, hplaceholders⟩ := List.mem_map.mp hmem
    obtain ⟨hnonempty, -⟩ := (cut_pieces (atLimit env) protoMsgs).1 msgBatch hbatch
    rw [← hplaceholders]
    exact emptyEventPresent_replicate (List.length_pos_of_ne_nil hnonempty)

theorem batches_ne_nil {protoMsgs : List Any} (h : protoMsgs ≠ []) :
    batches env protoMsgs ≠ [] := by
  intro hnil
  have hwhole : (batches env protoMsgs).flatten = protoMsgs := flatten_cut protoMsgs
  rw [hnil] at hwhole
  exact h hwhole.symm

/-- **Headline.**  What `send_msgs` reports, by the responses to its transactions: it fails or
    panics when one of them could not be sent; it returns events when there was nothing to send, or
    when there was time for a second try and every transaction was refused, one `ChainError` for
    each of the transactions; and otherwise it gives up, because one of them was accepted. -/
theorem sendMsgs_report (env : Env N) (protoMsgs : List Any) (s : ChainState N) :
    (sendMsgs env protoMsgs s).1 =
        (sendBatches env protoMsgs 0 0 [] [] s).1.bind (report env) ∧
      ∀ results, (sendBatches env protoMsgs 0 0 [] [] s).1 = .ok results →
        results.length = (batches env protoMsgs).length := by
  refine ⟨?_, fun results hresults => ?_⟩
  · unfold sendMsgs
    by_cases hempty : protoMsgs.isEmpty = true
    · rw [if_pos hempty, List.isEmpty_iff.mp hempty]
      rfl
    rw [if_neg hempty, Action.bind_run]
    cases hrun : sendBatches env protoMsgs 0 0 [] [] s with
    | mk r s' =>
      cases r with
      | ok results =>
        obtain ⟨hlength, hwaiting⟩ := sendBatches_waiting hrun
        have hne : results ≠ [] := by
          intro hnil
          rw [hnil, List.length_nil] at hlength
          have hbatches := List.length_eq_zero_iff.mp hlength.symm
          exact batches_ne_nil (fun h => hempty (List.isEmpty_iff.mpr h)) hbatches
        exact awaitEvents_report hwaiting hne s'
      | err kind => rfl
      | panic => rfl
  · cases hrun : sendBatches env protoMsgs 0 0 [] [] s with
    | mk r s' =>
      rw [hrun] at hresults
      obtain rfl : r = .ok results := hresults
      exact (sendBatches_waiting hrun).1

end OffChainWorker.Cosmos
