/-
  The tries of `wait_for_block_commits`, one after the other.

  Every try but a last, successful one runs the `for` loop over the transactions once, and a run
  over transactions that are all found does nothing.  So the call is a matter of `n` such runs, `n`
  the number of delays: it returns when `n` of them have found everything, and otherwise makes one
  more run, at whose end nothing is checked any more.
-/
import Mathlib.Logic.Function.Iterate
import OffChainWorker.Chain.Confirmation

namespace OffChainWorker.Cosmos

open Proc

variable {N σ : Type} (env : Env N) (query : Hash → σ → Except Kind (List Event) × σ)

/-- One run of the `for` loop: the transactions, and the state of what is queried. -/
def pass (p : List TxSyncResult × σ) : List TxSyncResult × σ := resolveAll env query p.1 p.2

/-- Both of them after `k` runs. -/
def passes (k : Nat) (p : List TxSyncResult × σ) : List TxSyncResult × σ := (pass env query)^[k] p

/-- Both of them before the last try. -/
def beforeLastTry (results : List TxSyncResult) (s : σ) : List TxSyncResult × σ :=
  passes env query (commitDelays env.config.rpcTimeout).length (results, s)

/-- `tx_sync_results` when the tries are over. -/
def resultsAfter (results : List TxSyncResult) (s : σ) : List TxSyncResult :=
  (retryWithIndex (commitDelays env.config.rpcTimeout) (tryCommits env query) (results, s)).2.1

@[simp] theorem passes_zero (p : List TxSyncResult × σ) : passes env query 0 p = p := rfl

/-- The first run, and the others. -/
theorem passes_succ (k : Nat) (p : List TxSyncResult × σ) :
    passes env query (k + 1) p = passes env query k (pass env query p) := rfl

/-- The last run, after the others. -/
theorem passes_succ' (k : Nat) (p : List TxSyncResult × σ) :
    passes env query (k + 1) p = pass env query (passes env query k p) :=
  Function.iterate_succ_apply' (pass env query) k p

/-! ## Runs over transactions that are found -/

theorem allTxResultsFound_iff {results : List TxSyncResult} :
    allTxResultsFound results = true ↔ ∀ r ∈ results, emptyEventPresent r.events = false := by
  unfold allTxResultsFound
  rw [List.all_eq_true]
  constructor
  · intro h r hr
    have hfound := h r hr
    rwa [Bool.not_eq_true'] at hfound
  · intro h r hr
    rw [h r hr]
    rfl

/-- A transaction without an `Event::Empty` is left alone. -/
theorem resolve_found {r : TxSyncResult} (h : emptyEventPresent r.events = false) (s : σ) :
    resolve env query r s = (r, s) := by
  unfold resolve
  rw [if_neg (by rw [h]; decide)]

/-- A run over transactions that are all found does nothing. -/
theorem resolveAll_found {results : List TxSyncResult}
    (h : ∀ r ∈ results, emptyEventPresent r.events = false) (s : σ) :
    resolveAll env query results s = (results, s) := by
  induction results with
  | nil => rfl
  | cons r rest ih =>
    have hr := resolve_found env query (h r (List.mem_cons_self ..)) s
    have hrest := ih fun r' hr' => h r' (List.mem_cons_of_mem _ hr')
    unfold resolveAll
    simp only [hr, hrest]

theorem passes_found {p : List TxSyncResult × σ} (h : allTxResultsFound p.1 = true) (k : Nat) :
    passes env query k p = p :=
  Function.iterate_fixed (resolveAll_found env query (allTxResultsFound_iff.mp h) p.2) k

/-! ## The tries are runs -/

/-- **Run lemma**: after as many runs as there are delays, all transactions are found, or the last
    try makes another run and gives up. -/
theorem retryLoop_tryCommits (delays : List Nat) (index : Nat) (p : List TxSyncResult × σ) :
    retryLoop (tryCommits env query) delays index p =
      if allTxResultsFound (passes env query delays.length p).1 = true then
        (.ok (), passes env query delays.length p)
      else (.error ⟨index + delays.length, index + delays.length⟩,
        passes env query (delays.length + 1) p) := by
  induction delays generalizing index p with
  | nil =>
    unfold retryLoop tryCommits
    by_cases hfound : allTxResultsFound p.1 = true
    · simp only [hfound, if_true, List.length_nil, passes_zero]
    · simp only [hfound, if_false, List.length_nil, passes_zero, passes_succ, pass, Nat.add_zero,
        Bool.false_eq_true]
  | cons delay rest ih =>
    unfold retryLoop
    by_cases hfound : allTxResultsFound p.1 = true
    · have hstays := passes_found env query hfound (delay :: rest).length
      simp only [tryCommits, hfound, if_true, hstays]
    · have hrest := ih (index + 1) (pass env query p)
      have hsum : index + 1 + rest.length = index + (rest.length + 1) := by omega
      rw [hsum, ← passes_succ, ← passes_succ] at hrest
      simp only [tryCommits, hfound, Bool.false_eq_true, if_false, List.length_cons]
      exact hrest

theorem retryWithIndex_tryCommits (results : List TxSyncResult) (s : σ) :
    ∃ error, retryWithIndex (commitDelays env.config.rpcTimeout) (tryCommits env query)
        (results, s) =
      if allTxResultsFound (beforeLastTry env query results s).1 = true then
        (.ok (), beforeLastTry env query results s)
      else (.error error, pass env query (beforeLastTry env query results s)) := by
  have hloop := retryLoop_tryCommits env query (commitDelays env.config.rpcTimeout) 1 (results, s)
  rw [passes_succ'] at hloop
  exact ⟨_, hloop⟩

/-- **Headline.** What `wait_for_block_commits` returns, by the runs of the `for` loop. -/
theorem waitForBlockCommits_passes (results : List TxSyncResult) (s : σ) :
    (waitForBlockCommits env query results s).1 =
      if allTxResultsFound (beforeLastTry env query results s).1 = true then
        .ok (beforeLastTry env query results s).1
      else .error (noConfirmation env results) := by
  obtain ⟨error, hloop⟩ := retryWithIndex_tryCommits env query results s
  unfold waitForBlockCommits
  rw [hloop]
  by_cases hfound : allTxResultsFound (beforeLastTry env query results s).1 = true
  · rw [if_pos hfound, if_pos hfound]
  · rw [if_neg hfound, if_neg hfound]

/-- The transactions that the tries leave are those of one more run, also where it is not made. -/
theorem resultsAfter_passes (results : List TxSyncResult) (s : σ) :
    resultsAfter env query results s =
      (pass env query (beforeLastTry env query results s)).1 := by
  obtain ⟨error, hloop⟩ := retryWithIndex_tryCommits env query results s
  unfold resultsAfter
  rw [hloop]
  by_cases hfound : allTxResultsFound (beforeLastTry env query results s).1 = true
  · rw [if_pos hfound]
    exact congrArg Prod.fst (passes_found env query hfound 1).symm
  · rw [if_neg hfound]

end OffChainWorker.Cosmos
