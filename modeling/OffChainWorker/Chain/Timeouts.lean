/-
  When `wait_for_block_commits` reports a timeout although nothing is left to wait for.

  The closure looks whether everything is found before it works, so nobody looks at what the last
  try has resolved.  What it resolves can be told without running it: a refused transaction is
  resolved by the first try, and an accepted one when an answer to its lookup has events and no
  `Event::Empty` among them.  Every try takes one answer for each accepted transaction that waits,
  so the numbers of those that are left follow from the answers alone (`leftOver`), and the report
  is for nothing exactly when the last of these numbers is the first that is zero, or when there is
  one try only, with refused transactions to resolve and no accepted one left after it
  (`timeout_unresolved_iff`).
-/
import OffChainWorker.Chain.Bookkeeping
import OffChainWorker.Chain.Report

namespace OffChainWorker.Cosmos

open Proc

variable {N σ : Type} (env : Env N)

/-! ## The transactions that a try looks up -/

/-- The transaction that a try has to look up. -/
def TxSyncResult.awaited (r : TxSyncResult) : Option Hash :=
  if emptyEventPresent r.events = true ∧ r.response.code.value = 0 then some r.response.hash
  else none

/-- The transactions that a try looks up. -/
def awaited (results : List TxSyncResult) : List Hash := results.filterMap TxSyncResult.awaited

/-- No transaction waits that was refused. -/
def NoneRefused (results : List TxSyncResult) : Prop :=
  ∀ r ∈ results, emptyEventPresent r.events = true → r.response.code.value = 0

theorem awaited_cons (r : TxSyncResult) (rest : List TxSyncResult) :
    awaited (r :: rest) = r.awaited.toList ++ awaited rest := by
  unfold awaited
  cases hr : r.awaited <;> simp [hr]

theorem awaited_eq_nil_iff {results : List TxSyncResult} :
    awaited results = [] ↔
      ∀ r ∈ results, emptyEventPresent r.events = true → r.response.code.value ≠ 0 := by
  unfold awaited
  rw [List.filterMap_eq_nil_iff]
  refine forall_congr' fun r => forall_congr' fun _ => ?_
  unfold TxSyncResult.awaited
  rw [ite_eq_right_iff]
  constructor
  · intro h hempty hcode
    exact Option.some_ne_none _ (h ⟨hempty, hcode⟩)
  · intro h hwaits
    exact absurd hwaits.2 (h hwaits.1)

theorem allTxResultsFound_iff_awaited {results : List TxSyncResult} :
    allTxResultsFound results = true ↔ awaited results = [] ∧ NoneRefused results := by
  rw [allTxResultsFound_iff, awaited_eq_nil_iff]
  constructor
  · intro h
    refine ⟨fun r hr hempty => ?_, fun r hr hempty => ?_⟩
    all_goals
      rw [h r hr] at hempty
      exact absurd hempty Bool.false_ne_true
  · rintro ⟨hnone, hrefused⟩ r hr
    rw [Bool.eq_false_iff]
    intro hempty
    exact hnone r hr hempty (hrefused r hr hempty)

/-- Something waits exactly when something is to be looked up. -/
theorem exists_empty_iff {results : List TxSyncResult} (h : NoneRefused results) :
    (∃ r ∈ results, emptyEventPresent r.events = true) ↔ awaited results ≠ [] := by
  rw [Ne, awaited_eq_nil_iff]
  constructor
  · rintro ⟨r, hr, hempty⟩ hnone
    exact hnone r hr hempty (h r hr hempty)
  · intro hsome
    by_contra hnone
    exact hsome fun r hr hempty => absurd ⟨r, hr, hempty⟩ hnone

/-! ## After a try -/

section
variable (query : Hash → σ → Answer × σ)

/-- **Step lemma**: a try leaves no refused transaction waiting. -/
theorem resolveAll_noneRefused (results : List TxSyncResult) (s : σ) :
    NoneRefused (resolveAll env query results s).1 := by
  rw [← resolutions_after]
  intro r hr hempty
  obtain ⟨x, hx, rfl⟩ := List.mem_map.mp hr
  have hbook := resolutions_bookkept env query results s x hx
  rw [hbook.response]
  generalize x.after = r, x.answer = answer at hbook hempty
  cases hbook with
  | found hfound => exact absurd (hfound.symm.trans hempty) Bool.false_ne_true
  | failed _ _ => exact absurd hempty Bool.false_ne_true
  | error _ hcode => exact hcode
  | nothing _ hcode => exact hcode
  | replaced _ hcode _ => exact hcode

/-- The report of a timeout, by what is to be looked up before and after the last try. -/
theorem timeout_iff_awaited (results : List TxSyncResult) (s : σ) :
    (∀ error, (waitForBlockCommits env query results s).1 = .error error →
      ∃ r ∈ resultsAfter env query results s, emptyEventPresent r.events = true) ↔
      (awaited (passes env query (commitCount env.config.rpcTimeout) (results, s)).1 = [] ∧
        (commitCount env.config.rpcTimeout = 0 → NoneRefused results)) ∨
      awaited (passes env query (commitCount env.config.rpcTimeout + 1) (results, s)).1 ≠ [] := by
  have hlast : NoneRefused (passes env query (commitCount env.config.rpcTimeout + 1)
      (results, s)).1 := by
    rw [passes_succ']
    exact resolveAll_noneRefused env query _ _
  have hbefore : allTxResultsFound
      (passes env query (commitCount env.config.rpcTimeout) (results, s)).1 = true ↔
        awaited (passes env query (commitCount env.config.rpcTimeout) (results, s)).1 = [] ∧
          (commitCount env.config.rpcTimeout = 0 → NoneRefused results) := by
    rw [allTxResultsFound_iff_awaited]
    refine and_congr_right fun _ => ?_
    cases commitCount env.config.rpcTimeout with
    | zero => exact ⟨fun h _ => h, fun h => h rfl⟩
    | succ k =>
      rw [passes_succ']
      exact iff_of_true (resolveAll_noneRefused env query _ _) fun h =>
        absurd h (Nat.succ_ne_zero k)
  rw [waitForBlockCommits_passes, resultsAfter_passes, beforeLastTry, length_commitDelays,
    ← passes_succ', exists_empty_iff hlast, ← hbefore]
  by_cases hfound : allTxResultsFound
      (passes env query (commitCount env.config.rpcTimeout) (results, s)).1 = true
  · rw [if_pos hfound]
    exact iff_of_true (fun error h => by cases h) (.inl hfound)
  · rw [if_neg hfound]
    constructor
    · intro h
      exact .inr (h _ rfl)
    · rintro (h | h) error -
      · exact absurd h hfound
      · exact h

end

/-! ## Answers in order -/

/-- The lookups are answered one after the other. -/
def inTurn (answers : Nat → Answer) (_hash : Hash) (asked : Nat) : Answer × Nat :=
  (answers asked, asked + 1)

/-- The answer leaves its transaction waiting: an error, nothing, or an `Event::Empty` again. -/
def Answer.leaves : Answer → Bool
  | .error _ => true
  | .ok events => events.isEmpty || emptyEventPresent events

/-- How many of `waiting` transactions are left after so many rounds of lookups, when `asked`
    answers were given before.  A round takes an answer for each of them, and those stay that are
    left waiting by it. -/
def leftOver (answers : Nat → Answer) : (rounds asked waiting : Nat) → Nat
  | 0, _, waiting => waiting
  | rounds + 1, asked, waiting =>
    leftOver answers rounds (asked + waiting)
      ((List.range' asked waiting).countP fun n => (answers n).leaves)

/-- **Step lemma**: one turn of the `for` loop. -/
theorem resolve_inTurn (answers : Nat → Answer) (r : TxSyncResult) (asked : Nat) :
    (resolve env (inTurn answers) r asked).2 = asked + r.awaited.toList.length ∧
      (resolve env (inTurn answers) r asked).1.awaited.toList.length =
        (List.range' asked r.awaited.toList.length).countP fun n => (answers n).leaves := by
  unfold resolve inTurn TxSyncResult.awaited
  by_cases hempty : emptyEventPresent r.events = true
  · by_cases hcode : r.response.code.value = 0
    · cases hanswer : answers asked with
      | error kind => simp [hempty, hcode, hanswer, Answer.leaves]
      | ok events =>
        cases events with
        | nil => simp [hempty, hcode, hanswer, Answer.leaves]
        | cons event rest =>
          by_cases hagain : emptyEventPresent (event :: rest) = true <;>
            simp [hempty, hcode, hanswer, Answer.leaves, hagain]
    · simp [hempty, hcode]
  · simp [hempty]

/-- One round. -/
theorem resolveAll_inTurn (answers : Nat → Answer) (results : List TxSyncResult) (asked : Nat) :
    (resolveAll env (inTurn answers) results asked).2 = asked + (awaited results).length ∧
      (awaited (resolveAll env (inTurn answers) results asked).1).length =
        (List.range' asked (awaited results).length).countP fun n => (answers n).leaves := by
  induction results generalizing asked with
  | nil => exact ⟨rfl, rfl⟩
  | cons r rest ih =>
    obtain ⟨hasked, hleft⟩ := resolve_inTurn env answers r asked
    have hrest := ih (resolve env (inTurn answers) r asked).2
    rw [awaited_cons, List.length_append]
    unfold resolveAll
    rw [hasked] at hrest
    simp only [hasked, hrest.1, awaited_cons, List.length_append, hleft, hrest.2]
    refine ⟨Nat.add_assoc .., ?_⟩
    rw [← List.countP_append, ← List.range'_append_1]

/-- **Run lemma.**  The answers alone tell how many transactions are still to be looked up. -/
theorem passes_inTurn (answers : Nat → Answer) (k asked : Nat) (results : List TxSyncResult) :
    (awaited (passes env (inTurn answers) k (results, asked)).1).length =
      leftOver answers k asked (awaited results).length := by
  induction k generalizing asked results with
  | zero => rfl
  | succ k ih =>
    obtain ⟨hasked, hleft⟩ := resolveAll_inTurn env answers results asked
    rw [passes_succ, leftOver, ← hleft, ← hasked]
    exact ih _ _

/-! ## Any query answers in some order -/

/-- From the answer number `asked` on, the answers are those of the recorded lookups. -/
def Replays (answers : Nat → Answer) (asked : Nat) (log : List (Hash × Answer)) : Prop :=
  ∀ i x, log[i]? = some x → answers (asked + i) = x.2

theorem replays_append {answers : Nat → Answer} {asked : Nat} {log log' : List (Hash × Answer)}
    (h : Replays answers asked (log ++ log')) :
    Replays answers asked log ∧ Replays answers (asked + log.length) log' := by
  constructor
  · intro i x hx
    exact h i x (List.getElem?_append_left (List.getElem?_eq_some_iff.mp hx).1 ▸ hx)
  · intro i x hx
    have hlater : (log ++ log')[log.length + i]? = some x := by
      rw [List.getElem?_append_right (Nat.le_add_right _ _), Nat.add_sub_cancel_left]
      exact hx
    rw [Nat.add_assoc]
    exact h _ x hlater

section
variable (query : Hash → σ → Answer × σ)

/-- One turn of the `for` loop. -/
theorem resolve_replays {answers : Nat → Answer} {asked : Nat} {r : TxSyncResult} {s : σ}
    (h : Replays answers asked (resolution env query r s).lookup.toList) :
    resolve env (inTurn answers) r asked =
      ((resolve env query r s).1, asked + (resolution env query r s).lookup.toList.length) := by
  by_cases hempty : emptyEventPresent r.events = true
  · by_cases hcode : r.response.code.value = 0
    · have hlookup : (resolution env query r s).lookup =
          some (r.response.hash, (query r.response.hash s).1) := by
        simp [resolution, Resolution.lookup, hempty, hcode]
      rw [hlookup] at h ⊢
      have hanswer : answers asked = (query r.response.hash s).1 := h 0 _ rfl
      unfold resolve inTurn
      simp only [hempty, hcode, if_true, if_false, ne_eq, not_true_eq_false, hanswer]
      cases query r.response.hash s with
      | mk answer s' => cases answer <;> rfl
    · simp [resolve, resolution, Resolution.lookup, hempty, hcode]
  · simp [resolve, resolution, Resolution.lookup, hempty]

theorem resolutions_cons (r : TxSyncResult) (rest : List TxSyncResult) (s : σ) :
    (resolutions env query (r :: rest) s).filterMap Resolution.lookup =
      (resolution env query r s).lookup.toList ++
        (resolutions env query rest (resolve env query r s).2).filterMap Resolution.lookup := by
  show (resolution env query r s :: _).filterMap Resolution.lookup = _
  cases hlookup : (resolution env query r s).lookup with
  | none => rw [List.filterMap_cons_none hlookup]; rfl
  | some asked => rw [List.filterMap_cons_some hlookup]; rfl

/-- One round. -/
theorem resolveAll_replays {answers : Nat → Answer} {asked : Nat} {results : List TxSyncResult}
    {s : σ}
    (h : Replays answers asked ((resolutions env query results s).filterMap Resolution.lookup)) :
    resolveAll env (inTurn answers) results asked =
      ((resolveAll env query results s).1,
        asked + ((resolutions env query results s).filterMap Resolution.lookup).length) := by
  induction results generalizing s asked with
  | nil => rfl
  | cons r rest ih =>
    rw [resolutions_cons] at h ⊢
    obtain ⟨hfirst, hrest⟩ := replays_append h
    unfold resolveAll
    simp only [resolve_replays env query hfirst, ih hrest, List.length_append, Nat.add_assoc]

/-- The lookups of so many rounds. -/
def lookups (results : List TxSyncResult) (s : σ) (k : Nat) : List (Hash × Answer) :=
  (List.range k).flatMap fun j =>
    (passResolutions env query results s j).filterMap Resolution.lookup

theorem lookups_succ (results : List TxSyncResult) (s : σ) (k : Nat) :
    lookups env query results s (k + 1) = lookups env query results s k ++
      (passResolutions env query results s k).filterMap Resolution.lookup := by
  unfold lookups
  rw [List.range_succ, List.flatMap_append, List.flatMap_singleton]

/-- **Run lemma.** -/
theorem passes_replays {answers : Nat → Answer} {results : List TxSyncResult} {s : σ} {k : Nat}
    (h : Replays answers 0 (lookups env query results s k)) :
    passes env (inTurn answers) k (results, 0) =
      ((passes env query k (results, s)).1, (lookups env query results s k).length) := by
  induction k with
  | zero => rfl
  | succ k ih =>
    rw [lookups_succ] at h ⊢
    obtain ⟨hbefore, hlast⟩ := replays_append h
    rw [Nat.zero_add] at hlast
    rw [passes_succ', passes_succ', ih hbefore, List.length_append]
    exact resolveAll_replays env query hlast

/-- For every query there are answers in order with which the call runs as it does with the
    query. -/
theorem exists_inTurn (results : List TxSyncResult) (s : σ) :
    ∃ answers : Nat → Answer,
      (waitForBlockCommits env (inTurn answers) results 0).1 =
          (waitForBlockCommits env query results s).1 ∧
        resultsAfter env (inTurn answers) results 0 = resultsAfter env query results s := by
  let log := lookups env query results s (commitCount env.config.rpcTimeout + 1)
  let answers : Nat → Answer := fun n => (log[n]?.map Prod.snd).getD (.ok [])
  have hall : Replays answers 0 log := by
    intro i x hx
    show (log[0 + i]?.map Prod.snd).getD (.ok []) = x.2
    rw [Nat.zero_add, hx]
    rfl
  have hbefore :
      Replays answers 0 (lookups env query results s (commitCount env.config.rpcTimeout)) := by
    have hsplit : log = _ := lookups_succ env query results s _
    rw [hsplit] at hall
    exact (replays_append hall).1
  refine ⟨answers, ?_, ?_⟩
  · rw [waitForBlockCommits_passes, waitForBlockCommits_passes, beforeLastTry, beforeLastTry,
      length_commitDelays, passes_replays env query hbefore]
  · rw [resultsAfter_passes, resultsAfter_passes, beforeLastTry, beforeLastTry,
      length_commitDelays, ← passes_succ', ← passes_succ', passes_replays env query hall]

end

/-! ## The query of the chain -/

/-- What a try settles was not looked up, and the others wait on. -/
theorem awaited_settle (r : TxSyncResult) : (settle env r).awaited = r.awaited := by
  unfold settle
  by_cases h : emptyEventPresent r.events = true ∧ r.response.code.value ≠ 0
  · rw [if_pos h]
    unfold TxSyncResult.awaited
    rw [if_neg fun h' => Bool.false_ne_true h'.1, if_neg fun h' => h.2 h'.2]
  · rw [if_neg h]

theorem awaited_map_settle (results : List TxSyncResult) :
    awaited (results.map (settle env)) = awaited results := by
  unfold awaited
  rw [List.filterMap_map]
  exact congrArg (List.filterMap · results) (funext (awaited_settle env))

/-- A query that returns no event leaves the same transactions to be looked up in every round. -/
theorem awaited_passes_silent {query : Hash → σ → Answer × σ} (hquery : Silent query) (k : Nat)
    (p : List TxSyncResult × σ) : awaited (passes env query k p).1 = awaited p.1 := by
  cases k with
  | zero => rfl
  | succ k => rw [passes_silent env hquery, awaited_map_settle]

/-! ## Headline -/

/-- **Headline.**  For all transactions and waits.  Whatever the query, it gives its answers in some
    order.  For all answers in order: a timeout is reported only while something is unresolved, iff
    the lookups before the last try resolve all accepted transactions and there is a second try if
    refused ones wait, or those of all tries leave one.  And with the query of the chain, iff
    nothing waits, or an accepted transaction does, or there is a second try. -/
theorem timeout_unresolved_iff (env : Env N) (results : List TxSyncResult) :
    (∀ (τ : Type) (query : Hash → τ → Answer × τ) (s : τ), ∃ answers : Nat → Answer,
      (waitForBlockCommits env (inTurn answers) results 0).1 =
          (waitForBlockCommits env query results s).1 ∧
        resultsAfter env (inTurn answers) results 0 = resultsAfter env query results s) ∧
    (∀ answers : Nat → Answer,
      (∀ error, (waitForBlockCommits env (inTurn answers) results 0).1 = .error error →
        ∃ r ∈ resultsAfter env (inTurn answers) results 0, emptyEventPresent r.events = true) ↔
      (leftOver answers (commitCount env.config.rpcTimeout) 0 (awaited results).length = 0 ∧
        (commitCount env.config.rpcTimeout = 0 → NoneRefused results)) ∨
      leftOver answers (commitCount env.config.rpcTimeout + 1) 0 (awaited results).length ≠ 0) ∧
    ∀ node,
      (∀ error, (waitForBlockCommits env (queryEventsFromTxs env) results node).1 = .error error →
        ∃ r ∈ resultsAfter env (queryEventsFromTxs env) results node,
          emptyEventPresent r.events = true) ↔
      (∀ r ∈ results, emptyEventPresent r.events = false) ∨ awaited results ≠ [] ∨
        0 < commitCount env.config.rpcTimeout := by
  refine ⟨fun τ query s => exists_inTurn env query results s, fun answers => ?_, fun node => ?_⟩
  · rw [timeout_iff_awaited, ← passes_inTurn, ← passes_inTurn, List.length_eq_zero_iff, Ne, Ne,
      List.length_eq_zero_iff]
  · rw [timeout_iff_awaited, awaited_passes_silent env (queryEventsFromTxs_silent env),
      awaited_passes_silent env (queryEventsFromTxs_silent env), ← allTxResultsFound_iff,
      allTxResultsFound_iff_awaited, Nat.pos_iff_ne_zero]
    tauto

/-- There is no time for a second try. -/
def oneTryEnv : Env (List Bytes) :=
  { demoEnv commitNode with config := { demoConfig with rpcTimeout := 200 } }

/-- A transaction that was refused. -/
def refusedTx : TxSyncResult := ⟨⟨.err 5, "insufficient fee", [1]⟩, [.empty ""]⟩

/-- The only try resolves the refused transaction, and nothing looks at it any more. -/
theorem resolved_by_last_try :
    ¬ ∀ (env : Env (List Bytes)) (query : Hash → List Bytes → Answer × List Bytes)
        (results : List TxSyncResult) (s : List Bytes) (error : Kind),
      (waitForBlockCommits env query results s).1 = .error error →
        ∃ r ∈ resultsAfter env query results s, emptyEventPresent r.events = true := by
  intro h
  have herror : (waitForBlockCommits oneTryEnv (queryEventsFromTxs oneTryEnv) [refusedTx] []).1 =
      .error (noConfirmation oneTryEnv [refusedTx]) := rfl
  obtain ⟨r, hr, hempty⟩ := h oneTryEnv (queryEventsFromTxs oneTryEnv) [refusedTx] [] _ herror
  have hafter : resultsAfter oneTryEnv (queryEventsFromTxs oneTryEnv) [refusedTx] [] =
      [{ refusedTx with
        events := [.chainError (deliverTxError oneTryEnv refusedTx.response)] }] := rfl
  rw [hafter] at hr
  rw [List.mem_singleton.mp hr] at hempty
  exact Bool.false_ne_true hempty

end OffChainWorker.Cosmos
