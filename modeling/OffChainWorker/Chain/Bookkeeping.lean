/-
  What `wait_for_block_commits` makes of each of its transactions.

  A run of the `for` loop is laid out as a list with one entry for each transaction: what it was,
  the answer to its lookup if it had one, and what it became.  What became of it follows from the
  first two alone, so the transactions do not influence one another, whatever the node answers.
-/
import OffChainWorker.Chain.Commits

namespace OffChainWorker.Cosmos

open Proc

/-- An answer of `query_events_from_txs`. -/
abbrev Answer := Except Kind (List Event)

variable {N σ : Type} (env : Env N) (query : Hash → σ → Answer × σ)

/-- One transaction in one run: before it, the answer to its lookup, none when it is not looked up,
    and after it. -/
structure Resolution where
  before : TxSyncResult
  answer : Option Answer
  after : TxSyncResult

def resolution (r : TxSyncResult) (s : σ) : Resolution where
  before := r
  answer :=
    if emptyEventPresent r.events = true ∧ r.response.code.value = 0 then
      some (query r.response.hash s).1
    else none
  after := (resolve env query r s).1

/-- A run, one transaction after the other. -/
def resolutions : List TxSyncResult → σ → List Resolution
  | [], _ => []
  | r :: rest, s => resolution env query r s :: resolutions rest (resolve env query r s).2

/-- The run number `k`, counted from 0. -/
def passResolutions (results : List TxSyncResult) (s : σ) (k : Nat) : List Resolution :=
  resolutions env query (passes env query k (results, s)).1 (passes env query k (results, s)).2

/-- The lookup with its answer. -/
def Resolution.lookup (x : Resolution) : Option (Hash × Answer) :=
  x.answer.map fun answer => (x.before.response.hash, answer)

/-- The query, with a record of what was asked and answered. -/
def recorded (hash : Hash) (p : σ × List (Hash × Answer)) : Answer × (σ × List (Hash × Answer)) :=
  let answered := query hash p.1
  (answered.1, (answered.2, p.2 ++ [(hash, answered.1)]))

/-- What a run may make of a transaction. -/
inductive Bookkept : TxSyncResult → Option Answer → TxSyncResult → Prop where
  /-- Without an `Event::Empty`: left alone, and not looked up. -/
  | found {r : TxSyncResult} (hfound : emptyEventPresent r.events = false) : Bookkept r none r
  /-- It failed: one `ChainError`, and no lookup. -/
  | failed {r : TxSyncResult} (hempty : emptyEventPresent r.events = true)
      (hcode : r.response.code.value ≠ 0) :
      Bookkept r none { r with events := [.chainError (deliverTxError env r.response)] }
  | error {r : TxSyncResult} {kind : Kind} (hempty : emptyEventPresent r.events = true)
      (hcode : r.response.code.value = 0) : Bookkept r (some (.error kind)) r
  | nothing {r : TxSyncResult} (hempty : emptyEventPresent r.events = true)
      (hcode : r.response.code.value = 0) : Bookkept r (some (.ok [])) r
  /-- Replaced as a whole by the answer to its own lookup. -/
  | replaced {r : TxSyncResult} {events : List Event} (hempty : emptyEventPresent r.events = true)
      (hcode : r.response.code.value = 0) (hevents : events ≠ []) :
      Bookkept r (some (.ok events)) { r with events := events }

/-! ## One transaction -/

variable {env} in
theorem Bookkept.response {r r' : TxSyncResult} {answer : Option Answer}
    (h : Bookkept env r answer r') : r'.response = r.response := by
  cases h <;> rfl

variable {env} in
theorem Bookkept.of_found {r r' : TxSyncResult} {answer : Option Answer}
    (h : Bookkept env r answer r') (hfound : emptyEventPresent r.events = false) :
    answer = none ∧ r' = r := by
  cases h with
  | found _ => exact ⟨rfl, rfl⟩
  | failed hempty _ => exact absurd (hempty.symm.trans hfound) (by decide)
  | error hempty _ => exact absurd (hempty.symm.trans hfound) (by decide)
  | nothing hempty _ => exact absurd (hempty.symm.trans hfound) (by decide)
  | replaced hempty _ _ => exact absurd (hempty.symm.trans hfound) (by decide)

variable {env} in
theorem Bookkept.of_failed {r r' : TxSyncResult} {answer : Option Answer}
    (h : Bookkept env r answer r') (hempty : emptyEventPresent r.events = true)
    (hcode : r.response.code.value ≠ 0) :
    answer = none ∧ r' = { r with events := [.chainError (deliverTxError env r.response)] } := by
  cases h with
  | found hfound => exact absurd (hempty.symm.trans hfound) (by decide)
  | failed _ _ => exact ⟨rfl, rfl⟩
  | error _ hok => exact absurd hok hcode
  | nothing _ hok => exact absurd hok hcode
  | replaced _ hok _ => exact absurd hok hcode

variable {env} in
/-- The transaction and the answer to its own lookup decide what becomes of it. -/
theorem Bookkept.deterministic {r r₁ r₂ : TxSyncResult} {answer : Option Answer}
    (h₁ : Bookkept env r answer r₁) (h₂ : Bookkept env r answer r₂) : r₁ = r₂ := by
  cases h₁ with
  | found hfound => exact (h₂.of_found hfound).2.symm
  | failed hempty hcode => exact (h₂.of_failed hempty hcode).2.symm
  | error _ _ =>
    cases h₂
    rfl
  | nothing _ _ =>
    cases h₂ with
    | nothing _ _ => rfl
    | replaced _ _ hevents => exact absurd rfl hevents
  | replaced _ _ hevents =>
    cases h₂ with
    | nothing _ _ => exact absurd rfl hevents
    | replaced _ _ _ => rfl

/-- **Step lemma**: the body of the `for` loop. -/
theorem resolution_bookkept (r : TxSyncResult) (s : σ) :
    Bookkept env r (resolution env query r s).answer (resolution env query r s).after := by
  unfold resolution resolve
  by_cases hempty : emptyEventPresent r.events = true
  · by_cases hcode : r.response.code.value = 0
    · simp only [hempty, hcode, and_self, if_true, not_true_eq_false, if_false, ne_eq]
      cases query r.response.hash s with
      | mk answer s' =>
        cases answer with
        | error kind => exact .error hempty hcode
        | ok events =>
          cases events with
          | nil => exact .nothing hempty hcode
          | cons event rest => exact .replaced hempty hcode (List.cons_ne_nil event rest)
    · simp only [hempty, hcode, and_false, if_true, if_false, ne_eq, not_false_eq_true]
      exact .failed hempty hcode
  · have hfound : emptyEventPresent r.events = false := Bool.not_eq_true _ ▸ hempty
    simp only [hfound, Bool.false_eq_true, false_and, if_false]
    exact .found hfound

/-- The body asks what the entry of the run says, and nothing else. -/
theorem resolve_recorded (r : TxSyncResult) (s : σ) (log : List (Hash × Answer)) :
    resolve env (recorded query) r (s, log) =
      ((resolve env query r s).1, ((resolve env query r s).2,
        log ++ (resolution env query r s).lookup.toList)) := by
  unfold resolution resolve
  by_cases hempty : emptyEventPresent r.events = true
  · by_cases hcode : r.response.code.value = 0
    · simp only [hempty, hcode, and_self, if_true, not_true_eq_false, if_false, ne_eq, recorded,
        Resolution.lookup]
      cases query r.response.hash s with
      | mk answer s' => cases answer <;> rfl
    · simp [hempty, hcode, Resolution.lookup]
  · simp [hempty, Resolution.lookup]

/-! ## One run -/

theorem resolutions_before (results : List TxSyncResult) (s : σ) :
    (resolutions env query results s).map Resolution.before = results := by
  induction results generalizing s with
  | nil => rfl
  | cons r rest ih => exact congrArg (r :: ·) (ih (resolve env query r s).2)

theorem resolutions_after (results : List TxSyncResult) (s : σ) :
    (resolutions env query results s).map Resolution.after =
      (resolveAll env query results s).1 := by
  induction results generalizing s with
  | nil => rfl
  | cons r rest ih =>
    exact congrArg ((resolve env query r s).1 :: ·) (ih (resolve env query r s).2)

theorem resolutions_bookkept (results : List TxSyncResult) (s : σ) :
    ∀ x ∈ resolutions env query results s, Bookkept env x.before x.answer x.after := by
  induction results generalizing s with
  | nil => exact List.forall_mem_nil _
  | cons r rest ih =>
    intro x hx
    rcases List.mem_cons.mp hx with rfl | hx
    · exact resolution_bookkept env query r s
    · exact ih (resolve env query r s).2 x hx

theorem resolveAll_recorded (results : List TxSyncResult) (s : σ) (log : List (Hash × Answer)) :
    resolveAll env (recorded query) results (s, log) =
      ((resolveAll env query results s).1, ((resolveAll env query results s).2,
        log ++ (resolutions env query results s).filterMap Resolution.lookup)) := by
  induction results generalizing s log with
  | nil => simp [resolveAll, resolutions]
  | cons r rest ih =>
    have hlog : log ++ (resolution env query r s).lookup.toList ++
        (resolutions env query rest (resolve env query r s).2).filterMap Resolution.lookup =
        log ++ (resolutions env query (r :: rest) s).filterMap Resolution.lookup := by
      have hcons : resolutions env query (r :: rest) s =
        resolution env query r s :: resolutions env query rest (resolve env query r s).2 := rfl
      rw [List.append_assoc, hcons]
      cases hlookup : (resolution env query r s).lookup with
      | none => rw [List.filterMap_cons_none hlookup]; rfl
      | some asked => rw [List.filterMap_cons_some hlookup]; rfl
    unfold resolveAll
    simp only [resolve_recorded, ih, hlog]

/-! ## All runs -/

section
variable (results : List TxSyncResult) (s : σ)

theorem passResolutions_before (k : Nat) :
    (passResolutions env query results s k).map Resolution.before =
      (passes env query k (results, s)).1 :=
  resolutions_before env query _ _

theorem passResolutions_after (k : Nat) :
    (passResolutions env query results s k).map Resolution.after =
      (passes env query (k + 1) (results, s)).1 := by
  rw [passes_succ']
  exact resolutions_after env query _ _

/-- A transaction in a run. -/
theorem passResolutions_at {k i : Nat} {r : TxSyncResult}
    (h : (passes env query k (results, s)).1[i]? = some r) :
    ∃ x, (passResolutions env query results s k)[i]? = some x ∧ Bookkept env r x.answer x.after ∧
      (passes env query (k + 1) (results, s)).1[i]? = some x.after := by
  rw [← passResolutions_before, List.getElem?_map, Option.map_eq_some_iff] at h
  obtain ⟨x, hx, rfl⟩ := h
  have hbook := resolutions_bookkept env query _ _ x (List.mem_of_getElem? hx)
  refine ⟨x, hx, hbook, ?_⟩
  rw [← passResolutions_after, List.getElem?_map, hx]
  rfl

theorem passes_responses (k : Nat) :
    (passes env query k (results, s)).1.map TxSyncResult.response =
      results.map TxSyncResult.response := by
  induction k with
  | zero => rfl
  | succ k ih =>
    have hsame : ∀ x ∈ passResolutions env query results s k,
        x.after.response = x.before.response :=
      fun x hx => (resolutions_bookkept env query _ _ x hx).response
    rw [← ih, ← passResolutions_after, ← passResolutions_before, List.map_map, List.map_map]
    exact List.map_congr_left hsame

/-- **Run lemma**: what has no `Event::Empty` after some run stays as it is in all that follow. -/
theorem passes_of_found {k i : Nat} {r : TxSyncResult}
    (h : (passes env query k (results, s)).1[i]? = some r)
    (hfound : emptyEventPresent r.events = false) (m : Nat) :
    (passes env query (k + m) (results, s)).1[i]? = some r := by
  induction m with
  | zero => exact h
  | succ m ih =>
    obtain ⟨x, -, hbook, hnext⟩ := passResolutions_at env query results s ih
    rw [(hbook.of_found hfound).2] at hnext
    exact hnext

theorem passes_recorded (k : Nat) :
    passes env (recorded query) k (results, (s, [])) =
      ((passes env query k (results, s)).1, ((passes env query k (results, s)).2,
        (List.range k).flatMap fun j =>
          (passResolutions env query results s j).filterMap Resolution.lookup)) := by
  induction k with
  | zero => rfl
  | succ k ih =>
    rw [passes_succ', ih, passes_succ', List.range_succ, List.flatMap_append,
      List.flatMap_singleton]
    exact resolveAll_recorded env query _ _ _

/-- A wait leaves the node as one more run than there are delays does. -/
theorem waitForBlockCommits_state :
    (waitForBlockCommits env query results s).2 =
      (passes env query ((commitDelays env.config.rpcTimeout).length + 1) (results, s)).2 := by
  obtain ⟨error, hloop⟩ := retryWithIndex_tryCommits env query results s
  have hlast : passes env query ((commitDelays env.config.rpcTimeout).length + 1) (results, s) =
      pass env query (beforeLastTry env query results s) := passes_succ' env query _ _
  unfold waitForBlockCommits
  rw [hloop, hlast]
  by_cases hfound : allTxResultsFound (beforeLastTry env query results s).1 = true
  · rw [if_pos hfound]
    exact congrArg Prod.snd (passes_found env query hfound 1).symm
  · rw [if_neg hfound]

end

/-! ## `send_msgs` on any query -/

/-- `wait_for_block_commits` on a query of the node. -/
def awaitCommitsVia (query : Hash → N → Answer × N) (results : List TxSyncResult) :
    ChainM N (List TxSyncResult) := fun s =>
  match waitForBlockCommits env query results s.node with
  | (.ok results, node) => (.ok results, { s with node := node })
  | (.error kind, node) => (.err kind, { s with node := node })

/-- `send_msgs`, on any answers to the lookups of its transactions. -/
def sendMsgsVia (query : Hash → N → Answer × N) (protoMsgs : List Any) : ChainM N (List Event) :=
  if protoMsgs.isEmpty then return []
  else do
    let results ← sendBatches env protoMsgs 0 0 [] []
    let results ← awaitCommitsVia env query results
    return results.flatMap TxSyncResult.events

/-- The chain's own query gives the `send_msgs` of the chain. -/
theorem sendMsgsVia_queryEventsFromTxs :
    sendMsgsVia env (queryEventsFromTxs env) = sendMsgs env := rfl

theorem awaitCommitsVia_ok {query : Hash → N → Answer × N} {results results' : List TxSyncResult}
    {s s' : ChainState N} (h : awaitCommitsVia env query results s = (.ok results', s')) :
    (waitForBlockCommits env query results s.node).1 = .ok results' := by
  unfold awaitCommitsVia at h
  split at h
  · rename_i heq
    rw [heq, Outcome.ok.inj (Prod.mk.inj h).1]
  · nomatch h

/-- What `wait_for_block_commits` returns is what the tries leave, and nothing in it is empty. -/
theorem waitForBlockCommits_ok {query : Hash → σ → Answer × σ}
    {results results' : List TxSyncResult} {s : σ}
    (h : (waitForBlockCommits env query results s).1 = .ok results') :
    results' = resultsAfter env query results s ∧
      ∀ r ∈ results', emptyEventPresent r.events = false := by
  rw [waitForBlockCommits_passes] at h
  by_cases hfound : allTxResultsFound (beforeLastTry env query results s).1 = true
  · rw [if_pos hfound] at h
    obtain rfl := Except.ok.inj h
    refine ⟨?_, allTxResultsFound_iff.mp hfound⟩
    rw [resultsAfter_passes]
    exact congrArg Prod.fst (passes_found env query hfound 1).symm
  · rw [if_neg hfound] at h
    nomatch h

theorem sendMsgsVia_ok {query : Hash → N → Answer × N} {protoMsgs : List Any} {events : List Event}
    {s s' : ChainState N} (h : sendMsgsVia env query protoMsgs s = (.ok events, s')) :
    ∃ results s₁, sendBatches env protoMsgs 0 0 [] [] s = (.ok results, s₁) ∧
      (waitForBlockCommits env query results s₁.node).1 =
        .ok (resultsAfter env query results s₁.node) ∧
      events = (resultsAfter env query results s₁.node).flatMap TxSyncResult.events := by
  unfold sendMsgsVia at h
  by_cases hmsgs : protoMsgs.isEmpty = true
  · rw [if_pos hmsgs] at h
    obtain rfl := List.isEmpty_iff.mp hmsgs
    have hwait : (waitForBlockCommits env query [] s.node).1 = .ok [] := by
      rw [waitForBlockCommits_passes, beforeLastTry, passes_found env query rfl]
      rfl
    have hafter := (waitForBlockCommits_ok env hwait).1
    refine ⟨[], s, rfl, ?_, ?_⟩
    · rw [← hafter, hwait]
    · rw [← hafter, ← Outcome.ok.inj (Prod.mk.inj h).1]
      rfl
  · rw [if_neg hmsgs] at h
    obtain ⟨results, s₁, hsent, h⟩ := Action.bind_eq_ok h
    obtain ⟨results', s₂, hawait, h⟩ := Action.bind_eq_ok h
    have hwait := awaitCommitsVia_ok env hawait
    have hafter := (waitForBlockCommits_ok env hwait).1
    rw [← Outcome.ok.inj (Prod.mk.inj h).1]
    refine ⟨results, s₁, hsent, ?_, ?_⟩
    · rw [← hafter, hwait]
    · rw [← hafter]

/-! ## The bookkeeping -/

/-- What holds of the transactions over any number of runs, and of the answer. -/
structure Bookkeeping (results : List TxSyncResult) (s : σ) : Prop where
  /-- Every run keeps the transactions in their places, with their responses. -/
  responses : ∀ k, (passes env query k (results, s)).1.map TxSyncResult.response =
    results.map TxSyncResult.response
  /-- It makes of each what is allowed. -/
  step : ∀ (k i : Nat) (r : TxSyncResult), (passes env query k (results, s)).1[i]? = some r →
    ∃ x, (passResolutions env query results s k)[i]? = some x ∧ Bookkept env r x.answer x.after ∧
      (passes env query (k + 1) (results, s)).1[i]? = some x.after
  /-- The calls that are made are the lookups of the runs, in order. -/
  lookups : (waitForBlockCommits env (recorded query) results (s, [])).2.2 =
    (List.range ((commitDelays env.config.rpcTimeout).length + 1)).flatMap fun j =>
      (passResolutions env query results s j).filterMap Resolution.lookup
  /-- What has no `Event::Empty` is not changed any more, and not looked up. -/
  found : ∀ (k i : Nat) (r : TxSyncResult), (passes env query k (results, s)).1[i]? = some r →
    emptyEventPresent r.events = false →
    ∀ m, k ≤ m → (passes env query m (results, s)).1[i]? = some r ∧
      ∃ x, (passResolutions env query results s m)[i]? = some x ∧ x.answer = none
  /-- What failed is one `ChainError` from the first run on, and is never looked up. -/
  failed : ∀ (i : Nat) (r : TxSyncResult), results[i]? = some r →
    emptyEventPresent r.events = true → r.response.code.value ≠ 0 →
    ∀ k, (passes env query (k + 1) (results, s)).1[i]? =
        some { r with events := [.chainError (deliverTxError env r.response)] } ∧
      ∃ x, (passResolutions env query results s k)[i]? = some x ∧ x.answer = none
  /-- The tries stop after some run. -/
  stop : resultsAfter env query results s =
    (passes env query ((commitDelays env.config.rpcTimeout).length + 1) (results, s)).1
  /-- What is returned is what they leave, without an `Event::Empty`. -/
  returned : ∀ results', (waitForBlockCommits env query results s).1 = .ok results' →
    results' = resultsAfter env query results s ∧
      ∀ r ∈ results', emptyEventPresent r.events = false

theorem failed_stays {results : List TxSyncResult} {s : σ} {i : Nat} {r : TxSyncResult}
    (h : results[i]? = some r) (hempty : emptyEventPresent r.events = true)
    (hcode : r.response.code.value ≠ 0) (k : Nat) :
    (passes env query (k + 1) (results, s)).1[i]? =
        some { r with events := [.chainError (deliverTxError env r.response)] } ∧
      ∃ x, (passResolutions env query results s k)[i]? = some x ∧ x.answer = none := by
  obtain ⟨x, hx, hbook, hnext⟩ := passResolutions_at env query (k := 0) results s h
  obtain ⟨hanswer, hafter⟩ := hbook.of_failed hempty hcode
  rw [hafter] at hnext
  have hlater := passes_of_found env query results s hnext rfl
  refine ⟨Nat.add_comm 1 k ▸ hlater k, ?_⟩
  cases k with
  | zero => exact ⟨x, hx, hanswer⟩
  | succ k =>
    obtain ⟨x', hx', hbook', -⟩ := passResolutions_at env query results s (hlater k)
    rw [Nat.add_comm] at hx'
    exact ⟨x', hx', (hbook'.of_found rfl).1⟩

theorem waitForBlockCommits_bookkeeping (results : List TxSyncResult) (s : σ) :
    Bookkeeping env query results s where
  responses := passes_responses env query results s
  step _ _ _ h := passResolutions_at env query results s h
  lookups := by
    rw [waitForBlockCommits_state, passes_recorded]
  found k i r h hfound m hm := by
    obtain ⟨m, rfl⟩ := Nat.exists_eq_add_of_le hm
    have hlater := passes_of_found env query results s h hfound m
    obtain ⟨x, hx, hbook, -⟩ := passResolutions_at env query results s hlater
    exact ⟨hlater, x, hx, (hbook.of_found hfound).1⟩
  failed _ _ := failed_stays env query
  stop := by
    rw [resultsAfter_passes, passes_succ']
    rfl
  returned _ := waitForBlockCommits_ok env

/-- Transactions without an `Event::Empty` have no such event together. -/
theorem emptyEventPresent_flatMap {results : List TxSyncResult}
    (h : ∀ r ∈ results, emptyEventPresent r.events = false) :
    emptyEventPresent (results.flatMap TxSyncResult.events) = false := by
  unfold emptyEventPresent at h ⊢
  rw [List.any_flatMap]
  apply List.any_eq_false.mpr
  intro r hr
  exact Bool.eq_false_iff.mp (h r hr)

/-- **Headline.** `wait_for_block_commits` keeps the books of its transactions, whatever the
    answers to its lookups, and `send_msgs` returns the events of all of them in the order they
    were sent. -/
theorem commits_bookkeeping (env : Env N) (query : Hash → σ → Answer × σ)
    (results : List TxSyncResult) (s : σ) (chainQuery : Hash → N → Answer × N)
    (protoMsgs : List Any) (state : ChainState N) :
    Bookkeeping env query results s ∧
      ∀ events state', sendMsgsVia env chainQuery protoMsgs state = (.ok events, state') →
        emptyEventPresent events = false ∧
        ∃ sent state₁, sendBatches env protoMsgs 0 0 [] [] state = (.ok sent, state₁) ∧
          (resultsAfter env chainQuery sent state₁.node).map TxSyncResult.response =
            sent.map TxSyncResult.response ∧
          events =
            (resultsAfter env chainQuery sent state₁.node).flatMap TxSyncResult.events := by
  refine ⟨waitForBlockCommits_bookkeeping env query results s, ?_⟩
  intro events state' h
  obtain ⟨sent, state₁, hsent, hwait, rfl⟩ := sendMsgsVia_ok env h
  have hbook := waitForBlockCommits_bookkeeping env chainQuery sent state₁.node
  have hreturned := hbook.returned _ hwait
  refine ⟨emptyEventPresent_flatMap hreturned.2, sent, state₁, hsent, ?_, rfl⟩
  rw [hbook.stop]
  exact hbook.responses _

end OffChainWorker.Cosmos
