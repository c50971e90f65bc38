/-
  How `send_msgs` cuts its messages into transactions.

  The loop of `send_msgs` is repeated here with its local variables in one record (`BatchLoop`) and
  with `send_tx` as a parameter, so that it can be run with a recorder in its place: `handed` are
  the message lists that reach `send_tx`, with what came of each.  With `send_tx` itself it is the
  loop of `SendMsgs` (`sendBatchesVia_sendTx`).

  The number and the size that the loop keeps are those of the batch it keeps, so its test is one of
  the batch alone (`atLimit`) and the loop is a greedy cut of the messages followed by one call for
  each piece (`sendBatchesVia_eq`).  The test comes after the message, so a batch is within the size
  limit only when the sizes happen to add up to it or the number of messages ends the batch before
  (`NeverOver`).
-/
import OffChainWorker.Chain.SendMsgs
import OffChainWorker.Lib.Calls
import OffChainWorker.Lib.Cut

namespace OffChainWorker.Cosmos

open Proc

/-! ## The loop -/

/-- The variables of the loop over the messages. -/
structure BatchLoop where
  n : Nat
  size : Nat
  msgBatch : List Any
  txSyncResults : List TxSyncResult
deriving Repr, DecidableEq

namespace BatchLoop

def start : BatchLoop := ⟨0, 0, [], []⟩

end BatchLoop

/-- One `Event::Empty` for each message of a batch. -/
def placeholders (msgBatch : List Any) : List Event := List.replicate msgBatch.length (.empty "")

/-- Remember the response to a batch. -/
def remember (results : List TxSyncResult) (msgBatch : List Any) (response : Response) :
    List TxSyncResult :=
  results ++ [{ response := response, events := placeholders msgBatch }]

section
variable {N σ : Type} (env : Env N) (send : List Any → Action σ Kind Response)

/-- Send a batch and remember it. -/
def sendBatchVia (msgBatch : List Any) (results : List TxSyncResult) :
    Action σ Kind (List TxSyncResult) := do
  let response ← send msgBatch
  return remember results msgBatch response

/-- One turn of the loop. -/
def turn (st : BatchLoop) (msg : Any) : Action σ Kind BatchLoop :=
  let msgBatch := st.msgBatch ++ [msg]
  let n := st.n + 1
  let size := st.size + (env.prost.any msg).length
  if maxMsgNum env ≤ n ∨ maxTxSize env ≤ size then do
    let results ← sendBatchVia send msgBatch st.txSyncResults
    return { n := 0, size := 0, msgBatch := [], txSyncResults := results }
  else return { n := n, size := size, msgBatch := msgBatch, txSyncResults := st.txSyncResults }

/-- The turns of the loop on a list of messages. -/
def turns : BatchLoop → List Any → Action σ Kind BatchLoop
  | st, [] => return st
  | st, msg :: msgs => do
    let st ← turn env send st msg
    turns st msgs

/-- What follows the loop: the batch that is left is sent. -/
def flush (st : BatchLoop) : Action σ Kind (List TxSyncResult) :=
  if st.msgBatch.isEmpty then return st.txSyncResults
  else sendBatchVia send st.msgBatch st.txSyncResults

/-- The sending part of `send_msgs`, with `send` in place of `send_tx`. -/
def sendBatchesVia (protoMsgs : List Any) : Action σ Kind (List TxSyncResult) := do
  let st ← turns env send .start protoMsgs
  flush send st

/-- The message lists that reach `send`, with what came of each. -/
def handed (protoMsgs : List Any) (s : σ) : List (List Any × Outcome Kind Response) :=
  (sendBatchesVia env (Action.recorded send) protoMsgs (s, [])).2.2

end

/-! ## It is the loop of `send_msgs` -/

section
variable {N : Type} (env : Env N)

theorem turns_flush_sendTx (st : BatchLoop) (msgs : List Any) :
    (turns env (sendTx env) st msgs >>= flush (sendTx env)) =
      sendBatches env msgs st.n st.size st.msgBatch st.txSyncResults := by
  induction msgs generalizing st with
  | nil => rfl
  | cons msg msgs ih =>
    rw [turns, Action.bind_bind, sendBatches, turn]
    split
    · rw [Action.bind_bind]
      refine congrArg (sendBatch env (st.msgBatch ++ [msg]) st.txSyncResults >>= ·) ?_
      funext results
      exact ih ⟨0, 0, [], results⟩
    · exact ih ⟨_, _, _, _⟩

theorem sendBatchesVia_sendTx (protoMsgs : List Any) :
    sendBatchesVia env (sendTx env) protoMsgs = sendBatches env protoMsgs 0 0 [] [] :=
  turns_flush_sendTx env .start protoMsgs

end

/-! ## It is a cut followed by calls -/

section
variable {N σ : Type} (env : Env N) {send : List Any → Action σ Kind Response}

/-- The encoded length of the messages of a batch. -/
def encodedSize (msgBatch : List Any) : Nat := (msgBatch.flatMap env.prost.any).length

/-- The test of the loop, on the batch with the message just appended. -/
def atLimit (msgBatch : List Any) : Bool :=
  decide (maxMsgNum env ≤ msgBatch.length ∨ maxTxSize env ≤ encodedSize env msgBatch)

/-- The messages cut into batches. -/
def batches (protoMsgs : List Any) : List (List Any) := cut (atLimit env) protoMsgs

theorem encodedSize_snoc (msgBatch : List Any) (msg : Any) :
    encodedSize env (msgBatch ++ [msg]) =
      encodedSize env msgBatch + (env.prost.any msg).length := by
  simp [encodedSize]

/-- The counters are those of the batch. -/
structure BatchLoop.Counts (st : BatchLoop) : Prop where
  n : st.n = st.msgBatch.length
  size : st.size = encodedSize env st.msgBatch

theorem BatchLoop.counts_start : BatchLoop.start.Counts env := ⟨rfl, rfl⟩

theorem BatchLoop.counts_closed (results : List TxSyncResult) :
    BatchLoop.Counts env ⟨0, 0, [], results⟩ := ⟨rfl, rfl⟩

variable {env}

theorem BatchLoop.Counts.snoc {st : BatchLoop} (h : st.Counts env) (msg : Any) :
    BatchLoop.Counts env ⟨st.n + 1, st.size + (env.prost.any msg).length, st.msgBatch ++ [msg],
      st.txSyncResults⟩ where
  n := by
    show st.n + 1 = (st.msgBatch ++ [msg]).length
    rw [h.n, List.length_append]
    rfl
  size := by
    show st.size + _ = encodedSize env (st.msgBatch ++ [msg])
    rw [h.size, encodedSize_snoc]

/-- So the test is one of the batch. -/
theorem BatchLoop.Counts.limit_iff {st : BatchLoop} (h : st.Counts env) (msg : Any) :
    (maxMsgNum env ≤ st.n + 1 ∨ maxTxSize env ≤ st.size + (env.prost.any msg).length) ↔
      atLimit env (st.msgBatch ++ [msg]) = true := by
  have hsnoc := h.snoc msg
  unfold atLimit
  rw [decide_eq_true_iff, ← hsnoc.n, ← hsnoc.size]

/-- A turn that closes the batch. -/
theorem turn_closes {st : BatchLoop} (h : st.Counts env) {msg : Any}
    (hlimit : atLimit env (st.msgBatch ++ [msg]) = true) :
    turn env send st msg =
      sendBatchVia send (st.msgBatch ++ [msg]) st.txSyncResults >>= fun results =>
        pure ⟨0, 0, [], results⟩ := by
  unfold turn
  exact if_pos ((h.limit_iff msg).mpr hlimit)

/-- A turn that keeps it open. -/
theorem turn_keeps {st : BatchLoop} (h : st.Counts env) {msg : Any}
    (hlimit : atLimit env (st.msgBatch ++ [msg]) = false) :
    turn env send st msg = pure ⟨st.n + 1, st.size + (env.prost.any msg).length,
      st.msgBatch ++ [msg], st.txSyncResults⟩ := by
  unfold turn
  refine if_neg fun hl => ?_
  rw [(h.limit_iff msg).mp hl] at hlimit
  nomatch hlimit

theorem sendBatchVia_eq (send : List Any → Action σ Kind Response) (msgBatch : List Any)
    (results : List TxSyncResult) :
    sendBatchVia send msgBatch results =
      send msgBatch >>= fun response => pure (remember results msgBatch response) := rfl

theorem turns_flush_eq (send : List Any → Action σ Kind Response) {st : BatchLoop}
    (h : st.Counts env) (msgs : List Any) :
    (turns env send st msgs >>= flush send) =
      Action.callEach send remember (cutFrom (atLimit env) st.msgBatch msgs) st.txSyncResults := by
  induction msgs generalizing st with
  | nil =>
    show flush send st = _
    rw [flush, cutFrom]
    split <;> rfl
  | cons msg msgs ih =>
    rw [turns, Action.bind_bind, cutFrom]
    cases hlimit : atLimit env (st.msgBatch ++ [msg]) with
    | true =>
      rw [turn_closes h hlimit, sendBatchVia_eq, Action.bind_bind, Action.bind_bind, if_pos rfl,
        Action.callEach]
      refine congrArg (send (st.msgBatch ++ [msg]) >>= ·) ?_
      funext response
      exact ih (BatchLoop.counts_closed env
        (remember st.txSyncResults (st.msgBatch ++ [msg]) response))
    | false =>
      rw [turn_keeps h hlimit, if_neg (by decide)]
      exact ih (h.snoc msg)

/-- **The loop is a cut followed by a call for each piece.** -/
theorem sendBatchesVia_eq (send : List Any → Action σ Kind Response) (protoMsgs : List Any) :
    sendBatchesVia env send protoMsgs =
      Action.callEach send remember (batches env protoMsgs) [] :=
  turns_flush_eq send (BatchLoop.counts_start env) protoMsgs

/-- The calls that reach `send`. -/
theorem handed_eq (send : List Any → Action σ Kind Response) (protoMsgs : List Any) (s : σ) :
    handed env send protoMsgs s = Action.callsOf send (batches env protoMsgs) s := by
  unfold handed
  rw [sendBatchesVia_eq, Action.callEach_recorded]
  rfl

end

/-! ## What is remembered -/

section
variable {N σ : Type} {env : Env N} {send : List Any → Action σ Kind Response}

/-- Recording the calls changes nothing else. -/
theorem sendBatchesVia_recorded (send : List Any → Action σ Kind Response) (protoMsgs : List Any) :
    Action.Maps Prod.fst (sendBatchesVia env (Action.recorded send) protoMsgs)
      (sendBatchesVia env send protoMsgs) := by
  rw [sendBatchesVia_eq, sendBatchesVia_eq]
  exact Action.callEach_maps (Action.recorded_maps send) _ _

theorem addAll_remember (results : List TxSyncResult)
    {calls : List (List Any × Outcome Kind Response)}
    (h : ∀ c ∈ calls, ∃ response, c.2 = .ok response) :
    (Action.addAll remember results calls).map TxSyncResult.events =
      results.map TxSyncResult.events ++ calls.map fun c => placeholders c.1 := by
  induction calls generalizing results with
  | nil => exact (List.append_nil _).symm
  | cons c calls ih =>
    obtain ⟨response, hc⟩ := h c List.mem_cons_self
    have hrest := ih (remember results c.1 response) fun c' hc' => h c' (List.mem_cons_of_mem c hc')
    obtain ⟨msgBatch, outcome⟩ := c
    obtain rfl : outcome = .ok response := hc
    show (Action.addAll remember (remember results msgBatch response) calls).map _ = _
    rw [hrest, remember, List.map_append, List.append_assoc]
    rfl

/-- The batches sent so far and the open one make up the messages so far, and for every message
    that was sent there is a placeholder. -/
def Remembers (pre : List Any) (st : BatchLoop) : Prop :=
  ∃ sent : List (List Any), sent.flatten ++ st.msgBatch = pre ∧
    st.txSyncResults.map TxSyncResult.events = sent.map placeholders

/-- **Step lemma.** -/
theorem turn_remembers {pre : List Any} {st st' : BatchLoop} {msg : Any} {s s' : σ}
    (hst : Remembers pre st) (h : turn env send st msg s = (.ok st', s')) :
    Remembers (pre ++ [msg]) st' := by
  obtain ⟨sent, hpre, hresults⟩ := hst
  unfold turn at h
  split at h
  · obtain ⟨results, s₁, hsent, h⟩ := Action.bind_eq_ok h
    obtain ⟨response, s₂, -, hsent⟩ := Action.bind_eq_ok hsent
    obtain rfl := Outcome.ok.inj (Prod.mk.inj hsent).1
    obtain rfl := Outcome.ok.inj (Prod.mk.inj h).1
    refine ⟨sent ++ [st.msgBatch ++ [msg]], ?_, ?_⟩
    · rw [List.flatten_append, ← hpre]
      simp
    · rw [remember, List.map_append, List.map_append, hresults]
      rfl
  · obtain rfl := Outcome.ok.inj (Prod.mk.inj h).1
    exact ⟨sent, by rw [← hpre, List.append_assoc], hresults⟩

/-- **Run lemma.** -/
theorem turns_remembers {pre msgs : List Any} {st st' : BatchLoop} {s s' : σ}
    (hst : Remembers pre st) (h : turns env send st msgs s = (.ok st', s')) :
    Remembers (pre ++ msgs) st' := by
  induction msgs generalizing pre st s with
  | nil =>
    obtain rfl := Outcome.ok.inj (Prod.mk.inj h).1
    rw [List.append_nil]
    exact hst
  | cons msg msgs ih =>
    obtain ⟨st₁, s₁, hturn, h⟩ := Action.bind_eq_ok h
    have hrest := ih (turn_remembers hst hturn) h
    rw [List.append_assoc] at hrest
    exact hrest

/-! ## The split -/

/-- The calls of `send_tx` are those of a split of the messages. -/
structure SplitFaithfully (env : Env N) (protoMsgs : List Any)
    (calls : List (List Any × Outcome Kind Response)) : Prop where
  /-- The batches make up the messages, in order. -/
  whole : (batches env protoMsgs).flatten = protoMsgs
  /-- The first of them are sent, each once and in order. -/
  front : calls.map Prod.fst <+: batches env protoMsgs
  /-- Nothing is sent after a call that failed. -/
  returned : ∀ c ∈ calls.dropLast, ∃ response, c.2 = .ok response
  /-- All of them are sent when no call fails. -/
  complete : (∀ c ∈ calls, ∃ response, c.2 = .ok response) →
    (calls.map Prod.fst).flatten = protoMsgs
  nonempty : ∀ c ∈ calls, c.1 ≠ []
  count : ∀ c ∈ calls, c.1.length ≤ max 1 (maxMsgNum env)
  /-- A batch before the last one has reached a limit. -/
  closed : ∀ c ∈ calls.dropLast,
    maxMsgNum env ≤ c.1.length ∨ maxTxSize env ≤ encodedSize env c.1
  /-- It has reached none before its last message. -/
  below : ∀ c ∈ calls, ∀ q, q <+: c.1 → q ≠ c.1 → q ≠ [] →
    q.length < maxMsgNum env ∧ encodedSize env q < maxTxSize env

theorem atLimit_iff {b : List Any} :
    atLimit env b = true ↔ maxMsgNum env ≤ b.length ∨ maxTxSize env ≤ encodedSize env b :=
  decide_eq_true_iff

theorem not_atLimit {b : List Any} (h : atLimit env b = false) :
    b.length < maxMsgNum env ∧ encodedSize env b < maxTxSize env := by
  have hnot : ¬ (maxMsgNum env ≤ b.length ∨ maxTxSize env ≤ encodedSize env b) :=
    fun hl => Bool.eq_false_iff.mp h (atLimit_iff.mpr hl)
  rw [not_or] at hnot
  exact ⟨Nat.lt_of_not_le hnot.1, Nat.lt_of_not_le hnot.2⟩

/-- A batch that was below the limits before its last message has not too many messages. -/
theorem length_le_of_fullAtLast {b : List Any} (hb : FullAtLast (atLimit env) b) :
    b.length ≤ max 1 (maxMsgNum env) := by
  rcases List.eq_nil_or_concat b with rfl | ⟨init, msg, rfl⟩
  · exact Nat.zero_le _
  · rw [List.concat_eq_append] at hb ⊢
    rw [List.length_append]
    by_cases hinit : init = []
    · rw [hinit]
      exact Nat.le_max_left 1 _
    · have hne : init ≠ init ++ [msg] := by simp
      have hlt := (not_atLimit (hb init (List.prefix_append init [msg]) hinit hne)).1
      exact Nat.le_trans hlt (Nat.le_max_right 1 _)

theorem splitFaithfully (env : Env N) (send : List Any → Action σ Kind Response)
    (protoMsgs : List Any) (s : σ) :
    SplitFaithfully env protoMsgs (handed env send protoMsgs s) := by
  rw [handed_eq]
  have hfront := Action.callsOf_inputs send (batches env protoMsgs) s
  obtain ⟨hpieces, hclosed⟩ := cut_pieces (atLimit env) protoMsgs
  have hbatch : ∀ c ∈ Action.callsOf send (batches env protoMsgs) s,
      c.1 ≠ [] ∧ FullAtLast (atLimit env) c.1 := by
    intro c hc
    exact hpieces c.1 (hfront.subset (List.mem_map_of_mem hc))
  exact {
    whole := flatten_cut protoMsgs
    front := hfront
    returned := Action.callsOf_dropLast _ s
    complete := by
      intro hok
      rw [(Action.callEach_ok remember hok []).1]
      exact flatten_cut protoMsgs
    nonempty := fun c hc => (hbatch c hc).1
    count := fun c hc => length_le_of_fullAtLast (hbatch c hc).2
    closed := by
      intro c hc
      have hmem : c.1 ∈ (batches env protoMsgs).dropLast := by
        refine mem_dropLast_of_prefix hfront ?_
        rw [← List.map_dropLast]
        exact List.mem_map_of_mem hc
      exact atLimit_iff.mp (hclosed c.1 hmem)
    below := fun c hc q hq hproper hne => not_atLimit ((hbatch c hc).2 q hq hne hproper) }

/-- **Headline.**  Whatever `send_tx` comes to, its calls split the messages faithfully, and every
    recorded transaction has one placeholder for each of its messages. -/
theorem sendMsgs_splits (env : Env N) (send : List Any → Action σ Kind Response)
    (protoMsgs : List Any) (s : σ) :
    sendBatchesVia env (sendTx env) protoMsgs = sendBatches env protoMsgs 0 0 [] [] ∧
      Action.Maps Prod.fst (sendBatchesVia env (Action.recorded send) protoMsgs)
        (sendBatchesVia env send protoMsgs) ∧
      SplitFaithfully env protoMsgs (handed env send protoMsgs s) ∧
      (∀ pre, pre <+: protoMsgs → ∀ st s', turns env send .start pre s = (.ok st, s') →
        Remembers pre st) ∧
      ∀ results s', sendBatchesVia env send protoMsgs s = (.ok results, s') →
        results.map TxSyncResult.events =
          (handed env send protoMsgs s).map fun c => placeholders c.1 := by
  refine ⟨sendBatchesVia_sendTx env protoMsgs, sendBatchesVia_recorded send protoMsgs,
    splitFaithfully env send protoMsgs s, fun pre _ st s' h => ?_, fun results s' h => ?_⟩
  · exact turns_remembers ⟨[], rfl, rfl⟩ h
  · rw [sendBatchesVia_eq] at h
    obtain ⟨hok, rfl⟩ := Action.callsOf_of_callEach_ok h
    rw [handed_eq]
    exact addAll_remember [] hok

/-- A node that cannot be reached; what is handed to `send_tx` first is handed to it all the
    same. -/
def unreachableNode : Node Unit where
  account _ n := (.error (), n)
  balance _ _ n := (.error (), n)
  simulate _ n := (.error (), n)
  broadcastTxSync _ n := (.error (), n)
  txSearch _ n := (.error (), n)

/-- At most `maxMsgNum` messages and `maxTxSize` bytes. -/
def limitsEnv (maxMsgNum maxTxSize : Option Nat) : Env Unit :=
  { demoEnv unreachableNode with
    config := { demoConfig with maxMsgNum := maxMsgNum, maxTxSize := maxTxSize } }

/-- A limit of zero is reached by the empty front of a batch. -/
theorem empty_front_at_limit :
    ¬ ∀ (env : Env Unit) (protoMsgs : List Any) (s : ChainState Unit),
      ∀ c ∈ handed env (sendTx env) protoMsgs s, ∀ q, q <+: c.1 → q ≠ c.1 →
        ¬ (maxMsgNum env ≤ q.length ∨ maxTxSize env ≤ encodedSize env q) := by
  intro h
  have hcalls : (handed (limitsEnv (some 0) none) (sendTx (limitsEnv (some 0) none)) demoMsgs
      ⟨none, ()⟩).map Prod.fst = [[⟨"/cosmos.bank.v1beta1.MsgSend", [10]⟩]] := by
    decide +kernel
  obtain ⟨c, hc, hbatch⟩ := List.mem_map.mp (hcalls ▸ List.mem_singleton.mpr rfl)
  refine h (limitsEnv (some 0) none) _ _ c hc [] List.nil_prefix ?_ (.inl (Nat.zero_le 0))
  rw [hbatch]
  decide

/-! ## The size limit -/

/-- The encoded lengths of the messages. -/
def encodedSizes (env : Env N) (protoMsgs : List Any) : List Nat :=
  protoMsgs.map fun msg => (env.prost.any msg).length

/-- Sizes that are added up in order, after `n` of them that make up `size`: the sum, begun anew
    when it has `maxNum` terms and whenever it is `maxSize` exactly, never exceeds `maxSize`. -/
def NeverOver (maxNum maxSize : Nat) : (n size : Nat) → List Nat → Prop
  | _, _, [] => True
  | n, size, x :: sizes =>
    size + x ≤ maxSize ∧
      if maxNum ≤ n + 1 ∨ size + x = maxSize then NeverOver maxNum maxSize 0 0 sizes
      else NeverOver maxNum maxSize (n + 1) (size + x) sizes

instance decidableNeverOver (maxNum maxSize : Nat) :
    ∀ n size sizes, Decidable (NeverOver maxNum maxSize n size sizes)
  | _, _, [] => isTrue trivial
  | n, size, x :: sizes =>
    have := decidableNeverOver maxNum maxSize 0 0 sizes
    have := decidableNeverOver maxNum maxSize (n + 1) (size + x) sizes
    inferInstanceAs (Decidable (_ ∧ ite _ _ _))

/-- The batches still to be cut, with one already begun, keep the limit iff the sizes never run
    over it. -/
theorem cutFrom_sizes_iff {msgBatch : List Any} (hbatch : encodedSize env msgBatch ≤ maxTxSize env)
    (msgs : List Any) :
    (∀ b ∈ cutFrom (atLimit env) msgBatch msgs, encodedSize env b ≤ maxTxSize env) ↔
      NeverOver (maxMsgNum env) (maxTxSize env) msgBatch.length (encodedSize env msgBatch)
        (encodedSizes env msgs) := by
  induction msgs generalizing msgBatch with
  | nil =>
    refine iff_of_true (fun b hb => ?_) trivial
    rw [cutFrom] at hb
    split at hb
    · exact absurd hb List.not_mem_nil
    · rw [List.mem_singleton.mp hb]
      exact hbatch
  | cons msg msgs ih =>
    have hsnoc := encodedSize_snoc env msgBatch msg
    have hlength : (msgBatch ++ [msg]).length = msgBatch.length + 1 := List.length_append
    have hclosed := @ih [] (Nat.zero_le _)
    show _ ↔ encodedSize env msgBatch + (env.prost.any msg).length ≤ maxTxSize env ∧
      ite (maxMsgNum env ≤ msgBatch.length + 1 ∨
        encodedSize env msgBatch + (env.prost.any msg).length = maxTxSize env) _ _
    rw [← hsnoc, ← hlength, cutFrom]
    by_cases hfits : encodedSize env (msgBatch ++ [msg]) ≤ maxTxSize env
    · by_cases hlimit : atLimit env (msgBatch ++ [msg]) = true
      · -- the batch is closed, by its number or because it is exactly full
        have hends : maxMsgNum env ≤ (msgBatch ++ [msg]).length ∨
            encodedSize env (msgBatch ++ [msg]) = maxTxSize env :=
          (atLimit_iff.mp hlimit).imp_right (Nat.le_antisymm hfits)
        rw [if_pos hlimit, if_pos hends, List.forall_mem_cons]
        exact and_congr_right fun _ => hclosed
      · have hgoes : ¬ (maxMsgNum env ≤ (msgBatch ++ [msg]).length ∨
            encodedSize env (msgBatch ++ [msg]) = maxTxSize env) :=
          fun h => hlimit (atLimit_iff.mpr (h.imp_right fun heq => Nat.le_of_eq heq.symm))
        rw [if_neg hlimit, if_neg hgoes, ih hfits]
        exact (and_iff_right hfits).symm
    · -- the batch that the message is put to is too large, and it is closed with it
      have hlimit : atLimit env (msgBatch ++ [msg]) = true :=
        atLimit_iff.mpr (.inr (Nat.le_of_not_le hfits))
      rw [if_pos hlimit, List.forall_mem_cons]
      exact iff_of_false (fun h => hfits h.1) fun h => hfits h.1

theorem batches_sizes_iff (env : Env N) (protoMsgs : List Any) :
    (∀ b ∈ batches env protoMsgs, encodedSize env b ≤ maxTxSize env) ↔
      NeverOver (maxMsgNum env) (maxTxSize env) 0 0 (encodedSizes env protoMsgs) :=
  cutFrom_sizes_iff (show encodedSize env [] ≤ maxTxSize env from Nat.zero_le _) protoMsgs

/-- When every call returns, all batches are handed over. -/
theorem handed_sizes_iff {protoMsgs : List Any} {s : σ}
    (hok : ∀ c ∈ Action.callsOf send (batches env protoMsgs) s, ∃ response, c.2 = .ok response) :
    (∀ c ∈ handed env send protoMsgs s, encodedSize env c.1 ≤ maxTxSize env) ↔
      NeverOver (maxMsgNum env) (maxTxSize env) 0 0 (encodedSizes env protoMsgs) := by
  have hall := (Action.callEach_ok remember hok []).1
  rw [handed_eq, ← batches_sizes_iff]
  constructor
  · intro h b hb
    rw [← hall] at hb
    obtain ⟨c, hc, rfl⟩ := List.mem_map.mp hb
    exact h c hc
  · intro h c hc
    refine h c.1 ?_
    rw [← hall]
    exact List.mem_map_of_mem hc

/-- **Headline.**  For every list of messages: whatever `send_tx` comes to, every batch that is
    handed to it has at most `max_tx_size` bytes of messages, iff the sizes of the messages, added
    up in order and begun anew after `max_msg_num` of them and at `max_tx_size` exactly, never
    exceed it.  And a run of `send_msgs` in which all batches are sent keeps the limit iff this
    holds. -/
theorem sizes_within_limit_iff (env : Env N) (protoMsgs : List Any) :
    ((∀ (τ : Type) (send : List Any → Action τ Kind Response) (s : τ),
        ∀ c ∈ handed env send protoMsgs s, encodedSize env c.1 ≤ maxTxSize env) ↔
      NeverOver (maxMsgNum env) (maxTxSize env) 0 0 (encodedSizes env protoMsgs)) ∧
    ∀ (s : ChainState N) results, (sendBatches env protoMsgs 0 0 [] [] s).1 = .ok results →
      ((∀ c ∈ handed env (sendTx env) protoMsgs s, encodedSize env c.1 ≤ maxTxSize env) ↔
        NeverOver (maxMsgNum env) (maxTxSize env) 0 0 (encodedSizes env protoMsgs)) := by
  refine ⟨⟨fun h => ?_, fun h τ send s c hc => ?_⟩, fun s results hresults => ?_⟩
  · -- a `send_tx` that always returns gets all batches
    let answered : List Any → Action Unit Kind Response := fun _ => pure ⟨.ok, "", []⟩
    have hok : ∀ c ∈ Action.callsOf answered (batches env protoMsgs) (),
        ∃ response, c.2 = .ok response := by
      intro c hc
      rw [Action.callsOf_pure] at hc
      obtain ⟨b, -, rfl⟩ := List.mem_map.mp hc
      exact ⟨_, rfl⟩
    exact (handed_sizes_iff hok).mp (h Unit answered ())
  · rw [handed_eq] at hc
    have hfront := Action.callsOf_inputs send (batches env protoMsgs) s
    exact (batches_sizes_iff env protoMsgs).mpr h c.1 (hfront.subset (List.mem_map_of_mem hc))
  · rw [← sendBatchesVia_sendTx, sendBatchesVia_eq] at hresults
    cases hrun : Action.callEach (sendTx env) remember (batches env protoMsgs) [] s with
    | mk r s' =>
      rw [hrun] at hresults
      obtain rfl : r = .ok results := hresults
      exact handed_sizes_iff (Action.callsOf_of_callEach_ok hrun).1

example : NeverOver 3 40 0 0 [33, 7, 20, 3, 16, 1] ∧ ¬ NeverOver 3 40 0 0 [33, 33] := by decide

/-- Two messages of 33 bytes with a limit of 40: they go into one transaction. -/
theorem batch_over_limit :
    ¬ ∀ (env : Env Unit) (protoMsgs : List Any) (s : ChainState Unit),
      (∀ msg ∈ protoMsgs, (env.prost.any msg).length ≤ maxTxSize env) →
      ∀ c ∈ handed env (sendTx env) protoMsgs s, encodedSize env c.1 ≤ maxTxSize env := by
  intro h
  have hcalls : (handed (limitsEnv none (some 40)) (sendTx (limitsEnv none (some 40))) demoMsgs
      ⟨none, ()⟩).map Prod.fst = [demoMsgs] := by
    decide +kernel
  obtain ⟨c, hc, hbatch⟩ := List.mem_map.mp (hcalls ▸ List.mem_singleton.mpr rfl)
  have hsize := h (limitsEnv none (some 40)) demoMsgs ⟨none, ()⟩ (by decide +kernel) c hc
  rw [hbatch] at hsize
  exact absurd hsize (by decide +kernel)

end
end OffChainWorker.Cosmos
