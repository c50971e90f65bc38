/-
  What the subscribers of the event monitor learn about a reconnect.

  After a reconnect events may have been missed, and `propagate_error` exists so that a subscriber
  can tell.  `run_loop` calls it for one of its three kinds of error only: a cancelled subscription
  puts an `Err` on `tx_batch`, whereas a driver error and any other error of the stream reconnect
  without a word.  So a gap between the batches of two connections is signalled exactly as long as
  no such silent reconnect comes after a batch.

  The invariant looks at `sinceError`, the connections of the batches after the last `Err`: inside
  `run_loop` they are all the connection of that loop, and elsewhere there are none.
-/
import Mathlib.Data.List.Induction
import OffChainWorker.Subscribe.MonitorConnection

namespace OffChainWorker.Monitor

open Proc

variable {env : Env}

def Sent.isError (m : Sent) : Bool :=
  match m.msg with
  | .ok _ => false
  | .error _ => true

/-- Between two batches of different connections an `Err` was sent. -/
def GapSignalled (log : List Sent) : Prop :=
  ∀ pre mid post c c' b b', log = pre ++ ⟨c, .ok b⟩ :: mid ++ ⟨c', .ok b'⟩ :: post → c ≠ c' →
    ∃ m ∈ mid, m.isError = true

/-- The connections of the batches after the last `Err`. -/
def sinceError (log : List Sent) : List (Option ConnId) :=
  log.foldl (fun acc m => if m.isError then [] else acc ++ [m.conn]) []

/-- The step is `run_loop` calling `reconnect` without calling `propagate_error`. -/
def silentReconnect (s : State) : Label → Bool
  | .driverErr => true
  | .batch =>
    match s.pc with
    | .select l =>
      match l.batches.out with
      | .error (.subscriptionCancelled _) :: _ => false
      | .error _ :: _ => true
      | _ => false
    | _ => false
  | _ => false

/-- A silent reconnect happens only while nobody listens or no batch has been sent since the last
    `Err`. -/
def Announced (s : State) (l : Label) : Prop :=
  silentReconnect s l = true → s.rxBatch = false ∨ sinceError s.txBatch = []

instance (s : State) (l : Label) : Decidable (Announced s l) :=
  inferInstanceAs (Decidable (_ → _))

/-! ## The batches since the last error -/

theorem sinceError_snoc_ok (log : List Sent) (c : Option ConnId) (b : EventBatch) :
    sinceError (log ++ [⟨c, .ok b⟩]) = sinceError log ++ [c] := by
  simp [sinceError, Sent.isError]

theorem sinceError_snoc_error (log : List Sent) (c : Option ConnId) (e : MonitorError) :
    sinceError (log ++ [⟨c, .error e⟩]) = [] := by
  simp [sinceError, Sent.isError]

/-- A batch that no error follows is one of them. -/
theorem mem_sinceError (log : List Sent) (c : Option ConnId) (b : EventBatch) (mid : List Sent)
    (hmid : ∀ m ∈ mid, m.isError = false) : c ∈ sinceError (log ++ ⟨c, .ok b⟩ :: mid) := by
  induction mid using List.reverseRecOn with
  | nil =>
    rw [sinceError_snoc_ok]
    exact List.mem_append_right _ List.mem_cons_self
  | append_singleton mid m ih =>
    have hm : m.isError = false := hmid m (by simp)
    have hmem := ih fun m' hm' => hmid m' (List.mem_append_left _ hm')
    obtain ⟨c', msg⟩ := m
    cases msg with
    | error e => nomatch hm
    | ok b' =>
      rw [← List.cons_append, ← List.append_assoc, sinceError_snoc_ok]
      exact List.mem_append_left _ hmem

theorem gapSignalled_nil : GapSignalled [] := by
  intro pre mid post c c' b b' h
  exact absurd h.symm (by simp)

/-- A split of a longer list at an element that is not the new last one is a split of the list. -/
theorem gapSignalled_snoc {log : List Sent} {m : Sent} (h : GapSignalled log)
    (hm : m.isError = false → ∀ c ∈ sinceError log, c = m.conn) : GapSignalled (log ++ [m]) := by
  intro pre mid post c c' b b' hsplit hne
  cases post using List.reverseRecOn with
  | nil =>
    -- the later batch of the split is the new message itself
    obtain ⟨hlog, hlast⟩ := List.append_inj' hsplit rfl
    obtain rfl : m = ⟨c', .ok b'⟩ := by simpa using hlast
    by_contra hnone
    refine hne (hm rfl c ?_)
    rw [hlog]
    refine mem_sinceError pre c b mid fun m' hm' => ?_
    cases herr : m'.isError with
    | false => rfl
    | true => exact absurd ⟨m', hm', herr⟩ hnone
  | append_singleton post last =>
    have hsplit' : log ++ [m] = (pre ++ ⟨c, .ok b⟩ :: mid ++ ⟨c', .ok b'⟩ :: post) ++ [last] := by
      rw [hsplit]
      simp
    exact h pre mid post c c' b b' (List.append_inj' hsplit' rfl).1 hne

/-! ## The invariant -/

/-- What the batches since the last error look like at a control point. -/
def Pc.Recent (recent : List (Option ConnId)) : Pc → Prop
  | .command l => ∀ c ∈ recent, c = l.conn
  | .select l => ∀ c ∈ recent, c = l.conn
  | .joinLast => True
  | .returned => True
  | .panicked => True
  | _ => recent = []

structure GapInv (s : State) : Prop where
  signalled : GapSignalled s.txBatch
  recent : s.rxBatch = true → s.pc.Recent (sinceError s.txBatch)

theorem gapInv_init : GapInv (subscribedState env) where
  signalled := gapSignalled_nil
  recent := fun _ => rfl

/-- A batch of the current loop is sent. -/
theorem gapInv_send {s : State} {l : Loop} (l' : Loop) (hi : GapInv s) (hpc : s.pc = .select l)
    (hconn : l'.conn = l.conn) (b : EventBatch) :
    GapInv { s.send l'.conn (.ok b) with pc := .command l' } := by
  unfold State.send
  cases hrx : s.rxBatch with
  | false => exact ⟨hi.signalled, fun h => nomatch hrx.symm.trans h⟩
  | true =>
    have hrecent := hi.recent hrx
    rw [hpc] at hrecent
    refine ⟨gapSignalled_snoc hi.signalled fun _ c hc => ?_, fun _ c hc => ?_⟩
    · rw [hconn]
      exact hrecent c hc
    · have hc' : c ∈ sinceError (s.txBatch ++ [⟨l'.conn, .ok b⟩]) := hc
      rw [sinceError_snoc_ok] at hc'
      rcases List.mem_append.mp hc' with hc' | hc'
      · rw [hconn]
        exact hrecent c hc'
      · exact List.mem_singleton.mp hc'

/-- A reconnect that comes after no batch, or that nobody sees. -/
theorem gapInv_silent {s : State} {l : Loop} {cause : Cause} (hsignalled : GapSignalled s.txBatch)
    (hquiet : s.rxBatch = false ∨ sinceError s.txBatch = []) :
    GapInv (s.reconnect env l cause) where
  signalled := hsignalled
  recent := fun hrx => hquiet.resolve_left fun hdead => nomatch hdead.symm.trans hrx

/-- After an `Err` has been offered to the subscribers there is no batch, or nobody listens. -/
theorem send_error_quiet (s : State) (c : Option ConnId) (e : MonitorError) :
    (s.send c (.error e)).rxBatch = false ∨ sinceError (s.send c (.error e)).txBatch = [] := by
  unfold State.send
  cases hrx : s.rxBatch with
  | false => exact .inl hrx
  | true => exact .inr (sinceError_snoc_error s.txBatch c e)

theorem gapSignalled_send_error {s : State} (h : GapSignalled s.txBatch) (c : Option ConnId)
    (e : MonitorError) : GapSignalled (s.send c (.error e)).txBatch := by
  unfold State.send
  split
  · exact gapSignalled_snoc h fun hm => nomatch hm
  · exact h

theorem gapInv_retry {s : State} (hi : GapInv s) {cause : Cause} {delays : List Nat}
    (hrecent : s.rxBatch = true → sinceError s.txBatch = []) : GapInv (s.retry cause delays) := by
  cases delays with
  | nil => exact ⟨hi.signalled, hrecent⟩
  | cons d rest => exact ⟨hi.signalled, hrecent⟩

/-- **Step lemma.** -/
theorem gapInv_step {s t : State} {l : Label} (hi : GapInv s) (hc : Announced s l)
    (h : Step env s l t) : GapInv t := by
  have hrecent := hi.recent
  cases h with
  | enter hpc =>
    rw [hpc] at hrecent
    refine ⟨hi.signalled, fun hrx c hmem => ?_⟩
    have hnone : sinceError s.txBatch = [] := hrecent hrx
    exact absurd hmem (by simp [State.enterLoop, hnone])
  | idle hpc _ =>
    rw [hpc] at hrecent
    exact ⟨hi.signalled, hrecent⟩
  | abort hpc _ => exact ⟨hi.signalled, fun _ => trivial⟩
  | @pull l c item rest hpc _ _ _ _ =>
    rw [hpc] at hrecent
    refine ⟨hi.signalled, fun hrx => ?_⟩
    cases hfeed : l.batches.feed env.parsers env.chainId item with
    | none =>
      rw [pull_pc_none c rest hfeed]
      trivial
    | some b =>
      rw [pull_pc_some c rest hfeed]
      exact hrecent hrx
  | streamEnd hpc _ _ _ =>
    rw [hpc] at hrecent
    exact ⟨hi.signalled, hrecent⟩
  | @batch l g rest hpc _ =>
    unfold State.processBatch
    split
    · exact ⟨hi.signalled, fun _ => trivial⟩
    · exact gapInv_send { l with batches := { l.batches with out := rest } } hi hpc rfl _
  | @streamError l e rest hpc hout =>
    cases e with
    | subscriptionCancelled r =>
      -- the only error that is propagated
      exact gapInv_silent (gapSignalled_send_error hi.signalled _ _) (send_error_quiet s _ _)
    | webSocketDriver r =>
      exact gapInv_silent hi.signalled (hc (by simp [silentReconnect, hpc, hout]))
    | genericRpcError r =>
      exact gapInv_silent hi.signalled (hc (by simp [silentReconnect, hpc, hout]))
  | @driverErr l c e rest hpc _ =>
    exact gapInv_silent (s := { s with rxErr := rest }) hi.signalled (hc rfl)
  | newClient hpc =>
    rw [hpc] at hrecent
    exact ⟨hi.signalled, hrecent⟩
  | noClient hpc =>
    rw [hpc] at hrecent
    exact gapInv_retry hi hrecent
  | joined hpc _ =>
    rw [hpc] at hrecent
    exact ⟨hi.signalled, hrecent⟩
  | @joinFailed cause old delays hpc _ =>
    rw [hpc] at hrecent
    exact gapInv_retry (s := s.await old) ⟨hi.signalled, hi.recent⟩ hrecent
  | subscribed hpc =>
    rw [hpc] at hrecent
    exact ⟨hi.signalled, hrecent⟩
  | notSubscribed hpc =>
    rw [hpc] at hrecent
    exact gapInv_retry hi hrecent
  | resubscribed hpc =>
    rw [hpc] at hrecent
    exact ⟨hi.signalled, hrecent⟩
  | joinedLast _ _ => exact ⟨hi.signalled, fun _ => trivial⟩
  | yield _ _ => exact ⟨hi.signalled, hrecent⟩
  | driverFail _ _ => exact ⟨hi.signalled, hrecent⟩
  | driverExit _ _ => exact ⟨hi.signalled, hrecent⟩
  | sendCmd => exact ⟨hi.signalled, hrecent⟩
  | dropBatchReceiver => exact ⟨hi.signalled, fun hrx => nomatch hrx⟩

/-! ## Headline -/

/-- **Headline.**  In every run in which `run_loop` reconnects silently only while nobody listens or
    before any batch since the last `Err`, every gap between the batches of two connections is
    signalled. -/
theorem gap_signalled {s : State} (h : (machine env).ReachableIf Announced s) :
    GapSignalled s.txBatch :=
  (reachableIf_invariant (J := fun _ => True) (I := GapInv) (fun _ _ => trivial) gapInv_init
    (fun _ _ _ _ hi hc hstep => gapInv_step hi hc hstep) h).signalled

/-- A new-block event as the node sends it. -/
def blockItem (height : Height) : Item := .ok ⟨.newBlock (some ⟨⟨height⟩⟩), some fun _ => none⟩

/-- Two heights on connection `c`, so that the first of them is sent. -/
def sendBlock (c : ConnId) (height : Height) : List Label :=
  [.enter, .checkCmd, .yield c (blockItem height), .yield c (blockItem (height + 1)), .pull c,
    .pull c, .batch, .checkCmd]

/-- The join of the old driver, and a subscription for each of two queries. -/
def resubscribeTwo : List Label :=
  [.newClient true, .joined true, .subscribed true, .subscribed true, .resubscribed]

/-- A block from each of two connections; in between the first subscription is cancelled. -/
def cancelledRun : List Label :=
  sendBlock 0 1 ++
  [.yield 0 (.error ⟨.serverError, some "subscription was cancelled"⟩), .pull 0, .batch, .checkCmd,
    .batch, .driverExit 0] ++
  resubscribeTwo ++ sendBlock 1 5

/-- The same with a driver error in place of the cancelled subscription. -/
def driverErrorRun : List Label :=
  sendBlock 0 1 ++ [.driverFail 0 ⟨.other 1, none⟩, .driverErr] ++ resubscribeTwo ++ sendBlock 1 5

/-- A cancelled subscription is announced. -/
theorem gap_signalled_cancelled :
    ∃ s, (machine demoEnv).execIf Announced (subscribedState demoEnv) cancelledRun = some s ∧
      GapSignalled s.txBatch := by
  obtain ⟨s, hs⟩ : ∃ s, (machine demoEnv).execIf Announced (subscribedState demoEnv) cancelledRun
      = some s := ⟨_, rfl⟩
  exact ⟨s, hs, gap_signalled (Machine.execIf_reachableIf (.init rfl) hs)⟩

/-- A driver error is not: batches of two connections follow each other on `tx_batch`. -/
theorem driver_error_gap :
    ¬ ∀ (env : Env) (s : State), (machine env).Reachable s → GapSignalled s.txBatch := by
  intro h
  have hreach : ∀ {s}, (machine demoEnv).exec (subscribedState demoEnv) driverErrorRun = some s →
      (machine demoEnv).Reachable s := Machine.exec_reachable (.init rfl)
  obtain ⟨m, hm, -⟩ := h demoEnv _ (hreach rfl) [] [] [] (some 0) (some 1) _ _ rfl (by decide)
  exact absurd hm List.not_mem_nil

end OffChainWorker.Monitor
