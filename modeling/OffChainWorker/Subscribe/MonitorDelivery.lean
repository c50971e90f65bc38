/-
  What becomes of the events that the batch stream has pulled when `run_loop` reconnects.

  In every state of a run the pairs delivered by the current loop followed by the pairs its batch
  stream still holds are the pairs pulled (`DeliveryInv`), so a reconnect loses exactly what the
  batch stream holds when it is dropped.  An error of the stream comes last in it: the unfinished
  group has been flushed before, and nothing is lost.  A driver error can be picked by `select!` at
  any moment, and then the unfinished group goes down with the stream.
-/
import OffChainWorker.Subscribe.MonitorConnection
import OffChainWorker.Subscribe.MonitorGaps

namespace OffChainWorker.Monitor

open Proc

variable {env : Env}

/-- While the subscribers listen, every session that ended in a reconnect has delivered what it had
    pulled, each pair once and in order. -/
def Delivered (s : State) : Prop :=
  s.rxBatch = true → ∀ r ∈ s.history.sessions, r.delivered = r.pulled

/-- The pairs in the batch stream of the running loop. -/
def Pc.held (pc : Pc) : List (Height × Event) :=
  match pc.loop with
  | some l => l.batches.held
  | none => []

/-- The second branch of `select!` completes. -/
def Label.isDriverErr : Label → Bool
  | .driverErr => true
  | _ => false

/-- The second branch of `select!` is taken only when the batch stream holds nothing or nobody
    listens. -/
def Flushed (s : State) (l : Label) : Prop :=
  l.isDriverErr = true → s.rxBatch = true → s.pc.held = []

instance (s : State) (l : Label) : Decidable (Flushed s l) := inferInstanceAs (Decidable (_ → _))

/-! ## The invariant of every run -/

/-- The batch stream is well formed, and what the loop has delivered and what its stream still holds
    is what it has pulled. -/
structure Loop.Balanced (log : List Sent) (alive : Bool) (l : Loop) : Prop where
  grouped : l.batches.Grouped
  errorLast : l.batches.ErrorLast
  mark : l.mark ≤ log.length
  balance : alive = true → batchPairs (log.drop l.mark) ++ l.batches.held = l.pulled

structure DeliveryInv (s : State) : Prop where
  loop : ∀ l, s.pc.loop = some l → l.Balanced s.txBatch s.rxBatch
  sessions : s.rxBatch = true → ∀ r ∈ s.history.sessions, r.delivered ++ r.held = r.pulled

theorem deliveryInv_init : DeliveryInv (subscribedState env) where
  loop := fun _ h => nomatch h
  sessions := fun _ _ h => absurd h List.not_mem_nil

/-- A step outside `run_loop`, or out of it other than by a reconnect. -/
theorem DeliveryInv.outside {s t : State} (hi : DeliveryInv s) (hpc : t.pc.loop = none)
    (hrx : t.rxBatch = s.rxBatch) (hsessions : t.history.sessions = s.history.sessions) :
    DeliveryInv t where
  loop := fun _ hl => nomatch hpc.symm.trans hl
  sessions := fun h r hr => hi.sessions (hrx ▸ h) r (hsessions ▸ hr)

/-- A step that touches neither the loop nor what has been sent. -/
theorem DeliveryInv.same_loop {s t : State} (hi : DeliveryInv s) (hpc : t.pc.loop = s.pc.loop)
    (hlog : t.txBatch = s.txBatch) (hrx : t.rxBatch = s.rxBatch)
    (hsessions : t.history.sessions = s.history.sessions) : DeliveryInv t where
  loop := fun l hl => by
    rw [hlog, hrx]
    exact hi.loop l (hpc ▸ hl)
  sessions := fun h r hr => hi.sessions (hrx ▸ h) r (hsessions ▸ hr)

theorem retry_loop (s : State) (cause : Cause) (delays : List Nat) :
    (s.retry cause delays).pc.loop = none := by
  cases delays <;> rfl

theorem deliveryInv_retry {s : State} (hi : DeliveryInv s) (cause : Cause) (delays : List Nat) :
    DeliveryInv (s.retry cause delays) :=
  hi.outside (retry_loop s cause delays) (by cases delays <;> rfl) (by cases delays <;> rfl)

/-- `reconnect` records the session of a balanced loop. -/
theorem deliveryInv_reconnect {s : State} {l : Loop} {cause : Cause}
    (hsessions : s.rxBatch = true → ∀ r ∈ s.history.sessions, r.delivered ++ r.held = r.pulled)
    (hl : l.Balanced s.txBatch s.rxBatch) : DeliveryInv (s.reconnect env l cause) where
  loop := fun _ h => nomatch h
  sessions := fun hrx r hr => by
    rcases List.mem_append.mp hr with hr | hr
    · exact hsessions hrx r hr
    · rw [List.mem_singleton.mp hr]
      exact hl.balance hrx

/-- An `Err` on `tx_batch` carries no pairs. -/
theorem balanced_send_error {s : State} {l : Loop} (h : l.Balanced s.txBatch s.rxBatch)
    (c : Option ConnId) (e : MonitorError) :
    l.Balanced (s.send c (.error e)).txBatch (s.send c (.error e)).rxBatch := by
  rw [send_rxBatch]
  unfold State.send
  split
  · refine ⟨h.grouped, h.errorLast, Nat.le_trans h.mark (by simp), fun hrx => ?_⟩
    have hnone : batchPairs [⟨c, .error e⟩] = [] := rfl
    show batchPairs ((s.txBatch ++ [Sent.mk c (.error e)]).drop l.mark) ++ l.batches.held = l.pulled
    rw [batchPairs_drop_snoc h.mark, hnone, List.append_nil]
    exact h.balance hrx
  · exact h

/-- A batch moves its pairs from the stream to `tx_batch`. -/
theorem balanced_send_batch {s : State} {l : Loop} (h : l.Balanced s.txBatch s.rxBatch)
    {g : List (Height × Event)} {rest : List (Except MonitorError (List (Height × Event)))}
    (hout : l.batches.out = .ok g :: rest) {b : EventBatch} (hb : b.pairs = g)
    (c : Option ConnId) :
    Loop.Balanced (s.send c (.ok b)).txBatch (s.send c (.ok b)).rxBatch
      { l with batches := { l.batches with out := rest } } := by
  rw [send_rxBatch]
  have hheld : l.batches.held = g ++ Batches.held { l.batches with out := rest } := by
    simp [Batches.held, hout, yielded]
  unfold State.send
  cases hrx : s.rxBatch with
  | false =>
    exact ⟨h.grouped.tail hout, h.errorLast.tail hout, h.mark,
      fun hfalse => absurd hfalse Bool.false_ne_true⟩
  | true =>
    refine ⟨h.grouped.tail hout, h.errorLast.tail hout, Nat.le_trans h.mark (by simp), fun _ => ?_⟩
    show batchPairs ((s.txBatch ++ [Sent.mk c (.ok b)]).drop l.mark)
        ++ Batches.held { l.batches with out := rest } = l.pulled
    have hpairs : batchPairs [⟨c, .ok b⟩] = g := by simp [batchPairs, hb]
    rw [batchPairs_drop_snoc h.mark, hpairs, List.append_assoc, ← hheld]
    exact h.balance hrx

/-- Dropping an error from the front of what is to be yielded leaves the loop balanced. -/
theorem balanced_error_tail {s : State} {l : Loop} (h : l.Balanced s.txBatch s.rxBatch)
    {e : MonitorError} {rest : List (Except MonitorError (List (Height × Event)))}
    (hout : l.batches.out = .error e :: rest) :
    Loop.Balanced s.txBatch s.rxBatch { l with batches := { l.batches with out := rest } } where
  grouped := h.grouped.tail hout
  errorLast := h.errorLast.tail hout
  mark := h.mark
  balance := fun hrx => by
    have hheld : l.batches.held = Batches.held { l.batches with out := rest } := by
      simp [Batches.held, hout, yielded]
    rw [← h.balance hrx, hheld]

/-- What the stream yields becomes a batch, which is sent: the group is not empty, so `toBatch` does
    not panic. -/
theorem processBatch_sends (env : Env) {s : State} (hi : DeliveryInv s) {l : Loop}
    {g : List (Height × Event)} {rest : List (Except MonitorError (List (Height × Event)))}
    (hpc : s.pc = .select l) (hout : l.batches.out = .ok g :: rest) (l' : Loop) :
    ∃ b, b.pairs = g ∧
      s.processBatch env l' g = { s.send l'.conn (.ok b) with pc := .command l' } := by
  have hl := hi.loop l (by rw [hpc]; rfl)
  obtain ⟨hne, hg⟩ := hl.grouped.out g (by rw [hout]; exact List.mem_cons_self)
  obtain ⟨b, hb, hpairs⟩ := toBatch_pairs env.sort env.chainId hne hg
  refine ⟨b, hpairs, ?_⟩
  unfold State.processBatch
  rw [hb]

/-- **Step lemma.** -/
theorem deliveryInv_step {s t : State} {l : Label} (hi : DeliveryInv s) (h : Step env s l t) :
    DeliveryInv t := by
  cases h with
  | enter hpc =>
    refine ⟨fun l hl => ?_, hi.sessions⟩
    obtain rfl := Option.some.inj hl
    refine ⟨Batches.grouped_new, Batches.errorLast_new, Nat.le_refl _, fun _ => ?_⟩
    show batchPairs (s.txBatch.drop s.txBatch.length) ++ Batches.new.held = []
    rw [List.drop_length]
    rfl
  | idle hpc _ => exact hi.same_loop (by rw [hpc]; rfl) rfl rfl rfl
  | abort _ _ => exact hi.outside rfl rfl rfl
  | @pull l c item rest hpc _ _ hout _ =>
    have hl := hi.loop l (by rw [hpc]; rfl)
    cases hfeed : l.batches.feed env.parsers env.chainId item with
    | none => exact hi.outside (by rw [pull_pc_none c rest hfeed]; rfl) rfl rfl
    | some b =>
      refine ⟨fun l' hl' => ?_, hi.sessions⟩
      rw [pull_pc_some c rest hfeed] at hl'
      obtain rfl := Option.some.inj hl'
      refine ⟨hl.grouped.feed hfeed, Batches.feed_errorLast hout hfeed, hl.mark, fun hrx => ?_⟩
      show batchPairs (s.txBatch.drop l.mark) ++ b.held
        = l.pulled ++ Batches.pairsOf env.parsers env.chainId item
      rw [Batches.feed_held hfeed, ← List.append_assoc, hl.balance hrx]
  | @streamEnd l hpc hout _ _ =>
    have hl := hi.loop l (by rw [hpc]; rfl)
    refine ⟨fun l' hl' => ?_, hi.sessions⟩
    obtain rfl := Option.some.inj hl'
    refine ⟨hl.grouped.finish, Batches.finish_errorLast hout, hl.mark, fun hrx => ?_⟩
    show batchPairs (s.txBatch.drop l.mark) ++ l.batches.finish.held = l.pulled
    rw [Batches.finish_held]
    exact hl.balance hrx
  | @batch l g rest hpc hout =>
    have hl := hi.loop l (by rw [hpc]; rfl)
    obtain ⟨b, hpairs, hsends⟩ := processBatch_sends env hi hpc hout
      { l with batches := { l.batches with out := rest } }
    rw [hsends]
    refine ⟨fun l' hl' => ?_, ?_⟩
    · obtain rfl := Option.some.inj hl'
      exact balanced_send_batch hl hout hpairs _
    · simpa using hi.sessions
  | @streamError l e rest hpc hout =>
    have hl := balanced_error_tail (hi.loop l (by rw [hpc]; rfl)) hout
    unfold State.streamError
    split
    · exact deliveryInv_reconnect (by simpa using hi.sessions) (balanced_send_error hl _ _)
    · exact deliveryInv_reconnect hi.sessions hl
  | @driverErr l c e rest hpc _ =>
    exact deliveryInv_reconnect (s := { s with rxErr := rest }) hi.sessions
      (hi.loop l (by rw [hpc]; rfl))
  | newClient _ => exact hi.outside rfl rfl rfl
  | noClient _ => exact deliveryInv_retry hi _ _
  | joined _ _ => exact hi.outside rfl rfl rfl
  | @joinFailed cause old delays hpc _ =>
    exact deliveryInv_retry (s := s.await old) (hi.same_loop rfl rfl rfl rfl) _ _
  | subscribed _ => exact hi.outside rfl rfl rfl
  | notSubscribed _ => exact deliveryInv_retry hi _ _
  | resubscribed _ => exact hi.outside rfl rfl rfl
  | joinedLast _ _ => exact hi.outside rfl rfl rfl
  | yield _ _ => exact hi.same_loop rfl rfl rfl rfl
  | driverFail _ _ => exact hi.same_loop rfl rfl rfl rfl
  | driverExit _ _ => exact hi.same_loop rfl rfl rfl rfl
  | sendCmd => exact hi.same_loop rfl rfl rfl rfl
  | dropBatchReceiver =>
    refine ⟨fun l hl => ?_, fun hrx => nomatch hrx⟩
    have hl' := hi.loop l hl
    exact ⟨hl'.grouped, hl'.errorLast, hl'.mark, fun hrx => nomatch hrx⟩

theorem deliveryInv_reachable {s : State} (h : (machine env).Reachable s) : DeliveryInv s :=
  reachable_invariant deliveryInv_init (fun _ _ _ => deliveryInv_step) h

/-! ## Nothing is held when the loop is left -/

/-- No session was left with pairs in its batch stream. -/
def NothingDropped (s : State) : Prop := s.rxBatch = true → ∀ r ∈ s.history.sessions, r.held = []

theorem nothingDropped_reconnect {s : State} (hi : NothingDropped s) {l : Loop} {cause : Cause}
    (hl : s.rxBatch = true → l.batches.held = []) : NothingDropped (s.reconnect env l cause) := by
  intro hrx r hr
  rcases List.mem_append.mp hr with hr | hr
  · exact hi hrx r hr
  · rw [List.mem_singleton.mp hr]
    exact hl hrx

/-- **Step lemma** for the runs that meet the condition. -/
theorem nothingDropped_step {s t : State} {l : Label} (hd : DeliveryInv s) (hi : NothingDropped s)
    (hc : Flushed s l) (h : Step env s l t) : NothingDropped t := by
  cases h with
  | @batch l g rest hpc hout =>
    unfold State.processBatch
    split
    · exact hi
    · simpa [NothingDropped] using hi
  | @streamError l e rest hpc hout =>
    have hl := hd.loop l (by rw [hpc]; rfl)
    -- the error comes last in the stream, so nothing is held when it is yielded
    have hheld : Batches.held { l.batches with out := rest } = [] := by
      have hnil := hl.errorLast.held_eq_nil hout
      simpa [Batches.held, hout, yielded] using hnil
    unfold State.streamError
    split
    · exact nothingDropped_reconnect (by simpa [NothingDropped] using hi) fun _ => hheld
    · exact nothingDropped_reconnect hi fun _ => hheld
  | @driverErr l c e rest hpc _ =>
    refine nothingDropped_reconnect (s := { s with rxErr := rest }) hi fun hrx => ?_
    have hheld : s.pc.held = [] := hc rfl hrx
    rwa [hpc] at hheld
  | @noClient cause delays hpc => cases delays <;> exact hi
  | @joinFailed cause old delays hpc _ => cases delays <;> exact hi
  | @notSubscribed cause done q todo delays hpc => cases delays <;> exact hi
  | dropBatchReceiver => exact fun hrx => absurd hrx Bool.false_ne_true
  | _ => exact hi

/-! ## Headline -/

/-- **Headline.**  When every driver error is picked while the batch stream holds nothing, no
    reconnect loses an event; and a driver error picked while it holds something loses it at
    once. -/
theorem delivered_if_flushed :
    (∀ s, (machine env).ReachableIf Flushed s → Delivered s) ∧
    ∀ s l t, (machine env).Reachable s → step env s l = some t → ¬ Flushed s l → ¬ Delivered t := by
  refine ⟨fun s h hrx r hr => ?_, fun s l t h ht hnot hdelivered => ?_⟩
  · have hdropped : NothingDropped s :=
      reachableIf_invariant (fun _ => deliveryInv_reachable)
        (fun _ _ hr => absurd hr List.not_mem_nil)
        (fun _ _ _ hd hi hc hstep => nothingDropped_step hd hi hc hstep) h
    have hbalance := (deliveryInv_reachable h.reachable).sessions hrx r hr
    rwa [hdropped hrx r hr, List.append_nil] at hbalance
  · refine hnot fun hl hrx => ?_
    cases step_cases ht with
    | @driverErr l c e rest hpc herr =>
      have hlost := hdelivered hrx _ (List.mem_append_right _ List.mem_cons_self)
      have hbalance := (deliveryInv_reachable h).loop l (by rw [hpc]; rfl) |>.balance hrx
      have hheld : l.batches.held = [] := by
        have hlost' : batchPairs (s.txBatch.drop l.mark) = l.pulled := hlost
        rw [hlost'] at hbalance
        exact List.append_right_eq_self.mp hbalance
      rw [hpc]
      exact hheld
    | _ => nomatch hl

/-- A block is pulled, the stream ends and hands it on, and only then the driver error is picked. -/
def flushedRun : List Label :=
  [.enter, .checkCmd, .yield 0 (blockItem 1), .pull 0, .driverFail 0 ⟨.other 1, none⟩, .streamEnd,
    .batch, .checkCmd, .driverErr]

/-- The driver fails while the block is still held back. -/
def heldRun : List Label :=
  [.enter, .checkCmd, .yield 0 (blockItem 1), .pull 0, .driverFail 0 ⟨.other 1, none⟩]

theorem delivered_if_flushed_once :
    (∃ s, (machine demoEnv).execIf Flushed (subscribedState demoEnv) flushedRun = some s ∧
      Delivered s) ∧
    ∃ s t, (machine demoEnv).exec (subscribedState demoEnv) heldRun = some s ∧
      step demoEnv s .driverErr = some t ∧ ¬ Delivered t := by
  constructor
  · obtain ⟨s, hs⟩ : ∃ s, (machine demoEnv).execIf Flushed (subscribedState demoEnv) flushedRun
        = some s := ⟨_, rfl⟩
    exact ⟨s, hs, delivered_if_flushed.1 s (Machine.execIf_reachableIf (.init rfl) hs)⟩
  · obtain ⟨s, hs, t, ht, hnot⟩ :
        ∃ s, (machine demoEnv).exec (subscribedState demoEnv) heldRun = some s ∧
          ∃ t, step demoEnv s .driverErr = some t ∧ ¬ Flushed s .driverErr :=
      ⟨_, rfl, _, rfl, by decide⟩
    have hreach := Machine.exec_reachable (.init rfl) hs
    exact ⟨s, t, hs, ht, delivered_if_flushed.2 s _ t hreach ht hnot⟩

/-- A driver error picked while a block is held back loses the block. -/
theorem driver_error_drops_block :
    ¬ ∀ (env : Env) (s : State), (machine env).Reachable s → Delivered s := by
  intro h
  obtain ⟨s, hs, hrx, hsessions⟩ :
      ∃ s, (machine demoEnv).exec (subscribedState demoEnv) (heldRun ++ [.driverErr]) = some s ∧
        s.rxBatch = true ∧
        s.history.sessions = [⟨[(1, .newBlock ⟨1⟩)], [], [(1, .newBlock ⟨1⟩)]⟩] :=
    ⟨_, rfl, rfl, rfl⟩
  have hdelivered := h demoEnv s (Machine.exec_reachable (.init rfl) hs) hrx
  rw [hsessions] at hdelivered
  exact absurd (hdelivered _ List.mem_cons_self) (by decide)

end OffChainWorker.Monitor
