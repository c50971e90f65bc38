/-
  How long the event monitor can go on once it has been told to stop, and how many connections it
  can open.

  `run_loop` looks at the command channel before each `select!` only, and `reconnect` not at all.
  So a command can come while the thread waits in `select!`, and that `select!` is the last one:
  what it yields is handled, which sends one message at most and may start one more `reconnect`, and
  then the command is found.  The steps that are left are counted by the control point
  (`Pc.budget`), and every step of the thread outside the waiting uses one up (`budget_step`).  In
  that `select!` the batch stream may be polled for as long as the subscriptions have items and none
  of them completes a batch (`polls_step`).  The count of the tries that are left bounds the clients
  by the reconnects (`clients_step`).
-/
import OffChainWorker.Subscribe.MonitorConnection

namespace OffChainWorker.Monitor

open Proc

variable {env : Env}

/-! ## The steps that are left -/

/-- Polling a batch stream that has nothing ready. -/
def Label.isPoll : Label → Bool
  | .pull _ => true
  | .streamEnd => true
  | _ => false

/-- The other steps of the thread. -/
def Label.isControl : Label → Bool
  | .enter => true
  | .checkCmd => true
  | .batch => true
  | .driverErr => true
  | .newClient _ => true
  | .joined _ => true
  | .subscribed _ => true
  | .resubscribed => true
  | .joinedLast => true
  | _ => false

/-- The steps of one try of `reconnect`: the client, the join, the queries, the merging. -/
def trySteps (env : Env) : Nat := env.eventQueries.length + 3

/-- The steps that are left to a thread that has been told to stop. -/
def Pc.budget (env : Env) : Pc → Nat
  | .returned => 0
  | .panicked => 0
  | .joinLast => 1
  | .command _ => 2
  | .runLoop => 3
  | .resubscribe _ _ todo delays => 3 + delays.length * trySteps env + (todo.length + 1)
  | .joinOld _ _ delays => 3 + delays.length * trySteps env + (env.eventQueries.length + 2)
  | .tryReconnect _ delays => 3 + delays.length * trySteps env + trySteps env
  | .select _ => 3 + env.strategy.length * trySteps env + trySteps env + 1

/-- No control point has a larger budget than `select!`. -/
def maxBudget (env : Env) : Nat := 4 + (env.strategy.length + 1) * trySteps env

theorem select_budget (l : Loop) : (Pc.select l).budget env = maxBudget env := by
  show 3 + env.strategy.length * trySteps env + trySteps env + 1 = _
  rw [maxBudget, Nat.succ_mul]
  omega

/-- The next try, or giving up. -/
theorem retry_budget (s : State) (cause : Cause) (delays : List Nat) :
    (s.retry cause delays).pc.budget env = 3 + delays.length * trySteps env := by
  cases delays with
  | nil =>
    show 3 = 3 + 0 * trySteps env
    omega
  | cons d rest =>
    show 3 + rest.length * trySteps env + trySteps env = 3 + (rest.length + 1) * trySteps env
    rw [Nat.succ_mul]
    omega

/-- **Step lemma**: a control step uses up some of the budget, unless the thread waits anew because
    there is no command; and no other step adds to it. -/
theorem budget_step {s t : State} {l : Label} (h : Step env s l t) :
    t.pc.budget env + (if l.isControl then 1 else 0) ≤ s.pc.budget env ∨
      (s.rxCmd = [] ∧ s.pc.running = true) ∧ t.pc.budget env ≤ maxBudget env := by
  cases h with
  | idle hpc hcmd =>
    refine .inr ⟨⟨hcmd, by rw [hpc]; rfl⟩, ?_⟩
    exact Nat.le_of_eq (select_budget _)
  | @pull l c item rest hpc _ _ _ _ =>
    refine .inl ?_
    rw [hpc]
    cases hnext : l.batches.feed env.parsers env.chainId item with
    | none =>
      rw [pull_pc_none c rest hnext]
      exact Nat.zero_le _
    | some b =>
      rw [pull_pc_some c rest hnext]
      exact Nat.le_refl _
  | batch hpc _ =>
    refine .inl ?_
    rw [hpc]
    unfold State.processBatch
    split
    · show 0 + 1 ≤ 3 + _ + _ + 1
      omega
    · show 2 + 1 ≤ 3 + _ + _ + 1
      omega
  | streamError hpc _ =>
    refine .inl ?_
    rw [hpc]
    unfold State.streamError
    split <;> exact Nat.le_refl _
  | noClient hpc =>
    refine .inl ?_
    rw [hpc, retry_budget]
    show _ + 1 ≤ 3 + _ + trySteps env
    unfold trySteps
    omega
  | joinFailed hpc _ =>
    refine .inl ?_
    rw [hpc, retry_budget]
    show _ + 1 ≤ 3 + _ + (env.eventQueries.length + 2)
    omega
  | @notSubscribed cause done q todo delays hpc =>
    refine .inl ?_
    rw [hpc, retry_budget]
    show _ + 1 ≤ 3 + _ + (todo.length + 1 + 1)
    omega
  | resubscribed hpc =>
    refine .inl ?_
    rw [hpc]
    show 3 + 1 ≤ 3 + _ + (0 + 1)
    omega
  | enter hpc => exact .inl (by rw [hpc]; exact Nat.le_refl _)
  | abort hpc _ => exact .inl (by rw [hpc]; exact Nat.le_refl _)
  | streamEnd hpc _ _ _ => exact .inl (by rw [hpc]; exact Nat.le_refl _)
  | driverErr hpc _ => exact .inl (by rw [hpc]; exact Nat.le_refl _)
  | newClient hpc => exact .inl (by rw [hpc]; exact Nat.le_refl _)
  | joined hpc _ => exact .inl (by rw [hpc]; exact Nat.le_refl _)
  | subscribed hpc => exact .inl (by rw [hpc]; exact Nat.le_refl _)
  | joinedLast hpc _ => exact .inl (by rw [hpc]; exact Nat.le_refl _)
  | yield _ _ => exact .inl (Nat.le_refl _)
  | driverFail _ _ => exact .inl (Nat.le_refl _)
  | driverExit _ _ => exact .inl (Nat.le_refl _)
  | sendCmd => exact .inl (Nat.le_refl _)
  | dropBatchReceiver => exact .inl (Nat.le_refl _)

/-- The run lemma. -/
theorem budget_reachable {s : State} (h : (machine env).Reachable s) :
    s.pc.budget env ≤ maxBudget env := by
  refine reachable_invariant (I := fun s => s.pc.budget env ≤ maxBudget env) ?_
    (fun s l t hi ht => ?_) h
  · show 3 ≤ maxBudget env
    unfold maxBudget
    omega
  · rcases budget_step ht with hle | ⟨-, hle⟩
    · omega
    · exact hle

/-! ## Stopping -/

/-- The thread has been told to stop, or has. -/
def Stopping (s : State) : Prop := s.rxCmd ≠ [] ∨ s.pc.running = false

/-- A step that reads no command. -/
theorem Stopping.same {s t : State} (hi : Stopping s) (hcmd : t.rxCmd = s.rxCmd)
    (hpc : s.pc.running = true) : Stopping t := by
  rcases hi with htold | hstopped
  · exact .inl (by rw [hcmd]; exact htold)
  · rw [hpc] at hstopped
    nomatch hstopped

theorem retry_rxCmd (s : State) (cause : Cause) (delays : List Nat) :
    (s.retry cause delays).rxCmd = s.rxCmd := by
  cases delays <;> rfl

/-- **Step lemma.** -/
theorem stopping_step {s t : State} {l : Label} (hi : Stopping s) (h : Step env s l t) :
    Stopping t := by
  cases h with
  | abort _ _ => exact .inr rfl
  | joinedLast _ _ => exact .inr rfl
  | batch hpc _ =>
    unfold State.processBatch
    split
    · exact .inr rfl
    · exact hi.same (send_rxCmd ..) (by rw [hpc]; rfl)
  | streamError hpc _ =>
    unfold State.streamError
    split
    · exact hi.same (send_rxCmd ..) (by rw [hpc]; rfl)
    · exact hi.same rfl (by rw [hpc]; rfl)
  | noClient hpc => exact hi.same (retry_rxCmd s _ _) (by rw [hpc]; rfl)
  | @joinFailed cause old delays hpc _ =>
    exact hi.same (retry_rxCmd (s.await old) _ _) (by rw [hpc]; rfl)
  | notSubscribed hpc => exact hi.same (retry_rxCmd s _ _) (by rw [hpc]; rfl)
  | enter hpc => exact hi.same rfl (by rw [hpc]; rfl)
  | idle hpc _ => exact hi.same rfl (by rw [hpc]; rfl)
  | pull hpc _ _ _ _ => exact hi.same rfl (by rw [hpc]; rfl)
  | streamEnd hpc _ _ _ => exact hi.same rfl (by rw [hpc]; rfl)
  | driverErr hpc _ => exact hi.same rfl (by rw [hpc]; rfl)
  | newClient hpc => exact hi.same rfl (by rw [hpc]; rfl)
  | joined hpc _ => exact hi.same rfl (by rw [hpc]; rfl)
  | subscribed hpc => exact hi.same rfl (by rw [hpc]; rfl)
  | resubscribed hpc => exact hi.same rfl (by rw [hpc]; rfl)
  | yield _ _ => exact hi
  | driverFail _ _ => exact hi
  | driverExit _ _ => exact hi
  | sendCmd =>
    refine .inl ?_
    show s.rxCmd ++ [MonitorCmd.shutdown] ≠ []
    simp
  | dropBatchReceiver => exact hi

/-- A stopping thread only uses up its budget. -/
theorem stopping_budget {s t : State} {l : Label} (hi : Stopping s) (h : Step env s l t) :
    t.pc.budget env + (if l.isControl then 1 else 0) ≤ s.pc.budget env := by
  rcases budget_step h with hle | ⟨⟨hcmd, hrunning⟩, -⟩
  · exact hle
  · rcases hi with htold | hstopped
    · exact absurd hcmd htold
    · rw [hrunning] at hstopped
      nomatch hstopped

/-- What the last `select!` can still cause: one message, and one reconnect. -/
def Pc.pending : Pc → Nat
  | .select _ => 1
  | _ => 0

theorem Pc.pending_le (pc : Pc) : pc.pending ≤ 1 := by
  cases pc with
  | select l => exact Nat.le_refl 1
  | _ => exact Nat.zero_le 1

/-- What a stopping thread does before it stops, at most. -/
def Winds (s t : State) : Prop :=
  t.txBatch.length + t.pc.pending ≤ s.txBatch.length + s.pc.pending ∧
    t.history.reconnects.length + t.pc.pending ≤ s.history.reconnects.length + s.pc.pending

theorem Winds.refl (s : State) : Winds s s := ⟨Nat.le_refl _, Nat.le_refl _⟩

theorem Winds.trans {s t u : State} (h : Winds s t) (h' : Winds t u) : Winds s u :=
  ⟨Nat.le_trans h'.1 h.1, Nat.le_trans h'.2 h.2⟩

/-- A step that neither sends nor reconnects. -/
theorem Winds.of_same {s t : State} (hlog : t.txBatch = s.txBatch)
    (hreconnects : t.history.reconnects = s.history.reconnects)
    (hpending : t.pc.pending ≤ s.pc.pending) : Winds s t := by
  rw [Winds, hlog, hreconnects]
  exact ⟨Nat.add_le_add_left hpending _, Nat.add_le_add_left hpending _⟩

/-- A step out of the last `select!`. -/
theorem Winds.of_select {s t : State} {l : Label} (h : Step env s l t) (hpc : s.pc.pending = 1)
    (hpc' : t.pc.pending = 0)
    (hreconnects : t.history.reconnects.length ≤ s.history.reconnects.length + 1) : Winds s t := by
  obtain ⟨sent, hsent, hlength⟩ := h.sends
  rw [Winds, hpc, hpc', hsent, List.length_append]
  omega

theorem retry_pending (s : State) (cause : Cause) (delays : List Nat) :
    (s.retry cause delays).pc.pending = 0 := by
  cases delays <;> rfl

theorem retry_sent (s : State) (cause : Cause) (delays : List Nat) :
    (s.retry cause delays).txBatch = s.txBatch ∧
      (s.retry cause delays).history.reconnects = s.history.reconnects := by
  cases delays <;> exact ⟨rfl, rfl⟩

/-- **Step lemma.** -/
theorem winds_step {s t : State} {l : Label} (hi : Stopping s) (h : Step env s l t) :
    Winds s t := by
  have hstep := h
  cases h with
  | idle hpc hcmd =>
    rcases hi with htold | hstopped
    · exact absurd hcmd htold
    · rw [hpc] at hstopped
      nomatch hstopped
  | @pull l c item rest hpc _ _ _ _ =>
    refine .of_same rfl rfl ?_
    rw [hpc]
    cases hnext : l.batches.feed env.parsers env.chainId item with
    | none =>
      rw [pull_pc_none c rest hnext]
      exact Nat.zero_le _
    | some b =>
      rw [pull_pc_some c rest hnext]
      exact Nat.le_refl _
  | streamEnd hpc _ _ _ => exact .of_same rfl rfl (by rw [hpc]; exact Nat.le_refl _)
  | batch hpc _ =>
    refine .of_select hstep (by rw [hpc]; rfl) ?_ ?_
    · unfold State.processBatch
      split <;> rfl
    · unfold State.processBatch
      split
      · exact Nat.le_succ _
      · show (s.send _ _).history.reconnects.length ≤ _
        rw [send_history]
        exact Nat.le_succ _
  | streamError hpc _ =>
    refine .of_select hstep (by rw [hpc]; rfl) ?_ ?_
    · unfold State.streamError
      split <;> rfl
    · unfold State.streamError
      split
      · show ((s.send _ _).history.reconnects ++ [_]).length ≤ _
        rw [send_history, List.length_append]
        exact Nat.le_refl _
      · show (s.history.reconnects ++ [_]).length ≤ _
        rw [List.length_append]
        exact Nat.le_refl _
  | driverErr hpc _ =>
    refine .of_select hstep (by rw [hpc]; rfl) rfl ?_
    show (s.history.reconnects ++ [_]).length ≤ _
    rw [List.length_append]
    exact Nat.le_refl _
  | @noClient cause delays _ =>
    obtain ⟨hlog, hreconnects⟩ := retry_sent s cause delays
    exact .of_same hlog hreconnects (by rw [retry_pending]; exact Nat.zero_le _)
  | @joinFailed cause old delays _ _ =>
    obtain ⟨hlog, hreconnects⟩ := retry_sent (s.await old) cause delays
    exact .of_same hlog hreconnects (by rw [retry_pending]; exact Nat.zero_le _)
  | @notSubscribed cause done q todo delays _ =>
    obtain ⟨hlog, hreconnects⟩ := retry_sent s cause delays
    exact .of_same hlog hreconnects (by rw [retry_pending]; exact Nat.zero_le _)
  | yield _ _ => exact .refl s
  | driverFail _ _ => exact .refl s
  | driverExit _ _ => exact .refl s
  | sendCmd => exact .refl s
  | dropBatchReceiver => exact .refl s
  | _ => exact .of_same rfl rfl (Nat.zero_le _)

/-! ## Polling -/

/-- The driver of some connection hands on an item. -/
def Label.isYield : Label → Bool
  | .yield _ _ => true
  | _ => false

/-- The end of the subscriptions has still to be found. -/
def Pc.unended : Pc → Nat
  | .select l => if l.batches.ended then 0 else 1
  | _ => 0

theorem unended_select (l : Loop) :
    (Pc.select l).unended = if l.batches.ended then 0 else 1 := rfl

theorem Pc.unended_le (pc : Pc) : pc.unended ≤ 1 := by
  cases pc with
  | select l =>
    rw [unended_select]
    split <;> omega
  | _ => exact Nat.zero_le 1

/-- What there is to be polled: the items of the current connection, and their end. -/
def State.polls (s : State) : Nat := (s.feeds s.client).length + s.pc.unended

/-- A step that leaves the subscriptions alone. -/
theorem polls_le_of_same {s t : State} (hclient : t.client = s.client) (hfeeds : t.feeds = s.feeds)
    (hpc : t.pc.unended ≤ s.pc.unended) : t.polls ≤ s.polls := by
  unfold State.polls
  rw [hclient, hfeeds]
  exact Nat.add_le_add_left hpc _

theorem retry_unended (s : State) (cause : Cause) (delays : List Nat) :
    (s.retry cause delays).pc.unended = 0 := by
  cases delays <;> rfl

theorem retry_feeds (s : State) (cause : Cause) (delays : List Nat) :
    (s.retry cause delays).client = s.client ∧ (s.retry cause delays).feeds = s.feeds := by
  cases delays <;> exact ⟨rfl, rfl⟩

/-- Taking an item off the subscriptions does not end them. -/
theorem feed_ended {p : Parsers} {chainId : String} {b b' : Batches} {item : Item}
    (h : b.feed p chainId item = some b') : b'.ended = b.ended := by
  obtain ⟨items, -, rfl⟩ := Option.map_eq_some_iff.mp h
  rfl

/-- An item is pulled off the current connection. -/
theorem polls_pull (env : Env) {s : State} {l : Loop} {item : Item} {rest : List Item}
    (hpc : s.pc = .select l) (hfeed : s.feeds s.client = item :: rest) :
    (s.pull env l s.client item rest).polls + 1 ≤ s.polls := by
  have hfeeds : (s.pull env l s.client item rest).feeds s.client = rest :=
    Function.update_self ..
  have hunended : (s.pull env l s.client item rest).pc.unended ≤ s.pc.unended := by
    cases hnext : l.batches.feed env.parsers env.chainId item with
    | none =>
      rw [pull_pc_none s.client rest hnext]
      exact Nat.zero_le _
    | some b =>
      rw [pull_pc_some s.client rest hnext, hpc, unended_select, unended_select]
      show (if b.ended then 0 else 1) ≤ _
      exact Nat.le_of_eq (by rw [feed_ended hnext])
  show ((s.pull env l s.client item rest).feeds s.client).length + _ + 1 ≤
    (s.feeds s.client).length + _
  rw [hfeeds, hfeed, List.length_cons]
  omega

/-- **Step lemma**: a thread that has been told to stop polls what the subscriptions have, and what
    they get. -/
theorem polls_step {s t : State} {l : Label} (hconn : ConnInv env s) (hi : Stopping s)
    (h : Step env s l t) :
    t.polls + (if l.isPoll then 1 else 0) ≤ s.polls + if l.isYield then 1 else 0 := by
  cases h with
  | idle hpc hcmd =>
    rcases hi with htold | hstopped
    · exact absurd hcmd htold
    · rw [hpc] at hstopped
      exact absurd hstopped.symm Bool.false_ne_true
  | @pull l c item rest hpc hfeed hc _ _ =>
    obtain rfl := hconn.current hpc hc
    exact polls_pull env hpc hfeed
  | @streamEnd l hpc _ hended _ =>
    have hunended : s.pc.unended = 1 := by
      rw [hpc, unended_select, if_neg (by rw [hended]; exact Bool.false_ne_true)]
    show (s.feeds s.client).length + 0 + 1 ≤ (s.feeds s.client).length + s.pc.unended
    omega
  | @yield c item hc _ =>
    show (Function.update s.feeds c (s.feeds c ++ [item]) s.client).length + s.pc.unended ≤
      (s.feeds s.client).length + s.pc.unended + 1
    rw [Function.update_apply]
    split
    · rename_i hcurrent
      rw [hcurrent, List.length_append, List.length_singleton]
      omega
    · omega
  | @newClient cause delays hpc =>
    show (Function.update s.feeds s.next [] s.next).length + 0 ≤ _
    rw [Function.update_self]
    exact Nat.zero_le _
  | batch _ _ =>
    unfold State.processBatch
    split
    · exact polls_le_of_same rfl rfl (Nat.zero_le _)
    · exact polls_le_of_same (send_client ..) (send_feeds ..) (Nat.zero_le _)
  | streamError _ _ =>
    unfold State.streamError
    split
    · exact polls_le_of_same (send_client ..) (send_feeds ..) (Nat.zero_le _)
    · exact polls_le_of_same rfl rfl (Nat.zero_le _)
  | @noClient cause delays _ =>
    obtain ⟨hclient, hfeeds⟩ := retry_feeds s cause delays
    exact polls_le_of_same hclient hfeeds (by rw [retry_unended]; exact Nat.zero_le _)
  | @joinFailed cause old delays _ _ =>
    obtain ⟨hclient, hfeeds⟩ := retry_feeds (s.await old) cause delays
    exact polls_le_of_same hclient hfeeds (by rw [retry_unended]; exact Nat.zero_le _)
  | @notSubscribed cause done q todo delays _ =>
    obtain ⟨hclient, hfeeds⟩ := retry_feeds s cause delays
    exact polls_le_of_same hclient hfeeds (by rw [retry_unended]; exact Nat.zero_le _)
  | driverFail _ _ => exact Nat.le_refl _
  | driverExit _ _ => exact Nat.le_refl _
  | sendCmd => exact Nat.le_refl _
  | dropBatchReceiver => exact Nat.le_refl _
  | _ => exact polls_le_of_same rfl rfl (Nat.zero_le _)

/-! ## Who has been told -/

/-- The thread is leaving because of a command. -/
def Pc.leaving : Pc → Bool
  | .joinLast => true
  | .returned => true
  | _ => false

/-- A command has been sent: it is still pending, or the thread has found it. -/
def Told (s : State) : Prop := s.rxCmd ≠ [] ∨ s.pc.leaving = true

/-- A step inside the loop. -/
theorem told_same {s t : State} (hcmd : t.rxCmd = s.rxCmd) (hs : s.pc.leaving = false)
    (ht : t.pc.leaving = false) : Told t ↔ Told s := by
  unfold Told
  rw [hcmd, hs, ht]

theorem retry_leaving (s : State) (cause : Cause) (delays : List Nat) :
    (s.retry cause delays).pc.leaving = false := by
  cases delays <;> rfl

/-- **Step lemma**: only `sendCmd` tells the thread to stop, and a found command is not lost. -/
theorem told_step {s t : State} {l : Label} (hl : l ≠ .sendCmd) (h : Step env s l t) :
    Told t ↔ Told s := by
  cases h with
  | abort hpc hcmd => exact iff_of_true (.inr rfl) (.inl (by rw [hcmd]; exact List.cons_ne_nil _ _))
  | joinedLast hpc _ => exact iff_of_true (.inr rfl) (.inr (by rw [hpc]; rfl))
  | @pull l c item rest hpc _ _ _ _ =>
    refine told_same rfl (by rw [hpc]; rfl) ?_
    cases hnext : l.batches.feed env.parsers env.chainId item with
    | none =>
      rw [pull_pc_none c rest hnext]
      rfl
    | some b =>
      rw [pull_pc_some c rest hnext]
      rfl
  | batch hpc _ =>
    unfold State.processBatch
    split
    · exact told_same rfl (by rw [hpc]; rfl) rfl
    · exact told_same (send_rxCmd ..) (by rw [hpc]; rfl) rfl
  | streamError hpc _ =>
    unfold State.streamError
    split
    · exact told_same (send_rxCmd ..) (by rw [hpc]; rfl) rfl
    · exact told_same rfl (by rw [hpc]; rfl) rfl
  | noClient hpc =>
    exact told_same (retry_rxCmd s _ _) (by rw [hpc]; rfl) (retry_leaving s _ _)
  | @joinFailed cause old delays hpc _ =>
    exact told_same (retry_rxCmd (s.await old) _ _) (by rw [hpc]; rfl) (retry_leaving _ _ _)
  | notSubscribed hpc =>
    exact told_same (retry_rxCmd s _ _) (by rw [hpc]; rfl) (retry_leaving s _ _)
  | enter hpc => exact told_same rfl (by rw [hpc]; rfl) rfl
  | idle hpc _ => exact told_same rfl (by rw [hpc]; rfl) rfl
  | streamEnd hpc _ _ _ => exact told_same rfl (by rw [hpc]; rfl) rfl
  | driverErr hpc _ => exact told_same rfl (by rw [hpc]; rfl) rfl
  | newClient hpc => exact told_same rfl (by rw [hpc]; rfl) rfl
  | joined hpc _ => exact told_same rfl (by rw [hpc]; rfl) rfl
  | subscribed hpc => exact told_same rfl (by rw [hpc]; rfl) rfl
  | resubscribed hpc => exact told_same rfl (by rw [hpc]; rfl) rfl
  | sendCmd => exact absurd rfl hl
  | yield _ _ => exact Iff.rfl
  | driverFail _ _ => exact Iff.rfl
  | driverExit _ _ => exact Iff.rfl
  | dropBatchReceiver => exact Iff.rfl

/-- A thread that has been told is stopping. -/
theorem Told.stopping {s : State} (h : Told s) : Stopping s := by
  rcases h with hpending | hleaving
  · exact .inl hpending
  · refine .inr ?_
    cases hpc : s.pc with
    | joinLast => rfl
    | returned => rfl
    | _ =>
      rw [hpc] at hleaving
      nomatch hleaving

/-! ## The thread moves -/

/-- The driver that the thread waits for. -/
def State.joining (s : State) : Option ConnId :=
  match s.pc with
  | .joinOld _ old _ => some old
  | .joinLast => some s.driverHandle
  | _ => none

/-- Outside `select!` a thread that is not over can take its next step, unless it waits for a
    driver that still runs. -/
theorem control_enabled (env : Env) {s : State} (hselect : ∀ l, s.pc ≠ .select l)
    (hreturned : s.pc ≠ .returned) (hpanicked : s.pc ≠ .panicked)
    (hjoin : ∀ c, s.joining = some c → s.drivers c = .terminated) :
    ∃ l t, l.isControl = true ∧ step env s l = some t := by
  cases hpc : s.pc with
  | runLoop => exact ⟨.enter, _, rfl, by simp only [step, hpc]; rfl⟩
  | command l =>
    cases hcmd : s.rxCmd with
    | nil => exact ⟨.checkCmd, _, rfl, by simp only [step, hpc, hcmd]; rfl⟩
    | cons cmd rest =>
      cases cmd with
      | shutdown => exact ⟨.checkCmd, _, rfl, by simp only [step, hpc, hcmd]; rfl⟩
  | select l => exact absurd hpc (hselect l)
  | tryReconnect cause delays => exact ⟨.newClient true, _, rfl, by simp only [step, hpc]; rfl⟩
  | joinOld cause old delays =>
    have hold := hjoin old (by rw [State.joining, hpc])
    exact ⟨.joined true, _, rfl, by simp only [step, hpc, hold, if_true]; rfl⟩
  | resubscribe cause done todo delays =>
    cases todo with
    | nil => exact ⟨.resubscribed, _, rfl, by simp only [step, hpc]; rfl⟩
    | cons q todo => exact ⟨.subscribed true, _, rfl, by simp only [step, hpc]; rfl⟩
  | joinLast =>
    have hlast := hjoin s.driverHandle (by rw [State.joining, hpc])
    exact ⟨.joinedLast, _, rfl, by simp only [step, hpc, hlast, if_true]; rfl⟩
  | returned => exact absurd hpc hreturned
  | panicked => exact absurd hpc hpanicked

/-- Where a thread is that has been told to stop and has made so many steps since. -/
theorem stopping_ends (env : Env) {t : State} {steps : Nat}
    (hcost : t.pc.budget env + steps ≤ maxBudget env) :
    t.pc = .returned ∨ t.pc = .panicked ∨
      (∃ l t', l.isControl = true ∧ step env t l = some t') ∨
      (∃ c, t.joining = some c ∧ t.drivers c = .running) ∨
      (∃ l, t.pc = .select l) ∧ steps = 0 := by
  by_cases hselect : ∃ l, t.pc = .select l
  · refine .inr (.inr (.inr (.inr ⟨hselect, ?_⟩)))
    obtain ⟨l, hpc⟩ := hselect
    rw [hpc, select_budget] at hcost
    omega
  · by_cases hover : t.pc = .returned ∨ t.pc = .panicked
    · rcases hover with hret | hpanicked
      · exact .inl hret
      · exact .inr (.inl hpanicked)
    · rw [not_or] at hover
      by_cases hjoin : ∃ c, t.joining = some c ∧ t.drivers c = .running
      · exact .inr (.inr (.inr (.inl hjoin)))
      · refine .inr (.inr (.inl ?_))
        refine control_enabled env (fun l hpc => hselect ⟨l, hpc⟩) hover.1 hover.2 fun c hc => ?_
        cases hdriver : t.drivers c with
        | running => exact absurd ⟨c, hc, hdriver⟩ hjoin
        | terminated => rfl

/-! ## Headline: stopping -/

/-- **Headline.**  From any state of a run with a command pending, whatever comes next: besides
    polling its batch stream the thread takes a bounded number of steps, of which each try of one
    `reconnect` takes as many as there are queries and three, and it polls the stream for what the
    subscriptions have and get, and for their end; it sends one more message at most and starts one
    more `reconnect` at most; and it is over, or can move, or joins a driver that still runs, or has
    done nothing but poll since the command came, because it waits in the `select!` that it was
    in. -/
theorem shutdown_prompt {s t : State} {ls : List Label} (h : (machine env).Reachable s)
    (hcmd : s.rxCmd ≠ []) (hrun : (machine env).exec s ls = some t) :
    ls.countP Label.isControl ≤ 4 + (env.strategy.length + 1) * (env.eventQueries.length + 3) ∧
      ls.countP Label.isPoll ≤ (s.feeds s.client).length + ls.countP Label.isYield + 1 ∧
      t.txBatch.length ≤ s.txBatch.length + 1 ∧
      t.history.reconnects.length ≤ s.history.reconnects.length + 1 ∧
      (t.pc = .returned ∨ t.pc = .panicked ∨
        (∃ l t', l.isControl = true ∧ step env t l = some t') ∨
        (∃ c, t.joining = some c ∧ t.drivers c = .running) ∨
        (∃ l, t.pc = .select l) ∧ ls.countP Label.isControl = 0) := by
  have hstopping : Stopping s := .inl hcmd
  obtain ⟨hstopped, hcost⟩ := Machine.exec_cost (M := machine env) (I := Stopping)
    (P := Label.isControl) (fun s => s.pc.budget env)
    (fun s l t hi ht => ⟨stopping_step hi (step_cases ht), stopping_budget hi (step_cases ht)⟩)
    hstopping hrun
  obtain ⟨-, hpolls⟩ := Machine.exec_balance (M := machine env)
    (I := fun s => (machine env).Reachable s ∧ Stopping s) (P := Label.isPoll) (Q := Label.isYield)
    State.polls
    (fun s l t hi ht => ⟨⟨hi.1.step ht, stopping_step hi.2 (step_cases ht)⟩,
      polls_step (connInv_reachable hi.1) hi.2 (step_cases ht)⟩)
    ⟨h, hstopping⟩ hrun
  obtain ⟨-, hlog, hreconnects⟩ := Machine.exec_rel (M := machine env) (R := Winds) Winds.refl
    Winds.trans
    (fun s l t hi ht => ⟨stopping_step hi (step_cases ht), winds_step hi (step_cases ht)⟩)
    hstopping hrun
  have hmax := budget_reachable h
  have hpending := s.pc.pending_le
  have hunended := s.pc.unended_le
  have hcost : t.pc.budget env + ls.countP Label.isControl ≤ maxBudget env :=
    Nat.le_trans hcost hmax
  have hsteps : ls.countP Label.isControl ≤ maxBudget env := by omega
  refine ⟨hsteps, ?_, by omega, by omega, stopping_ends env hcost⟩
  unfold State.polls at hpolls
  omega

/-- The command comes while the thread waits; its driver fails, the first try finds no client, the
    second one reconnects, and then the command is found. -/
def stoppingRun : List Label :=
  [.driverFail 0 ⟨.other 1, none⟩, .driverErr, .newClient false, .newClient true, .joined true,
    .subscribed true, .subscribed true, .resubscribed, .enter, .checkCmd]

theorem shutdown_prompt_reconnect :
    ∃ s t,
      (machine demoEnv).exec (subscribedState demoEnv) [.enter, .checkCmd, .sendCmd] = some s ∧
      (machine demoEnv).exec s stoppingRun = some t ∧
      t.history.reconnects.length ≤ s.history.reconnects.length + 1 := by
  obtain ⟨s, t, hs, hcmd, ht⟩ :
      ∃ s t,
        (machine demoEnv).exec (subscribedState demoEnv) [.enter, .checkCmd, .sendCmd] = some s ∧
        s.rxCmd ≠ [] ∧ (machine demoEnv).exec s stoppingRun = some t :=
    ⟨_, _, rfl, by decide, rfl⟩
  have hreach := Machine.exec_reachable (.init rfl) hs
  exact ⟨s, t, hs, ht, (shutdown_prompt hreach hcmd ht).2.2.2.1⟩

/-! ## The clients -/

/-- The tries that are left to the `reconnect` that runs. -/
def Pc.tries : Pc → Nat
  | .tryReconnect _ delays => delays.length + 1
  | .joinOld _ _ delays => delays.length
  | .resubscribe _ _ _ delays => delays.length
  | _ => 0

/-- The first client, and those of the tries that were made. -/
def ClientsInv (env : Env) (s : State) : Prop :=
  s.next + s.pc.tries ≤ 1 + s.history.reconnects.length * (env.strategy.length + 1)

/-- A step that creates no client and starts no reconnect. -/
theorem ClientsInv.same {s t : State} (hi : ClientsInv env s) (hnext : t.next = s.next)
    (hreconnects : t.history.reconnects = s.history.reconnects) (htries : t.pc.tries ≤ s.pc.tries) :
    ClientsInv env t := by
  rw [ClientsInv, hnext, hreconnects]
  exact Nat.le_trans (Nat.add_le_add_left htries _) hi

/-- A reconnect may try once, and once more after each of its delays. -/
theorem ClientsInv.reconnect {s u : State} (hi : ClientsInv env s) (hnext : u.next = s.next)
    (hreconnects : u.history.reconnects = s.history.reconnects) (l : Loop) (cause : Cause) :
    ClientsInv env (u.reconnect env l cause) := by
  have hi' : s.next ≤ 1 + s.history.reconnects.length * (env.strategy.length + 1) :=
    Nat.le_trans (Nat.le_add_right _ _) hi
  show u.next + (env.strategy.length + 1) ≤
    1 + (u.history.reconnects ++ [_]).length * (env.strategy.length + 1)
  rw [hnext, hreconnects, List.length_append, List.length_singleton, Nat.succ_mul,
    ← Nat.add_assoc 1]
  exact Nat.add_le_add_right hi' _

theorem retry_next (s : State) (cause : Cause) (delays : List Nat) :
    (s.retry cause delays).next = s.next := by
  cases delays <;> rfl

theorem retry_tries (s : State) (cause : Cause) (delays : List Nat) :
    (s.retry cause delays).pc.tries = delays.length := by
  cases delays <;> rfl

/-- **Step lemma.** -/
theorem clients_step {s t : State} {l : Label} (hi : ClientsInv env s) (h : Step env s l t) :
    ClientsInv env t := by
  cases h with
  | @newClient cause delays hpc =>
    rw [ClientsInv, hpc] at hi
    show s.next + 1 + delays.length ≤
      1 + s.history.reconnects.length * (env.strategy.length + 1)
    rw [Nat.add_assoc, Nat.add_comm 1]
    exact hi
  | streamError _ _ =>
    unfold State.streamError
    split
    · exact hi.reconnect (send_next ..) (by rw [send_history]) _ _
    · exact hi.reconnect rfl rfl _ _
  | driverErr _ _ => exact hi.reconnect (u := { s with rxErr := _ }) rfl rfl _ _
  | batch _ _ =>
    unfold State.processBatch
    split
    · exact hi.same rfl rfl (Nat.zero_le _)
    · exact hi.same (send_next ..) (congrArg _ (send_history ..)) (Nat.zero_le _)
  | @pull l c item rest hpc _ _ _ _ =>
    refine hi.same rfl rfl ?_
    cases hnext : l.batches.feed env.parsers env.chainId item with
    | none =>
      rw [pull_pc_none c rest hnext]
      exact Nat.zero_le _
    | some b =>
      rw [pull_pc_some c rest hnext]
      exact Nat.zero_le _
  | @noClient cause delays hpc =>
    refine hi.same (retry_next ..) (retry_sent ..).2 ?_
    rw [retry_tries, hpc]
    exact Nat.le_succ _
  | joined hpc _ => exact hi.same rfl rfl (by rw [hpc]; exact Nat.le_refl _)
  | @joinFailed cause old delays hpc _ =>
    refine hi.same (retry_next (s.await old) ..) (retry_sent (s.await old) ..).2 ?_
    rw [retry_tries, hpc]
    exact Nat.le_refl _
  | subscribed hpc => exact hi.same rfl rfl (by rw [hpc]; exact Nat.le_refl _)
  | @notSubscribed cause done q todo delays hpc =>
    refine hi.same (retry_next ..) (retry_sent ..).2 ?_
    rw [retry_tries, hpc]
    exact Nat.le_refl _
  | yield _ _ => exact hi
  | driverFail _ _ => exact hi
  | driverExit _ _ => exact hi
  | sendCmd => exact hi
  | dropBatchReceiver => exact hi
  | _ => exact hi.same rfl rfl (Nat.zero_le _)

/-- The run lemma. -/
theorem clients_reachable {s : State} (h : (machine env).Reachable s) : ClientsInv env s :=
  reachable_invariant (I := ClientsInv env) (Nat.le_add_right 1 _) (fun _ _ _ => clients_step) h

/-! ## Headline: clients -/

/-- **Headline.**  In every state of a run: apart from the first one, a client was created for each
    try of each reconnect at most, and a reconnect tries once and once more after each of its
    delays. -/
theorem clients_bounded {s : State} (h : (machine env).Reachable s) :
    s.next ≤ 1 + s.history.reconnects.length * (env.strategy.length + 1) :=
  Nat.le_trans (Nat.le_add_right _ _) (clients_reachable h)

/-- Four clients for one reconnect, of the nineteen that it may create. -/
theorem clients_bounded_reconnect :
    ∃ s, (machine demoEnv).exec (subscribedState demoEnv) demoReconnect = some s ∧
      s.next = 4 ∧ s.next ≤ 1 + s.history.reconnects.length * (demoEnv.strategy.length + 1) := by
  obtain ⟨s, hs, hnext⟩ : ∃ s, (machine demoEnv).exec (subscribedState demoEnv) demoReconnect
      = some s ∧ s.next = 4 := ⟨_, rfl, rfl⟩
  exact ⟨s, hs, hnext, clients_bounded (Machine.exec_reachable (.init rfl) hs)⟩

end OffChainWorker.Monitor
