/-
  Errors of a replaced connection in the shared channel `rx_err`.

  All drivers send on one channel that outlives the reconnects.  A reconnect replaces the connection
  whose stream has failed while the driver of that connection may still be running: its error is
  then sent late, before `try_reconnect` has finished to wait for it, and the next `run_loop` takes
  it for an error of the new connection.  As long as the channel holds no error of the replaced
  driver when it has been awaited, every driver error is one of the current connection.
-/
import OffChainWorker.Subscribe.MonitorStuck

namespace OffChainWorker.Monitor

open Proc

variable {env : Env}

/-- The connections whose failure led to a successful reconnect. -/
def State.healed (s : State) : List ConnId := s.history.restored.filterMap Cause.failed

/-- Every driver error that `run_loop` reconnected on was one of the current connection, and no
    connection led to two successful reconnects. -/
structure HealthyKept (s : State) : Prop where
  current : ∀ r ∈ s.history.reconnects, ∀ c, r.cause = .driver c → c = r.client
  once : s.healed.Nodup

/-- The errors in `rx_err` of the driver that `try_reconnect` waits for. -/
def staleErrors (s : State) : List (ConnId × RpcError) :=
  match s.pc with
  | .joinOld _ old _ => s.rxErr.filter fun p => p.1 == old
  | _ => []

/-- The join of the replaced driver returns. -/
def Label.isJoined : Label → Bool
  | .joined _ => true
  | _ => false

/-- When the join of the replaced driver returns, `rx_err` holds no error of that driver. -/
def Drained (s : State) (l : Label) : Prop := l.isJoined = true → (staleErrors s).isEmpty = true

instance (s : State) (l : Label) : Decidable (Drained s l) := inferInstanceAs (Decidable (_ → _))

/-! ## The invariant -/

/-- The failed connection that a reconnect is about is not newer than the current one, and newer
    than those that were reconnected before. -/
def Pc.CauseFresh (client : ConnId) (healed : List ConnId) : Pc → Prop
  | .tryReconnect cause _ => ∀ c, cause.failed = some c → c ≤ client ∧ ∀ c' ∈ healed, c' < c
  | .joinOld cause _ _ => ∀ c, cause.failed = some c → c < client ∧ ∀ c' ∈ healed, c' < c
  | .resubscribe cause _ _ _ => ∀ c, cause.failed = some c → c < client ∧ ∀ c' ∈ healed, c' < c
  | _ => True

structure StaleInv (s : State) : Prop where
  /-- An error in `rx_err` is one of the current driver or of the one being awaited. -/
  errors : ∀ p ∈ s.rxErr, p.1 = s.client ∨ ∃ cause delays, s.pc = .joinOld cause p.1 delays
  current : ∀ r ∈ s.history.reconnects, ∀ c, r.cause = .driver c → c = r.client
  below : ∀ c ∈ s.healed, c < s.client
  once : s.healed.Nodup
  cause : s.pc.CauseFresh s.client s.healed

theorem staleInv_init : StaleInv (subscribedState env) where
  errors := fun _ h => absurd h List.not_mem_nil
  current := fun _ h => absurd h List.not_mem_nil
  below := fun _ h => absurd h List.not_mem_nil
  once := List.nodup_nil
  cause := trivial

/-- A step that awaits no driver and touches neither the client, `rx_err` nor the records. -/
theorem StaleInv.of_same {s t : State} (hi : StaleInv s) (hclient : t.client = s.client)
    (herr : t.rxErr = s.rxErr) (hrec : t.history.reconnects = s.history.reconnects)
    (hres : t.history.restored = s.history.restored)
    (hjoin : ∀ cause c delays, s.pc = .joinOld cause c delays → t.pc = s.pc)
    (hcause : t.pc.CauseFresh s.client s.healed) : StaleInv t := by
  have hhealed : t.healed = s.healed := by rw [State.healed, hres]; rfl
  refine ⟨fun p hp => ?_, ?_, ?_, ?_, ?_⟩
  · rw [herr] at hp
    rw [hclient]
    rcases hi.errors p hp with hcur | ⟨cause, delays, hpc⟩
    · exact .inl hcur
    · exact .inr ⟨cause, delays, (hjoin _ _ _ hpc).trans hpc⟩
  · rw [hrec]
    exact hi.current
  · rw [hhealed, hclient]
    exact hi.below
  · rw [hhealed]
    exact hi.once
  · rw [hhealed, hclient]
    exact hcause

/-- Outside `try_reconnect` every error in `rx_err` is one of the current driver. -/
theorem StaleInv.errors_current {s : State} (hi : StaleInv s)
    (hpc : ∀ cause c delays, s.pc ≠ .joinOld cause c delays) : ∀ p ∈ s.rxErr, p.1 = s.client := by
  intro p hp
  rcases hi.errors p hp with hcur | ⟨cause, delays, hjoin⟩
  · exact hcur
  · exact absurd hjoin (hpc cause p.1 delays)

/-- The join has returned and left no error of the replaced driver. -/
theorem StaleInv.errors_joined {s : State} (hi : StaleInv s) {cause : Cause} {old : ConnId}
    {delays : List Nat} (hpc : s.pc = .joinOld cause old delays)
    (hdrained : (staleErrors s).isEmpty = true) : ∀ p ∈ s.rxErr, p.1 = s.client := by
  intro p hp
  rcases hi.errors p hp with hcur | ⟨cause', delays', hjoin⟩
  · exact hcur
  · rw [hpc] at hjoin
    obtain ⟨-, hold, -⟩ := Pc.joinOld.inj hjoin
    have hstale : p ∈ staleErrors s := by
      rw [staleErrors, hpc]
      exact List.mem_filter.mpr ⟨hp, by rw [hold]; exact beq_self_eq_true _⟩
    rw [List.isEmpty_iff.mp hdrained] at hstale
    exact absurd hstale List.not_mem_nil

/-- `reconnect` is called for the failure of the current connection. -/
theorem staleInv_reconnect {s : State} {l : Loop} {cause : Cause}
    (herrors : ∀ p ∈ s.rxErr, p.1 = s.client)
    (hcurrent : ∀ r ∈ s.history.reconnects, ∀ c, r.cause = .driver c → c = r.client)
    (hbelow : ∀ c ∈ s.healed, c < s.client) (honce : s.healed.Nodup)
    (hcause : ∀ c, cause.failed = some c → c = s.client) :
    StaleInv (s.reconnect env l cause) where
  errors := fun p hp => .inl (herrors p hp)
  current := by
    intro r hr c hc
    rcases List.mem_append.mp hr with hr | hr
    · exact hcurrent r hr c hc
    · rw [List.mem_singleton.mp hr] at hc ⊢
      have hc' : cause = .driver c := hc
      exact hcause c (by rw [hc']; rfl)
  below := hbelow
  once := honce
  cause := by
    intro c hc
    obtain rfl := hcause c hc
    exact ⟨Nat.le_refl _, hbelow⟩

theorem staleInv_retry {s : State} (hi : StaleInv s) {cause : Cause} {delays : List Nat}
    (herrors : ∀ p ∈ s.rxErr, p.1 = s.client)
    (hcause : ∀ c, cause.failed = some c → c ≤ s.client ∧ ∀ c' ∈ s.healed, c' < c) :
    StaleInv (s.retry cause delays) := by
  cases delays with
  | nil => exact ⟨fun p hp => .inl (herrors p hp), hi.current, hi.below, hi.once, trivial⟩
  | cons d rest => exact ⟨fun p hp => .inl (herrors p hp), hi.current, hi.below, hi.once, hcause⟩

/-- One more connection is healed, and it is newer than those healed before. -/
theorem staleInv_resubscribed {s : State} (hi : StaleInv s) {cause : Cause}
    {done : List Subscription} (herrors : ∀ p ∈ s.rxErr, p.1 = s.client)
    (hcause : ∀ c, cause.failed = some c → c < s.client ∧ ∀ c' ∈ s.healed, c' < c) :
    StaleInv (s.resubscribed cause done) := by
  have hhealed : (s.resubscribed cause done).healed = s.healed ++ cause.failed.toList := by
    cases hf : cause.failed <;> simp [State.healed, State.resubscribed, hf]
  refine ⟨fun p hp => .inl (herrors p hp), hi.current, ?_, ?_, trivial⟩
  · rw [hhealed]
    intro c hmem
    rcases List.mem_append.mp hmem with hmem | hmem
    · exact hi.below c hmem
    · exact (hcause c (Option.mem_toList.mp hmem)).1
  · rw [hhealed]
    cases hf : cause.failed with
    | none => simpa using hi.once
    | some c =>
      refine List.nodup_append.mpr ⟨hi.once, by simp, fun a ha b hb => ?_⟩
      rw [List.mem_singleton.mp hb]
      exact Nat.ne_of_lt ((hcause c hf).2 a ha)

/-- The connection a running loop reads from is the current one. -/
theorem loop_conn_current {s : State} {l : Loop} (hi : ConnInv env s) (hpc : s.pc = .select l) :
    ∀ c, l.conn = some c → c = s.client := by
  intro c hc
  have hcons := hi.consistent
  rw [hpc] at hcons
  rcases hcons.1 with hnil | hmerged
  · simp [Loop.conn, Loop.conns, hnil] at hc
  · have hmem : c ∈ l.conns := List.mem_of_head? hc
    obtain ⟨sub, hsub, rfl⟩ := List.mem_map.mp hmem
    rw [hmerged] at hsub
    obtain ⟨q, -, rfl⟩ := List.mem_map.mp hsub
    rfl

/-- **Step lemma.** -/
theorem staleInv_step {s t : State} {l : Label} (hconn : ConnInv env s) (hold : OldDriversDead s)
    (hi : StaleInv s) (hc : Drained s l) (h : Step env s l t) : StaleInv t := by
  have hcause := hi.cause
  cases h with
  | enter hpc =>
    exact hi.of_same rfl rfl rfl rfl (fun _ _ _ hj => nomatch hpc.symm.trans hj) trivial
  | idle hpc _ =>
    exact hi.of_same rfl rfl rfl rfl (fun _ _ _ hj => nomatch hpc.symm.trans hj) trivial
  | abort hpc _ =>
    exact hi.of_same rfl rfl rfl rfl (fun _ _ _ hj => nomatch hpc.symm.trans hj) trivial
  | @pull l c item rest hpc _ _ _ _ =>
    refine hi.of_same rfl rfl rfl rfl (fun _ _ _ hj => nomatch hpc.symm.trans hj) ?_
    cases hfeed : l.batches.feed env.parsers env.chainId item with
    | none => rw [pull_pc_none c rest hfeed]; trivial
    | some b => rw [pull_pc_some c rest hfeed]; trivial
  | streamEnd hpc _ _ _ =>
    exact hi.of_same rfl rfl rfl rfl (fun _ _ _ hj => nomatch hpc.symm.trans hj) trivial
  | batch hpc _ =>
    unfold State.processBatch
    split
    · exact hi.of_same rfl rfl rfl rfl (fun _ _ _ hj => nomatch hpc.symm.trans hj) trivial
    · exact hi.of_same (by simp) (by simp) (by simp) (by simp)
        (fun _ _ _ hj => nomatch hpc.symm.trans hj) trivial
  | @streamError l e rest hpc _ =>
    have herrors := hi.errors_current fun _ _ _ hj => nomatch hpc.symm.trans hj
    have hfailed := loop_conn_current hconn hpc
    unfold State.streamError
    split
    · refine staleInv_reconnect (by simpa using herrors) (by simpa using hi.current) ?_ ?_
        fun c hc => (hfailed c hc).trans (send_client ..).symm
      · simpa [State.healed] using hi.below
      · simpa [State.healed] using hi.once
    · exact staleInv_reconnect herrors hi.current hi.below hi.once hfailed
  | @driverErr l c e rest hpc herr =>
    have herrors := hi.errors_current fun _ _ _ hj => nomatch hpc.symm.trans hj
    rw [herr] at herrors
    refine staleInv_reconnect (s := { s with rxErr := rest })
      (fun p hp => herrors p (List.mem_cons_of_mem _ hp)) hi.current hi.below hi.once
      fun c' hc' => ?_
    obtain rfl : c = c' := Option.some.inj hc'
    exact herrors _ List.mem_cons_self
  | @newClient cause delays hpc =>
    have herrors := hi.errors_current fun _ _ _ hj => nomatch hpc.symm.trans hj
    rw [hpc] at hcause
    have hnext : s.client < s.next := by rw [hconn.next]; exact Nat.lt_succ_self _
    refine ⟨fun p hp => .inr ⟨cause, delays, ?_⟩, hi.current, fun c hmem => ?_, hi.once, ?_⟩
    · rw [herrors p hp, ← hconn.driver]
      rfl
    · exact Nat.lt_trans (hi.below c hmem) hnext
    · intro c hfailed
      obtain ⟨hle, hnew⟩ := hcause c hfailed
      exact ⟨Nat.lt_of_le_of_lt hle hnext, hnew⟩
  | noClient hpc =>
    have herrors := hi.errors_current fun _ _ _ hj => nomatch hpc.symm.trans hj
    rw [hpc] at hcause
    exact staleInv_retry hi herrors hcause
  | @joined cause old delays hpc _ =>
    have herrors := hi.errors_joined hpc (hc rfl)
    rw [hpc] at hcause
    exact ⟨fun p hp => .inl (herrors p hp), hi.current, hi.below, hi.once, hcause⟩
  | @joinFailed cause old delays hpc _ =>
    have herrors := hi.errors_joined hpc (hc rfl)
    rw [hpc] at hcause
    refine staleInv_retry (s := s.await old) ⟨hi.errors, hi.current, hi.below, hi.once, hi.cause⟩
      herrors fun c hfailed => ?_
    exact ⟨Nat.le_of_lt (hcause c hfailed).1, (hcause c hfailed).2⟩
  | subscribed hpc =>
    rw [hpc] at hcause
    exact hi.of_same rfl rfl rfl rfl (fun _ _ _ hj => nomatch hpc.symm.trans hj) hcause
  | notSubscribed hpc =>
    have herrors := hi.errors_current fun _ _ _ hj => nomatch hpc.symm.trans hj
    rw [hpc] at hcause
    exact staleInv_retry hi herrors fun c hfailed =>
      ⟨Nat.le_of_lt (hcause c hfailed).1, (hcause c hfailed).2⟩
  | resubscribed hpc =>
    have herrors := hi.errors_current fun _ _ _ hj => nomatch hpc.symm.trans hj
    rw [hpc] at hcause
    exact staleInv_resubscribed hi herrors hcause
  | joinedLast hpc _ =>
    exact hi.of_same rfl rfl rfl rfl (fun _ _ _ hj => nomatch hpc.symm.trans hj) trivial
  | yield _ _ => exact hi.of_same rfl rfl rfl rfl (fun _ _ _ _ => rfl) hcause
  | @driverFail c e hlt hrun =>
    refine ⟨fun p hp => ?_, hi.current, hi.below, hi.once, hcause⟩
    rcases List.mem_append.mp hp with hp | hp
    · exact hi.errors p hp
    · rw [List.mem_singleton.mp hp]
      -- a running driver is the current one or the one being awaited
      by_cases hcur : c = s.client
      · exact .inl hcur
      · rcases hold c hlt hcur with hdead | hjoin
        · nomatch hrun.symm.trans hdead
        · exact .inr hjoin
  | driverExit _ _ => exact hi.of_same rfl rfl rfl rfl (fun _ _ _ _ => rfl) hcause
  | sendCmd => exact hi.of_same rfl rfl rfl rfl (fun _ _ _ _ => rfl) hcause
  | dropBatchReceiver => exact hi.of_same rfl rfl rfl rfl (fun _ _ _ _ => rfl) hcause

/-! ## Headline -/

/-- **Headline.**  In every run in which `rx_err` holds no error of a replaced driver when its join
    returns, every driver error that `run_loop` reconnects on is one of the current connection, and
    one failing connection leads to at most one successful reconnect. -/
theorem healthy_kept_if_drained {s : State} (h : (machine env).ReachableIf Drained s) :
    HealthyKept s := by
  have hi : StaleInv s :=
    reachableIf_invariant (J := fun s => ConnInv env s ∧ OldDriversDead s)
      (fun _ hr => ⟨connInv_reachable hr, oldDriversDead_reachable hr⟩) staleInv_init
      (fun _ _ _ hj hi hc hstep => staleInv_step hj.1 hj.2 hi hc hstep) h
  exact ⟨hi.current, hi.once⟩

/-- The failure of the first connection up to `try_reconnect`, seen as a cancelled subscription. -/
def cancelFirst : List Label :=
  [.enter, .checkCmd, .yield 0 (.error ⟨.serverError, some "subscription was cancelled"⟩), .pull 0,
    .batch]

/-- The driver of the cancelled connection ends without an error of its own. -/
def drainedRun : List Label :=
  cancelFirst ++ [.newClient true, .driverExit 0, .joined true, .subscribed true, .subscribed true,
    .resubscribed]

/-- The driver of the cancelled connection fails while it is being shut down, and the next
    `run_loop` finds its error; the second connection is replaced too. -/
def staleRun : List Label :=
  cancelFirst ++ [.newClient true, .driverFail 0 ⟨.other 1, none⟩, .joined true, .subscribed true,
    .subscribed true, .resubscribed, .enter, .checkCmd, .driverErr, .newClient true, .driverExit 1,
    .joined true, .subscribed true, .subscribed true, .resubscribed]

theorem healthy_kept_drained :
    ∃ s, (machine demoEnv).execIf Drained (subscribedState demoEnv) drainedRun = some s ∧
      HealthyKept s := by
  obtain ⟨s, hs⟩ : ∃ s, (machine demoEnv).execIf Drained (subscribedState demoEnv) drainedRun
      = some s := ⟨_, rfl⟩
  exact ⟨s, hs, healthy_kept_if_drained (Machine.execIf_reachableIf (.init rfl) hs)⟩

/-- A late error of the first connection tears the second one down. -/
theorem late_error_tears_down :
    ¬ ∀ (env : Env) (s : State), (machine env).Reachable s → HealthyKept s := by
  intro h
  obtain ⟨s, hs, hrec⟩ :
      ∃ s, (machine demoEnv).exec (subscribedState demoEnv) staleRun = some s ∧
        s.history.reconnects = [⟨.stream (some 0), 0⟩, ⟨.driver 0, 1⟩] :=
    ⟨_, rfl, rfl⟩
  have hcurrent := (h demoEnv s (Machine.exec_reachable (.init rfl) hs)).current
  rw [hrec] at hcurrent
  exact absurd (hcurrent ⟨.driver 0, 1⟩ (by decide) 0 rfl) (by decide)

end OffChainWorker.Monitor
