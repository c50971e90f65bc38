/-
  The state in which the event monitor waits for ever.

  `run_loop` waits in `select!` on the batch stream and on `rx_err`.  Once the subscriptions have
  ended the stream is silent, so only an error of the current driver can wake the loop up.  Such an
  error is due as long as the driver is running or its error is still in `rx_err` (`Alarmed`).  Two
  things leave the loop without one: the driver may end without an error, and `reconnect` may give
  up after its last try, when the error of the dead driver has already been consumed.
-/
import OffChainWorker.Subscribe.MonitorConnection

namespace OffChainWorker.Monitor

open Proc

variable {env : Env}

/-- `run_loop` waits in `select!`, its batch stream is exhausted, and the driver of the current
    client has terminated with no error left in `rx_err`. -/
def Stuck (s : State) : Prop :=
  ∃ l, s.pc = .select l ∧ l.batches.ended = true ∧ l.batches.out = [] ∧
    s.drivers s.client = .terminated ∧ s.rxErr = []

/-- The driver of the current client is running, or an error of it is waiting in `rx_err`. -/
def Alarmed (s : State) : Prop :=
  s.drivers s.client = .running ∨ s.client ∈ s.rxErr.map Prod.fst

instance (s : State) : Decidable (Alarmed s) := inferInstanceAs (Decidable (_ ∨ _))

/-- `run_loop` is running or about to. -/
def Pc.listening : Pc → Bool
  | .runLoop => true
  | .command _ => true
  | .select _ => true
  | _ => false

/-- The driver of the current client ends without an error under a running `run_loop`. -/
def endsSilently (s : State) : Label → Bool
  | .driverExit c => s.pc.listening && c == s.client
  | _ => false

/-- `reconnect` returns, with a new subscription or after its last try. -/
def reconnectReturns (s : State) : Label → Bool
  | .resubscribed => true
  | .newClient false =>
    match s.pc with
    | .tryReconnect _ [] => true
    | _ => false
  | .joined false =>
    match s.pc with
    | .joinOld _ _ [] => true
    | _ => false
  | .subscribed false =>
    match s.pc with
    | .resubscribe _ _ _ [] => true
    | _ => false
  | _ => false

/-- The current driver never ends silently under `run_loop`, and `reconnect` returns only while an
    error of the current driver is still due. -/
def Reported (s : State) (l : Label) : Prop :=
  endsSilently s l = false ∧ (reconnectReturns s l = true → Alarmed s)

instance (s : State) (l : Label) : Decidable (Reported s l) := inferInstanceAs (Decidable (_ ∧ _))

/-! ## An error is due whenever the loop listens -/

def AlarmInv (s : State) : Prop := s.pc.listening = true → Alarmed s

theorem alarmInv_init : AlarmInv (subscribedState env) := fun _ => .inl rfl

/-- A step that touches neither the current driver nor `rx_err`. -/
theorem AlarmInv.of_same {s t : State} (hi : AlarmInv s)
    (hpc : t.pc.listening = true → s.pc.listening = true) (hclient : t.client = s.client)
    (hdrivers : t.drivers = s.drivers) (herr : t.rxErr = s.rxErr) : AlarmInv t := by
  intro hlisten
  show t.drivers t.client = .running ∨ t.client ∈ t.rxErr.map Prod.fst
  rw [hclient, hdrivers, herr]
  exact hi (hpc hlisten)

theorem alarmInv_away {s : State} (h : s.pc.listening = false) : AlarmInv s :=
  fun hlisten => nomatch h.symm.trans hlisten

/-- The next try is outside `run_loop`; giving up needs an error to be due. -/
theorem alarmInv_retry {s : State} {cause : Cause} {delays : List Nat}
    (h : delays = [] → Alarmed s) : AlarmInv (s.retry cause delays) := by
  cases delays with
  | nil => exact fun _ => h rfl
  | cons d rest => exact alarmInv_away rfl

/-- **Step lemma.** -/
theorem alarmInv_step {s t : State} {l : Label} (hi : AlarmInv s) (hc : Reported s l)
    (h : Step env s l t) : AlarmInv t := by
  obtain ⟨hsilent, hreturns⟩ := hc
  cases h with
  | enter hpc => exact hi.of_same (fun _ => by rw [hpc]; rfl) rfl rfl rfl
  | idle hpc _ => exact hi.of_same (fun _ => by rw [hpc]; rfl) rfl rfl rfl
  | abort _ _ => exact alarmInv_away rfl
  | pull hpc _ _ _ _ => exact hi.of_same (fun _ => by rw [hpc]; rfl) rfl rfl rfl
  | streamEnd hpc _ _ _ => exact hi.of_same (fun _ => by rw [hpc]; rfl) rfl rfl rfl
  | batch hpc _ =>
    unfold State.processBatch
    split
    · exact alarmInv_away rfl
    · exact hi.of_same (fun _ => by rw [hpc]; rfl) (by simp) (by simp) (by simp)
  | streamError _ _ =>
    unfold State.streamError
    split <;> exact alarmInv_away rfl
  | driverErr _ _ => exact alarmInv_away rfl
  | newClient _ => exact alarmInv_away rfl
  | noClient hpc =>
    exact alarmInv_retry fun hnil => hreturns (by rw [hnil] at hpc; simp [reconnectReturns, hpc])
  | joined _ _ => exact alarmInv_away rfl
  | @joinFailed cause old delays hpc _ =>
    exact alarmInv_retry (s := s.await old) fun hnil =>
      hreturns (by rw [hnil] at hpc; simp [reconnectReturns, hpc])
  | subscribed _ => exact alarmInv_away rfl
  | notSubscribed hpc =>
    exact alarmInv_retry fun hnil => hreturns (by rw [hnil] at hpc; simp [reconnectReturns, hpc])
  | resubscribed _ => exact fun _ => hreturns rfl
  | joinedLast _ _ => exact alarmInv_away rfl
  | yield _ _ => exact hi.of_same id rfl rfl rfl
  | @driverFail c e _ _ =>
    intro hlisten
    -- the current driver leaves its error in `rx_err`; another one takes nothing away
    by_cases hcur : s.client = c
    · exact .inr (by simp [State.terminate, hcur])
    · rcases hi hlisten with hrun | herr
      · exact .inl ((Function.update_of_ne hcur _ _).trans hrun)
      · refine .inr ?_
        show s.client ∈ (s.rxErr ++ [(c, e)]).map Prod.fst
        rw [List.map_append]
        exact List.mem_append_left _ herr
  | @driverExit c _ _ =>
    intro hlisten
    have hlisten' : s.pc.listening = true := hlisten
    have hcur : s.client ≠ c := by
      intro heq
      simp [endsSilently, hlisten', heq] at hsilent
    rcases hi hlisten' with hrun | herr
    · exact .inl ((Function.update_of_ne hcur _ _).trans hrun)
    · exact .inr herr
  | sendCmd => exact hi.of_same id rfl rfl rfl
  | dropBatchReceiver => exact hi.of_same id rfl rfl rfl

/-! ## A stuck monitor stays stuck -/

/-- The driver of every replaced client has terminated, but for the one that is being awaited. -/
def OldDriversDead (s : State) : Prop :=
  ∀ c < s.next, c ≠ s.client →
    s.drivers c = .terminated ∨ ∃ cause delays, s.pc = .joinOld cause c delays

theorem oldDriversDead_init : OldDriversDead (subscribedState env) := by
  intro c hc hne
  exact absurd (Nat.lt_one_iff.mp hc) hne

/-- A step that creates no client and awaits no driver. -/
theorem OldDriversDead.of_same {s t : State} (hi : OldDriversDead s) (hnext : t.next = s.next)
    (hclient : t.client = s.client)
    (hdrivers : ∀ c, s.drivers c = .terminated → t.drivers c = .terminated)
    (hpc : ∀ cause c delays, s.pc = .joinOld cause c delays → t.pc = s.pc) : OldDriversDead t := by
  intro c hc hne
  rw [hnext] at hc
  rw [hclient] at hne
  rcases hi c hc hne with hdead | ⟨cause, delays, hjoin⟩
  · exact .inl (hdrivers c hdead)
  · exact .inr ⟨cause, delays, (hpc cause c delays hjoin).trans hjoin⟩

/-- The awaited driver has terminated, so all the old ones have. -/
theorem OldDriversDead.joined {s t : State} (hi : OldDriversDead s) {cause : Cause} {old : ConnId}
    {delays : List Nat} (hpc : s.pc = .joinOld cause old delays)
    (hold : s.drivers old = .terminated) (hnext : t.next = s.next) (hclient : t.client = s.client)
    (hdrivers : t.drivers = s.drivers) : OldDriversDead t := by
  intro c hc hne
  rw [hnext] at hc
  rw [hclient] at hne
  rw [hdrivers]
  rcases hi c hc hne with hdead | ⟨cause', delays', hjoin⟩
  · exact .inl hdead
  · rw [hpc] at hjoin
    obtain ⟨-, rfl, -⟩ := Pc.joinOld.inj hjoin
    exact .inl hold

theorem terminate_keeps {s : State} {c c' : ConnId} (h : s.drivers c' = .terminated) :
    (s.terminate c).drivers c' = .terminated := by
  by_cases hc : c' = c
  · simp [State.terminate, hc]
  · exact (Function.update_of_ne hc _ _).trans h

theorem oldDriversDead_step {s t : State} {l : Label} (hconn : ConnInv env s)
    (hi : OldDriversDead s) (h : Step env s l t) : OldDriversDead t := by
  cases h with
  | enter hpc => exact hi.of_same rfl rfl (fun _ => id) fun _ _ _ hj => nomatch hpc.symm.trans hj
  | idle hpc _ => exact hi.of_same rfl rfl (fun _ => id) fun _ _ _ hj => nomatch hpc.symm.trans hj
  | abort hpc _ => exact hi.of_same rfl rfl (fun _ => id) fun _ _ _ hj => nomatch hpc.symm.trans hj
  | pull hpc _ _ _ _ =>
    exact hi.of_same rfl rfl (fun _ => id) fun _ _ _ hj => nomatch hpc.symm.trans hj
  | streamEnd hpc _ _ _ =>
    exact hi.of_same rfl rfl (fun _ => id) fun _ _ _ hj => nomatch hpc.symm.trans hj
  | batch hpc _ =>
    unfold State.processBatch
    split
    · exact hi.of_same rfl rfl (fun _ => id) fun _ _ _ hj => nomatch hpc.symm.trans hj
    · exact hi.of_same (by simp) (by simp) (fun _ => by simp)
        fun _ _ _ hj => nomatch hpc.symm.trans hj
  | streamError hpc _ =>
    unfold State.streamError
    split
    · exact hi.of_same (send_next ..) (send_client ..) (fun c => by simp [State.reconnect])
        fun _ _ _ hj => nomatch hpc.symm.trans hj
    · exact hi.of_same rfl rfl (fun _ => id) fun _ _ _ hj => nomatch hpc.symm.trans hj
  | driverErr hpc _ =>
    exact hi.of_same rfl rfl (fun _ => id) fun _ _ _ hj => nomatch hpc.symm.trans hj
  | @newClient cause delays hpc =>
    intro c hc hne
    have hlt : c < s.next := Nat.lt_of_le_of_ne (Nat.lt_succ_iff.mp hc) hne
    -- the client that was current is the one whose driver is awaited now
    by_cases hcur : c = s.client
    · exact .inr ⟨cause, delays, by rw [hcur, ← hconn.driver]; rfl⟩
    · rcases hi c hlt hcur with hdead | ⟨cause', delays', hjoin⟩
      · exact .inl ((Function.update_of_ne hne _ _).trans hdead)
      · nomatch hpc.symm.trans hjoin
  | @noClient cause delays hpc =>
    cases delays <;>
      exact hi.of_same rfl rfl (fun _ => id) fun _ _ _ hj => nomatch hpc.symm.trans hj
  | joined hpc hold => exact hi.joined hpc hold rfl rfl rfl
  | @joinFailed cause old delays hpc hold =>
    cases delays <;> exact hi.joined hpc hold rfl rfl rfl
  | subscribed hpc =>
    exact hi.of_same rfl rfl (fun _ => id) fun _ _ _ hj => nomatch hpc.symm.trans hj
  | @notSubscribed cause done q todo delays hpc =>
    cases delays <;>
      exact hi.of_same rfl rfl (fun _ => id) fun _ _ _ hj => nomatch hpc.symm.trans hj
  | resubscribed hpc =>
    exact hi.of_same rfl rfl (fun _ => id) fun _ _ _ hj => nomatch hpc.symm.trans hj
  | joinedLast hpc _ =>
    exact hi.of_same rfl rfl (fun _ => id) fun _ _ _ hj => nomatch hpc.symm.trans hj
  | yield _ _ => exact hi.of_same rfl rfl (fun _ => id) fun _ _ _ _ => rfl
  | driverFail _ _ => exact hi.of_same rfl rfl (fun _ => terminate_keeps) fun _ _ _ _ => rfl
  | driverExit _ _ => exact hi.of_same rfl rfl (fun _ => terminate_keeps) fun _ _ _ _ => rfl
  | sendCmd => exact hi.of_same rfl rfl (fun _ => id) fun _ _ _ _ => rfl
  | dropBatchReceiver => exact hi.of_same rfl rfl (fun _ => id) fun _ _ _ _ => rfl

theorem oldDriversDead_reachable {s : State} (h : (machine env).Reachable s) : OldDriversDead s :=
  reachableIf_invariant (C := fun _ _ => True) (fun _ => connInv_reachable) oldDriversDead_init
    (fun _ _ _ hj hi _ => oldDriversDead_step hj hi) h

/-- No driver is running in a stuck state. -/
theorem Stuck.drivers_dead {s : State} (h : (machine env).Reachable s) (hs : Stuck s) :
    ∀ c < s.next, s.drivers c = .terminated := by
  obtain ⟨l, hpc, -, -, hdead, -⟩ := hs
  intro c hc
  by_cases hcur : c = s.client
  · rw [hcur]
    exact hdead
  · rcases oldDriversDead_reachable h c hc hcur with hold | ⟨cause, delays, hjoin⟩
    · exact hold
    · nomatch hpc.symm.trans hjoin

/-- Whatever happens to a stuck monitor, it stays stuck: no stream item, no driver error and no
    command reaches it. -/
theorem stuck_step {s t : State} {l : Label} (h : (machine env).Reachable s) (hs : Stuck s)
    (ht : step env s l = some t) : Stuck t := by
  have hdrivers := hs.drivers_dead h
  have hrunning : ∀ c, c < s.next → s.drivers c ≠ .running := by
    intro c hc hrun
    nomatch (hdrivers c hc).symm.trans hrun
  obtain ⟨l', hpc, hended, hout, hdead, hnone⟩ := hs
  cases step_cases ht with
  | enter hpc' => nomatch hpc.symm.trans hpc'
  | idle hpc' _ => nomatch hpc.symm.trans hpc'
  | abort hpc' _ => nomatch hpc.symm.trans hpc'
  | pull hpc' _ _ _ hgoing =>
    obtain rfl := Pc.select.inj (hpc.symm.trans hpc')
    nomatch hended.symm.trans hgoing
  | streamEnd hpc' _ hgoing _ =>
    obtain rfl := Pc.select.inj (hpc.symm.trans hpc')
    nomatch hended.symm.trans hgoing
  | batch hpc' hout' =>
    obtain rfl := Pc.select.inj (hpc.symm.trans hpc')
    nomatch hout.symm.trans hout'
  | streamError hpc' hout' =>
    obtain rfl := Pc.select.inj (hpc.symm.trans hpc')
    nomatch hout.symm.trans hout'
  | driverErr _ herr => nomatch hnone.symm.trans herr
  | newClient hpc' => nomatch hpc.symm.trans hpc'
  | noClient hpc' => nomatch hpc.symm.trans hpc'
  | joined hpc' _ => nomatch hpc.symm.trans hpc'
  | joinFailed hpc' _ => nomatch hpc.symm.trans hpc'
  | subscribed hpc' => nomatch hpc.symm.trans hpc'
  | notSubscribed hpc' => nomatch hpc.symm.trans hpc'
  | resubscribed hpc' => nomatch hpc.symm.trans hpc'
  | joinedLast hpc' _ => nomatch hpc.symm.trans hpc'
  | yield hc hrun => exact absurd hrun (hrunning _ hc)
  | driverFail hc hrun => exact absurd hrun (hrunning _ hc)
  | driverExit hc hrun => exact absurd hrun (hrunning _ hc)
  | sendCmd => exact ⟨l', hpc, hended, hout, hdead, hnone⟩
  | dropBatchReceiver => exact ⟨l', hpc, hended, hout, hdead, hnone⟩

/-! ## Headline -/

/-- **Headline.**  In every run in which the current driver never ends silently under `run_loop` and
    `reconnect` returns only while an error of the current driver is still due, the monitor never
    gets stuck. -/
theorem not_stuck_if_reported {s : State} (h : (machine env).ReachableIf Reported s) :
    ¬ Stuck s := by
  have hi : AlarmInv s :=
    reachableIf_invariant (J := fun _ => True) (fun _ _ => trivial) alarmInv_init
      (fun _ _ _ _ hi hc hstep => alarmInv_step hi hc hstep) h
  rintro ⟨l, hpc, -, -, hdead, hnone⟩
  rcases hi (by rw [hpc]; rfl) with hrun | herr
  · nomatch hrun.symm.trans hdead
  · rw [hnone] at herr
    exact absurd herr List.not_mem_nil

/-- The driver fails, the second try gives a new connection, and then its stream ends. -/
def recoveredRun : List Label :=
  [.enter, .checkCmd, .driverFail 0 ⟨.other 1, none⟩, .driverErr, .newClient false,
    .newClient true, .joined true, .subscribed true, .subscribed true, .resubscribed, .enter,
    .checkCmd, .streamEnd]

/-- The driver fails and no try gives a new client, so `run_loop` starts on the empty stream. -/
def gaveUpRun : List Label :=
  [.enter, .checkCmd, .driverFail 0 ⟨.other 1, none⟩, .driverErr] ++
  List.replicate 19 (.newClient false) ++ [.enter, .checkCmd, .streamEnd]

theorem not_stuck_recovered :
    ∃ s, (machine demoEnv).execIf Reported (subscribedState demoEnv) recoveredRun = some s ∧
      ¬ Stuck s := by
  obtain ⟨s, hs⟩ : ∃ s, (machine demoEnv).execIf Reported (subscribedState demoEnv) recoveredRun
      = some s := ⟨_, rfl⟩
  exact ⟨s, hs, not_stuck_if_reported (Machine.execIf_reachableIf (.init rfl) hs)⟩

/-- After giving up the monitor is stuck. -/
theorem gave_up_stuck :
    ¬ ∀ (env : Env) (s : State), (machine env).Reachable s → ¬ Stuck s := by
  intro h
  obtain ⟨s, hs, hstuck⟩ :
      ∃ s, (machine demoEnv).exec (subscribedState demoEnv) gaveUpRun = some s ∧ Stuck s :=
    ⟨_, rfl, _, rfl, rfl, rfl, rfl, rfl⟩
  exact h demoEnv s (Machine.exec_reachable (.init rfl) hs) hstuck

end OffChainWorker.Monitor
