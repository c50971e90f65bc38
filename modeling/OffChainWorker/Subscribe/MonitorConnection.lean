/-
  Clients, drivers and subscriptions over a run of the event monitor.

  `try_reconnect` can fail before it has a new client, and again when the join of the old driver
  fails although the clients are already swapped; `subscribe` can fail after some of the queries.
  The invariant `ConnInv` survives every mix of these.  Since a client is swapped in right after it
  is created, the clients are closed in the order of their creation and so are their drivers
  awaited: both records are an initial segment `0, 1, 2, …` of the connections, and the control
  point says how long it is.
-/
import OffChainWorker.Subscribe.Monitor

namespace OffChainWorker.Monitor

open Proc

variable {env : Env}

/-- Two queries, and the delays of the default strategy in seconds: Fibonacci numbers up to a minute
    each and ten minutes together. -/
def demoEnv : Env where
  parsers := ⟨fun _ => none, fun _ => .ok 1, true⟩
  sort := .mergeSort Event
  chainId := "fxdex"
  eventQueries := ["Tx", "NewBlock"]
  strategy := [1, 1, 2, 3, 5, 8, 13, 21, 34, 55, 60, 60, 60, 60, 60, 60, 60, 37]

/-- The driver fails; no client, then a failed join, then a failed subscription, then success. -/
def demoReconnect : List Label :=
  [.enter, .checkCmd, .driverFail 0 ⟨.other 1, none⟩, .driverErr, .newClient false,
    .newClient true, .joined false,
    .newClient true, .driverExit 1, .joined true, .subscribed true, .subscribed false,
    .newClient true, .driverExit 2, .joined true, .subscribed true, .subscribed true,
    .resubscribed]

/-! ## What the control point says about the current connection -/

/-- How many clients have been closed when `client` is the current one. -/
def Pc.closedUpTo (pc : Pc) (client : ConnId) : Nat :=
  match pc with
  | .joinLast => client + 1
  | .returned => client + 1
  | _ => client

/-- How many drivers have been awaited when `client` is the current one. -/
def Pc.awaitedUpTo (pc : Pc) (client : ConnId) : Nat :=
  match pc with
  | .joinOld _ old _ => old
  | .returned => client + 1
  | _ => client

/-- Between two steps of `run` and `reconnect`: neither inside `try_reconnect` nor past the end of
    the loop of `run`. -/
def Pc.paused : Pc → Bool
  | .runLoop => true
  | .command _ => true
  | .select _ => true
  | .tryReconnect _ _ => true
  | .resubscribe _ _ _ _ => true
  | _ => false

theorem Pc.closedUpTo_paused {pc : Pc} (h : pc.paused = true) (client : ConnId) :
    pc.closedUpTo client = client := by
  cases pc <;> first | rfl | nomatch h

theorem Pc.awaitedUpTo_paused {pc : Pc} (h : pc.paused = true) (client : ConnId) :
    pc.awaitedUpTo client = client := by
  cases pc <;> first | rfl | nomatch h

/-- One subscription for each query, all on client `c`. -/
def merged (env : Env) (c : ConnId) : List Subscription := env.eventQueries.map fun q => ⟨c, q⟩

/-- What a control point inside `reconnect` adds to the invariant. -/
def Pc.Consistent (env : Env) (client : ConnId) (subscriptions : List Subscription) : Pc → Prop
  | .command l => (l.subscriptions = [] ∨ l.subscriptions = merged env client) ∧ subscriptions = []
  | .select l => (l.subscriptions = [] ∨ l.subscriptions = merged env client) ∧ subscriptions = []
  | .tryReconnect _ _ => subscriptions = []
  | .joinOld _ old _ => client = old + 1 ∧ subscriptions = []
  | .resubscribe _ done todo _ =>
    (∃ qs, env.eventQueries = qs ++ todo ∧ done = qs.map fun q => ⟨client, q⟩) ∧
      subscriptions = []
  | _ => True

/-! ## The invariant -/

/-- The connection invariant. -/
structure ConnInv (env : Env) (s : State) : Prop where
  next : s.next = s.client + 1
  driver : s.driverHandle = s.client
  subscriptions : s.subscriptions = [] ∨ s.subscriptions = merged env s.client
  closed : s.history.closed = List.range (s.pc.closedUpTo s.client)
  awaited : s.history.awaited = List.range (s.pc.awaitedUpTo s.client)
  consistent : s.pc.Consistent env s.client s.subscriptions

theorem connInv_init : ConnInv env (subscribedState env) where
  next := rfl
  driver := rfl
  subscriptions := .inr rfl
  closed := rfl
  awaited := rfl
  consistent := trivial

/-- A step that neither creates, closes nor awaits a client. -/
theorem ConnInv.of_same {s t : State} (hi : ConnInv env s) (hclient : t.client = s.client)
    (hdriver : t.driverHandle = s.driverHandle) (hnext : t.next = s.next)
    (hclosed : t.history.closed = s.history.closed)
    (hawaited : t.history.awaited = s.history.awaited)
    (hsubs : t.subscriptions = s.subscriptions ∨ t.subscriptions = [])
    (hclosing : t.pc.closedUpTo s.client = s.pc.closedUpTo s.client)
    (hawaiting : t.pc.awaitedUpTo s.client = s.pc.awaitedUpTo s.client)
    (hpc : t.pc.Consistent env s.client t.subscriptions) : ConnInv env t where
  next := by rw [hclient, hnext]; exact hi.next
  driver := by rw [hdriver, hclient]; exact hi.driver
  subscriptions := by
    rcases hsubs with h | h
    · rw [h, hclient]; exact hi.subscriptions
    · exact .inl h
  closed := by rw [hclosed, hclient, hclosing]; exact hi.closed
  awaited := by rw [hawaited, hclient, hawaiting]; exact hi.awaited
  consistent := by rw [hclient]; exact hpc

/-- The next try, or giving up. -/
theorem connInv_retry {s : State} {cause : Cause} {delays : List Nat} {p : Pc}
    (hi : ConnInv env { s with pc := p }) (hsubs : s.subscriptions = [])
    (hclosing : p.closedUpTo s.client = s.client)
    (hawaiting : p.awaitedUpTo s.client = s.client) :
    ConnInv env (s.retry cause delays) := by
  cases delays with
  | nil =>
    exact hi.of_same rfl rfl rfl rfl rfl (.inl rfl) hclosing.symm hawaiting.symm trivial
  | cons d rest =>
    exact hi.of_same rfl rfl rfl rfl rfl (.inl rfl) hclosing.symm hawaiting.symm hsubs

theorem connInv_swapClient {s : State} (hi : ConnInv env s) {cause : Cause} {delays : List Nat}
    (hpc : s.pc = .tryReconnect cause delays) : ConnInv env (s.swapClient cause delays) := by
  have hsubs : s.subscriptions = [] := by simpa [hpc, Pc.Consistent] using hi.consistent
  refine ⟨rfl, rfl, .inl hsubs, ?_, ?_, ?_, hsubs⟩
  · show s.history.closed ++ [s.client] = List.range s.next
    rw [hi.closed, hpc, hi.next, List.range_succ]
    rfl
  · show s.history.awaited = List.range s.driverHandle
    rw [hi.awaited, hpc, hi.driver]
    rfl
  · show s.next = s.driverHandle + 1
    rw [hi.next, hi.driver]

/-- The replaced driver has been awaited. -/
theorem connInv_await {s : State} (hi : ConnInv env s) {cause : Cause} {old : ConnId}
    {delays : List Nat} (hpc : s.pc = .joinOld cause old delays) :
    ConnInv env
      { s.await old with pc := .resubscribe cause [] env.eventQueries delays } := by
  have hpause : s.client = old + 1 ∧ s.subscriptions = [] := by
    simpa [hpc, Pc.Consistent] using hi.consistent
  refine ⟨hi.next, hi.driver, .inl hpause.2, ?_, ?_, ⟨[], rfl, rfl⟩, hpause.2⟩
  · show s.history.closed = List.range s.client
    rw [hi.closed, hpc]
    rfl
  · show s.history.awaited ++ [old] = List.range s.client
    rw [hi.awaited, hpc, hpause.1, List.range_succ]
    rfl

/-- `reconnect` is entered with the subscriptions still taken over by `run_loop`. -/
theorem connInv_reconnect {s : State} (hi : ConnInv env s) {l l' : Loop} (hpc : s.pc = .select l)
    {u : State} (hclient : u.client = s.client) (hdriver : u.driverHandle = s.driverHandle)
    (hnext : u.next = s.next) (hsubs : u.subscriptions = s.subscriptions)
    (hhistory : u.history = s.history) (cause : Cause) :
    ConnInv env (u.reconnect env l' cause) := by
  have hempty : s.subscriptions = [] := by
    have := hi.consistent
    rw [hpc] at this
    exact this.2
  have hclosed : u.history.closed = s.history.closed := by rw [hhistory]
  have hawaited : u.history.awaited = s.history.awaited := by rw [hhistory]
  exact hi.of_same hclient hdriver hnext hclosed hawaited (.inl hsubs) (by rw [hpc]; rfl)
    (by rw [hpc]; rfl) (hsubs.trans hempty)

/-- **Step lemma.** -/
theorem connInv_step {s t : State} {l : Label} (hi : ConnInv env s) (h : Step env s l t) :
    ConnInv env t := by
  have hcons := hi.consistent
  cases h with
  | enter hpc =>
    exact hi.of_same rfl rfl rfl rfl rfl (.inr rfl) (by rw [hpc]; rfl) (by rw [hpc]; rfl)
      ⟨hi.subscriptions, rfl⟩
  | idle hpc _ =>
    rw [hpc] at hcons
    exact hi.of_same rfl rfl rfl rfl rfl (.inl rfl) (by rw [hpc]; rfl) (by rw [hpc]; rfl) hcons
  | abort hpc _ =>
    -- `run` closes the current client, so now all of them are closed
    refine ⟨hi.next, hi.driver, hi.subscriptions, ?_, ?_, trivial⟩
    · show s.history.closed ++ [s.client] = List.range (s.client + 1)
      rw [hi.closed, hpc, List.range_succ]
      rfl
    · show s.history.awaited = List.range s.client
      rw [hi.awaited, hpc]
      rfl
  | @pull l c item rest hpc _ _ _ _ =>
    rw [hpc] at hcons
    cases hfeed : l.batches.feed env.parsers env.chainId item with
    | none =>
      have hpanic := pull_pc_none (s := s) c rest hfeed
      exact hi.of_same rfl rfl rfl rfl rfl (.inl rfl) (by rw [hpanic, hpc]; rfl)
        (by rw [hpanic, hpc]; rfl) (by rw [hpanic]; trivial)
    | some b =>
      have hselect := pull_pc_some (s := s) c rest hfeed
      exact hi.of_same rfl rfl rfl rfl rfl (.inl rfl) (by rw [hselect, hpc]; rfl)
        (by rw [hselect, hpc]; rfl) (by rw [hselect]; exact hcons)
  | streamEnd hpc _ _ _ =>
    rw [hpc] at hcons
    exact hi.of_same rfl rfl rfl rfl rfl (.inl rfl) (by rw [hpc]; rfl) (by rw [hpc]; rfl) hcons
  | @batch l g rest hpc _ =>
    rw [hpc] at hcons
    unfold State.processBatch
    split
    · exact hi.of_same rfl rfl rfl rfl rfl (.inl rfl) (by rw [hpc]; rfl) (by rw [hpc]; rfl) trivial
    · exact hi.of_same (by simp) (by simp) (by simp) (by simp) (by simp) (.inl (by simp))
        (by rw [hpc]; rfl) (by rw [hpc]; rfl) (by simpa [Pc.Consistent] using hcons)
  | streamError hpc _ =>
    unfold State.streamError
    split
    · exact connInv_reconnect hi hpc (by simp) (by simp) (by simp) (by simp) (by simp) _
    · exact connInv_reconnect hi hpc rfl rfl rfl rfl rfl _
  | @driverErr l c e rest hpc _ =>
    exact connInv_reconnect (u := { s with rxErr := rest }) hi hpc rfl rfl rfl rfl rfl _
  | newClient hpc => exact connInv_swapClient hi hpc
  | noClient hpc =>
    rw [hpc] at hcons
    exact connInv_retry (p := s.pc) hi hcons (by rw [hpc]; rfl) (by rw [hpc]; rfl)
  | joined hpc _ => exact connInv_await hi hpc
  | joinFailed hpc _ =>
    have hawait := connInv_await hi hpc
    exact connInv_retry hawait hawait.consistent.2 rfl rfl
  | @subscribed cause done q todo delays hpc =>
    rw [hpc] at hcons
    obtain ⟨⟨qs, hqs, hdone⟩, hsubs⟩ := hcons
    refine hi.of_same rfl rfl rfl rfl rfl (.inl rfl) (by rw [hpc]; rfl) (by rw [hpc]; rfl)
      ⟨⟨qs ++ [q], ?_, ?_⟩, hsubs⟩
    · rw [hqs]; simp
    · rw [hdone]; simp
  | notSubscribed hpc =>
    rw [hpc] at hcons
    exact connInv_retry (p := s.pc) hi hcons.2 (by rw [hpc]; rfl) (by rw [hpc]; rfl)
  | @resubscribed cause done delays hpc =>
    rw [hpc] at hcons
    obtain ⟨⟨qs, hqs, hdone⟩, -⟩ := hcons
    -- nothing is left to subscribe to, so `qs` is all the queries
    rw [List.append_nil] at hqs
    refine ⟨hi.next, hi.driver, .inr ?_, ?_, ?_, trivial⟩
    · show done = merged env s.client
      rw [hdone, ← hqs]
      rfl
    · show s.history.closed = List.range s.client
      rw [hi.closed, hpc]
      rfl
    · show s.history.awaited = List.range s.client
      rw [hi.awaited, hpc]
      rfl
  | joinedLast hpc _ =>
    refine ⟨hi.next, hi.driver, hi.subscriptions, ?_, ?_, trivial⟩
    · show s.history.closed = List.range (s.client + 1)
      rw [hi.closed, hpc]
      rfl
    · show s.history.awaited ++ [s.driverHandle] = List.range (s.client + 1)
      rw [hi.awaited, hpc, hi.driver, List.range_succ]
      rfl
  | yield _ _ => exact hi.of_same rfl rfl rfl rfl rfl (.inl rfl) rfl rfl hcons
  | driverFail _ _ => exact hi.of_same rfl rfl rfl rfl rfl (.inl rfl) rfl rfl hcons
  | driverExit _ _ => exact hi.of_same rfl rfl rfl rfl rfl (.inl rfl) rfl rfl hcons
  | sendCmd => exact hi.of_same rfl rfl rfl rfl rfl (.inl rfl) rfl rfl hcons
  | dropBatchReceiver => exact hi.of_same rfl rfl rfl rfl rfl (.inl rfl) rfl rfl hcons

/-- The run lemma: the connection invariant holds in every reachable state. -/
theorem connInv_reachable {s : State} (h : (machine env).Reachable s) : ConnInv env s :=
  reachable_invariant connInv_init (fun _ _ _ => connInv_step) h

/-- A loop reads from the current connection only. -/
theorem ConnInv.current {s : State} (hi : ConnInv env s) {l : Loop} (hpc : s.pc = .select l)
    {c : ConnId} (hc : c ∈ l.conns) : c = s.client := by
  have hcons := hi.consistent
  rw [hpc] at hcons
  rcases hcons.1 with hnone | hmerged
  · rw [Loop.conns, hnone] at hc
    exact absurd hc List.not_mem_nil
  · rw [Loop.conns, hmerged, merged, List.map_map] at hc
    obtain ⟨q, -, rfl⟩ := List.mem_map.mp hc
    rfl

/-! ## Headline -/

/-- **Headline.**  Between two steps of `run` and `reconnect` exactly one created client has not
    been closed, the current one, and every replaced one has been closed exactly once and its driver
    awaited exactly once; the stored subscriptions are empty or one for each query, all on the
    current client, and after a successful reconnect they are the latter; once `run` has returned
    every client has been closed exactly once. -/
theorem connection_invariant {s : State} (h : (machine env).Reachable s) :
    (s.pc.paused = true →
      s.client < s.next ∧ s.driverHandle = s.client ∧
      (∀ c < s.next, s.history.closed.count c = if c = s.client then 0 else 1) ∧
      ∀ c < s.next, s.history.awaited.count c = if c = s.client then 0 else 1) ∧
    (s.subscriptions = [] ∨ s.subscriptions = merged env s.client) ∧
    (∀ t, step env s .resubscribed = some t → t.subscriptions = merged env t.client) ∧
    (s.pc = .returned → ∀ c < s.next, s.history.closed.count c = 1) := by
  have hi := connInv_reachable h
  refine ⟨fun hpause => ?_, hi.subscriptions, fun t ht => ?_, fun hret c hc => ?_⟩
  · have hcount : ∀ c < s.next, (List.range s.client).count c = if c = s.client then 0 else 1 := by
      intro c hc
      rw [hi.next] at hc
      rw [List.count_range]
      rcases Nat.lt_succ_iff_lt_or_eq.mp hc with hlt | heq
      · rw [if_pos hlt, if_neg (Nat.ne_of_lt hlt)]
      · rw [if_neg (Nat.not_lt.mpr (Nat.le_of_eq heq.symm)), if_pos heq]
    refine ⟨by rw [hi.next]; exact Nat.lt_succ_self _, hi.driver, fun c hc => ?_, fun c hc => ?_⟩
    · rw [hi.closed, Pc.closedUpTo_paused hpause]
      exact hcount c hc
    · rw [hi.awaited, Pc.awaitedUpTo_paused hpause]
      exact hcount c hc
  · cases step_cases ht with
    | @resubscribed cause done delays hpc =>
      have hcons := hi.consistent
      rw [hpc] at hcons
      obtain ⟨⟨qs, hqs, hdone⟩, -⟩ := hcons
      rw [List.append_nil] at hqs
      show done = merged env s.client
      rw [hdone, ← hqs]
      rfl
  · rw [hi.closed, hret, List.count_range]
    refine if_pos ?_
    show c < s.client + 1
    rw [← hi.next]
    exact hc

/-- A run through a reconnect with a failed try of each kind: no client, a failed join, and a query
    that cannot be subscribed to; the fourth try succeeds. -/
theorem connection_invariant_reconnect :
    ∃ s, (machine demoEnv).exec (subscribedState demoEnv) demoReconnect = some s ∧
      s.subscriptions = merged demoEnv 3 ∧
      (∀ c < 4, s.history.closed.count c = if c = 3 then 0 else 1) := by
  refine ⟨_, rfl, rfl, ?_⟩
  have hrun : (machine demoEnv).exec (subscribedState demoEnv) demoReconnect = some _ := rfl
  have hreach := Machine.exec_reachable (.init rfl) hrun
  exact ((connection_invariant hreach).1 rfl).2.2.1

end OffChainWorker.Monitor
