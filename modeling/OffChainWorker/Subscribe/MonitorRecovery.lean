/-
  When the event monitor can still get back to a healthy subscription.

  A monitor is `Healthy` while it waits in `select!` on one subscription for each query, all of them
  on a client whose driver runs.  Four things can bring it back when it is not: a try that
  `reconnect` has left, an error that waits in `rx_err`, a driver that still runs, so that it can
  fail, and an error that the batch stream comes to before an item on which the extraction panics
  (`Hopeful`).  Without any of them no step of anybody makes a new one, and `run_loop` waits for
  ever.
-/
import OffChainWorker.Subscribe.MonitorBounds
import OffChainWorker.Subscribe.MonitorTrace

namespace OffChainWorker.Monitor

open Proc

variable {env : Env}

/-! ## What can bring a monitor back -/

/-- `run_loop` waits in `select!` on a subscription for each query, and the driver runs. -/
structure Healthy (env : Env) (s : State) : Prop where
  waiting : ∃ l, s.pc = .select l ∧ l.subscriptions = merged env s.client ∧
    l.batches.ended = false
  driver : s.drivers s.client = .running

/-- `reconnect` has a try left, now or when the step that it is in fails. -/
def Pc.canRetry : Pc → Bool
  | .tryReconnect _ _ => true
  | .joinOld _ _ delays => !delays.isEmpty
  | .resubscribe _ _ todo delays => !todo.isEmpty && !delays.isEmpty
  | _ => false

/-- The loop that runs, or the one that `run` will start when nothing else fails. -/
def State.upcoming (env : Env) (s : State) : Option Loop :=
  match s.pc with
  | .runLoop => some ⟨s.subscriptions, Batches.new, s.txBatch.length, []⟩
  | .command l => some l
  | .select l => some l
  | .joinOld _ _ _ => some ⟨merged env s.client, Batches.new, s.txBatch.length, []⟩
  | .resubscribe _ _ _ _ => some ⟨merged env s.client, Batches.new, s.txBatch.length, []⟩
  | _ => none

/-- An error comes before any item on which the extraction panics. -/
def breaks (env : Env) : List Item → Bool
  | [] => false
  | .error _ :: _ => true
  | .ok event :: rest =>
    (collectEvents env.parsers env.chainId event).isSome && breaks env rest

/-- The batch stream has an error to yield. -/
def hasError (out : List (Except MonitorError (List (Height × Event)))) : Bool :=
  out.any fun x => !x.isOk

/-- The batch stream of the loop has an error to yield, or comes to one in these items. -/
def Loop.breaks (env : Env) (l : Loop) (items : List Item) : Bool :=
  hasError l.batches.out ||
    (!l.batches.ended && !l.subscriptions.isEmpty && Monitor.breaks env items)

/-- What can still bring a monitor back. -/
inductive Hopeful (env : Env) (s : State) : Prop where
  | retry (htry : s.pc.canRetry = true)
  | error (herr : s.rxErr ≠ [])
  | driver {c} (hc : c < s.next) (hrun : s.drivers c = .running)
  | stream {l} (hl : s.upcoming env = some l) (hbreaks : l.breaks env (s.feeds s.client) = true)

/-- None of it. -/
structure Hopeless (env : Env) (s : State) : Prop where
  noTry : s.pc.canRetry = false
  noError : s.rxErr = []
  dead : ∀ c < s.next, s.drivers c ≠ .running
  unbroken : ∀ l, s.upcoming env = some l → l.breaks env (s.feeds s.client) = false

theorem hopeless_of_not {s : State} (h : ¬ Hopeful env s) : Hopeless env s where
  noTry := Bool.eq_false_iff.mpr fun htry => h (.retry htry)
  noError := Decidable.byContradiction fun herr => h (.error herr)
  dead := fun _ hc hrun => h (.driver hc hrun)
  unbroken := fun _ hl => Bool.eq_false_iff.mpr fun hbreaks => h (.stream hl hbreaks)

/-! ## The steps towards the loop -/

/-- What a step on the way to the loop leaves as it is. -/
structure Keeps (env : Env) (s t : State) : Prop where
  upcoming : t.upcoming env = s.upcoming env
  client : t.client = s.client
  feeds : t.feeds = s.feeds
  rxErr : t.rxErr = s.rxErr
  rxCmd : t.rxCmd = s.rxCmd
  driver : t.drivers s.client = s.drivers s.client

theorem Keeps.refl (s : State) : Keeps env s s := ⟨rfl, rfl, rfl, rfl, rfl, rfl⟩

theorem Keeps.trans {s t u : State} (h : Keeps env s t) (h' : Keeps env t u) : Keeps env s u where
  upcoming := h'.upcoming.trans h.upcoming
  client := h'.client.trans h.client
  feeds := h'.feeds.trans h.feeds
  rxErr := h'.rxErr.trans h.rxErr
  rxCmd := h'.rxCmd.trans h.rxCmd
  driver := by
    have hdriver := h'.driver
    rw [h.client] at hdriver
    exact hdriver.trans h.driver

section
variable {s : State} {cause : Cause} {delays : List Nat}

theorem keeps_enter (hpc : s.pc = .runLoop) : Keeps env s s.enterLoop := by
  refine ⟨?_, rfl, rfl, rfl, rfl, rfl⟩
  rw [State.upcoming, State.upcoming, hpc]
  rfl

theorem keeps_idle {l : Loop} (hpc : s.pc = .command l) :
    Keeps env s { s with pc := .select l } := by
  refine ⟨?_, rfl, rfl, rfl, rfl, rfl⟩
  rw [State.upcoming, State.upcoming, hpc]

theorem keeps_joined {old : ConnId} (hpc : s.pc = .joinOld cause old delays) :
    Keeps env s { s.await old with pc := .resubscribe cause [] env.eventQueries delays } := by
  refine ⟨?_, rfl, rfl, rfl, rfl, rfl⟩
  rw [State.upcoming, State.upcoming, hpc]
  rfl

theorem keeps_subscribed {done done' : List Subscription} {todo todo' : List Query}
    (hpc : s.pc = .resubscribe cause done todo delays) :
    Keeps env s { s with pc := .resubscribe cause done' todo' delays } := by
  refine ⟨?_, rfl, rfl, rfl, rfl, rfl⟩
  rw [State.upcoming, State.upcoming, hpc]

/-- All queries are subscribed to, so the subscriptions are the merged ones. -/
theorem keeps_resubscribed (hi : ConnInv env s) {done : List Subscription}
    (hpc : s.pc = .resubscribe cause done [] delays) :
    Keeps env s (s.resubscribed cause done) := by
  have hcons := hi.consistent
  rw [hpc] at hcons
  obtain ⟨⟨qs, hqs, hdone⟩, -⟩ := hcons
  rw [List.append_nil] at hqs
  have hmerged : done = merged env s.client := by
    rw [hdone, ← hqs]
    rfl
  refine ⟨?_, rfl, rfl, rfl, rfl, rfl⟩
  rw [State.upcoming, State.upcoming, hpc, hmerged]
  rfl

/-- A driver that is not the current one ends. -/
theorem keeps_terminate {c : ConnId} (hc : s.client ≠ c) : Keeps env s (s.terminate c) :=
  ⟨rfl, rfl, rfl, rfl, rfl, Function.update_of_ne hc _ _⟩

end

/-! ## A hopeless monitor stays hopeless -/

/-- A step on the way to the loop. -/
theorem Hopeless.keeps {s t : State} (hi : Hopeless env s) (h : Keeps env s t)
    (htry : t.pc.canRetry = false) (hnext : t.next = s.next) (hdrivers : t.drivers = s.drivers) :
    Hopeless env t where
  noTry := htry
  noError := h.rxErr.trans hi.noError
  dead := by
    rw [hnext, hdrivers]
    exact hi.dead
  unbroken := by
    rw [h.upcoming, h.client, h.feeds]
    exact hi.unbroken

/-- A step that leaves the loop for good. -/
theorem Hopeless.leave {s t : State} (hi : Hopeless env s) (hpc : t.upcoming env = none)
    (htry : t.pc.canRetry = false) (herr : t.rxErr = s.rxErr) (hnext : t.next = s.next)
    (hdrivers : t.drivers = s.drivers) : Hopeless env t where
  noTry := htry
  noError := herr.trans hi.noError
  dead := by
    rw [hnext, hdrivers]
    exact hi.dead
  unbroken := fun l hl => nomatch hpc.symm.trans hl

/-- A step inside the loop that takes from the batch stream. -/
theorem Hopeless.inside {s t : State} (hi : Hopeless env s) {l : Loop}
    (hpc : t.upcoming env = some l) (hbreaks : l.breaks env (t.feeds t.client) = false)
    (htry : t.pc.canRetry = false) (herr : t.rxErr = s.rxErr) (hnext : t.next = s.next)
    (hdrivers : t.drivers = s.drivers) : Hopeless env t where
  noTry := htry
  noError := herr.trans hi.noError
  dead := by
    rw [hnext, hdrivers]
    exact hi.dead
  unbroken := fun l' hl' => by
    obtain rfl := Option.some.inj (hpc.symm.trans hl')
    exact hbreaks

/-- `reconnect` gives up, and the loop starts without a subscription. -/
theorem Hopeless.giveUp {s t : State} (hi : Hopeless env s) (hpc : t.pc = .runLoop)
    (hsubs : t.subscriptions = []) (herr : t.rxErr = s.rxErr) (hnext : t.next = s.next)
    (hdrivers : t.drivers = s.drivers) : Hopeless env t := by
  refine hi.inside (by rw [State.upcoming, hpc]) ?_ (by rw [hpc]; rfl) herr hnext hdrivers
  rw [Loop.breaks, hsubs]
  rfl

theorem breaks_feed {b b' : Batches} {item : Item} {rest : List Item} (hout : b.out = [])
    (h : b.feed env.parsers env.chainId item = some b')
    (hbreaks : breaks env (item :: rest) = false) :
    hasError b'.out = false ∧ b'.ended = b.ended ∧ breaks env rest = false := by
  obtain ⟨items, hitems, rfl⟩ := Option.map_eq_some_iff.mp h
  cases item with
  | error e => exact absurd hbreaks.symm Bool.false_ne_true
  | ok event =>
    obtain ⟨vals, hvals, rfl⟩ := Option.map_eq_some_iff.mp hitems
    obtain ⟨gs, hgs⟩ := Batches.tryGroupSteps_ok b.state vals
    rw [breaks, hvals] at hbreaks
    refine ⟨?_, rfl, hbreaks⟩
    show hasError (b.out ++ _) = false
    rw [hout, hgs]
    simp [hasError, Except.isOk, Except.toBool]

/-- What is pulled from a stream that comes to no error is no error. -/
theorem Loop.breaks_pull {l : Loop} {b : Batches} {item : Item} {rest : List Item}
    {pulled : List (Height × Event)} (hout : l.batches.out = [])
    (hended : l.batches.ended = false) (hsubs : l.subscriptions ≠ [])
    (hfeed : l.batches.feed env.parsers env.chainId item = some b)
    (hbreaks : l.breaks env (item :: rest) = false) :
    Loop.breaks env { l with batches := b, pulled := pulled } rest = false := by
  have hcoming : Monitor.breaks env (item :: rest) = false := by
    simpa [Loop.breaks, hout, hended, hsubs, hasError] using hbreaks
  obtain ⟨herror, -, hrest⟩ := breaks_feed hout hfeed hcoming
  simp [Loop.breaks, herror, hrest]

theorem Loop.breaks_tail {l : Loop} {x : Except MonitorError (List (Height × Event))}
    {rest : List (Except MonitorError (List (Height × Event)))} {items : List Item}
    (hout : l.batches.out = x :: rest) (hbreaks : l.breaks env items = false) :
    x.isOk = true ∧
      Loop.breaks env { l with batches := { l.batches with out := rest } } items = false := by
  rw [Loop.breaks, hout, hasError, List.any_cons, Bool.or_assoc, Bool.or_eq_false_iff] at hbreaks
  exact ⟨by simpa using hbreaks.1, hbreaks.2⟩

theorem Loop.breaks_finish {l : Loop} {items : List Item} (hout : l.batches.out = []) :
    Loop.breaks env { l with batches := l.batches.finish } items = false := by
  have hgroups : hasError l.batches.finish.out = false := by
    rw [Batches.finish, hout, List.nil_append]
    cases l.batches.state with
    | none => rfl
    | some st => rfl
  rw [Loop.breaks, hgroups]
  rfl

/-- **Step lemma.**  Whatever anybody does, nothing that could bring the monitor back comes up. -/
theorem hopeless_step {s t : State} {l : Label} (hconn : ConnInv env s) (hi : Hopeless env s)
    (h : Step env s l t) : t.pc = .panicked ∨ Hopeless env t := by
  have htry := hi.noTry
  have hcons := hconn.consistent
  cases h with
  | enter hpc => exact .inr (hi.keeps (keeps_enter hpc) rfl rfl rfl)
  | idle hpc _ => exact .inr (hi.keeps (keeps_idle hpc) rfl rfl rfl)
  | abort _ _ => exact .inr (hi.leave rfl rfl rfl rfl rfl)
  | @pull l c item rest hpc hfeed hc hout hended =>
    have hbreaks := hi.unbroken l (by rw [State.upcoming, hpc])
    obtain rfl := hconn.current hpc hc
    have hsubs : l.subscriptions ≠ [] := by
      intro hnil
      rw [Loop.conns, hnil] at hc
      exact absurd hc List.not_mem_nil
    rw [hfeed] at hbreaks
    cases hnext : l.batches.feed env.parsers env.chainId item with
    | none => exact .inl (pull_pc_none _ rest hnext)
    | some b =>
      have hselect := pull_pc_some (s := s) s.client rest hnext
      refine .inr (hi.inside (by rw [State.upcoming, hselect]) ?_ (by rw [hselect]; rfl) rfl rfl
        rfl)
      show Loop.breaks env _ (Function.update s.feeds s.client rest s.client) = false
      rw [Function.update_self]
      exact Loop.breaks_pull hout hended hsubs hnext hbreaks
  | @streamEnd l hpc hout _ _ =>
    exact .inr (hi.inside rfl (Loop.breaks_finish hout) rfl rfl rfl rfl)
  | @batch l g rest hpc hout =>
    have hbreaks := hi.unbroken l (by rw [State.upcoming, hpc])
    unfold State.processBatch
    split
    · exact .inl rfl
    · refine .inr (hi.inside rfl ?_ rfl (send_rxErr ..) (send_next ..) (send_drivers ..))
      rw [send_feeds, send_client]
      exact (Loop.breaks_tail hout hbreaks).2
  | @streamError l e rest hpc hout =>
    have hbreaks := hi.unbroken l (by rw [State.upcoming, hpc])
    exact absurd (Loop.breaks_tail hout hbreaks).1 Bool.false_ne_true
  | driverErr _ herr => exact absurd (herr.symm.trans hi.noError) (List.cons_ne_nil _ _)
  | newClient hpc =>
    rw [hpc] at htry
    exact absurd htry.symm Bool.false_ne_true
  | noClient hpc =>
    rw [hpc] at htry
    exact absurd htry.symm Bool.false_ne_true
  | @joined cause old delays hpc _ =>
    refine .inr (hi.keeps (keeps_joined hpc) ?_ rfl rfl)
    rw [hpc] at htry
    show (!env.eventQueries.isEmpty && !delays.isEmpty) = false
    rw [show (!delays.isEmpty) = false from htry, Bool.and_false]
  | @joinFailed cause old delays hpc _ =>
    rw [hpc] at htry hcons
    cases delays with
    | nil => exact .inr (hi.giveUp rfl hcons.2 rfl rfl rfl)
    | cons d delays => exact absurd htry.symm Bool.false_ne_true
  | @subscribed cause done q todo delays hpc =>
    refine .inr (hi.keeps (keeps_subscribed hpc) ?_ rfl rfl)
    rw [hpc] at htry
    show (!todo.isEmpty && !delays.isEmpty) = false
    rw [show (!delays.isEmpty) = false from htry, Bool.and_false]
  | @notSubscribed cause done q todo delays hpc =>
    rw [hpc] at htry hcons
    cases delays with
    | nil => exact .inr (hi.giveUp rfl hcons.2 rfl rfl rfl)
    | cons d delays => exact absurd htry.symm Bool.false_ne_true
  | resubscribed hpc => exact .inr (hi.keeps (keeps_resubscribed hconn hpc) rfl rfl rfl)
  | joinedLast _ _ => exact .inr (hi.leave rfl rfl rfl rfl rfl)
  | yield hc hrun => exact absurd hrun (hi.dead _ hc)
  | driverFail hc hrun => exact absurd hrun (hi.dead _ hc)
  | driverExit hc hrun => exact absurd hrun (hi.dead _ hc)
  | sendCmd => exact .inr ⟨hi.noTry, hi.noError, hi.dead, hi.unbroken⟩
  | dropBatchReceiver => exact .inr ⟨hi.noTry, hi.noError, hi.dead, hi.unbroken⟩

/-- A monitor with nothing to bring it back is not healthy. -/
theorem Hopeless.not_healthy {s : State} (hconn : ConnInv env s) (hi : Hopeless env s) :
    ¬ Healthy env s := by
  intro hhealthy
  refine hi.dead s.client ?_ hhealthy.driver
  rw [hconn.next]
  exact Nat.lt_succ_self s.client

/-! ## The way to the loop -/

/-- Somebody tells the monitor to stop. -/
def Label.isCommand : Label → Bool
  | .sendCmd => true
  | _ => false

/-- The steps that are left until `select!` when nothing fails. -/
def State.ahead (env : Env) (s : State) : Nat :=
  match s.pc with
  | .runLoop => 2
  | .command _ => 1
  | .joinOld _ old _ =>
    env.eventQueries.length + 4 + if s.drivers old = .running then 1 else 0
  | .resubscribe _ _ todo _ => todo.length + 3
  | _ => 0

/-- The next of these steps. -/
theorem onward {s : State} {l : Loop} (hconn : ConnInv env s) (hcmd : s.rxCmd = [])
    (hl : s.upcoming env = some l) (hnot : ∀ l, s.pc ≠ .select l) :
    ∃ a t, a.isCommand = false ∧ step env s a = some t ∧ Keeps env s t ∧
      t.ahead env < s.ahead env := by
  cases hpc : s.pc with
  | runLoop =>
    refine ⟨.enter, _, rfl, by simp only [step, hpc], keeps_enter hpc, ?_⟩
    show 1 < s.ahead env
    rw [State.ahead, hpc]
    exact Nat.lt_succ_self 1
  | command l =>
    refine ⟨.checkCmd, _, rfl, by simp only [step, hpc, hcmd], keeps_idle hpc, ?_⟩
    show 0 < s.ahead env
    rw [State.ahead, hpc]
    exact Nat.zero_lt_one
  | select l => exact absurd hpc (hnot l)
  | joinOld cause old delays =>
    have hcons := hconn.consistent
    rw [hpc] at hcons
    have hbefore : s.ahead env = env.eventQueries.length + 4 +
        if s.drivers old = .running then 1 else 0 := by
      rw [State.ahead, hpc]
    cases hold : s.drivers old with
    | running =>
      -- the old driver ends, and the join returns
      have hlt : old < s.next := by
        rw [hconn.next, hcons.1]
        exact Nat.lt_succ_of_lt (Nat.lt_succ_self old)
      have hne : s.client ≠ old := by
        rw [hcons.1]
        exact Nat.succ_ne_self old
      refine ⟨.driverExit old, _, rfl, ?_, keeps_terminate hne, ?_⟩
      · simp only [step]
        rw [if_pos ⟨hlt, hold⟩]
      · rw [hbefore, hold]
        have hafter : (s.terminate old).ahead env = env.eventQueries.length + 4 := by
          have hdead : (s.terminate old).drivers old = .terminated := Function.update_self ..
          have hpc' : (s.terminate old).pc = .joinOld cause old delays := hpc
          simp only [State.ahead, hpc', hdead]
          rfl
        rw [hafter, if_pos rfl]
        omega
    | terminated =>
      refine ⟨.joined true, _, rfl, ?_, keeps_joined hpc, ?_⟩
      · simp only [step, hpc]
        rw [if_pos hold]
        rfl
      · rw [hbefore]
        show env.eventQueries.length + 3 < _
        omega
  | resubscribe cause done todo delays =>
    have hbefore : s.ahead env = todo.length + 3 := by
      rw [State.ahead, hpc]
    cases todo with
    | nil =>
      refine ⟨.resubscribed, _, rfl, by simp only [step, hpc], keeps_resubscribed hconn hpc, ?_⟩
      rw [hbefore]
      show 2 < 3
      omega
    | cons q todo =>
      refine ⟨.subscribed true, _, rfl, by simp only [step, hpc]; rfl, keeps_subscribed hpc, ?_⟩
      rw [hbefore]
      show todo.length + 3 < (q :: todo).length + 3
      rw [List.length_cons]
      omega
  | _ =>
    rw [State.upcoming, hpc] at hl
    cases hl

/-- Without a command and without a failure the monitor comes to wait in `select!`. -/
theorem select_upcoming {s : State} {l : Loop} (h : (machine env).Reachable s)
    (hcmd : s.rxCmd = []) (hl : s.upcoming env = some l) :
    ∃ ls t, (∀ a ∈ ls, a.isCommand = false) ∧ (machine env).exec s ls = some t ∧
      (machine env).Reachable t ∧ Keeps env s t ∧ t.pc = .select l := by
  have hprogress : ∀ u, ((machine env).Reachable u ∧ u.rxCmd = [] ∧ u.upcoming env = some l) →
      (¬ ∃ l, u.pc = .select l) → ∃ a t, a.isCommand = false ∧ (machine env).step u a = some t ∧
        ((machine env).Reachable t ∧ t.rxCmd = [] ∧ t.upcoming env = some l) ∧ Keeps env u t ∧
          t.ahead env < u.ahead env := by
    rintro u ⟨hu, hcmd, hl⟩ hnot
    obtain ⟨a, t, ha, ht, hkeeps, hlt⟩ := onward (connInv_reachable hu) hcmd hl
      fun l hpc => hnot ⟨l, hpc⟩
    exact ⟨a, t, ha, ht, ⟨hu.step ht, hkeeps.rxCmd.trans hcmd, hkeeps.upcoming.trans hl⟩,
      hkeeps, hlt⟩
  obtain ⟨ls, t, hls, hexec, ⟨hreach, -, hl'⟩, hkeeps, l', hpc⟩ :=
    Machine.exec_done (State.ahead env) Keeps.refl Keeps.trans hprogress ⟨h, hcmd, hl⟩
  refine ⟨ls, t, hls, hexec, hreach, hkeeps, ?_⟩
  rw [State.upcoming, hpc] at hl'
  rw [hpc, Option.some.inj hl']

/-! ## The ways back -/

/-- Some run without a command leads to a healthy monitor. -/
abbrev Recovers (env : Env) (s : State) : Prop :=
  (machine env).CanReach (fun a => a.isCommand = false) (Healthy env) s

/-- A try is left: a new client, and everything succeeds. -/
theorem recovers_try {s : State} (h : (machine env).Reachable s) (hcmd : s.rxCmd = [])
    {cause : Cause} {delays : List Nat} (hpc : s.pc = .tryReconnect cause delays) :
    Recovers env s := by
  have hswap : (machine env).step s (.newClient true) = some (s.swapClient cause delays) := by
    show step env s (.newClient true) = _
    simp only [step, hpc, if_true]
  have hrun : (s.swapClient cause delays).drivers s.next = .running := Function.update_self ..
  obtain ⟨ls, t, hls, hexec, -, hkeeps, hselect⟩ := select_upcoming (h.step hswap) hcmd rfl
  refine .step rfl hswap (.after hls hexec (.here ⟨⟨_, hselect, ?_, rfl⟩, ?_⟩))
  · rw [hkeeps.client]
  · rw [hkeeps.client]
    exact hkeeps.driver.trans hrun

/-- An error waits in `rx_err`: `select!` picks it. -/
theorem recovers_error {s : State} {l : Loop} (h : (machine env).Reachable s)
    (hcmd : s.rxCmd = []) (hl : s.upcoming env = some l) (herr : s.rxErr ≠ []) :
    Recovers env s := by
  obtain ⟨ls, t, hls, hexec, hreach, hkeeps, hselect⟩ := select_upcoming h hcmd hl
  refine .after hls hexec ?_
  cases hwaiting : t.rxErr with
  | nil => exact absurd (hkeeps.rxErr.symm.trans hwaiting) herr
  | cons x rest =>
    obtain ⟨c, e⟩ := x
    have hstep : (machine env).step t .driverErr =
        some ({ t with rxErr := rest }.reconnect env l (.driver c)) := by
      show step env t .driverErr = _
      simp only [step, hselect, hwaiting]
    exact .step rfl hstep (recovers_try (hreach.step hstep) (hkeeps.rxCmd.trans hcmd) rfl)

/-- The groups that the batch stream has still to yield are sent, up to an error if there is one. -/
theorem recovers_drained {out : List (Except MonitorError (List (Height × Event)))} {s : State}
    {l : Loop} (h : (machine env).Reachable s) (hcmd : s.rxCmd = []) (hpc : s.pc = .select l)
    (hout : l.batches.out = out)
    (hdrained : hasError out = false → ∀ t l', (machine env).Reachable t → t.rxCmd = [] →
      t.client = s.client → t.feeds = s.feeds → t.pc = .select l' → l'.batches.out = [] →
      l'.batches.ended = l.batches.ended → l'.subscriptions = l.subscriptions →
      Recovers env t) :
    Recovers env s := by
  induction out generalizing s l with
  | nil =>
    exact hdrained rfl s l h hcmd rfl rfl hpc hout rfl rfl
  | cons x rest ih =>
    cases x with
    | error e =>
      have hstep : (machine env).step s .batch =
          some (s.streamError env { l with batches := { l.batches with out := rest } } e) := by
        show step env s .batch = _
        simp only [step, hpc, hout]
      refine .step rfl hstep ?_
      have hreach := h.step hstep
      unfold State.streamError at hreach ⊢
      cases e with
      | subscriptionCancelled r => exact recovers_try hreach ((send_rxCmd ..).trans hcmd) rfl
      | webSocketDriver r => exact recovers_try hreach hcmd rfl
      | genericRpcError r => exact recovers_try hreach hcmd rfl
    | ok g =>
      obtain ⟨b, -, hsends⟩ := processBatch_sends env (deliveryInv_reachable h) hpc hout
        { l with batches := { l.batches with out := rest } }
      have hstep : (machine env).step s .batch =
          some (s.processBatch env { l with batches := { l.batches with out := rest } } g) := by
        show step env s .batch = _
        simp only [step, hpc, hout]
      rw [hsends] at hstep
      have hreach := h.step hstep
      have hidle := select_upcoming hreach ((send_rxCmd ..).trans hcmd) rfl
      obtain ⟨ls, t, hls, hexec, hreach', hkeeps, hselect⟩ := hidle
      have hcmd' : t.rxCmd = [] := hkeeps.rxCmd.trans ((send_rxCmd ..).trans hcmd)
      refine .step rfl hstep (.after hls hexec (ih hreach' hcmd' hselect rfl ?_))
      intro hnone u l' hu hnone' hclient hfeeds
      exact hdrained hnone u l' hu hnone' (hclient.trans (hkeeps.client.trans (send_client ..)))
        (hfeeds.trans (hkeeps.feeds.trans (send_feeds ..)))

/-- An item before the error is pulled, and so is the error. -/
theorem feed_breaks {b : Batches} {item : Item} {rest : List Item}
    (hbreaks : breaks env (item :: rest) = true) :
    ∃ b', b.feed env.parsers env.chainId item = some b' ∧ b'.ended = b.ended ∧
      (hasError b'.out = true ∨ breaks env rest = true) := by
  cases item with
  | error e =>
    refine ⟨_, rfl, rfl, .inl ?_⟩
    obtain ⟨gs, hgs⟩ := tryGroupStep_error sameHeight b.state (canceledOrGeneric e)
    show hasError (b.out ++ (tryGroupSteps sameHeight b.state [.error (canceledOrGeneric e)]).2) = _
    rw [tryGroupSteps, tryGroupSteps, hgs]
    simp [hasError, Except.isOk, Except.toBool]
  | ok event =>
    obtain ⟨hvals, hrest⟩ := Bool.and_eq_true_iff.mp hbreaks
    obtain ⟨vals, hvals⟩ := Option.isSome_iff_exists.mp hvals
    cases hfeed : b.feed env.parsers env.chainId (.ok event) with
    | none =>
      rw [Batches.feed, Batches.itemsOf, hvals] at hfeed
      cases hfeed
    | some b' =>
      obtain ⟨items, -, rfl⟩ := Option.map_eq_some_iff.mp hfeed
      exact ⟨_, rfl, rfl, .inr hrest⟩

/-- The batch stream comes to an error. -/
theorem recovers_pulled {items : List Item} {s : State} {l : Loop}
    (h : (machine env).Reachable s) (hcmd : s.rxCmd = []) (hpc : s.pc = .select l)
    (hfeed : s.feeds s.client = items) (hbreaks : l.breaks env items = true) :
    Recovers env s := by
  induction items generalizing s l with
  | nil =>
    refine recovers_drained h hcmd hpc rfl fun hnone => ?_
    rw [Loop.breaks, hnone, Bool.false_or] at hbreaks
    exact absurd (Bool.and_eq_true_iff.mp hbreaks).2 Bool.false_ne_true
  | cons item rest ih =>
    refine recovers_drained h hcmd hpc rfl fun hnone => ?_
    rw [Loop.breaks, hnone, Bool.false_or, Bool.and_eq_true_iff, Bool.and_eq_true_iff] at hbreaks
    obtain ⟨⟨hgoing, hsubs⟩, hcoming⟩ := hbreaks
    intro t l' ht hcmd' hclient hfeeds hpc' hout hended hsame
    have hfeed' : t.feeds t.client = item :: rest := by rw [hclient, hfeeds, hfeed]
    rw [← hended] at hgoing
    rw [← hsame] at hsubs
    have hc : t.client ∈ l'.conns := by
      cases hsome : l'.subscriptions with
      | nil =>
        rw [hsome] at hsubs
        exact absurd hsubs Bool.false_ne_true
      | cons sub subs =>
        have hmem : sub.conn ∈ l'.conns := by
          rw [Loop.conns, hsome]
          exact List.mem_cons_self
        rw [← (connInv_reachable ht).current hpc' hmem]
        exact hmem
    have hstep : (machine env).step t (.pull t.client) =
        some (t.pull env l' t.client item rest) := by
      show step env t (.pull t.client) = _
      simp only [step, hpc', hfeed']
      exact if_pos ⟨hc, by rw [hout]; rfl, by simpa using hgoing⟩
    obtain ⟨b, hb, hsameEnd, hrest⟩ := feed_breaks (b := l'.batches) hcoming
    have hselect := pull_pc_some (s := t) t.client rest hb
    refine .step rfl hstep (ih (ht.step hstep) hcmd' hselect ?_ ?_)
    · exact Function.update_self ..
    · rw [Loop.breaks, hsameEnd]
      rcases hrest with herror | hlater
      · rw [herror, Bool.true_or]
      · rw [hlater, hgoing, hsubs]
        exact Bool.or_true _

/-- The step that `reconnect` is in fails, and a try is left. -/
theorem recovers_retry {s : State} (h : (machine env).Reachable s) (hcmd : s.rxCmd = [])
    (htry : s.pc.canRetry = true) : Recovers env s := by
  cases hpc : s.pc with
  | joinOld cause old delays =>
    cases delays with
    | nil =>
      rw [hpc] at htry
      exact absurd htry Bool.false_ne_true
    | cons d delays =>
      -- the join returns once the old driver has ended
      have hjoined : ∀ u, (machine env).Reachable u → u.rxCmd = [] →
          u.pc = .joinOld cause old (d :: delays) → u.drivers old = .terminated →
            Recovers env u := by
        intro u hu hcmd' hpc' hold
        have hstep : (machine env).step u (.joined false) =
            some ((u.await old).retry cause (d :: delays)) := by
          show step env u (.joined false) = _
          simp only [step, hpc', if_pos hold]
          rfl
        exact .step rfl hstep (recovers_try (hu.step hstep) hcmd' rfl)
      cases hold : s.drivers old with
      | terminated => exact hjoined s h hcmd hpc hold
      | running =>
        have hconn := connInv_reachable h
        have hcons := hconn.consistent
        rw [hpc] at hcons
        have hlt : old < s.next := by
          rw [hconn.next, hcons.1]
          exact Nat.lt_succ_of_lt (Nat.lt_succ_self old)
        have hstep : (machine env).step s (.driverExit old) = some (s.terminate old) :=
          if_pos ⟨hlt, hold⟩
        exact .step rfl hstep (hjoined _ (h.step hstep) hcmd hpc (Function.update_self ..))
  | resubscribe cause done todo delays =>
    rw [hpc] at htry
    obtain ⟨htodo, hdelays⟩ := Bool.and_eq_true_iff.mp htry
    cases todo with
    | nil => exact absurd htodo Bool.false_ne_true
    | cons q todo =>
      cases delays with
      | nil => exact absurd hdelays Bool.false_ne_true
      | cons d delays =>
        have hstep : (machine env).step s (.subscribed false) =
            some (s.retry cause (d :: delays)) := by
          show step env s (.subscribed false) = _
          simp only [step, hpc]
          rfl
        exact .step rfl hstep (recovers_try (h.step hstep) hcmd rfl)
  | tryReconnect cause delays => exact recovers_try h hcmd hpc
  | _ =>
    rw [hpc] at htry
    exact absurd htry Bool.false_ne_true

/-- A driver runs: it fails, whether it is the current one or the one that is awaited. -/
theorem recovers_driver {s : State} {l : Loop} (h : (machine env).Reachable s)
    (hcmd : s.rxCmd = []) (hl : s.upcoming env = some l) {c : ConnId} (hc : c < s.next)
    (hrun : s.drivers c = .running) : Recovers env s := by
  have hstep : (machine env).step s (.driverFail c ⟨.other 0, none⟩) =
      some { s.terminate c with rxErr := s.rxErr ++ [(c, ⟨.other 0, none⟩)] } :=
    if_pos ⟨hc, hrun⟩
  refine .step rfl hstep (recovers_error (l := l) (h.step hstep) hcmd hl ?_)
  exact List.append_ne_nil_of_right_ne_nil _ (List.cons_ne_nil _ _)

/-- **Run lemma.**  Whatever can bring a monitor back does in some run. -/
theorem recovers_hopeful {s : State} (h : (machine env).Reachable s) (htold : ¬ Told s)
    (hpanicked : s.pc ≠ .panicked) (hope : Hopeful env s) : Recovers env s := by
  have hcmd : s.rxCmd = [] := Decidable.byContradiction fun hpending => htold (.inl hpending)
  have hwhere : (∃ cause delays, s.pc = .tryReconnect cause delays) ∨
      ∃ l, s.upcoming env = some l := by
    unfold State.upcoming
    cases hpc : s.pc with
    | tryReconnect cause delays => exact .inl ⟨cause, delays, rfl⟩
    | joinLast => exact absurd (.inr (by rw [hpc]; rfl)) htold
    | returned => exact absurd (.inr (by rw [hpc]; rfl)) htold
    | panicked => exact absurd hpc hpanicked
    | _ => exact .inr ⟨_, rfl⟩
  rcases hwhere with ⟨cause, delays, hpc⟩ | ⟨l, hl⟩
  · exact recovers_try h hcmd hpc
  · cases hope with
    | retry htry => exact recovers_retry h hcmd htry
    | error herr => exact recovers_error h hcmd hl herr
    | driver hc hrun => exact recovers_driver h hcmd hl hc hrun
    | @stream l' hl' hbreaks =>
      obtain ⟨ls, t, hls, hexec, hreach, hkeeps, hselect⟩ := select_upcoming h hcmd hl'
      refine .after hls hexec (recovers_pulled hreach (hkeeps.rxCmd.trans hcmd) hselect rfl ?_)
      rw [hkeeps.client, hkeeps.feeds]
      exact hbreaks

/-! ## Headline -/

/-- The driver fails, and `reconnect` fails to make a client so many times. -/
def failedTries (n : Nat) : List Label :=
  [.enter, .checkCmd, .driverFail 0 ⟨.other 1, none⟩, .driverErr] ++
    List.replicate n (.newClient false)

end OffChainWorker.Monitor
