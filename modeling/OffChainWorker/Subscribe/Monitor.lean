/-
  The event monitor as a machine (`EventMonitor` in `src/subscribe/monitor.rs`).

  The monitor thread owns one WebSocket client and the handle of the driver task behind it.  `run`
  calls `run_loop` over and over: it takes the subscriptions over, and in turn looks at the
  command channel, selects between the batch stream and the driver-error channel, and on any error
  calls `reconnect`, which retries `try_reconnect` and `try_resubscribe` along a list of delays.
  The control points of these functions are the constructors of `Pc`.  Around the thread stand the
  drivers, one task for each client ever created: a running driver feeds the subscriptions of its
  client and terminates with an error on the shared channel `rx_err` or silently.  Each query has a
  subscription of its own and `subscribe` merges them by `select_all`; a connection has one feed
  here, which is that of the merged stream, so the order of its items is the order in which the
  merged stream hands them on, whatever the order in which the network sent them.  Who moves next
  and what the network answers is in the `Label`; `step` is the executable model, and `Step` lists
  what `step` can do, transition by transition (`step_cases`), which is what the invariants are
  proved by.

  Connections are numbered in the order in which their clients are created.  The connection that an
  error in `rx_err` or a message on `tx_batch` comes from is recorded next to it, and `History`
  records closed clients, awaited drivers and the reconnects; no transition reads these records.
-/
import Mathlib.Logic.Function.Basic
import OffChainWorker.Lib.Machine
import OffChainWorker.Subscribe.Batches

namespace OffChainWorker.Monitor

open Proc

/-! ## Data -/

/-- A client together with its driver task. -/
abbrev ConnId := Nat

abbrev Query := String

/-- A subscription: the client it was created on and its query. -/
structure Subscription where
  conn : ConnId
  query : Query
deriving Repr, DecidableEq

/-- An item of the subscription stream. -/
abbrev Item := Except RpcError RpcEvent

inductive DriverStatus where
  | running
  | terminated
deriving Repr, DecidableEq

inductive MonitorCmd where
  | shutdown
deriving Repr, DecidableEq

/-- What stays fixed during a run: the third-party parsers and sort, the chain id, the queries, and
    the delays that `retry_strategy::default` yields. -/
structure Env where
  parsers : Parsers
  sort : StableSort Event
  chainId : String
  eventQueries : List Query
  strategy : List Nat

/-- The locals of `run_loop`: the subscriptions it took over and the batch stream made of them.
    `mark` is the number of messages sent before the loop and `pulled` the pairs taken off the
    subscriptions in it. -/
structure Loop where
  subscriptions : List Subscription
  batches : Batches
  mark : Nat
  pulled : List (Height × Event)

def Loop.conns (l : Loop) : List ConnId := l.subscriptions.map Subscription.conn

/-- The connection the loop is reading from, if it has any subscription. -/
def Loop.conn (l : Loop) : Option ConnId := l.conns.head?

/-- What made `run_loop` reconnect: an error of its stream, or a driver error off `rx_err`. -/
inductive Cause where
  | stream (conn : Option ConnId)
  | driver (conn : ConnId)
deriving Repr, DecidableEq

/-- The connection that failed. -/
def Cause.failed : Cause → Option ConnId
  | .stream conn => conn
  | .driver conn => some conn

/-- The control points of the monitor thread. -/
inductive Pc where
  /-- `run` is about to call `run_loop`. -/
  | runLoop
  /-- `run_loop` is about to look at `rx_cmd`. -/
  | command (l : Loop)
  /-- `run_loop` waits in `select!`. -/
  | select (l : Loop)
  /-- The closure of `reconnect` is about to call `try_reconnect`; `delays` are left. -/
  | tryReconnect (cause : Cause) (delays : List Nat)
  /-- `try_reconnect` has swapped clients and closed the old one, and waits for its driver. -/
  | joinOld (cause : Cause) (old : ConnId) (delays : List Nat)
  /-- `subscribe` has subscribed to `done`, `todo` is left. -/
  | resubscribe (cause : Cause) (done : List Subscription) (todo : List Query) (delays : List Nat)
  /-- `run` has closed the client and waits for its driver. -/
  | joinLast
  | returned
  | panicked

/-- The `run_loop` that is running. -/
def Pc.loop : Pc → Option Loop
  | .command l => some l
  | .select l => some l
  | _ => none

/-- The thread runs `run` and has not found a command. -/
def Pc.running : Pc → Bool
  | .joinLast => false
  | .returned => false
  | .panicked => false
  | _ => true

/-- A message on `tx_batch` and the connection the sending loop was reading from. -/
structure Sent where
  conn : Option ConnId
  msg : Except MonitorError EventBatch

/-- A call of `run_loop` that ended in a reconnect: what it pulled, what it delivered to `tx_batch`,
    and what its batch stream held when it was dropped. -/
structure Session where
  pulled : List (Height × Event)
  delivered : List (Height × Event)
  held : List (Height × Event)

/-- A call of `reconnect`: its cause and the client that was current then. -/
structure Reconnect where
  cause : Cause
  client : ConnId
deriving Repr, DecidableEq

/-- Records that no transition reads. -/
structure History where
  closed : List ConnId
  awaited : List ConnId
  sessions : List Session
  reconnects : List Reconnect
  /-- The causes of the reconnects that succeeded. -/
  restored : List Cause

structure State where
  client : ConnId
  driverHandle : ConnId
  subscriptions : List Subscription
  rxErr : List (ConnId × RpcError)
  rxCmd : List MonitorCmd
  /-- The messages sent on `tx_batch` so far. -/
  txBatch : List Sent
  /-- The receiver of `tx_batch` is alive. -/
  rxBatch : Bool
  pc : Pc
  drivers : ConnId → DriverStatus
  /-- The items a driver has handed to the subscriptions of its client, not pulled yet, in the order
      in which the merged stream hands them on. -/
  feeds : ConnId → List Item
  /-- The number of clients created. -/
  next : ConnId
  history : History

/-- The pairs in the batches of some messages. -/
def batchPairs : List Sent → List (Height × Event)
  | [] => []
  | ⟨_, .ok b⟩ :: sent => b.pairs ++ batchPairs sent
  | ⟨_, .error _⟩ :: sent => batchPairs sent

theorem batchPairs_append (a b : List Sent) :
    batchPairs (a ++ b) = batchPairs a ++ batchPairs b := by
  induction a with
  | nil => rfl
  | cons x a ih =>
    obtain ⟨conn, msg⟩ := x
    cases msg <;> simp [batchPairs, ih]

theorem batchPairs_drop_snoc {log : List Sent} {n : Nat} (h : n ≤ log.length) (m : Sent) :
    batchPairs ((log ++ [m]).drop n) = batchPairs (log.drop n) ++ batchPairs [m] := by
  rw [List.drop_append_of_le_length h, batchPairs_append]

/-! ## What the pieces of `run_loop`, `reconnect` and `run` do -/

namespace State

variable (env : Env) (s : State)

/-- Take the subscriptions over. -/
def enterLoop : State :=
  { s with
    subscriptions := []
    pc := .command ⟨s.subscriptions, Batches.new, s.txBatch.length, []⟩ }

/-- `Next::Abort`, and `run` closes the client. -/
def abort (rest : List MonitorCmd) : State :=
  { s with
    rxCmd := rest
    pc := .joinLast
    history := { s.history with closed := s.history.closed ++ [s.client] } }

/-- The batch stream pulls an item; a panic of the extraction kills the thread. -/
def pull (l : Loop) (c : ConnId) (item : Item) (rest : List Item) : State :=
  { s with
    feeds := Function.update s.feeds c rest
    pc := match l.batches.feed env.parsers env.chainId item with
      | none => .panicked
      | some b =>
        .select { l with
          batches := b
          pulled := l.pulled ++ Batches.pairsOf env.parsers env.chainId item } }

/-- Send on `tx_batch`; without a receiver the error is only logged. -/
def send (conn : Option ConnId) (msg : Except MonitorError EventBatch) : State :=
  if s.rxBatch then { s with txBatch := s.txBatch ++ [⟨conn, msg⟩] } else s

/-- `process_batch`. -/
def processBatch (l : Loop) (g : List (Height × Event)) : State :=
  match toBatch env.sort env.chainId g with
  | none => { s with pc := .panicked }
  | some b => { s.send l.conn (.ok b) with pc := .command l }

/-- `run_loop` calls `reconnect` and is left. -/
def reconnect (l : Loop) (cause : Cause) : State :=
  { s with
    pc := .tryReconnect cause env.strategy
    history :=
      { s.history with
        sessions := s.history.sessions ++
          [⟨l.pulled, batchPairs (s.txBatch.drop l.mark), l.batches.held⟩]
        reconnects := s.history.reconnects ++ [⟨cause, s.client⟩] } }

/-- The two `Err` arms of `run_loop` for an error of the stream: only a cancelled subscription is
    propagated to the subscribers. -/
def streamError (l : Loop) (e : MonitorError) : State :=
  match e with
  | .subscriptionCancelled r =>
    (s.send l.conn (.error (.subscriptionCancelled r))).reconnect env l (.stream l.conn)
  | _ => s.reconnect env l (.stream l.conn)

/-- `RetryResult::Retry`: the next delay, or giving up; then `Next::Continue`. -/
def retry (cause : Cause) (delays : List Nat) : State :=
  match delays with
  | [] => { s with pc := .runLoop }
  | _ :: rest => { s with pc := .tryReconnect cause rest }

/-- `try_reconnect` up to the join: a new client and driver, the old client is closed. -/
def swapClient (cause : Cause) (delays : List Nat) : State :=
  { s with
    client := s.next
    driverHandle := s.next
    pc := .joinOld cause s.driverHandle delays
    drivers := Function.update s.drivers s.next .running
    feeds := Function.update s.feeds s.next []
    next := s.next + 1
    history := { s.history with closed := s.history.closed ++ [s.client] } }

/-- The old driver has been awaited. -/
def await (old : ConnId) : State :=
  { s with history := { s.history with awaited := s.history.awaited ++ [old] } }

/-- `reconnect` reports success. -/
def resubscribed (cause : Cause) (done : List Subscription) : State :=
  { s with
    subscriptions := done
    pc := .runLoop
    history := { s.history with restored := s.history.restored ++ [cause] } }

/-- A driver task ends. -/
def terminate (c : ConnId) : State :=
  { s with drivers := Function.update s.drivers c .terminated }

end State

/-! ## The fields that sending leaves alone -/

section
variable (s : State) (conn : Option ConnId) (msg : Except MonitorError EventBatch)

@[simp] theorem send_client : (s.send conn msg).client = s.client := by
  unfold State.send; split <;> rfl
@[simp] theorem send_driverHandle : (s.send conn msg).driverHandle = s.driverHandle := by
  unfold State.send; split <;> rfl
@[simp] theorem send_subscriptions : (s.send conn msg).subscriptions = s.subscriptions := by
  unfold State.send; split <;> rfl
@[simp] theorem send_rxErr : (s.send conn msg).rxErr = s.rxErr := by
  unfold State.send; split <;> rfl
@[simp] theorem send_rxCmd : (s.send conn msg).rxCmd = s.rxCmd := by
  unfold State.send; split <;> rfl
@[simp] theorem send_rxBatch : (s.send conn msg).rxBatch = s.rxBatch := by
  unfold State.send; split <;> rfl
@[simp] theorem send_drivers : (s.send conn msg).drivers = s.drivers := by
  unfold State.send; split <;> rfl
@[simp] theorem send_feeds : (s.send conn msg).feeds = s.feeds := by
  unfold State.send; split <;> rfl
@[simp] theorem send_next : (s.send conn msg).next = s.next := by
  unfold State.send; split <;> rfl
@[simp] theorem send_history : (s.send conn msg).history = s.history := by
  unfold State.send; split <;> rfl

end

/-! ## Where pulling an item leads -/

theorem pull_pc_none {env : Env} {s : State} {l : Loop} {item : Item} (c : ConnId)
    (rest : List Item) (h : l.batches.feed env.parsers env.chainId item = none) :
    (s.pull env l c item rest).pc = .panicked := by
  simp [State.pull, h]

theorem pull_pc_some {env : Env} {s : State} {l : Loop} {item : Item} {b : Batches} (c : ConnId)
    (rest : List Item) (h : l.batches.feed env.parsers env.chainId item = some b) :
    (s.pull env l c item rest).pc =
      .select { l with
        batches := b
        pulled := l.pulled ++ Batches.pairsOf env.parsers env.chainId item } := by
  simp [State.pull, h]

/-! ## The machine -/

inductive Label where
  /-- `run` calls `run_loop`. -/
  | enter
  /-- `rx_cmd.try_recv()`. -/
  | checkCmd
  /-- Polling the batch stream pulls an item of connection `c`. -/
  | pull (c : ConnId)
  /-- Polling the batch stream finds the subscriptions ended. -/
  | streamEnd
  /-- The first branch of `select!` completes. -/
  | batch
  /-- The second branch of `select!` completes. -/
  | driverErr
  /-- `WebSocketClient::new` in `try_reconnect` succeeds or fails. -/
  | newClient (ok : Bool)
  /-- The join of the old driver returns, without or with a `JoinError`. -/
  | joined (ok : Bool)
  /-- One `client.subscribe` succeeds or fails. -/
  | subscribed (ok : Bool)
  /-- `subscribe` merges the subscriptions. -/
  | resubscribed
  /-- The last driver has finished and `run` returns. -/
  | joinedLast
  /-- The driver of `c` hands an item to a subscription of its client; it is the next one of the
      merged stream after those that are there. -/
  | yield (c : ConnId) (item : Item)
  /-- `run_driver`: the driver of `c` fails and relays its error. -/
  | driverFail (c : ConnId) (e : RpcError)
  /-- `run_driver`: the driver of `c` ends without an error. -/
  | driverExit (c : ConnId)
  /-- Somebody sends `MonitorCmd::Shutdown`. -/
  | sendCmd
  /-- The receiver of `tx_batch` is dropped. -/
  | dropBatchReceiver

/-- The executable model. -/
def step (env : Env) (s : State) : Label → Option State
  | .enter =>
    match s.pc with
    | .runLoop => some s.enterLoop
    | _ => none
  | .checkCmd =>
    match s.pc, s.rxCmd with
    | .command l, [] => some { s with pc := .select l }
    | .command _, .shutdown :: rest => some (s.abort rest)
    | _, _ => none
  | .pull c =>
    match s.pc, s.feeds c with
    | .select l, item :: rest =>
      -- what the generator has still to yield comes before the next item
      if c ∈ l.conns ∧ l.batches.out.isEmpty ∧ l.batches.ended = false then
        some (s.pull env l c item rest)
      else none
    | _, _ => none
  | .streamEnd =>
    match s.pc with
    | .select l =>
      if l.batches.out.isEmpty ∧ l.batches.ended = false ∧ ∀ c ∈ l.conns, (s.feeds c).isEmpty then
        some { s with pc := .select { l with batches := l.batches.finish } }
      else none
    | _ => none
  | .batch =>
    match s.pc with
    | .select l =>
      match l.batches.out with
      | [] => none
      | .ok g :: rest =>
        some (s.processBatch env { l with batches := { l.batches with out := rest } } g)
      | .error e :: rest =>
        some (s.streamError env { l with batches := { l.batches with out := rest } } e)
    | _ => none
  | .driverErr =>
    match s.pc, s.rxErr with
    -- also while the batch stream has something ready: `select!` is not biased
    | .select l, (c, _) :: rest => some ({ s with rxErr := rest }.reconnect env l (.driver c))
    | _, _ => none
  | .newClient ok =>
    match s.pc with
    | .tryReconnect cause delays =>
      some (if ok then s.swapClient cause delays else s.retry cause delays)
    | _ => none
  | .joined ok =>
    match s.pc with
    | .joinOld cause old delays =>
      -- `block_on(driver_handle)` returns only once the task has ended
      if s.drivers old = .terminated then
        some (if ok then { s.await old with pc := .resubscribe cause [] env.eventQueries delays }
          else (s.await old).retry cause delays)
      else none
    | _ => none
  | .subscribed ok =>
    match s.pc with
    | .resubscribe cause done (q :: todo) delays =>
      -- the subscriptions made so far are dropped when the next one fails
      some (if ok then { s with pc := .resubscribe cause (done ++ [⟨s.client, q⟩]) todo delays }
        else s.retry cause delays)
    | _ => none
  | .resubscribed =>
    match s.pc with
    | .resubscribe cause done [] _ => some (s.resubscribed cause done)
    | _ => none
  | .joinedLast =>
    match s.pc with
    | .joinLast =>
      if s.drivers s.driverHandle = .terminated then
        some { s.await s.driverHandle with pc := .returned }
      else none
    | _ => none
  | .yield c item =>
    if c < s.next ∧ s.drivers c = .running then
      some { s with feeds := Function.update s.feeds c (s.feeds c ++ [item]) }
    else none
  | .driverFail c e =>
    if c < s.next ∧ s.drivers c = .running then
      some { s.terminate c with rxErr := s.rxErr ++ [(c, e)] }
    else none
  | .driverExit c =>
    if c < s.next ∧ s.drivers c = .running then some (s.terminate c) else none
  | .sendCmd => some { s with rxCmd := s.rxCmd ++ [.shutdown] }
  | .dropBatchReceiver => some { s with rxBatch := false }

/-- The monitor right after `EventMonitor::new` and a successful `subscribe`. -/
def subscribedState (env : Env) : State where
  client := 0
  driverHandle := 0
  subscriptions := env.eventQueries.map fun q => ⟨0, q⟩
  rxErr := []
  rxCmd := []
  txBatch := []
  rxBatch := true
  pc := .runLoop
  drivers := fun _ => .running
  feeds := fun _ => []
  next := 1
  history := ⟨[], [], [], [], []⟩

/-- `EventMonitor::run`, started right after a successful `subscribe`. -/
def machine (env : Env) : Machine State Label where
  init s := s = subscribedState env
  step := step env

/-! ## What a step can do -/

/-- The transitions of `step`, one constructor each. -/
inductive Step (env : Env) (s : State) : Label → State → Prop where
  | enter (hpc : s.pc = .runLoop) : Step env s .enter s.enterLoop
  | idle {l} (hpc : s.pc = .command l) (hcmd : s.rxCmd = []) :
      Step env s .checkCmd { s with pc := .select l }
  | abort {l rest} (hpc : s.pc = .command l) (hcmd : s.rxCmd = .shutdown :: rest) :
      Step env s .checkCmd (s.abort rest)
  | pull {l c item rest} (hpc : s.pc = .select l) (hfeed : s.feeds c = item :: rest)
      (hc : c ∈ l.conns) (hout : l.batches.out = []) (hended : l.batches.ended = false) :
      Step env s (.pull c) (s.pull env l c item rest)
  | streamEnd {l} (hpc : s.pc = .select l) (hout : l.batches.out = [])
      (hended : l.batches.ended = false) (hfeeds : ∀ c ∈ l.conns, s.feeds c = []) :
      Step env s .streamEnd { s with pc := .select { l with batches := l.batches.finish } }
  | batch {l g rest} (hpc : s.pc = .select l) (hout : l.batches.out = .ok g :: rest) :
      Step env s .batch (s.processBatch env { l with batches := { l.batches with out := rest } } g)
  | streamError {l e rest} (hpc : s.pc = .select l) (hout : l.batches.out = .error e :: rest) :
      Step env s .batch (s.streamError env { l with batches := { l.batches with out := rest } } e)
  | driverErr {l c e rest} (hpc : s.pc = .select l) (herr : s.rxErr = (c, e) :: rest) :
      Step env s .driverErr ({ s with rxErr := rest }.reconnect env l (.driver c))
  | newClient {cause delays} (hpc : s.pc = .tryReconnect cause delays) :
      Step env s (.newClient true) (s.swapClient cause delays)
  | noClient {cause delays} (hpc : s.pc = .tryReconnect cause delays) :
      Step env s (.newClient false) (s.retry cause delays)
  | joined {cause old delays} (hpc : s.pc = .joinOld cause old delays)
      (hold : s.drivers old = .terminated) :
      Step env s (.joined true)
        { s.await old with pc := .resubscribe cause [] env.eventQueries delays }
  | joinFailed {cause old delays} (hpc : s.pc = .joinOld cause old delays)
      (hold : s.drivers old = .terminated) :
      Step env s (.joined false) ((s.await old).retry cause delays)
  | subscribed {cause done q todo delays}
      (hpc : s.pc = .resubscribe cause done (q :: todo) delays) :
      Step env s (.subscribed true)
        { s with pc := .resubscribe cause (done ++ [⟨s.client, q⟩]) todo delays }
  | notSubscribed {cause done q todo delays}
      (hpc : s.pc = .resubscribe cause done (q :: todo) delays) :
      Step env s (.subscribed false) (s.retry cause delays)
  | resubscribed {cause done delays} (hpc : s.pc = .resubscribe cause done [] delays) :
      Step env s .resubscribed (s.resubscribed cause done)
  | joinedLast (hpc : s.pc = .joinLast) (hlast : s.drivers s.driverHandle = .terminated) :
      Step env s .joinedLast { s.await s.driverHandle with pc := .returned }
  | yield {c item} (hc : c < s.next) (hrun : s.drivers c = .running) :
      Step env s (.yield c item)
        { s with feeds := Function.update s.feeds c (s.feeds c ++ [item]) }
  | driverFail {c e} (hc : c < s.next) (hrun : s.drivers c = .running) :
      Step env s (.driverFail c e) { s.terminate c with rxErr := s.rxErr ++ [(c, e)] }
  | driverExit {c} (hc : c < s.next) (hrun : s.drivers c = .running) :
      Step env s (.driverExit c) (s.terminate c)
  | sendCmd : Step env s .sendCmd { s with rxCmd := s.rxCmd ++ [.shutdown] }
  | dropBatchReceiver : Step env s .dropBatchReceiver { s with rxBatch := false }

/-- Every step of the model is one of the listed transitions. -/
theorem step_cases {env : Env} {s t : State} {l : Label} (h : step env s l = some t) :
    Step env s l t := by
  cases l with
  | enter =>
    simp only [step] at h
    split at h
    · rename_i hpc
      obtain rfl := Option.some.inj h
      exact .enter hpc
    · nomatch h
  | checkCmd =>
    simp only [step] at h
    split at h
    · rename_i hpc hcmd
      obtain rfl := Option.some.inj h
      exact .idle hpc hcmd
    · rename_i hpc hcmd
      obtain rfl := Option.some.inj h
      exact .abort hpc hcmd
    · nomatch h
  | pull c =>
    simp only [step] at h
    split at h
    · rename_i hpc hfeed
      split at h
      · rename_i hcond
        obtain rfl := Option.some.inj h
        exact .pull hpc hfeed hcond.1 (List.isEmpty_iff.mp hcond.2.1) hcond.2.2
      · nomatch h
    · nomatch h
  | streamEnd =>
    simp only [step] at h
    split at h
    · rename_i hpc
      split at h
      · rename_i hcond
        obtain rfl := Option.some.inj h
        exact .streamEnd hpc (List.isEmpty_iff.mp hcond.1) hcond.2.1
          fun c hc => List.isEmpty_iff.mp (hcond.2.2 c hc)
      · nomatch h
    · nomatch h
  | batch =>
    simp only [step] at h
    split at h
    · rename_i hpc
      split at h
      · nomatch h
      · rename_i hout
        obtain rfl := Option.some.inj h
        exact .batch hpc hout
      · rename_i hout
        obtain rfl := Option.some.inj h
        exact .streamError hpc hout
    · nomatch h
  | driverErr =>
    simp only [step] at h
    split at h
    · rename_i hpc herr
      obtain rfl := Option.some.inj h
      exact .driverErr hpc herr
    · nomatch h
  | newClient ok =>
    simp only [step] at h
    split at h
    · rename_i hpc
      obtain rfl := Option.some.inj h
      cases ok with
      | true => exact .newClient hpc
      | false => exact .noClient hpc
    · nomatch h
  | joined ok =>
    simp only [step] at h
    split at h
    · rename_i hpc
      split at h
      · rename_i hold
        obtain rfl := Option.some.inj h
        cases ok with
        | true => exact .joined hpc hold
        | false => exact .joinFailed hpc hold
      · nomatch h
    · nomatch h
  | subscribed ok =>
    simp only [step] at h
    split at h
    · rename_i hpc
      obtain rfl := Option.some.inj h
      cases ok with
      | true => exact .subscribed hpc
      | false => exact .notSubscribed hpc
    · nomatch h
  | resubscribed =>
    simp only [step] at h
    split at h
    · rename_i hpc
      obtain rfl := Option.some.inj h
      exact .resubscribed hpc
    · nomatch h
  | joinedLast =>
    simp only [step] at h
    split at h
    · rename_i hpc
      split at h
      · rename_i hlast
        obtain rfl := Option.some.inj h
        exact .joinedLast hpc hlast
      · nomatch h
    · nomatch h
  | yield c item =>
    obtain ⟨⟨hc, hrun⟩, h⟩ := Option.ite_none_right_eq_some.mp h
    obtain rfl := Option.some.inj h
    exact .yield hc hrun
  | driverFail c e =>
    obtain ⟨⟨hc, hrun⟩, h⟩ := Option.ite_none_right_eq_some.mp h
    obtain rfl := Option.some.inj h
    exact .driverFail hc hrun
  | driverExit c =>
    obtain ⟨⟨hc, hrun⟩, h⟩ := Option.ite_none_right_eq_some.mp h
    obtain rfl := Option.some.inj h
    exact .driverExit hc hrun
  | sendCmd =>
    obtain rfl := Option.some.inj h
    exact .sendCmd
  | dropBatchReceiver =>
    obtain rfl := Option.some.inj h
    exact .dropBatchReceiver

/-- A step sends one message at most, and what was sent stays sent. -/
theorem Step.sends {env : Env} {s t : State} {l : Label} (h : Step env s l t) :
    ∃ sent, t.txBatch = s.txBatch ++ sent ∧ sent.length ≤ 1 := by
  have hsend : ∀ conn msg, ∃ sent, (s.send conn msg).txBatch = s.txBatch ++ sent ∧
      sent.length ≤ 1 := by
    intro conn msg
    unfold State.send
    split
    · exact ⟨[⟨conn, msg⟩], rfl, Nat.le_refl 1⟩
    · exact ⟨[], (List.append_nil _).symm, Nat.zero_le 1⟩
  have hnothing : ∃ sent, s.txBatch = s.txBatch ++ sent ∧ sent.length ≤ 1 :=
    ⟨[], (List.append_nil _).symm, Nat.zero_le 1⟩
  cases h with
  | batch _ _ =>
    unfold State.processBatch
    split
    · exact hnothing
    · exact hsend _ _
  | streamError _ _ =>
    unfold State.streamError
    split
    · exact hsend _ _
    · exact hnothing
  | @noClient cause delays _ => cases delays <;> exact hnothing
  | @joinFailed cause old delays _ _ => cases delays <;> exact hnothing
  | @notSubscribed cause done q todo delays _ => cases delays <;> exact hnothing
  | _ => exact hnothing

/-- The invariant rule of the monitor: from the initial state, through every listed transition. -/
theorem reachable_invariant {env : Env} {I : State → Prop} (h0 : I (subscribedState env))
    (hstep : ∀ s l t, I s → Step env s l t → I t) {s : State} (h : (machine env).Reachable s) :
    I s := by
  refine Machine.Reachable.invariant (fun s hs => ?_) (fun s l t hi ht => ?_) h
  · have hs' : s = subscribedState env := hs
    rw [hs']
    exact h0
  · exact hstep s l t hi (step_cases ht)

/-- The invariant rule for runs whose steps meet `C`, with an invariant `J` of all runs. -/
theorem reachableIf_invariant {env : Env} {C : State → Label → Prop} {J I : State → Prop}
    (hJ : ∀ s, (machine env).Reachable s → J s) (h0 : I (subscribedState env))
    (hstep : ∀ s l t, J s → I s → C s l → Step env s l t → I t) {s : State}
    (h : (machine env).ReachableIf C s) : I s := by
  refine Machine.ReachableIf.invariant_with hJ (fun s hs => ?_) (fun s l t hj hi hc ht => ?_) h
  · have hs' : s = subscribedState env := hs
    rw [hs']
    exact h0
  · exact hstep s l t hj hi hc (step_cases ht)

end OffChainWorker.Monitor
