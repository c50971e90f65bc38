/-
  The chain runtime and its handles (`src/chain/runtime.rs`, `src/chain/handle/prod.rs`).

  Any number of callers, each on a clone of `ProdChainHandle`, make a one-slot reply channel,
  enqueue a request with its sender and wait on its receiver.  The runtime thread selects between
  the event batches of the monitor and the requests, and works on one request at a time.  A call is
  named by a fresh number, which is also the name of its reply channel: the runtime holds the sender
  of `replies id` exactly while the request of call `id` is queued or being served.

  The monitor thread is the machine of `Monitor`, embedded as it is: the runtime holds the receiver
  of its batches and the sender of its commands, so `sendCmd` and `dropBatchReceiver` are steps of
  the runtime here.  The chain is any type with operations that return a result.
-/
import OffChainWorker.Error
import OffChainWorker.Lib.Channel
import OffChainWorker.Lib.Outcome
import OffChainWorker.Prost
import OffChainWorker.Subscribe.Monitor

namespace OffChainWorker.Runtime

open Proc

/-! ## Data -/

/-- What the runtime needs of `trait Chain`; an operation may change the chain's state. -/
structure Chain (C : Type) where
  sendMsgs : C → List Any → Except Kind (List Event) × C
  shutdown : C → Except Kind Unit

abbrev CallId := Nat

inductive ChainRequest where
  | shutdown (replyTo : CallId)
  | sendMsgs (protoMsgs : List Any) (replyTo : CallId)
  | subscribe (replyTo : CallId)
deriving Repr, DecidableEq

def ChainRequest.replyTo : ChainRequest → CallId
  | .shutdown id => id
  | .sendMsgs _ id => id
  | .subscribe id => id

/-- The calls of `ProdChainHandle` that send a request. -/
inductive Call where
  | shutdown
  | sendMsgs (protoMsgs : List Any)
deriving Repr, DecidableEq

/-- The closure handed to `ProdChainHandle::send`. -/
def Call.request : Call → CallId → ChainRequest
  | .shutdown, id => .shutdown id
  | .sendMsgs protoMsgs, id => .sendMsgs protoMsgs id

/-- A result of a call, also what travels on its reply channel. -/
inductive Reply where
  | shutdown (res : Except Kind Unit)
  | sendMsgs (res : Except Kind (List Event))

/-- What a call returns when one of its channels fails. -/
def Call.channelError : Call → Reply
  | .shutdown => .shutdown (.error .channel)
  | .sendMsgs _ => .sendMsgs (.error .channel)

inductive CallStatus where
  | idle
  /-- The request was sent and the caller waits for the reply. -/
  | waiting (call : Call)
  | done (call : Call) (out : Reply)

/-- A call of `chain.shutdown` or `chain.send_msgs` by the runtime: for which call, and what it
    returned. -/
structure Execution where
  id : CallId
  call : Call
  out : Reply

/-- The control points of the runtime thread. -/
inductive Pc where
  /-- `run` waits in `select!`. -/
  | select
  /-- A request was dequeued. -/
  | serving (req : ChainRequest)
  /-- The monitor has been told to shut down; `chain.shutdown()` comes next. -/
  | commanded (replyTo : CallId)
  /-- The chain has answered; after `last` the loop is left. -/
  | replying (replyTo : CallId) (out : Reply) (last : Bool)
  /-- `run` has returned, or a panic has unwound the thread. -/
  | exited (res : Outcome Kind Unit)

/-- The sender of a reply channel that the runtime has in hand. -/
def Pc.held : Pc → List CallId
  | .serving req => [req.replyTo]
  | .commanded id => [id]
  | .replying id _ _ => [id]
  | _ => []

def Pc.running : Pc → Bool
  | .exited _ => false
  | _ => true

/-- Records that no transition reads: the calls whose request was enqueued, the requests that were
    dequeued, and the executions, each in order. -/
structure History where
  sent : List CallId
  taken : List ChainRequest
  executed : List Execution

structure State (C : Type) where
  chain : C
  pc : Pc
  requests : Chan ChainRequest
  replies : CallId → Chan Reply
  calls : CallId → CallStatus
  monitor : Monitor.State
  /-- The number of messages of the monitor that the runtime has received. -/
  eventsTaken : Nat
  history : History

/-- The calls that were executed. -/
def History.executedIds (h : History) : List CallId := h.executed.map Execution.id

/-- The monitor thread has ended, and its ends of the channels are dropped. -/
def monitorDead (m : Monitor.State) : Bool :=
  match m.pc with
  | .returned => true
  | .panicked => true
  | _ => false

namespace State

variable {C : Type} (s : State C)

/-- The reply senders that the runtime holds. -/
def holders : List CallId := s.pc.held ++ s.requests.queue.map ChainRequest.replyTo

/-! ## What the pieces of the runtime and of a handle do -/

/-- The thread ends: the runtime is dropped, and with it every reply sender it still holds. -/
def exit (res : Outcome Kind Unit) : State C :=
  { s with
    pc := .exited res
    requests := s.requests.dropRx
    replies := fun id => if id ∈ s.holders then (s.replies id).dropTx else s.replies id
    monitor := { s.monitor with rxBatch := false } }

/-- `ProdChainHandle::send` up to the wait for the reply, when the request was sent. -/
def enqueued (id : CallId) (call : Call) (requests : Chan ChainRequest) : State C :=
  { s with
    requests := requests
    replies := Function.update s.replies id (Chan.bounded 1)
    calls := Function.update s.calls id (.waiting call)
    history := { s.history with sent := s.history.sent ++ [id] } }

/-- A call returns. -/
def finish (id : CallId) (call : Call) (out : Reply) : State C :=
  { s with calls := Function.update s.calls id (.done call out) }

/-- The select takes a request. -/
def take (req : ChainRequest) (requests : Chan ChainRequest) : State C :=
  { s with
    pc := .serving req
    requests := requests
    history := { s.history with taken := s.history.taken ++ [req] } }

/-- `tx_monitor_cmd.send(MonitorCmd::Shutdown)` succeeds. -/
def command (id : CallId) : State C :=
  { s with
    pc := .commanded id
    monitor := { s.monitor with rxCmd := s.monitor.rxCmd ++ [.shutdown] } }

/-- The chain has executed a call. -/
def execute (id : CallId) (call : Call) (out : Reply) (chain : C) (last : Bool) : State C :=
  { s with
    chain := chain
    pc := .replying id out last
    history := { s.history with executed := s.history.executed ++ [⟨id, call, out⟩] } }

/-- The branch of `select!` is over: its reply sender is dropped, with the channel come to
    `reply`. -/
def branchDone (id : CallId) (reply : Chan Reply) : State C :=
  { s with
    pc := .select
    replies := Function.update s.replies id reply.dropTx }

/-- The waiting caller has taken what its reply channel had, and drops the receiver. -/
def received (id : CallId) (call : Call) (out : Reply) (reply : Chan Reply) : State C :=
  { s with
    replies := Function.update s.replies id reply.dropRx
    calls := Function.update s.calls id (.done call out) }

end State

/-! ## The machine -/

inductive Label where
  /-- A caller starts call `id`. -/
  | call (id : CallId) (call : Call)
  /-- The select takes an event batch. -/
  | takeEvent
  /-- The select finds the event channel disconnected. -/
  | eventsGone
  /-- The select takes a request. -/
  | takeRequest
  /-- The branch of the dequeued request runs up to the next channel or chain operation. -/
  | serve
  /-- `chain.shutdown()`. -/
  | shutdownChain
  /-- `reply_to.send(..)`. -/
  | reply
  /-- The caller of `id` gets its reply or finds the channel disconnected. -/
  | receive (id : CallId)
  /-- The monitor thread or its surroundings move. -/
  | monitor (l : Monitor.Label)

/-- The steps of the monitor that the runtime does not take itself. -/
def ownStep : Monitor.Label → Bool
  | .sendCmd => false
  | .dropBatchReceiver => false
  | _ => true

variable {C : Type}

/-- The executable model. -/
def step (env : Monitor.Env) (ops : Chain C) (s : State C) : Label → Option (State C)
  | .call id call =>
    match s.calls id with
    | .idle =>
      match s.requests.send (call.request id) with
      | .sent requests => some (s.enqueued id call requests)
      | .full => none
      | .disconnected => some (s.finish id call call.channelError)
    | _ => none
  | .takeEvent =>
    match s.pc with
    | .select =>
      if s.eventsTaken < s.monitor.txBatch.length then
        some { s with eventsTaken := s.eventsTaken + 1 }
      else none
    | _ => none
  | .eventsGone =>
    match s.pc with
    | .select =>
      if monitorDead s.monitor ∧ s.eventsTaken = s.monitor.txBatch.length then
        some (s.exit (.err .channel))
      else none
    | _ => none
  | .takeRequest =>
    match s.pc, s.requests.recv with
    | .select, .received req requests => some (s.take req requests)
    -- logged only; cannot come up, since the runtime holds a sender itself
    | .select, .disconnected => some s
    | _, _ => none
  | .serve =>
    match s.pc with
    | .serving (.shutdown id) =>
      if monitorDead s.monitor then some (s.exit (.err .channel)) else some (s.command id)
    | .serving (.sendMsgs protoMsgs id) =>
      let r := ops.sendMsgs s.chain protoMsgs
      some (s.execute id (.sendMsgs protoMsgs) (.sendMsgs r.1) r.2 false)
    | .serving (.subscribe id) => some (s.branchDone id (s.replies id))
    | _ => none
  | .shutdownChain =>
    match s.pc with
    | .commanded id =>
      some (s.execute id .shutdown (.shutdown (ops.shutdown s.chain)) s.chain true)
    | _ => none
  | .reply =>
    match s.pc with
    | .replying id out last =>
      match (s.replies id).send out with
      | .sent reply =>
        if last then some ((s.branchDone id reply).exit (.ok ())) else some (s.branchDone id reply)
      | .full => none
      | .disconnected => some (s.exit (.err .channel))
    | _ => none
  | .receive id =>
    match s.calls id with
    | .waiting call =>
      match (s.replies id).recv with
      | .received out reply => some (s.received id call out reply)
      | .empty => none
      | .disconnected => some (s.received id call call.channelError (s.replies id))
    | _ => none
  | .monitor l =>
    if ownStep l then (Monitor.step env s.monitor l).map fun m => { s with monitor := m } else none

/-- A runtime with its handles and the monitor right after its successful `subscribe`. -/
def initialState (env : Monitor.Env) (chain : C) : State C where
  chain := chain
  pc := .select
  requests := Chan.unbounded
  replies := fun _ => Chan.bounded 1
  calls := fun _ => .idle
  monitor := Monitor.subscribedState env
  eventsTaken := 0
  history := ⟨[], [], []⟩

/-- `ChainRuntime::run` started with the chain in a given state. -/
def machine (env : Monitor.Env) (ops : Chain C) (chain : C) : Machine (State C) Label where
  init s := s = initialState env chain
  step := step env ops

/-! ## What a step can do -/

/-- The transitions of `step`, one constructor each. -/
inductive Step (env : Monitor.Env) (ops : Chain C) (s : State C) : Label → State C → Prop where
  | call {id call requests} (hidle : s.calls id = .idle)
      (hsend : s.requests.send (call.request id) = .sent requests) :
      Step env ops s (.call id call) (s.enqueued id call requests)
  | refused {id call} (hidle : s.calls id = .idle)
      (hsend : s.requests.send (call.request id) = .disconnected) :
      Step env ops s (.call id call) (s.finish id call call.channelError)
  | takeEvent (hpc : s.pc = .select) (hlt : s.eventsTaken < s.monitor.txBatch.length) :
      Step env ops s .takeEvent { s with eventsTaken := s.eventsTaken + 1 }
  | eventsGone (hpc : s.pc = .select) (hdead : monitorDead s.monitor = true) :
      Step env ops s .eventsGone (s.exit (.err .channel))
  | takeRequest {req requests} (hpc : s.pc = .select)
      (hrecv : s.requests.recv = .received req requests) :
      Step env ops s .takeRequest (s.take req requests)
  | noSender (hpc : s.pc = .select) (hrecv : s.requests.recv = .disconnected) :
      Step env ops s .takeRequest s
  | command {id} (hpc : s.pc = .serving (.shutdown id)) (halive : monitorDead s.monitor = false) :
      Step env ops s .serve (s.command id)
  | noMonitor {id} (hpc : s.pc = .serving (.shutdown id)) (hdead : monitorDead s.monitor = true) :
      Step env ops s .serve (s.exit (.err .channel))
  | sendMsgs {protoMsgs id} (hpc : s.pc = .serving (.sendMsgs protoMsgs id)) :
      Step env ops s .serve
        (s.execute id (.sendMsgs protoMsgs) (.sendMsgs (ops.sendMsgs s.chain protoMsgs).1)
          (ops.sendMsgs s.chain protoMsgs).2 false)
  | subscribe {id} (hpc : s.pc = .serving (.subscribe id)) :
      Step env ops s .serve (s.branchDone id (s.replies id))
  | shutdownChain {id} (hpc : s.pc = .commanded id) :
      Step env ops s .shutdownChain
        (s.execute id .shutdown (.shutdown (ops.shutdown s.chain)) s.chain true)
  | reply {id out reply} (hpc : s.pc = .replying id out false)
      (hsend : (s.replies id).send out = .sent reply) :
      Step env ops s .reply (s.branchDone id reply)
  | lastReply {id out reply} (hpc : s.pc = .replying id out true)
      (hsend : (s.replies id).send out = .sent reply) :
      Step env ops s .reply ((s.branchDone id reply).exit (.ok ()))
  | noCaller {id out last} (hpc : s.pc = .replying id out last)
      (hsend : (s.replies id).send out = .disconnected) :
      Step env ops s .reply (s.exit (.err .channel))
  | receive {id call out reply} (hwait : s.calls id = .waiting call)
      (hrecv : (s.replies id).recv = .received out reply) :
      Step env ops s (.receive id) (s.received id call out reply)
  | lost {id call} (hwait : s.calls id = .waiting call)
      (hrecv : (s.replies id).recv = .disconnected) :
      Step env ops s (.receive id) (s.received id call call.channelError (s.replies id))
  | monitor {l m} (hown : ownStep l = true) (hstep : Monitor.step env s.monitor l = some m) :
      Step env ops s (.monitor l) { s with monitor := m }

/-- Every step of the model is one of the listed transitions. -/
theorem step_cases {env : Monitor.Env} {ops : Chain C} {s t : State C} {l : Label}
    (h : step env ops s l = some t) : Step env ops s l t := by
  cases l with
  | call id call =>
    simp only [step] at h
    split at h
    · rename_i hidle
      split at h
      · rename_i hsend
        obtain rfl := Option.some.inj h
        exact .call hidle hsend
      · nomatch h
      · rename_i hsend
        obtain rfl := Option.some.inj h
        exact .refused hidle hsend
    · nomatch h
  | takeEvent =>
    simp only [step] at h
    split at h
    · rename_i hpc
      obtain ⟨hlt, h⟩ := Option.ite_none_right_eq_some.mp h
      obtain rfl := Option.some.inj h
      exact .takeEvent hpc hlt
    · nomatch h
  | eventsGone =>
    simp only [step] at h
    split at h
    · rename_i hpc
      obtain ⟨hgone, h⟩ := Option.ite_none_right_eq_some.mp h
      obtain rfl := Option.some.inj h
      exact .eventsGone hpc hgone.1
    · nomatch h
  | takeRequest =>
    simp only [step] at h
    split at h
    · rename_i hpc hrecv
      obtain rfl := Option.some.inj h
      exact .takeRequest hpc hrecv
    · rename_i hpc hrecv
      obtain rfl := Option.some.inj h
      exact .noSender hpc hrecv
    · nomatch h
  | serve =>
    simp only [step] at h
    split at h
    · rename_i hpc
      split at h
      · rename_i hdead
        obtain rfl := Option.some.inj h
        exact .noMonitor hpc hdead
      · rename_i hdead
        obtain rfl := Option.some.inj h
        exact .command hpc (Bool.eq_false_iff.mpr hdead)
    · rename_i hpc
      obtain rfl := Option.some.inj h
      exact .sendMsgs hpc
    · rename_i hpc
      obtain rfl := Option.some.inj h
      exact .subscribe hpc
    · nomatch h
  | shutdownChain =>
    simp only [step] at h
    split at h
    · rename_i hpc
      obtain rfl := Option.some.inj h
      exact .shutdownChain hpc
    · nomatch h
  | reply =>
    simp only [step] at h
    split at h
    · rename_i id out last hpc
      split at h
      · rename_i hsend
        cases last with
        | true =>
          obtain rfl := Option.some.inj h
          exact .lastReply hpc hsend
        | false =>
          obtain rfl := Option.some.inj h
          exact .reply hpc hsend
      · nomatch h
      · rename_i hsend
        obtain rfl := Option.some.inj h
        exact .noCaller hpc hsend
    · nomatch h
  | receive id =>
    simp only [step] at h
    split at h
    · rename_i hwait
      split at h
      · rename_i hrecv
        obtain rfl := Option.some.inj h
        exact .receive hwait hrecv
      · nomatch h
      · rename_i hrecv
        obtain rfl := Option.some.inj h
        exact .lost hwait hrecv
    · nomatch h
  | monitor l =>
    obtain ⟨hown, h⟩ := Option.ite_none_right_eq_some.mp h
    obtain ⟨m, hm, rfl⟩ := Option.map_eq_some_iff.mp h
    exact .monitor hown hm

/-- The invariant rule of the runtime for runs whose steps meet `D`, with an invariant `J` of all
    runs. -/
theorem reachableIf_invariant {env : Monitor.Env} {ops : Chain C} {chain : C}
    {D : State C → Label → Prop} {J I : State C → Prop}
    (hJ : ∀ s, (machine env ops chain).Reachable s → J s) (h0 : I (initialState env chain))
    (hstep : ∀ s l t, J s → I s → D s l → Step env ops s l t → I t) {s : State C}
    (h : (machine env ops chain).ReachableIf D s) : I s := by
  refine Machine.ReachableIf.invariant_with hJ (fun s hs => ?_) (fun s l t hj hi hd ht => ?_) h
  · have hs' : s = initialState env chain := hs
    rw [hs']
    exact h0
  · exact hstep s l t hj hi hd (step_cases ht)

/-- The invariant rule of the runtime. -/
theorem reachable_invariant {env : Monitor.Env} {ops : Chain C} {chain : C} {I : State C → Prop}
    (h0 : I (initialState env chain)) (hstep : ∀ s l t, I s → Step env ops s l t → I t)
    {s : State C} (h : (machine env ops chain).Reachable s) : I s :=
  reachableIf_invariant (J := fun _ => True) (fun _ _ => trivial) h0
    (fun s l t _ hi _ hs => hstep s l t hi hs) h

/-! ## The monitor inside the runtime -/

/-- **Refinement**: whatever the runtime and the callers do, the monitor runs as `Monitor.machine`
    says; a step of the composed system is a step of the monitor or leaves it alone. -/
theorem monitor_reachable {env : Monitor.Env} {ops : Chain C} {chain : C} {s : State C}
    (h : (machine env ops chain).Reachable s) : (Monitor.machine env).Reachable s.monitor := by
  refine reachable_invariant (I := fun s => (Monitor.machine env).Reachable s.monitor)
    (.init rfl) (fun s l t hi hstep => ?_) h
  have hdrop : (Monitor.machine env).Reachable { s.monitor with rxBatch := false } :=
    hi.step (l := .dropBatchReceiver) rfl
  cases hstep with
  | eventsGone _ _ => exact hdrop
  | noMonitor _ _ => exact hdrop
  | lastReply _ _ => exact hdrop
  | noCaller _ _ => exact hdrop
  | command _ _ => exact hi.step (l := .sendCmd) rfl
  | monitor _ hm => exact hi.step hm
  | _ => exact hi

end OffChainWorker.Runtime
