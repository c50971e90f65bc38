/-
  What a running worker gives to its node.

  The worker is the runtime thread over `CosmosSdkChain`, with any number of callers, the event
  monitor at its side and a node that may answer anything.  Its node keeps a log of the calls
  (`Env.logged`), which changes nothing else (`loggedWorker_maps`).  The invariant is that the log
  is a piece for each request handed to `send_msgs`, in order, and that each piece is a run of one
  `send_msgs` (`MsgsRun`).  So what holds of one `send_msgs` holds of every run of the worker,
  whatever its callers, its monitor and its node do.
-/
import Mathlib.Data.List.Flatten
import OffChainWorker.Chain.MsgsRun
import OffChainWorker.Chain.Worker

namespace OffChainWorker.Worker

open Proc
open OffChainWorker.Cosmos
open OffChainWorker.Runtime (CallId)

variable {N : Type}

/-! ## The worker -/

/-- `CosmosSdkChain` as the runtime sees it. -/
def chainOps (env : Cosmos.Env N) : Ops (ChainState N) where
  sendMsgs := sendMsgs env
  shutdown _ := .ok ()

/-- A worker whose chain was just set up; nothing is cached. -/
def worker (menv : Monitor.Env) (env : Cosmos.Env N) (node : N) :
    Machine (State (ChainState N)) Runtime.Label :=
  machine menv (chainOps env) ⟨none, node⟩

/-- The worker whose node keeps a log. -/
def loggedWorker (menv : Monitor.Env) (env : Cosmos.Env N) (node : N) :
    Machine (State (ChainState (N × List NodeCall))) Runtime.Label :=
  machine menv (chainOps env.logged) ⟨none, (node, [])⟩

/-- The calls that the node has answered. -/
def State.log (s : State (ChainState (N × List NodeCall))) : List NodeCall :=
  s.runtime.chain.node.2

/-- The messages that a call asks to send. -/
def askedMsgs {C : Type} (r : Runtime.State C) (id : CallId) : List Any :=
  match asked (r.calls id) with
  | some (.sendMsgs protoMsgs) => protoMsgs
  | _ => []

/-- **Refinement**: the worker reaches what the one with the log reaches, without the log. -/
theorem loggedWorker_maps (menv : Monitor.Env) (env : Cosmos.Env N) (node : N) :
    Machine.Maps (State.mapChain unlog) (loggedWorker menv env node) (worker menv env node) :=
  have hshutdown : ∀ c, (chainOps env).shutdown (unlog c) = (chainOps env.logged).shutdown c :=
    fun _ => rfl
  machine_maps menv (maps_sendMsgs env) hshutdown (startLog ⟨none, node⟩)

variable {menv : Monitor.Env} {env : Cosmos.Env N} {node : N}
  {s t : State (ChainState (N × List NodeCall))}

/-! ## The log -/

/-- A request that was handed to `send_msgs`, with the calls it has made of the node. -/
structure ServedRun (env : Cosmos.Env N) (v : Served) (calls : List NodeCall) : Prop where
  run : MsgsRun env v.protoMsgs calls v.out
  harm : GasInRange env → ∀ cached, v.out ≠ .panic ↔ Harmless env cached calls

/-- The log is a piece for each of these requests. -/
def Logged (env : Cosmos.Env N) (s : State (ChainState (N × List NodeCall))) : Prop :=
  ∃ pieces, s.log = List.flatten pieces ∧ List.Forall₂ (ServedRun env) s.served pieces

/-- One `send_msgs` adds its piece. -/
theorem sendMsgs_served (env : Cosmos.Env N) (id : CallId) (protoMsgs : List Any)
    (chain : ChainState (N × List NodeCall)) :
    ∃ calls, (sendMsgs env.logged protoMsgs chain).2.node.2 = chain.node.2 ++ calls ∧
      ServedRun env ⟨id, protoMsgs, (sendMsgs env.logged protoMsgs chain).1⟩ calls := by
  obtain ⟨calls, hlog, hrun⟩ := sendMsgs_run env protoMsgs chain
  refine ⟨calls, hlog, hrun, fun hrange => ?_⟩
  obtain ⟨calls', hlog', hharm⟩ := panicsOnHarm_sendMsgs hrange protoMsgs chain
  obtain rfl : calls = calls' := List.append_cancel_left (hlog.symm.trans hlog')
  exact hharm

/-- **Frame.**  No other step of the runtime touches the chain. -/
theorem chain_other {C : Type} {ops : Ops C} {r r' : Runtime.State C} {l : Runtime.Label}
    (hother : msgsRequest r.pc l = none) (h : Runtime.Step menv ops.others r l r') :
    r'.chain = r.chain := by
  cases h with
  | sendMsgs hpc =>
    rw [hpc] at hother
    cases hother
  | _ => rfl

theorem chain_afterMsgs {C : Type} (s : State C) (id : CallId) (protoMsgs : List Any) (chain : C)
    (out : Outcome Kind (List Event)) : (s.afterMsgs id protoMsgs chain out).chain = chain := by
  cases out <;> rfl

section
variable {P : Served → List NodeCall → Prop}
  (hserve : ∀ id protoMsgs (chain : ChainState (N × List NodeCall)), ∃ calls,
    (sendMsgs env.logged protoMsgs chain).2.node.2 = chain.node.2 ++ calls ∧
      P ⟨id, protoMsgs, (sendMsgs env.logged protoMsgs chain).1⟩ calls)
include hserve

/-- **Step lemma.**  A request that is served adds its piece, and nothing else adds to the log. -/
theorem pieces_step {l : Runtime.Label}
    (h : ∃ pieces, s.log = List.flatten pieces ∧ List.Forall₂ P s.served pieces)
    (hstep : Step menv (chainOps env.logged) s l t) :
    ∃ pieces, t.log = List.flatten pieces ∧ List.Forall₂ P t.served pieces := by
  obtain ⟨pieces, hlog, hpieces⟩ := h
  cases hstep with
  | @msgs id protoMsgs hpc =>
    obtain ⟨calls, hcalls, hserved⟩ := hserve id protoMsgs s.runtime.chain
    refine ⟨pieces ++ [calls], ?_, List.rel_append hpieces (.cons hserved .nil)⟩
    show (s.afterMsgs id protoMsgs (sendMsgs env.logged protoMsgs s.runtime.chain).2
      (sendMsgs env.logged protoMsgs s.runtime.chain).1).chain.node.2 = _
    rw [chain_afterMsgs, hcalls, List.flatten_append, ← hlog]
    simp [State.log]
  | runtime hother h =>
    refine ⟨pieces, ?_, hpieces⟩
    unfold State.log
    rw [chain_other hother h]
    exact hlog

/-- **Run lemma.**  What every `send_msgs` makes true of its calls is true of the pieces of the
    log. -/
theorem pieces_reachable (h : (loggedWorker menv env node).Reachable s) :
    ∃ pieces, s.log = List.flatten pieces ∧ List.Forall₂ P s.served pieces :=
  reachable_invariant ⟨[], rfl, .nil⟩ (fun _ _ _ => pieces_step hserve) h

end

theorem logged_reachable (h : (loggedWorker menv env node).Reachable s) : Logged env s :=
  pieces_reachable (sendMsgs_served env) h

/-! ## What the pieces come to -/

/-- The messages broadcast so far are some of those of the requests, in the same order. -/
theorem served_broadcasts {served : List Served} {pieces : List (List NodeCall)}
    (h : List.Forall₂ (ServedRun env) served pieces) :
    ∃ sent, BroadcastBatches env pieces.flatten sent ∧
      sent.flatten.Sublist (served.flatMap Served.protoMsgs) := by
  induction h with
  | nil => exact ⟨[], broadcastBatches_nil, List.Sublist.refl _⟩
  | @cons v calls served pieces hv _ ih =>
    obtain ⟨sent, hsent, hsub⟩ := ih
    obtain ⟨front, hfront, hfirst, -⟩ := hv.run.broadcasts
    have hmsgs : front.flatten.Sublist v.protoMsgs := by
      have hwhole : (batches env v.protoMsgs).flatten = v.protoMsgs := flatten_cut v.protoMsgs
      rw [← hwhole]
      exact hfirst.sublist.flatten
    refine ⟨front ++ sent, hfront.append hsent, ?_⟩
    rw [List.flatten_append, List.flatMap_cons]
    exact hmsgs.append hsub

/-- The log is harmless iff nothing has panicked. -/
theorem served_harmless (hrange : GasInRange env) {served : List Served}
    {pieces : List (List NodeCall)} (h : List.Forall₂ (ServedRun env) served pieces)
    (cached : Option BaseAccount) :
    Harmless env cached pieces.flatten ↔ ∀ v ∈ served, v.out ≠ .panic := by
  induction h generalizing cached with
  | nil => exact iff_of_true trivial (List.forall_mem_nil _)
  | cons hv _ ih =>
    rw [List.flatten_cons, harmless_append, ← hv.harm hrange cached, ih, List.forall_mem_cons]

theorem served_signed {served : List Served} {pieces : List (List NodeCall)}
    (h : List.Forall₂ (ServedRun env) served pieces) :
    ∀ calls ∈ pieces, ∀ last, SignedForLatest env last calls := by
  induction h with
  | nil => exact fun calls hcalls => absurd hcalls List.not_mem_nil
  | cons hv _ ih => exact List.forall_mem_cons.mpr ⟨hv.run.signedForLatest, ih⟩

/-- And a request that panicked is one that had a harmful answer. -/
theorem served_harmful (hrange : GasInRange env) {served : List Served}
    {pieces : List (List NodeCall)} (h : List.Forall₂ (ServedRun env) served pieces)
    (cached : Option BaseAccount) :
    (∃ v ∈ served, v.out = .panic) ↔ ¬ Harmless env cached pieces.flatten := by
  rw [served_harmless hrange h cached]
  constructor
  · rintro ⟨v, hv, hpanic⟩ hall
    exact hall v hv hpanic
  · intro hall
    by_contra hnone
    exact hall fun v hv hpanic => hnone ⟨v, hv, hpanic⟩

/-- The piece of a request stands in the log as a whole. -/
theorem served_piece {served : List Served} {pieces : List (List NodeCall)}
    (h : List.Forall₂ (ServedRun env) served pieces) {v : Served} (hv : v ∈ served) :
    ∃ before calls after, pieces.flatten = before ++ calls ++ after ∧ ServedRun env v calls := by
  induction h with
  | nil => exact absurd hv List.not_mem_nil
  | @cons w piece served pieces hw _ ih =>
    rcases List.mem_cons.mp hv with rfl | hv
    · exact ⟨[], piece, pieces.flatten, rfl, hw⟩
    · obtain ⟨before, calls, after, hflatten, hcalls⟩ := ih hv
      refine ⟨piece ++ before, calls, after, ?_, hcalls⟩
      rw [List.flatten_cons, hflatten]
      simp

/-- The messages of the requests are those that their callers asked for. -/
theorem Thread.msgs_asked {C : Type} {s : State C} (ht : Thread s) :
    s.served.flatMap Served.protoMsgs =
      (s.served.map Served.id).flatMap (askedMsgs s.runtime) := by
  rw [List.flatMap_map]
  refine List.flatMap_congr fun v hv => ?_
  rw [askedMsgs, ht.asked v hv]

/-- A call that was executed is one of the requests. -/
theorem Thread.served_of_executed {C : Type} {s : State C} (ht : Thread s) {id : CallId}
    {protoMsgs : List Any} {events : List Event}
    (h : ⟨id, .sendMsgs protoMsgs, .sendMsgs (.ok events)⟩ ∈ s.runtime.history.executed) :
    ⟨id, protoMsgs, .ok events⟩ ∈ s.served := by
  have hmem : ⟨id, .sendMsgs protoMsgs, .sendMsgs (.ok events)⟩ ∈
      s.served.filterMap Served.execution := by
    rw [ht.executed]
    exact List.mem_filter.mpr ⟨h, rfl⟩
  obtain ⟨v, hv, hexec⟩ := List.mem_filterMap.mp hmem
  obtain ⟨id', protoMsgs', out⟩ := v
  cases out with
  | ok events' =>
    cases hexec
    exact hv
  | err kind => cases hexec
  | panic => cases hexec

/-- The batches that were broadcast, in order. -/
theorem broadcasts_reachable (h : (loggedWorker menv env node).Reachable s) :
    ∃ sent, BroadcastBatches env s.log sent ∧
      sent.flatten.Sublist (s.runtime.history.sent.flatMap (askedMsgs s.runtime)) := by
  have hi := inv_reachable h
  have ht := thread_reachable h
  obtain ⟨pieces, hlog, hpieces⟩ := logged_reachable h
  obtain ⟨sent, hsent, hsub⟩ := served_broadcasts hpieces
  rw [← hlog] at hsent
  refine ⟨sent, hsent, hsub.trans ?_⟩
  rw [ht.msgs_asked]
  exact (ht.order.trans hi.order.taken).flatMap _

/-- Every broadcast is signed for the account that was answered last. -/
theorem signed_reachable (h : (loggedWorker menv env node).Reachable s) :
    SignedForLatest env none s.log := by
  obtain ⟨pieces, hlog, hpieces⟩ := logged_reachable h
  rw [hlog]
  exact signedForLatest_flatten (served_signed hpieces) none

/-! ## Headlines -/

/-- **Headline.**  In every run of the worker, the messages of the broadcast transactions are, in
    order, messages of the calls in the order of the calls, none twice; and a call that has returned
    events has had all its batches broadcast, with no other broadcast in between. -/
theorem delivers_in_order (menv : Monitor.Env) (env : Cosmos.Env N) (node : N)
    {s : State (ChainState (N × List NodeCall))}
    (h : (loggedWorker menv env node).Reachable s) :
    (∃ sent, BroadcastBatches env s.log sent ∧
      sent.flatten.Sublist (s.runtime.history.sent.flatMap (askedMsgs s.runtime))) ∧
    s.runtime.history.sent.Nodup ∧
    ∀ id protoMsgs events,
      s.runtime.calls id = .done (.sendMsgs protoMsgs) (.sendMsgs (.ok events)) →
        ∃ before calls after, s.log = before ++ calls ++ after ∧
          BroadcastBatches env calls (batches env protoMsgs) ∧
          (batches env protoMsgs).flatten = protoMsgs := by
  have hi := inv_reachable h
  have ht := thread_reachable h
  obtain ⟨pieces, hlog, hpieces⟩ := logged_reachable h
  refine ⟨broadcasts_reachable h, hi.order.nodup, fun id protoMsgs events hdone => ?_⟩
  · have hexecuted : ⟨id, .sendMsgs protoMsgs, .sendMsgs (.ok events)⟩ ∈
        s.runtime.history.executed := by
      rcases hi.settled.done id _ _ hdone with hmem | ⟨-, hlost⟩
      · exact hmem
      · cases hlost
    obtain ⟨before, calls, after, hflatten, hserved⟩ :=
      served_piece hpieces (ht.served_of_executed hexecuted)
    obtain ⟨front, hfront, -, hall⟩ := hserved.run.broadcasts
    rw [hall events rfl] at hfront
    exact ⟨before, calls, after, hlog.trans hflatten, hfront, flatten_cut protoMsgs⟩

/-- A node that refuses every transaction, so that nothing is waited for. -/
def refusingNode : Node (List Bytes) :=
  { commitNode with broadcastTxSync := fun data n => (.ok ⟨.err 5, "", data.take 2⟩, n) }

/-- Two messages are sent, in two transactions, and their caller gets the result. -/
def sendRun : List Runtime.Label :=
  [.call 0 (.sendMsgs demoMsgs), .takeRequest, .serve, .reply, .receive 0]

/-- Whether a call for these messages has returned events. -/
def hasSent (protoMsgs : List Any) : Runtime.CallStatus → Bool
  | .done (.sendMsgs asked) (.sendMsgs (.ok _)) => decide (asked = protoMsgs)
  | _ => false

theorem hasSent_done {protoMsgs : List Any} {status : Runtime.CallStatus}
    (h : hasSent protoMsgs status = true) :
    ∃ events, status = .done (.sendMsgs protoMsgs) (.sendMsgs (.ok events)) := by
  unfold hasSent at h
  split at h
  · obtain rfl := of_decide_eq_true h
    exact ⟨_, rfl⟩
  · cases h

theorem delivers_in_order_two :
    ∃ s, (loggedWorker Monitor.demoEnv (demoEnv refusingNode) []).exec
        (initialState Monitor.demoEnv ⟨none, ([], [])⟩) sendRun = some s ∧
      ∃ before calls after, s.log = before ++ calls ++ after ∧
        BroadcastBatches (demoEnv refusingNode) calls
          (batches (demoEnv refusingNode) demoMsgs) := by
  have hrun : ((loggedWorker Monitor.demoEnv (demoEnv refusingNode) []).exec
      (initialState Monitor.demoEnv ⟨none, ([], [])⟩) sendRun).any (fun s =>
        hasSent demoMsgs (s.runtime.calls 0)) = true := by
    decide +kernel
  obtain ⟨s, hs, hcall⟩ := (Option.any_eq_true _ _).mp hrun
  have hreached := Machine.exec_reachable (.init rfl) hs
  obtain ⟨-, -, hcalls⟩ := delivers_in_order Monitor.demoEnv (demoEnv refusingNode) [] hreached
  obtain ⟨events, hdone⟩ := hasSent_done hcall
  obtain ⟨before, calls, after, hlog, hsent, -⟩ := hcalls 0 demoMsgs events hdone
  exact ⟨s, hs, before, calls, after, hlog, hsent⟩

/-- **Headline.**  With the gas and fee arithmetic in range, the thread of the worker has panicked
    iff some answer of the node was harmful. -/
theorem worker_panics_iff (menv : Monitor.Env) (env : Cosmos.Env N) (node : N)
    (hrange : GasInRange env) {s : State (ChainState (N × List NodeCall))}
    (h : (loggedWorker menv env node).Reachable s) :
    s.Panicked ↔ ¬ Harmless env none s.log := by
  obtain ⟨pieces, hlog, hpieces⟩ := logged_reachable h
  rw [hlog]
  exact served_harmful hrange hpieces none

/-- A missing account brings the thread down while its caller waits. -/
theorem worker_panics_absent :
    ∃ s, (loggedWorker Monitor.demoEnv (demoEnv absentNode) []).exec
        (initialState Monitor.demoEnv ⟨none, ([], [])⟩)
        [.call 0 (.sendMsgs demoMsgs), .takeRequest, .serve] = some s ∧
      ¬ Harmless (demoEnv absentNode) none s.log := by
  have hrun : ((loggedWorker Monitor.demoEnv (demoEnv absentNode) []).exec
      (initialState Monitor.demoEnv ⟨none, ([], [])⟩)
      [.call 0 (.sendMsgs demoMsgs), .takeRequest, .serve]).any (fun s =>
        s.served.any fun v => match v.out with
          | .panic => true
          | _ => false) = true := by
    decide +kernel
  obtain ⟨s, hs, hserved⟩ := (Option.any_eq_true _ _).mp hrun
  refine ⟨s, hs, (worker_panics_iff Monitor.demoEnv (demoEnv absentNode) []
    (demoEnv_gasInRange absentNode) (Machine.exec_reachable (.init rfl) hs)).mp ?_⟩
  obtain ⟨v, hv, hout⟩ := List.any_eq_true.mp hserved
  refine ⟨v, hv, ?_⟩
  split at hout
  · assumption
  · cases hout

/-- **Headline.**  Every transaction that a worker ever broadcasts is signed by the configured key,
    for its chain, with the sequence and the number of the account that the node has answered with
    last, which was asked for since the broadcast before, and its gas is within the maximum. -/
theorem broadcasts_signed (menv : Monitor.Env) (env : Cosmos.Env N) (node : N)
    {s : State (ChainState (N × List NodeCall))}
    (h : (loggedWorker menv env node).Reachable s) :
    ∀ before c after, s.log = before ++ c :: after → c.isBroadcast = true →
      ∃ a msgBatch, before.foldl (NodeCall.freshAfter env) none = some a ∧
        BroadcastFor env a msgBatch c := by
  exact along_iff.mp (signed_reachable h)

/-- The first of the two transactions. -/
theorem broadcasts_signed_first :
    ∃ s before c after, (loggedWorker Monitor.demoEnv (demoEnv refusingNode) []).exec
        (initialState Monitor.demoEnv ⟨none, ([], [])⟩) sendRun = some s ∧
      s.log = before ++ c :: after ∧
      ∃ a msgBatch, before.foldl (NodeCall.freshAfter (demoEnv refusingNode)) none = some a ∧
        BroadcastFor (demoEnv refusingNode) a msgBatch c := by
  have hrun : ((loggedWorker Monitor.demoEnv (demoEnv refusingNode) []).exec
      (initialState Monitor.demoEnv ⟨none, ([], [])⟩) sendRun).any (fun s =>
        s.log.any NodeCall.isBroadcast) = true := by
    decide +kernel
  obtain ⟨s, hs, hlog⟩ := (Option.any_eq_true _ _).mp hrun
  obtain ⟨c, hc, hbroadcast⟩ := List.any_eq_true.mp hlog
  obtain ⟨before, after, hsplit⟩ := List.append_of_mem hc
  exact ⟨s, before, c, after, hs, hsplit, broadcasts_signed Monitor.demoEnv
    (demoEnv refusingNode) [] (Machine.exec_reachable (.init rfl) hs) before c after hsplit
    hbroadcast⟩

end OffChainWorker.Worker
