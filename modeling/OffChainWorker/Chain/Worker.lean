/-
  The runtime thread over a chain that may panic.

  `CosmosSdkChain::send_msgs` does panic on some answers of the node, so `Runtime`, whose chain
  always returns a result, is not yet the worker that runs.  Here `send_msgs` comes to an `Outcome`.
  A panic unwinds the thread spawned by `ChainRuntime::init`, which drops what the runtime owns, as
  its return does, but answers nobody and calls nothing on the way; the thread is not restarted.
  Every other step is a step of `Runtime`.

  The runtime inside keeps the invariant `Runtime.Inv` (`inv_step`), and `Thread` says what the
  requests handed to `send_msgs` have to do with it: all but a panicked last one were executed.
-/
import OffChainWorker.Chain.RequestReply

namespace OffChainWorker.Worker

open Proc
open OffChainWorker.Runtime (CallId Call Reply ChainRequest Execution History Inv)

/-! ## Data -/

/-- What the runtime needs of `trait Chain`, when `send_msgs` may panic. -/
structure Ops (C : Type) where
  sendMsgs : List Any → Action C Kind (List Event)
  shutdown : C → Except Kind Unit

/-- The operations other than `send_msgs`, which is not called through these. -/
def Ops.others {C : Type} (ops : Ops C) : Runtime.Chain C where
  sendMsgs chain _ := (.error .channel, chain)
  shutdown := ops.shutdown

/-- A request that was handed to `send_msgs`, and what came of it. -/
structure Served where
  id : CallId
  protoMsgs : List Any
  out : Outcome Kind (List Event)

structure State (C : Type) where
  runtime : Runtime.State C
  /-- A record that no transition reads: the requests handed to `send_msgs`, in order. -/
  served : List Served

variable {C : Type}

/-- What a call asks for, once it has been made. -/
def asked : Runtime.CallStatus → Option Call
  | .idle => none
  | .waiting call => some call
  | .done call _ => some call

/-- An execution of `send_msgs`. -/
def isMsgs (e : Execution) : Bool :=
  match e.call with
  | .sendMsgs _ => true
  | .shutdown => false

/-- The execution that a caller hears of; there is none of a panic. -/
def Served.execution (v : Served) : Option Execution :=
  match v.out with
  | .ok events => some ⟨v.id, .sendMsgs v.protoMsgs, .sendMsgs (.ok events)⟩
  | .err kind => some ⟨v.id, .sendMsgs v.protoMsgs, .sendMsgs (.error kind)⟩
  | .panic => none

namespace State

variable (s : State C)

/-- The thread has panicked. -/
def Panicked : Prop := ∃ v ∈ s.served, v.out = .panic

/-- The runtime after `send_msgs`, which has left the chain in `chain`.  The unwound thread drops
    what it owns. -/
def afterMsgs (id : CallId) (protoMsgs : List Any) (chain : C) :
    Outcome Kind (List Event) → Runtime.State C
  | .ok events =>
    s.runtime.execute id (.sendMsgs protoMsgs) (.sendMsgs (.ok events)) chain false
  | .err kind =>
    s.runtime.execute id (.sendMsgs protoMsgs) (.sendMsgs (.error kind)) chain false
  | .panic => { s.runtime with chain := chain }.exit .panic

/-- `chain.send_msgs` is called and comes to `r`. -/
def serve (id : CallId) (protoMsgs : List Any) (r : Outcome Kind (List Event) × C) : State C where
  runtime := s.afterMsgs id protoMsgs r.2 r.1
  served := s.served ++ [⟨id, protoMsgs, r.1⟩]

end State

/-! ## The machine -/

/-- The request that `send_msgs` is about to be called for. -/
def msgsRequest (pc : Runtime.Pc) : Runtime.Label → Option (CallId × List Any)
  | .serve =>
    match pc with
    | .serving (.sendMsgs protoMsgs id) => some (id, protoMsgs)
    | _ => none
  | _ => none

/-- The executable model. -/
def step (env : Monitor.Env) (ops : Ops C) (s : State C) (l : Runtime.Label) : Option (State C) :=
  match msgsRequest s.runtime.pc l with
  | some (id, protoMsgs) => some (s.serve id protoMsgs (ops.sendMsgs protoMsgs s.runtime.chain))
  | none =>
    (Runtime.step env ops.others s.runtime l).map fun runtime => { s with runtime := runtime }

def initialState (env : Monitor.Env) (chain : C) : State C := ⟨Runtime.initialState env chain, []⟩

/-- `ChainRuntime::run` on the thread that `ChainRuntime::init` spawns. -/
def machine (env : Monitor.Env) (ops : Ops C) (chain : C) : Machine (State C) Runtime.Label where
  init s := s = initialState env chain
  step := step env ops

/-- The transitions of `step`. -/
inductive Step (env : Monitor.Env) (ops : Ops C) (s : State C) :
    Runtime.Label → State C → Prop where
  | msgs {id protoMsgs} (hpc : s.runtime.pc = .serving (.sendMsgs protoMsgs id)) :
      Step env ops s .serve (s.serve id protoMsgs (ops.sendMsgs protoMsgs s.runtime.chain))
  | runtime {l runtime} (hother : msgsRequest s.runtime.pc l = none)
      (h : Runtime.Step env ops.others s.runtime l runtime) :
      Step env ops s l { s with runtime := runtime }

theorem msgsRequest_eq_some {pc : Runtime.Pc} {l : Runtime.Label} {id : CallId}
    {protoMsgs : List Any} (h : msgsRequest pc l = some (id, protoMsgs)) :
    l = .serve ∧ pc = .serving (.sendMsgs protoMsgs id) := by
  unfold msgsRequest at h
  split at h
  · split at h
    · obtain ⟨rfl, rfl⟩ := Prod.mk.inj (Option.some.inj h)
      exact ⟨rfl, rfl⟩
    · cases h
  · cases h

/-- Every step of the model is one of the listed transitions. -/
theorem step_cases {env : Monitor.Env} {ops : Ops C} {s t : State C} {l : Runtime.Label}
    (h : step env ops s l = some t) : Step env ops s l t := by
  unfold step at h
  cases hreq : msgsRequest s.runtime.pc l with
  | some r =>
    obtain ⟨id, protoMsgs⟩ := r
    rw [hreq] at h
    obtain ⟨rfl, hpc⟩ := msgsRequest_eq_some hreq
    obtain rfl := Option.some.inj h
    exact .msgs hpc
  | none =>
    rw [hreq] at h
    obtain ⟨runtime, hstep, rfl⟩ := Option.map_eq_some_iff.mp h
    exact .runtime hreq (Runtime.step_cases hstep)

/-- The invariant rule of the worker. -/
theorem reachable_invariant {env : Monitor.Env} {ops : Ops C} {chain : C} {I : State C → Prop}
    (h0 : I (initialState env chain)) (hstep : ∀ s l t, I s → Step env ops s l t → I t)
    {s : State C} (h : (machine env ops chain).Reachable s) : I s := by
  refine Machine.Reachable.invariant (fun s hs => ?_) (fun s l t hi ht => ?_) h
  · have hs' : s = initialState env chain := hs
    rw [hs']
    exact h0
  · exact hstep s l t hi (step_cases ht)

/-! ## The same worker on a part of the chain's state -/

section
variable {C' : Type}

/-- The runtime with the part `f` of its chain. -/
def mapChain (f : C → C') (r : Runtime.State C) : Runtime.State C' where
  chain := f r.chain
  pc := r.pc
  requests := r.requests
  replies := r.replies
  calls := r.calls
  monitor := r.monitor
  eventsTaken := r.eventsTaken
  history := r.history

theorem runtime_step_map {env : Monitor.Env} {ops : Ops C} {ops' : Ops C'} {f : C → C'}
    (hshutdown : ∀ c, ops'.shutdown (f c) = ops.shutdown c) (r : Runtime.State C)
    (l : Runtime.Label) : Runtime.step env ops'.others (mapChain f r) l =
      (Runtime.step env ops.others r l).map (mapChain f) := by
  obtain ⟨chain, pc, requests, replies, calls, monitor, eventsTaken, history⟩ := r
  cases l with
  | call id call =>
    dsimp only [Runtime.step, mapChain]
    cases calls id <;> try rfl
    cases requests.send (call.request id) <;> rfl
  | takeEvent =>
    cases pc <;> try rfl
    dsimp only [Runtime.step, mapChain]
    by_cases hlt : eventsTaken < monitor.txBatch.length
    · rw [if_pos hlt, if_pos hlt]
      rfl
    · rw [if_neg hlt, if_neg hlt]
      rfl
  | eventsGone =>
    cases pc <;> try rfl
    dsimp only [Runtime.step, mapChain]
    by_cases hgone : Runtime.monitorDead monitor = true ∧ eventsTaken = monitor.txBatch.length
    · rw [if_pos hgone, if_pos hgone]
      rfl
    · rw [if_neg hgone, if_neg hgone]
      rfl
  | takeRequest =>
    dsimp only [Runtime.step, mapChain]
    cases pc <;> try rfl
    cases requests.recv <;> rfl
  | serve =>
    cases pc <;> try rfl
    rename_i req
    cases req <;> try rfl
    dsimp only [Runtime.step, mapChain]
    cases Runtime.monitorDead monitor <;> rfl
  | shutdownChain =>
    cases pc <;> try rfl
    dsimp only [Runtime.step, mapChain, Ops.others]
    rw [hshutdown chain]
    rfl
  | reply =>
    cases pc <;> try rfl
    rename_i id out last
    dsimp only [Runtime.step, mapChain]
    cases (replies id).send out <;> try rfl
    cases last <;> rfl
  | receive id =>
    dsimp only [Runtime.step, mapChain]
    cases calls id <;> try rfl
    cases (replies id).recv <;> rfl
  | monitor l =>
    dsimp only [Runtime.step, mapChain]
    cases Runtime.ownStep l with
    | true => cases Monitor.step env monitor l <;> rfl
    | false => rfl

/-- The worker with the part `f` of its chain. -/
def State.mapChain (f : C → C') (s : State C) : State C' :=
  ⟨Worker.mapChain f s.runtime, s.served⟩

/-- A chain that runs as another one does on a part of its state makes a worker that does. -/
theorem machine_maps (env : Monitor.Env) {ops : Ops C} {ops' : Ops C'} {f : C → C'}
    (hmsgs : ∀ protoMsgs, Action.Maps f (ops.sendMsgs protoMsgs) (ops'.sendMsgs protoMsgs))
    (hshutdown : ∀ c, ops'.shutdown (f c) = ops.shutdown c) (chain : C) :
    Machine.Maps (State.mapChain f) (machine env ops chain) (machine env ops' (f chain)) where
  init s' := by
    constructor
    · intro hs'
      have heq : s' = initialState env (f chain) := hs'
      exact ⟨initialState env chain, rfl, heq.symm⟩
    · rintro ⟨s, hs, rfl⟩
      have heq : s = initialState env chain := hs
      rw [heq]
      rfl
  step s l := by
    show step env ops' (s.mapChain f) l = (step env ops s l).map (State.mapChain f)
    have hpc : (s.mapChain f).runtime.pc = s.runtime.pc := rfl
    unfold step
    rw [hpc]
    cases msgsRequest s.runtime.pc l with
    | some req =>
      obtain ⟨id, protoMsgs⟩ := req
      have hrun : ops'.sendMsgs protoMsgs (s.mapChain f).runtime.chain =
          ((ops.sendMsgs protoMsgs s.runtime.chain).1,
            f (ops.sendMsgs protoMsgs s.runtime.chain).2) := hmsgs protoMsgs s.runtime.chain
      dsimp only
      rw [hrun]
      cases ops.sendMsgs protoMsgs s.runtime.chain with
      | mk out chain => cases out <;> rfl
    | none =>
      have hstep : Runtime.step env ops'.others (s.mapChain f).runtime l =
          (Runtime.step env ops.others s.runtime l).map (Worker.mapChain f) :=
        runtime_step_map hshutdown s.runtime l
      dsimp only
      rw [hstep]
      cases Runtime.step env ops.others s.runtime l <;> rfl

end

/-! ## The request/reply protocol goes on -/

section
variable {env : Monitor.Env} {ops : Ops C} {chain : C} {s t : State C}

/-- **Frame rule**: the protocol does not read the chain. -/
theorem inv_withChain {r : Runtime.State C} (hi : Inv r) (chain : C) :
    Inv { r with chain := chain } :=
  ⟨{ hi.order with }, { hi.held with }, { hi.settled with }⟩

/-- The request that is handed to `send_msgs` was sent by a caller who waits, and has not been
    executed. -/
theorem serving_msgs {r : Runtime.State C} (hi : Inv r) {id : CallId} {protoMsgs : List Any}
    (hpc : r.pc = .serving (.sendMsgs protoMsgs id)) :
    id ∉ r.history.executedIds ∧ r.calls id = .waiting (.sendMsgs protoMsgs) ∧
      ∃ done, r.history.taken = done ++ [.sendMsgs protoMsgs id] := by
  obtain ⟨hnot, ⟨call, hwait, heq⟩, htaken⟩ := hi.held.serving _ hpc
  cases call with
  | shutdown => cases heq
  | sendMsgs protoMsgs' =>
    obtain ⟨rfl, -⟩ := ChainRequest.sendMsgs.inj heq
    exact ⟨hnot, hwait, htaken⟩

/-- **Step lemma**, for whatever `send_msgs` comes to. -/
theorem inv_afterMsgs (hi : Inv s.runtime) {id : CallId} {protoMsgs : List Any}
    (hpc : s.runtime.pc = .serving (.sendMsgs protoMsgs id)) (chain : C)
    (r : Outcome Kind (List Event)) : Inv (s.afterMsgs id protoMsgs chain r) := by
  obtain ⟨hnot, hwait, done, htaken⟩ := serving_msgs hi hpc
  have hrunning : s.runtime.pc.running = true := by rw [hpc]; rfl
  have hheld : s.runtime.pc.held = [id] := by rw [hpc]; rfl
  have hlast : ∃ done req, s.runtime.history.taken = done ++ [req] ∧ req.replyTo = id :=
    ⟨done, _, htaken, rfl⟩
  cases r with
  | ok events => exact Runtime.inv_execute hi hrunning hheld hnot hwait hlast
  | err kind => exact Runtime.inv_execute hi hrunning hheld hnot hwait hlast
  | panic =>
    refine Runtime.inv_exit (inv_withChain hi chain) _ fun id' hid' => ?_
    have hid : id' ∈ s.runtime.pc.held := hid'
    rw [hheld] at hid
    rw [List.mem_singleton.mp hid]
    exact hnot

theorem inv_step {l : Runtime.Label} (hi : Inv s.runtime) (h : Step env ops s l t) :
    Inv t.runtime := by
  cases h with
  | msgs hpc => exact inv_afterMsgs hi hpc _ _
  | runtime _ h => exact Runtime.inv_step hi h

/-- The run lemma. -/
theorem inv_reachable (h : (machine env ops chain).Reachable s) : Inv s.runtime :=
  reachable_invariant Runtime.inv_init (fun _ _ _ => inv_step) h

/-! ## What a call asks for stays -/

/-- A status that only ever moves on from `waiting` to `done`. -/
theorem asked_update {calls : CallId → Runtime.CallStatus} {id id' : CallId} {call : Call}
    {status : Runtime.CallStatus}
    (hstatus : ∀ call, asked (calls id') = some call → asked status = some call)
    (h : asked (calls id) = some call) :
    asked (Function.update calls id' status id) = some call := by
  by_cases hid : id = id'
  · subst hid
    rw [Function.update_self]
    exact hstatus call h
  · rw [Function.update_of_ne hid]
    exact h

theorem asked_idle {status : Runtime.CallStatus} {call : Call} {p : Prop}
    (hidle : status = .idle) (h : asked status = some call) : p := by
  rw [hidle] at h
  cases h

/-- A call that returns asked for what it waited for. -/
theorem asked_return {status : Runtime.CallStatus} {call : Call} {out : Reply}
    (hwait : status = .waiting call) (call' : Call) (h : asked status = some call') :
    asked (.done call out) = some call' := by
  rw [hwait] at h
  exact h

/-- **Frame.** -/
theorem asked_runtime {ops : Runtime.Chain C} {r r' : Runtime.State C} {l : Runtime.Label}
    {id : CallId} {call : Call} (h : Runtime.Step env ops r l r')
    (hasked : asked (r.calls id) = some call) : asked (r'.calls id) = some call := by
  cases h with
  | call hidle _ => exact asked_update (fun _ h => asked_idle hidle h) hasked
  | refused hidle _ => exact asked_update (fun _ h => asked_idle hidle h) hasked
  | receive hwait _ => exact asked_update (asked_return hwait) hasked
  | lost hwait _ => exact asked_update (asked_return hwait) hasked
  | _ => exact hasked

/-- **Frame.**  `send_msgs` leaves the calls alone, however it ends. -/
theorem calls_afterMsgs (id : CallId) (protoMsgs : List Any) (chain : C)
    (r : Outcome Kind (List Event)) :
    (s.afterMsgs id protoMsgs chain r).calls = s.runtime.calls := by
  cases r <;> rfl

/-- **Frame.**  And the requests that were dequeued. -/
theorem taken_afterMsgs (id : CallId) (protoMsgs : List Any) (chain : C)
    (r : Outcome Kind (List Event)) :
    (s.afterMsgs id protoMsgs chain r).history.taken = s.runtime.history.taken := by
  cases r <;> rfl

/-- The caller hears of the request unless it panicked. -/
theorem executed_serve (id : CallId) (protoMsgs : List Any) (out : Outcome Kind (List Event))
    (chain : C) :
    (s.serve id protoMsgs (out, chain)).runtime.history.executed =
      s.runtime.history.executed ++ (Served.execution ⟨id, protoMsgs, out⟩).toList := by
  cases out with
  | ok events => rfl
  | err kind => rfl
  | panic => exact (List.append_nil _).symm

/-! ## The requests that were handed to `send_msgs` -/

structure Thread (s : State C) : Prop where
  /-- The executions of `send_msgs` are those of the requests handed to it. -/
  executed : s.served.filterMap Served.execution = s.runtime.history.executed.filter isMsgs
  order : (s.served.map Served.id).Sublist (s.runtime.history.taken.map ChainRequest.replyTo)
  asked : ∀ v ∈ s.served, asked (s.runtime.calls v.id) = some (.sendMsgs v.protoMsgs)
  /-- Nothing is handed to `send_msgs` after a panic. -/
  last : ∀ pre v post, s.served = pre ++ v :: post → v.out = .panic → post = []
  /-- The thread panicked on the request it had dequeued last. -/
  crashed : ∀ v ∈ s.served, v.out = .panic → s.runtime.pc = .exited .panic ∧
    v.id ∉ s.runtime.history.executedIds ∧
    ∃ done, s.runtime.history.taken = done ++ [.sendMsgs v.protoMsgs v.id]

theorem thread_init : Thread (initialState env chain) where
  executed := rfl
  order := List.Sublist.refl _
  asked := nofun
  last _ _ _ h := absurd h.symm (by simp [initialState])
  crashed := nofun

/-- The caller hears of every request but a panicked one. -/
theorem Served.execution_of_ne {v : Served} (h : v.out ≠ .panic) :
    ∃ out, v.execution = some ⟨v.id, .sendMsgs v.protoMsgs, .sendMsgs out⟩ := by
  unfold Served.execution
  cases hout : v.out with
  | ok events => exact ⟨.ok events, rfl⟩
  | err kind => exact ⟨.error kind, rfl⟩
  | panic => exact absurd hout h

/-- While the thread runs nothing has panicked. -/
theorem Thread.no_panic (ht : Thread s) (hrunning : s.runtime.pc.running = true) {v : Served}
    (hv : v ∈ s.served) : v.out ≠ .panic := by
  intro hpanic
  rw [(ht.crashed v hv hpanic).1] at hrunning
  cases hrunning

/-- So what was handed to `send_msgs` was executed. -/
theorem Thread.executed_of_running (ht : Thread s) (hrunning : s.runtime.pc.running = true)
    {v : Served} (hv : v ∈ s.served) : v.id ∈ s.runtime.history.executedIds := by
  obtain ⟨out, hexec⟩ := Served.execution_of_ne (ht.no_panic hrunning hv)
  have hmem : ⟨v.id, .sendMsgs v.protoMsgs, .sendMsgs out⟩ ∈
      s.served.filterMap Served.execution := List.mem_filterMap.mpr ⟨v, hv, hexec⟩
  rw [ht.executed] at hmem
  exact Runtime.mem_executedIds (List.mem_filter.mp hmem).1

/-- `send_msgs` is called for the dequeued request. -/
theorem Thread.serve (ht : Thread s) (hi : Inv s.runtime) {id : CallId} {protoMsgs : List Any}
    (hpc : s.runtime.pc = .serving (.sendMsgs protoMsgs id)) (r : Outcome Kind (List Event) × C) :
    Thread (s.serve id protoMsgs r) := by
  obtain ⟨out, chain⟩ := r
  obtain ⟨hnot, hwait, done, htaken⟩ := serving_msgs hi hpc
  have hrunning : s.runtime.pc.running = true := by rw [hpc]; rfl
  have htaken' : (s.serve id protoMsgs (out, chain)).runtime.history.taken =
      done ++ [.sendMsgs protoMsgs id] := (taken_afterMsgs id protoMsgs chain out).trans htaken
  have hcalls : (s.serve id protoMsgs (out, chain)).runtime.calls = s.runtime.calls :=
    calls_afterMsgs id protoMsgs chain out
  constructor
  case executed =>
    show (s.served ++ [(⟨id, protoMsgs, out⟩ : Served)]).filterMap Served.execution = _
    rw [List.filterMap_append, ht.executed, executed_serve, List.filter_append]
    cases out <;> rfl
  case order =>
    have hsub := ht.order
    rw [htaken, List.map_append] at hsub
    -- the request in hand was not handed over before, so the others were dequeued before it
    have hearlier : (s.served.map Served.id).Sublist (done.map ChainRequest.replyTo) := by
      refine List.Sublist.of_sublist_append_left ?_ hsub
      intro id' hid' hlast
      obtain ⟨v, hv, rfl⟩ := List.mem_map.mp hid'
      have hid : v.id = id := List.mem_singleton.mp hlast
      exact hnot (hid ▸ ht.executed_of_running hrunning hv)
    rw [htaken', List.map_append]
    show ((s.served ++ [(⟨id, protoMsgs, out⟩ : Served)]).map Served.id).Sublist _
    rw [List.map_append]
    exact hearlier.append (List.Sublist.refl _)
  case asked =>
    intro v hv
    rw [hcalls]
    rcases List.mem_append.mp hv with hv | hv
    · exact ht.asked v hv
    · rw [List.mem_singleton.mp hv, hwait]
      rfl
  case last =>
    intro pre v post hsplit hpanic
    have hsplit' : s.served ++ [⟨id, protoMsgs, out⟩] = pre ++ v :: post := hsplit
    cases post using List.reverseRecOn with
    | nil => rfl
    | append_singleton post v' =>
      -- a panic before this request would be one that came earlier
      rw [← List.cons_append, ← List.append_assoc] at hsplit'
      have hserved := (List.append_inj' hsplit' rfl).1
      refine absurd hpanic (ht.no_panic hrunning ?_)
      rw [hserved]
      exact List.mem_append_right _ List.mem_cons_self
  case crashed =>
    intro v hv hpanic
    rcases List.mem_append.mp hv with hv | hv
    · exact absurd hpanic (ht.no_panic hrunning hv)
    · obtain rfl := List.mem_singleton.mp hv
      obtain rfl : out = .panic := hpanic
      exact ⟨rfl, hnot, done, htaken'⟩

/-- **Frame.**  An exited thread executes and dequeues nothing. -/
theorem exited_runtime {ops : Runtime.Chain C} {r r' : Runtime.State C} {l : Runtime.Label}
    {res : Outcome Kind Unit} (h : Runtime.Step env ops r l r') (hexit : r.pc = .exited res) :
    r'.pc = .exited res ∧ r'.history.executedIds = r.history.executedIds ∧
      r'.history.taken = r.history.taken := by
  cases h with
  | call _ _ => exact ⟨hexit, rfl, rfl⟩
  | refused _ _ => exact ⟨hexit, rfl, rfl⟩
  | receive _ _ => exact ⟨hexit, rfl, rfl⟩
  | lost _ _ => exact ⟨hexit, rfl, rfl⟩
  | monitor _ _ => exact ⟨hexit, rfl, rfl⟩
  | takeEvent hpc _ | eventsGone hpc _ | takeRequest hpc _ | noSender hpc _ | command hpc _ =>
    cases hpc.symm.trans hexit
  | noMonitor hpc _ | reply hpc _ | lastReply hpc _ | noCaller hpc _ => cases hpc.symm.trans hexit
  | sendMsgs hpc | subscribe hpc | shutdownChain hpc => cases hpc.symm.trans hexit

/-- The other steps of the thread call no `send_msgs`. -/
theorem other_executed {r : Runtime.State C} {l : Runtime.Label}
    (hother : msgsRequest s.runtime.pc l = none) (h : Runtime.Step env ops.others s.runtime l r) :
    r.history.executed.filter isMsgs = s.runtime.history.executed.filter isMsgs ∧
      s.runtime.history.taken <+: r.history.taken := by
  cases h with
  | sendMsgs hpc =>
    rw [hpc] at hother
    cases hother
  | shutdownChain hpc =>
    exact ⟨(List.filter_append ..).trans (List.append_nil _), List.prefix_refl _⟩
  | takeRequest _ _ => exact ⟨rfl, List.prefix_append _ _⟩
  | _ => exact ⟨rfl, List.prefix_refl _⟩

/-- **Step lemma.** -/
theorem thread_step {l : Runtime.Label} (ht : Thread s) (hi : Inv s.runtime)
    (h : Step env ops s l t) : Thread t := by
  cases h with
  | msgs hpc => exact ht.serve hi hpc _
  | @runtime _ r hother h =>
    obtain ⟨hexecuted, htaken⟩ := other_executed hother h
    exact {
      executed := ht.executed.trans hexecuted.symm
      order := ht.order.trans (htaken.sublist.map _)
      asked := fun v hv => asked_runtime h (ht.asked v hv)
      last := ht.last
      crashed := by
        intro v hv hpanic
        obtain ⟨hexit, hnot, done, hlast⟩ := ht.crashed v hv hpanic
        obtain ⟨hpc, hids, htaken⟩ := exited_runtime h hexit
        have hnot' : v.id ∉ r.history.executedIds := by
          rw [hids]
          exact hnot
        exact ⟨hpc, hnot', done, htaken.trans hlast⟩ }

/-- The run lemma. -/
theorem thread_reachable (h : (machine env ops chain).Reachable s) : Thread s := by
  have hboth : Inv s.runtime ∧ Thread s := by
    refine reachable_invariant (I := fun s => Inv s.runtime ∧ Thread s)
      ⟨Runtime.inv_init, thread_init⟩ (fun s l t hs hstep => ?_) h
    exact ⟨inv_step hs.1 hstep, thread_step hs.2 hs.1 hstep⟩
  exact hboth.2

/-! ## Every call can end -/

/-- While the thread holds a reply sender, it can go on with less work left. -/
theorem service_step (env : Monitor.Env) (ops : Ops C) (hi : Inv s.runtime)
    (hheld : s.runtime.holders ≠ []) :
    ∃ l t, l.isService = true ∧ step env ops s l = some t ∧ t.runtime.work < s.runtime.work ∧
      t.runtime.calls = s.runtime.calls := by
  obtain ⟨l, r, hl, hstep, hlt, hcalls⟩ := Runtime.service_step env ops.others hi hheld
  cases hreq : msgsRequest s.runtime.pc l with
  | none =>
    refine ⟨l, { s with runtime := r }, hl, ?_, hlt, hcalls⟩
    unfold step
    rw [hreq, hstep]
    rfl
  | some req =>
    obtain ⟨id, protoMsgs⟩ := req
    obtain ⟨rfl, hpc⟩ := msgsRequest_eq_some hreq
    refine ⟨.serve, s.serve id protoMsgs (ops.sendMsgs protoMsgs s.runtime.chain), rfl, ?_, ?_,
      calls_afterMsgs id protoMsgs _ _⟩
    · unfold step
      rw [hreq]
    · show (s.afterMsgs id protoMsgs _ _).work < s.runtime.work
      cases (ops.sendMsgs protoMsgs s.runtime.chain).1 with
      | ok events =>
        simp only [State.afterMsgs, Runtime.State.work, Runtime.State.execute, Runtime.Pc.work, hpc]
        omega
      | err kind =>
        simp only [State.afterMsgs, Runtime.State.work, Runtime.State.execute, Runtime.Pc.work, hpc]
        omega
      | panic =>
        simp only [State.afterMsgs, Runtime.State.work, Runtime.State.exit, Runtime.Pc.work,
          Chan.dropRx, hpc, List.length_nil]
        omega

/-- A waiting call whose reply sender is gone can go on. -/
theorem receivable (env : Monitor.Env) (ops : Ops C) (hi : Inv s.runtime) {id : CallId}
    {call : Call} (hwait : s.runtime.calls id = .waiting call)
    (hheld : id ∉ s.runtime.holders) :
    ∃ out t, step env ops s (.receive id) = some t ∧ t.runtime.calls id = .done call out := by
  obtain ⟨out, r, hstep, hdone⟩ : ∃ out r,
      Runtime.step env ops.others s.runtime (.receive id) = some r ∧ r.calls id = .done call out :=
    hi.settled.receivable hwait hheld
  refine ⟨out, { s with runtime := r }, ?_, hdone⟩
  show (Runtime.step env ops.others s.runtime (.receive id)).map _ = _
  rw [hstep]
  rfl

theorem call_ends (env : Monitor.Env) (ops : Ops C) (chain : C) (hi : Inv s.runtime) {id : CallId}
    {call : Call} (hwait : s.runtime.calls id = .waiting call) :
    ∃ ls t out, (∀ l ∈ ls, l.isService = true) ∧
      (machine env ops chain).exec s (ls ++ [.receive id]) = some t ∧
      t.runtime.calls id = .done call out := by
  have hserve : ∀ s : State C, Inv s.runtime → ¬ s.runtime.holders = [] →
      ∃ l t, l.isService = true ∧ (machine env ops chain).step s l = some t ∧ Inv t.runtime ∧
        t.runtime.calls = s.runtime.calls ∧ t.runtime.work < s.runtime.work := by
    intro s hi hheld
    obtain ⟨l, t, hl, hstep, hlt, hcalls⟩ := service_step env ops hi hheld
    exact ⟨l, t, hl, hstep, inv_step hi (step_cases hstep), hcalls, hlt⟩
  obtain ⟨ls, u, hls, hexec, hiu, hcalls, hheld⟩ := Machine.exec_done
    (R := fun s t : State C => t.runtime.calls = s.runtime.calls) (fun s => s.runtime.work)
    (fun _ => rfl) (fun h h' => h'.trans h) hserve hi
  have hwait' : u.runtime.calls id = .waiting call := by rw [hcalls]; exact hwait
  obtain ⟨out, t, hstep, hdone⟩ := receivable env ops hiu hwait' (by rw [hheld]; nofun)
  refine ⟨ls, t, out, hls, ?_, hdone⟩
  rw [Machine.exec_append, hexec, Option.bind_some, Machine.exec_cons]
  exact Option.bind_eq_some_iff.mpr ⟨t, hstep, rfl⟩

/-! ## Headline -/

/-- A panicked thread has dropped what it owned. -/
theorem Thread.dropped (ht : Thread s) (hi : Inv s.runtime) (hpanic : s.Panicked) :
    s.runtime.requests.rx = false ∧ s.runtime.holders = [] := by
  obtain ⟨v, hv, hout⟩ := hpanic
  obtain ⟨hpc, -, -⟩ := ht.crashed v hv hout
  have hstopped : s.runtime.pc.running = false := by rw [hpc]; rfl
  have hrx : s.runtime.requests.rx = false := hi.order.receiver.trans hstopped
  refine ⟨hrx, ?_⟩
  rw [Runtime.State.holders, hpc, hi.order.discarded hstopped]
  rfl

/-- **Headline.**  In every reachable state of a worker whose `send_msgs` may panic: a call that has
    returned was executed exactly once, and returned the result of that execution, or was never
    executed, and returned a channel error; the requests handed to `send_msgs` come in the order of
    the calls, each once, and those it did not panic on are the executed ones; a panicked one is the
    last, its caller gets a channel error, no request is accepted or held any more, and whoever
    waits can return; and every waiting call can be brought to its end. -/
theorem worker_protocol {s : State C} (h : (machine env ops chain).Reachable s) :
    (∀ id call out, s.runtime.calls id = .done call out →
      (s.runtime.history.executedIds.count id = 1 ∧
          ⟨id, call, out⟩ ∈ s.runtime.history.executed) ∨
        id ∉ s.runtime.history.executedIds ∧ out = call.channelError) ∧
    s.served.filterMap Served.execution = s.runtime.history.executed.filter isMsgs ∧
    (s.served.map Served.id).Sublist s.runtime.history.sent ∧ s.runtime.history.sent.Nodup ∧
    (∀ pre v post, s.served = pre ++ v :: post → v.out = .panic →
      post = [] ∧ v.id ∉ s.runtime.history.executedIds) ∧
    (s.Panicked → s.runtime.requests.rx = false ∧ s.runtime.holders = [] ∧
      ∀ id call, s.runtime.calls id = .waiting call →
        ∃ out t, step env ops s (.receive id) = some t ∧ t.runtime.calls id = .done call out) ∧
    ∀ id call, s.runtime.calls id = .waiting call →
      ∃ ls t out, (∀ l ∈ ls, l.isService = true) ∧
        (machine env ops chain).exec s (ls ++ [.receive id]) = some t ∧
        t.runtime.calls id = .done call out := by
  have hi := inv_reachable h
  have ht := thread_reachable h
  refine ⟨fun id call out hdone => ?_, ht.executed, ht.order.trans hi.order.taken, hi.order.nodup,
    fun pre v post hsplit hpanic => ?_, fun hpanic => ?_,
    fun id call hwait => call_ends env ops chain hi hwait⟩
  · rcases hi.settled.done id call out hdone with hmem | hlost
    · exact .inl ⟨hi.order.executed_once (Runtime.mem_executedIds hmem), hmem⟩
    · exact .inr hlost
  · have hv : v ∈ s.served := by
      rw [hsplit]
      exact List.mem_append_right _ List.mem_cons_self
    exact ⟨ht.last pre v post hsplit hpanic, (ht.crashed v hv hpanic).2.1⟩
  · obtain ⟨hrx, hheld⟩ := ht.dropped hi hpanic
    refine ⟨hrx, hheld, fun id call hwait => receivable env ops hi hwait ?_⟩
    rw [hheld]
    exact List.not_mem_nil

end

/-- A chain that counts the messages it is given, and panics on none. -/
def brittleOps : Ops Nat where
  sendMsgs protoMsgs n :=
    if protoMsgs.isEmpty then (.panic, n) else (.ok [.newBlock ⟨n⟩], n + protoMsgs.length)
  shutdown _ := .ok ()

/-- The second of three requests brings the thread down. -/
def brittleRun : List Runtime.Label :=
  [.call 0 (.sendMsgs [⟨"/a", []⟩]), .call 1 (.sendMsgs []), .call 2 .shutdown, .takeRequest,
    .serve, .reply, .takeRequest, .serve, .receive 2, .receive 1, .receive 0]

theorem worker_protocol_three :
    ∃ s, (machine Monitor.demoEnv brittleOps 5).exec (initialState Monitor.demoEnv 5) brittleRun
        = some s ∧ s.runtime.history.executedIds.count 0 = 1 ∧
      s.runtime.history.executedIds.count 2 = 0 ∧ s.runtime.requests.rx = false := by
  obtain ⟨s, hs, hfirst, hlast, hids, hserved⟩ :
      ∃ s, (machine Monitor.demoEnv brittleOps 5).exec (initialState Monitor.demoEnv 5)
          brittleRun = some s ∧
        s.runtime.calls 0 =
          .done (.sendMsgs [⟨"/a", []⟩]) (.sendMsgs (.ok [.newBlock ⟨5⟩])) ∧
        s.runtime.calls 2 = .done .shutdown (.shutdown (.error .channel)) ∧
        s.runtime.history.executedIds = [0] ∧
        s.served = [⟨0, [⟨"/a", []⟩], .ok [.newBlock ⟨5⟩]⟩, ⟨1, [], .panic⟩] :=
    ⟨_, rfl, rfl, rfl, rfl, rfl⟩
  obtain ⟨hended, -, -, -, -, hpanic, -⟩ := worker_protocol (Machine.exec_reachable (.init rfl) hs)
  have hpanicked : s.Panicked := ⟨⟨1, [], .panic⟩, by rw [hserved]; simp, rfl⟩
  refine ⟨s, hs, ?_, by rw [hids]; rfl, (hpanic hpanicked).1⟩
  rcases hended 0 _ _ hfirst with ⟨hcount, -⟩ | ⟨hnot, -⟩
  · exact hcount
  · rw [hids] at hnot
    exact absurd List.mem_cons_self hnot

end OffChainWorker.Worker
