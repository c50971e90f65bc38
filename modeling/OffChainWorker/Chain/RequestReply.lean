/-
  The request/reply protocol between chain handles and the runtime.

  The invariant `Inv` ties every call in flight to its reply channel, in three parts.  `Order`:
  requests are dequeued and executed in the order in which they were sent.  `Held`: the runtime
  holds the reply senders of exactly the calls in `holders` (the one it serves and the queued ones),
  each on an open and empty channel with a waiting caller.  `Settled`: a waiting call that is not
  held any more either has its result in its channel, and was executed, or finds the channel
  disconnected, and was not; and a call that has returned did so in one of these two ways.

  So a reply always finds its one slot free, and nobody is left waiting once the runtime has exited.
  That every call can end is `call_ends`: as long as the runtime holds a reply sender one of its own
  steps is enabled, and every such step leaves less work (`State.work`).
-/
import Mathlib.Data.List.Induction
import Mathlib.Data.List.Nodup
import OffChainWorker.Chain.Runtime
import OffChainWorker.Subscribe.MonitorConnection

namespace OffChainWorker.Runtime

open Proc

variable {C : Type} {env : Monitor.Env} {ops : Chain C} {chain : C} {s t : State C}

@[simp] theorem request_replyTo (call : Call) (id : CallId) : (call.request id).replyTo = id := by
  cases call <;> rfl

/-! ## The invariant -/

structure Order (s : State C) : Prop where
  unbounded : s.requests.cap = none
  receiver : s.requests.rx = s.pc.running
  discarded : s.pc.running = false → s.requests.queue = []
  nodup : s.history.sent.Nodup
  fifo : s.pc.running = true →
    s.history.taken.map ChainRequest.replyTo ++ s.requests.queue.map ChainRequest.replyTo
      = s.history.sent
  taken : (s.history.taken.map ChainRequest.replyTo).Sublist s.history.sent
  executed : s.history.executedIds.Sublist (s.history.taken.map ChainRequest.replyTo)

/-- The request is one that its waiting caller has sent. -/
def Requested (s : State C) (req : ChainRequest) : Prop :=
  ∃ call, s.calls req.replyTo = .waiting call ∧ req = call.request req.replyTo

structure Held (s : State C) : Prop where
  nodup : s.holders.Nodup
  channel : ∀ id ∈ s.holders, s.replies id = Chan.bounded 1
  queued : ∀ req ∈ s.requests.queue, Requested s req
  serving : ∀ req, s.pc = .serving req →
    req.replyTo ∉ s.history.executedIds ∧ Requested s req ∧ ∃ done, s.history.taken = done ++ [req]
  commanded : ∀ id, s.pc = .commanded id →
    id ∉ s.history.executedIds ∧ s.calls id = .waiting .shutdown ∧
      ∃ done, s.history.taken = done ++ [.shutdown id]
  replying : ∀ id out last, s.pc = .replying id out last →
    ∃ call, s.calls id = .waiting call ∧ ⟨id, call, out⟩ ∈ s.history.executed

/-- The channel of a call that is not held: its result is there and it was executed, or the channel
    is empty and it was not. -/
def SettledReply (s : State C) (id : CallId) (call : Call) (reply : Chan Reply) : Prop :=
  reply.tx = false ∧
    ((∃ out, reply.queue = [out] ∧ ⟨id, call, out⟩ ∈ s.history.executed) ∨
      reply.queue = [] ∧ id ∉ s.history.executedIds)

structure Settled (s : State C) : Prop where
  idle : ∀ id, s.calls id = .idle → id ∉ s.history.sent
  waiting : ∀ id call, s.calls id = .waiting call → id ∉ s.holders →
    SettledReply s id call (s.replies id)
  done : ∀ id call out, s.calls id = .done call out →
    ⟨id, call, out⟩ ∈ s.history.executed ∨
      id ∉ s.history.executedIds ∧ out = call.channelError

structure Inv (s : State C) : Prop where
  order : Order s
  held : Held s
  settled : Settled s

theorem inv_init : Inv (initialState env chain) where
  order :=
    ⟨rfl, rfl, nofun, List.nodup_nil, fun _ => rfl, List.Sublist.refl _, List.Sublist.refl _⟩
  held := ⟨List.nodup_nil, nofun, nofun, nofun, nofun, nofun⟩
  settled := ⟨nofun, nofun, nofun⟩

/-- **Frame rule**: the invariant does not read the monitor and its batches. -/
theorem Inv.frame (hi : Inv s) (monitor : Monitor.State) (eventsTaken : Nat) :
    Inv { s with monitor := monitor, eventsTaken := eventsTaken } :=
  ⟨{ hi.order with }, { hi.held with }, { hi.settled with }⟩

/-! ## Consequences of the invariant -/

theorem mem_executedIds {h : History} {id : CallId} {call : Call} {out : Reply}
    (hmem : ⟨id, call, out⟩ ∈ h.executed) : id ∈ h.executedIds :=
  List.mem_map.mpr ⟨_, hmem, rfl⟩

theorem Order.executed_sent (ho : Order s) : s.history.executedIds.Sublist s.history.sent :=
  ho.executed.trans ho.taken

/-- A call has at most one execution. -/
theorem Order.executed_unique (ho : Order s) {e e' : Execution} (he : e ∈ s.history.executed)
    (he' : e' ∈ s.history.executed) (hid : e.id = e'.id) : e = e' :=
  List.inj_on_of_nodup_map (ho.executed_sent.nodup ho.nodup) he he' hid

theorem Order.executed_once (ho : Order s) {id : CallId} (hid : id ∈ s.history.executedIds) :
    s.history.executedIds.count id = 1 :=
  List.count_eq_one_of_mem (ho.executed_sent.nodup ho.nodup) hid

/-- A queued request has not been executed. -/
theorem Order.queued_not_executed (ho : Order s) {id : CallId}
    (hid : id ∈ s.requests.queue.map ChainRequest.replyTo) : id ∉ s.history.executedIds := by
  intro hexec
  have hrunning : s.pc.running = true := by
    cases hrun : s.pc.running with
    | true => rfl
    | false =>
      rw [ho.discarded hrun] at hid
      exact absurd hid List.not_mem_nil
  have hnodup := ho.nodup
  rw [← ho.fifo hrunning] at hnodup
  exact (List.nodup_append.mp hnodup).2.2 id (ho.executed.subset hexec) id hid rfl

/-- The caller of a held reply sender is waiting. -/
theorem Held.caller (hh : Held s) {id : CallId} (hid : id ∈ s.holders) :
    ∃ call, s.calls id = .waiting call := by
  rcases List.mem_append.mp hid with hid | hid
  · cases hpc : s.pc with
    | select => rw [hpc] at hid; exact absurd hid List.not_mem_nil
    | serving req =>
      rw [hpc] at hid
      rw [List.mem_singleton.mp hid]
      obtain ⟨-, ⟨call, hwait, -⟩, -⟩ := hh.serving req hpc
      exact ⟨call, hwait⟩
    | commanded id' =>
      rw [hpc] at hid
      rw [List.mem_singleton.mp hid]
      exact ⟨.shutdown, (hh.commanded id' hpc).2.1⟩
    | replying id' out last =>
      rw [hpc] at hid
      rw [List.mem_singleton.mp hid]
      obtain ⟨call, hwait, -⟩ := hh.replying id' out last hpc
      exact ⟨call, hwait⟩
    | exited res => rw [hpc] at hid; exact absurd hid List.not_mem_nil
  · obtain ⟨req, hreq, rfl⟩ := List.mem_map.mp hid
    obtain ⟨call, hwait, -⟩ := hh.queued req hreq
    exact ⟨call, hwait⟩

/-- What a channel with one free slot does with a reply. -/
theorem send_bounded_one {α : Type} (a : α) :
    (Chan.bounded 1 : Chan α).send a = .sent ((Chan.bounded 1).push a) := rfl

/-- **The replies never block or fail.** -/
theorem Held.reply_sent (hh : Held s) {id : CallId} {out : Reply} {last : Bool}
    (hpc : s.pc = .replying id out last) :
    (s.replies id).send out = .sent ((Chan.bounded 1).push out) := by
  have hid : id ∈ s.holders := by rw [State.holders, hpc]; exact List.mem_cons_self
  rw [hh.channel id hid, send_bounded_one]

/-- A caller that finds something on its channel is not held. -/
theorem Held.not_held (hh : Held s) {id : CallId} (hrecv : (s.replies id).recv ≠ .empty) :
    id ∉ s.holders := by
  intro hid
  rw [hh.channel id hid] at hrecv
  exact hrecv rfl

/-- A waiting call that is not held can go on. -/
theorem Settled.receivable (hs : Settled s) {id : CallId} {call : Call}
    (hwait : s.calls id = .waiting call) (hheld : id ∉ s.holders) :
    ∃ out t, step env ops s (.receive id) = some t ∧ t.calls id = .done call out := by
  obtain ⟨htx, ⟨out, hqueue, -⟩ | ⟨hqueue, -⟩⟩ := hs.waiting id call hwait hheld
  · have hstep : step env ops s (.receive id)
        = some (s.received id call out { s.replies id with queue := [] }) := by
      simp only [step, hwait, Chan.recv_cons hqueue]
    exact ⟨out, _, hstep, Function.update_self ..⟩
  · have hrecv : (s.replies id).recv = .disconnected := by simp [Chan.recv, hqueue, htx]
    have hstep : step env ops s (.receive id)
        = some (s.received id call call.channelError (s.replies id)) := by
      simp only [step, hwait, hrecv]
    exact ⟨call.channelError, _, hstep, Function.update_self ..⟩

/-! ## A caller starts a call -/

/-- A call that has not been made is not held. -/
theorem Held.not_held_of_idle (hh : Held s) {id : CallId} (hidle : s.calls id = .idle) :
    id ∉ s.holders := by
  intro hid
  obtain ⟨call, hwait⟩ := hh.caller hid
  nomatch hidle.symm.trans hwait

section
variable {id : CallId} {call : Call}

theorem holders_enqueued :
    (s.enqueued id call (s.requests.push (call.request id))).holders = s.holders ++ [id] := by
  simp [State.holders, State.enqueued]

/-- **Frame.** Every other call keeps its status. -/
theorem calls_enqueued_of_ne {requests : Chan ChainRequest} {id' : CallId} (h : id' ≠ id) :
    (s.enqueued id call requests).calls id' = s.calls id' := Function.update_of_ne h _ _

/-- **Frame.** Every other call keeps its channel. -/
theorem replies_enqueued_of_ne {requests : Chan ChainRequest} {id' : CallId} (h : id' ≠ id) :
    (s.enqueued id call requests).replies id' = s.replies id' := Function.update_of_ne h _ _

theorem calls_enqueued_self {requests : Chan ChainRequest} :
    (s.enqueued id call requests).calls id = .waiting call := Function.update_self ..

theorem waiting_enqueued (hidle : s.calls id = .idle) {requests : Chan ChainRequest}
    {id' : CallId} {c : Call} (hwait : s.calls id' = .waiting c) :
    (s.enqueued id call requests).calls id' = .waiting c := by
  refine (calls_enqueued_of_ne ?_).trans hwait
  rintro rfl
  nomatch hidle.symm.trans hwait

theorem requested_enqueued (hidle : s.calls id = .idle) {requests : Chan ChainRequest}
    {req : ChainRequest} (h : Requested s req) : Requested (s.enqueued id call requests) req := by
  obtain ⟨c, hwait, heq⟩ := h
  exact ⟨c, waiting_enqueued hidle hwait, heq⟩

theorem Order.enqueued (ho : Order s) (hrunning : s.pc.running = true)
    (hsent : id ∉ s.history.sent) :
    Order (s.enqueued id call (s.requests.push (call.request id))) where
  unbounded := ho.unbounded
  receiver := ho.receiver
  discarded h := nomatch hrunning.symm.trans h
  nodup := by
    show (s.history.sent ++ [id]).Nodup
    rw [← List.concat_eq_append]
    exact ho.nodup.concat hsent
  fifo _ := by
    show s.history.taken.map ChainRequest.replyTo
        ++ (s.requests.queue ++ [call.request id]).map ChainRequest.replyTo
      = s.history.sent ++ [id]
    rw [List.map_append, ← List.append_assoc, ho.fifo hrunning]
    simp
  taken := ho.taken.trans (List.sublist_append_left _ _)
  executed := ho.executed

theorem Held.enqueued (hh : Held s) (hidle : s.calls id = .idle) :
    Held (s.enqueued id call (s.requests.push (call.request id))) where
  nodup := by
    rw [holders_enqueued, ← List.concat_eq_append]
    exact hh.nodup.concat (hh.not_held_of_idle hidle)
  channel id' hid' := by
    rw [holders_enqueued] at hid'
    rcases List.mem_append.mp hid' with hold | hnew
    · have hne : id' ≠ id := by
        rintro rfl
        exact hh.not_held_of_idle hidle hold
      exact (replies_enqueued_of_ne hne).trans (hh.channel id' hold)
    · rw [List.mem_singleton.mp hnew]
      exact Function.update_self ..
  queued req hreq := by
    rcases List.mem_append.mp hreq with hreq | hreq
    · exact requested_enqueued hidle (hh.queued req hreq)
    · rw [List.mem_singleton.mp hreq]
      refine ⟨call, ?_, ?_⟩
      · rw [request_replyTo]
        exact calls_enqueued_self
      · rw [request_replyTo]
  serving req hpc := by
    obtain ⟨hnot, hreq, htaken⟩ := hh.serving req hpc
    exact ⟨hnot, requested_enqueued hidle hreq, htaken⟩
  commanded id' hpc := by
    obtain ⟨hnot, hwait, htaken⟩ := hh.commanded id' hpc
    exact ⟨hnot, waiting_enqueued hidle hwait, htaken⟩
  replying id' out last hpc := by
    obtain ⟨c, hwait, hmem⟩ := hh.replying id' out last hpc
    exact ⟨c, waiting_enqueued hidle hwait, hmem⟩

theorem Settled.enqueued (hs : Settled s) :
    Settled (s.enqueued id call (s.requests.push (call.request id))) where
  idle id' hidle' hmem := by
    have hne : id' ≠ id := by
      rintro rfl
      nomatch calls_enqueued_self.symm.trans hidle'
    rw [calls_enqueued_of_ne hne] at hidle'
    rcases List.mem_append.mp hmem with hmem | hmem
    · exact hs.idle id' hidle' hmem
    · exact hne (List.mem_singleton.mp hmem)
  waiting id' call' hwait hid' := by
    -- a waiting call that is not held is not the new one, which is queued
    rw [holders_enqueued, List.mem_append, not_or, List.mem_singleton] at hid'
    rw [calls_enqueued_of_ne hid'.2] at hwait
    rw [replies_enqueued_of_ne hid'.2]
    exact hs.waiting id' call' hwait hid'.1
  done id' call' out hdone := by
    have hne : id' ≠ id := by
      rintro rfl
      nomatch calls_enqueued_self.symm.trans hdone
    rw [calls_enqueued_of_ne hne] at hdone
    exact hs.done id' call' out hdone

end

/-- The request is enqueued. -/
theorem inv_call (hi : Inv s) {id : CallId} {call : Call} {requests : Chan ChainRequest}
    (hidle : s.calls id = .idle) (hsend : s.requests.send (call.request id) = .sent requests) :
    Inv (s.enqueued id call requests) := by
  obtain ⟨ho, hh, hs⟩ := hi
  obtain rfl := Chan.eq_push_of_send hsend
  have hrx : s.requests.rx = true := by
    cases hrx : s.requests.rx with
    | true => rfl
    | false => nomatch (Chan.send_dead hrx (call.request id)).symm.trans hsend
  have hrunning : s.pc.running = true := ho.receiver.symm.trans hrx
  have hsent : id ∉ s.history.sent := hs.idle id hidle
  exact ⟨ho.enqueued hrunning hsent, hh.enqueued hidle, hs.enqueued⟩

/-- In `u` the call `id` has returned `out`; nothing else differs from `s` but its channel. -/
structure Returned (s u : State C) (id : CallId) (call : Call) (out : Reply) : Prop where
  pc : u.pc = s.pc
  requests : u.requests = s.requests
  history : u.history = s.history
  calls : u.calls = Function.update s.calls id (.done call out)
  replies : ∀ id', id' ≠ id → u.replies id' = s.replies id'

section
variable {u : State C} {id : CallId} {call : Call} {out : Reply}

theorem Returned.holders (hr : Returned s u id call out) : u.holders = s.holders := by
  rw [State.holders, hr.pc, hr.requests]
  rfl

theorem Returned.self (hr : Returned s u id call out) : u.calls id = .done call out := by
  rw [hr.calls]
  exact Function.update_self ..

theorem Returned.other (hr : Returned s u id call out) {id' : CallId} (h : id' ≠ id) :
    u.calls id' = s.calls id' := by
  rw [hr.calls]
  exact Function.update_of_ne h _ _

/-- A held call is not the one that returns. -/
theorem Returned.of_held (hr : Returned s u id call out) (hheld : id ∉ s.holders) {id' : CallId}
    (h : id' ∈ s.holders) : u.calls id' = s.calls id' := by
  apply hr.other
  rintro rfl
  exact hheld h

/-- So the call that is served keeps its status. -/
theorem Returned.of_served (hr : Returned s u id call out) (hheld : id ∉ s.holders)
    {id' : CallId} (h : s.pc.held = [id']) : u.calls id' = s.calls id' := by
  refine hr.of_held hheld (List.mem_append_left _ ?_)
  rw [h]
  exact List.mem_singleton_self id'

theorem Returned.order (hr : Returned s u id call out) (ho : Order s) : Order u where
  unbounded := by rw [hr.requests]; exact ho.unbounded
  receiver := by rw [hr.requests, hr.pc]; exact ho.receiver
  discarded := by rw [hr.requests, hr.pc]; exact ho.discarded
  nodup := by rw [hr.history]; exact ho.nodup
  fifo := by rw [hr.requests, hr.pc, hr.history]; exact ho.fifo
  taken := by rw [hr.history]; exact ho.taken
  executed := by rw [hr.history]; exact ho.executed

theorem Returned.held (hr : Returned s u id call out) (hheld : id ∉ s.holders) (hh : Held s) :
    Held u where
  nodup := by
    rw [hr.holders]
    exact hh.nodup
  channel id' hid' := by
    rw [hr.holders] at hid'
    have hne : id' ≠ id := by
      rintro rfl
      exact hheld hid'
    rw [hr.replies id' hne]
    exact hh.channel id' hid'
  queued req hreq := by
    rw [hr.requests] at hreq
    obtain ⟨c, hwait, heq⟩ := hh.queued req hreq
    have hqueued : req.replyTo ∈ s.holders :=
      List.mem_append_right _ (List.mem_map.mpr ⟨req, hreq, rfl⟩)
    exact ⟨c, (hr.of_held hheld hqueued).trans hwait, heq⟩
  serving req hserve := by
    rw [hr.pc] at hserve
    obtain ⟨hnot, ⟨c, hwait, heq⟩, htaken⟩ := hh.serving req hserve
    have hkept : u.calls req.replyTo = s.calls req.replyTo :=
      hr.of_served hheld (congrArg Pc.held hserve)
    rw [hr.history]
    exact ⟨hnot, ⟨c, hkept.trans hwait, heq⟩, htaken⟩
  commanded id' hcommand := by
    rw [hr.pc] at hcommand
    obtain ⟨hnot, hwait, htaken⟩ := hh.commanded id' hcommand
    have hkept : u.calls id' = s.calls id' := hr.of_served hheld (congrArg Pc.held hcommand)
    rw [hr.history]
    exact ⟨hnot, hkept.trans hwait, htaken⟩
  replying id' out' last hreply := by
    rw [hr.pc] at hreply
    obtain ⟨c, hwait, hmem⟩ := hh.replying id' out' last hreply
    have hkept : u.calls id' = s.calls id' := hr.of_served hheld (congrArg Pc.held hreply)
    rw [hr.history]
    exact ⟨c, hkept.trans hwait, hmem⟩

theorem Returned.settled (hr : Returned s u id call out) (hs : Settled s)
    (hout : ⟨id, call, out⟩ ∈ s.history.executed ∨
      id ∉ s.history.executedIds ∧ out = call.channelError) : Settled u where
  idle id' hidle := by
    rw [hr.history]
    by_cases hid : id' = id
    · rw [hid, hr.self] at hidle
      nomatch hidle
    · rw [hr.other hid] at hidle
      exact hs.idle id' hidle
  waiting id' call' hwait hid' := by
    rw [hr.holders] at hid'
    by_cases hid : id' = id
    · rw [hid, hr.self] at hwait
      nomatch hwait
    · rw [hr.other hid] at hwait
      rw [hr.replies id' hid, SettledReply, hr.history]
      exact hs.waiting id' call' hwait hid'
  done id' call' out' hdone := by
    rw [hr.history]
    by_cases hid : id' = id
    · rw [hid, hr.self] at hdone
      obtain ⟨rfl, rfl⟩ := CallStatus.done.inj hdone
      rw [hid]
      exact hout
    · rw [hr.other hid] at hdone
      exact hs.done id' call' out' hdone

end

/-- A call that is not held returns `out`. -/
theorem inv_return (hi : Inv s) {u : State C} {id : CallId} {call : Call} {out : Reply}
    (hheld : id ∉ s.holders) (hr : Returned s u id call out)
    (hout : ⟨id, call, out⟩ ∈ s.history.executed ∨
      id ∉ s.history.executedIds ∧ out = call.channelError) : Inv u :=
  ⟨hr.order hi.order, hr.held hheld hi.held, hr.settled hi.settled hout⟩

/-! ## What the runtime does preserves the invariant -/

theorem inv_take (hi : Inv s) {req : ChainRequest} {requests : Chan ChainRequest}
    (hpc : s.pc = .select) (hrecv : s.requests.recv = .received req requests) :
    Inv (s.take req requests) := by
  obtain ⟨ho, hh, hs⟩ := hi
  obtain ⟨rest, hqueue, rfl⟩ := Chan.queue_of_recv hrecv
  have hrunning : s.pc.running = true := by rw [hpc]; rfl
  have hfifo := ho.fifo hrunning
  rw [hqueue] at hfifo
  have hholders : (s.take req { s.requests with queue := rest }).holders = s.holders := by
    simp [State.holders, State.take, Pc.held, hpc, hqueue]
  have hmem : req ∈ s.requests.queue := by rw [hqueue]; exact List.mem_cons_self
  have horder : Order (s.take req { s.requests with queue := rest }) :=
    { unbounded := ho.unbounded
      receiver := ho.receiver.trans hrunning
      discarded := nofun
      nodup := ho.nodup
      fifo := by
        intro _
        show (s.history.taken ++ [req]).map ChainRequest.replyTo ++ rest.map ChainRequest.replyTo
          = s.history.sent
        simpa using hfifo
      taken := by
        show ((s.history.taken ++ [req]).map ChainRequest.replyTo).Sublist s.history.sent
        rw [← hfifo, List.map_append, List.map_cons]
        exact List.Sublist.append_left (by simp) _
      executed := by
        show s.history.executedIds.Sublist ((s.history.taken ++ [req]).map ChainRequest.replyTo)
        rw [List.map_append]
        exact ho.executed.trans (List.sublist_append_left _ _) }
  have hheld : Held (s.take req { s.requests with queue := rest }) :=
    { nodup := by rw [hholders]; exact hh.nodup
      channel := by rw [hholders]; exact hh.channel
      queued := by
        intro req' hreq'
        exact hh.queued req' (by rw [hqueue]; exact List.mem_cons_of_mem _ hreq')
      serving := by
        intro req' hserve
        obtain rfl := Pc.serving.inj hserve
        have hqueued : req.replyTo ∈ s.requests.queue.map ChainRequest.replyTo :=
          List.mem_map.mpr ⟨req, hmem, rfl⟩
        exact ⟨ho.queued_not_executed hqueued, hh.queued req hmem, s.history.taken, rfl⟩
      commanded := nofun
      replying := nofun }
  exact ⟨horder, hheld, hs.idle, by rw [hholders]; exact hs.waiting, hs.done⟩

theorem inv_command (hi : Inv s) {id : CallId} (hpc : s.pc = .serving (.shutdown id)) :
    Inv (s.command id) := by
  obtain ⟨ho, hh, hs⟩ := hi
  have hrunning : s.pc.running = true := by rw [hpc]; rfl
  have hholders : (s.command id).holders = s.holders := by
    simp [State.holders, State.command, Pc.held, hpc, ChainRequest.replyTo]
  have horder : Order (s.command id) :=
    { ho with
      receiver := ho.receiver.trans hrunning
      discarded := nofun
      fifo := fun _ => ho.fifo hrunning }
  have hheld : Held (s.command id) :=
    { nodup := by rw [hholders]; exact hh.nodup
      channel := by rw [hholders]; exact hh.channel
      queued := hh.queued
      serving := nofun
      commanded := by
        intro id' hcommand
        obtain rfl := Pc.commanded.inj hcommand
        obtain ⟨hnot, ⟨call, hwait, heq⟩, htaken⟩ := hh.serving _ hpc
        cases call with
        | shutdown => exact ⟨hnot, hwait, htaken⟩
        | sendMsgs protoMsgs => nomatch heq
      replying := nofun }
  exact ⟨horder, hheld, hs.idle, by rw [hholders]; exact hs.waiting, hs.done⟩

/-- An execution of the request in hand. -/
theorem inv_execute (hi : Inv s) {id : CallId} {call : Call} {out : Reply} {c : C} {last : Bool}
    (hrunning : s.pc.running = true) (hheld : s.pc.held = [id])
    (hnot : id ∉ s.history.executedIds) (hwait : s.calls id = .waiting call)
    (htaken : ∃ done req, s.history.taken = done ++ [req] ∧ req.replyTo = id) :
    Inv (s.execute id call out c last) := by
  obtain ⟨ho, hh, hs⟩ := hi
  have hholders : (s.execute id call out c last).holders = s.holders := by
    show [id] ++ s.requests.queue.map ChainRequest.replyTo = s.pc.held ++ _
    rw [hheld]
  have hids : (s.execute id call out c last).history.executedIds
      = s.history.executedIds ++ [id] := by
    simp [State.execute, History.executedIds]
  have horder : Order (s.execute id call out c last) :=
    { ho with
      receiver := ho.receiver.trans hrunning
      discarded := nofun
      fifo := fun _ => ho.fifo hrunning
      executed := by
        obtain ⟨done, req, htaken, rfl⟩ := htaken
        have hsub := ho.executed
        rw [htaken, List.map_append] at hsub
        -- the request in hand is not among the executed ones, which are then those before it
        have hearlier : s.history.executedIds.Sublist (done.map ChainRequest.replyTo) := by
          refine List.Sublist.of_sublist_append_left ?_ hsub
          intro id' hid' hlast
          rw [List.mem_singleton.mp hlast] at hid'
          exact hnot hid'
        rw [hids]
        show (s.history.executedIds ++ [req.replyTo]).Sublist
          (s.history.taken.map ChainRequest.replyTo)
        rw [htaken, List.map_append]
        exact hearlier.append (List.Sublist.refl _) }
  have hheld' : Held (s.execute id call out c last) :=
    { nodup := by rw [hholders]; exact hh.nodup
      channel := by rw [hholders]; exact hh.channel
      queued := hh.queued
      serving := nofun
      commanded := nofun
      replying := by
        intro id' out' last' hreply
        obtain ⟨rfl, rfl, -⟩ := Pc.replying.inj hreply
        exact ⟨call, hwait, List.mem_append_right _ List.mem_cons_self⟩ }
  have hsettled : Settled (s.execute id call out c last) :=
    { idle := hs.idle
      waiting := by
        intro id' call' hwait' hid'
        rw [hholders] at hid'
        have hne : id' ≠ id := by
          rintro rfl
          exact hid' (by rw [State.holders, hheld]; exact List.mem_cons_self)
        obtain ⟨htx, hreply⟩ := hs.waiting id' call' hwait' hid'
        refine ⟨htx, ?_⟩
        rcases hreply with ⟨out', hqueue, hmem⟩ | ⟨hqueue, hnot'⟩
        · exact .inl ⟨out', hqueue, List.mem_append_left _ hmem⟩
        · refine .inr ⟨hqueue, ?_⟩
          rw [hids, List.mem_append, not_or, List.mem_singleton]
          exact ⟨hnot', hne⟩
      done := by
        intro id' call' out' hdone
        rcases hs.done id' call' out' hdone with hmem | ⟨hnot', hout⟩
        · exact .inl (List.mem_append_left _ hmem)
        · refine .inr ⟨?_, hout⟩
          rw [hids, List.mem_append, not_or, List.mem_singleton]
          refine ⟨hnot', ?_⟩
          rintro rfl
          nomatch hwait.symm.trans hdone }
  exact ⟨horder, hheld', hsettled⟩

/-- The runtime is dropped while it has executed nothing of what it holds. -/
theorem inv_exit (hi : Inv s) (res : Outcome Kind Unit)
    (hheld : ∀ id ∈ s.pc.held, id ∉ s.history.executedIds) : Inv (s.exit res) := by
  obtain ⟨ho, hh, hs⟩ := hi
  have horder : Order (s.exit res) :=
    { ho with
      receiver := rfl
      discarded := fun _ => rfl
      fifo := nofun }
  have hheld' : Held (s.exit res) := ⟨List.nodup_nil, nofun, nofun, nofun, nofun, nofun⟩
  refine ⟨horder, hheld', hs.idle, ?_, hs.done⟩
  intro id call hwait _
  -- a reply sender that is dropped now leaves an empty channel behind
  by_cases hid : id ∈ s.holders
  · have hreply : (s.exit res).replies id = (Chan.bounded 1).dropTx := by
      rw [← hh.channel id hid]
      exact if_pos hid
    rw [hreply]
    refine ⟨rfl, .inr ⟨rfl, ?_⟩⟩
    rcases List.mem_append.mp hid with hid | hid
    · exact hheld id hid
    · exact ho.queued_not_executed hid
  · have hreply : (s.exit res).replies id = s.replies id := if_neg hid
    rw [hreply]
    exact hs.waiting id call hwait hid

/-- The branch of a request is over and its reply sender is dropped. -/
theorem inv_branchDone (hi : Inv s) {id : CallId} {reply : Chan Reply}
    (hrunning : s.pc.running = true) (hheld : s.pc.held = [id])
    (hsettled : ∀ call, s.calls id = .waiting call → SettledReply s id call reply.dropTx) :
    Inv (s.branchDone id reply) := by
  obtain ⟨ho, hh, hs⟩ := hi
  have hholders : s.holders = id :: (s.branchDone id reply).holders := by
    show s.pc.held ++ _ = id :: s.requests.queue.map ChainRequest.replyTo
    rw [hheld]
    rfl
  have hnodup := hh.nodup
  rw [hholders] at hnodup
  obtain ⟨hnew, hnodup⟩ := List.nodup_cons.mp hnodup
  have horder : Order (s.branchDone id reply) :=
    { ho with
      receiver := ho.receiver.trans hrunning
      discarded := nofun
      fifo := fun _ => ho.fifo hrunning }
  have hheld' : Held (s.branchDone id reply) :=
    { nodup := hnodup
      channel := by
        intro id' hid'
        have hne : id' ≠ id := by
          rintro rfl
          exact hnew hid'
        refine (Function.update_of_ne hne _ _).trans (hh.channel id' ?_)
        rw [hholders]
        exact List.mem_cons_of_mem _ hid'
      queued := hh.queued
      serving := nofun
      commanded := nofun
      replying := nofun }
  refine ⟨horder, hheld', hs.idle, ?_, hs.done⟩
  intro id' call hwait hid'
  by_cases hne : id' = id
  · have hreply : (s.branchDone id reply).replies id' = reply.dropTx := by
      rw [hne]
      exact Function.update_self ..
    rw [hreply]
    rw [hne] at hwait ⊢
    exact hsettled call hwait
  · have hreply : (s.branchDone id reply).replies id' = s.replies id' :=
      Function.update_of_ne hne _ _
    rw [hreply]
    refine hs.waiting id' call hwait ?_
    rw [hholders, List.mem_cons, not_or]
    exact ⟨hne, hid'⟩

/-- The chain's result is sent. -/
theorem inv_reply (hi : Inv s) {id : CallId} {out : Reply} {last : Bool} {reply : Chan Reply}
    (hpc : s.pc = .replying id out last) (hsend : (s.replies id).send out = .sent reply) :
    Inv (s.branchDone id reply) := by
  obtain ⟨call, hwait, hmem⟩ := hi.held.replying id out last hpc
  have hreply : reply = (Chan.bounded 1).push out :=
    SendResult.sent.inj (hsend.symm.trans (hi.held.reply_sent hpc))
  refine inv_branchDone hi (by rw [hpc]; rfl) (by rw [hpc]; rfl) fun call' hwait' => ?_
  obtain rfl := CallStatus.waiting.inj (hwait.symm.trans hwait')
  rw [hreply]
  exact ⟨rfl, .inl ⟨out, rfl, hmem⟩⟩

/-! ## The step and the run lemma -/

/-- **Step lemma.** -/
theorem inv_step {l : Label} (hi : Inv s) (h : Step env ops s l t) : Inv t := by
  cases h with
  | call hidle hsend => exact inv_call hi hidle hsend
  | @refused id call hidle hsend =>
    have hid : id ∉ s.holders := by
      intro hid
      obtain ⟨call', hwait⟩ := hi.held.caller hid
      nomatch hidle.symm.trans hwait
    refine inv_return hi hid ⟨rfl, rfl, rfl, rfl, fun _ _ => rfl⟩ (.inr ⟨fun hexec => ?_, rfl⟩)
    exact hi.settled.idle id hidle (hi.order.executed_sent.subset hexec)
  | takeEvent _ _ => exact hi.frame s.monitor (s.eventsTaken + 1)
  | eventsGone hpc _ => exact inv_exit hi _ fun id hid => absurd hid (by rw [hpc]; nofun)
  | takeRequest hpc hrecv => exact inv_take hi hpc hrecv
  | noSender _ _ => exact hi
  | command hpc _ => exact inv_command hi hpc
  | @noMonitor id hpc _ =>
    refine inv_exit hi _ fun id' hid' => ?_
    rw [hpc] at hid'
    rw [List.mem_singleton.mp hid']
    exact (hi.held.serving _ hpc).1
  | @sendMsgs protoMsgs id hpc =>
    obtain ⟨hnot, ⟨call, hwait, heq⟩, done, htaken⟩ := hi.held.serving _ hpc
    cases call with
    | shutdown => nomatch heq
    | sendMsgs protoMsgs' =>
      obtain ⟨rfl, -⟩ := ChainRequest.sendMsgs.inj heq
      exact inv_execute hi (by rw [hpc]; rfl) (by rw [hpc]; rfl) hnot hwait ⟨done, _, htaken, rfl⟩
  | @subscribe id hpc =>
    obtain ⟨-, ⟨call, -, heq⟩, -⟩ := hi.held.serving _ hpc
    cases call with
    | shutdown => nomatch heq
    | sendMsgs protoMsgs => nomatch heq
  | @shutdownChain id hpc =>
    obtain ⟨hnot, hwait, done, htaken⟩ := hi.held.commanded id hpc
    exact inv_execute hi (by rw [hpc]; rfl) (by rw [hpc]; rfl) hnot hwait ⟨done, _, htaken, rfl⟩
  | reply hpc hsend => exact inv_reply hi hpc hsend
  | lastReply hpc hsend => exact inv_exit (inv_reply hi hpc hsend) _ nofun
  -- the slot of a held reply channel is free, so this send does not fail
  | noCaller hpc hsend => nomatch hsend.symm.trans (hi.held.reply_sent hpc)
  | @receive id call out reply hwait hrecv =>
    have hid : id ∉ s.holders := hi.held.not_held (by rw [hrecv]; nofun)
    refine inv_return hi hid ⟨rfl, rfl, rfl, rfl, fun id' h => Function.update_of_ne h _ _⟩ ?_
    obtain ⟨rest, hqueue, -⟩ := Chan.queue_of_recv hrecv
    obtain ⟨-, ⟨out', hqueue', hmem⟩ | ⟨hqueue', -⟩⟩ := hi.settled.waiting id call hwait hid
    · obtain ⟨rfl, -⟩ := List.cons.inj (hqueue.symm.trans hqueue')
      exact .inl hmem
    · nomatch hqueue.symm.trans hqueue'
  | @lost id call hwait hrecv =>
    have hid : id ∉ s.holders := hi.held.not_held (by rw [hrecv]; nofun)
    refine inv_return hi hid ⟨rfl, rfl, rfl, rfl, fun id' h => Function.update_of_ne h _ _⟩ ?_
    obtain ⟨-, ⟨out', hqueue, -⟩ | ⟨-, hnot⟩⟩ := hi.settled.waiting id call hwait hid
    · nomatch hrecv.symm.trans (Chan.recv_cons hqueue)
    · exact .inr ⟨hnot, rfl⟩
  | @monitor _ m _ _ => exact hi.frame m s.eventsTaken

/-- The run lemma. -/
theorem inv_reachable (h : (machine env ops chain).Reachable s) : Inv s :=
  reachable_invariant inv_init (fun _ _ _ => inv_step) h

/-! ## Executions come one at a time, and none after a shutdown -/

/-- Running the chain through some executions: each result is the one that the chain gave in the
    state the executions before it had left. -/
inductive Executes (ops : Chain C) (chain : C) : List Execution → C → Prop where
  | nil : Executes ops chain [] chain
  | sendMsgs {done c} (h : Executes ops chain done c) (id : CallId) (protoMsgs : List Any) :
      Executes ops chain
        (done ++ [⟨id, .sendMsgs protoMsgs, .sendMsgs (ops.sendMsgs c protoMsgs).1⟩])
        (ops.sendMsgs c protoMsgs).2
  | shutdown {done c} (h : Executes ops chain done c) (id : CallId) :
      Executes ops chain (done ++ [⟨id, .shutdown, .shutdown (ops.shutdown c)⟩]) c

theorem executes_reachable (h : (machine env ops chain).Reachable s) :
    Executes ops chain s.history.executed s.chain := by
  refine reachable_invariant (I := fun s => Executes ops chain s.history.executed s.chain) .nil
    (fun s l t hi hstep => ?_) h
  cases hstep with
  | sendMsgs _ => exact .sendMsgs hi _ _
  | shutdownChain _ => exact .shutdown hi _
  | _ => exact hi

/-- An executed shutdown is the last execution, and the runtime is about to exit. -/
structure ShutdownLast (s : State C) : Prop where
  last : ∀ pre e post, s.history.executed = pre ++ e :: post → e.call = .shutdown → post = []
  exiting : ∀ e ∈ s.history.executed, e.call = .shutdown →
    (∃ id out, s.pc = .replying id out true) ∨ s.pc.running = false

theorem shutdownLast_init : ShutdownLast (initialState env chain) where
  last := fun _ _ _ h => absurd h.symm (by simp [initialState])
  exiting := nofun

/-- Anywhere else nothing has been shut down. -/
theorem ShutdownLast.none_yet (hi : ShutdownLast s) (hrunning : s.pc.running = true)
    (hpc : ∀ id out, s.pc ≠ .replying id out true) :
    ∀ e ∈ s.history.executed, e.call ≠ .shutdown := by
  intro e he hshutdown
  rcases hi.exiting e he hshutdown with ⟨id, out, hreply⟩ | hstopped
  · exact hpc id out hreply
  · nomatch hrunning.symm.trans hstopped

/-- A step that executes nothing and starts where nothing has been shut down. -/
theorem ShutdownLast.go_on (hi : ShutdownLast s) (hrunning : s.pc.running = true)
    (hpc : ∀ id out, s.pc ≠ .replying id out true)
    (hexec : t.history.executed = s.history.executed) : ShutdownLast t := by
  have hnone := hi.none_yet hrunning hpc
  rw [← hexec] at hnone
  refine ⟨fun pre e post hsplit hshutdown => ?_,
    fun e he hshutdown => absurd hshutdown (hnone e he)⟩
  have he : e ∈ pre ++ e :: post := List.mem_append_right _ List.mem_cons_self
  exact absurd hshutdown (hnone e (by rw [hsplit]; exact he))

theorem ShutdownLast.execute (hi : ShutdownLast s) (hrunning : s.pc.running = true)
    (hpc : ∀ id out, s.pc ≠ .replying id out true) {id : CallId} {call : Call} {out : Reply} {c : C}
    {last : Bool} (hlast : call = .shutdown → last = true) :
    ShutdownLast (s.execute id call out c last) := by
  have hnone := hi.none_yet hrunning hpc
  refine ⟨fun pre e post hsplit hshutdown => ?_, fun e he hshutdown => ?_⟩
  · have hsplit' : s.history.executed ++ [⟨id, call, out⟩] = pre ++ e :: post := hsplit
    cases post using List.reverseRecOn with
    | nil => rfl
    | append_singleton post x =>
      -- a shutdown before the last execution would be one that came earlier
      rw [← List.cons_append, ← List.append_assoc] at hsplit'
      have hexecuted := (List.append_inj' hsplit' rfl).1
      refine absurd hshutdown (hnone e ?_)
      rw [hexecuted]
      exact List.mem_append_right _ List.mem_cons_self
  · rcases List.mem_append.mp he with he | he
    · exact absurd hshutdown (hnone e he)
    · rw [List.mem_singleton.mp he] at hshutdown
      rw [hlast hshutdown]
      exact .inl ⟨id, out, rfl⟩

theorem shutdownLast_step {l : Label} (hi : ShutdownLast s) (h : Step env ops s l t) :
    ShutdownLast t := by
  cases h with
  | eventsGone _ _ => exact ⟨hi.last, fun _ _ _ => .inr rfl⟩
  | noMonitor _ _ => exact ⟨hi.last, fun _ _ _ => .inr rfl⟩
  | lastReply _ _ => exact ⟨hi.last, fun _ _ _ => .inr rfl⟩
  | noCaller _ _ => exact ⟨hi.last, fun _ _ _ => .inr rfl⟩
  | takeRequest hpc _ => exact hi.go_on (by rw [hpc]; rfl) (by rw [hpc]; nofun) rfl
  | command hpc _ => exact hi.go_on (by rw [hpc]; rfl) (by rw [hpc]; nofun) rfl
  | subscribe hpc => exact hi.go_on (by rw [hpc]; rfl) (by rw [hpc]; nofun) rfl
  | reply hpc _ => exact hi.go_on (by rw [hpc]; rfl) (by rw [hpc]; nofun) rfl
  | sendMsgs hpc => exact hi.execute (by rw [hpc]; rfl) (by rw [hpc]; nofun) nofun
  | shutdownChain hpc => exact hi.execute (by rw [hpc]; rfl) (by rw [hpc]; nofun) fun _ => rfl
  | _ => exact ⟨hi.last, hi.exiting⟩

theorem shutdownLast_reachable (h : (machine env ops chain).Reachable s) : ShutdownLast s :=
  reachable_invariant shutdownLast_init (fun _ _ _ => shutdownLast_step) h

/-! ## Every call can end -/

/-- The steps by which the runtime works on requests. -/
def Label.isService : Label → Bool
  | .takeRequest => true
  | .serve => true
  | .shutdownChain => true
  | .reply => true
  | _ => false

def Pc.work : Pc → Nat
  | .serving _ => 3
  | .commanded _ => 2
  | .replying _ _ _ => 1
  | _ => 0

/-- A bound on the number of service steps until the runtime holds no request. -/
def State.work (s : State C) : Nat := s.pc.work + 4 * s.requests.queue.length

/-- While the runtime holds a reply sender, a service step is enabled, and it leaves less work. -/
theorem service_step (env : Monitor.Env) (ops : Chain C) (hi : Inv s) (hheld : s.holders ≠ []) :
    ∃ l t, l.isService = true ∧ step env ops s l = some t ∧ t.work < s.work ∧
      t.calls = s.calls := by
  cases hpc : s.pc with
  | select =>
    cases hqueue : s.requests.queue with
    | nil => exact absurd (by rw [State.holders, hpc, hqueue]; rfl) hheld
    | cons req rest =>
      have hstep : step env ops s .takeRequest
          = some (s.take req { s.requests with queue := rest }) := by
        simp only [step, hpc, Chan.recv_cons hqueue]
      refine ⟨.takeRequest, _, rfl, hstep, ?_, rfl⟩
      simp only [State.work, State.take, Pc.work, hpc, hqueue, List.length_cons]
      omega
  | serving req =>
    cases req with
    | shutdown id =>
      cases hdead : monitorDead s.monitor with
      | true =>
        have hstep : step env ops s .serve = some (s.exit (.err .channel)) := by
          simp only [step, hpc, hdead, if_true]
        refine ⟨.serve, _, rfl, hstep, ?_, rfl⟩
        simp only [State.work, State.exit, Chan.dropRx, Pc.work, hpc, List.length_nil]
        omega
      | false =>
        have hstep : step env ops s .serve = some (s.command id) := by
          simp only [step, hpc, hdead, Bool.false_eq_true, if_false]
        refine ⟨.serve, _, rfl, hstep, ?_, rfl⟩
        simp only [State.work, State.command, Pc.work, hpc]
        omega
    | sendMsgs protoMsgs id =>
      have hstep : step env ops s .serve = some (s.execute id (.sendMsgs protoMsgs)
          (.sendMsgs (ops.sendMsgs s.chain protoMsgs).1) (ops.sendMsgs s.chain protoMsgs).2
          false) := by
        simp only [step, hpc]
      refine ⟨.serve, _, rfl, hstep, ?_, rfl⟩
      simp only [State.work, State.execute, Pc.work, hpc]
      omega
    | subscribe id =>
      have hstep : step env ops s .serve = some (s.branchDone id (s.replies id)) := by
        simp only [step, hpc]
      refine ⟨.serve, _, rfl, hstep, ?_, rfl⟩
      simp only [State.work, State.branchDone, Pc.work, hpc]
      omega
  | commanded id =>
    have hstep : step env ops s .shutdownChain
        = some (s.execute id .shutdown (.shutdown (ops.shutdown s.chain)) s.chain true) := by
      simp only [step, hpc]
    refine ⟨.shutdownChain, _, rfl, hstep, ?_, rfl⟩
    simp only [State.work, State.execute, Pc.work, hpc]
    omega
  | replying id out last =>
    have hsend := hi.held.reply_sent hpc
    cases last with
    | true =>
      have hstep : step env ops s .reply
          = some ((s.branchDone id ((Chan.bounded 1).push out)).exit (.ok ())) := by
        simp only [step, hpc, hsend, if_true]
      refine ⟨.reply, _, rfl, hstep, ?_, rfl⟩
      simp only [State.work, State.exit, Chan.dropRx, Pc.work, hpc, List.length_nil]
      omega
    | false =>
      have hstep : step env ops s .reply
          = some (s.branchDone id ((Chan.bounded 1).push out)) := by
        simp only [step, hpc, hsend, Bool.false_eq_true, if_false]
      refine ⟨.reply, _, rfl, hstep, ?_, rfl⟩
      simp only [State.work, State.branchDone, Pc.work, hpc]
      omega
  | exited res =>
    have hqueue : s.requests.queue = [] := hi.order.discarded (by rw [hpc]; rfl)
    exact absurd (by rw [State.holders, hpc, hqueue]; rfl) hheld

/-- By service steps alone the runtime gets rid of every reply sender it holds. -/
theorem all_served (env : Monitor.Env) (ops : Chain C) (chain : C) (hi : Inv s) :
    ∃ ls t, (∀ l ∈ ls, l.isService = true) ∧ (machine env ops chain).exec s ls = some t ∧ Inv t ∧
      t.holders = [] ∧ t.calls = s.calls := by
  induction hn : s.work using Nat.strongRecOn generalizing s with
  | ind n ih =>
    by_cases hheld : s.holders = []
    · exact ⟨[], s, nofun, rfl, hi, hheld, rfl⟩
    · -- one service step, and the induction hypothesis for the smaller amount of work
      obtain ⟨l, u, hl, hstep, hlt, hcalls⟩ := service_step env ops hi hheld
      obtain ⟨ls, t, hls, hexec, hit, hdone, hcalls'⟩ :=
        ih u.work (hn ▸ hlt) (inv_step hi (step_cases hstep)) rfl
      refine ⟨l :: ls, t, fun l' hl' => ?_, ?_, hit, hdone, hcalls'.trans hcalls⟩
      · rcases List.mem_cons.mp hl' with rfl | hl'
        · exact hl
        · exact hls l' hl'
      · rw [Machine.exec_cons]
        exact Option.bind_eq_some_iff.mpr ⟨u, hstep, hexec⟩

/-- From every reachable state every waiting call can be brought to its end by steps of the runtime
    and of its own caller. -/
theorem call_ends (hi : Inv s) {id : CallId} {call : Call} (hwait : s.calls id = .waiting call) :
    ∃ ls t out, (∀ l ∈ ls, l.isService = true) ∧
      (machine env ops chain).exec s (ls ++ [.receive id]) = some t ∧
      t.calls id = .done call out := by
  obtain ⟨ls, u, hls, hexec, hiu, hheld, hcalls⟩ :=
    all_served env ops chain hi
  have hwait' : u.calls id = .waiting call := by rw [hcalls]; exact hwait
  obtain ⟨out, t, hstep, hdone⟩ : ∃ out t, step env ops u (.receive id) = some t ∧
      t.calls id = .done call out := hiu.settled.receivable hwait' (by rw [hheld]; nofun)
  refine ⟨ls, t, out, hls, ?_, hdone⟩
  rw [Machine.exec_append, hexec, Option.bind_some, Machine.exec_cons]
  exact Option.bind_eq_some_iff.mpr ⟨t, hstep, rfl⟩

/-! ## Headline -/

/-- **Headline.**  In every reachable state: a call that has returned was executed exactly once, and
    returned the result of that execution, or was never executed, and returned a channel error; the
    executions are runs of the chain one after the other, in the order in which the requests were
    enqueued, with none after a shutdown; a reply is sent at once; once the runtime has exited every
    waiting caller can return; and every waiting call can be brought to its end. -/
theorem request_reply {s : State C} (h : (machine env ops chain).Reachable s) :
    (∀ id call out, s.calls id = .done call out →
      (s.history.executedIds.count id = 1 ∧ ⟨id, call, out⟩ ∈ s.history.executed) ∨
        id ∉ s.history.executedIds ∧ out = call.channelError) ∧
    Executes ops chain s.history.executed s.chain ∧
    s.history.executedIds.Sublist s.history.sent ∧
    (∀ pre e post, s.history.executed = pre ++ e :: post → e.call = .shutdown → post = []) ∧
    (∀ id out last, s.pc = .replying id out last → ∃ c, (s.replies id).send out = .sent c) ∧
    (s.pc.running = false → ∀ id call, s.calls id = .waiting call →
      ∃ out t, step env ops s (.receive id) = some t ∧ t.calls id = .done call out) ∧
    ∀ id call, s.calls id = .waiting call → ∃ ls t out, (∀ l ∈ ls, l.isService = true) ∧
      (machine env ops chain).exec s (ls ++ [.receive id]) = some t ∧
      t.calls id = .done call out := by
  have hi := inv_reachable h
  refine ⟨fun id call out hdone => ?_, executes_reachable h, hi.order.executed_sent,
    (shutdownLast_reachable h).last, fun id out last hpc => ⟨_, hi.held.reply_sent hpc⟩,
    fun hexit id call hwait => hi.settled.receivable hwait ?_, fun id call => call_ends hi⟩
  · rcases hi.settled.done id call out hdone with hmem | hlost
    · exact .inl ⟨hi.order.executed_once (mem_executedIds hmem), hmem⟩
    · exact .inr hlost
  · have hheld : s.pc.held = [] := by
      cases hpc : s.pc with
      | exited res => rfl
      | _ => rw [hpc] at hexit; nomatch hexit
    rw [State.holders, hheld, hi.order.discarded hexit]
    nofun

/-- A chain whose state counts the messages it was given. -/
def countingChain : Chain Nat where
  sendMsgs := fun n protoMsgs => (.ok [.newBlock ⟨n⟩], n + protoMsgs.length)
  shutdown := fun _ => .ok ()

/-- Two callers send messages and one of them also asks for a shutdown, before which a third call
    is not dequeued any more. -/
def threeCalls : List Label :=
  [.call 0 (.sendMsgs [⟨"/a", []⟩]), .call 1 .shutdown, .takeRequest, .call 2 (.sendMsgs []),
    .serve, .reply, .receive 0, .takeRequest, .serve, .shutdownChain, .reply, .receive 2,
    .receive 1]

theorem request_reply_three :
    ∃ s, (machine Monitor.demoEnv countingChain 5).exec (initialState Monitor.demoEnv 5) threeCalls
        = some s ∧ s.history.executedIds.count 0 = 1 ∧ 2 ∉ s.history.executedIds := by
  obtain ⟨s, hs, hfirst, hthird, hids⟩ :
      ∃ s, (machine Monitor.demoEnv countingChain 5).exec (initialState Monitor.demoEnv 5)
          threeCalls = some s ∧
        s.calls 0 = .done (.sendMsgs [⟨"/a", []⟩]) (.sendMsgs (.ok [.newBlock ⟨5⟩])) ∧
        s.calls 2 = .done (.sendMsgs []) (.sendMsgs (.error .channel)) ∧
        s.history.executedIds = [0, 1] :=
    ⟨_, rfl, rfl, rfl, rfl⟩
  have hended := (request_reply (Machine.exec_reachable (.init rfl) hs)).1
  refine ⟨s, hs, ?_, by rw [hids]; decide⟩
  rcases hended 0 _ _ hfirst with ⟨hcount, -⟩ | ⟨hnot, -⟩
  · exact hcount
  · rw [hids] at hnot
    exact absurd List.mem_cons_self hnot

end OffChainWorker.Runtime
