/-
  What becomes of a dequeued `Shutdown` request.

  The branch of `ChainRuntime::run` first tells the event monitor to shut down, with a `?` on the
  send.  The monitor thread may have died before: it panics on some transaction events, and the
  select may take the request before it notices the disconnected event channel.  Then the send
  fails, `run` returns, and `chain.shutdown()` is never called.  As long as the monitor is alive
  whenever the branch is entered, every dequeued `Shutdown` is served.
-/
import OffChainWorker.Chain.RequestReply

namespace OffChainWorker.Runtime

open Proc

variable {C : Type} {env : Monitor.Env} {ops : Chain C} {chain : C} {s t : State C}

/-- The branch of the `Shutdown` request of call `id` is still running. -/
def ShuttingDown (s : State C) (id : CallId) : Prop :=
  s.pc = .serving (.shutdown id) ∨ s.pc = .commanded id ∨
    ∃ res, s.pc = .replying id (.shutdown res) true ∧
      ⟨id, .shutdown, .shutdown res⟩ ∈ s.history.executed

/-- The result has been sent to the requester: it has returned with it, or it will find it. -/
def SentTo (s : State C) (id : CallId) (out : Reply) : Prop :=
  s.calls id = .done .shutdown out ∨
    s.calls id = .waiting .shutdown ∧ (s.replies id).queue = [out]

/-- `chain.shutdown()` was called exactly once for call `id`, and its result sent. -/
def ShutDown (s : State C) (id : CallId) : Prop :=
  s.history.executedIds.count id = 1 ∧
    ∃ res, ⟨id, .shutdown, .shutdown res⟩ ∈ s.history.executed ∧ SentTo s id (.shutdown res)

/-- Every dequeued `Shutdown` request is being served or has been. -/
def ShutdownServed (s : State C) : Prop :=
  ∀ id, .shutdown id ∈ s.history.taken → ShuttingDown s id ∨ ShutDown s id

/-- The branch of a dequeued `Shutdown` request is entered. -/
def servesShutdown (s : State C) : Label → Bool
  | .serve =>
    match s.pc with
    | .serving (.shutdown _) => true
    | _ => false
  | _ => false

/-- The command receiver of the monitor is alive when the branch of a `Shutdown` is entered. -/
def MonitorAlive (s : State C) (l : Label) : Prop :=
  servesShutdown s l = true → monitorDead s.monitor = false

instance (s : State C) (l : Label) : Decidable (MonitorAlive s l) :=
  inferInstanceAs (Decidable (_ → _))

/-! ## A result that was sent stays sent -/

/-- The caller of a call that has its result is not held. -/
theorem SentTo.not_held (hi : Inv s) {id : CallId} {out : Reply} (h : SentTo s id out) :
    id ∉ s.holders := by
  intro hid
  rcases h with hdone | ⟨-, hqueue⟩
  · obtain ⟨call, hwait⟩ := hi.held.caller hid
    nomatch hdone.symm.trans hwait
  · rw [hi.held.channel id hid] at hqueue
    nomatch hqueue

/-- A step that leaves the status and the queue of the call alone. -/
theorem SentTo.of_same {id : CallId} {out : Reply} (h : SentTo s id out)
    (hcalls : t.calls id = s.calls id) (hqueue : (t.replies id).queue = (s.replies id).queue) :
    SentTo t id out := by
  rw [SentTo, hcalls, hqueue]
  exact h

theorem sentTo_exit {id : CallId} {out : Reply} (h : SentTo s id out) (res : Outcome Kind Unit) :
    SentTo (s.exit res) id out := by
  refine h.of_same rfl ?_
  show (if id ∈ s.holders then (s.replies id).dropTx else s.replies id).queue = _
  split <;> rfl

theorem sentTo_branchDone (hi : Inv s) {id id' : CallId} {out : Reply} (h : SentTo s id out)
    (hheld : s.pc.held = [id']) (reply : Chan Reply) : SentTo (s.branchDone id' reply) id out := by
  have hne : id ≠ id' := by
    rintro rfl
    exact h.not_held hi (by rw [State.holders, hheld]; exact List.mem_cons_self)
  exact h.of_same rfl (congrArg Chan.queue (Function.update_of_ne hne _ _))

theorem sentTo_step {l : Label} {id : CallId} {out : Reply} (hi : Inv s) (h : SentTo s id out)
    (hstep : Step env ops s l t) : SentTo t id out := by
  cases hstep with
  | @call id' call requests hidle _ =>
    have hne : id ≠ id' := by
      rintro rfl
      rcases h with hdone | ⟨hwait, -⟩
      · nomatch hidle.symm.trans hdone
      · nomatch hidle.symm.trans hwait
    exact h.of_same (Function.update_of_ne hne _ _)
      (congrArg Chan.queue (Function.update_of_ne hne _ _))
  | @refused id' call hidle _ =>
    have hne : id ≠ id' := by
      rintro rfl
      rcases h with hdone | ⟨hwait, -⟩
      · nomatch hidle.symm.trans hdone
      · nomatch hidle.symm.trans hwait
    exact h.of_same (Function.update_of_ne hne _ _) rfl
  | eventsGone _ _ => exact sentTo_exit h _
  | noMonitor _ _ => exact sentTo_exit h _
  | noCaller _ _ => exact sentTo_exit h _
  | subscribe hpc => exact sentTo_branchDone hi h (by rw [hpc]; rfl) _
  | reply hpc _ => exact sentTo_branchDone hi h (by rw [hpc]; rfl) _
  | lastReply hpc _ => exact sentTo_exit (sentTo_branchDone hi h (by rw [hpc]; rfl) _) _
  | @receive id' call out' reply hwait hrecv =>
    by_cases hne : id = id'
    · obtain ⟨rest, hqueue, -⟩ := Chan.queue_of_recv hrecv
      rw [← hne] at hwait hqueue ⊢
      rcases h with hdone | ⟨hwait', hqueue'⟩
      · nomatch hwait.symm.trans hdone
      · obtain ⟨rfl, -⟩ := List.cons.inj (hqueue.symm.trans hqueue')
        obtain rfl := CallStatus.waiting.inj (hwait.symm.trans hwait')
        exact .inl (Function.update_self ..)
    · exact h.of_same (Function.update_of_ne hne _ _)
        (congrArg Chan.queue (Function.update_of_ne hne _ _))
  | @lost id' call hwait hrecv =>
    by_cases hne : id = id'
    · rw [← hne] at hwait hrecv
      rcases h with hdone | ⟨-, hqueue⟩
      · nomatch hwait.symm.trans hdone
      · nomatch hrecv.symm.trans (Chan.recv_cons hqueue)
    · exact h.of_same (Function.update_of_ne hne _ _)
        (congrArg Chan.queue (Function.update_of_ne hne _ _))
  | _ => exact h.of_same rfl rfl

theorem executed_mono {l : Label} (hstep : Step env ops s l t) :
    ∀ e ∈ s.history.executed, e ∈ t.history.executed := by
  intro e he
  cases hstep with
  | sendMsgs _ => exact List.mem_append_left _ he
  | shutdownChain _ => exact List.mem_append_left _ he
  | _ => exact he

/-- A served shutdown stays served. -/
theorem ShutDown.step {l : Label} {id : CallId} (hi : Inv s) (h : ShutDown s id)
    (hstep : Step env ops s l t) : ShutDown t id := by
  obtain ⟨-, res, hmem, hsent⟩ := h
  have hmem' := executed_mono hstep _ hmem
  have hit := inv_step hi hstep
  exact ⟨hit.order.executed_once (mem_executedIds hmem'), res, hmem', sentTo_step hi hsent hstep⟩

/-! ## A shutdown goes through its branch -/

/-- The branch of a shutdown moves on and ends with the result sent. -/
theorem ShuttingDown.step {l : Label} {id : CallId} (hi : Inv s) (hc : MonitorAlive s l)
    (h : ShuttingDown s id) (hstep : Step env ops s l t) : ShuttingDown t id ∨ ShutDown t id := by
  have hit := inv_step hi hstep
  -- a step that does not belong to the branch leaves the control point and the executions alone
  have hother : t.pc = s.pc → t.history.executed = s.history.executed →
      ShuttingDown t id ∨ ShutDown t id := by
    intro hpc hexec
    rw [ShuttingDown, hpc, hexec]
    exact .inl h
  have hidle : s.pc ≠ .select := by
    rcases h with hpc | hpc | ⟨res, hpc, -⟩ <;> rw [hpc] <;> nofun
  cases hstep with
  | call _ _ => exact hother rfl rfl
  | refused _ _ => exact hother rfl rfl
  | takeEvent hpc _ => exact absurd hpc hidle
  | eventsGone hpc _ => exact absurd hpc hidle
  | takeRequest hpc _ => exact absurd hpc hidle
  | noSender hpc _ => exact absurd hpc hidle
  | @command id' hpc _ =>
    rcases h with hpc' | hpc' | ⟨res, hpc', -⟩
    · obtain rfl := ChainRequest.shutdown.inj (Pc.serving.inj (hpc.symm.trans hpc'))
      exact .inl (.inr (.inl rfl))
    · nomatch hpc.symm.trans hpc'
    · nomatch hpc.symm.trans hpc'
  | noMonitor hpc hdead =>
    nomatch hdead.symm.trans (hc (by simp only [servesShutdown, hpc]))
  | sendMsgs hpc =>
    rcases h with hpc' | hpc' | ⟨res, hpc', -⟩ <;> nomatch hpc.symm.trans hpc'
  | subscribe hpc =>
    rcases h with hpc' | hpc' | ⟨res, hpc', -⟩ <;> nomatch hpc.symm.trans hpc'
  | @shutdownChain id' hpc =>
    rcases h with hpc' | hpc' | ⟨res, hpc', -⟩
    · nomatch hpc.symm.trans hpc'
    · obtain rfl := Pc.commanded.inj (hpc.symm.trans hpc')
      exact .inl (.inr (.inr ⟨_, rfl, List.mem_append_right _ List.mem_cons_self⟩))
    · nomatch hpc.symm.trans hpc'
  | reply hpc _ =>
    rcases h with hpc' | hpc' | ⟨res, hpc', -⟩ <;> nomatch hpc.symm.trans hpc'
  | @lastReply id' out reply hpc hsend =>
    rcases h with hpc' | hpc' | ⟨res, hpc', hmem⟩
    · nomatch hpc.symm.trans hpc'
    · nomatch hpc.symm.trans hpc'
    · obtain ⟨rfl, rfl, -⟩ := Pc.replying.inj (hpc.symm.trans hpc')
      have hreply : reply = (Chan.bounded 1).push (.shutdown res) :=
        SendResult.sent.inj (hsend.symm.trans (hi.held.reply_sent hpc))
      obtain ⟨call, hwait, hmem'⟩ := hi.held.replying _ _ _ hpc
      have hcall : call = .shutdown := by
        have heq := hi.order.executed_unique hmem' hmem rfl
        exact congrArg Execution.call heq
      rw [hcall] at hwait
      have hsent : SentTo (s.branchDone id' reply) id' (.shutdown res) := by
        refine .inr ⟨hwait, ?_⟩
        show (Function.update s.replies id' reply.dropTx id').queue = _
        rw [Function.update_self, hreply]
        rfl
      exact .inr ⟨hit.order.executed_once (mem_executedIds hmem), res, hmem, sentTo_exit hsent _⟩
  | noCaller hpc hsend => nomatch hsend.symm.trans (hi.held.reply_sent hpc)
  | receive _ _ => exact hother rfl rfl
  | lost _ _ => exact hother rfl rfl
  | monitor _ _ => exact hother rfl rfl

/-- **Step lemma.** -/
theorem shutdownServed_step {l : Label} (hi : Inv s) (h : ShutdownServed s) (hc : MonitorAlive s l)
    (hstep : Step env ops s l t) : ShutdownServed t := by
  have hkept : ∀ id, .shutdown id ∈ s.history.taken → ShuttingDown t id ∨ ShutDown t id := by
    intro id hid
    rcases h id hid with hgoing | hdone
    · exact hgoing.step hi hc hstep
    · exact .inr (hdone.step hi hstep)
  intro id hid
  cases hstep with
  | @takeRequest req requests hpc hrecv =>
    rcases List.mem_append.mp hid with hid | hid
    · exact hkept id hid
    · exact .inl (.inl (by rw [List.mem_singleton.mp hid]; rfl))
  | _ => exact hkept id hid

/-! ## Headline -/

/-- **Headline.**  When the monitor is alive whenever the branch of a `Shutdown` is entered, every
    dequeued `Shutdown` leads to exactly one call of `chain.shutdown()`, whose result is sent to the
    requester; and when the branch is entered with the monitor dead, the request is not served. -/
theorem shutdown_served_if_monitor_alive :
    (∀ s, (machine env ops chain).ReachableIf MonitorAlive s → ShutdownServed s) ∧
    ∀ s l t, (machine env ops chain).Reachable s → step env ops s l = some t → ¬ MonitorAlive s l →
      ¬ ShutdownServed t := by
  refine ⟨fun s h => ?_, fun s l t h ht hnot hserved => ?_⟩
  · exact reachableIf_invariant (fun _ => inv_reachable) (fun _ hid => absurd hid List.not_mem_nil)
      (fun _ _ _ hi h hc hstep => shutdownServed_step hi h hc hstep) h
  · have hi := inv_reachable h
    refine hnot fun hserve => ?_
    cases step_cases ht with
    | @noMonitor id hpc hdead =>
      obtain ⟨hexec, -, done, htaken⟩ := hi.held.serving _ hpc
      have hid : .shutdown id ∈ (s.exit (.err .channel)).history.taken := by
        show .shutdown id ∈ s.history.taken
        rw [htaken]
        exact List.mem_append_right _ List.mem_cons_self
      rcases hserved id hid with hgoing | ⟨-, res, hmem, -⟩
      · rcases hgoing with hpc' | hpc' | ⟨res, hpc', -⟩ <;> nomatch hpc'
      · exact absurd (mem_executedIds hmem) hexec
    | command hpc halive => exact halive
    | sendMsgs hpc => simp [servesShutdown, hpc] at hserve
    | subscribe hpc => simp [servesShutdown, hpc] at hserve
    | _ => nomatch hserve

/-- A shutdown while the monitor is running. -/
def aliveRun : List Label :=
  [.call 0 .shutdown, .takeRequest, .serve, .shutdownChain, .reply, .receive 0]

/-- A transaction with an action whose attributes are missing. -/
def badTx : Monitor.Item :=
  .ok ⟨.tx, some fun key =>
    if key = "tx.height" then some ["1"]
    else if key = "message.action" then some ["report"]
    else none⟩

/-- The monitor dies of the transaction, and the shutdown is taken before the runtime notices. -/
def deadRun : List Label :=
  [.monitor .enter, .monitor .checkCmd, .monitor (.yield 0 badTx), .monitor (.pull 0),
    .call 0 .shutdown, .takeRequest]

theorem shutdown_served_alive :
    (∃ s, (machine Monitor.demoEnv countingChain 0).execIf MonitorAlive
        (initialState Monitor.demoEnv 0) aliveRun = some s ∧ ShutdownServed s) ∧
    ∃ s t, (machine Monitor.demoEnv countingChain 0).exec (initialState Monitor.demoEnv 0) deadRun
        = some s ∧
      step Monitor.demoEnv countingChain s .serve = some t ∧ ¬ ShutdownServed t := by
  constructor
  · obtain ⟨s, hs⟩ : ∃ s, (machine Monitor.demoEnv countingChain 0).execIf MonitorAlive
        (initialState Monitor.demoEnv 0) aliveRun = some s := ⟨_, rfl⟩
    have hreach := Machine.execIf_reachableIf (.init rfl) hs
    exact ⟨s, hs, shutdown_served_if_monitor_alive.1 s hreach⟩
  · obtain ⟨s, hs, t, ht, hnot⟩ :
        ∃ s, (machine Monitor.demoEnv countingChain 0).exec (initialState Monitor.demoEnv 0) deadRun
            = some s ∧
          ∃ t, step Monitor.demoEnv countingChain s .serve = some t ∧ ¬ MonitorAlive s .serve :=
      ⟨_, rfl, _, rfl, by decide⟩
    have hreach := Machine.exec_reachable (.init rfl) hs
    exact ⟨s, t, hs, ht, shutdown_served_if_monitor_alive.2 s _ t hreach ht hnot⟩

/-- A shutdown taken after the monitor has died is not served. -/
theorem dead_monitor_blocks_shutdown :
    ¬ ∀ (env : Monitor.Env) (ops : Chain Nat) (n : Nat) (s : State Nat),
      (machine env ops n).Reachable s → ShutdownServed s := by
  intro h
  obtain ⟨s, hs, htaken, hpc, hexec⟩ :
      ∃ s, (machine Monitor.demoEnv countingChain 0).exec (initialState Monitor.demoEnv 0)
          (deadRun ++ [.serve]) = some s ∧
        s.history.taken = [.shutdown 0] ∧ s.pc = .exited (.err .channel) ∧
        s.history.executed = [] :=
    ⟨_, rfl, rfl, rfl, rfl⟩
  have hserved := h _ _ _ s (Machine.exec_reachable (.init rfl) hs) 0
    (by rw [htaken]; exact List.mem_cons_self)
  rcases hserved with hgoing | ⟨-, res, hmem, -⟩
  · rcases hgoing with hpc' | hpc' | ⟨res, hpc', -⟩ <;> nomatch hpc.symm.trans hpc'
  · rw [hexec] at hmem
    exact absurd hmem List.not_mem_nil

end OffChainWorker.Runtime
