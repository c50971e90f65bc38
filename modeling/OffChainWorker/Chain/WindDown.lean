/-
  How a worker winds down, and that its monitor winds down with it only when it is told to.

  The one thing that tells the event monitor to stop is the branch of a Shutdown request.  A runtime
  thread that ends in any other way, by a channel error or by a panic, drops its ends of the
  channels, which the monitor does not take for a command; its thread goes on.  After the command
  there is little left to do: the runtime calls `shutdown` and answers, and is gone
  (`closingWork`); nothing more is handed to `send_msgs`; and the monitor goes on for the steps that
  `Pc.budget` counts, and polls its subscriptions for what `State.polls` counts.
-/
import OffChainWorker.Chain.Worker
import OffChainWorker.Subscribe.MonitorBounds
import OffChainWorker.Subscribe.MonitorTrace

namespace OffChainWorker.Worker

open Proc
open OffChainWorker.Runtime (CallId Call Execution)

variable {C : Type} {env : Monitor.Env} {ops : Ops C} {chain : C} {s t : State C}

/-- A Shutdown has been served, at least up to the command for the monitor. -/
def Commanded (r : Runtime.State C) : Prop :=
  (∃ id, r.pc = .commanded id) ∨ ∃ e ∈ r.history.executed, e.call = .shutdown

/-- The control points after the command. -/
def isClosing : Runtime.Pc → Bool
  | .commanded _ => true
  | .replying _ _ last => last
  | .exited _ => true
  | _ => false

/-- The steps that the thread has left after the command. -/
def closingWork : Runtime.Pc → Nat
  | .commanded _ => 2
  | .replying .. => 1
  | _ => 0

/-- The steps of the runtime thread. -/
def isThread : Runtime.Label → Bool
  | .takeEvent => true
  | .eventsGone => true
  | .takeRequest => true
  | .serve => true
  | .shutdownChain => true
  | .reply => true
  | _ => false

/-- The steps that the monitor or its surroundings take on their own, of the kind `P`. -/
def ofMonitor (P : Monitor.Label → Bool) : Runtime.Label → Bool
  | .monitor l => P l
  | _ => false

/-! ## Told by the Shutdown branch only -/

/-- What the command and the control point have to do with each other. -/
structure CommandInv (r : Runtime.State C) : Prop where
  told : Monitor.Told r.monitor ↔ Commanded r
  pc : Commanded r → isClosing r.pc = true

theorem commandInv_init : CommandInv (Runtime.initialState env chain) where
  told := by
    refine iff_of_false (fun h => ?_) fun h => ?_
    · rcases h with hpending | hleaving
      · exact hpending rfl
      · nomatch hleaving
    · rcases h with ⟨id, hpc⟩ | ⟨e, he, -⟩
      · nomatch hpc
      · nomatch he
  pc := by
    rintro (⟨id, hpc⟩ | ⟨e, he, -⟩)
    · nomatch hpc
    · nomatch he

section
variable {r r' : Runtime.State C}

/-- Steps away from the command that execute nothing. -/
theorem CommandInv.same (hi : CommandInv r)
    (htold : Monitor.Told r'.monitor ↔ Monitor.Told r.monitor)
    (hexecuted : r'.history.executed = r.history.executed) (hpc : ∀ id, r.pc ≠ .commanded id)
    (hpc' : ∀ id, r'.pc ≠ .commanded id)
    (hclosing : isClosing r.pc = true → isClosing r'.pc = true) :
    CommandInv r' := by
  have hsame : Commanded r' ↔ Commanded r := by
    unfold Commanded
    rw [hexecuted]
    exact or_congr (iff_of_false (fun ⟨id, h⟩ => hpc' id h) fun ⟨id, h⟩ => hpc id h) Iff.rfl
  exact ⟨htold.trans (hi.told.trans hsame.symm), fun h => hclosing (hi.pc (hsame.mp h))⟩

/-- **Frame.**  Steps that are not the thread's. -/
theorem CommandInv.frame (hi : CommandInv r)
    (htold : Monitor.Told r'.monitor ↔ Monitor.Told r.monitor)
    (hexecuted : r'.history.executed = r.history.executed) (hpc : r'.pc = r.pc) :
    CommandInv r' := by
  have hsame : Commanded r' ↔ Commanded r := by
    unfold Commanded
    rw [hexecuted, hpc]
  refine ⟨htold.trans (hi.told.trans hsame.symm), fun h => ?_⟩
  rw [hpc]
  exact hi.pc (hsame.mp h)

/-- Nothing is handed to `send_msgs` after the command. -/
theorem CommandInv.not_commanded (hi : CommandInv r) {id : CallId} {protoMsgs : List Any}
    (hpc : r.pc = .serving (.sendMsgs protoMsgs id)) : ¬ Commanded r := by
  intro hcommanded
  have hclosing := hi.pc hcommanded
  rw [hpc] at hclosing
  nomatch hclosing

/-- So what `send_msgs` comes to is no command either. -/
theorem CommandInv.msgs (hi : CommandInv r) {id : CallId} {protoMsgs : List Any}
    (hpc : r.pc = .serving (.sendMsgs protoMsgs id))
    (htold : Monitor.Told r'.monitor ↔ Monitor.Told r.monitor) {es : List Execution}
    (hexecuted : r'.history.executed = r.history.executed ++ es)
    (hes : ∀ e ∈ es, e.call ≠ .shutdown) (hpc' : ∀ id, r'.pc ≠ .commanded id) :
    CommandInv r' := by
  have hnot := hi.not_commanded hpc
  have hnot' : ¬ Commanded r' := by
    rintro (⟨id, hcommanded⟩ | ⟨e, he, hcall⟩)
    · exact hpc' id hcommanded
    · rw [hexecuted] at he
      rcases List.mem_append.mp he with he | he
      · exact hnot (.inr ⟨e, he, hcall⟩)
      · exact hes e he hcall
  exact ⟨iff_of_false (fun h => hnot (hi.told.mp (htold.mp h))) hnot', fun h => absurd h hnot'⟩

/-- **Step lemma** for the runtime. -/
theorem commandInv_runtime {ops : Runtime.Chain C} {l : Runtime.Label} (hi : CommandInv r)
    (h : Runtime.Step env ops r l r') : CommandInv r' := by
  cases h with
  | @command id hpc _ =>
    refine ⟨iff_of_true (.inl ?_) (.inl ⟨id, rfl⟩), fun _ => rfl⟩
    show r.monitor.rxCmd ++ [.shutdown] ≠ []
    simp
  | @shutdownChain id hpc =>
    have htold := hi.told.mpr (.inl ⟨id, hpc⟩)
    exact ⟨iff_of_true htold (.inr ⟨_, List.mem_append_right _ List.mem_cons_self, rfl⟩),
      fun _ => rfl⟩
  | sendMsgs hpc =>
    refine hi.msgs hpc Iff.rfl rfl (fun e he => ?_) nofun
    rw [List.mem_singleton.mp he]
    exact nofun
  | monitor hown hm =>
    refine hi.frame (Monitor.told_step ?_ (Monitor.step_cases hm)) rfl rfl
    rintro rfl
    nomatch hown
  | call _ _ => exact hi.frame Iff.rfl rfl rfl
  | refused _ _ => exact hi.frame Iff.rfl rfl rfl
  | takeEvent _ _ => exact hi.frame Iff.rfl rfl rfl
  | noSender _ _ => exact hi
  | receive _ _ => exact hi.frame Iff.rfl rfl rfl
  | lost _ _ => exact hi.frame Iff.rfl rfl rfl
  | takeRequest hpc _ =>
    exact hi.same Iff.rfl rfl (by rw [hpc]; exact nofun) nofun (by rw [hpc]; exact nofun)
  | subscribe hpc =>
    exact hi.same Iff.rfl rfl (by rw [hpc]; exact nofun) nofun (by rw [hpc]; exact nofun)
  | reply hpc _ =>
    exact hi.same Iff.rfl rfl (by rw [hpc]; exact nofun) nofun (by rw [hpc]; exact nofun)
  | eventsGone hpc _ => exact hi.same Iff.rfl rfl (by rw [hpc]; exact nofun) nofun fun _ => rfl
  | noMonitor hpc _ => exact hi.same Iff.rfl rfl (by rw [hpc]; exact nofun) nofun fun _ => rfl
  | lastReply hpc _ => exact hi.same Iff.rfl rfl (by rw [hpc]; exact nofun) nofun fun _ => rfl
  | noCaller hpc _ => exact hi.same Iff.rfl rfl (by rw [hpc]; exact nofun) nofun fun _ => rfl

end

/-- **Step lemma.** -/
theorem commandInv_step {l : Runtime.Label} (hi : CommandInv s.runtime) (h : Step env ops s l t) :
    CommandInv t.runtime := by
  cases h with
  | runtime _ h => exact commandInv_runtime hi h
  | @msgs id protoMsgs hpc =>
    generalize ops.sendMsgs protoMsgs s.runtime.chain = result
    obtain ⟨out, c⟩ := result
    refine hi.msgs hpc ?_ (executed_serve id protoMsgs out c) (fun e he => ?_) ?_
    · cases out <;> exact Iff.rfl
    · unfold Served.execution at he
      cases out with
      | ok events =>
        rw [List.mem_singleton.mp he]
        exact nofun
      | err kind =>
        rw [List.mem_singleton.mp he]
        exact nofun
      | panic => nomatch he
    · cases out <;> exact nofun

/-- The run lemma. -/
theorem commandInv_reachable (h : (machine env ops chain).Reachable s) : CommandInv s.runtime :=
  reachable_invariant commandInv_init (fun _ _ _ => commandInv_step) h

/-! ## The monitor inside the worker -/

/-- The record of the monitor's run after a step of the worker. -/
def note {C : Type} (r : Monitor.Trace) (s : State C) : Runtime.Label → Monitor.Trace
  | .monitor l => r.note s.runtime.monitor l
  | _ => r

/-- A step of the worker is a step of its monitor, or leaves it alone; and it is one of the
    monitor's own if it is of a kind that the runtime does not take for it. -/
theorem monitor_moves {l : Runtime.Label} (h : Step env ops s l t) :
    (t.runtime.monitor = s.runtime.monitor ∧ (∀ P, ofMonitor P l = false) ∧
        ∀ r, note r s l = r) ∨
      ∃ m, (∀ P, P .sendCmd = false → P .dropBatchReceiver = false → ofMonitor P l = P m) ∧
        Monitor.step env s.runtime.monitor m = some t.runtime.monitor ∧
        ∀ r : Monitor.Trace, note r s l = r.note s.runtime.monitor m := by
  cases h with
  | @msgs id protoMsgs hpc =>
    generalize ops.sendMsgs protoMsgs s.runtime.chain = result
    obtain ⟨out, c⟩ := result
    cases out with
    | ok events => exact .inl ⟨rfl, fun _ => rfl, fun _ => rfl⟩
    | err kind => exact .inl ⟨rfl, fun _ => rfl, fun _ => rfl⟩
    | panic => exact .inr ⟨.dropBatchReceiver, fun _ _ hdrop => hdrop.symm, rfl, fun _ => rfl⟩
  | runtime _ h =>
    cases h with
    | command _ _ => exact .inr ⟨.sendCmd, fun _ hcmd _ => hcmd.symm, rfl, fun _ => rfl⟩
    | eventsGone _ _ | noMonitor _ _ | lastReply _ _ | noCaller _ _ =>
      exact .inr ⟨.dropBatchReceiver, fun _ _ hdrop => hdrop.symm, rfl, fun _ => rfl⟩
    | @monitor m _ _ hm => exact .inr ⟨m, fun _ _ _ => rfl, hm, fun _ => rfl⟩
    | _ => exact .inl ⟨rfl, fun _ => rfl, fun _ => rfl⟩

/-- **Refinement**: the monitor of a worker runs as a monitor does. -/
theorem monitor_reachable (h : (machine env ops chain).Reachable s) :
    (Monitor.machine env).Reachable s.runtime.monitor := by
  refine reachable_invariant (I := fun s => (Monitor.machine env).Reachable s.runtime.monitor)
    (.init rfl) (fun s l t hi hstep => ?_) h
  rcases monitor_moves hstep with ⟨hsame, -⟩ | ⟨m, -, hm, -⟩
  · rw [hsame]
    exact hi
  · exact hi.step hm

/-! ## After the command -/

/-- **Step lemma** for the runtime: the thread uses up its steps. -/
theorem closing_runtime {ops : Runtime.Chain C} {r r' : Runtime.State C} {l : Runtime.Label}
    (hi : CommandInv r) (hc : Commanded r) (h : Runtime.Step env ops r l r') :
    Commanded r' ∧ closingWork r'.pc + (if isThread l then 1 else 0) ≤ closingWork r.pc := by
  have hclosing := hi.pc hc
  cases h with
  | @shutdownChain id hpc =>
    refine ⟨.inr ⟨_, List.mem_append_right _ List.mem_cons_self, rfl⟩, ?_⟩
    rw [hpc]
    exact Nat.le_refl 2
  | lastReply hpc _ =>
    rcases hc with ⟨id, hcommanded⟩ | hexecuted
    · nomatch hpc.symm.trans hcommanded
    · refine ⟨.inr hexecuted, ?_⟩
      rw [hpc]
      exact Nat.le_refl 1
  | noCaller hpc _ =>
    rcases hc with ⟨id, hcommanded⟩ | hexecuted
    · nomatch hpc.symm.trans hcommanded
    · refine ⟨.inr hexecuted, ?_⟩
      rw [hpc]
      exact Nat.le_refl 1
  | call _ _ => exact ⟨hc, Nat.le_refl _⟩
  | refused _ _ => exact ⟨hc, Nat.le_refl _⟩
  | receive _ _ => exact ⟨hc, Nat.le_refl _⟩
  | lost _ _ => exact ⟨hc, Nat.le_refl _⟩
  | monitor _ _ => exact ⟨hc, Nat.le_refl _⟩
  | takeEvent hpc _ | eventsGone hpc _ | takeRequest hpc _ | noSender hpc _ | command hpc _ =>
    rw [hpc] at hclosing
    nomatch hclosing
  | noMonitor hpc _ | sendMsgs hpc | subscribe hpc | reply hpc _ =>
    rw [hpc] at hclosing
    nomatch hclosing

/-- **Step lemma**: and nothing is handed to `send_msgs`. -/
theorem closing_step {l : Runtime.Label} (hi : CommandInv s.runtime) (hc : Commanded s.runtime)
    (h : Step env ops s l t) :
    Commanded t.runtime ∧ t.served = s.served ∧
      closingWork t.runtime.pc + (if isThread l then 1 else 0) ≤ closingWork s.runtime.pc := by
  cases h with
  | msgs hpc => exact absurd hc (hi.not_commanded hpc)
  | runtime _ h =>
    obtain ⟨hc', hwork⟩ := closing_runtime hi hc h
    exact ⟨hc', rfl, hwork⟩

/-- **Step lemma** for the monitor of a worker after the command. -/
theorem winding_step {l : Runtime.Label} (hconn : Monitor.ConnInv env s.runtime.monitor)
    (hi : CommandInv s.runtime) (hc : Commanded s.runtime) (h : Step env ops s l t) :
    Monitor.Winds s.runtime.monitor t.runtime.monitor ∧
      t.runtime.monitor.pc.budget env + (if ofMonitor Monitor.Label.isControl l then 1 else 0) ≤
        s.runtime.monitor.pc.budget env ∧
      t.runtime.monitor.polls + (if ofMonitor Monitor.Label.isPoll l then 1 else 0) ≤
        s.runtime.monitor.polls + if ofMonitor Monitor.Label.isYield l then 1 else 0 := by
  have hstopping := (hi.told.mpr hc).stopping
  rcases monitor_moves h with ⟨hsame, hl, -⟩ | ⟨m, hl, hm, -⟩
  · rw [hsame, hl, hl, hl]
    exact ⟨.refl _, Nat.le_refl _, Nat.le_refl _⟩
  · have hstep := Monitor.step_cases hm
    rw [hl Monitor.Label.isControl rfl rfl, hl Monitor.Label.isPoll rfl rfl,
      hl Monitor.Label.isYield rfl rfl]
    exact ⟨Monitor.winds_step hstopping hstep, Monitor.stopping_budget hstopping hstep,
      Monitor.polls_step hconn hstopping hstep⟩

/-- As long as the thread owes a reply it can go on. -/
theorem thread_enabled (env : Monitor.Env) (ops : Ops C) (hi : Runtime.Inv s.runtime)
    (hheld : s.runtime.holders ≠ []) : ∃ l t, isThread l = true ∧ step env ops s l = some t := by
  obtain ⟨l, t, hl, hstep, -, -⟩ := service_step env ops hi hheld
  refine ⟨l, t, ?_, hstep⟩
  cases l <;> first | rfl | nomatch hl

/-- Away from its `select!` it owes one. -/
theorem thread_goes_on (env : Monitor.Env) (ops : Ops C) (hi : Runtime.Inv s.runtime)
    (hpc : s.runtime.pc ≠ .select) (hexited : ∀ res, s.runtime.pc ≠ .exited res) :
    ∃ l t, isThread l = true ∧ step env ops s l = some t := by
  refine thread_enabled env ops hi ?_
  unfold Runtime.State.holders
  cases hpc' : s.runtime.pc with
  | select => exact absurd hpc' hpc
  | serving req => exact List.cons_ne_nil _ _
  | commanded id => exact List.cons_ne_nil _ _
  | replying id out last => exact List.cons_ne_nil _ _
  | exited res => exact absurd hpc' (hexited res)

/-- After the command the thread can go on until it has returned. -/
theorem closing_enabled (env : Monitor.Env) (ops : Ops C) (hi : Runtime.Inv s.runtime)
    (hc : isClosing s.runtime.pc = true) :
    (∃ res, s.runtime.pc = .exited res) ∨
      ∃ l t, isThread l = true ∧ step env ops s l = some t := by
  by_cases hexited : ∃ res, s.runtime.pc = .exited res
  · exact .inl hexited
  · refine .inr (thread_goes_on env ops hi (fun hpc => ?_) fun res hpc => hexited ⟨res, hpc⟩)
    rw [hpc] at hc
    exact absurd hc Bool.false_ne_true

/-- A step of the monitor thread is a step of the worker. -/
theorem monitor_enabled (ops : Ops C) {m : Monitor.Label} {m' : Monitor.State}
    (hm : m.isControl = true) (hstep : Monitor.step env s.runtime.monitor m = some m') :
    ∃ t, step env ops s (.monitor m) = some t := by
  have hown : Runtime.ownStep m = true := by
    cases m <;> first | rfl | nomatch hm
  refine ⟨⟨{ s.runtime with monitor := m' }, s.served⟩, ?_⟩
  show (Runtime.step env ops.others s.runtime (.monitor m)).map _ = _
  rw [Runtime.step, if_pos hown, hstep]
  rfl

/-! ## Runs after the command -/

/-- The reachable states after the command. -/
def After (env : Monitor.Env) (ops : Ops C) (chain : C) (s : State C) : Prop :=
  (machine env ops chain).Reachable s ∧ Commanded s.runtime

theorem after_step {l : Runtime.Label} (ha : After env ops chain s)
    (h : (machine env ops chain).step s l = some t) : After env ops chain t :=
  ⟨ha.1.step h, (closing_step (commandInv_reachable ha.1) ha.2 (step_cases h)).1⟩

/-- The run lemma for the thread. -/
theorem closing_run {ls : List Runtime.Label} (ha : After env ops chain s)
    (hrun : (machine env ops chain).exec s ls = some t) :
    After env ops chain t ∧ t.served = s.served ∧ ls.countP isThread ≤ 2 := by
  obtain ⟨ht, hserved⟩ := Machine.exec_rel (M := machine env ops chain)
    (I := After env ops chain) (R := fun s t => t.served = s.served) (fun _ => rfl)
    (fun h h' => h'.trans h)
    (fun s l t hs hstep => ⟨after_step hs hstep,
      (closing_step (commandInv_reachable hs.1) hs.2 (step_cases hstep)).2.1⟩) ha hrun
  obtain ⟨-, hcost⟩ := Machine.exec_cost (M := machine env ops chain)
    (I := After env ops chain) (P := isThread) (fun s => closingWork s.runtime.pc)
    (fun s l t hs hstep => ⟨after_step hs hstep,
      (closing_step (commandInv_reachable hs.1) hs.2 (step_cases hstep)).2.2⟩) ha hrun
  have hmax : closingWork s.runtime.pc ≤ 2 := by
    cases s.runtime.pc <;> simp [closingWork]
  have hwork : closingWork t.runtime.pc + ls.countP isThread ≤ closingWork s.runtime.pc := hcost
  exact ⟨ht, hserved, by omega⟩

/-- The run lemma for the monitor. -/
theorem winding_run {ls : List Runtime.Label} (ha : After env ops chain s)
    (hrun : (machine env ops chain).exec s ls = some t) :
    Monitor.Winds s.runtime.monitor t.runtime.monitor ∧
      t.runtime.monitor.pc.budget env + ls.countP (ofMonitor Monitor.Label.isControl) ≤
        Monitor.maxBudget env ∧
      t.runtime.monitor.polls + ls.countP (ofMonitor Monitor.Label.isPoll) ≤
        s.runtime.monitor.polls + ls.countP (ofMonitor Monitor.Label.isYield) := by
  have hwinding : ∀ s l t, After env ops chain s → (machine env ops chain).step s l = some t → _ :=
    fun s l t hs hstep => winding_step
      (Monitor.connInv_reachable (monitor_reachable hs.1)) (commandInv_reachable hs.1) hs.2
      (step_cases hstep)
  obtain ⟨-, hwinds⟩ := Machine.exec_rel (M := machine env ops chain) (I := After env ops chain)
    (R := fun s t => Monitor.Winds s.runtime.monitor t.runtime.monitor) (fun _ => .refl _)
    Monitor.Winds.trans
    (fun s l t hs hstep => ⟨after_step hs hstep, (hwinding s l t hs hstep).1⟩) ha hrun
  obtain ⟨-, hcost⟩ := Machine.exec_cost (M := machine env ops chain)
    (I := After env ops chain) (P := ofMonitor Monitor.Label.isControl)
    (fun s => s.runtime.monitor.pc.budget env)
    (fun s l t hs hstep => ⟨after_step hs hstep, (hwinding s l t hs hstep).2.1⟩) ha hrun
  obtain ⟨-, hpolls⟩ := Machine.exec_balance (M := machine env ops chain)
    (I := After env ops chain) (P := ofMonitor Monitor.Label.isPoll)
    (Q := ofMonitor Monitor.Label.isYield) (fun s => s.runtime.monitor.polls)
    (fun s l t hs hstep => ⟨after_step hs hstep, (hwinding s l t hs hstep).2.2⟩) ha hrun
  exact ⟨hwinds, Nat.le_trans hcost (Monitor.budget_reachable (monitor_reachable ha.1)), hpolls⟩

/-! ## Headline -/

/-- A Shutdown is served while the monitor waits; its driver fails, the monitor reconnects at the
    second try, and then finds the command. -/
def windingRun : List Runtime.Label :=
  [.shutdownChain, .reply, .receive 0] ++ Monitor.stoppingRun.map .monitor

end OffChainWorker.Worker
