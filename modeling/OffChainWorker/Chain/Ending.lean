/-
  How a worker ends.

  The runtime thread returns after a Shutdown; it returns a channel error when it finds its monitor
  gone; and a panic of `send_msgs` unwinds it (`EndedBy`, one constructor for each end).  Its
  monitor is gone without a command only when the extraction has panicked on what the node fed, and
  `send_msgs` panics only on what the node answers (`Harmless`).  So nothing but a Shutdown or the
  node ends a worker, and until then its thread is never stuck: where it can take no step, it waits
  in `select!` for something new.
-/
import OffChainWorker.Chain.Delivery
import OffChainWorker.Chain.WindDown
import OffChainWorker.Subscribe.Extraction

namespace OffChainWorker.Worker

open Proc
open OffChainWorker.Cosmos
open OffChainWorker.Monitor (Trace PanicsOn)

variable {C : Type} {env : Monitor.Env} {ops : Ops C} {chain : C} {s t : State C}

/-! ## The worker and the record of its monitor -/

/-- The worker, with the record of its monitor's run. -/
def tracedWorker (env : Monitor.Env) (ops : Ops C) (chain : C) :
    Machine (State C × Trace) Runtime.Label :=
  (machine env ops chain).recording Trace.empty note

theorem traced_init :
    (tracedWorker env ops chain).init (initialState env chain, Trace.empty) := ⟨rfl, rfl⟩

section
variable {p : State C × Trace}

theorem traced_reachable (h : (tracedWorker env ops chain).Reachable p) :
    (machine env ops chain).Reachable p.1 :=
  Machine.recording_maps.reachable_iff.mpr ⟨p, h, rfl⟩

/-- **Refinement**: the monitor runs as a monitor does, and the record is the one of its run. -/
theorem traced_monitor (h : (tracedWorker env ops chain).Reachable p) :
    (Monitor.tracedMachine env).Reachable (p.1.runtime.monitor, p.2) := by
  refine Machine.Reachable.invariant
    (I := fun p => (Monitor.tracedMachine env).Reachable (p.1.runtime.monitor, p.2))
    (fun p hp => ?_) (fun p l q hi ht => ?_) h
  · obtain ⟨hs, hr⟩ := hp
    have hs' : p.1 = initialState env chain := hs
    rw [hs', hr]
    exact .init Monitor.traced_init
  · obtain ⟨t, hstep, rfl⟩ := Option.map_eq_some_iff.mp ht
    rcases monitor_moves (step_cases hstep) with ⟨hsame, -, hnote⟩ | ⟨m, -, hm, hnote⟩
    · show (Monitor.tracedMachine env).Reachable (t.runtime.monitor, note p.2 p.1 l)
      rw [hsame, hnote]
      exact hi
    · refine Machine.Reachable.step (l := m) hi ?_
      show (Monitor.step env p.1.runtime.monitor m).map _ = some (t.runtime.monitor, note p.2 p.1 l)
      rw [hm, hnote]
      rfl

/-- The monitor has panicked iff the extraction panics on something it has pulled. -/
theorem traced_panicked (h : (tracedWorker env ops chain).Reachable p) :
    p.1.runtime.monitor.pc = .panicked ↔ ∃ item ∈ p.2.pulled, PanicsOn env item.2 :=
  Monitor.panicInv_reachable (traced_monitor h)

end

/-! ## What ends the thread -/

/-- A Shutdown was served. -/
def ShutDown (s : State C) : Prop := ∃ e ∈ s.runtime.history.executed, e.call = .shutdown

/-- The ways in which the thread ends. -/
inductive EndedBy (s : State C) : Outcome Kind Unit → Prop where
  | shutdown (h : ShutDown s) : EndedBy s (.ok ())
  | noMonitor (h : s.runtime.monitor.pc = .panicked) : EndedBy s (.err .channel)
  | unwound (h : s.Panicked) : EndedBy s .panic

structure EndInv (s : State C) : Prop where
  events : s.runtime.eventsTaken ≤ s.runtime.monitor.txBatch.length
  last : ∀ id out, s.runtime.pc = .replying id out true → ShutDown s
  ended : ∀ res, s.runtime.pc = .exited res → EndedBy s res

theorem endInv_init : EndInv (initialState env chain) where
  events := Nat.le_refl 0
  last := nofun
  ended := nofun

/-- A step after which the thread neither has ended nor is about to. -/
theorem endInv_goes_on
    (hevents : t.runtime.eventsTaken ≤ t.runtime.monitor.txBatch.length)
    (hlast : ∀ id out, t.runtime.pc ≠ .replying id out true)
    (hexited : ∀ res, t.runtime.pc ≠ .exited res) : EndInv t :=
  ⟨hevents, fun id out hpc => absurd hpc (hlast id out), fun res hpc => absurd hpc (hexited res)⟩

/-- A step that ends the thread. -/
theorem endInv_ended {res : Outcome Kind Unit} (hpc : t.runtime.pc = .exited res)
    (hevents : t.runtime.eventsTaken ≤ t.runtime.monitor.txBatch.length)
    (hended : EndedBy t res) : EndInv t where
  events := hevents
  last id out hlast := by nomatch hpc.symm.trans hlast
  ended res' hpc' := by
    obtain rfl := Runtime.Pc.exited.inj (hpc.symm.trans hpc')
    exact hended

/-- **Frame.**  A step that is not the thread's. -/
theorem EndInv.frame {r : Runtime.State C} (hi : EndInv s) (hpc : r.pc = s.runtime.pc)
    (hexecuted : r.history.executed = s.runtime.history.executed)
    (hevents : r.eventsTaken ≤ r.monitor.txBatch.length)
    (hmonitor : s.runtime.monitor.pc = .panicked → r.monitor.pc = .panicked) :
    EndInv { s with runtime := r } where
  events := hevents
  last id out hlast := by
    obtain ⟨e, he, hcall⟩ := hi.last id out (hpc.symm.trans hlast)
    exact ⟨e, hexecuted ▸ he, hcall⟩
  ended res hexited := by
    cases hi.ended res (hpc.symm.trans hexited) with
    | shutdown h =>
      obtain ⟨e, he, hcall⟩ := h
      exact .shutdown ⟨e, hexecuted ▸ he, hcall⟩
    | unwound h => exact .unwound h
    | noMonitor h => exact .noMonitor (hmonitor h)

/-- A monitor that is gone without a command has panicked. -/
theorem panicked_of_dead {m : Monitor.State} (htold : ¬ Monitor.Told m)
    (hdead : Runtime.monitorDead m = true) : m.pc = .panicked := by
  unfold Runtime.monitorDead at hdead
  split at hdead
  · rename_i hpc
    exact absurd (.inr (by rw [hpc]; rfl)) htold
  · assumption
  · exact absurd hdead Bool.false_ne_true

/-- Before the end of its work the thread has not told the monitor anything. -/
theorem CommandInv.not_told {r : Runtime.State C} (hi : CommandInv r)
    (hpc : isClosing r.pc = false) : ¬ Monitor.Told r.monitor := by
  intro htold
  rw [hi.pc (hi.told.mp htold)] at hpc
  nomatch hpc

/-- **Step lemma.** -/
theorem endInv_step {l : Runtime.Label} (hi : EndInv s) (hinv : Runtime.Inv s.runtime)
    (hcommand : CommandInv s.runtime) (h : Step env ops s l t) : EndInv t := by
  cases h with
  | @msgs id protoMsgs hpc =>
    generalize ops.sendMsgs protoMsgs s.runtime.chain = result
    obtain ⟨out, c⟩ := result
    cases out with
    | ok events => exact endInv_goes_on hi.events nofun nofun
    | err kind => exact endInv_goes_on hi.events nofun nofun
    | panic =>
      exact endInv_ended rfl hi.events
        (.unwound ⟨_, List.mem_append_right _ List.mem_cons_self, rfl⟩)
  | runtime hother h =>
    cases h with
    | call _ _ => exact hi.frame rfl rfl hi.events id
    | refused _ _ => exact hi.frame rfl rfl hi.events id
    | receive _ _ => exact hi.frame rfl rfl hi.events id
    | lost _ _ => exact hi.frame rfl rfl hi.events id
    | noSender _ _ => exact hi
    | monitor hown hm =>
      have hstep := Monitor.step_cases hm
      obtain ⟨sent, hsent, -⟩ := hstep.sends
      refine hi.frame rfl rfl ?_ fun hpc => Monitor.panicked_step hpc hstep
      simp only [hsent, List.length_append]
      exact Nat.le_add_right_of_le hi.events
    | takeEvent hpc hlt => exact endInv_goes_on hlt (by simp [hpc]) (by simp [hpc])
    | takeRequest hpc _ => exact endInv_goes_on hi.events nofun nofun
    | command hpc _ => exact endInv_goes_on hi.events nofun nofun
    | sendMsgs hpc => exact endInv_goes_on hi.events nofun nofun
    | subscribe hpc => exact endInv_goes_on hi.events nofun nofun
    | reply hpc _ => exact endInv_goes_on hi.events nofun nofun
    | shutdownChain hpc =>
      exact ⟨hi.events, fun _ _ _ => ⟨_, List.mem_append_right _ List.mem_cons_self, rfl⟩, nofun⟩
    | eventsGone hpc hdead =>
      have htold := hcommand.not_told (by rw [hpc]; rfl)
      exact endInv_ended rfl hi.events (.noMonitor (panicked_of_dead htold hdead))
    | noMonitor hpc hdead =>
      have htold := hcommand.not_told (by rw [hpc]; rfl)
      exact endInv_ended rfl hi.events (.noMonitor (panicked_of_dead htold hdead))
    | @lastReply id out reply hpc _ =>
      exact endInv_ended rfl hi.events (.shutdown (hi.last id out hpc))
    | noCaller hpc hsend =>
      rw [hinv.held.reply_sent hpc] at hsend
      nomatch hsend

/-- The run lemma. -/
theorem endInv_reachable (h : (machine env ops chain).Reachable s) : EndInv s :=
  Machine.ReachableIf.invariant_with (J := (machine env ops chain).Reachable) (fun _ h => h)
    (fun s hs => by
      have hs' : s = initialState env chain := hs
      rw [hs']
      exact endInv_init)
    (fun _ _ _ hj hi _ ht =>
      endInv_step hi (inv_reachable hj) (commandInv_reachable hj) (step_cases ht)) h

/-! ## The end by the events -/

/-- The branch of `select!` for the events. -/
def isEvent : Runtime.Label → Bool
  | .takeEvent => true
  | .eventsGone => true
  | _ => false

/-- What is left of the events, and the disconnected channel. -/
def eventsLeft (s : State C) : Nat :=
  s.runtime.monitor.txBatch.length - s.runtime.eventsTaken + if s.runtime.pc.running then 1 else 0

/-- The thread waits for the events of a monitor that is gone, or has found that it is. -/
structure Draining (s : State C) : Prop where
  pc : s.runtime.pc = .select ∨ ∃ res, s.runtime.pc = .exited res
  dead : Runtime.monitorDead s.runtime.monitor = true
  events : s.runtime.eventsTaken ≤ s.runtime.monitor.txBatch.length

theorem draining_progress (env : Monitor.Env) (ops : Ops C) (hd : Draining s)
    (hexited : ¬ ∃ res, s.runtime.pc = .exited res) :
    ∃ l t, isEvent l = true ∧ step env ops s l = some t ∧ Draining t ∧
      eventsLeft t < eventsLeft s := by
  obtain ⟨hpc | hres, hdead, hevents⟩ := hd
  · rcases Nat.lt_or_eq_of_le hevents with hlt | heq
    · refine ⟨.takeEvent,
        ⟨{ s.runtime with eventsTaken := s.runtime.eventsTaken + 1 }, s.served⟩, rfl, ?_,
        ⟨.inl hpc, hdead, hlt⟩, ?_⟩
      · simp [step, msgsRequest, Runtime.step, hpc, hlt]
      · simp only [eventsLeft]
        omega
    · refine ⟨.eventsGone, ⟨s.runtime.exit (.err .channel), s.served⟩, rfl, ?_,
        ⟨.inr ⟨_, rfl⟩, hdead, hevents⟩, ?_⟩
      · simp [step, msgsRequest, Runtime.step, hpc, hdead, heq]
      · simp [eventsLeft, Runtime.State.exit, Runtime.Pc.running, hpc]
  · exact absurd hres hexited

theorem draining_ends (env : Monitor.Env) (ops : Ops C) (chain : C) (hd : Draining s) :
    ∃ ls t res, (∀ l ∈ ls, isEvent l = true) ∧ (machine env ops chain).exec s ls = some t ∧
      t.runtime.pc = .exited res := by
  have hstep : ∀ s : State C, Draining s → ¬ (∃ res, s.runtime.pc = .exited res) →
      ∃ l t, isEvent l = true ∧ (machine env ops chain).step s l = some t ∧ Draining t ∧ True ∧
        eventsLeft t < eventsLeft s := by
    intro s hd hexited
    obtain ⟨l, t, hl, ht, hdt, hlt⟩ := draining_progress env ops hd hexited
    exact ⟨l, t, hl, ht, hdt, trivial, hlt⟩
  obtain ⟨ls, t, hls, hexec, -, -, res, hpc⟩ := Machine.exec_done (R := fun _ _ => True)
    eventsLeft (fun _ => trivial) (fun _ _ => trivial) hstep hd
  exact ⟨ls, t, res, hls, hexec, hpc⟩

/-- Taking events leaves alone what else can end the thread. -/
theorem events_frame {ls : List Runtime.Label} (hls : ∀ l ∈ ls, isEvent l = true)
    (h : (machine env ops chain).exec s ls = some t) :
    t.served = s.served ∧ t.runtime.history.executed = s.runtime.history.executed ∧
      t.runtime.monitor.pc = s.runtime.monitor.pc := by
  refine Machine.exec_rel_places (C := fun _ l => isEvent l = true)
    (R := fun s t : State C => t.served = s.served ∧
      t.runtime.history.executed = s.runtime.history.executed ∧
        t.runtime.monitor.pc = s.runtime.monitor.pc)
    (fun _ => ⟨rfl, rfl, rfl⟩) (fun h h' => ?_) (fun s l t hl hstep => ?_)
    (fun before l after u v hplace _ _ => ?_) h
  · exact ⟨h'.1.trans h.1, h'.2.1.trans h.2.1, h'.2.2.trans h.2.2⟩
  · have hl' : isEvent l = true := hl
    cases step_cases hstep with
    | msgs _ => exact absurd hl' Bool.false_ne_true
    | runtime _ h =>
      cases h with
      | takeEvent _ _ => exact ⟨rfl, rfl, rfl⟩
      | eventsGone _ _ => exact ⟨rfl, rfl, rfl⟩
      | _ => exact absurd hl' Bool.false_ne_true
  · refine hls l ?_
    rw [hplace]
    exact List.mem_append_right _ List.mem_cons_self

/-- The events end a waiting thread only when its monitor has panicked. -/
theorem panicked_of_events {ls : List Runtime.Label} {res : Outcome Kind Unit}
    (h : (machine env ops chain).Reachable s) (hpc : s.runtime.pc = .select)
    (hls : ∀ l ∈ ls, isEvent l = true) (hexec : (machine env ops chain).exec s ls = some t)
    (hexited : t.runtime.pc = .exited res) : s.runtime.monitor.pc = .panicked := by
  obtain ⟨hserved, hexecuted, hmonitor⟩ := events_frame hls hexec
  rw [← hmonitor]
  cases (endInv_reachable (Machine.exec_reachable h hexec)).ended res hexited with
  | shutdown hshutdown =>
    obtain ⟨e, he, hcall⟩ := hshutdown
    have hclosing := (commandInv_reachable h).pc (.inr ⟨e, hexecuted ▸ he, hcall⟩)
    rw [hpc] at hclosing
    exact absurd hclosing Bool.false_ne_true
  | unwound hpanic =>
    obtain ⟨v, hv, hout⟩ := hpanic
    rw [hserved] at hv
    exact absurd hout ((thread_reachable h).no_panic (by rw [hpc]; rfl) hv)
  | noMonitor hpanicked => exact hpanicked

/-! ## Where the thread waits -/

/-- The thread waits in `select!`; there is no request, every event was taken, and the monitor is
    there to send more. -/
structure Idle (s : State C) : Prop where
  pc : s.runtime.pc = .select
  requests : s.runtime.requests.queue = []
  events : s.runtime.eventsTaken = s.runtime.monitor.txBatch.length
  monitor : Runtime.monitorDead s.runtime.monitor = false

theorem goes_on_or_idle (env : Monitor.Env) (ops : Ops C) (hinv : Runtime.Inv s.runtime)
    (hi : EndInv s) :
    (∃ res, s.runtime.pc = .exited res) ∨
      (∃ l t, isThread l = true ∧ step env ops s l = some t) ∨ Idle s := by
  by_cases hexited : ∃ res, s.runtime.pc = .exited res
  · exact .inl hexited
  refine .inr ?_
  by_cases hpc : s.runtime.pc = .select
  · by_cases hqueue : s.runtime.requests.queue = []
    · by_cases hdrained : s.runtime.eventsTaken = s.runtime.monitor.txBatch.length ∧
          Runtime.monitorDead s.runtime.monitor = false
      · exact .inr ⟨hpc, hqueue, hdrained.1, hdrained.2⟩
      · -- an event or the end of the channel is there to be taken
        refine .inl ?_
        by_cases hlt : s.runtime.eventsTaken < s.runtime.monitor.txBatch.length
        · exact ⟨.takeEvent,
            ⟨{ s.runtime with eventsTaken := s.runtime.eventsTaken + 1 }, s.served⟩, rfl,
            by simp [step, msgsRequest, Runtime.step, hpc, hlt]⟩
        · have heq := Nat.le_antisymm hi.events (Nat.not_lt.mp hlt)
          have hdead : Runtime.monitorDead s.runtime.monitor = true := by
            by_contra halive
            exact hdrained ⟨heq, Bool.eq_false_iff.mpr halive⟩
          obtain ⟨l, t, hl, hstep, -, -⟩ := draining_progress env ops
            ⟨.inl hpc, hdead, hi.events⟩ hexited
          refine ⟨l, t, ?_, hstep⟩
          cases l <;> first | rfl | exact absurd hl Bool.false_ne_true
    · refine .inl (thread_enabled env ops hinv fun hheld => hqueue ?_)
      exact List.map_eq_nil_iff.mp (List.append_eq_nil_iff.mp hheld).2
  · exact .inl (thread_goes_on env ops hinv hpc fun res hres => hexited ⟨res, hres⟩)

/-! ## Headline -/

/-- **Headline.**  With the gas and fee arithmetic in range, in every run of a worker: its thread
    has returned `Ok` only after a Shutdown, a channel error only after its monitor has pulled an
    item on which the extraction panics, and was unwound by a panic of its own iff the node has
    given a harmful answer; while it waits, taking events brings it to its end iff its monitor has
    pulled such an item; and until it ends it can go on, or has nothing to do. -/
theorem worker_endings {N : Type} (menv : Monitor.Env) (env : Cosmos.Env N) (node : N)
    (hrange : GasInRange env) {p : State (ChainState (N × List NodeCall)) × Trace}
    (h : (tracedWorker menv (chainOps env.logged) ⟨none, (node, [])⟩).Reachable p) :
    (∀ res, p.1.runtime.pc = .exited res →
      res = .ok () ∧ ShutDown p.1 ∨
        res = .err .channel ∧ (∃ item ∈ p.2.pulled, PanicsOn menv item.2) ∨
        res = .panic ∧ ¬ Harmless env none p.1.log) ∧
    (¬ Harmless env none p.1.log → p.1.runtime.pc = .exited .panic) ∧
    (p.1.runtime.pc = .select →
      ((∃ ls t res, (∀ l ∈ ls, isEvent l = true) ∧
          (loggedWorker menv env node).exec p.1 ls = some t ∧ t.runtime.pc = .exited res) ↔
        ∃ item ∈ p.2.pulled, PanicsOn menv item.2)) ∧
    ((∃ res, p.1.runtime.pc = .exited res) ∨
      (∃ l t, isThread l = true ∧ step menv (chainOps env.logged) p.1 l = some t) ∨
        Idle p.1) := by
  have hreach := traced_reachable h
  have hi := endInv_reachable hreach
  have hpanicked := traced_panicked h
  have hharmful : p.1.Panicked ↔ ¬ Harmless env none p.1.log := by
    obtain ⟨pieces, hlog, hpieces⟩ := logged_reachable hreach
    rw [hlog]
    exact served_harmful hrange hpieces none
  refine ⟨fun res hpc => ?_, fun hlog => ?_, fun hpc => ⟨?_, fun hpulled => ?_⟩,
    goes_on_or_idle menv _ (inv_reachable hreach) hi⟩
  · cases hi.ended res hpc with
    | shutdown hshutdown => exact .inl ⟨rfl, hshutdown⟩
    | noMonitor hmonitor => exact .inr (.inl ⟨rfl, hpanicked.mp hmonitor⟩)
    | unwound hpanic => exact .inr (.inr ⟨rfl, hharmful.mp hpanic⟩)
  · obtain ⟨v, hv, hout⟩ := hharmful.mpr hlog
    exact ((thread_reachable hreach).crashed v hv hout).1
  · rintro ⟨ls, t, res, hls, hexec, hexited⟩
    exact hpanicked.mp (panicked_of_events hreach hpc hls hexec hexited)
  · refine draining_ends menv _ _ ⟨.inl hpc, ?_, hi.events⟩
    unfold Runtime.monitorDead
    rw [hpanicked.mpr hpulled]

/-- A block is sent on, and a report without its attributes comes after it. -/
def brokenEvents : List Runtime.Label :=
  [.monitor .enter, .monitor .checkCmd, .monitor (.yield 0 (Monitor.blockItem 1)),
    .monitor (.yield 0 (Monitor.blockItem 2)), .monitor (.yield 0 (.ok bareReport)),
    .monitor (.pull 0), .monitor (.pull 0), .monitor .batch, .monitor .checkCmd,
    .monitor (.pull 0)]

theorem worker_endings_report :
    ∃ p, (tracedWorker Monitor.demoEnv (chainOps (demoEnv commitNode).logged)
        ⟨none, ([], [])⟩).exec (initialState Monitor.demoEnv ⟨none, ([], [])⟩, Trace.empty)
          brokenEvents = some p ∧
      ∃ ls t res, (∀ l ∈ ls, isEvent l = true) ∧
        (loggedWorker Monitor.demoEnv (demoEnv commitNode) []).exec p.1 ls = some t ∧
          t.runtime.pc = .exited res := by
  obtain ⟨p, hp, hpc, hpulled⟩ :
      ∃ p, (tracedWorker Monitor.demoEnv (chainOps (demoEnv commitNode).logged)
          ⟨none, ([], [])⟩).exec (initialState Monitor.demoEnv ⟨none, ([], [])⟩, Trace.empty)
            brokenEvents = some p ∧ p.1.runtime.pc = .select ∧
        p.2.pulled = [(0, Monitor.blockItem 1), (0, Monitor.blockItem 2), (0, .ok bareReport)] :=
    ⟨_, rfl, rfl, rfl⟩
  have hreach := Machine.exec_reachable (.init traced_init) hp
  obtain ⟨-, -, hevents, -⟩ := worker_endings Monitor.demoEnv (demoEnv commitNode) []
    (demoEnv_gasInRange commitNode) hreach
  refine ⟨p, hp, (hevents hpc).mpr ⟨(0, .ok bareReport), ?_, bareReport, rfl, ?_⟩⟩
  · rw [hpulled]
    simp
  · decide

end OffChainWorker.Worker
