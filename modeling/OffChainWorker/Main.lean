/-
  The program (`src/bin/main.rs`): one event monitor and the loop of `main` that receives from it.

  `create_subscribe` starts a monitor on a thread of its own, keeps its event receiver and drops the
  sender of its commands when it returns, so nobody can ever tell this monitor to stop.  `main`
  receives forever and looks at no message; it panics when the channel is disconnected, and the end
  of `main` is the end of the process.  The channel is disconnected when the monitor's thread is
  over and its last message has been received.
-/
import OffChainWorker.Subscribe.Extraction
import OffChainWorker.Subscribe.MonitorBounds
import OffChainWorker.Subscribe.MonitorTrace

namespace OffChainWorker.Main

open Proc
open OffChainWorker.Monitor (Env Trace tracedMachine fedPairs PanicsOn)

variable {env : Env}

/-! ## The machine -/

structure State where
  monitor : Monitor.State
  /-- The number of messages that `main` has received. -/
  received : Nat
  /-- `main` has panicked, and with it the process is gone. -/
  panicked : Bool

inductive Label where
  /-- A step of the monitor, or of a driver behind it. -/
  | monitor (l : Monitor.Label)
  /-- `recv(fxdex)` completes. -/
  | receive

/-- What is left for others to do to a monitor: `_monitor_cmd` is gone, and `main` keeps the
    receiver as long as it runs. -/
def isForeign : Monitor.Label → Bool
  | .sendCmd => true
  | .dropBatchReceiver => true
  | _ => false

/-- The monitor's thread is over, and with it the sender of its batches. -/
def isOver (s : Monitor.State) : Bool :=
  match s.pc with
  | .returned => true
  | .panicked => true
  | _ => false

def step (env : Env) (s : State) (l : Label) : Option State :=
  if s.panicked then none
  else
    match l with
    | .monitor l =>
      if isForeign l then none
      else (Monitor.step env s.monitor l).map fun m => { s with monitor := m }
    | .receive =>
      match s.monitor.txBatch[s.received]? with
      -- a batch and an error are received alike
      | some _ => some { s with received := s.received + 1 }
      | none => if isOver s.monitor then some { s with panicked := true } else none

/-- The program after `create_subscribe`. -/
def initialState (env : Env) : State := ⟨Monitor.subscribedState env, 0, false⟩

def machine (env : Env) : Machine State Label where
  init s := s = initialState env
  step := step env

/-- The record of the monitor's run. -/
def note (r : Trace) (s : State) : Label → Trace
  | .monitor l => r.note s.monitor l
  | .receive => r

/-- The program, with the record of its monitor's run. -/
def tracedProgram (env : Env) : Machine (State × Trace) Label :=
  (machine env).recording Trace.empty note

theorem traced_init : (tracedProgram env).init (initialState env, Trace.empty) := ⟨rfl, rfl⟩

/-! ## What a step can do -/

inductive Step (env : Env) (s : State) : Label → State → Prop where
  | monitor {l m} (hl : isForeign l = false) (hm : Monitor.step env s.monitor l = some m) :
      Step env s (.monitor l) { s with monitor := m }
  | receive {msg} (hmsg : s.monitor.txBatch[s.received]? = some msg) :
      Step env s .receive { s with received := s.received + 1 }
  | disconnected (hend : s.monitor.txBatch[s.received]? = none) (hover : isOver s.monitor = true) :
      Step env s .receive { s with panicked := true }

theorem step_cases {s t : State} {l : Label} (h : step env s l = some t) :
    s.panicked = false ∧ Step env s l t := by
  obtain ⟨hpanicked, h⟩ := Option.ite_none_left_eq_some.mp h
  refine ⟨Bool.eq_false_iff.mpr hpanicked, ?_⟩
  cases l with
  | monitor l =>
    obtain ⟨hl, h⟩ := Option.ite_none_left_eq_some.mp h
    obtain ⟨m, hm, rfl⟩ := Option.map_eq_some_iff.mp h
    exact .monitor (Bool.eq_false_iff.mpr hl) hm
  | receive =>
    simp only at h
    split at h
    · rename_i msg hmsg
      obtain rfl := Option.some.inj h
      exact .receive hmsg
    · rename_i hend
      obtain ⟨hover, h⟩ := Option.ite_none_right_eq_some.mp h
      obtain rfl := Option.some.inj h
      exact .disconnected hend hover

/-! ## The monitor inside the program -/

/-- The monitor of the program runs as a monitor does. -/
theorem monitor_reachable {p : State × Trace} (h : (tracedProgram env).Reachable p) :
    (tracedMachine env).Reachable (p.1.monitor, p.2) := by
  refine Machine.Reachable.invariant
    (I := fun p => (tracedMachine env).Reachable (p.1.monitor, p.2))
    (fun p hp => ?_) (fun p l q hi ht => ?_) h
  · obtain ⟨hs, hr⟩ := hp
    have hs' : p.1 = initialState env := hs
    rw [hs', hr]
    exact .init Monitor.traced_init
  · obtain ⟨t, hstepped, rfl⟩ := Option.map_eq_some_iff.mp ht
    obtain ⟨-, hstep⟩ := step_cases hstepped
    cases hstep with
    | @monitor l m _ hm =>
      refine Machine.Reachable.step (l := l) hi ?_
      show (Monitor.step env p.1.monitor l).map _ = _
      rw [hm]
      rfl
    | receive _ => exact hi
    | disconnected _ _ => exact hi

/-- Nobody tells the monitor to stop, and `main` keeps receiving. -/
structure Undisturbed (s : Monitor.State) : Prop where
  rxCmd : s.rxCmd = []
  rxBatch : s.rxBatch = true
  joinLast : s.pc ≠ .joinLast
  returned : s.pc ≠ .returned

theorem undisturbed_init : Undisturbed (Monitor.subscribedState env) :=
  ⟨rfl, rfl, nofun, nofun⟩

theorem undisturbed_iff {s : Monitor.State} :
    Undisturbed s ↔ ¬ Monitor.Told s ∧ s.rxBatch = true := by
  constructor
  · rintro ⟨hcmd, hrx, hjoin, hret⟩
    refine ⟨fun htold => ?_, hrx⟩
    rcases htold with hpending | hleaving
    · exact hpending hcmd
    · unfold Monitor.Pc.leaving at hleaving
      split at hleaving
      · exact hjoin ‹_›
      · exact hret ‹_›
      · nomatch hleaving
  · rintro ⟨htold, hrx⟩
    refine ⟨Decidable.not_not.mp fun hcmd => htold (.inl hcmd), hrx, fun hpc => ?_, fun hpc => ?_⟩
    · exact htold (.inr (by rw [hpc]; rfl))
    · exact htold (.inr (by rw [hpc]; rfl))

/-- **Frame.**  Only `dropBatchReceiver` touches the receiver of the batches. -/
theorem rxBatch_step {s t : Monitor.State} {l : Monitor.Label} (hl : l ≠ .dropBatchReceiver)
    (h : Monitor.Step env s l t) : t.rxBatch = s.rxBatch := by
  cases h with
  | batch _ _ =>
    unfold Monitor.State.processBatch
    split
    · rfl
    · exact Monitor.send_rxBatch ..
  | streamError _ _ =>
    unfold Monitor.State.streamError
    split
    · exact Monitor.send_rxBatch ..
    · rfl
  | @noClient cause delays _ => cases delays <;> rfl
  | @joinFailed cause old delays _ _ => cases delays <;> rfl
  | @notSubscribed cause done q todo delays _ => cases delays <;> rfl
  | dropBatchReceiver => exact absurd rfl hl
  | _ => rfl

/-- **Step lemma** for the monitor: without a command it stays in its loop. -/
theorem undisturbed_step {s t : Monitor.State} {l : Monitor.Label} (hi : Undisturbed s)
    (hl : isForeign l = false) (h : Monitor.Step env s l t) : Undisturbed t := by
  obtain ⟨htold, hrx⟩ := undisturbed_iff.mp hi
  have hcmd : l ≠ .sendCmd := by
    rintro rfl
    nomatch hl
  have hdrop : l ≠ .dropBatchReceiver := by
    rintro rfl
    nomatch hl
  refine undisturbed_iff.mpr ⟨?_, (rxBatch_step hdrop h).trans hrx⟩
  rw [Monitor.told_step hcmd h]
  exact htold

/-! ## The invariant -/

/-- What holds of the program in every run. -/
structure Inv (s : State) : Prop where
  monitor : Undisturbed s.monitor
  received : s.received ≤ s.monitor.txBatch.length
  panicked : s.panicked = true → isOver s.monitor = true ∧ s.received = s.monitor.txBatch.length

/-- **Step lemma.** -/
theorem inv_step {s t : State} {l : Label} (hi : Inv s) (h : step env s l = some t) : Inv t := by
  obtain ⟨halive, hstep⟩ := step_cases h
  cases hstep with
  | monitor hl hm =>
    have hmon := Monitor.step_cases hm
    obtain ⟨sent, hsent, -⟩ := hmon.sends
    refine ⟨undisturbed_step hi.monitor hl hmon, ?_, fun hp => ?_⟩
    · rw [hsent, List.length_append]
      exact Nat.le_add_right_of_le hi.received
    · rw [halive] at hp
      nomatch hp
  | receive hmsg =>
    obtain ⟨hlt, -⟩ := List.getElem?_eq_some_iff.mp hmsg
    refine ⟨hi.monitor, hlt, fun hp => ?_⟩
    rw [halive] at hp
    nomatch hp
  | disconnected hend hover =>
    have hle := List.getElem?_eq_none_iff.mp hend
    exact ⟨hi.monitor, hi.received, fun _ => ⟨hover, Nat.le_antisymm hi.received hle⟩⟩

/-- The run lemma. -/
theorem inv_reachable {p : State × Trace} (h : (tracedProgram env).Reachable p) : Inv p.1 := by
  have hreach : (machine env).Reachable p.1 :=
    Machine.recording_maps.reachable_iff.mpr ⟨p, h, rfl⟩
  refine Machine.Reachable.invariant (M := machine env) (fun s hs => ?_)
    (fun s l t hi ht => inv_step hi ht) hreach
  have hs' : s = initialState env := hs
  rw [hs']
  exact ⟨undisturbed_init, Nat.le_refl 0, nofun⟩

/-- The thread of this monitor can only end by a panic. -/
theorem Undisturbed.isOver {s : Monitor.State} (hi : Undisturbed s) (h : isOver s = true) :
    s.pc = .panicked := by
  unfold Main.isOver at h
  split at h
  · rename_i hpc
    exact absurd hpc hi.returned
  · assumption
  · nomatch h

/-! ## The end of the process -/

/-- What `main` has still to receive, and the disconnected channel. -/
def remaining (s : State) : Nat :=
  s.monitor.txBatch.length - s.received + if s.panicked then 0 else 1

/-- Once the thread is over a receive is one of what is left. -/
theorem receive_progress (env : Env) {s : State} (halive : s.panicked = false)
    (hover : isOver s.monitor = true) :
    ∃ t, step env s .receive = some t ∧ t.monitor = s.monitor ∧ remaining t < remaining s := by
  cases hmsg : s.monitor.txBatch[s.received]? with
  | some msg =>
    refine ⟨{ s with received := s.received + 1 }, by simp [step, halive, hmsg], rfl, ?_⟩
    obtain ⟨hlt, -⟩ := List.getElem?_eq_some_iff.mp hmsg
    unfold remaining
    rw [halive]
    show s.monitor.txBatch.length - (s.received + 1) + 1 < s.monitor.txBatch.length - s.received + 1
    omega
  | none =>
    refine ⟨{ s with panicked := true }, by simp [step, halive, hmsg, hover], rfl, ?_⟩
    unfold remaining
    rw [halive]
    exact Nat.lt_succ_self _

/-- Once the thread is over `main` receives what is left and panics. -/
theorem main_ends (env : Env) {s : State} (hover : isOver s.monitor = true) :
    ∃ ls t, (∀ l ∈ ls, l = .receive) ∧ (machine env).exec s ls = some t ∧ t.panicked = true := by
  have hprogress : ∀ s, isOver s.monitor = true → ¬ s.panicked = true →
      ∃ l t, l = .receive ∧ (machine env).step s l = some t ∧ isOver t.monitor = true ∧
        True ∧ remaining t < remaining s := by
    intro s hover halive
    obtain ⟨t, hstep, hsame, hlt⟩ := receive_progress env (Bool.eq_false_iff.mpr halive) hover
    exact ⟨.receive, t, rfl, hstep, by rw [hsame]; exact hover, trivial, hlt⟩
  obtain ⟨ls, t, hls, hexec, -, -, hdone⟩ := Machine.exec_done (R := fun _ _ => True) remaining
    (fun _ => trivial) (fun _ _ => trivial) hprogress hover
  exact ⟨ls, t, hls, hexec, hdone⟩

/-- Receiving does nothing to the monitor. -/
theorem receives_monitor {ls : List Label} (hls : ∀ l ∈ ls, l = .receive) :
    ∀ {s t : State}, Inv s → (machine env).exec s ls = some t → Inv t ∧ t.monitor = s.monitor := by
  induction ls with
  | nil =>
    intro s t hi h
    obtain rfl : s = t := Option.some.inj h
    exact ⟨hi, rfl⟩
  | cons l ls ih =>
    intro s t hi h
    rw [Machine.exec_cons] at h
    obtain ⟨u, hu, hrest⟩ := Option.bind_eq_some_iff.mp h
    obtain ⟨hit, hsame⟩ := ih (fun l hl => hls l (List.mem_cons_of_mem _ hl)) (inv_step hi hu) hrest
    refine ⟨hit, hsame.trans ?_⟩
    obtain rfl := hls l List.mem_cons_self
    have hstep : step env s .receive = some u := hu
    cases (step_cases hstep).2 with
    | receive _ => rfl
    | disconnected _ _ => rfl

/-! ## Headline -/

/-- **Headline.**  In every run of the program: the monitor is never told to stop and never ends by
    itself; the events that `main` has received were fed, each arrives once and in order; and `main`
    panics only after an item on which the extraction panics, having received all that was sent
    before, while after such an item its own receives are all that lies before its panic. -/
theorem main_panics_iff {p : State × Trace} (h : (tracedProgram env).Reachable p) :
    (p.1.monitor.rxCmd = [] ∧ p.1.monitor.pc ≠ .joinLast ∧ p.1.monitor.pc ≠ .returned) ∧
    (Monitor.batchPairs (p.1.monitor.txBatch.take p.1.received)).Sublist
      (fedPairs env p.1.monitor p.2) ∧
    (p.1.panicked = true → p.1.received = p.1.monitor.txBatch.length) ∧
    ((∃ ls t, (∀ l ∈ ls, l = .receive) ∧ (machine env).exec p.1 ls = some t ∧ t.panicked = true) ↔
      ∃ item ∈ p.2.pulled, PanicsOn env item.2) := by
  have hi := inv_reachable h
  have hmon := monitor_reachable h
  have hpanic := Monitor.panicInv_reachable hmon
  have hsent := Monitor.sent_sublist_fedPairs hmon
  refine ⟨⟨hi.monitor.rxCmd, hi.monitor.joinLast, hi.monitor.returned⟩, ?_,
    fun hp => (hi.panicked hp).2, ?_⟩
  · rw [← List.take_append_drop p.1.received p.1.monitor.txBatch,
      Monitor.batchPairs_append] at hsent
    exact (List.sublist_append_left _ _).trans hsent
  · constructor
    · rintro ⟨ls, t, hls, hexec, hp⟩
      obtain ⟨hit, hsame⟩ := receives_monitor hls hi hexec
      refine hpanic.mp ?_
      have hover := (hit.panicked hp).1
      rw [hsame] at hover
      exact hi.monitor.isOver hover
    · intro hpulled
      have hover : isOver p.1.monitor = true := by
        rw [isOver, hpanic.mpr hpulled]
      exact main_ends env hover

/-- A monitor of the bandchain. -/
def bandEnv : Env where
  parsers := decimalParsers
  sort := .mergeSort Event
  chainId := "bandchain"
  eventQueries := ["Tx", "NewBlock"]
  strategy := Monitor.demoEnv.strategy

/-- Two blocks are pulled, the first is sent on, and then a report without its attributes. -/
def reportRun : List Label :=
  [.monitor .enter, .monitor .checkCmd, .monitor (.yield 0 (Monitor.blockItem 1)),
    .monitor (.yield 0 (Monitor.blockItem 2)), .monitor (.yield 0 (.ok bareReport)),
    .monitor (.pull 0), .monitor (.pull 0), .monitor .batch, .monitor .checkCmd,
    .monitor (.pull 0)]

theorem main_panics_iff_report :
    ∃ p, (tracedProgram bandEnv).exec (initialState bandEnv, Trace.empty) reportRun = some p ∧
      ∃ ls t, (∀ l ∈ ls, l = .receive) ∧ (machine bandEnv).exec p.1 ls = some t ∧
        t.panicked = true := by
  obtain ⟨p, hp, hpulled⟩ :
      ∃ p, (tracedProgram bandEnv).exec (initialState bandEnv, Trace.empty) reportRun = some p ∧
        p.2.pulled = [(0, Monitor.blockItem 1), (0, Monitor.blockItem 2), (0, .ok bareReport)] :=
    ⟨_, rfl, rfl⟩
  have hreach := Machine.exec_reachable (.init traced_init) hp
  refine ⟨p, hp, (main_panics_iff hreach).2.2.2.mpr ⟨(0, .ok bareReport), ?_, bareReport, rfl, ?_⟩⟩
  · rw [hpulled]
    simp
  · decide

end OffChainWorker.Main
