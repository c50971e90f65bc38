/-
  What the event bus guarantees whatever its subscribers do, and which subscribers it loses.

  The second loop of `broadcast` removes indices one after the other, so the index noted for a dead
  sender hits the one that stands behind it by the number of removals before (`foldl_eraseIdx`).
  That decides exactly who is on the bus after a broadcast, dead senders left over and live ones
  thrown out (`broadcast_keeps`).  A subscriber that has been thrown out gets nothing more; so a
  live receiver has always been sent the beginning of what was broadcast since it subscribed, and
  all of it as long as its sender is on the bus (`Behind`).  This is shown on runs in which nobody
  receives.  Receiving moves values from the queue to the receiver and touches nothing else, so a
  run with receives is such a run with the received values put back (`Unserved`).
-/
import OffChainWorker.Lib.Lists
import OffChainWorker.Lib.Machine
import OffChainWorker.Subscribe.Bus

namespace OffChainWorker.Bus

open Proc

variable {T : Type}

/-! ## Who stays on the bus -/

theorem deadIdxs_sorted (rx : Nat → Bool) (txs : List Nat) (idx : Nat) :
    (deadIdxs rx txs idx).Pairwise (· < ·) := by
  induction txs generalizing idx with
  | nil => exact List.Pairwise.nil
  | cons tx txs ih =>
    rw [deadIdxs]
    split
    · exact ih (idx + 1)
    · exact List.pairwise_cons.mpr ⟨le_of_mem_deadIdxs rx txs (idx + 1), ih (idx + 1)⟩

/-- The indices of the dead senders. -/
def World.deadIdxs (w : World T) : List Nat :=
  Bus.deadIdxs (fun id => (w.chans id).rx) w.bus.txs 0

/-- The senders at the noted indices, each moved by the number of those before it, go; all others
    stay. -/
theorem broadcast_keeps (ops : List (Op T)) (value : T) :
    (run (ops ++ [.broadcast value])).bus.txs =
      keepAt (fun n => decide (n ∉ shifted 0 (run ops).deadIdxs)) (run ops).bus.txs := by
  rw [run_snoc]
  show ((run ops).broadcast value).bus.txs = _
  rw [broadcast_txs]
  exact foldl_eraseIdx (deadIdxs_sorted _ _ _) _

/-! ## What a receiver has been sent -/

/-- The senders stand on the bus in the order of their subscriptions, each once; a live receiver has
    been sent the beginning of what was broadcast since, and all of it while its sender is on the
    bus. -/
structure Behind (ops : List (Op T)) : Prop where
  ordered : (run ops).bus.txs.Pairwise (· < ·)
  lt_next : ∀ id ∈ (run ops).bus.txs, id < (run ops).next
  sent : ∀ id < (run ops).next, ((run ops).chans id).rx = true →
    ((run ops).chans id).queue <+: broadcastsSince ops id ∧
      (id ∈ (run ops).bus.txs → ((run ops).chans id).queue = broadcastsSince ops id)

theorem behind_nil : Behind ([] : List (Op T)) where
  ordered := List.Pairwise.nil
  lt_next := fun _ hid => absurd hid List.not_mem_nil
  sent := fun id hid => absurd hid (Nat.not_lt_zero id)

/-- An operation after which a receiver has been sent no more and is owed no more. -/
theorem sent_same {ops : List (Op T)} {op : Op T} {id : Nat} (hid : id < (run ops).next)
    (hop : broadcasts [op] = []) : broadcastsSince (ops ++ [op]) id = broadcastsSince ops id := by
  rw [broadcastsSince_snoc ops op id (by rw [← run_next]; exact hid), hop, List.append_nil]

theorem Behind.subscribe {ops : List (Op T)} (h : Behind ops) : Behind (ops ++ [.subscribe]) := by
  constructor
  · rw [run_snoc]
    refine List.pairwise_append.mpr ⟨h.ordered, List.pairwise_singleton .., ?_⟩
    intro a ha b hb
    rw [List.mem_singleton.mp hb]
    exact h.lt_next a ha
  · rw [run_snoc]
    intro id hid
    rcases List.mem_append.mp hid with hin | hin
    · exact Nat.lt_succ_of_lt (h.lt_next id hin)
    · rw [List.mem_singleton.mp hin]
      exact Nat.lt_succ_self _
  · rw [run_snoc]
    intro id hid hrx
    by_cases heq : id = (run ops).next
    · -- the new receiver has been sent nothing and is owed nothing
      have hqueue : (((run ops).apply .subscribe).chans id).queue = [] := by
        subst heq
        simp [World.apply, World.subscribe, Chan.unbounded]
      have howed : broadcastsSince (ops ++ [.subscribe]) id = [] := by
        rw [heq, run_next]
        exact broadcastsSince_subscribe ops
      rw [hqueue, howed]
      exact ⟨List.prefix_rfl, fun _ => rfl⟩
    · have hlt : id < (run ops).next := by
        have hsucc : id < (run ops).next + 1 := hid
        omega
      have hchan : ((run ops).apply .subscribe).chans id = (run ops).chans id := by
        simp [World.apply, World.subscribe, heq]
      rw [hchan] at hrx ⊢
      rw [sent_same hlt rfl]
      obtain ⟨hfirst, hall⟩ := h.sent id hlt hrx
      refine ⟨hfirst, fun hin => hall ?_⟩
      rcases List.mem_append.mp hin with hin | hin
      · exact hin
      · exact absurd (List.mem_singleton.mp hin) heq

theorem Behind.dropReceiver {ops : List (Op T)} (h : Behind ops) (i : Nat) :
    Behind (ops ++ [.dropReceiver i]) := by
  constructor
  · rw [run_snoc]; exact h.ordered
  · rw [run_snoc]; exact h.lt_next
  · rw [run_snoc]
    intro id hid hrx
    have hne : id ≠ i := by
      rintro rfl
      simp [World.apply, World.dropReceiver] at hrx
    have hchan : ((run ops).apply (.dropReceiver i)).chans id = (run ops).chans id := by
      simp [World.apply, World.dropReceiver, hne]
    rw [hchan] at hrx ⊢
    rw [sent_same hid rfl]
    exact h.sent id hid hrx

theorem Behind.broadcast {ops : List (Op T)} (h : Behind ops) (value : T) :
    Behind (ops ++ [.broadcast value]) := by
  have hkept : (run (ops ++ [.broadcast value])).bus.txs.Sublist (run ops).bus.txs := by
    rw [broadcast_keeps]
    exact keepAt_sublist _ _
  have hnext : (run (ops ++ [.broadcast value])).next = (run ops).next := by
    rw [run_snoc]
    rfl
  have hnodup : (run ops).bus.txs.Nodup := h.ordered.imp Nat.ne_of_lt
  refine ⟨h.ordered.sublist hkept, fun id hid => ?_, fun id hid hrx => ?_⟩
  · rw [hnext]
    exact h.lt_next id (hkept.subset hid)
  · rw [hnext] at hid
    have hrx' : ((run ops).chans id).rx = true := by
      rw [run_snoc] at hrx
      exact (sendAll_frame value _ 0 (run ops).chans id).1.symm.trans hrx
    obtain ⟨hfirst, hall⟩ := h.sent id hid hrx'
    have hqueue : ((run (ops ++ [.broadcast value])).chans id).queue =
        ((run ops).chans id).queue ++ if id ∈ (run ops).bus.txs then [value] else [] := by
      rw [run_snoc]
      exact sendAll_queue value _ hnodup 0 _ (run_cap ops) id hrx'
    rw [hqueue, broadcastsSince_snoc ops (.broadcast value) id (by rw [← run_next]; exact hid)]
    by_cases hin : id ∈ (run ops).bus.txs
    · rw [if_pos hin, hall hin]
      exact ⟨List.prefix_rfl, fun _ => rfl⟩
    · rw [if_neg hin, List.append_nil]
      exact ⟨hfirst.trans (List.prefix_append _ _), fun hin' => absurd (hkept.subset hin') hin⟩

/-- The run lemma. -/
theorem behind_run (ops : List (Op T)) : Behind ops := by
  induction ops using List.reverseRecOn with
  | nil => exact behind_nil
  | append_singleton ops op ih =>
    cases op with
    | subscribe => exact ih.subscribe
    | broadcast value => exact ih.broadcast value
    | dropReceiver i => exact ih.dropReceiver i

/-! ## Receivers that take values off -/

/-- What happens around a bus: an operation, or a receiver gets a value. -/
inductive Event (T : Type) where
  | op (o : Op T)
  | receive (id : Nat)
deriving Repr, DecidableEq

/-- The world, and what the receivers have got so far. -/
structure Served (T : Type) where
  world : World T
  got : Nat → List T

/-- A receiver has got a value, which leaves `c` of its channel. -/
def Served.take (s : Served T) (id : Nat) (value : T) (c : Chan T) : Served T where
  world := { s.world with chans := Function.update s.world.chans id c }
  got := Function.update s.got id (s.got id ++ [value])

def Served.step (s : Served T) : Event T → Option (Served T)
  | .op o => some { s with world := s.world.apply o }
  | .receive id =>
    match (s.world.chans id).recv with
    | .received value c => if id < s.world.next then some (s.take id value c) else none
    | _ => none

/-- What a receiver can do. -/
theorem receive_cases {s t : Served T} {id : Nat} (h : s.step (.receive id) = some t) :
    ∃ value c, id < s.world.next ∧ (s.world.chans id).recv = .received value c ∧
      t = s.take id value c := by
  simp only [Served.step] at h
  cases hrecv : (s.world.chans id).recv with
  | received value c =>
    rw [hrecv] at h
    obtain ⟨hlt, htake⟩ := Option.ite_none_right_eq_some.mp h
    exact ⟨value, c, hlt, rfl, (Option.some.inj htake).symm⟩
  | empty =>
    rw [hrecv] at h
    nomatch h
  | disconnected =>
    rw [hrecv] at h
    nomatch h

/-- A new bus with its subscribers. -/
def machine (T : Type) : Machine (Served T) (Event T) where
  init s := s = ⟨World.new, fun _ => []⟩
  step := Served.step

def Event.operation : Event T → Option (Op T)
  | .op o => some o
  | .receive _ => none

/-- The operations on the bus. -/
def opsOf (events : List (Event T)) : List (Op T) := events.filterMap Event.operation

/-- The world in which nobody gets a value, for one in which the receivers do: the queue of a live
    receiver is what it has got and what it has still to get. -/
structure Unserved (s : Served T) (w : World T) : Prop where
  bus : s.world.bus = w.bus
  next : s.world.next = w.next
  rx : ∀ id, (s.world.chans id).rx = (w.chans id).rx
  cap : ∀ id, (s.world.chans id).cap = (w.chans id).cap
  queue : ∀ id, (w.chans id).rx = true →
    (w.chans id).queue = s.got id ++ (s.world.chans id).queue
  unborn : ∀ id, w.next ≤ id → s.got id = []

theorem unserved_new : Unserved (⟨World.new, fun _ => []⟩ : Served T) World.new where
  bus := rfl
  next := rfl
  rx := fun _ => rfl
  cap := fun _ => rfl
  queue := fun _ _ => rfl
  unborn := fun _ _ => rfl

theorem Unserved.subscribe {s : Served T} {w : World T} (h : Unserved s w) :
    Unserved { s with world := s.world.subscribe } w.subscribe where
  bus := by simp only [World.subscribe, h.bus, h.next]
  next := by simp only [World.subscribe, h.next]
  rx := fun id => by
    simp only [World.subscribe, h.next, Function.update_apply]
    split
    · rfl
    · exact h.rx id
  cap := fun id => by
    simp only [World.subscribe, h.next, Function.update_apply]
    split
    · rfl
    · exact h.cap id
  queue := fun id hrx => by
    simp only [World.subscribe, h.next, Function.update_apply] at hrx ⊢
    by_cases hid : id = w.next
    · -- the new receiver has got nothing
      rw [if_pos hid, if_pos hid, h.unborn id (Nat.le_of_eq hid.symm)]
      rfl
    · rw [if_neg hid] at hrx
      rw [if_neg hid, if_neg hid]
      exact h.queue id hrx
  unborn := fun id hid => h.unborn id (Nat.le_of_succ_le hid)

theorem Unserved.dropReceiver {s : Served T} {w : World T} (h : Unserved s w) (i : Nat) :
    Unserved { s with world := s.world.dropReceiver i } (w.dropReceiver i) where
  bus := h.bus
  next := h.next
  rx := fun id => by
    simp only [World.dropReceiver, Function.update_apply]
    split
    · rfl
    · exact h.rx id
  cap := fun id => by
    simp only [World.dropReceiver, Function.update_apply]
    split
    · exact h.cap i
    · exact h.cap id
  queue := fun id hrx => by
    have hid : id ≠ i := by
      rintro rfl
      simp [World.dropReceiver] at hrx
    simp only [World.dropReceiver, Function.update_of_ne hid] at hrx ⊢
    exact h.queue id hrx
  unborn := h.unborn

/-- The senders and receivers decide what a broadcast does, and the queues do not. -/
theorem Unserved.broadcast {s : Served T} {w : World T} (h : Unserved s w) (value : T)
    (hcap : ∀ id, (w.chans id).cap = none) (hnodup : w.bus.txs.Nodup) :
    Unserved { s with world := s.world.broadcast value } (w.broadcast value) where
  bus := by
    have hcap' : ∀ id, (s.world.chans id).cap = none := fun id => (h.cap id).trans (hcap id)
    show EventBus.mk (removeAll (sendAll value s.world.bus.txs 0 s.world.chans).2 _) =
      EventBus.mk (removeAll (sendAll value w.bus.txs 0 w.chans).2 _)
    rw [sendAll_disconnected value _ 0 _ hcap', sendAll_disconnected value _ 0 _ hcap, h.bus,
      funext h.rx]
  next := h.next
  rx := fun id => by
    show ((sendAll value _ 0 s.world.chans).1 id).rx = ((sendAll value _ 0 w.chans).1 id).rx
    rw [(sendAll_frame ..).1, (sendAll_frame ..).1]
    exact h.rx id
  cap := fun id => by
    show ((sendAll value _ 0 s.world.chans).1 id).cap = ((sendAll value _ 0 w.chans).1 id).cap
    rw [(sendAll_frame ..).2, (sendAll_frame ..).2]
    exact h.cap id
  queue := fun id hrx => by
    have hlive : (w.chans id).rx = true := (sendAll_frame value _ 0 w.chans id).1.symm.trans hrx
    have hlive' : (s.world.chans id).rx = true := (h.rx id).trans hlive
    show ((sendAll value w.bus.txs 0 w.chans).1 id).queue =
      s.got id ++ ((sendAll value s.world.bus.txs 0 s.world.chans).1 id).queue
    rw [sendAll_queue value _ hnodup 0 _ hcap id hlive,
      sendAll_queue value _ (h.bus ▸ hnodup) 0 _ (fun id => (h.cap id).trans (hcap id)) id hlive',
      h.bus, h.queue id hlive, List.append_assoc]
  unborn := h.unborn

theorem Unserved.receive {s : Served T} {w : World T} (h : Unserved s w) {id : Nat} {value : T}
    {c : Chan T} (hlt : id < w.next) (hrecv : (s.world.chans id).recv = .received value c) :
    Unserved (s.take id value c) w := by
  obtain ⟨rest, hqueue, rfl⟩ := Chan.queue_of_recv hrecv
  refine ⟨h.bus, h.next, fun i => ?_, fun i => ?_, fun i hrx => ?_, fun i hi => ?_⟩
  · simp only [Served.take, Function.update_apply]
    split
    · rename_i hi
      rw [hi]
      exact h.rx id
    · exact h.rx i
  · simp only [Served.take, Function.update_apply]
    split
    · rename_i hi
      rw [hi]
      exact h.cap id
    · exact h.cap i
  · by_cases hi : i = id
    · -- the value moves from the queue to what was got
      subst hi
      have hwhole := h.queue i hrx
      rw [hqueue] at hwhole
      simp only [Served.take, Function.update_self]
      rw [hwhole, List.append_assoc]
      rfl
    · simp only [Served.take, Function.update_of_ne hi]
      exact h.queue i hrx
  · have hne : i ≠ id := by
      rintro rfl
      exact Nat.not_le.mpr hlt hi
    simp only [Served.take, Function.update_of_ne hne]
    exact h.unborn i hi

theorem opsOf_snoc (events : List (Event T)) (e : Event T) :
    opsOf (events ++ [e]) = opsOf events ++ e.operation.toList := by
  unfold opsOf
  rw [List.filterMap_append]
  cases h : e.operation <;> simp [h]

/-- **Refinement**: the bus does not see who receives. -/
theorem unserved_run {events : List (Event T)} {s : Served T}
    (h : (machine T).exec ⟨World.new, fun _ => []⟩ events = some s) :
    Unserved s (run (opsOf events)) := by
  induction events using List.reverseRecOn generalizing s with
  | nil =>
    obtain rfl := Option.some.inj h
    exact unserved_new
  | append_singleton events e ih =>
    rw [Machine.exec_append] at h
    obtain ⟨u, hu, hstep⟩ := Option.bind_eq_some_iff.mp h
    rw [Machine.exec_cons] at hstep
    obtain ⟨t, ht, hrest⟩ := Option.bind_eq_some_iff.mp hstep
    obtain rfl := Option.some.inj hrest
    have hunserved := ih hu
    rw [opsOf_snoc]
    cases e with
    | op o =>
      obtain rfl := Option.some.inj ht
      show Unserved _ (run (opsOf events ++ [o]))
      rw [run_snoc]
      cases o with
      | subscribe => exact hunserved.subscribe
      | broadcast value =>
        have hordered := (behind_run (opsOf events)).ordered
        exact hunserved.broadcast value (run_cap _) (hordered.imp Nat.ne_of_lt)
      | dropReceiver i => exact hunserved.dropReceiver i
    | receive id =>
      show Unserved _ (run (opsOf events ++ []))
      rw [List.append_nil]
      obtain ⟨value, c, hlt, hrecv, rfl⟩ := receive_cases ht
      exact hunserved.receive (hunserved.next ▸ hlt) hrecv

/-! ## Headline -/

/-- **Headline.**  In every run of the bus and its subscribers: what a live receiver has got, and
    then what waits in its channel, is the beginning of what was broadcast since it subscribed, each
    value once and in order, and all of it while its sender is on the bus; and a broadcast throws
    out exactly the senders at the places of the dead ones, each place moved on by the number of the
    dead before it. -/
theorem broadcast_exact {events : List (Event T)} {s : Served T}
    (h : (machine T).exec ⟨World.new, fun _ => []⟩ events = some s) :
    (∀ id < s.world.next, (s.world.chans id).rx = true →
      s.got id ++ (s.world.chans id).queue <+: broadcastsSince (opsOf events) id ∧
        (id ∈ s.world.bus.txs →
          s.got id ++ (s.world.chans id).queue = broadcastsSince (opsOf events) id)) ∧
    ∀ value, (s.world.broadcast value).bus.txs =
      keepAt (fun n => decide (n ∉ shifted 0 s.world.deadIdxs)) s.world.bus.txs := by
  have hunserved := unserved_run h
  have hbehind := behind_run (opsOf events)
  refine ⟨fun id hid hrx => ?_, fun value => ?_⟩
  · rw [hunserved.next] at hid
    rw [hunserved.rx id] at hrx
    rw [← hunserved.queue id hrx, hunserved.bus]
    exact hbehind.sent id hid hrx
  · have hnext := hunserved.broadcast value (run_cap _) (hbehind.ordered.imp Nat.ne_of_lt)
    have hdead : s.world.deadIdxs = (run (opsOf events)).deadIdxs := by
      unfold World.deadIdxs
      rw [hunserved.bus, funext hunserved.rx]
    have hkeeps := broadcast_keeps (opsOf events) value
    rw [run_snoc] at hkeeps
    rw [hdead, hunserved.bus, ← hkeeps]
    exact congrArg EventBus.txs hnext.bus

/-- Of four subscribers the first two are gone: the third gets the `7`, is thrown out and misses the
    `8`. -/
def lossyEvents : List (Event Nat) :=
  [.op .subscribe, .op .subscribe, .op .subscribe, .op .subscribe, .op (.dropReceiver 0),
    .op (.dropReceiver 1), .op (.broadcast 7), .receive 2, .op (.broadcast 8)]

theorem broadcast_exact_lossy :
    ∃ s, (machine Nat).exec ⟨World.new, fun _ => []⟩ lossyEvents = some s ∧ s.got 2 = [7] ∧
      s.got 2 ++ (s.world.chans 2).queue <+: broadcastsSince (opsOf lossyEvents) 2 := by
  obtain ⟨s, hs, hrx, hnext, hgot⟩ :
      ∃ s, (machine Nat).exec ⟨World.new, fun _ => []⟩ lossyEvents = some s ∧
        (s.world.chans 2).rx = true ∧ 2 < s.world.next ∧ s.got 2 = [7] :=
    ⟨_, rfl, by decide, by decide, by decide⟩
  exact ⟨s, hs, hgot, ((broadcast_exact hs).1 2 hnext hrx).1⟩

end OffChainWorker.Bus
