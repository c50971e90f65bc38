/-
  What the subscribers get of what the network has sent, over a whole run of the event monitor.

  A run is recorded (`Trace`): every item that a driver has handed to the subscriptions of its
  client, connection by connection in the order of the merged stream, and every item that a batch
  stream has pulled.  The monitor reads from the current connection only and never goes back to an
  older one, so what it pulls is, connection after connection, the beginning of what was fed
  (`FeedInv`); and every step moves pairs only forward, from the batch stream to `tx_batch`, or
  drops them (`pairs_sublist_step`).  Whatever the drivers, the reconnects and the subscribers do,
  an event arrives at most once and never before an event that was fed earlier.  When no driver
  error is picked over unfinished events nothing is dropped while the monitor runs and its
  subscribers listen (`nothingLost_step`), and once it stops, or they are gone, only the end of what
  was pulled is missing (`sent_prefix_step`).
-/
import Mathlib.Data.List.Flatten
import OffChainWorker.Lib.Lists
import OffChainWorker.Subscribe.MonitorDelivery

namespace OffChainWorker.Monitor

open Proc

variable {env : Env}

/-! ## The record of a run -/

/-- What has been fed and what has been pulled so far. -/
structure Trace where
  /-- The items that the driver of a connection has handed to the subscriptions of its client, in
      the order of the merged stream. -/
  fed : ConnId → List Item
  /-- The items that the batch streams have pulled, each with its connection. -/
  pulled : List (ConnId × Item)

namespace Trace

def empty : Trace := ⟨fun _ => [], []⟩

/-- The record after a step. -/
def note (r : Trace) (s : State) : Label → Trace
  | .yield c item => { r with fed := Function.update r.fed c (r.fed c ++ [item]) }
  | .pull c => { r with pulled := r.pulled ++ ((s.feeds c).take 1).map fun item => (c, item) }
  | _ => r

/-- The items pulled off one connection. -/
def pulledOf (r : Trace) (c : ConnId) : List Item :=
  (r.pulled.filter fun p => p.1 = c).map Prod.snd

end Trace

/-- The monitor, with the record of its run. -/
def tracedMachine (env : Env) : Machine (State × Trace) Label :=
  (machine env).recording Trace.empty Trace.note

theorem traced_init : (tracedMachine env).init (subscribedState env, Trace.empty) := ⟨rfl, rfl⟩

/-- The events of some items. -/
def pairsOfItems (env : Env) (items : List Item) : List (Height × Event) :=
  items.flatMap (Batches.pairsOf env.parsers env.chainId)

/-- The events of what the drivers have fed, connection after connection. -/
def fedPairs (env : Env) (s : State) (r : Trace) : List (Height × Event) :=
  (List.range s.next).flatMap fun c => pairsOfItems env (r.fed c)

/-- The events of what was taken off the connections: of each the beginning of what it was fed, as
    long as the list of its pulls. -/
def takenPairs (env : Env) (s : State) (r : Trace) : List (Height × Event) :=
  (List.range s.next).flatMap fun c =>
    pairsOfItems env ((r.fed c).take (r.pulledOf c).length)

/-- The events of what has been pulled, in the order of the pulls. -/
def pulledPairs (env : Env) (r : Trace) : List (Height × Event) :=
  pairsOfItems env (r.pulled.map Prod.snd)

/-! ## What is pulled is what was fed -/

/-- Each connection is pulled in the order in which it was fed, and the connections one after the
    other. -/
structure FeedInv (s : State) (r : Trace) : Prop where
  fed : ∀ c, r.pulledOf c ++ s.feeds c = r.fed c
  unborn : ∀ c, s.next ≤ c → r.fed c = []
  ordered : (r.pulled.map Prod.fst).Pairwise (· ≤ ·)
  bounded : ∀ p ∈ r.pulled, p.1 ≤ s.client

theorem feedInv_init (env : Env) : FeedInv (subscribedState env) Trace.empty where
  fed := fun _ => rfl
  unborn := fun _ _ => rfl
  ordered := List.Pairwise.nil
  bounded := List.forall_mem_nil _

/-- A step that neither feeds, pulls nor creates a client. -/
theorem FeedInv.same {s t : State} {r : Trace} (hi : FeedInv s r) (hfeeds : t.feeds = s.feeds)
    (hnext : t.next = s.next) (hclient : t.client = s.client) : FeedInv t r where
  fed := fun c => by rw [hfeeds]; exact hi.fed c
  unborn := fun c hc => hi.unborn c (hnext ▸ hc)
  ordered := hi.ordered
  bounded := fun p hp => by rw [hclient]; exact hi.bounded p hp

/-- A driver feeds its connection. -/
theorem FeedInv.yield {s : State} {r : Trace} (hi : FeedInv s r) {c : ConnId} (hc : c < s.next)
    (item : Item) :
    FeedInv { s with feeds := Function.update s.feeds c (s.feeds c ++ [item]) }
      (r.note s (.yield c item)) where
  fed := fun c' => by
    show r.pulledOf c' ++ Function.update s.feeds c (s.feeds c ++ [item]) c' =
      Function.update r.fed c (r.fed c ++ [item]) c'
    by_cases h : c' = c
    · subst h
      rw [Function.update_self, Function.update_self, ← List.append_assoc, hi.fed]
    · rw [Function.update_of_ne h, Function.update_of_ne h]
      exact hi.fed c'
  unborn := fun c' hc' => by
    have hne : c' ≠ c := fun h => Nat.not_le.mpr hc (h ▸ hc')
    show Function.update r.fed c (r.fed c ++ [item]) c' = []
    rw [Function.update_of_ne hne]
    exact hi.unborn c' hc'
  ordered := hi.ordered
  bounded := hi.bounded

/-- What a pull adds to the record. -/
theorem note_pull {s : State} {r : Trace} {c : ConnId} {item : Item} {rest : List Item}
    (hfeed : s.feeds c = item :: rest) :
    r.note s (.pull c) = { r with pulled := r.pulled ++ [(c, item)] } := by
  show Trace.mk r.fed (r.pulled ++ ((s.feeds c).take 1).map fun item => (c, item)) = _
  rw [hfeed]
  rfl

/-- The batch stream pulls off the current connection. -/
theorem FeedInv.pull {s : State} {r : Trace} (hi : FeedInv s r) {l : Loop} {c : ConnId}
    {item : Item} {rest : List Item} (hfeed : s.feeds c = item :: rest) (hc : c = s.client) :
    FeedInv (s.pull env l c item rest) (r.note s (.pull c)) := by
  rw [note_pull hfeed]
  refine ⟨fun c' => ?_, hi.unborn, ?_, fun p hp => ?_⟩
  · have hpulled : Trace.pulledOf { r with pulled := r.pulled ++ [(c, item)] } c' =
        r.pulledOf c' ++ if c = c' then [item] else [] := by
      by_cases h : c = c' <;> simp [Trace.pulledOf, List.filter_append, h]
    have hfed := hi.fed c'
    show _ ++ Function.update s.feeds c rest c' = r.fed c'
    rw [hpulled]
    by_cases h : c = c'
    · subst h
      rw [if_pos rfl, Function.update_self, ← hfed, hfeed]
      simp
    · rw [if_neg h, Function.update_of_ne (Ne.symm h), List.append_nil]
      exact hfed
  · show ((r.pulled ++ [(c, item)]).map Prod.fst).Pairwise (· ≤ ·)
    rw [List.map_append, List.pairwise_append]
    refine ⟨hi.ordered, List.pairwise_singleton .., fun a ha b hb => ?_⟩
    obtain ⟨p, hp, rfl⟩ := List.mem_map.mp ha
    obtain rfl : b = c := List.mem_singleton.mp hb
    rw [hc]
    exact hi.bounded p hp
  · rcases List.mem_append.mp hp with hp | hp
    · exact hi.bounded p hp
    · rw [List.mem_singleton.mp hp]
      exact Nat.le_of_eq hc

/-- The new connection has not been fed. -/
theorem FeedInv.swapClient {s : State} {r : Trace} (hi : FeedInv s r)
    (hnext : s.next = s.client + 1) (cause : Cause) (delays : List Nat) :
    FeedInv (s.swapClient cause delays) r where
  fed := fun c => by
    show r.pulledOf c ++ Function.update s.feeds s.next [] c = r.fed c
    by_cases h : c = s.next
    · subst h
      have hnone := hi.unborn s.next (Nat.le_refl _)
      have hpulled := hi.fed s.next
      rw [hnone] at hpulled
      rw [Function.update_self, hnone, (List.append_eq_nil_iff.mp hpulled).1]
      rfl
    · rw [Function.update_of_ne h]
      exact hi.fed c
  unborn := fun c hc => hi.unborn c (Nat.le_of_succ_le hc)
  ordered := hi.ordered
  bounded := fun p hp => by
    have hle : s.client ≤ s.next := by rw [hnext]; exact Nat.le_succ _
    exact Nat.le_trans (hi.bounded p hp) hle

/-- **Step lemma.** -/
theorem feedInv_step {s t : State} {r : Trace} {l : Label} (hconn : ConnInv env s)
    (hi : FeedInv s r) (h : Step env s l t) : FeedInv t (r.note s l) := by
  cases h with
  | @pull l c item rest hpc hfeed hc _ _ => exact hi.pull hfeed (hconn.current hpc hc)
  | yield hc _ => exact hi.yield hc _
  | newClient _ => exact hi.swapClient hconn.next _ _
  | @batch l g rest _ _ =>
    unfold State.processBatch
    split
    · exact hi.same rfl rfl rfl
    · exact hi.same (send_feeds ..) (send_next ..) (send_client ..)
  | streamError _ _ =>
    unfold State.streamError
    split
    · exact hi.same (send_feeds ..) (send_next ..) (send_client ..)
    · exact hi.same rfl rfl rfl
  | @noClient cause delays _ => cases delays <;> exact hi.same rfl rfl rfl
  | @joinFailed cause old delays _ _ => cases delays <;> exact hi.same rfl rfl rfl
  | @notSubscribed cause done q todo delays _ => cases delays <;> exact hi.same rfl rfl rfl
  | _ => exact hi.same rfl rfl rfl

/-! ## What is sent is what was pulled -/

theorem pairsOfItems_append (items items' : List Item) :
    pairsOfItems env (items ++ items') = pairsOfItems env items ++ pairsOfItems env items' :=
  List.flatMap_append

/-- The pairs of the next item come last. -/
theorem pulledPairs_pull {s : State} {r : Trace} {c : ConnId} {item : Item} {rest : List Item}
    (hfeed : s.feeds c = item :: rest) :
    pulledPairs env (r.note s (.pull c)) =
      pulledPairs env r ++ Batches.pairsOf env.parsers env.chainId item := by
  rw [note_pull hfeed]
  show pairsOfItems env ((r.pulled ++ [(c, item)]).map Prod.snd) = _
  rw [List.map_append, pairsOfItems_append]
  exact congrArg (pulledPairs env r ++ ·) (List.append_nil _)

/-- The pairs that have been sent, and then those that the batch stream holds. -/
def State.pairs (s : State) : List (Height × Event) := batchPairs s.txBatch ++ s.pc.held

/-- An `Err` carries no pairs. -/
theorem batchPairs_send_error (s : State) (conn : Option ConnId) (e : MonitorError) :
    batchPairs (s.send conn (.error e)).txBatch = batchPairs s.txBatch := by
  unfold State.send
  split
  · show batchPairs (s.txBatch ++ [⟨conn, .error e⟩]) = _
    rw [batchPairs_append]
    exact List.append_nil _
  · rfl

theorem batchPairs_send_batch (s : State) (conn : Option ConnId) (b : EventBatch) :
    batchPairs (s.send conn (.ok b)).txBatch =
      batchPairs s.txBatch ++ if s.rxBatch then b.pairs else [] := by
  unfold State.send
  split
  · show batchPairs (s.txBatch ++ [⟨conn, .ok b⟩]) = _
    rw [batchPairs_append]
    exact congrArg (batchPairs s.txBatch ++ ·) (List.append_nil _)
  · exact (List.append_nil _).symm

/-- What a loop holds: what is yielded next, and the rest. -/
theorem held_out {l : Loop} {g : List (Height × Event)}
    {rest : List (Except MonitorError (List (Height × Event)))}
    (hout : l.batches.out = .ok g :: rest) :
    l.batches.held = g ++ Batches.held { l.batches with out := rest } := by
  simp [Batches.held, hout, yielded]

/-- A batch is sent with the pairs that its group held, or to nobody. -/
theorem pairs_batch (env : Env) {s : State} (hd : DeliveryInv s) {l : Loop}
    {g : List (Height × Event)} {rest : List (Except MonitorError (List (Height × Event)))}
    (hpc : s.pc = .select l) (hout : l.batches.out = .ok g :: rest) :
    (s.processBatch env { l with batches := { l.batches with out := rest } } g).pairs =
        batchPairs s.txBatch ++ (if s.rxBatch then g else []) ++
          Batches.held { l.batches with out := rest } ∧
      (s.processBatch env { l with batches := { l.batches with out := rest } } g).rxBatch =
        s.rxBatch := by
  obtain ⟨b, rfl, hsends⟩ := processBatch_sends env hd hpc hout
    { l with batches := { l.batches with out := rest } }
  rw [hsends]
  refine ⟨?_, send_rxBatch ..⟩
  show batchPairs (s.send l.conn (.ok b)).txBatch ++ _ = _
  rw [batchPairs_send_batch]
  rfl

theorem State.pairs_loop {s : State} {l : Loop} (hpc : s.pc.loop = some l) :
    s.pairs = batchPairs s.txBatch ++ l.batches.held := by
  rw [State.pairs, Pc.held, hpc]

theorem State.pairs_no_loop {s : State} (hpc : s.pc.loop = none) :
    s.pairs = batchPairs s.txBatch := by
  rw [State.pairs, Pc.held, hpc]
  exact List.append_nil _

/-- An error of the stream sends no pairs and leaves the loop. -/
theorem pairs_streamError (env : Env) (s : State) (l : Loop) (e : MonitorError) :
    (s.streamError env l e).pairs = batchPairs s.txBatch ∧
      (s.streamError env l e).rxBatch = s.rxBatch := by
  unfold State.streamError
  split
  · refine ⟨?_, send_rxBatch ..⟩
    rw [State.pairs_no_loop rfl]
    exact batchPairs_send_error ..
  · exact ⟨State.pairs_no_loop rfl, rfl⟩

/-- The pairs of a state are pairs that were pulled, in their order. -/
def PairsInv (env : Env) (s : State) (r : Trace) : Prop := s.pairs.Sublist (pulledPairs env r)

/-- Nothing is sent and what was held is held or dropped. -/
theorem PairsInv.kept {s t : State} {r : Trace} (hi : PairsInv env s r)
    (hlog : t.txBatch = s.txBatch) (hheld : t.pc.held = s.pc.held ∨ t.pc.held = []) :
    PairsInv env t r := by
  refine List.Sublist.trans ?_ hi
  rw [State.pairs, State.pairs, hlog]
  rcases hheld with h | h
  · rw [h]
  · rw [h]
    exact (List.Sublist.refl _).append (List.nil_sublist _)

theorem retry_pairs (s : State) (cause : Cause) (delays : List Nat) :
    (s.retry cause delays).pairs = batchPairs s.txBatch := by
  rw [State.pairs_no_loop (retry_loop s cause delays)]
  cases delays <;> rfl

theorem PairsInv.sent {s : State} {r : Trace} (hi : PairsInv env s r) :
    (batchPairs s.txBatch).Sublist (pulledPairs env r) :=
  (List.sublist_append_left _ _).trans hi

/-- What was held is dropped. -/
theorem PairsInv.dropped {s t : State} {r : Trace} (hi : PairsInv env s r)
    (h : t.pairs = batchPairs s.txBatch) : PairsInv env t r := by
  rw [PairsInv, h]
  exact hi.sent

/-- The pairs of a running loop. -/
theorem PairsInv.loop {s : State} {r : Trace} (hi : PairsInv env s r) {l : Loop}
    (hpc : s.pc.loop = some l) :
    (batchPairs s.txBatch ++ l.batches.held).Sublist (pulledPairs env r) := by
  rw [← State.pairs_loop hpc]
  exact hi

/-- **Step lemma**: pairs are pulled, moved forward or dropped. -/
theorem pairs_sublist_step {s t : State} {r : Trace} {l : Label} (hd : DeliveryInv s)
    (hi : PairsInv env s r) (h : Step env s l t) : PairsInv env t (r.note s l) := by
  cases h with
  | enter hpc =>
    refine hi.dropped ?_
    show batchPairs s.txBatch ++ Batches.new.held = _
    exact List.append_nil _
  | idle hpc _ => exact hi.kept rfl (.inl (by rw [hpc]; rfl))
  | @pull l c item rest hpc hfeed _ _ _ =>
    unfold PairsInv
    rw [pulledPairs_pull hfeed]
    cases hnext : l.batches.feed env.parsers env.chainId item with
    | none =>
      rw [State.pairs_no_loop (by rw [pull_pc_none c rest hnext]; rfl)]
      exact hi.sent.trans (List.sublist_append_left _ _)
    | some b =>
      rw [State.pairs_loop (by rw [pull_pc_some c rest hnext]; rfl)]
      have hi' := hi.loop (l := l) (by rw [hpc]; rfl)
      show (batchPairs s.txBatch ++ b.held).Sublist _
      rw [Batches.feed_held hnext, ← List.append_assoc]
      exact hi'.append (List.Sublist.refl _)
  | @streamEnd l hpc _ _ _ =>
    refine hi.kept rfl (.inl ?_)
    rw [hpc]
    exact Batches.finish_held l.batches
  | @batch l g rest hpc hout =>
    have hi' := hi.loop (l := l) (by rw [hpc]; rfl)
    unfold PairsInv
    rw [(pairs_batch env hd hpc hout).1]
    rw [held_out hout, ← List.append_assoc] at hi'
    refine (List.Sublist.append (List.Sublist.append (List.Sublist.refl _) ?_)
      (List.Sublist.refl _)).trans hi'
    split
    · exact List.Sublist.refl _
    · exact List.nil_sublist _
  | streamError _ _ => exact hi.dropped (pairs_streamError ..).1
  | driverErr _ _ => exact hi.kept rfl (.inr rfl)
  | noClient _ => exact hi.dropped (retry_pairs s ..)
  | joinFailed _ _ => exact hi.dropped (retry_pairs (s.await _) ..)
  | notSubscribed _ => exact hi.dropped (retry_pairs s ..)
  | abort _ _ => exact hi.kept rfl (.inr rfl)
  | newClient _ => exact hi.kept rfl (.inr rfl)
  | joined _ _ => exact hi.kept rfl (.inr rfl)
  | subscribed _ => exact hi.kept rfl (.inr rfl)
  | resubscribed _ => exact hi.kept rfl (.inr rfl)
  | joinedLast _ _ => exact hi.kept rfl (.inr rfl)
  | yield _ _ => exact hi
  | driverFail _ _ => exact hi
  | driverExit _ _ => exact hi
  | sendCmd => exact hi
  | dropBatchReceiver => exact hi

/-! ## Nothing is dropped -/

/-- While the monitor runs and the subscribers listen, all that was pulled has been sent or is
    held. -/
def NothingLost (env : Env) (s : State) (r : Trace) : Prop :=
  s.rxBatch = true → s.pc.running = true → s.pairs = pulledPairs env r

/-- A step that sends nothing and keeps what is held. -/
theorem NothingLost.same {s t : State} {r : Trace} (hi : NothingLost env s r)
    (hrx : t.rxBatch = s.rxBatch) (hrunning : s.pc.running = true) (hpairs : t.pairs = s.pairs) :
    NothingLost env t r := fun hrx' _ => by
  rw [hpairs]
  exact hi (hrx ▸ hrx') hrunning

/-- A step outside the loops. -/
theorem NothingLost.outside {s t : State} {r : Trace} (hi : NothingLost env s r)
    (hrx : t.rxBatch = s.rxBatch) (hlog : t.txBatch = s.txBatch) (hrunning : s.pc.running = true)
    (hpc : s.pc.loop = none) (hpc' : t.pc.held = []) : NothingLost env t r := by
  refine hi.same hrx hrunning ?_
  rw [State.pairs_no_loop hpc, State.pairs, hlog, hpc']
  exact List.append_nil _

theorem NothingLost.retry {s u : State} {r : Trace} (hi : NothingLost env s r)
    (hu : u.txBatch = s.txBatch ∧ u.rxBatch = s.rxBatch) (hrunning : s.pc.running = true)
    (hpc : s.pc.loop = none) (cause : Cause) (delays : List Nat) :
    NothingLost env (u.retry cause delays) r := by
  have hrx : (u.retry cause delays).rxBatch = s.rxBatch := by cases delays <;> exact hu.2
  refine hi.same hrx hrunning ?_
  rw [retry_pairs, hu.1, State.pairs_no_loop hpc]

/-- **Step lemma** for the runs that meet the condition. -/
theorem nothingLost_step {s t : State} {r : Trace} {l : Label} (hd : DeliveryInv s)
    (hi : NothingLost env s r) (hc : Flushed s l) (h : Step env s l t) :
    NothingLost env t (r.note s l) := by
  cases h with
  | enter hpc => exact hi.outside rfl rfl (by rw [hpc]; rfl) (by rw [hpc]; rfl) rfl
  | idle hpc _ =>
    refine hi.same rfl (by rw [hpc]; rfl) ?_
    rw [State.pairs, State.pairs, hpc]
    rfl
  | abort _ _ => exact fun _ h => absurd h Bool.false_ne_true
  | @pull l c item rest hpc hfeed _ _ _ =>
    intro hrx hrunning
    rw [pulledPairs_pull hfeed, ← hi hrx (by rw [hpc]; rfl),
      State.pairs_loop (s := s) (l := l) (by rw [hpc]; rfl)]
    cases hnext : l.batches.feed env.parsers env.chainId item with
    | none =>
      rw [pull_pc_none c rest hnext] at hrunning
      nomatch hrunning
    | some b =>
      rw [State.pairs_loop (by rw [pull_pc_some c rest hnext]; rfl), List.append_assoc,
        ← Batches.feed_held hnext]
      rfl
  | @streamEnd l hpc _ _ _ =>
    refine hi.same rfl (by rw [hpc]; rfl) ?_
    rw [State.pairs_loop (s := s) (l := l) (by rw [hpc]; rfl), ← Batches.finish_held]
    rfl
  | @batch l g rest hpc hout =>
    obtain ⟨hpairs, hrx'⟩ := pairs_batch env hd hpc hout
    intro hrx _
    rw [hrx'] at hrx
    rw [hpairs, if_pos hrx, List.append_assoc, ← held_out hout,
      ← State.pairs_loop (s := s) (l := l) (by rw [hpc]; rfl)]
    exact hi hrx (by rw [hpc]; rfl)
  | @streamError l e rest hpc hout =>
    have hl := hd.loop l (by rw [hpc]; rfl)
    obtain ⟨hpairs, hrx'⟩ := pairs_streamError env s
      { l with batches := { l.batches with out := rest } } e
    refine hi.same hrx' (by rw [hpc]; rfl) ?_
    -- the error comes last in the stream, so nothing is held when it is yielded
    rw [hpairs, State.pairs_loop (s := s) (l := l) (by rw [hpc]; rfl),
      hl.errorLast.held_eq_nil hout, List.append_nil]
  | @driverErr l c e rest hpc _ =>
    intro hrx _
    have hheld : s.pc.held = [] := hc rfl hrx
    have hsame := hi hrx (by rw [hpc]; rfl)
    rw [State.pairs, hheld] at hsame
    exact hsame
  | newClient hpc => exact hi.outside rfl rfl (by rw [hpc]; rfl) (by rw [hpc]; rfl) rfl
  | noClient hpc => exact hi.retry ⟨rfl, rfl⟩ (by rw [hpc]; rfl) (by rw [hpc]; rfl) _ _
  | joined hpc _ => exact hi.outside rfl rfl (by rw [hpc]; rfl) (by rw [hpc]; rfl) rfl
  | @joinFailed cause old delays hpc _ =>
    exact hi.retry (u := s.await old) ⟨rfl, rfl⟩ (by rw [hpc]; rfl) (by rw [hpc]; rfl) _ _
  | subscribed hpc => exact hi.outside rfl rfl (by rw [hpc]; rfl) (by rw [hpc]; rfl) rfl
  | notSubscribed hpc => exact hi.retry ⟨rfl, rfl⟩ (by rw [hpc]; rfl) (by rw [hpc]; rfl) _ _
  | resubscribed hpc => exact hi.outside rfl rfl (by rw [hpc]; rfl) (by rw [hpc]; rfl) rfl
  | joinedLast _ _ => exact fun _ h => absurd h Bool.false_ne_true
  | yield _ _ => exact hi
  | driverFail _ _ => exact hi
  | driverExit _ _ => exact hi
  | sendCmd => exact hi
  | dropBatchReceiver => exact fun h => absurd h Bool.false_ne_true

/-! ## Only the end is dropped -/

/-- What was sent is the beginning of what was pulled. -/
def SentPrefix (env : Env) (s : State) (r : Trace) : Prop :=
  batchPairs s.txBatch <+: pulledPairs env r

/-- A step that sends no pairs. -/
theorem SentPrefix.same {s t : State} {r : Trace} (hi : SentPrefix env s r)
    (h : batchPairs t.txBatch = batchPairs s.txBatch) : SentPrefix env t r := by
  rw [SentPrefix, h]
  exact hi

/-- While nothing is lost, what was sent comes first. -/
theorem NothingLost.sentPrefix {s : State} {r : Trace} (hi : NothingLost env s r)
    (hrx : s.rxBatch = true) (hrunning : s.pc.running = true) : SentPrefix env s r :=
  ⟨s.pc.held, hi hrx hrunning⟩

/-- **Step lemma** for the runs that meet the condition: pairs are sent only while nothing is
    lost. -/
theorem sent_prefix_step {s t : State} {r : Trace} {l : Label} (hd : DeliveryInv s)
    (hlost : NothingLost env s r) (hi : SentPrefix env s r) (hc : Flushed s l)
    (h : Step env s l t) : SentPrefix env t (r.note s l) := by
  have hstep := h
  cases h with
  | @pull l c item rest hpc hfeed _ _ _ =>
    unfold SentPrefix
    rw [pulledPairs_pull hfeed]
    exact hi.trans (List.prefix_append _ _)
  | @batch l g rest hpc hout =>
    have hlost' := nothingLost_step hd hlost hc hstep
    obtain ⟨b, -, hsends⟩ := processBatch_sends env hd hpc hout
      { l with batches := { l.batches with out := rest } }
    rw [hsends] at hlost' ⊢
    cases hrx : s.rxBatch with
    | true => exact hlost'.sentPrefix ((send_rxBatch ..).trans hrx) rfl
    | false =>
      refine hi.same ((batchPairs_send_batch ..).trans ?_)
      rw [hrx]
      exact List.append_nil _
  | streamError _ _ =>
    unfold State.streamError
    split
    · exact hi.same (batchPairs_send_error ..)
    · exact hi
  | @noClient cause delays _ => cases delays <;> exact hi
  | @joinFailed cause old delays _ _ => cases delays <;> exact hi
  | @notSubscribed cause done q todo delays _ => cases delays <;> exact hi
  | _ => exact hi

/-! ## What kills the thread -/

/-- The extraction panics on this item. -/
def PanicsOn (env : Env) (item : Item) : Prop :=
  ∃ event, item = .ok event ∧ extractRpcEvent env.parsers env.chainId event = .panic

theorem feed_none_iff {b : Batches} {item : Item} :
    b.feed env.parsers env.chainId item = none ↔ PanicsOn env item := by
  rw [Batches.feed, Option.map_eq_none_iff]
  cases item with
  | error e =>
    constructor
    · exact fun h => nomatch h
    · rintro ⟨event, h, -⟩
      nomatch h
  | ok event =>
    show (collectEvents env.parsers env.chainId event).map _ = none ↔ _
    rw [Option.map_eq_none_iff, collectEvents]
    constructor
    · intro h
      split at h
      · nomatch h
      · nomatch h
      · rename_i hext
        exact ⟨event, rfl, hext⟩
    · rintro ⟨event', heq, hext⟩
      obtain rfl := Except.ok.inj heq
      rw [hext]

/-- The thread has panicked iff an item that was pulled makes the extraction panic. -/
def PanicInv (env : Env) (s : State) (r : Trace) : Prop :=
  s.pc = .panicked ↔ ∃ p ∈ r.pulled, PanicsOn env p.2

/-- A step that pulls nothing, and neither starts nor ends in a panic. -/
theorem PanicInv.same {s t : State} {r : Trace} (hi : PanicInv env s r) (hpc : s.pc ≠ .panicked)
    (hpc' : t.pc ≠ .panicked) : PanicInv env t r :=
  iff_of_false hpc' fun h => hpc (hi.mpr h)

theorem retry_pc_ne_panicked (s : State) (cause : Cause) (delays : List Nat) :
    (s.retry cause delays).pc ≠ .panicked := by
  cases delays <;> exact nofun

/-- **Step lemma**: only the extraction can panic, for the groups are not empty. -/
theorem panicInv_step {s t : State} {r : Trace} {l : Label} (hd : DeliveryInv s)
    (hi : PanicInv env s r) (h : Step env s l t) : PanicInv env t (r.note s l) := by
  cases h with
  | @pull l c item rest hpc hfeed _ _ _ =>
    have hnone : ¬ ∃ p ∈ r.pulled, PanicsOn env p.2 := fun h => by
      have hpanicked := hi.mpr h
      rw [hpc] at hpanicked
      nomatch hpanicked
    have hlast : (∃ p ∈ (r.note s (.pull c)).pulled, PanicsOn env p.2) ↔ PanicsOn env item := by
      rw [note_pull hfeed]
      constructor
      · rintro ⟨p, hp, hpanics⟩
        rcases List.mem_append.mp hp with hp | hp
        · exact absurd ⟨p, hp, hpanics⟩ hnone
        · rw [List.mem_singleton.mp hp] at hpanics
          exact hpanics
      · exact fun h => ⟨(c, item), List.mem_append_right _ List.mem_cons_self, h⟩
    rw [PanicInv, hlast]
    cases hnext : l.batches.feed env.parsers env.chainId item with
    | none => exact iff_of_true (pull_pc_none c rest hnext) (feed_none_iff.mp hnext)
    | some b =>
      refine iff_of_false (by rw [pull_pc_some c rest hnext]; exact nofun) fun h => ?_
      rw [feed_none_iff.mpr h] at hnext
      nomatch hnext
  | @batch l g rest hpc hout =>
    obtain ⟨b, -, hsends⟩ := processBatch_sends env hd hpc hout
      { l with batches := { l.batches with out := rest } }
    rw [hsends]
    exact hi.same (by rw [hpc]; exact nofun) nofun
  | streamError hpc _ =>
    unfold State.streamError
    split <;> exact hi.same (by rw [hpc]; exact nofun) nofun
  | noClient hpc => exact hi.same (by rw [hpc]; exact nofun) (retry_pc_ne_panicked s _ _)
  | @joinFailed cause old delays hpc _ =>
    exact hi.same (by rw [hpc]; exact nofun) (retry_pc_ne_panicked (s.await old) _ _)
  | notSubscribed hpc => exact hi.same (by rw [hpc]; exact nofun) (retry_pc_ne_panicked s _ _)
  | enter hpc => exact hi.same (by rw [hpc]; exact nofun) nofun
  | idle hpc _ => exact hi.same (by rw [hpc]; exact nofun) nofun
  | abort hpc _ => exact hi.same (by rw [hpc]; exact nofun) nofun
  | streamEnd hpc _ _ _ => exact hi.same (by rw [hpc]; exact nofun) nofun
  | driverErr hpc _ => exact hi.same (by rw [hpc]; exact nofun) nofun
  | newClient hpc => exact hi.same (by rw [hpc]; exact nofun) nofun
  | joined hpc _ => exact hi.same (by rw [hpc]; exact nofun) nofun
  | subscribed hpc => exact hi.same (by rw [hpc]; exact nofun) nofun
  | resubscribed hpc => exact hi.same (by rw [hpc]; exact nofun) nofun
  | joinedLast hpc _ => exact hi.same (by rw [hpc]; exact nofun) nofun
  | yield _ _ => exact hi
  | driverFail _ _ => exact hi
  | driverExit _ _ => exact hi
  | sendCmd => exact hi
  | dropBatchReceiver => exact hi

/-- A thread that has panicked stays where it is. -/
theorem panicked_step {s t : State} {l : Label} (hpc : s.pc = .panicked) (h : Step env s l t) :
    t.pc = .panicked := by
  cases h with
  | yield _ _ => exact hpc
  | driverFail _ _ => exact hpc
  | driverExit _ _ => exact hpc
  | sendCmd => exact hpc
  | dropBatchReceiver => exact hpc
  | enter hpc' => nomatch hpc.symm.trans hpc'
  | idle hpc' _ => nomatch hpc.symm.trans hpc'
  | abort hpc' _ => nomatch hpc.symm.trans hpc'
  | pull hpc' _ _ _ _ => nomatch hpc.symm.trans hpc'
  | streamEnd hpc' _ _ _ => nomatch hpc.symm.trans hpc'
  | batch hpc' _ => nomatch hpc.symm.trans hpc'
  | streamError hpc' _ => nomatch hpc.symm.trans hpc'
  | driverErr hpc' _ => nomatch hpc.symm.trans hpc'
  | newClient hpc' => nomatch hpc.symm.trans hpc'
  | noClient hpc' => nomatch hpc.symm.trans hpc'
  | joined hpc' _ => nomatch hpc.symm.trans hpc'
  | joinFailed hpc' _ => nomatch hpc.symm.trans hpc'
  | subscribed hpc' => nomatch hpc.symm.trans hpc'
  | notSubscribed hpc' => nomatch hpc.symm.trans hpc'
  | resubscribed hpc' => nomatch hpc.symm.trans hpc'
  | joinedLast hpc' _ => nomatch hpc.symm.trans hpc'

/-! ## Runs -/

/-- The run lemma for the panics. -/
theorem panicInv_reachable {p : State × Trace} (h : (tracedMachine env).Reachable p) :
    PanicInv env p.1 p.2 :=
  Machine.recording_invariant (C := fun _ _ => True) (J := DeliveryInv) (I := PanicInv env)
    (fun _ => deliveryInv_reachable)
    (fun s hs => by cases hs; exact iff_of_false nofun fun h => by simp [Trace.empty] at h)
    (fun _ _ _ _ hj hi _ ht => panicInv_step hj hi (step_cases ht)) h

/-- The run lemma for the feeds. -/
theorem feedInv_reachable {p : State × Trace} (h : (tracedMachine env).Reachable p) :
    FeedInv p.1 p.2 :=
  Machine.recording_invariant (C := fun _ _ => True) (J := ConnInv env) (I := FeedInv)
    (fun _ => connInv_reachable) (fun s hs => by cases hs; exact feedInv_init env)
    (fun _ _ _ _ hj hi _ ht => feedInv_step hj hi (step_cases ht)) h

/-- The run lemma for the pairs. -/
theorem pairsInv_reachable {p : State × Trace} (h : (tracedMachine env).Reachable p) :
    PairsInv env p.1 p.2 :=
  Machine.recording_invariant (C := fun _ _ => True) (J := DeliveryInv) (I := PairsInv env)
    (fun _ => deliveryInv_reachable) (fun s hs => by cases hs; exact List.Sublist.refl [])
    (fun _ _ _ _ hj hi _ ht => pairs_sublist_step hj hi (step_cases ht)) h

/-- The run lemma for the runs that meet the condition. -/
theorem nothingLost_reachable {p : State × Trace}
    (h : (tracedMachine env).ReachableIf (fun p l => Flushed p.1 l) p) :
    NothingLost env p.1 p.2 :=
  Machine.recording_invariant (C := Flushed) (J := DeliveryInv) (I := NothingLost env)
    (fun _ => deliveryInv_reachable) (fun s hs => by cases hs; exact fun _ _ => rfl)
    (fun _ _ _ _ hj hi hc ht => nothingLost_step hj hi hc (step_cases ht)) h

/-- The run lemma for what was sent in them. -/
theorem sentPrefix_reachable {p : State × Trace}
    (h : (tracedMachine env).ReachableIf (fun p l => Flushed p.1 l) p) :
    SentPrefix env p.1 p.2 := by
  have hboth : NothingLost env p.1 p.2 ∧ SentPrefix env p.1 p.2 :=
    Machine.recording_invariant (C := Flushed) (J := DeliveryInv)
      (I := fun s r => NothingLost env s r ∧ SentPrefix env s r)
      (fun _ => deliveryInv_reachable)
      (fun s hs => by cases hs; exact ⟨fun _ _ => rfl, List.prefix_refl []⟩)
      (fun _ _ _ _ hj hi hc ht => ⟨nothingLost_step hj hi.1 hc (step_cases ht),
        sent_prefix_step hj hi.1 hi.2 hc (step_cases ht)⟩) h
  exact hboth.2

/-- What was pulled is what was taken off the connections, one after the other. -/
theorem pulledPairs_eq {s : State} {r : Trace} (hi : FeedInv s r) (hnext : s.next = s.client + 1) :
    pulledPairs env r = takenPairs env s r := by
  have htaken : ∀ c, (r.fed c).take (r.pulledOf c).length = r.pulledOf c := fun c => by
    rw [← hi.fed c, List.take_left]
  have hbelow : ∀ p ∈ r.pulled, p.1 < s.next := fun p hp => by
    rw [hnext]
    exact Nat.lt_succ_of_le (hi.bounded p hp)
  have hparts := flatMap_filter_of_sorted hi.ordered hbelow
  have hitems := congrArg (List.map Prod.snd) hparts
  rw [pulledPairs, ← hitems, List.map_flatMap, pairsOfItems, List.flatMap_assoc, takenPairs]
  simp only [htaken]
  rfl

/-- What was pulled off a connection is the beginning of what was fed. -/
theorem pulledPairs_sublist_fedPairs {s : State} {r : Trace} (hi : FeedInv s r)
    (hnext : s.next = s.client + 1) : (pulledPairs env r).Sublist (fedPairs env s r) := by
  rw [pulledPairs_eq hi hnext, takenPairs, fedPairs]
  exact List.Sublist.flatMap_right _ fun c _ => (List.take_sublist _ _).flatMap _

/-- Every connection is the next one when its client is created. -/
theorem traced_next {p : State × Trace} (h : (tracedMachine env).Reachable p) :
    p.1.next = p.1.client + 1 :=
  (connInv_reachable (Machine.recording_maps.reachable_iff.mpr ⟨p, h, rfl⟩)).next

/-- What was sent was fed. -/
theorem sent_sublist_fedPairs {p : State × Trace} (h : (tracedMachine env).Reachable p) :
    (batchPairs p.1.txBatch).Sublist (fedPairs env p.1 p.2) :=
  (pairsInv_reachable h).sent.trans
    (pulledPairs_sublist_fedPairs (feedInv_reachable h) (traced_next h))

/-! ## Headline -/

/-- **Headline.**  In every run, whatever the drivers, the reconnects and the subscribers do: the
    events sent on `tx_batch` are, in their order and each once, events that were fed, connection
    after connection, each in the order of its merged stream.  When every driver error is picked
    while the batch stream holds nothing or nobody listens, the events sent are the beginning of
    those taken off the connections, so only their end is ever dropped; and as long as the monitor
    runs and the subscribers listen, the events sent and then those held are all of them. -/
theorem events_delivered_in_order :
    (∀ p, (tracedMachine env).Reachable p →
      (batchPairs p.1.txBatch).Sublist (fedPairs env p.1 p.2)) ∧
    ∀ p, (tracedMachine env).ReachableIf (fun p l => Flushed p.1 l) p →
      batchPairs p.1.txBatch <+: takenPairs env p.1 p.2 ∧
      (p.1.rxBatch = true → p.1.pc.running = true →
        batchPairs p.1.txBatch ++ p.1.pc.held = takenPairs env p.1 p.2) := by
  refine ⟨fun p h => sent_sublist_fedPairs h, fun p h => ?_⟩
  rw [← pulledPairs_eq (feedInv_reachable h.reachable) (traced_next h.reachable)]
  exact ⟨sentPrefix_reachable h, nothingLost_reachable h⟩

/-- A block is handed on, and only then the driver error is picked; the next connection is fed two
    blocks, of which one is pulled. -/
def tracedRun : List Label :=
  flushedRun ++
    [.newClient true, .joined true, .subscribed true, .subscribed true, .resubscribed, .enter,
      .checkCmd, .yield 1 (blockItem 2), .yield 1 (blockItem 3), .pull 1]

theorem events_delivered_in_order_two :
    (∃ p, (tracedMachine demoEnv).exec (subscribedState demoEnv, Trace.empty) tracedRun = some p ∧
      (batchPairs p.1.txBatch).Sublist (fedPairs demoEnv p.1 p.2)) ∧
    ∃ p, (tracedMachine demoEnv).execIf (fun p l => Flushed p.1 l)
        (subscribedState demoEnv, Trace.empty) tracedRun = some p ∧
      batchPairs p.1.txBatch <+: takenPairs demoEnv p.1 p.2 ∧
      batchPairs p.1.txBatch ++ p.1.pc.held = takenPairs demoEnv p.1 p.2 := by
  constructor
  · obtain ⟨p, hp⟩ : ∃ p, (tracedMachine demoEnv).exec (subscribedState demoEnv, Trace.empty)
        tracedRun = some p := ⟨_, rfl⟩
    have hreach := Machine.exec_reachable (.init traced_init) hp
    exact ⟨p, hp, events_delivered_in_order.1 p hreach⟩
  · obtain ⟨p, hp, hrx, hrunning⟩ :
        ∃ p, (tracedMachine demoEnv).execIf (fun p l => Flushed p.1 l)
            (subscribedState demoEnv, Trace.empty) tracedRun = some p ∧
          p.1.rxBatch = true ∧ p.1.pc.running = true := ⟨_, rfl, rfl, rfl⟩
    have hreach := Machine.execIf_reachableIf (.init traced_init) hp
    obtain ⟨hfront, hall⟩ := events_delivered_in_order.2 p hreach
    exact ⟨p, hp, hfront, hall hrx hrunning⟩

end OffChainWorker.Monitor
