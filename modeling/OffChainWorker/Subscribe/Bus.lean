/-
  The event bus: `EventBus::subscribe` and `EventBus::broadcast` (`src/subscribe/bus.rs`).

  `broadcast` first sends a copy of the value through every sender, noting the INDICES of the
  senders whose receiver is gone, and then removes those indices one after the other from the same
  deque.  Each removal shifts what stands behind it, so the second noted index no longer points at
  the sender it was noted for: with two dead subscribers or more, `removeAll` throws a later sender
  out in place of a dead one (`removeAll_keeps_dead`).  With at most one dead subscriber it removes
  exactly that one (`removeAll_eq_filter`).

  `Delivers` is what the bus is for, stated over a whole sequence of operations; the headline
  `delivers_iff` says for which sequences the code achieves it.
-/
import Mathlib.Data.List.Induction
import Mathlib.Logic.Function.Basic
import OffChainWorker.Lib.Channel

namespace OffChainWorker.Bus

open Proc

variable {T : Type}

/-! ## The bus and the channels it hands out -/

/-- `EventBus`: the senders, each named by the channel it belongs to. -/
structure EventBus where
  txs : List Nat
deriving Repr, DecidableEq

/-- The bus with the channels that `subscribe` has created so far, numbered in that order. -/
structure World (T : Type) where
  bus : EventBus
  chans : Nat → Chan T
  next : Nat

/-- `EventBus::new`. -/
def World.new : World T := ⟨⟨[]⟩, fun _ => Chan.unbounded, 0⟩

/-- `EventBus::subscribe`; the returned receiver is the one of channel `w.next`. -/
def World.subscribe (w : World T) : World T where
  bus := ⟨w.bus.txs ++ [w.next]⟩
  chans := Function.update w.chans w.next Chan.unbounded
  next := w.next + 1

/-- The first loop of `broadcast`, from index `idx` on: send to every sender and collect the
    indices of those that could not be sent to. -/
def sendAll (value : T) : List Nat → Nat → (Nat → Chan T) → (Nat → Chan T) × List Nat
  | [], _, chans => (chans, [])
  | tx :: txs, idx, chans =>
    match (chans tx).send value with
    | .sent c => sendAll value txs (idx + 1) (Function.update chans tx c)
    | _ =>
      let r := sendAll value txs (idx + 1) chans
      (r.1, idx :: r.2)

/-- The second loop of `broadcast`: `self.txs.remove(idx)` for each noted index.  An index out of
    range removes nothing, as `VecDeque::remove` has it. -/
def removeAll (disconnected : List Nat) (txs : List Nat) : List Nat :=
  disconnected.foldl (fun txs idx => txs.eraseIdx idx) txs

/-- `EventBus::broadcast`. -/
def World.broadcast (w : World T) (value : T) : World T :=
  let r := sendAll value w.bus.txs 0 w.chans
  { w with bus := ⟨removeAll r.2 w.bus.txs⟩, chans := r.1 }

/-- A subscriber drops its receiver. -/
def World.dropReceiver (w : World T) (id : Nat) : World T :=
  { w with chans := Function.update w.chans id (w.chans id).dropRx }

/-- The operations on a bus and on the receivers it handed out. -/
inductive Op (T : Type) where
  | subscribe
  | broadcast (value : T)
  | dropReceiver (id : Nat)
deriving Repr, DecidableEq

def World.apply (w : World T) : Op T → World T
  | .subscribe => w.subscribe
  | .broadcast value => w.broadcast value
  | .dropReceiver id => w.dropReceiver id

/-- The world after a sequence of operations on a new bus. -/
def run (ops : List (Op T)) : World T := ops.foldl World.apply World.new

theorem run_snoc (ops : List (Op T)) (op : Op T) : run (ops ++ [op]) = (run ops).apply op := by
  simp [run, List.foldl_append]

/-! ## What the bus is for -/

/-- The values a sequence of operations broadcasts, in order. -/
def broadcasts : List (Op T) → List T
  | [] => []
  | .broadcast value :: ops => value :: broadcasts ops
  | _ :: ops => broadcasts ops

/-- The values broadcast after the subscription number `id` (counted from 0) of the sequence. -/
def broadcastsSince : List (Op T) → Nat → List T
  | [], _ => []
  | .subscribe :: ops, 0 => broadcasts ops
  | .subscribe :: ops, id + 1 => broadcastsSince ops id
  | _ :: ops, id => broadcastsSince ops id

/-- The subscribers whose receiver is still connected, in subscription order. -/
def World.connected (w : World T) : List Nat :=
  (List.range w.next).filter fun id => (w.chans id).rx

/-- The senders on the bus whose receiver is gone. -/
def World.dead (w : World T) : List Nat := w.bus.txs.filter fun id => !(w.chans id).rx

/-- Every receiver that is still alive has been sent exactly the values broadcast since its own
    subscription, each once and in order. -/
def DeliveredAt (ops : List (Op T)) : Prop :=
  ∀ id < (run ops).next, ((run ops).chans id).rx = true →
    ((run ops).chans id).queue = broadcastsSince ops id

/-- Delivery at every moment of the sequence, and after every broadcast exactly the senders of the
    connected receivers remain, in subscription order. -/
def Delivers (ops : List (Op T)) : Prop :=
  (∀ pre, pre <+: ops → DeliveredAt pre) ∧
  ∀ pre value, pre ++ [.broadcast value] <+: ops →
    (run (pre ++ [.broadcast value])).bus.txs = (run (pre ++ [.broadcast value])).connected

/-- At every broadcast of the sequence, at most one sender of the bus has lost its receiver. -/
def AtMostOneDead (ops : List (Op T)) : Prop :=
  ∀ pre value, pre ++ [.broadcast value] <+: ops → (run pre).dead.length ≤ 1

/-! ## The specification under one more operation -/

theorem broadcasts_snoc (ops : List (Op T)) (op : Op T) :
    broadcasts (ops ++ [op]) = broadcasts ops ++ broadcasts [op] := by
  induction ops with
  | nil => rfl
  | cons o ops ih => cases o <;> simp [broadcasts, ih]

/-- The number of subscriptions in a sequence. -/
def subscriptions : List (Op T) → Nat
  | [] => 0
  | .subscribe :: ops => subscriptions ops + 1
  | _ :: ops => subscriptions ops

theorem subscriptions_snoc (ops : List (Op T)) (op : Op T) :
    subscriptions (ops ++ [op]) = subscriptions ops + subscriptions [op] := by
  induction ops with
  | nil => simp [subscriptions]
  | cons o ops ih => cases o <;> simp [subscriptions, ih]; omega

theorem broadcastsSince_snoc (ops : List (Op T)) (op : Op T) :
    ∀ id < subscriptions ops,
      broadcastsSince (ops ++ [op]) id = broadcastsSince ops id ++ broadcasts [op] := by
  induction ops with
  | nil => intro id hid; exact absurd hid (Nat.not_lt_zero id)
  | cons o ops ih =>
    intro id hid
    cases o with
    | subscribe =>
      cases id with
      | zero => exact broadcasts_snoc ops op
      | succ id => exact ih id (Nat.lt_of_succ_lt_succ hid)
    | broadcast value => exact ih id hid
    | dropReceiver i => exact ih id hid

/-- A subscriber that subscribes last has been owed nothing yet. -/
theorem broadcastsSince_subscribe (ops : List (Op T)) :
    broadcastsSince (ops ++ [.subscribe]) (subscriptions ops) = [] := by
  induction ops with
  | nil => rfl
  | cons o ops ih => cases o <;> exact ih

theorem run_next (ops : List (Op T)) : (run ops).next = subscriptions ops := by
  induction ops using List.reverseRecOn with
  | nil => rfl
  | append_singleton ops op ih =>
    rw [run_snoc, subscriptions_snoc, ← ih]
    cases op <;> rfl

/-! ## The sending loop -/

theorem update_push_rx (chans : Nat → Chan T) (tx : Nat) (value : T) (id : Nat) :
    (Function.update chans tx ((chans tx).push value) id).rx = (chans id).rx := by
  by_cases hid : id = tx
  · subst hid; simp
  · simp [hid]

theorem update_push_cap (chans : Nat → Chan T) (tx : Nat) (value : T) (id : Nat) :
    (Function.update chans tx ((chans tx).push value) id).cap = (chans id).cap := by
  by_cases hid : id = tx
  · subst hid; simp
  · simp [hid]

/-- Sending changes neither who is connected nor a capacity. -/
theorem sendAll_frame (value : T) (txs : List Nat) (idx : Nat) (chans : Nat → Chan T) (id : Nat) :
    ((sendAll value txs idx chans).1 id).rx = (chans id).rx ∧
    ((sendAll value txs idx chans).1 id).cap = (chans id).cap := by
  induction txs generalizing idx chans with
  | nil => exact ⟨rfl, rfl⟩
  | cons tx txs ih =>
    rw [sendAll]
    split
    · rename_i c hc
      rw [Chan.eq_push_of_send hc]
      obtain ⟨hrx, hcap⟩ := ih (idx + 1) (Function.update chans tx ((chans tx).push value))
      exact ⟨hrx.trans (update_push_rx chans tx value id),
        hcap.trans (update_push_cap chans tx value id)⟩
    · exact ih (idx + 1) chans

/-- The indices of the dead senders, counted from `idx`. -/
def deadIdxs (rx : Nat → Bool) : List Nat → Nat → List Nat
  | [], _ => []
  | tx :: txs, idx => if rx tx then deadIdxs rx txs (idx + 1) else idx :: deadIdxs rx txs (idx + 1)

/-- The loop notes exactly the senders without a receiver. -/
theorem sendAll_disconnected (value : T) (txs : List Nat) (idx : Nat) (chans : Nat → Chan T)
    (hcap : ∀ id, (chans id).cap = none) :
    (sendAll value txs idx chans).2 = deadIdxs (fun id => (chans id).rx) txs idx := by
  induction txs generalizing idx chans with
  | nil => rfl
  | cons tx txs ih =>
    by_cases hr : (chans tx).rx = true
    · rw [sendAll, Chan.send_unbounded hr (hcap tx), deadIdxs, if_pos hr]
      show (sendAll value txs (idx + 1) (Function.update chans tx ((chans tx).push value))).2 = _
      rw [ih (idx + 1) _ fun id => (update_push_cap chans tx value id).trans (hcap id)]
      exact congrArg (deadIdxs · txs (idx + 1)) (funext (update_push_rx chans tx value))
    · rw [sendAll, Chan.send_dead (by simpa using hr), deadIdxs, if_neg hr]
      show idx :: (sendAll value txs (idx + 1) chans).2 = _
      rw [ih (idx + 1) chans hcap]

/-- The channel of every connected sender gets the value once, other channels are unchanged. -/
theorem sendAll_queue (value : T) (txs : List Nat) (hnd : txs.Nodup) (idx : Nat)
    (chans : Nat → Chan T) (hcap : ∀ id, (chans id).cap = none) (id : Nat)
    (hr : (chans id).rx = true) :
    ((sendAll value txs idx chans).1 id).queue
      = (chans id).queue ++ if id ∈ txs then [value] else [] := by
  induction txs generalizing idx chans with
  | nil => simp [sendAll]
  | cons tx txs ih =>
    obtain ⟨hnotin, hnd'⟩ := List.nodup_cons.mp hnd
    by_cases htx : (chans tx).rx = true
    · rw [sendAll, Chan.send_unbounded htx (hcap tx)]
      show ((sendAll value txs (idx + 1)
        (Function.update chans tx ((chans tx).push value))).1 id).queue = _
      rw [ih hnd' (idx + 1) _ (fun j => (update_push_cap chans tx value j).trans (hcap j))
        ((update_push_rx chans tx value id).trans hr)]
      -- the channel of `tx` gets the value here and, as `tx` comes only once, never again
      by_cases hid : id = tx
      · subst hid; simp [hnotin]
      · simp [hid]
    · have hid : id ≠ tx := by
        rintro rfl
        exact htx hr
      rw [sendAll, Chan.send_dead (by simpa using htx)]
      show ((sendAll value txs (idx + 1) chans).1 id).queue = _
      rw [ih hnd' (idx + 1) chans hcap hr]
      simp [hid]

/-! ## The removing loop -/

/-- Removals behind position `p` do not touch position `p`. -/
theorem removeAll_getElem? (p : Nat) (idxs : List Nat) (hidx : ∀ i ∈ idxs, p < i)
    (txs : List Nat) : (removeAll idxs txs)[p]? = txs[p]? := by
  induction idxs generalizing txs with
  | nil => rfl
  | cons i idxs ih =>
    have hi : p < i := hidx i List.mem_cons_self
    show (removeAll idxs (txs.eraseIdx i))[p]? = txs[p]?
    rw [ih (fun j hj => hidx j (List.mem_cons_of_mem i hj))]
    exact List.getElem?_eraseIdx_of_lt hi

theorem deadIdxs_of_connected (rx : Nat → Bool) (txs : List Nat) (h : ∀ tx ∈ txs, rx tx = true)
    (rest : List Nat) (idx : Nat) :
    deadIdxs rx (txs ++ rest) idx = deadIdxs rx rest (idx + txs.length) := by
  induction txs generalizing idx with
  | nil => rfl
  | cons tx txs ih =>
    rw [List.cons_append, deadIdxs, if_pos (h tx List.mem_cons_self),
      ih (fun t ht => h t (List.mem_cons_of_mem tx ht)), List.length_cons]
    congr 1
    omega

theorem le_of_mem_deadIdxs (rx : Nat → Bool) (txs : List Nat) (idx : Nat) :
    ∀ i ∈ deadIdxs rx txs idx, idx ≤ i := by
  induction txs generalizing idx with
  | nil => intro i hi; nomatch hi
  | cons tx txs ih =>
    intro i hi
    rw [deadIdxs] at hi
    split at hi
    · exact Nat.le_of_succ_le (ih (idx + 1) i hi)
    · rcases List.mem_cons.mp hi with rfl | hi
      · exact Nat.le_refl i
      · exact Nat.le_of_succ_le (ih (idx + 1) i hi)

/-- The senders of a list with a dead one, split at the first dead one. -/
theorem exists_first_dead (rx : Nat → Bool) (txs : List Nat)
    (h : 0 < (txs.filter fun id => !rx id).length) :
    ∃ us d vs, txs = us ++ d :: vs ∧ (∀ u ∈ us, rx u = true) ∧ rx d = false := by
  induction txs with
  | nil => exact absurd h (Nat.lt_irrefl 0)
  | cons tx txs ih =>
    by_cases hr : rx tx = true
    · obtain ⟨us, d, vs, htxs, hus, hd⟩ := ih (by simpa [hr] using h)
      refine ⟨tx :: us, d, vs, by rw [htxs]; rfl, ?_, hd⟩
      intro u hu
      rcases List.mem_cons.mp hu with rfl | hu
      · exact hr
      · exact hus u hu
    · exact ⟨[], tx, txs, rfl, fun u hu => absurd hu List.not_mem_nil, by simpa using hr⟩

/-- With at most one dead sender the removing loop leaves exactly the connected ones. -/
theorem removeAll_eq_filter (rx : Nat → Bool) (txs : List Nat)
    (h : (txs.filter fun id => !rx id).length ≤ 1) :
    removeAll (deadIdxs rx txs 0) txs = txs.filter rx := by
  rcases Nat.eq_zero_or_pos (txs.filter fun id => !rx id).length with h0 | hpos
  · have hall : ∀ tx ∈ txs, rx tx = true := by
      intro tx htx
      have := List.filter_eq_nil_iff.mp (List.length_eq_zero_iff.mp h0) tx htx
      simpa using this
    have hnil := deadIdxs_of_connected rx txs hall [] 0
    rw [List.append_nil] at hnil
    rw [hnil, List.filter_eq_self.mpr hall]
    rfl
  · obtain ⟨us, d, vs, rfl, hus, hd⟩ := exists_first_dead rx txs hpos
    -- another dead sender behind `d` would make two
    have hvs : ∀ v ∈ vs, rx v = true := by
      intro v hv
      by_contra hne
      have hmem : v ∈ vs.filter fun id => !rx id := List.mem_filter.mpr ⟨hv, by simpa using hne⟩
      have := List.length_pos_of_mem hmem
      simp only [List.filter_append, List.length_append, List.filter_cons, hd, Bool.not_false,
        if_true, List.length_cons] at h
      omega
    have hidx : deadIdxs rx (us ++ d :: vs) 0 = [us.length] := by
      have htail := deadIdxs_of_connected rx vs hvs [] (us.length + 1)
      rw [List.append_nil] at htail
      rw [deadIdxs_of_connected rx us hus, Nat.zero_add, deadIdxs, hd, htail]
      rfl
    rw [hidx, List.filter_append, List.filter_cons, hd, List.filter_eq_self.mpr hus,
      List.filter_eq_self.mpr hvs]
    show (us ++ d :: vs).eraseIdx us.length = us ++ vs
    rw [List.eraseIdx_append_of_length_le (Nat.le_refl _), Nat.sub_self]
    rfl

/-- **The shift.**  With two dead senders or more, the removing loop leaves a dead one behind: once
    the first is removed, the second stands one place before the index noted for it, and every
    later removal happens behind it. -/
theorem removeAll_keeps_dead (rx : Nat → Bool) (txs : List Nat)
    (h : 2 ≤ (txs.filter fun id => !rx id).length) :
    ∃ d ∈ removeAll (deadIdxs rx txs 0) txs, rx d = false := by
  obtain ⟨us, d, vs, rfl, hus, hd⟩ := exists_first_dead rx txs (by omega)
  have hvs : 0 < (vs.filter fun id => !rx id).length := by
    simp only [List.filter_append, List.length_append, List.filter_cons, hd, Bool.not_false,
      if_true, List.length_cons] at h
    have husnil : us.filter (fun id => !rx id) = [] := by
      rw [List.filter_eq_nil_iff]
      intro u hu
      simp [hus u hu]
    rw [husnil] at h
    simp only [List.length_nil] at h
    omega
  obtain ⟨us', d', vs', rfl, hus', hd'⟩ := exists_first_dead rx vs hvs
  -- `d'` is the second dead sender: its index was noted before the first removal
  refine ⟨d', ?_, hd'⟩
  have hidx : deadIdxs rx (us ++ d :: (us' ++ d' :: vs')) 0
      = us.length :: deadIdxs rx (d' :: vs') (us.length + 1 + us'.length) := by
    rw [deadIdxs_of_connected rx us hus, Nat.zero_add, deadIdxs, hd,
      deadIdxs_of_connected rx us' hus']
    rfl
  have herase : (us ++ d :: (us' ++ d' :: vs')).eraseIdx us.length = us ++ (us' ++ d' :: vs') := by
    rw [List.eraseIdx_append_of_length_le (Nat.le_refl _), Nat.sub_self]
    rfl
  have hget : (us ++ (us' ++ d' :: vs'))[us.length + us'.length]? = some d' := by
    rw [List.getElem?_append_right (by omega), List.getElem?_append_right (by omega)]
    simp
  -- the indices still to be removed lie behind the place `d'` has moved to
  have hkeep := removeAll_getElem? (us.length + us'.length)
    (deadIdxs rx (d' :: vs') (us.length + 1 + us'.length))
    (fun i hi => by have := le_of_mem_deadIdxs rx _ _ i hi; omega)
    (us ++ (us' ++ d' :: vs'))
  rw [hidx]
  show d' ∈ removeAll (deadIdxs rx (d' :: vs') (us.length + 1 + us'.length))
    ((us ++ d :: (us' ++ d' :: vs')).eraseIdx us.length)
  rw [herase]
  exact List.mem_of_getElem? (hkeep.trans hget)

/-! ## The invariant of a run -/

/-- Every channel of the bus is unbounded, whatever happens. -/
theorem run_cap (ops : List (Op T)) (id : Nat) : ((run ops).chans id).cap = none := by
  induction ops using List.reverseRecOn with
  | nil => rfl
  | append_singleton ops op ih =>
    rw [run_snoc]
    cases op with
    | subscribe =>
      show (Function.update (run ops).chans (run ops).next Chan.unbounded id).cap = none
      by_cases hid : id = (run ops).next
      · subst hid; simp [Chan.unbounded]
      · simpa [hid] using ih
    | broadcast value => exact (sendAll_frame value _ 0 (run ops).chans id).2.trans ih
    | dropReceiver i =>
      show (Function.update (run ops).chans i ((run ops).chans i).dropRx id).cap = none
      by_cases hid : id = i
      · subst hid; simpa using ih
      · simpa [hid] using ih

/-- The invariant: each sender stands on the bus once, the senders whose receiver is alive are the
    connected subscribers in subscription order, and these have been sent what they are owed. -/
structure Tracks (ops : List (Op T)) : Prop where
  nodup : (run ops).bus.txs.Nodup
  lt_next : ∀ id ∈ (run ops).bus.txs, id < (run ops).next
  senders : ((run ops).bus.txs.filter fun id => ((run ops).chans id).rx) = (run ops).connected
  delivered : DeliveredAt ops

theorem tracks_nil : Tracks ([] : List (Op T)) where
  nodup := List.nodup_nil
  lt_next := fun _ hid => absurd hid List.not_mem_nil
  senders := rfl
  delivered := fun id hid => absurd hid (Nat.not_lt_zero id)

theorem Tracks.mem_txs {ops : List (Op T)} (h : Tracks ops) {id : Nat}
    (hid : id < (run ops).next) (hr : ((run ops).chans id).rx = true) :
    id ∈ (run ops).bus.txs := by
  have hmem : id ∈ (run ops).connected := List.mem_filter.mpr ⟨List.mem_range.mpr hid, hr⟩
  rw [← h.senders] at hmem
  exact (List.mem_filter.mp hmem).1

theorem Tracks.subscribe {ops : List (Op T)} (h : Tracks ops) : Tracks (ops ++ [.subscribe]) := by
  have hnotin : (run ops).next ∉ (run ops).bus.txs := by
    intro hin
    exact Nat.lt_irrefl _ (h.lt_next _ hin)
  have hrx : ∀ id, id ≠ (run ops).next →
      ((run ops).subscribe.chans id).rx = ((run ops).chans id).rx := by
    intro id hid
    simp [World.subscribe, hid]
  have hnew : ((run ops).subscribe.chans (run ops).next).rx = true := by
    simp [World.subscribe, Chan.unbounded]
  constructor
  · rw [run_snoc]
    exact List.nodup_append.mpr ⟨h.nodup, by simp,
      fun a ha b hb heq => hnotin (by rw [← List.mem_singleton.mp hb, ← heq]; exact ha)⟩
  · rw [run_snoc]
    intro id hid
    rcases List.mem_append.mp hid with hin | hin
    · exact Nat.lt_succ_of_lt (h.lt_next id hin)
    · rw [List.mem_singleton.mp hin]
      exact Nat.lt_succ_self _
  · rw [run_snoc]
    show ((run ops).bus.txs ++ [(run ops).next]).filter
        (fun id => ((run ops).subscribe.chans id).rx)
      = (List.range ((run ops).next + 1)).filter fun id => ((run ops).subscribe.chans id).rx
    rw [List.range_succ, List.filter_append, List.filter_append]
    congr 1
    rw [List.filter_congr fun id hid => hrx id fun heq => hnotin (heq ▸ hid), h.senders]
    refine (List.filter_congr fun id hid => ?_).symm
    exact hrx id fun heq => absurd (List.mem_range.mp hid) (by rw [heq]; exact Nat.lt_irrefl _)
  · intro id hid hr
    rw [run_snoc] at hid hr ⊢
    by_cases heq : id = (run ops).next
    · subst heq
      rw [run_next, broadcastsSince_subscribe]
      simp [World.apply, World.subscribe, Chan.unbounded, run_next]
    · have hlt : id < (run ops).next := by
        have : id < (run ops).next + 1 := hid
        omega
      rw [broadcastsSince_snoc ops .subscribe id (by rw [← run_next]; exact hlt)]
      have := h.delivered id hlt ((hrx id heq).symm.trans hr)
      simpa [World.apply, World.subscribe, heq, broadcasts] using this

theorem Tracks.dropReceiver {ops : List (Op T)} (h : Tracks ops) (i : Nat) :
    Tracks (ops ++ [.dropReceiver i]) := by
  have hrx : ∀ id, ((run ops).dropReceiver i |>.chans id).rx
      = (((run ops).chans id).rx && !(id == i)) := by
    intro id
    by_cases hid : id = i
    · subst hid; simp [World.dropReceiver]
    · simp [World.dropReceiver, hid]
  constructor
  · rw [run_snoc]; exact h.nodup
  · rw [run_snoc]; exact h.lt_next
  · rw [run_snoc]
    show (run ops).bus.txs.filter (fun id => ((run ops).dropReceiver i |>.chans id).rx)
      = (List.range (run ops).next).filter fun id => ((run ops).dropReceiver i |>.chans id).rx
    -- filtering by the new receivers is filtering by the old ones and then for `i`
    have hsplit : ∀ l : List Nat, l.filter (fun id => ((run ops).dropReceiver i |>.chans id).rx)
        = (l.filter fun id => ((run ops).chans id).rx).filter fun id => !(id == i) := by
      intro l
      rw [List.filter_filter]
      exact List.filter_congr fun id _ => (hrx id).trans (Bool.and_comm _ _)
    rw [hsplit, hsplit, h.senders]
    rfl
  · intro id hid hr
    rw [run_snoc] at hid hr ⊢
    have hlive : ((run ops).chans id).rx = true ∧ (id == i) = false := by
      have := (hrx id).symm.trans hr
      simpa using this
    have hne : id ≠ i := by simpa using hlive.2
    rw [broadcastsSince_snoc ops (.dropReceiver i) id (by rw [← run_next]; exact hid)]
    simpa [World.apply, World.dropReceiver, hne, broadcasts] using h.delivered id hid hlive.1

theorem broadcast_txs (ops : List (Op T)) (value : T) :
    ((run ops).broadcast value).bus.txs
      = removeAll (deadIdxs (fun id => ((run ops).chans id).rx) (run ops).bus.txs 0)
          (run ops).bus.txs := by
  show removeAll (sendAll value (run ops).bus.txs 0 (run ops).chans).2 (run ops).bus.txs = _
  rw [sendAll_disconnected value _ 0 _ (run_cap ops)]

theorem Tracks.broadcast {ops : List (Op T)} (h : Tracks ops)
    (hdead : (run ops).dead.length ≤ 1) (value : T) : Tracks (ops ++ [.broadcast value]) := by
  have hrx : ∀ id, ((run ops).broadcast value |>.chans id).rx = ((run ops).chans id).rx :=
    fun id => (sendAll_frame value _ 0 (run ops).chans id).1
  have htxs : ((run ops).broadcast value).bus.txs
      = (run ops).bus.txs.filter fun id => ((run ops).chans id).rx := by
    rw [broadcast_txs]
    exact removeAll_eq_filter _ _ hdead
  constructor
  · rw [run_snoc]
    show ((run ops).broadcast value).bus.txs.Nodup
    rw [htxs]
    exact h.nodup.filter _
  · rw [run_snoc]
    intro id hid
    have hid' : id ∈ ((run ops).broadcast value).bus.txs := hid
    rw [htxs] at hid'
    exact h.lt_next id (List.mem_filter.mp hid').1
  · rw [run_snoc]
    show ((run ops).broadcast value).bus.txs.filter
        (fun id => ((run ops).broadcast value |>.chans id).rx)
      = (List.range (run ops).next).filter fun id => ((run ops).broadcast value |>.chans id).rx
    rw [funext hrx, htxs, List.filter_filter]
    simp only [Bool.and_self]
    exact h.senders
  · intro id hid hr
    rw [run_snoc] at hid hr ⊢
    have hr' : ((run ops).chans id).rx = true := (hrx id).symm.trans hr
    rw [broadcastsSince_snoc ops (.broadcast value) id (by rw [← run_next]; exact hid),
      ← h.delivered id hid hr']
    show ((sendAll value (run ops).bus.txs 0 (run ops).chans).1 id).queue = _
    rw [sendAll_queue value _ h.nodup 0 _ (run_cap ops) id hr', if_pos (h.mem_txs hid hr')]
    rfl

/-- The run lemma: the invariant holds after every sequence that meets the condition. -/
theorem tracks_of_atMostOneDead (ops : List (Op T)) (h : AtMostOneDead ops) : Tracks ops := by
  induction ops using List.reverseRecOn with
  | nil => exact tracks_nil
  | append_singleton ops op ih =>
    have hops : Tracks ops := ih fun pre value hpre => h pre value
      (hpre.trans (List.prefix_append ops [op]))
    cases op with
    | subscribe => exact hops.subscribe
    | broadcast value => exact hops.broadcast (h ops value List.prefix_rfl) value
    | dropReceiver i => exact hops.dropReceiver i

/-! ## Headline -/

/-- After a broadcast that finds two dead subscribers or more, a sender without a receiver is still
    on the bus. -/
theorem txs_ne_connected {ops : List (Op T)} (value : T) (hdead : 2 ≤ (run ops).dead.length) :
    (run (ops ++ [.broadcast value])).bus.txs ≠ (run (ops ++ [.broadcast value])).connected := by
  rw [run_snoc]
  show ((run ops).broadcast value).bus.txs ≠ ((run ops).broadcast value).connected
  intro heq
  obtain ⟨d, hd, hrx⟩ := removeAll_keeps_dead (fun id => ((run ops).chans id).rx) _ hdead
  rw [← broadcast_txs ops value, heq] at hd
  have hlive : ((sendAll value (run ops).bus.txs 0 (run ops).chans).1 d).rx = true :=
    (List.mem_filter.mp hd).2
  rw [(sendAll_frame value (run ops).bus.txs 0 (run ops).chans d).1.trans hrx] at hlive
  nomatch hlive

/-- **Headline.**  A sequence of operations delivers exactly when each of its broadcasts finds at
    most one dead subscriber on the bus. -/
theorem delivers_iff (ops : List (Op T)) : Delivers ops ↔ AtMostOneDead ops := by
  constructor
  · intro h pre value hpre
    by_contra hdead
    exact txs_ne_connected value (by omega) (h.2 pre value hpre)
  · intro h
    have htracks : ∀ pre, pre <+: ops → Tracks pre := fun pre hpre =>
      tracks_of_atMostOneDead pre fun pre' value hpre' => h pre' value (hpre'.trans hpre)
    refine ⟨fun pre hpre => (htracks pre hpre).delivered, fun pre value hpre => ?_⟩
    have hafter := htracks _ hpre
    rw [← hafter.senders]
    refine (List.filter_eq_self.mpr fun id hid => ?_).symm
    -- no dead sender is left: the bus holds what the filter of the broadcast let through
    rw [run_snoc] at hid ⊢
    have hid' : id ∈ ((run pre).broadcast value).bus.txs := hid
    rw [broadcast_txs, removeAll_eq_filter _ _ (h pre value hpre)] at hid'
    exact (sendAll_frame value _ 0 (run pre).chans id).1.trans (List.mem_filter.mp hid').2

/-- Four subscribers, the first two gone: the broadcast of `7` reaches the other two but throws the
    third one's sender out, and the broadcast of `8` misses that subscriber. -/
theorem two_dead_lose_a_live_one :
    ¬ Delivers [Op.subscribe, .subscribe, .subscribe, .subscribe, .dropReceiver 0,
      .dropReceiver 1, .broadcast 7, .broadcast 8] := by
  intro h
  have := h.1 _ List.prefix_rfl 2 (by decide) (by decide)
  exact absurd this (by decide)

end OffChainWorker.Bus
