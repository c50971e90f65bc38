/-
  Message channels with disconnection, and selection among them.

  The channels of a program usually come from a third-party crate (`crossbeam`); these definitions
  are written from the documented behaviour of such a crate, not from its code.  A channel is a FIFO
  queue together with whether some sender and some receiver are still alive.  `send` answers
  `disconnected` once every receiver is gone and `full` when a bounded channel has no room; `recv`
  hands out the queued messages first and answers `disconnected` only when the queue is empty and
  every sender is gone.  Dropping the last receiver discards the queue.

  `Select` picks one of several operations that is ready, and is free in which: a receive is ready
  when it has a message, and also when it would answer `disconnected`.
-/

namespace Proc

/-- A FIFO channel: its capacity (`none` = unbounded), the queued messages, and whether a sender
    and a receiver are alive. -/
structure Chan (α : Type) where
  cap : Option Nat
  queue : List α
  tx : Bool
  rx : Bool
deriving Repr, DecidableEq

/-- What a `send` comes to. -/
inductive SendResult (α : Type) where
  | sent (c : Chan α)
  | full
  | disconnected
deriving Repr, DecidableEq

/-- What a `recv` comes to; `empty` means that it has to wait. -/
inductive RecvResult (α : Type) where
  | received (a : α) (c : Chan α)
  | empty
  | disconnected
deriving Repr, DecidableEq

namespace Chan

variable {α : Type}

/-- A fresh channel with both ends alive. -/
def unbounded : Chan α := ⟨none, [], true, true⟩

/-- A fresh channel for at most `n` queued messages. -/
def bounded (n : Nat) : Chan α := ⟨some n, [], true, true⟩

/-- No room for another message. -/
def isFull (c : Chan α) : Bool :=
  match c.cap with
  | none => false
  | some n => n ≤ c.queue.length

/-- Append a message to the queue. -/
def push (c : Chan α) (a : α) : Chan α := { c with queue := c.queue ++ [a] }

def send (c : Chan α) (a : α) : SendResult α :=
  if c.rx = false then .disconnected
  else if c.isFull then .full
  else .sent (c.push a)

def recv (c : Chan α) : RecvResult α :=
  match c.queue with
  | a :: rest => .received a { c with queue := rest }
  | [] => if c.tx then .empty else .disconnected

/-- The last sender is dropped. -/
def dropTx (c : Chan α) : Chan α := { c with tx := false }

/-- The last receiver is dropped, and the queued messages with it. -/
def dropRx (c : Chan α) : Chan α := { c with rx := false, queue := [] }

/-! ## The fields after each operation -/

@[simp] theorem push_cap (c : Chan α) (a : α) : (c.push a).cap = c.cap := rfl
@[simp] theorem push_queue (c : Chan α) (a : α) : (c.push a).queue = c.queue ++ [a] := rfl
@[simp] theorem push_tx (c : Chan α) (a : α) : (c.push a).tx = c.tx := rfl
@[simp] theorem push_rx (c : Chan α) (a : α) : (c.push a).rx = c.rx := rfl
@[simp] theorem dropTx_cap (c : Chan α) : c.dropTx.cap = c.cap := rfl
@[simp] theorem dropTx_queue (c : Chan α) : c.dropTx.queue = c.queue := rfl
@[simp] theorem dropTx_tx (c : Chan α) : c.dropTx.tx = false := rfl
@[simp] theorem dropTx_rx (c : Chan α) : c.dropTx.rx = c.rx := rfl
@[simp] theorem dropRx_cap (c : Chan α) : c.dropRx.cap = c.cap := rfl
@[simp] theorem dropRx_rx (c : Chan α) : c.dropRx.rx = false := rfl

/-! ## The answers of `send` and `recv` -/

theorem send_dead {c : Chan α} (h : c.rx = false) (a : α) : c.send a = .disconnected := by
  simp [send, h]

/-- An unbounded channel with a receiver takes every message. -/
theorem send_unbounded {c : Chan α} (hr : c.rx = true) (hc : c.cap = none) (a : α) :
    c.send a = .sent (c.push a) := by
  simp [send, isFull, hr, hc]

/-- A message that was sent stands at the end of the queue. -/
theorem eq_push_of_send {c d : Chan α} {a : α} (h : c.send a = .sent d) : d = c.push a := by
  unfold send at h
  split at h
  · nomatch h
  · split at h
    · nomatch h
    · exact (SendResult.sent.inj h).symm

theorem recv_cons {c : Chan α} {a : α} {rest : List α} (h : c.queue = a :: rest) :
    c.recv = .received a { c with queue := rest } := by
  simp [recv, h]

/-- A message that was received stood at the front of the queue. -/
theorem queue_of_recv {c d : Chan α} {a : α} (h : c.recv = .received a d) :
    ∃ rest, c.queue = a :: rest ∧ d = { c with queue := rest } := by
  unfold recv at h
  cases hq : c.queue with
  | nil =>
    rw [hq] at h
    cases htx : c.tx <;> simp [htx] at h
  | cons b rest =>
    rw [hq] at h
    obtain ⟨rfl, rfl⟩ := RecvResult.received.inj h
    exact ⟨rest, rfl, rfl⟩

/-! ## Receives that are ready -/

/-- A receive would not wait. -/
def isReady (c : Chan α) : Bool := !c.queue.isEmpty || !c.tx

/-- A receive would answer `disconnected`. -/
def isDead (c : Chan α) : Bool := c.queue.isEmpty && !c.tx

theorem recv_disconnected_iff {c : Chan α} : c.recv = .disconnected ↔ c.isDead = true := by
  unfold recv isDead
  cases c.queue with
  | nil => cases c.tx <;> simp
  | cons a rest => simp

theorem recv_empty_iff {c : Chan α} : c.recv = .empty ↔ c.isReady = false := by
  unfold recv isReady
  cases c.queue with
  | nil => cases c.tx <;> simp
  | cons a rest => simp

theorem isReady_of_isDead {c : Chan α} (h : c.isDead = true) : c.isReady = true := by
  unfold isDead at h
  rw [Bool.and_eq_true] at h
  unfold isReady
  rw [h.2, Bool.or_true]

end Chan

/-! ## Selection -/

/-- A selection among operations, by which of them are ready: one that is ready, any of them, and
    none only when none is ready. -/
structure Select where
  trySelect : List Bool → Option Nat
  ready : ∀ {ops i}, trySelect ops = some i → ops[i]? = some true
  notReady : ∀ {ops}, trySelect ops = none → ∀ b ∈ ops, b = false

/-- The first operation that is ready, but number `i` before all others. -/
def Select.preferring (i : Nat) : Select where
  trySelect ops := if ops[i]? = some true then some i else ops.findIdx? fun b => b
  ready := by
    intro ops j h
    split at h
    · rename_i hready
      rw [← Option.some.inj h]
      exact hready
    · obtain ⟨hj, hready, -⟩ := List.findIdx?_eq_some_iff_getElem.mp h
      rw [List.getElem?_eq_getElem hj, hready]
  notReady := by
    intro ops h
    split at h
    · nomatch h
    · exact List.findIdx?_eq_none_iff.mp h

theorem Select.preferring_ready {i : Nat} {ops : List Bool} (h : ops[i]? = some true) :
    (preferring i).trySelect ops = some i := if_pos h

end Proc
