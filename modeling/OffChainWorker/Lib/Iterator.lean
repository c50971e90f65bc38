/-
  Iterators, by their `next` function.

  An iterator is a state with a function that yields an item or ends, and leaves the next state
  either way; nothing keeps it from going on after its end.  `items` are the items before it.
  The function that `scan` is given may panic, so what `scan` makes is a `TryIter`, whose `next` may
  too; `collect` asks it for a number of items.
-/
import OffChainWorker.Lib.Outcome

namespace Proc

/-- An iterator with states `σ`. -/
structure Iter (σ α : Type) where
  next : σ → Option α × σ

/-- An iterator whose `next` may panic. -/
structure TryIter (σ α : Type) where
  next : σ → Outcome Empty (Option α × σ)

variable {σ τ α β : Type}

namespace Iter

/-- `Iterator::map`. -/
def map (it : Iter σ α) (f : α → β) : Iter σ β where
  next s := ((it.next s).1.map f, (it.next s).2)

/-- `Iterator::take`; the state has the number of items left. -/
def take (it : Iter σ α) : Iter (σ × Nat) α where
  next s :=
    match s.2 with
    | 0 => (none, s)
    | n + 1 => ((it.next s.1).1, ((it.next s.1).2, n))

/-- `Iterator::scan`. -/
def scan (it : Iter σ α) (f : τ → α → Outcome Empty (Option β × τ)) : TryIter (σ × τ) β where
  next s :=
    match it.next s.1 with
    | (none, s') => .ok (none, (s', s.2))
    | (some a, s') => do
      let r ← f s.2 a
      return (r.1, (s', r.2))

/-- The items that the first `k` calls yield before one that ends. -/
def items (it : Iter σ α) : Nat → σ → List α
  | 0, _ => []
  | k + 1, s =>
    match it.next s with
    | (none, _) => []
    | (some a, s') => a :: it.items k s'

theorem items_succ_none {it : Iter σ α} {s s' : σ} (h : it.next s = (none, s')) (k : Nat) :
    it.items (k + 1) s = [] := by
  unfold items
  rw [h]

theorem items_succ_some {it : Iter σ α} {s s' : σ} {a : α} (h : it.next s = (some a, s'))
    (k : Nat) : it.items (k + 1) s = a :: it.items k s' := by
  rw [items, h]

theorem items_map (it : Iter σ α) (f : α → β) (k : Nat) (s : σ) :
    (it.map f).items k s = (it.items k s).map f := by
  induction k generalizing s with
  | zero => rfl
  | succ k ih =>
    cases hnext : it.next s with
    | mk item s' =>
      have hmap : (it.map f).next s = (item.map f, s') := by
        show ((it.next s).1.map f, (it.next s).2) = _
        rw [hnext]
      cases item with
      | none => rw [items_succ_none hmap, items_succ_none hnext, List.map_nil]
      | some a => rw [items_succ_some hmap, items_succ_some hnext, List.map_cons, ih]

theorem items_take (it : Iter σ α) (k n : Nat) (s : σ) :
    it.take.items k (s, n) = it.items (min k n) s := by
  induction k generalizing n s with
  | zero => rw [Nat.zero_min]; rfl
  | succ k ih =>
    cases n with
    | zero =>
      rw [Nat.min_zero]
      have hend : it.take.next (s, 0) = (none, (s, 0)) := rfl
      exact items_succ_none hend k
    | succ n =>
      rw [Nat.succ_min_succ]
      cases hnext : it.next s with
      | mk item s' =>
        have htake : it.take.next (s, n + 1) = (item, (s', n)) := by
          show ((it.next s).1, ((it.next s).2, n)) = _
          rw [hnext]
        cases item with
        | none => rw [items_succ_none htake, items_succ_none hnext]
        | some a => rw [items_succ_some htake, items_succ_some hnext, ih]

/-- One more call yields one more item, unless an earlier call has ended. -/
theorem items_succ (it : Iter σ α) (k : Nat) (s : σ) :
    it.items (k + 1) s = it.items k s ∧ (it.items (k + 1) s).length ≤ k ∨
      ∃ a, it.items (k + 1) s = it.items k s ++ [a] ∧ (it.items k s).length = k := by
  induction k generalizing s with
  | zero =>
    cases hnext : it.next s with
    | mk item s' =>
      cases item with
      | none =>
        left
        rw [items_succ_none hnext]
        exact ⟨rfl, Nat.le_refl 0⟩
      | some a =>
        right
        rw [items_succ_some hnext]
        exact ⟨a, rfl, rfl⟩
  | succ k ih =>
    cases hnext : it.next s with
    | mk item s' =>
      cases item with
      | none =>
        left
        rw [items_succ_none hnext, items_succ_none hnext]
        exact ⟨rfl, Nat.zero_le _⟩
      | some a =>
        rw [items_succ_some hnext, items_succ_some hnext]
        rcases ih s' with ⟨hsame, hlength⟩ | ⟨b, hmore, hlength⟩
        · left
          rw [hsame] at hlength ⊢
          exact ⟨rfl, Nat.succ_le_succ hlength⟩
        · right
          refine ⟨b, ?_, ?_⟩
          · rw [hmore]
            rfl
          · rw [List.length_cons, hlength]

end Iter

namespace TryIter

/-- Ask for `k` items. -/
def collect (it : TryIter σ α) : Nat → σ → Outcome Empty (List α)
  | 0, _ => return []
  | k + 1, s => do
    let r ← it.next s
    match r.1 with
    | none => return []
    | some a => do
      let rest ← it.collect k r.2
      return a :: rest

theorem collect_succ_none {it : TryIter σ α} {s s' : σ} (h : it.next s = .ok (none, s'))
    (k : Nat) : it.collect (k + 1) s = .ok [] := by
  rw [collect, h]
  rfl

theorem collect_succ_some {it : TryIter σ α} {s s' : σ} {a : α}
    (h : it.next s = .ok (some a, s')) (k : Nat) :
    it.collect (k + 1) s = it.collect k s' >>= fun rest => pure (a :: rest) := by
  rw [collect, h]
  rfl

end TryIter
end Proc
