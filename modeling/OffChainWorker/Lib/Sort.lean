/-
  The contract of a library sort.

  A stable sort promises its result only for a comparator that is a total preorder on the elements
  of the list; for any other comparator it promises no order at all, only that the result is a
  rearrangement of the input.  `StableSort` carries exactly this contract as its fields.
-/

namespace Proc

variable {α : Type}

/-- `cmp` is a total preorder on the elements of `l`. -/
structure TotalPreorderOn (cmp : α → α → Ordering) (l : List α) : Prop where
  refl : ∀ a ∈ l, cmp a a = .eq
  swap : ∀ a ∈ l, ∀ b ∈ l, cmp b a = (cmp a b).swap
  trans : ∀ a ∈ l, ∀ b ∈ l, ∀ c ∈ l, (cmp a b).isLE → (cmp b c).isLE → (cmp a c).isLE

/-- A stable sort with a comparator, under its documented contract. -/
structure StableSort (α : Type) where
  sortBy : (α → α → Ordering) → List α → List α
  perm : ∀ cmp l, (sortBy cmp l).Perm l
  stable : ∀ cmp l, TotalPreorderOn cmp l → sortBy cmp l = l.mergeSort fun a b => (cmp a b).isLE

/-- The merge sort of the core library meets the contract. -/
def StableSort.mergeSort (α : Type) : StableSort α where
  sortBy cmp l := l.mergeSort fun a b => (cmp a b).isLE
  perm _ l := List.mergeSort_perm l _
  stable _ _ _ := rfl

/-- A list of equal elements has no other rearrangement. -/
theorem eq_of_perm_of_forall_eq {l p : List α} {a : α} (hp : p.Perm l) (h : ∀ b ∈ l, b = a) :
    p = l := by
  have hl : l = List.replicate l.length a := List.eq_replicate_iff.mpr ⟨rfl, h⟩
  rw [hl] at hp ⊢
  exact List.perm_replicate.mp hp

/-- Whatever the comparator does, a list of equal elements comes back as it was. -/
theorem StableSort.sortBy_of_forall_eq (S : StableSort α) (cmp : α → α → Ordering) {l : List α}
    {a : α} (h : ∀ b ∈ l, b = a) : S.sortBy cmp l = l :=
  eq_of_perm_of_forall_eq (S.perm cmp l) h

/-! ## Outside the contract -/

open Classical in
/-- A sort that answers `p` for one list and any comparator that breaks the contract on it. -/
noncomputable def StableSort.answering (l p : List α) (hp : p.Perm l) : StableSort α where
  sortBy cmp l' :=
    if TotalPreorderOn cmp l' then l'.mergeSort fun a b => (cmp a b).isLE
    else if l' = l then p
    else l'
  perm cmp l' := by
    split
    · exact List.mergeSort_perm l' _
    · split
      · rename_i heq
        rw [heq]
        exact hp
      · exact List.Perm.refl l'
  stable cmp l' h := if_pos h

/-- For a comparator that breaks the contract, any rearrangement is an answer. -/
theorem StableSort.exists_sortBy_eq {cmp : α → α → Ordering} {l p : List α}
    (h : ¬ TotalPreorderOn cmp l) (hp : p.Perm l) : ∃ S : StableSort α, S.sortBy cmp l = p :=
  ⟨.answering l p hp, (if_neg h).trans (if_pos rfl)⟩

/-- A list with two different elements has another rearrangement than `q`. -/
theorem exists_perm_ne {l q : List α} {a b : α} (ha : a ∈ l) (hb : b ∈ l) (hne : a ≠ b)
    (hq : q.Perm l) : ∃ p : List α, p.Perm l ∧ p ≠ q := by
  obtain ⟨c, rest, rfl⟩ := List.exists_cons_of_ne_nil (List.ne_nil_of_mem (hq.mem_iff.mpr ha))
  have hother : ∃ x ∈ c :: rest, x ≠ c := by
    by_cases hac : a = c
    · exact ⟨b, hq.mem_iff.mpr hb, fun hbc => hne (hac.trans hbc.symm)⟩
    · exact ⟨a, hq.mem_iff.mpr ha, hac⟩
  obtain ⟨x, hx, hxc⟩ := hother
  obtain ⟨s, t, hsplit⟩ := List.append_of_mem hx
  refine ⟨x :: (s ++ t), ?_, fun heq => hxc (List.cons.inj heq).1⟩
  rw [hsplit] at hq
  exact List.perm_middle.symm.trans hq

end Proc
