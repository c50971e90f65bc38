/-
  The difference of two dictionaries (`src/util/diff.rs`).

  A `HashMap` is an association list with distinct keys, in the order it happens to be iterated in;
  two such lists are the same dictionary when one is a rearrangement of the other.  Above it, a
  dictionary is a partial function, and `IsChange` says what a change between two of them is.  The
  two loops list each of these changes once (`gdiff_exact`), and everything else follows from that.
-/
import Mathlib.Data.List.AList

namespace OffChainWorker

/-- A change between two dictionaries. -/
inductive Change (K : Type) where
  /-- The entry with this key was added. -/
  | added (key : K)
  /-- The entry with this key was updated. -/
  | updated (key : K)
  /-- The entry with this key was removed. -/
  | removed (key : K)
deriving Repr, DecidableEq

/-- The key affected by a change. -/
def Change.key {K : Type} : Change K → K
  | .added k => k
  | .updated k => k
  | .removed k => k

/-- The change on the way back. -/
def Change.swap {K : Type} : Change K → Change K
  | .added k => .removed k
  | .updated k => .updated k
  | .removed k => .added k

/-- `HashMap<K, V>`. -/
abbrev HashMap (K V : Type) := AList fun _ : K => V

variable {K V : Type} [DecidableEq K]

/-! ## The two loops -/

/-- The loop over `prev`. -/
def prevChanges (prev next : HashMap K V) (eq : V → V → Bool) : List (Change K) :=
  prev.entries.filterMap fun entry =>
    match next.lookup entry.1 with
    | some nextValue => if !eq entry.2 nextValue then some (.updated entry.1) else none
    | none => some (.removed entry.1)

/-- The loop over the keys of `next`. -/
def nextChanges (prev next : HashMap K V) : List (Change K) :=
  (next.keys.filter fun key => key ∉ prev).map .added

/-- `gdiff`. -/
def gdiff (prev next : HashMap K V) (eq : V → V → Bool) : List (Change K) :=
  prevChanges prev next eq ++ nextChanges prev next

/-- `diff`. -/
def diff [DecidableEq V] (prev next : HashMap K V) : List (Change K) :=
  gdiff prev next fun a b => a == b

/-- Apply a change to a dictionary, with the value of `next` for what was added or updated. -/
def applyChange (next dict : HashMap K V) : Change K → HashMap K V
  | .removed key => dict.erase key
  | .added key | .updated key =>
    (next.lookup key).elim dict fun value => dict.insert key value

/-- Apply changes one after the other. -/
def applyChanges (next prev : HashMap K V) (changes : List (Change K)) : HashMap K V :=
  changes.foldl (applyChange next) prev

/-! ## Changes of partial functions -/

section
variable {K : Type} {eq : V → V → Bool} {f g : K → Option V}

/-- What changes from `f` to `g`. -/
inductive IsChange (eq : V → V → Bool) (f g : K → Option V) : Change K → Prop where
  | added {k : K} {w : V} (hf : f k = none) (hg : g k = some w) : IsChange eq f g (.added k)
  | updated {k : K} {v w : V} (hf : f k = some v) (hg : g k = some w) (hne : eq v w = false) :
      IsChange eq f g (.updated k)
  | removed {k : K} {v : V} (hf : f k = some v) (hg : g k = none) : IsChange eq f g (.removed k)

theorem isChange_added_iff {k : K} :
    IsChange eq f g (.added k) ↔ f k = none ∧ ∃ w, g k = some w := by
  constructor
  · rintro (⟨hf, hg⟩ | _ | _)
    exact ⟨hf, _, hg⟩
  · rintro ⟨hf, w, hg⟩
    exact .added hf hg

theorem isChange_updated_iff {k : K} :
    IsChange eq f g (.updated k) ↔ ∃ v w, f k = some v ∧ g k = some w ∧ eq v w = false := by
  constructor
  · rintro (_ | ⟨hf, hg, hne⟩ | _)
    exact ⟨_, _, hf, hg, hne⟩
  · rintro ⟨v, w, hf, hg, hne⟩
    exact .updated hf hg hne

theorem isChange_removed_iff {k : K} :
    IsChange eq f g (.removed k) ↔ (∃ v, f k = some v) ∧ g k = none := by
  constructor
  · rintro (_ | _ | ⟨hf, hg⟩)
    exact ⟨⟨_, hf⟩, hg⟩
  · rintro ⟨⟨v, hf⟩, hg⟩
    exact .removed hf hg

/-- The changes on the way back are the same ones, swapped. -/
theorem isChange_swap_iff (hsymm : ∀ v w, eq v w = eq w v) {c : Change K} :
    IsChange eq g f c.swap ↔ IsChange eq f g c := by
  cases c with
  | added k =>
    show IsChange eq g f (.removed k) ↔ _
    rw [isChange_removed_iff, isChange_added_iff, and_comm]
  | removed k =>
    show IsChange eq g f (.added k) ↔ _
    rw [isChange_removed_iff, isChange_added_iff, and_comm]
  | updated k =>
    show IsChange eq g f (.updated k) ↔ _
    rw [isChange_updated_iff, isChange_updated_iff]
    constructor
    · rintro ⟨v, w, hg, hf, hne⟩
      exact ⟨w, v, hf, hg, by rw [hsymm, hne]⟩
    · rintro ⟨v, w, hf, hg, hne⟩
      exact ⟨w, v, hg, hf, by rw [hsymm, hne]⟩

/-- For equality, a key has a change iff the functions differ there. -/
theorem exists_isChange_iff [DecidableEq V] {k : K} :
    (∃ c : Change K, IsChange (fun a b => a == b) f g c ∧ c.key = k) ↔ f k ≠ g k := by
  constructor
  · rintro ⟨c, hc, rfl⟩ hsame
    cases hc with
    | added hf hg => nomatch (hf.symm.trans hsame).trans hg
    | updated hf hg hne =>
      have heq := Option.some.inj ((hf.symm.trans hsame).trans hg)
      rw [heq, beq_self_eq_true] at hne
      nomatch hne
    | removed hf hg => nomatch (hf.symm.trans hsame).trans hg
  · intro hne
    cases hf : f k with
    | none =>
      cases hg : g k with
      | none => exact absurd (hf.trans hg.symm) hne
      | some w => exact ⟨.added k, .added hf hg, rfl⟩
    | some v =>
      cases hg : g k with
      | none => exact ⟨.removed k, .removed hf hg, rfl⟩
      | some w =>
        refine ⟨.updated k, .updated hf hg ?_, rfl⟩
        refine beq_eq_false_iff_ne.mpr fun hvw => hne ?_
        rw [hf, hg, hvw]

/-- The list has the changes from `f` to `g`, at most one for each key. -/
structure ExactDiff (eq : V → V → Bool) (f g : K → Option V) (changes : List (Change K)) :
    Prop where
  nodup : (changes.map Change.key).Nodup
  exact : ∀ c, c ∈ changes ↔ IsChange eq f g c

/-- There is only one such list, up to its order. -/
theorem ExactDiff.perm {changes changes' : List (Change K)} (h : ExactDiff eq f g changes)
    (h' : ExactDiff eq f g changes') : changes.Perm changes' := by
  have hmem : ∀ c, c ∈ changes ↔ c ∈ changes' := fun c => (h.exact c).trans (h'.exact c).symm
  exact (List.perm_ext_iff_of_nodup h.nodup.of_map h'.nodup.of_map).mpr hmem

theorem Change.swap_swap (c : Change K) : c.swap.swap = c := by
  cases c <;> rfl

theorem Change.key_swap (c : Change K) : c.swap.key = c.key := by
  cases c <;> rfl

theorem ExactDiff.swap (hsymm : ∀ v w, eq v w = eq w v) {changes : List (Change K)}
    (h : ExactDiff eq f g changes) : ExactDiff eq g f (changes.map Change.swap) where
  nodup := by
    have hkeys : (changes.map Change.swap).map Change.key = changes.map Change.key := by
      rw [List.map_map]
      exact List.map_congr_left fun c _ => c.key_swap
    rw [hkeys]
    exact h.nodup
  exact c := by
    rw [← isChange_swap_iff hsymm, ← h.exact, List.mem_map]
    constructor
    · rintro ⟨c', hc', rfl⟩
      rw [c'.swap_swap]
      exact hc'
    · intro hc
      exact ⟨c.swap, hc, c.swap_swap⟩

end

/-! ## What the loops list -/

/-- The same dictionary, whatever the order of iteration. -/
theorem perm_entries_iff {dict dict' : HashMap K V} :
    dict.entries.Perm dict'.entries ↔ ∀ k, dict.lookup k = dict'.lookup k := by
  constructor
  · intro h k
    exact AList.perm_lookup h
  · intro h
    refine List.lookup_ext dict.nodupKeys dict'.nodupKeys fun k v => ?_
    show v ∈ dict.lookup k ↔ v ∈ dict'.lookup k
    rw [h k]

variable {prev next : HashMap K V} {eq : V → V → Bool}

theorem mem_prevChanges_iff {c : Change K} :
    c ∈ prevChanges prev next eq ↔
      (∃ k v, prev.lookup k = some v ∧ next.lookup k = none ∧ c = .removed k) ∨
      ∃ k v w, prev.lookup k = some v ∧ next.lookup k = some w ∧ eq v w = false ∧
        c = .updated k := by
  unfold prevChanges
  rw [List.mem_filterMap]
  constructor
  · rintro ⟨⟨k, v⟩, hentry, h⟩
    have hprev : prev.lookup k = some v := AList.mem_lookup_iff.mpr hentry
    cases hnext : next.lookup k with
    | none =>
      simp only [hnext, Option.some.injEq] at h
      exact .inl ⟨k, v, hprev, hnext, h.symm⟩
    | some w =>
      simp only [hnext] at h
      split at h
      · rename_i hne
        rw [Bool.not_eq_true'] at hne
        exact .inr ⟨k, v, w, hprev, hnext, hne, (Option.some.inj h).symm⟩
      · nomatch h
  · rintro (⟨k, v, hprev, hnext, rfl⟩ | ⟨k, v, w, hprev, hnext, hne, rfl⟩)
    · refine ⟨⟨k, v⟩, AList.mem_lookup_iff.mp hprev, ?_⟩
      simp only [hnext]
    · refine ⟨⟨k, v⟩, AList.mem_lookup_iff.mp hprev, ?_⟩
      simp only [hnext, hne, Bool.not_false, if_true]

theorem mem_nextChanges_iff {c : Change K} :
    c ∈ nextChanges prev next ↔
      ∃ k w, prev.lookup k = none ∧ next.lookup k = some w ∧ c = .added k := by
  unfold nextChanges
  rw [List.mem_map]
  constructor
  · rintro ⟨k, hk, rfl⟩
    obtain ⟨hnext, hprev⟩ := List.mem_filter.mp hk
    obtain ⟨w, hw⟩ := Option.isSome_iff_exists.mp (AList.lookup_isSome.mpr hnext)
    exact ⟨k, w, AList.lookup_eq_none.mpr (by simpa using hprev), hw, rfl⟩
  · rintro ⟨k, w, hprev, hnext, rfl⟩
    refine ⟨k, List.mem_filter.mpr ⟨?_, ?_⟩, rfl⟩
    · exact AList.lookup_isSome.mp (by rw [hnext]; rfl)
    · simpa using AList.lookup_eq_none.mp hprev

/-- The keys of the first loop come in the order of `prev`. -/
theorem prevChanges_keys : ((prevChanges prev next eq).map Change.key).Sublist prev.keys := by
  unfold prevChanges AList.keys List.keys
  induction prev.entries with
  | nil => exact List.Sublist.refl _
  | cons entry rest ih =>
    rw [List.filterMap_cons, List.map_cons]
    split
    · exact ih.cons _
    · rename_i c hc
      have hkey : c.key = entry.1 := by
        split at hc
        · split at hc
          · rw [← Option.some.inj hc]
            rfl
          · nomatch hc
        · rw [← Option.some.inj hc]
          rfl
      rw [List.map_cons, hkey]
      exact ih.cons_cons _

theorem nextChanges_keys :
    (nextChanges prev next).map Change.key = next.keys.filter fun key => key ∉ prev := by
  unfold nextChanges
  rw [List.map_map]
  exact List.map_id _

/-- **Run lemma**: the two loops together list every change once. -/
theorem gdiff_exact (prev next : HashMap K V) (eq : V → V → Bool) :
    ExactDiff eq prev.lookup next.lookup (gdiff prev next eq) where
  nodup := by
    unfold gdiff
    rw [List.map_append, nextChanges_keys]
    refine List.nodup_append.mpr ⟨prev.keys_nodup.sublist prevChanges_keys,
      next.keys_nodup.filter _, fun k hk k' hk' => ?_⟩
    rintro rfl
    have hprev : k ∈ prev := prevChanges_keys.subset hk
    exact absurd hprev (by simpa using (List.mem_filter.mp hk').2)
  exact c := by
    unfold gdiff
    rw [List.mem_append, mem_prevChanges_iff, mem_nextChanges_iff]
    constructor
    · rintro ((⟨k, v, hprev, hnext, rfl⟩ | ⟨k, v, w, hprev, hnext, hne, rfl⟩) |
        ⟨k, w, hprev, hnext, rfl⟩)
      · exact .removed hprev hnext
      · exact .updated hprev hnext hne
      · exact .added hprev hnext
    · rintro (⟨hprev, hnext⟩ | ⟨hprev, hnext, hne⟩ | ⟨hprev, hnext⟩)
      · exact .inr ⟨_, _, hprev, hnext, rfl⟩
      · exact .inl (.inr ⟨_, _, _, hprev, hnext, hne, rfl⟩)
      · exact .inl (.inl ⟨_, _, hprev, hnext, rfl⟩)

/-! ## Applying the changes -/

/-- **Frame.** A change leaves the other keys alone. -/
theorem lookup_applyChange_ne {dict : HashMap K V} {c : Change K} {k : K} (h : k ≠ c.key) :
    (applyChange next dict c).lookup k = dict.lookup k := by
  have hput : ∀ key, k ≠ key →
      ((next.lookup key).elim dict fun value => dict.insert key value).lookup k =
        dict.lookup k := by
    intro key hkey
    cases next.lookup key with
    | none => rfl
    | some value => exact AList.lookup_insert_ne hkey
  cases c with
  | added key => exact hput key h
  | updated key => exact hput key h
  | removed key => exact AList.lookup_erase_ne h

/-- **Step lemma**: a change to `next` gives its key the entry of `next`. -/
theorem lookup_applyChange_self {f : K → Option V} {dict : HashMap K V} {c : Change K}
    (h : IsChange eq f next.lookup c) :
    (applyChange next dict c).lookup c.key = next.lookup c.key := by
  cases h with
  | added _ hg =>
    unfold applyChange Change.key
    simp only [hg, Option.elim_some, AList.lookup_insert]
  | updated _ hg _ =>
    unfold applyChange Change.key
    simp only [hg, Option.elim_some, AList.lookup_insert]
  | removed _ hg =>
    unfold applyChange Change.key
    simp only [hg, AList.lookup_erase]

/-- **Run lemma**: the keys of the changes get the entries of `next`, the others keep theirs. -/
theorem lookup_applyChanges {f : K → Option V} {changes : List (Change K)}
    (h : ∀ c ∈ changes, IsChange eq f next.lookup c) (dict : HashMap K V) (k : K) :
    (applyChanges next dict changes).lookup k =
      if k ∈ changes.map Change.key then next.lookup k else dict.lookup k := by
  induction changes generalizing dict with
  | nil => rfl
  | cons c rest ih =>
    have hrest := ih (fun c' hc' => h c' (List.mem_cons_of_mem _ hc')) (applyChange next dict c)
    have hunfold : applyChanges next dict (c :: rest) =
      applyChanges next (applyChange next dict c) rest := rfl
    rw [hunfold, hrest, List.map_cons]
    by_cases hlater : k ∈ rest.map Change.key
    · rw [if_pos hlater, if_pos (List.mem_cons_of_mem _ hlater)]
    · rw [if_neg hlater]
      by_cases hk : k = c.key
      · subst hk
        rw [if_pos (List.mem_cons_self ..)]
        exact lookup_applyChange_self (h c (List.mem_cons_self ..))
      · rw [if_neg fun hmem => (List.mem_cons.mp hmem).elim hk hlater]
        exact lookup_applyChange_ne hk

/-- The exact changes lead from one dictionary to the other. -/
theorem applyChanges_exact [DecidableEq V] {prev next : HashMap K V} {changes : List (Change K)}
    (h : ExactDiff (fun a b => a == b) prev.lookup next.lookup changes) :
    (applyChanges next prev changes).entries.Perm next.entries := by
  rw [perm_entries_iff]
  intro k
  rw [lookup_applyChanges (fun c hc => (h.exact c).mp hc)]
  by_cases hk : k ∈ changes.map Change.key
  · rw [if_pos hk]
  · rw [if_neg hk]
    by_contra hne
    obtain ⟨c, hc, hkey⟩ := (exists_isChange_iff (f := prev.lookup) (g := next.lookup)).mpr hne
    exact hk (hkey ▸ List.mem_map_of_mem ((h.exact c).mpr hc))

/-- There are no changes exactly between equal dictionaries. -/
theorem ExactDiff.eq_nil_iff [DecidableEq V] {prev next : HashMap K V} {changes : List (Change K)}
    (h : ExactDiff (fun a b => a == b) prev.lookup next.lookup changes) :
    changes = [] ↔ prev.entries.Perm next.entries := by
  constructor
  · rintro rfl
    exact applyChanges_exact h
  · intro hsame
    refine List.eq_nil_iff_forall_not_mem.mpr fun c hc => ?_
    have hne := exists_isChange_iff.mp ⟨c, (h.exact c).mp hc, rfl⟩
    exact hne (perm_entries_iff.mp hsame c.key)

/-- **Headline.** `diff` lists exactly the changes, each key at most once and whatever the order of
    iteration; they lead from `prev` to `next`, there are none exactly when the two are equal, and
    the way back has the same ones with added and removed exchanged. -/
theorem diff_exact [DecidableEq V] (prev next : HashMap K V) :
    ExactDiff (fun a b => a == b) prev.lookup next.lookup (diff prev next) ∧
    (∀ prev' next' : HashMap K V, prev'.entries.Perm prev.entries →
      next'.entries.Perm next.entries → (diff prev' next').Perm (diff prev next)) ∧
    (applyChanges next prev (diff prev next)).entries.Perm next.entries ∧
    (diff prev next = [] ↔ prev.entries.Perm next.entries) ∧
    (diff next prev).Perm ((diff prev next).map Change.swap) := by
  have hexact := gdiff_exact prev next fun a b => a == b
  refine ⟨hexact, fun prev' next' hprev hnext => ?_, applyChanges_exact hexact,
    hexact.eq_nil_iff, ?_⟩
  · have hexact' := gdiff_exact prev' next' fun a b => a == b
    have hprev' : prev'.lookup = prev.lookup := funext (perm_entries_iff.mp hprev)
    have hnext' : next'.lookup = next.lookup := funext (perm_entries_iff.mp hnext)
    rw [hprev', hnext'] at hexact'
    exact hexact'.perm hexact
  · have hback := gdiff_exact next prev fun a b => a == b
    exact hback.perm (hexact.swap fun v w => Bool.beq_comm)

/-- One key added, one removed, two updated, one kept. -/
example : diff ([⟨1, 1⟩, ⟨2, 2⟩, ⟨3, 3⟩, ⟨4, 4⟩].toAList : HashMap Nat Nat)
    [⟨1, 11⟩, ⟨2, 2⟩, ⟨4, 44⟩, ⟨5, 5⟩].toAList =
      [.updated 1, .removed 3, .updated 4, .added 5] := by decide

end OffChainWorker
