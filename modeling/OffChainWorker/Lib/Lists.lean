/-
  Facts about lists: when two ways to filter them agree, how they are made of their parts by key,
  what is left when indices are removed, what a permutation of images comes from, which functions a
  list can be covered by, how the occurrences of its elements are numbered, and what holds of each
  element in the state that the elements before it have left.
-/
import Mathlib.Data.List.Perm.Basic

namespace Proc

/-! ## Maps that leave elements out -/

section
variable {α β : Type} {f g : α → Option β}

/-- A map that leaves out elements gives a shorter list. -/
theorem length_filterMap_le_of (h : ∀ x, g x = none ∨ g x = f x) (l : List α) :
    (l.filterMap g).length ≤ (l.filterMap f).length := by
  induction l with
  | nil => exact Nat.le_refl 0
  | cons x l ih =>
    rw [List.filterMap_cons, List.filterMap_cons]
    rcases h x with hx | hx
    · rw [hx]
      cases f x with
      | none => exact ih
      | some b => exact Nat.le_succ_of_le ih
    · rw [hx]
      cases f x with
      | none => exact ih
      | some b => exact Nat.succ_le_succ ih

/-- Of two maps, one of which may leave elements out that the other has: they give the same list iff
    none is left out. -/
theorem filterMap_eq_iff {l : List α} (h : ∀ x, g x = none ∨ g x = f x) :
    l.filterMap g = l.filterMap f ↔ ∀ x ∈ l, g x = f x := by
  refine ⟨fun heq => ?_, fun hall => List.filterMap_congr hall⟩
  induction l with
  | nil => exact fun x hx => absurd hx List.not_mem_nil
  | cons x l ih =>
    rw [List.filterMap_cons, List.filterMap_cons] at heq
    have hx : g x = f x := by
      rcases h x with hx | hx
      · cases hf : f x with
        | none => exact hx
        | some b =>
          -- then the left list is too short
          rw [hx, hf] at heq
          have heq' : l.filterMap g = b :: l.filterMap f := heq
          have hle := length_filterMap_le_of h l
          rw [heq', List.length_cons] at hle
          exact absurd hle (Nat.not_succ_le_self _)
      · exact hx
    have hrest : l.filterMap g = l.filterMap f := by
      rw [hx] at heq
      cases hf : f x with
      | none => rwa [hf] at heq
      | some b =>
        rw [hf] at heq
        exact (List.cons.inj heq).2
    intro y hy
    rcases List.mem_cons.mp hy with rfl | hy
    · exact hx
    · exact ih hrest y hy

end

/-- Every element is paired with what it is mapped to, if nothing fails. -/
theorem mapM_pairs {ε α β : Type} {f : α → Except ε β} {names : List α} {l : List (α × β)} :
    (names.mapM fun name => do
        let key ← f name
        return (name, key)) = .ok l ↔
      l.map Prod.fst = names ∧ ∀ p ∈ l, f p.1 = .ok p.2 := by
  induction names generalizing l with
  | nil =>
    rw [List.mapM_nil, List.map_eq_nil_iff]
    constructor
    · intro h
      obtain rfl := Except.ok.inj h
      exact ⟨rfl, List.forall_mem_nil _⟩
    · rintro ⟨rfl, -⟩
      rfl
  | cons name names ih =>
    rw [List.mapM_cons]
    constructor
    · intro h
      cases hkey : f name with
      | error kind => rw [hkey] at h; nomatch h
      | ok key =>
        rw [hkey] at h
        cases hrest : names.mapM fun name => do
            let key ← f name
            return (name, key) with
        | error kind => rw [hrest] at h; nomatch h
        | ok rest =>
          rw [hrest] at h
          obtain rfl := Except.ok.inj h
          obtain ⟨hfst, hall⟩ := ih.mp hrest
          exact ⟨congrArg (name :: ·) hfst, List.forall_mem_cons.mpr ⟨hkey, hall⟩⟩
    · rintro ⟨hfst, hall⟩
      cases l with
      | nil => nomatch hfst
      | cons p l =>
        obtain ⟨rfl, hnames⟩ := List.cons.inj hfst
        obtain ⟨hkey, hall⟩ := List.forall_mem_cons.mp hall
        rw [hkey, ih.mpr ⟨hnames, hall⟩]
        rfl

/-! ## Parts by key -/

section
variable {α : Type}

/-- Below the greatest key, and that key. -/
theorem filter_lt_append_eq {l : List (Nat × α)} {n : Nat}
    (hsorted : (l.map Prod.fst).Pairwise (· ≤ ·)) (hbound : ∀ p ∈ l, p.1 ≤ n) :
    (l.filter fun p => p.1 < n) ++ (l.filter fun p => p.1 = n) = l := by
  induction l with
  | nil => rfl
  | cons p l ih =>
    obtain ⟨hp, hsorted⟩ := List.pairwise_cons.mp hsorted
    obtain ⟨hle, hbound⟩ := List.forall_mem_cons.mp hbound
    rcases Nat.lt_or_eq_of_le hle with hlt | heq
    · rw [List.filter_cons_of_pos (by simpa using hlt),
        List.filter_cons_of_neg (by simpa using Nat.ne_of_lt hlt), List.cons_append,
        ih hsorted hbound]
    · -- all that comes after `p` has its key
      have hall : ∀ q ∈ p :: l, q.1 = n := by
        intro q hq
        rcases List.mem_cons.mp hq with rfl | hq
        · exact heq
        · exact Nat.le_antisymm (hbound q hq) (heq ▸ hp q.1 (List.mem_map_of_mem hq))
      have hnone : ((p :: l).filter fun q => q.1 < n) = [] :=
        List.filter_eq_nil_iff.mpr fun q hq => by simp [hall q hq]
      have heach : ((p :: l).filter fun q => q.1 = n) = p :: l :=
        List.filter_eq_self.mpr fun q hq => by simp [hall q hq]
      rw [hnone, heach, List.nil_append]

/-- A list whose keys never decrease is made of its parts, key after key. -/
theorem flatMap_filter_of_sorted {l : List (Nat × α)} {n : Nat}
    (hsorted : (l.map Prod.fst).Pairwise (· ≤ ·)) (hbound : ∀ p ∈ l, p.1 < n) :
    ((List.range n).flatMap fun k => l.filter fun p => p.1 = k) = l := by
  induction n generalizing l with
  | zero =>
    cases l with
    | nil => rfl
    | cons p l => exact absurd (hbound p List.mem_cons_self) (Nat.not_lt_zero _)
  | succ n ih =>
    have hsplit := filter_lt_append_eq hsorted fun p hp => Nat.le_of_lt_succ (hbound p hp)
    have hless := ih (l := l.filter fun p => p.1 < n)
      (hsorted.sublist (List.filter_sublist.map _))
      (fun p hp => by simpa using (List.mem_filter.mp hp).2)
    have hsame : ((List.range n).flatMap fun k => l.filter fun p => p.1 = k) =
        (List.range n).flatMap fun k => (l.filter fun p => p.1 < n).filter fun p => p.1 = k := by
      refine List.flatMap_congr fun k hk => ?_
      rw [List.filter_filter]
      refine List.filter_congr fun p _ => ?_
      have hk' : k < n := List.mem_range.mp hk
      by_cases hp : p.1 = k
      · simp [hp, hk']
      · simp [hp]
    rw [List.range_succ, List.flatMap_append, hsame, hless]
    simpa using hsplit

end

/-! ## Removal by index -/

section
variable {α : Type}

/-- The elements at the positions that meet `p`. -/
def keepAt (p : Nat → Bool) : List α → List α
  | [] => []
  | a :: l =>
    if p 0 then a :: keepAt (fun n => p (n + 1)) l else keepAt (fun n => p (n + 1)) l

theorem keepAt_all (l : List α) : keepAt (fun _ => true) l = l := by
  induction l with
  | nil => rfl
  | cons a l ih => exact congrArg (a :: ·) ih

theorem keepAt_sublist (p : Nat → Bool) (l : List α) : (keepAt p l).Sublist l := by
  induction l generalizing p with
  | nil => exact List.Sublist.refl []
  | cons a l ih =>
    rw [keepAt]
    split
    · exact (ih _).cons_cons a
    · exact (ih _).cons a

/-- Behind a removed element the positions are one less than they were. -/
theorem keepAt_eraseIdx (p : Nat → Bool) (i : Nat) (l : List α) :
    keepAt p (l.eraseIdx i) =
      keepAt (fun n => if n < i then p n else if n = i then false else p (n - 1)) l := by
  induction l generalizing p i with
  | nil => rfl
  | cons a l ih =>
    cases i with
    | zero =>
      show keepAt p l = keepAt (fun n => _) l
      exact congrArg (keepAt · l) (funext fun n => rfl)
    | succ i =>
      have htail : keepAt (fun n => p (n + 1)) (l.eraseIdx i) =
          keepAt (fun n => if n + 1 < i + 1 then p (n + 1)
            else if n + 1 = i + 1 then false else p (n + 1 - 1)) l := by
        rw [ih]
        refine congrArg (keepAt · l) (funext fun n => ?_)
        rcases Nat.lt_trichotomy n i with hlt | heq | hgt
        · simp only [if_pos hlt, if_pos (Nat.succ_lt_succ hlt)]
        · simp [heq]
        · have hpred : n - 1 + 1 = n := by omega
          have hne : n ≠ i := by omega
          simp [Nat.not_lt_of_gt hgt, hne, hpred]
      show (if p 0 then a :: keepAt _ (l.eraseIdx i) else keepAt _ (l.eraseIdx i)) = _
      rw [htail, keepAt, if_pos (Nat.succ_pos i)]

/-- Each index with the number of those before it added, of which there are `k` more. -/
def shifted (k : Nat) : List Nat → List Nat
  | [] => []
  | i :: idxs => (i + k) :: shifted (k + 1) idxs

theorem shifted_succ (k : Nat) (idxs : List Nat) :
    shifted (k + 1) idxs = (shifted k idxs).map (· + 1) := by
  induction idxs generalizing k with
  | nil => rfl
  | cons i idxs ih =>
    rw [shifted, shifted, ih, List.map_cons]
    rfl

theorem le_of_mem_shifted {i n : Nat} {idxs : List Nat} (h : ∀ j ∈ idxs, i ≤ j) (k : Nat)
    (hn : n ∈ shifted k idxs) : i ≤ n := by
  induction idxs generalizing k with
  | nil => nomatch hn
  | cons j idxs ih =>
    obtain ⟨hj, hrest⟩ := List.forall_mem_cons.mp h
    rcases List.mem_cons.mp hn with rfl | hn
    · exact Nat.le_add_right_of_le hj
    · exact ih hrest (k + 1) hn

/-- **Removal one after the other.**  When indices are noted in a list and then removed in turn from
    what is left of it, each one hits the element that stands behind its own by the number of those
    removed before. -/
theorem foldl_eraseIdx {idxs : List Nat} (h : idxs.Pairwise (· < ·)) (l : List α) :
    idxs.foldl (fun l i => l.eraseIdx i) l =
      keepAt (fun n => decide (n ∉ shifted 0 idxs)) l := by
  induction idxs generalizing l with
  | nil => exact (keepAt_all l).symm
  | cons i idxs ih =>
    obtain ⟨hi, hrest⟩ := List.pairwise_cons.mp h
    rw [List.foldl_cons, ih hrest, keepAt_eraseIdx]
    refine congrArg (keepAt · l) (funext fun n => ?_)
    have hbehind : ∀ m ∈ shifted 0 idxs, i + 1 ≤ m := fun m hm => le_of_mem_shifted hi 0 hm
    rw [shifted, shifted_succ]
    by_cases hlt : n < i
    · have hnot : n ∉ shifted 0 idxs := fun hm => by
        have := hbehind n hm
        omega
      have hnot' : n ∉ (i + 0) :: (shifted 0 idxs).map (· + 1) := fun hm => by
        rcases List.mem_cons.mp hm with hm | hm
        · omega
        · obtain ⟨m, hmem, rfl⟩ := List.mem_map.mp hm
          have := hbehind m hmem
          omega
      rw [if_pos hlt, decide_eq_true hnot, decide_eq_true hnot']
    · by_cases heq : n = i
      · simp [heq]
      · obtain ⟨m, rfl⟩ : ∃ m, n = m + 1 := ⟨n - 1, by omega⟩
        simp [hlt, heq]

end

/-! ## Covering -/

/-- A permutation of the images is made by one of the elements. -/
theorem perm_of_map_perm {α β : Type} {f : α → β} {xs : List α} {ys : List β}
    (h : ys.Perm (xs.map f)) : ∃ l : List α, l.map f = ys ∧ l.Perm xs := by
  have hmap : List.Forall₂ (fun y x => y = f x) (xs.map f) xs :=
    List.forall₂_map_left_iff.mpr (List.forall₂_same.mpr fun x _ => rfl)
  obtain ⟨l, himages, hl⟩ := List.perm_comp_forall₂ h hmap
  have hmapped : ∀ {ys : List β} {l : List α}, List.Forall₂ (fun y x => y = f x) ys l →
      l.map f = ys := by
    intro ys l himages
    induction himages with
    | nil => rfl
    | cons hy _ ih => rw [List.map_cons, ih, hy]
  exact ⟨l, hmapped himages, hl⟩

theorem exists_bound {α : Type} (l : List α) (size : α → Nat) :
    ∃ bound, ∀ m ∈ l, size m < bound := by
  induction l with
  | nil => exact ⟨0, List.forall_mem_nil _⟩
  | cons a l ih =>
    obtain ⟨bound, hbound⟩ := ih
    refine ⟨bound + size a + 1, fun m hm => ?_⟩
    rcases List.mem_cons.mp hm with rfl | hm
    · omega
    · have := hbound m hm
      omega

/-- When every element is the image of an element that `f` keeps or makes smaller, `f` keeps all of
    them. -/
theorem fixed_of_covered {α : Type} {l : List α} {Q : α → Prop} {f : α → α} {size : α → Nat}
    (hcover : ∀ n ∈ l, ∃ m ∈ l, Q m ∧ f m = n)
    (hsize : ∀ m ∈ l, Q m → f m = m ∨ size (f m) < size m) : ∀ n ∈ l, Q n ∧ f n = n := by
  -- from the largest size down
  have hdown : ∀ k, ∀ n ∈ l, (∀ m ∈ l, size m < size n + k) → Q n ∧ f n = n := by
    intro k
    induction k with
    | zero =>
      intro n hn hbound
      exact absurd (hbound n hn) (Nat.lt_irrefl _)
    | succ k ih =>
      intro n hn hbound
      obtain ⟨m, hm, hq, rfl⟩ := hcover n hn
      rcases hsize m hm hq with hfix | hless
      · rw [hfix]
        exact ⟨hq, hfix⟩
      · obtain ⟨-, hfix⟩ := ih m hm fun m' hm' => by
          have := hbound m' hm'
          omega
        rw [hfix] at hless
        exact absurd hless (Nat.lt_irrefl _)
  intro n hn
  obtain ⟨bound, hbound⟩ := exists_bound l size
  exact hdown bound n hn fun m hm => Nat.lt_of_lt_of_le (hbound m hm) (Nat.le_add_left _ _)

/-! ## Numbered occurrences -/

section
variable {α : Type} [DecidableEq α]

/-- Each element with the number of its occurrences before it, of which some are in `before`. -/
def occurrences (before : List α) : List α → List (α × Nat)
  | [] => []
  | a :: rest => (a, before.count a) :: occurrences (before ++ [a]) rest

theorem length_occurrences (before l : List α) : (occurrences before l).length = l.length := by
  induction l generalizing before with
  | nil => rfl
  | cons a rest ih => exact congrArg Nat.succ (ih (before ++ [a]))

theorem getElem?_occurrences (before l : List α) (i : Nat) :
    (occurrences before l)[i]? = l[i]?.map fun a => (a, (before ++ l.take i).count a) := by
  induction l generalizing before i with
  | nil => rfl
  | cons a rest ih =>
    cases i with
    | zero =>
      show some (a, before.count a) = some (a, (before ++ []).count a)
      rw [List.append_nil]
    | succ i =>
      have htake : before ++ (a :: rest).take (i + 1) = before ++ [a] ++ rest.take i := by
        rw [List.take_succ_cons, List.append_assoc]
        rfl
      rw [htake]
      exact ih (before ++ [a]) i

/-- The numbers go on from those that were given. -/
theorem count_le_of_mem_occurrences {before l : List α} {a : α} {n : Nat}
    (h : (a, n) ∈ occurrences before l) : before.count a ≤ n := by
  induction l generalizing before with
  | nil => nomatch h
  | cons b rest ih =>
    rcases List.mem_cons.mp h with h | h
    · obtain ⟨rfl, rfl⟩ := Prod.mk.inj h
      exact Nat.le_refl _
    · have hlater := ih h
      rw [List.count_append] at hlater
      omega

/-- No element gets the same number twice. -/
theorem nodup_occurrences (before l : List α) : (occurrences before l).Nodup := by
  induction l generalizing before with
  | nil => exact List.nodup_nil
  | cons a rest ih =>
    refine List.nodup_cons.mpr ⟨fun h => ?_, ih (before ++ [a])⟩
    have hlater := count_le_of_mem_occurrences h
    rw [List.count_append, List.count_singleton_self] at hlater
    omega

/-- The numbers of one element, in order. -/
theorem filter_occurrences (before l : List α) (a : α) :
    ((occurrences before l).filter fun p => p.1 = a).map Prod.snd =
      List.range' (before.count a) (l.count a) := by
  induction l generalizing before with
  | nil => rfl
  | cons b rest ih =>
    have hrest := ih (before ++ [b])
    rw [List.count_append] at hrest
    unfold occurrences
    by_cases hb : b = a
    · subst hb
      rw [List.count_singleton_self] at hrest
      rw [List.filter_cons_of_pos (by simp), List.map_cons, hrest, List.count_cons_self,
        List.range'_succ]
    · rw [List.count_singleton, if_neg (by simpa using hb), Nat.add_zero] at hrest
      rw [List.filter_cons_of_neg (by simpa using hb), hrest, List.count_cons_of_ne hb]

end

/-! ## Along a list -/

section
variable {S α : Type} (next : S → α → S) (P : S → α → Prop)

/-- `P` holds of each element and the state that the elements before it have left. -/
def Along : S → List α → Prop
  | _, [] => True
  | s, a :: l => P s a ∧ Along (next s a) l

variable {next P}

theorem along_append {s : S} {l l' : List α} :
    Along next P s (l ++ l') ↔ Along next P s l ∧ Along next P (l.foldl next s) l' := by
  induction l generalizing s with
  | nil => exact (and_iff_right trivial).symm
  | cons a l ih =>
    show P s a ∧ Along next P _ (l ++ l') ↔ (P s a ∧ _) ∧ _
    rw [ih, and_assoc]
    exact Iff.rfl

/-- Said of each place in the list. -/
theorem along_iff {s : S} {l : List α} :
    Along next P s l ↔ ∀ pre a post, l = pre ++ a :: post → P (pre.foldl next s) a := by
  induction l generalizing s with
  | nil => exact iff_of_true trivial fun pre a post h => by simp at h
  | cons b l ih =>
    constructor
    · rintro ⟨hb, hl⟩ pre a post h
      cases pre with
      | nil =>
        obtain ⟨rfl, -⟩ := List.cons.inj h
        exact hb
      | cons c pre =>
        obtain ⟨rfl, hrest⟩ := List.cons.inj h
        exact ih.mp hl pre a post hrest
    · intro h
      refine ⟨h [] b l rfl, ih.mpr fun pre a post hl => ?_⟩
      exact h (b :: pre) a post (congrArg (b :: ·) hl)

/-- What holds of an element in every state. -/
theorem along_of_forall {s : S} {l : List α} (h : ∀ a ∈ l, ∀ s, P s a) : Along next P s l := by
  induction l generalizing s with
  | nil => trivial
  | cons a l ih =>
    exact ⟨h a List.mem_cons_self s, ih fun a' ha' => h a' (List.mem_cons_of_mem a ha')⟩

/-- Elements that leave the state alone and for which nothing is asked. -/
theorem along_filter {p : α → Bool} (hp : ∀ a, p a = false → ∀ s, next s a = s ∧ P s a) {s : S}
    {l : List α} : Along next P s (l.filter p) ↔ Along next P s l := by
  induction l generalizing s with
  | nil => exact Iff.rfl
  | cons a l ih =>
    by_cases ha : p a = true
    · rw [List.filter_cons_of_pos ha]
      exact and_congr_right fun _ => ih
    · obtain ⟨hnext, hpa⟩ := hp a (Bool.eq_false_iff.mpr ha) s
      rw [List.filter_cons_of_neg ha, ih]
      show Along next P s l ↔ P s a ∧ Along next P (next s a) l
      rw [hnext]
      exact (and_iff_right hpa).symm

end

end Proc
