/-
  A ledger that takes submissions by number.

  A submission is taken only when it carries the number that comes next, which counts those
  `committed` in blocks and those still `pending`.  Whoever asks is told how many are committed.
  Any number of clients ask and submit, in any order, and blocks come when they come; a submission
  may also be refused for reasons of its own.

  A client is prompt when each of its submissions carries the number that it was told since its
  submission before.  Such a number is at most `committed`, so a submission that is taken has found
  nothing pending (`pending_of_taken`).  Hence prompt clients, however many, have one submission
  pending at a time, and get one taken for each block that is not empty, and one more
  (`prompt_paced`).
-/
import Mathlib.Data.List.Induction
import OffChainWorker.Lib.Lists
import OffChainWorker.Lib.Machine

namespace Proc

/-- `taken` counts the submissions that were taken and `blocks` the blocks with something in them;
    no step reads them. -/
structure Ledger where
  committed : Nat
  pending : Nat
  taken : Nat
  blocks : Nat
deriving Repr, DecidableEq

namespace Ledger

inductive Op (ι : Type) where
  /-- The client is told how many submissions are committed. -/
  | ask (client : ι) (n : Nat)
  /-- The client submits with the number `n`. -/
  | submit (client : ι) (n : Nat) (taken : Bool)
  /-- A block commits so many of the pending submissions. -/
  | block (size : Nat)
deriving DecidableEq

def start (committed pending : Nat) : Ledger := ⟨committed, pending, 0, 0⟩

/-- The number that comes next. -/
def next (l : Ledger) : Nat := l.committed + l.pending

variable {ι : Type}

def step (l : Ledger) : Op ι → Option Ledger
  | .ask _ n => if n = l.committed then some l else none
  | .submit _ n true =>
    if n = l.next then some { l with pending := l.pending + 1, taken := l.taken + 1 } else none
  | .submit _ _ false => some l
  | .block size =>
    if size ≤ l.pending then
      some { l with
        committed := l.committed + size
        pending := l.pending - size
        blocks := l.blocks + min size 1 }
    else none

/-- The ledger from the time when one starts to count. -/
def machine (ι : Type) : Machine Ledger (Op ι) where
  init l := ∃ committed pending, l = start committed pending
  step := step

/-! ## What a step can do -/

inductive Step (l : Ledger) : Op ι → Ledger → Prop where
  | ask {i} : Step l (.ask i l.committed) l
  | taken {i} : Step l (.submit i l.next true)
      { l with pending := l.pending + 1, taken := l.taken + 1 }
  | refused {i n} : Step l (.submit i n false) l
  | block {size} (hsize : size ≤ l.pending) : Step l (.block size)
      { l with
        committed := l.committed + size
        pending := l.pending - size
        blocks := l.blocks + min size 1 }

theorem step_cases {l l' : Ledger} {op : Op ι} (h : step l op = some l') : Step l op l' := by
  cases op with
  | ask i n =>
    obtain ⟨rfl, hl⟩ := Option.ite_none_right_eq_some.mp h
    obtain rfl := Option.some.inj hl
    exact .ask
  | submit i n taken =>
    cases taken with
    | true =>
      obtain ⟨rfl, hl⟩ := Option.ite_none_right_eq_some.mp h
      obtain rfl := Option.some.inj hl
      exact .taken
    | false =>
      obtain rfl := Option.some.inj h
      exact .refused
  | block size =>
    obtain ⟨hsize, hl⟩ := Option.ite_none_right_eq_some.mp h
    obtain rfl := Option.some.inj hl
    exact .block hsize

/-! ## What was told -/

variable {l₀ l l' : Ledger} {ops : List (Op ι)}

/-- Nothing is uncommitted or given back, and the next number moves with what is taken. -/
def Grows (l l' : Ledger) : Prop :=
  l.committed ≤ l'.committed ∧ l.taken ≤ l'.taken ∧ l'.next + l.taken = l.next + l'.taken

theorem grows_step {op : Op ι} (h : Step l op l') : Grows l l' := by
  unfold Grows next
  cases h with
  | ask => exact ⟨Nat.le_refl _, Nat.le_refl _, rfl⟩
  | taken => exact ⟨Nat.le_refl _, Nat.le_add_right _ _, by simp only; omega⟩
  | refused => exact ⟨Nat.le_refl _, Nat.le_refl _, rfl⟩
  | block hsize => exact ⟨Nat.le_add_right _ _, Nat.le_refl _, by simp only; omega⟩

theorem grows_exec (h : (machine ι).exec l ops = some l') : Grows l l' := by
  refine (Machine.exec_rel (I := fun _ => True) (R := Grows) (fun l => ?_) (fun h h' => ?_)
    (fun s op t _ ht => ⟨trivial, grows_step (step_cases ht)⟩) trivial h).2
  · exact ⟨Nat.le_refl _, Nat.le_refl _, rfl⟩
  · unfold Grows at h h' ⊢
    omega

/-- A number that was told is the next one exactly as long as nothing was pending and nothing is
    taken. -/
theorem told_next {i : ι} {n : Nat} (h : (machine ι).exec l (.ask i n :: ops) = some l') :
    n ≤ l'.committed ∧ (n = l'.next ↔ l.pending = 0 ∧ l'.taken = l.taken) := by
  rw [Machine.exec_cons] at h
  obtain ⟨u, hu, hrest⟩ := Option.bind_eq_some_iff.mp h
  obtain ⟨rfl, hl⟩ := Option.ite_none_right_eq_some.mp hu
  obtain rfl := Option.some.inj hl
  obtain ⟨hcommitted, htaken, hnext⟩ := grows_exec hrest
  refine ⟨hcommitted, ?_⟩
  unfold next at *
  omega

/-! ## The pace -/

/-- At most one submission more is taken than there are blocks, and no more are pending than were,
    or one. -/
def Paced (l l' : Ledger) : Prop :=
  l'.taken + l.blocks + min l.pending 1 ≤ l'.blocks + l.taken + min l'.pending 1 ∧
    l'.pending ≤ max l.pending 1

theorem paced_step {op : Op ι} (h : Step l op l')
    (hfound : ∀ i n, op = .submit i n true → l.pending = 0) : Paced l l' := by
  unfold Paced
  cases h with
  | ask => omega
  | @taken i =>
    have hnone := hfound i _ rfl
    simp only
    omega
  | refused => omega
  | block hsize =>
    simp only
    omega

/-! ## Prompt clients -/

variable [DecidableEq ι]

/-- What the client was told, if it has not submitted since. -/
def toldAfter (i : ι) (told : Option Nat) : Op ι → Option Nat
  | .ask j n => if j = i then some n else told
  | .submit j _ _ => if j = i then none else told
  | .block _ => told

/-- A submission of the client carries what it was told. -/
def AsTold (i : ι) (told : Option Nat) (op : Op ι) : Prop :=
  ∀ n taken, op = .submit i n taken → told = some n

/-- All of its submissions do. -/
def Prompt (i : ι) (ops : List (Op ι)) : Prop := Along (toldAfter i) (AsTold i) none ops

/-- The operation is the client's. -/
def Op.isOf (i : ι) : Op ι → Bool
  | .ask j _ => j = i
  | .submit j _ _ => j = i
  | .block _ => false

/-- Only what the client does itself counts. -/
theorem prompt_filter (i : ι) (ops : List (Op ι)) :
    Prompt i (ops.filter (Op.isOf i)) ↔ Prompt i ops := by
  refine along_filter fun op hop told => ?_
  cases op with
  | ask j n => exact ⟨if_neg (of_decide_eq_false hop), nofun⟩
  | submit j n taken =>
    refine ⟨if_neg (of_decide_eq_false hop), fun n' taken' heq => ?_⟩
    obtain ⟨rfl, -, -⟩ := Op.submit.inj heq
    exact absurd rfl (of_decide_eq_false hop)
  | block size => exact ⟨rfl, nofun⟩

/-- What was told was told in some answer, with no submission of the client's after it. -/
theorem told_split {i : ι} {n : Nat} {ops : List (Op ι)}
    (h : ops.foldl (toldAfter i) none = some n) :
    ∃ before after, ops = before ++ .ask i n :: after ∧
      ∀ n' taken, .submit i n' taken ∉ after := by
  induction ops using List.reverseRecOn with
  | nil => cases h
  | append_singleton ops op ih =>
    rw [List.foldl_append] at h
    -- either the last operation told it, or it left what was told before
    have hlater : ops.foldl (toldAfter i) none = some n → (∀ n' taken, op ≠ .submit i n' taken) →
        ∃ before after, ops ++ [op] = before ++ .ask i n :: after ∧
          ∀ n' taken, .submit i n' taken ∉ after := by
      intro hops hop
      obtain ⟨before, after, rfl, hafter⟩ := ih hops
      refine ⟨before, after ++ [op], by simp, fun n' taken hmem => ?_⟩
      rcases List.mem_append.mp hmem with hmem | hmem
      · exact hafter n' taken hmem
      · exact hop n' taken (List.mem_singleton.mp hmem).symm
    cases op with
    | ask j m =>
      by_cases hj : j = i
      · subst hj
        have hm : (if j = j then some m else ops.foldl (toldAfter j) none) = some n := h
        rw [if_pos rfl] at hm
        obtain rfl := Option.some.inj hm
        exact ⟨ops, [], rfl, fun _ _ => List.not_mem_nil⟩
      · exact hlater ((if_neg hj).symm.trans h) nofun
    | submit j m taken =>
      by_cases hj : j = i
      · exact absurd ((if_pos hj).symm.trans h) nofun
      · refine hlater ((if_neg hj).symm.trans h) fun n' taken' heq => ?_
        exact hj (Op.submit.inj heq).1
    | block size => exact hlater h nofun

/-- Every submission of a prompt client has an answer in front of it. -/
theorem Prompt.told {i : ι} {n : Nat} {taken : Bool} {before after : List (Op ι)}
    (h : Prompt i (before ++ .submit i n taken :: after)) :
    ∃ before' since, before = before' ++ .ask i n :: since ∧
      ∀ n' taken', .submit i n' taken' ∉ since :=
  told_split (along_iff.mp h before _ after rfl n taken rfl)

/-- **A submission that is taken has found nothing pending.** -/
theorem pending_of_taken {i : ι} {n : Nat} {before after : List (Op ι)}
    (hprompt : Prompt i (before ++ .submit i n true :: after))
    (hbefore : (machine ι).exec l before = some l') (hnext : n = l'.next) :
    l'.pending = 0 := by
  obtain ⟨before', since, rfl, -⟩ := hprompt.told
  rw [Machine.exec_append] at hbefore
  obtain ⟨u, -, hsince⟩ := Option.bind_eq_some_iff.mp hbefore
  have hle := (told_next hsince).1
  unfold next at hnext
  omega

/-- **Run lemma.**  A stretch of a history whose clients are all prompt. -/
theorem prompt_paced {before mid after : List (Op ι)}
    (hprompt : ∀ i, Prompt i (before ++ mid ++ after))
    (hbefore : (machine ι).exec l₀ before = some l)
    (hmid : (machine ι).exec l mid = some l') : Paced l l' := by
  refine Machine.exec_rel_places (R := Paced)
    (C := fun s op => ∀ i n, op = .submit i n true → s.pending = 0) (fun l => ?_)
    (fun h h' => ?_) (fun s op t hc ht => paced_step (step_cases ht) hc)
    (fun mid₁ op mid₂ u v hplace hu hv i n hop => ?_) hmid
  · unfold Paced
    omega
  · unfold Paced at h h' ⊢
    omega
  · subst hop hplace
    have hwhole : (machine ι).exec l₀ (before ++ mid₁) = some u := by
      rw [Machine.exec_append, hbefore]
      exact hu
    obtain ⟨hnext, -⟩ := Option.ite_none_right_eq_some.mp hv
    have hi := hprompt i
    rw [show before ++ (mid₁ ++ .submit i n true :: mid₂) ++ after =
      (before ++ mid₁) ++ .submit i n true :: (mid₂ ++ after) by simp] at hi
    exact pending_of_taken hi hwhole hnext

end Ledger
end Proc
