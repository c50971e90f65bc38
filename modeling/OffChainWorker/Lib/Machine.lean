/-
  Labelled machines and their runs.

  A `Machine` is a set of initial states and an executable step function.  All nondeterminism (who
  moves next, what the environment answers) sits in the LABEL, so `step s l` is a plain function
  with `none` for "not enabled here" and a concrete run is a list of labels that `exec` evaluates.

  A property of every run is proved by `ReachableIf.invariant`: it holds initially and one step
  preserves it.  `ReachableIf C` reaches a state only by steps whose label satisfies `C` in the
  state before the step, so "in every run whose steps all meet `C`" is a statement about
  `ReachableIf C`, and `Reachable` is the case of no condition.
-/

namespace Proc

/-- Initial states and an executable, possibly disabled, labelled step. -/
structure Machine (State Label : Type) where
  /-- The states a run may start in. -/
  init : State → Prop
  /-- The state after the labelled step, `none` when the label is not enabled. -/
  step : State → Label → Option State

namespace Machine

variable {State Label : Type} {M : Machine State Label}

/-! ## Runs whose steps all meet a condition -/

/-- The states reached by runs all of whose steps `(s, l)` meet `C`. -/
inductive ReachableIf (M : Machine State Label) (C : State → Label → Prop) : State → Prop where
  | init {s} (h : M.init s) : ReachableIf M C s
  | step {s l t} (hs : ReachableIf M C s) (hc : C s l) (ht : M.step s l = some t) :
      ReachableIf M C t

/-- The states reached by any run. -/
def Reachable (M : Machine State Label) : State → Prop := M.ReachableIf fun _ _ => True

theorem ReachableIf.mono {C D : State → Label → Prop} (hCD : ∀ s l, C s l → D s l) {s : State}
    (h : M.ReachableIf C s) : M.ReachableIf D s := by
  induction h with
  | init h => exact .init h
  | step _ hc ht ih => exact .step ih (hCD _ _ hc) ht

theorem ReachableIf.reachable {C : State → Label → Prop} {s : State} (h : M.ReachableIf C s) :
    M.Reachable s :=
  h.mono fun _ _ _ => trivial

theorem Reachable.step {s t : State} {l : Label} (h : M.Reachable s) (ht : M.step s l = some t) :
    M.Reachable t :=
  ReachableIf.step h trivial ht

/-! ## The invariant rules -/

/-- **Invariant rule**: what holds initially and is kept by every step that meets `C` holds in
    every state of every run whose steps meet `C`. -/
theorem ReachableIf.invariant {C : State → Label → Prop} {I : State → Prop}
    (h0 : ∀ s, M.init s → I s)
    (hstep : ∀ s l t, I s → C s l → M.step s l = some t → I t)
    {s : State} (h : M.ReachableIf C s) : I s := by
  induction h with
  | init h => exact h0 _ h
  | step _ hc ht ih => exact hstep _ _ _ ih hc ht

/-- The invariant rule with an invariant `J` that is already known of every run. -/
theorem ReachableIf.invariant_with {C : State → Label → Prop} {J I : State → Prop}
    (hJ : ∀ s, M.Reachable s → J s) (h0 : ∀ s, M.init s → I s)
    (hstep : ∀ s l t, J s → I s → C s l → M.step s l = some t → I t)
    {s : State} (h : M.ReachableIf C s) : I s := by
  induction h with
  | init h => exact h0 _ h
  | step hs hc ht ih => exact hstep _ _ _ (hJ _ hs.reachable) ih hc ht

/-- The invariant rule for unrestricted runs. -/
theorem Reachable.invariant {I : State → Prop} (h0 : ∀ s, M.init s → I s)
    (hstep : ∀ s l t, I s → M.step s l = some t → I t) {s : State} (h : M.Reachable s) : I s :=
  ReachableIf.invariant h0 (fun s l t hi _ ht => hstep s l t hi ht) h

/-! ## Concrete runs -/

/-- Run a list of labels; `none` as soon as one of them is not enabled or its step fails `C`. -/
def execIf (M : Machine State Label) (C : State → Label → Prop) [∀ s l, Decidable (C s l)] :
    State → List Label → Option State
  | s, [] => some s
  | s, l :: ls => if C s l then (M.step s l).bind fun t => M.execIf C t ls else none

/-- Run a list of labels; `none` as soon as one of them is not enabled. -/
def exec (M : Machine State Label) : State → List Label → Option State :=
  M.execIf fun _ _ => True

theorem exec_cons (s : State) (l : Label) (ls : List Label) :
    M.exec s (l :: ls) = (M.step s l).bind fun t => M.exec t ls := by
  simp [exec, execIf]

theorem exec_append (s : State) (ls ls' : List Label) :
    M.exec s (ls ++ ls') = (M.exec s ls).bind fun t => M.exec t ls' := by
  induction ls generalizing s with
  | nil => rfl
  | cons l ls ih =>
    rw [List.cons_append, exec_cons, exec_cons, Option.bind_assoc]
    exact congrArg _ (funext fun t => ih t)

/-- An executed run reaches its last state. -/
theorem execIf_reachableIf {C : State → Label → Prop} [∀ s l, Decidable (C s l)] {s t : State}
    {ls : List Label} (hs : M.ReachableIf C s) (h : M.execIf C s ls = some t) :
    M.ReachableIf C t := by
  induction ls generalizing s with
  | nil =>
    obtain rfl : s = t := Option.some.inj h
    exact hs
  | cons l ls ih =>
    obtain ⟨hc, h⟩ := Option.ite_none_right_eq_some.mp h
    obtain ⟨u, hu, hrest⟩ := Option.bind_eq_some_iff.mp h
    exact ih (.step hs hc hu) hrest

theorem exec_reachable {s t : State} {ls : List Label} (hs : M.Reachable s)
    (h : M.exec s ls = some t) : M.Reachable t :=
  execIf_reachableIf hs h

/-! ## Progress -/

/-- **Progress rule**: when a state with the invariant `I` that is not `done` has an enabled step
    with a label in `P` that leaves a smaller `measure`, then steps with labels in `P` lead to a
    state that is.  `R` relates the states on the way, for what the steps leave as it is. -/
theorem exec_done {I done : State → Prop} {P : Label → Prop} {R : State → State → Prop}
    (measure : State → Nat) (hrefl : ∀ s, R s s) (htrans : ∀ {s t u}, R s t → R t u → R s u)
    (hstep : ∀ s, I s → ¬ done s →
      ∃ l t, P l ∧ M.step s l = some t ∧ I t ∧ R s t ∧ measure t < measure s)
    {s : State} (hs : I s) :
    ∃ ls t, (∀ l ∈ ls, P l) ∧ M.exec s ls = some t ∧ I t ∧ R s t ∧ done t := by
  induction hn : measure s using Nat.strongRecOn generalizing s with
  | ind n ih =>
    by_cases hdone : done s
    · exact ⟨[], s, nofun, rfl, hs, hrefl s, hdone⟩
    · obtain ⟨l, u, hl, hu, hiu, hsu, hlt⟩ := hstep s hs hdone
      obtain ⟨ls, t, hls, hexec, hit, hut, hdone⟩ := ih (measure u) (hn ▸ hlt) hiu rfl
      refine ⟨l :: ls, t, ?_, ?_, hit, htrans hsu hut, hdone⟩
      · intro l' hl'
        rcases List.mem_cons.mp hl' with rfl | hl'
        · exact hl
        · exact hls l' hl'
      · rw [exec_cons, hu]
        exact hexec

/-! ## What a run can come to -/

/-- Steps with labels in `P` can lead from `s` to a state that is `done`. -/
def CanReach (M : Machine State Label) (P : Label → Prop) (done : State → Prop) (s : State) :
    Prop :=
  ∃ ls t, (∀ l ∈ ls, P l) ∧ M.exec s ls = some t ∧ done t

section
variable {P : Label → Prop} {done : State → Prop} {s t : State}

theorem CanReach.here (h : done s) : M.CanReach P done s := ⟨[], s, nofun, rfl, h⟩

theorem CanReach.after {ls : List Label} (hls : ∀ l ∈ ls, P l) (ht : M.exec s ls = some t)
    (h : M.CanReach P done t) : M.CanReach P done s := by
  obtain ⟨ls', u, hls', hu, hdone⟩ := h
  refine ⟨ls ++ ls', u, fun l hl => ?_, by rw [exec_append, ht]; exact hu, hdone⟩
  rcases List.mem_append.mp hl with hl | hl
  · exact hls l hl
  · exact hls' l hl

theorem CanReach.step {l : Label} (hl : P l) (ht : M.step s l = some t)
    (h : M.CanReach P done t) : M.CanReach P done s := by
  have hexec : M.exec s [l] = some t := by
    rw [exec_cons, ht]
    rfl
  refine .after (fun l' hl' => ?_) hexec h
  rw [List.mem_singleton.mp hl']
  exact hl

/-- **Exclusion rule**: what the steps in `P` keep and excludes `done` shuts it out for ever. -/
theorem CanReach.excluded {I : State → Prop}
    (hstep : ∀ s l t, I s → P l → M.step s l = some t → I t) (hdone : ∀ s, I s → ¬ done s)
    (hs : I s) : ¬ M.CanReach P done s := by
  rintro ⟨ls, t, hls, hexec, h⟩
  induction ls generalizing s with
  | nil =>
    obtain rfl : s = t := Option.some.inj hexec
    exact hdone s hs h
  | cons l ls ih =>
    rw [exec_cons] at hexec
    obtain ⟨u, hu, hrest⟩ := Option.bind_eq_some_iff.mp hexec
    exact ih (hstep s l u hs (hls l List.mem_cons_self) hu)
      (fun l' hl' => hls l' (List.mem_cons_of_mem l hl')) hrest

end

/-! ## What a run can cost -/

/-- **Relation rule**: what one step keeps, a run keeps. -/
theorem exec_rel {I : State → Prop} {R : State → State → Prop} (hrefl : ∀ s, R s s)
    (htrans : ∀ {s t u}, R s t → R t u → R s u)
    (hstep : ∀ s l t, I s → M.step s l = some t → I t ∧ R s t) {s t : State} {ls : List Label}
    (hs : I s) (h : M.exec s ls = some t) : I t ∧ R s t := by
  induction ls generalizing s with
  | nil =>
    obtain rfl : s = t := Option.some.inj h
    exact ⟨hs, hrefl s⟩
  | cons l ls ih =>
    rw [exec_cons] at h
    obtain ⟨u, hu, hrest⟩ := Option.bind_eq_some_iff.mp h
    obtain ⟨hiu, hsu⟩ := hstep s l u hs hu
    obtain ⟨hit, hut⟩ := ih hiu hrest
    exact ⟨hit, htrans hsu hut⟩

/-- **Relation rule** for steps of which something is known at their places in the run. -/
theorem exec_rel_places {R : State → State → Prop} {C : State → Label → Prop}
    (hrefl : ∀ s, R s s) (htrans : ∀ {s t u}, R s t → R t u → R s u)
    (hstep : ∀ s l t, C s l → M.step s l = some t → R s t) {s t : State} {ls : List Label}
    (hplaces : ∀ before l after u v, ls = before ++ l :: after → M.exec s before = some u →
      M.step u l = some v → C u l)
    (h : M.exec s ls = some t) : R s t := by
  induction ls generalizing s with
  | nil =>
    obtain rfl : s = t := Option.some.inj h
    exact hrefl s
  | cons l ls ih =>
    rw [exec_cons] at h
    obtain ⟨u, hu, hrest⟩ := Option.bind_eq_some_iff.mp h
    have hsu := hstep s l u (hplaces [] l ls s u rfl rfl hu) hu
    refine htrans hsu (ih (fun before l' after v w hls hv hw => ?_) hrest)
    refine hplaces (l :: before) l' after v w (congrArg (l :: ·) hls) ?_ hw
    rw [exec_cons, hu]
    exact hv

/-- **Balance rule**: when every step with a label in `P` uses up some of the `budget`, and only
    steps with a label in `Q` add to it, a run has no more steps in `P` than its first state has
    budget and its steps in `Q` add. -/
theorem exec_balance {I : State → Prop} {P Q : Label → Bool} (budget : State → Nat)
    (hstep : ∀ s l t, I s → M.step s l = some t →
      I t ∧ budget t + (if P l then 1 else 0) ≤ budget s + if Q l then 1 else 0)
    {s t : State} {ls : List Label} (hs : I s) (h : M.exec s ls = some t) :
    I t ∧ budget t + ls.countP P ≤ budget s + ls.countP Q := by
  induction ls generalizing s with
  | nil =>
    obtain rfl : s = t := Option.some.inj h
    exact ⟨hs, Nat.le_refl _⟩
  | cons l ls ih =>
    rw [exec_cons] at h
    obtain ⟨u, hu, hrest⟩ := Option.bind_eq_some_iff.mp h
    obtain ⟨hiu, hle⟩ := hstep s l u hs hu
    obtain ⟨hit, hrest⟩ := ih hiu hrest
    refine ⟨hit, ?_⟩
    rw [List.countP_cons, List.countP_cons]
    omega

/-- **Cost rule**: when no step adds to the budget. -/
theorem exec_cost {I : State → Prop} {P : Label → Bool} (budget : State → Nat)
    (hstep : ∀ s l t, I s → M.step s l = some t →
      I t ∧ budget t + (if P l then 1 else 0) ≤ budget s)
    {s t : State} {ls : List Label} (hs : I s) (h : M.exec s ls = some t) :
    I t ∧ budget t + ls.countP P ≤ budget s := by
  have hbalance := exec_balance (Q := fun _ => false) budget hstep hs h
  rw [List.countP_false] at hbalance
  exact hbalance

/-! ## The same machine on a larger state -/

/-- `M` runs as `M'` does, on a state of which `M'` sees the part `f`. -/
structure Maps {State' : Type} (f : State → State') (M : Machine State Label)
    (M' : Machine State' Label) : Prop where
  init : ∀ s', M'.init s' ↔ ∃ s, M.init s ∧ f s = s'
  step : ∀ s l, M'.step (f s) l = (M.step s l).map f

/-- What the smaller machine reaches are the parts of what the larger one reaches. -/
theorem Maps.reachable_iff {State' : Type} {f : State → State'} {M' : Machine State' Label}
    (h : Maps f M M') {s' : State'} : M'.Reachable s' ↔ ∃ s, M.Reachable s ∧ f s = s' := by
  constructor
  · intro hs'
    induction hs' with
    | init h0 =>
      obtain ⟨s, hs, rfl⟩ := (h.init _).mp h0
      exact ⟨s, .init hs, rfl⟩
    | step _ _ ht ih =>
      obtain ⟨s, hs, rfl⟩ := ih
      rw [h.step] at ht
      obtain ⟨t, hstep, rfl⟩ := Option.map_eq_some_iff.mp ht
      exact ⟨t, hs.step hstep, rfl⟩
  · rintro ⟨s, hs, rfl⟩
    induction hs with
    | init h0 => exact .init ((h.init _).mpr ⟨_, h0, rfl⟩)
    | @step s l t _ _ ht ih =>
      refine Reachable.step (l := l) ih ?_
      rw [h.step, ht]
      rfl

/-- `M` next to a record of its run, which no step reads: `note r s l` is the record `r` after the
    step `l` from `s`. -/
def recording {R : Type} (M : Machine State Label) (r₀ : R) (note : R → State → Label → R) :
    Machine (State × R) Label where
  init p := M.init p.1 ∧ p.2 = r₀
  step p l := (M.step p.1 l).map fun t => (t, note p.2 p.1 l)

section
variable {R : Type} {r₀ : R} {note : R → State → Label → R}

/-- Recording changes nothing. -/
theorem recording_maps : Maps Prod.fst (M.recording r₀ note) M where
  init s := by
    constructor
    · exact fun h => ⟨(s, r₀), ⟨h, rfl⟩, rfl⟩
    · rintro ⟨p, h, rfl⟩
      exact h.1
  step p l := by
    show M.step p.1 l = ((M.step p.1 l).map _).map Prod.fst
    rw [Option.map_map]
    exact Option.map_id'.symm

/-- **Invariant rule** for a run and its record, with an invariant `J` of all runs. -/
theorem recording_invariant {C : State → Label → Prop} {J : State → Prop} {I : State → R → Prop}
    (hJ : ∀ s, M.Reachable s → J s) (h0 : ∀ s, M.init s → I s r₀)
    (hstep : ∀ s r l t, J s → I s r → C s l → M.step s l = some t → I t (note r s l))
    {p : State × R} (h : (M.recording r₀ note).ReachableIf (fun p l => C p.1 l) p) :
    I p.1 p.2 := by
  refine ReachableIf.invariant_with (J := fun p => J p.1) (I := fun p => I p.1 p.2)
    (fun p hp => ?_) (fun p hp => ?_) (fun p l q hj hi hc ht => ?_) h
  · exact hJ _ (recording_maps.reachable_iff.mpr ⟨p, hp, rfl⟩)
  · obtain ⟨hinit, hr⟩ := hp
    rw [hr]
    exact h0 _ hinit
  · obtain ⟨t, hstepped, rfl⟩ := Option.map_eq_some_iff.mp ht
    exact hstep _ _ _ _ hj hi hc hstepped

end

end Machine
end Proc
