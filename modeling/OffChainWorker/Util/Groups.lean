/-
  What `try_group_while` yields, said without its states.

  An input falls into error-free segments, each but the last with the error that ends it
  (`segments`).  A segment is split into maximal runs of elements that belong together, which is
  `List.splitBy`: the runs join to the segment, none is empty, neighbours inside a run satisfy the
  predicate, and the last of a run and the first of the next do not.  The last run before an error
  is cut once more, in front of its last element (`cutLast`).

  `tryGroupWhile_eq_grouping` says that the generator yields exactly these groups.  It is an
  induction on the input, with the unfinished group of the state in front of the input that is
  left: as long as the state is one run, moving it there changes nothing.
-/
import Mathlib.Data.List.SplitBy
import OffChainWorker.Util.Stream

namespace OffChainWorker

variable {A E : Type}

/-! ## Segments -/

/-- Put elements in front of the first segment. -/
def extend (w : List A) : List (List A × E) × List A → List (List A × E) × List A
  | ([], last) => ([], w ++ last)
  | ((seg, e) :: segs, last) => ((w ++ seg, e) :: segs, last)

/-- The error-free segments that end with an error, each with that error, and the one after the
    last error. -/
def segments : List (Except E A) → List (List A × E) × List A
  | [] => ([], [])
  | .ok x :: xs => extend [x] (segments xs)
  | .error e :: xs => (([], e) :: (segments xs).1, (segments xs).2)

/-- The input that has these segments. -/
def joinSegments (s : List (List A × E) × List A) : List (Except E A) :=
  s.1.flatMap (fun seg => seg.1.map .ok ++ [.error seg.2]) ++ s.2.map .ok

theorem joinSegments_extend (w : List A) (s : List (List A × E) × List A) :
    joinSegments (extend w s) = w.map .ok ++ joinSegments s := by
  obtain ⟨segs, last⟩ := s
  cases segs with
  | nil => simp [extend, joinSegments]
  | cons seg segs => simp [extend, joinSegments]

/-- The segments make up the input. -/
theorem joinSegments_segments (xs : List (Except E A)) : joinSegments (segments xs) = xs := by
  induction xs with
  | nil => rfl
  | cons x xs ih =>
    cases x with
    | ok x => rw [segments, joinSegments_extend, ih]; rfl
    | error e =>
      show .error e :: joinSegments (segments xs) = .error e :: xs
      rw [ih]

theorem extend_append (w w' : List A) (s : List (List A × E) × List A) :
    extend (w ++ w') s = extend w (extend w' s) := by
  obtain ⟨segs, last⟩ := s
  cases segs <;> simp [extend]

theorem extend_nil (s : List (List A × E) × List A) : extend [] s = s := by
  obtain ⟨segs, last⟩ := s
  cases segs <;> rfl

theorem segments_append_ok (w : List A) (xs : List (Except E A)) :
    segments (w.map .ok ++ xs) = extend w (segments xs) := by
  induction w with
  | nil => exact (extend_nil _).symm
  | cons x w ih =>
    rw [List.map_cons, List.cons_append, segments, ih, ← extend_append]
    rfl

/-! ## Groups -/

/-- The run that an error ends: what comes before its last element, if anything, and that
    element. -/
def cutRun (run : List A) : List (List A) :=
  (if run.dropLast.isEmpty then [] else [run.dropLast]) ++ run.getLast?.toList.map fun x => [x]

/-- The runs of a segment that an error ends. -/
def cutLast : List (List A) → List (List A)
  | [] => []
  | [run] => cutRun run
  | run :: runs => run :: cutLast runs

/-- The groups of an input, with its errors in between. -/
def grouping (groupThese : A → A → Bool) (input : List (Except E A)) :
    List (Except E (List A)) :=
  (segments input).1.flatMap
      (fun seg => (cutLast (seg.1.splitBy groupThese)).map .ok ++ [.error seg.2])
    ++ ((segments input).2.splitBy groupThese).map .ok

/-- Elements that belong together, each with the next. -/
def IsRun (groupThese : A → A → Bool) (w : List A) : Prop := w.IsChain fun x y => groupThese x y

variable {groupThese : A → A → Bool}

theorem cutLast_cons (run : List A) {runs : List (List A)} (h : runs ≠ []) :
    cutLast (run :: runs) = run :: cutLast runs := by
  cases runs with
  | nil => exact absurd rfl h
  | cons r rs => rfl

/-- What is left of the input is one run. -/
theorem grouping_run {w : List A} (hw : IsRun groupThese w) :
    (grouping groupThese (w.map .ok) : List (Except E (List A))) =
      if w = [] then [] else [.ok w] := by
  have hseg : segments (w.map (Except.ok (ε := E))) = ([], w) := by
    simpa [segments, extend] using segments_append_ok w ([] : List (Except E A))
  unfold grouping
  rw [hseg]
  split
  · rename_i hnil
    rw [hnil]
    rfl
  · rename_i hne
    rw [List.splitBy_of_isChain hne hw]
    rfl

/-- A run in front of an element that does not belong to it is a group. -/
theorem grouping_boundary {w : List A} {x : A} (hw : IsRun groupThese w) (hne : w ≠ [])
    (hx : ∀ y ∈ w.getLast?, groupThese y x = false) (xs : List (Except E A)) :
    grouping groupThese (w.map .ok ++ .ok x :: xs) =
      .ok w :: grouping groupThese (.ok x :: xs) := by
  have hsplit : ∀ l : List A,
      (w ++ x :: l).splitBy groupThese = w :: (x :: l).splitBy groupThese := by
    intro l
    rw [List.splitBy_append_cons l hx, List.splitBy_of_isChain hne hw]
    rfl
  unfold grouping
  rw [segments_append_ok, segments]
  obtain ⟨segs, last⟩ := segments xs
  cases segs with
  | nil =>
    simp only [extend, List.flatMap_nil, List.nil_append, List.singleton_append]
    rw [hsplit]
    rfl
  | cons seg segs =>
    have hruns : (x :: seg.1).splitBy groupThese ≠ [] := List.splitBy_ne_nil.mpr (by simp)
    simp only [extend, List.singleton_append, List.flatMap_cons]
    rw [hsplit, cutLast_cons w hruns]
    rfl

/-- A run in front of an error is cut. -/
theorem grouping_error {w : List A} (hw : IsRun groupThese w) (e : E) (xs : List (Except E A)) :
    grouping groupThese (w.map .ok ++ .error e :: xs) =
      (cutRun w).map .ok ++ .error e :: grouping groupThese xs := by
  have hcut : cutLast (w.splitBy groupThese) = cutRun w := by
    by_cases hne : w = []
    · rw [hne]
      rfl
    · rw [List.splitBy_of_isChain hne hw]
      rfl
  unfold grouping
  rw [segments_append_ok, segments]
  simp only [extend, List.append_nil, List.flatMap_cons]
  rw [hcut]
  simp

/-! ## The unfinished group -/

theorem pending_getLast? (st : GroupState A) : (pending (some st)).getLast? = some st.cur := by
  simp [pending]

theorem isRun_snoc {st : GroupState A} {x : A} (hst : IsRun groupThese (pending (some st)))
    (hx : groupThese st.cur x = true) : IsRun groupThese (pending (some st) ++ [x]) := by
  refine List.IsChain.append hst (List.IsChain.singleton x) ?_
  intro y hy z hz
  rw [pending_getLast?] at hy
  obtain rfl := Option.some.inj hy
  obtain rfl := Option.some.inj hz
  exact hx

/-- **Step lemma**: the unfinished group is one run. -/
theorem tryGroupStep_isRun {state : Option (GroupState A)} (x : Except E A)
    (hstate : IsRun groupThese (pending state)) :
    IsRun groupThese (pending (tryGroupStep groupThese state x).1) := by
  cases x with
  | error e => cases state <;> exact List.IsChain.nil
  | ok x =>
    cases state with
    | none => exact List.IsChain.singleton x
    | some st =>
      simp only [tryGroupStep]
      split
      · rename_i hx
        exact isRun_snoc hstate hx
      · exact List.IsChain.singleton x

theorem tryGroupSteps_isRun {state : Option (GroupState A)} (xs : List (Except E A))
    (hstate : IsRun groupThese (pending state)) :
    IsRun groupThese (pending (tryGroupSteps groupThese state xs).1) := by
  induction xs generalizing state with
  | nil => exact hstate
  | cons x xs ih => exact ih (tryGroupStep_isRun x hstate)

/-- **Run lemma**: from any state that is one run, the generator yields the groups of the input
    that is left with the unfinished group in front. -/
theorem tryGroupSteps_grouping {state : Option (GroupState A)} (xs : List (Except E A))
    (hstate : IsRun groupThese (pending state)) :
    (tryGroupSteps groupThese state xs).2 ++ tryGroupEnd (tryGroupSteps groupThese state xs).1
      = grouping groupThese ((pending state).map .ok ++ xs) := by
  induction xs generalizing state with
  | nil =>
    rw [List.append_nil, grouping_run hstate]
    cases state with
    | none => rfl
    | some st => simp [tryGroupSteps, tryGroupEnd, pending]
  | cons x xs ih =>
    have hrest := ih (tryGroupStep_isRun x hstate)
    rw [tryGroupSteps, List.append_assoc, hrest]
    cases x with
    | error e =>
      rw [grouping_error hstate]
      cases state with
      | none => rfl
      | some st =>
        -- the group without its last element is what the state keeps apart from `cur`
        have hcut : cutRun (pending (some st)) =
            (if st.group.isEmpty then [] else [st.group]) ++ [[st.cur]] := by
          simp [pending, cutRun]
        rw [hcut]
        simp only [tryGroupStep]
        split <;> rfl
    | ok x =>
      cases state with
      | none => rfl
      | some st =>
        simp only [tryGroupStep]
        split
        · simp [pending]
        · rename_i hx
          have hboundary : ∀ y ∈ (pending (some st)).getLast?, groupThese y x = false := by
            intro y hy
            rw [pending_getLast?] at hy
            obtain rfl := Option.some.inj hy
            exact Bool.eq_false_iff.mpr hx
          rw [grouping_boundary hstate (by simp [pending]) hboundary]
          rfl

/-! ## What has been consumed is what was yielded and what is pending -/

/-- The items that an output is made of. -/
def ungroup (out : List (Except E (List A))) : List (Except E A) :=
  out.flatMap fun
    | .ok g => g.map .ok
    | .error e => [.error e]

@[simp] theorem ungroup_append (out out' : List (Except E (List A))) :
    ungroup (out ++ out') = ungroup out ++ ungroup out' := List.flatMap_append

/-- **Step lemma**: errors included, nothing is lost, repeated or reordered. -/
theorem tryGroupStep_ungroup (groupThese : A → A → Bool) (state : Option (GroupState A))
    (x : Except E A) :
    ungroup (tryGroupStep groupThese state x).2
        ++ (pending (tryGroupStep groupThese state x).1).map .ok
      = (pending state).map .ok ++ [x] := by
  cases x with
  | ok x =>
    cases state with
    | none => rfl
    | some st =>
      simp only [tryGroupStep]
      split <;> simp [ungroup, pending]
  | error e =>
    cases state with
    | none => rfl
    | some st =>
      simp only [tryGroupStep]
      split
      · rename_i hg
        simp [ungroup, pending, List.isEmpty_iff.mp hg]
      · simp [ungroup, pending]

theorem tryGroupSteps_ungroup (groupThese : A → A → Bool) (state : Option (GroupState A))
    (xs : List (Except E A)) :
    ungroup (tryGroupSteps groupThese state xs).2
        ++ (pending (tryGroupSteps groupThese state xs).1).map .ok
      = (pending state).map .ok ++ xs := by
  induction xs generalizing state with
  | nil => simp [tryGroupSteps, ungroup]
  | cons x xs ih =>
    have hrest := ih (tryGroupStep groupThese state x).1
    have hstep := tryGroupStep_ungroup groupThese state x
    rw [tryGroupSteps, ungroup_append, List.append_assoc, hrest, ← List.append_assoc, hstep,
      List.append_assoc]
    rfl

theorem tryGroupSteps_append (groupThese : A → A → Bool) (state : Option (GroupState A))
    (xs ys : List (Except E A)) :
    tryGroupSteps groupThese state (xs ++ ys) =
      ((tryGroupSteps groupThese (tryGroupSteps groupThese state xs).1 ys).1,
        (tryGroupSteps groupThese state xs).2
          ++ (tryGroupSteps groupThese (tryGroupSteps groupThese state xs).1 ys).2) := by
  induction xs generalizing state with
  | nil => rfl
  | cons x xs ih =>
    rw [List.cons_append, tryGroupSteps, ih, tryGroupSteps]
    simp [List.append_assoc]

/-! ## Headline -/

/-- No group of an input is empty. -/
theorem ne_nil_of_mem_grouping {input : List (Except E A)} {g : List A}
    (hg : .ok g ∈ grouping groupThese input) : g ≠ [] := by
  have hcut : ∀ runs : List (List A), (∀ r ∈ runs, r ≠ []) → ∀ r ∈ cutLast runs, r ≠ [] := by
    intro runs
    induction runs with
    | nil => exact fun _ r hr => absurd hr List.not_mem_nil
    | cons run runs ih =>
      intro hruns r hr
      cases runs with
      | nil =>
        rcases List.mem_append.mp hr with hr | hr
        · split at hr
          · exact absurd hr List.not_mem_nil
          · rename_i hdrop
            rw [List.mem_singleton.mp hr]
            exact fun hnil => hdrop (List.isEmpty_iff.mpr hnil)
        · obtain ⟨x, _, rfl⟩ := List.mem_map.mp hr
          exact List.cons_ne_nil x []
      | cons run' runs =>
        rcases List.mem_cons.mp hr with rfl | hr
        · exact hruns r List.mem_cons_self
        · exact ih (fun r' hr' => hruns r' (List.mem_cons_of_mem run hr')) r hr
  rcases List.mem_append.mp hg with hg | hg
  · obtain ⟨seg, _, hg⟩ := List.mem_flatMap.mp hg
    rcases List.mem_append.mp hg with hg | hg
    · obtain ⟨r, hr, heq⟩ := List.mem_map.mp hg
      obtain rfl := Except.ok.inj heq
      exact hcut _ (fun r' hr' => List.ne_nil_of_mem_splitBy hr') r hr
    · nomatch List.mem_singleton.mp hg
  · obtain ⟨r, hr, heq⟩ := List.mem_map.mp hg
    obtain rfl := Except.ok.inj heq
    exact List.ne_nil_of_mem_splitBy hr

theorem tryGroupWhile_eq_grouping (groupThese : A → A → Bool) (input : List (Except E A)) :
    tryGroupWhile groupThese input = grouping groupThese input :=
  tryGroupSteps_grouping input List.IsChain.nil

/-- **Headline.**  The generator yields the groups of its input, none of them empty and with every
    item once and in order; and after any part of the input, what it has yielded so far and the one
    run that is pending are that part, with nothing pending right after an error. -/
theorem tryGroupWhile_groups (groupThese : A → A → Bool) (input : List (Except E A)) :
    tryGroupWhile groupThese input = grouping groupThese input ∧
      (∀ g, .ok g ∈ tryGroupWhile groupThese input → g ≠ []) ∧
      ungroup (tryGroupWhile groupThese input) = input ∧
      ∀ pre post, input = pre ++ post →
        (tryGroupSteps groupThese none pre).2 <+: tryGroupWhile groupThese input ∧
        ungroup (tryGroupSteps groupThese none pre).2
            ++ (pending (tryGroupSteps groupThese none pre).1).map .ok = pre ∧
        IsRun groupThese (pending (tryGroupSteps groupThese none pre).1) ∧
        ∀ e, pre.getLast? = some (.error e) →
          pending (tryGroupSteps groupThese none pre).1 = [] := by
  have heq := tryGroupWhile_eq_grouping groupThese input
  refine ⟨heq, fun g hg => ne_nil_of_mem_grouping (heq ▸ hg), ?_, ?_⟩
  · have hend : ungroup (tryGroupEnd (tryGroupSteps groupThese none input).1)
        = (pending (tryGroupSteps groupThese none input).1).map (Except.ok (ε := E)) := by
      cases (tryGroupSteps groupThese none input).1 with
      | none => rfl
      | some st => simp [ungroup, tryGroupEnd, pending]
    rw [tryGroupWhile, ungroup_append, hend]
    exact tryGroupSteps_ungroup groupThese none input
  · rintro pre post rfl
    refine ⟨?_, tryGroupSteps_ungroup groupThese none pre,
      tryGroupSteps_isRun pre List.IsChain.nil, fun e he => ?_⟩
    · rw [tryGroupWhile, tryGroupSteps_append]
      exact ⟨_, (List.append_assoc ..).symm⟩
    · obtain ⟨init, rfl⟩ := List.getLast?_eq_some_iff.mp he
      rw [tryGroupSteps_append]
      obtain ⟨groups, hgroups⟩ :=
        tryGroupStep_error groupThese (tryGroupSteps groupThese none init).1 e
      simp [tryGroupSteps, hgroups, pending]

/-- The stream of the source's own test: two runs and an error that cuts the second. -/
example : tryGroupWhile (fun a b => a.1 == b.1)
    [.ok (1, 1), .ok (1, 2), .ok (3, 1), .ok (3, 2), .error (), .ok (3, 3)] =
      [.ok [(1, 1), (1, 2)], .ok [(3, 1)], .ok [(3, 2)], .error (), .ok [(3, 3)]] := by
  decide

end OffChainWorker
