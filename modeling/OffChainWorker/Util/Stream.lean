/-
  Grouping a stream of results: `try_group_while` (`src/util/stream.rs`).

  The generator keeps at most one unfinished group, `State { cur, group }`, and is modelled by its
  step on one input item (`tryGroupStep`: the new state and what it yields, in order) and by what it
  yields when the input ends (`tryGroupEnd`).  Nothing is lost or reordered by a step: what was
  pending plus the new item is what it yields plus what is then pending (`tryGroupStep_conserves`),
  and an error leaves nothing pending (`tryGroupStep_error`).
-/

namespace OffChainWorker

variable {A E : Type}

/-- The unfinished group of the generator: its last element and the ones before it. -/
structure GroupState (A : Type) where
  cur : A
  group : List A
deriving Repr, DecidableEq

/-- One turn of the `for await` loop. -/
def tryGroupStep (groupThese : A → A → Bool) (state : Option (GroupState A)) :
    Except E A → Option (GroupState A) × List (Except E (List A))
  | .ok x =>
    match state with
    | none => (some ⟨x, []⟩, [])
    | some st =>
      -- the previous element joins the group, and `x` takes its place
      if groupThese st.cur x then (some ⟨x, st.group ++ [st.cur]⟩, [])
      else (some ⟨x, []⟩, [.ok (st.group ++ [st.cur])])
  | .error e =>
    match state with
    | none => (none, [.error e])
    | some st =>
      (none, (if st.group.isEmpty then [] else [.ok st.group]) ++ [.ok [st.cur], .error e])

/-- What the generator yields after its loop. -/
def tryGroupEnd : Option (GroupState A) → List (Except E (List A))
  | none => []
  | some st => [.ok (st.group ++ [st.cur])]

/-- The turns of the loop over a list of input items. -/
def tryGroupSteps (groupThese : A → A → Bool) :
    Option (GroupState A) → List (Except E A) → Option (GroupState A) × List (Except E (List A))
  | state, [] => (state, [])
  | state, x :: xs =>
    let r := tryGroupStep groupThese state x
    let rest := tryGroupSteps groupThese r.1 xs
    (rest.1, r.2 ++ rest.2)

/-- `try_group_while` on a finished input. -/
def tryGroupWhile (groupThese : A → A → Bool) (input : List (Except E A)) :
    List (Except E (List A)) :=
  let r := tryGroupSteps groupThese none input
  r.2 ++ tryGroupEnd r.1

/-! ## What is pending and what is yielded -/

/-- The elements held back in the state. -/
def pending : Option (GroupState A) → List A
  | none => []
  | some st => st.group ++ [st.cur]

/-- The element of an input item, if it is one. -/
def itemOf : Except E A → List A
  | .ok x => [x]
  | .error _ => []

/-- The elements in the groups of an output. -/
def yielded : List (Except E (List A)) → List A
  | [] => []
  | .ok g :: out => g ++ yielded out
  | .error _ :: out => yielded out

@[simp] theorem yielded_append (out out' : List (Except E (List A))) :
    yielded (out ++ out') = yielded out ++ yielded out' := by
  induction out with
  | nil => rfl
  | cons x out ih => cases x <;> simp [yielded, ih]

/-- **Step lemma**: one turn neither loses, repeats nor reorders an element. -/
theorem tryGroupStep_conserves (groupThese : A → A → Bool) (state : Option (GroupState A))
    (x : Except E A) :
    yielded (tryGroupStep groupThese state x).2 ++ pending (tryGroupStep groupThese state x).1
      = pending state ++ itemOf x := by
  cases x with
  | ok x =>
    cases state with
    | none => rfl
    | some st =>
      simp only [tryGroupStep]
      split <;> simp [yielded, pending, itemOf]
  | error e =>
    cases state with
    | none => rfl
    | some st =>
      simp only [tryGroupStep]
      split
      · rename_i hg
        simp [yielded, pending, itemOf, List.isEmpty_iff.mp hg]
      · simp [yielded, pending, itemOf]

/-- The run lemma: conservation over any list of input items. -/
theorem tryGroupSteps_conserves (groupThese : A → A → Bool) (state : Option (GroupState A))
    (xs : List (Except E A)) :
    yielded (tryGroupSteps groupThese state xs).2 ++ pending (tryGroupSteps groupThese state xs).1
      = pending state ++ xs.flatMap itemOf := by
  induction xs generalizing state with
  | nil => simp [tryGroupSteps, yielded]
  | cons x xs ih =>
    -- the step lemma for the first item, then the induction hypothesis from the state it leaves
    rw [tryGroupSteps, List.flatMap_cons, ← List.append_assoc,
      ← tryGroupStep_conserves groupThese state x, List.append_assoc, ← ih]
    simp [List.append_assoc]

/-- What the end of the input yields is what was pending. -/
theorem yielded_tryGroupEnd (state : Option (GroupState A)) :
    yielded (tryGroupEnd state : List (Except E (List A))) = pending state := by
  cases state <;> simp [tryGroupEnd, yielded, pending]

/-- An error is yielded last and leaves nothing pending. -/
theorem tryGroupStep_error (groupThese : A → A → Bool) (state : Option (GroupState A)) (e : E) :
    ∃ groups : List (List A), tryGroupStep groupThese state (.error e)
      = (none, groups.map .ok ++ [.error e]) := by
  cases state with
  | none => exact ⟨[], rfl⟩
  | some st =>
    simp only [tryGroupStep]
    split
    · exact ⟨[[st.cur]], rfl⟩
    · exact ⟨[st.group, [st.cur]], rfl⟩

/-- An element makes the generator yield groups only. -/
theorem tryGroupStep_ok (groupThese : A → A → Bool) (state : Option (GroupState A)) (x : A) :
    ∃ groups : List (List A), (tryGroupStep groupThese state (.ok x : Except E A)).2
      = groups.map .ok := by
  cases state with
  | none => exact ⟨[], rfl⟩
  | some st =>
    simp only [tryGroupStep]
    split
    · exact ⟨[], rfl⟩
    · exact ⟨[st.group ++ [st.cur]], rfl⟩

end OffChainWorker
