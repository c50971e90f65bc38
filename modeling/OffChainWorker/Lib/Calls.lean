/-
  The calls that a computation makes of one of its operations.

  `recorded op` is `op` with a log of its calls and of what came of each; run with it, a
  computation that takes `op` as a parameter tells which calls it makes, and is otherwise the same
  (`recorded_maps`).  `callEach` calls `op` on a list of inputs in order, up to the first call that
  does not return, and `callsOf` are the calls it makes.
-/
import Mathlib.Data.List.Forall2
import OffChainWorker.Lib.Outcome

namespace Proc.Action

variable {σ ε A R β : Type}

/-- `op` with a log of its calls. -/
def recorded (op : A → Action σ ε R) (a : A) : Action (σ × List (A × Outcome ε R)) ε R := fun s =>
  let r := op a s.1
  (r.1, (r.2, s.2 ++ [(a, r.1)]))

theorem recorded_maps (op : A → Action σ ε R) (a : A) : Maps Prod.fst (recorded op a) (op a) :=
  fun _ => rfl

/-- Call `op` on each input, and put what it returns to `b`. -/
def callEach (op : A → Action σ ε R) (add : β → A → R → β) : List A → β → Action σ ε β
  | [], b => pure b
  | a :: as, b => do
    let r ← op a
    callEach op add as (add b a r)

/-- The calls that `callEach` makes. -/
def callsOf (op : A → Action σ ε R) : List A → σ → List (A × Outcome ε R)
  | [], _ => []
  | a :: as, s =>
    match op a s with
    | (.ok r, s') => (a, .ok r) :: callsOf op as s'
    | (.err e, _) => [(a, .err e)]
    | (.panic, _) => [(a, .panic)]

variable {op : A → Action σ ε R} {add : β → A → R → β}

/-- The log of a recorded run. -/
theorem callEach_recorded (as : List A) (b : β) (s : σ) (log : List (A × Outcome ε R)) :
    (callEach (recorded op) add as b (s, log)).2.2 = log ++ callsOf op as s := by
  induction as generalizing b s log with
  | nil => exact (List.append_nil log).symm
  | cons a as ih =>
    rw [callEach, bind_run, callsOf]
    unfold recorded
    cases hop : op a s with
    | mk r s' =>
      cases r with
      | ok r =>
        show (callEach (recorded op) add as (add b a r) (s', log ++ [(a, .ok r)])).2.2 = _
        rw [ih, List.append_assoc]
        rfl
      | err e => rfl
      | panic => rfl

theorem callEach_maps {τ : Type} {f : σ → τ} {op' : A → Action τ ε R}
    (hop : ∀ a, Maps f (op a) (op' a)) (as : List A) (b : β) :
    Maps f (callEach op add as b) (callEach op' add as b) := by
  induction as generalizing b with
  | nil => exact maps_pure b
  | cons a as ih => exact (hop a).bind fun r => ih (add b a r)

/-- The inputs of the calls are those at the front of the list. -/
theorem callsOf_inputs (op : A → Action σ ε R) (as : List A) (s : σ) :
    (callsOf op as s).map Prod.fst <+: as := by
  induction as generalizing s with
  | nil => exact List.nil_prefix
  | cons a as ih =>
    rw [callsOf]
    split
    · exact List.cons_prefix_cons.mpr ⟨rfl, ih _⟩
    · exact List.cons_prefix_cons.mpr ⟨rfl, List.nil_prefix⟩
    · exact List.cons_prefix_cons.mpr ⟨rfl, List.nil_prefix⟩

/-- The calls of an operation that always returns. -/
theorem callsOf_pure (f : A → R) (as : List A) (s : σ) :
    callsOf (fun a => (pure (f a) : Action σ ε R)) as s = as.map fun a => (a, .ok (f a)) := by
  induction as with
  | nil => rfl
  | cons a as ih => exact congrArg ((a, Outcome.ok (f a)) :: ·) ih

/-- Every call before another one returned. -/
theorem callsOf_dropLast (as : List A) (s : σ) :
    ∀ c ∈ (callsOf op as s).dropLast, ∃ r, c.2 = .ok r := by
  induction as generalizing s with
  | nil => exact fun c hc => absurd hc List.not_mem_nil
  | cons a as ih =>
    rw [callsOf]
    split
    · rename_i r s' _
      intro c hc
      cases hrest : callsOf op as s' with
      | nil =>
        rw [hrest] at hc
        exact absurd hc List.not_mem_nil
      | cons c' cs =>
        rw [hrest, List.dropLast_cons_cons] at hc
        rcases List.mem_cons.mp hc with rfl | hc
        · exact ⟨r, rfl⟩
        · exact ih s' c (by rw [hrest]; exact hc)
    · exact fun c hc => absurd hc List.not_mem_nil
    · exact fun c hc => absurd hc List.not_mem_nil

/-- What the calls that returned put to `b`. -/
def addAll (add : β → A → R → β) (b : β) (calls : List (A × Outcome ε R)) : β :=
  calls.foldl (fun b c => match c.2 with
    | .ok r => add b c.1 r
    | _ => b) b

/-- When every call returns, all inputs are called, and the results are put together. -/
theorem callEach_ok (add : β → A → R → β) {as : List A} {s : σ}
    (h : ∀ c ∈ callsOf op as s, ∃ r, c.2 = .ok r) (b : β) :
    (callsOf op as s).map Prod.fst = as ∧
      ∃ s', callEach op add as b s = (.ok (addAll add b (callsOf op as s)), s') := by
  induction as generalizing b s with
  | nil => exact ⟨rfl, s, rfl⟩
  | cons a as ih =>
    rw [callsOf] at h ⊢
    rw [callEach, bind_run]
    cases hop : op a s with
    | mk r s' =>
      rw [hop] at h
      cases r with
      | ok r =>
        obtain ⟨hinputs, t, ht⟩ := ih (fun c hc => h c (List.mem_cons_of_mem _ hc)) (add b a r)
        exact ⟨congrArg (a :: ·) hinputs, t, ht⟩
      | err e =>
        obtain ⟨r, hr⟩ := h _ List.mem_cons_self
        nomatch hr
      | panic =>
        obtain ⟨r, hr⟩ := h _ List.mem_cons_self
        nomatch hr

/-- A run that returned has called every input, and each call has returned. -/
theorem callsOf_of_callEach_ok {as : List A} {b b' : β} {s s' : σ}
    (h : callEach op add as b s = (.ok b', s')) :
    (∀ c ∈ callsOf op as s, ∃ r, c.2 = .ok r) ∧ b' = addAll add b (callsOf op as s) := by
  have hall : ∀ c ∈ callsOf op as s, ∃ r, c.2 = .ok r := by
    induction as generalizing b s with
    | nil => exact fun c hc => absurd hc List.not_mem_nil
    | cons a as ih =>
      obtain ⟨r, s₁, hop, h⟩ := bind_eq_ok h
      rw [callsOf, hop]
      intro c hc
      rcases List.mem_cons.mp hc with rfl | hc
      · exact ⟨r, rfl⟩
      · exact ih h c hc
  obtain ⟨-, t, ht⟩ := callEach_ok add hall b
  exact ⟨hall, Outcome.ok.inj (Prod.mk.inj (h.symm.trans ht)).1⟩

/-! ## What the calls do to a log -/

/-- A run that panicked stopped at a call that did, and a run that failed at one that failed. -/
theorem callEach_stopped (add : β → A → R → β) (as : List A) (b : β) (s : σ) :
    ((callEach op add as b s).1 = .panic ↔ ∃ c ∈ callsOf op as s, c.2 = .panic) ∧
      ∀ e, (callEach op add as b s).1 = .err e ↔ ∃ c ∈ callsOf op as s, c.2 = .err e := by
  induction as generalizing b s with
  | nil => exact ⟨iff_of_false nofun (by simp [callsOf]), fun e => iff_of_false nofun
      (by simp [callsOf])⟩
  | cons a as ih =>
    rw [callEach, bind_run, callsOf]
    cases hop : op a s with
    | mk r s' =>
      cases r with
      | ok r =>
        obtain ⟨hpanic, herr⟩ := ih (add b a r) s'
        refine ⟨hpanic.trans ?_, fun e => (herr e).trans ?_⟩ <;> simp
      | err e => simp
      | panic => simp

/-- When every call puts a piece to the log, of which `P` holds, the run puts the pieces to it. -/
theorem callEach_log {L : Type} (log : σ → List L) (P : A × Outcome ε R → List L → Prop)
    (hop : ∀ a s, ∃ piece, log (op a s).2 = log s ++ piece ∧ P (a, (op a s).1) piece)
    (add : β → A → R → β) (as : List A) (b : β) (s : σ) :
    ∃ pieces, log (callEach op add as b s).2 = log s ++ pieces.flatten ∧
      List.Forall₂ P (callsOf op as s) pieces := by
  induction as generalizing b s with
  | nil => exact ⟨[], (List.append_nil _).symm, .nil⟩
  | cons a as ih =>
    obtain ⟨piece, hlog, hpiece⟩ := hop a s
    rw [callEach, bind_run, callsOf]
    cases hrun : op a s with
    | mk r s' =>
      rw [hrun] at hlog hpiece
      cases r with
      | ok r =>
        obtain ⟨pieces, hrest, hpieces⟩ := ih (add b a r) s'
        refine ⟨piece :: pieces, ?_, .cons hpiece hpieces⟩
        rw [List.flatten_cons, ← List.append_assoc, ← hlog]
        exact hrest
      | err e => exact ⟨[piece], hlog.trans (by simp), .cons hpiece .nil⟩
      | panic => exact ⟨[piece], hlog.trans (by simp), .cons hpiece .nil⟩

end Proc.Action
