/-
  Retrying an operation (`src/util/retry.rs`, and `retry_with_index` of the crate it re-exports).

  The crate is third-party and its code is not at hand: `retryWithIndex` is written from its
  documented behaviour, which is what the callers count on.  `retry_with_index` runs the operation,
  and once more for each delay that the strategy yields, until the operation answers something other
  than `Retry`.  The operation is a closure over state that it changes; here it takes that state and
  hands it back.
-/

namespace OffChainWorker

/-- `OperationResult`. -/
inductive RetryResult (R E : Type) where
  | ok (value : R)
  | retry (error : E)
  | err (error : E)
deriving Repr, DecidableEq

/-- `retry::Error::Operation`, without the total delay. -/
structure RetryError (E : Type) where
  error : E
  tries : Nat
deriving Repr, DecidableEq

variable {σ R E : Type}

/-- The loop of `retry_with_index` in its try number `currentTry`. -/
def retryLoop (operation : Nat → σ → RetryResult R E × σ) :
    List Nat → Nat → σ → Except (RetryError E) R × σ
  | delays, currentTry, s =>
    match operation currentTry s with
    | (.ok value, s') => (.ok value, s')
    | (.err error, s') => (.error ⟨error, currentTry⟩, s')
    | (.retry error, s') =>
      match delays with
      | [] => (.error ⟨error, currentTry⟩, s')
      | _ :: rest => retryLoop operation rest (currentTry + 1) s'

/-- `retry_with_index`. -/
def retryWithIndex (delays : List Nat) (operation : Nat → σ → RetryResult R E × σ) (s : σ) :
    Except (RetryError E) R × σ :=
  retryLoop operation delays 1 s

/-! ## The invariant rules -/

/-- What every try keeps, the whole loop keeps. -/
theorem retryLoop_keeps {operation : Nat → σ → RetryResult R E × σ} {I : σ → Prop}
    (hop : ∀ n s, I s → I (operation n s).2) (delays : List Nat) (n : Nat) {s : σ} (hs : I s) :
    I (retryLoop operation delays n s).2 := by
  induction delays generalizing n s with
  | nil =>
    have hnext := hop n s hs
    unfold retryLoop
    split <;> (rename_i heq; rw [heq] at hnext; exact hnext)
  | cons d rest ih =>
    have hnext := hop n s hs
    unfold retryLoop
    split <;> (rename_i heq; rw [heq] at hnext)
    · exact hnext
    · exact hnext
    · exact ih (n + 1) hnext

/-- The loop on a state of which the operation sees the part `f`. -/
theorem retryLoop_map {τ : Type} {f : σ → τ} {operation : Nat → σ → RetryResult R E × σ}
    {operation' : Nat → τ → RetryResult R E × τ}
    (hop : ∀ n s, operation' n (f s) = ((operation n s).1, f (operation n s).2))
    (delays : List Nat) (n : Nat) (s : σ) :
    retryLoop operation' delays n (f s) =
      ((retryLoop operation delays n s).1, f (retryLoop operation delays n s).2) := by
  induction delays generalizing n s with
  | nil =>
    unfold retryLoop
    rw [hop n s]
    cases operation n s with
    | mk r s' => cases r <;> rfl
  | cons d rest ih =>
    unfold retryLoop
    rw [hop n s]
    cases operation n s with
    | mk r s' =>
      cases r with
      | ok value => rfl
      | err error => rfl
      | retry error => exact ih (n + 1) s'

/-- When every try asks for another one, the loop gives up. -/
theorem retryLoop_gives_up {operation : Nat → σ → RetryResult R E × σ} {I : σ → Prop}
    (hop : ∀ n s, I s → I (operation n s).2 ∧ ∃ error, (operation n s).1 = .retry error)
    (delays : List Nat) (n : Nat) {s : σ} (hs : I s) :
    ∃ error, (retryLoop operation delays n s).1 = .error error := by
  induction delays generalizing n s with
  | nil =>
    obtain ⟨-, error, hretry⟩ := hop n s hs
    unfold retryLoop
    cases hrun : operation n s with
    | mk r s' =>
      obtain rfl : r = .retry error := by rw [hrun] at hretry; exact hretry
      exact ⟨_, rfl⟩
  | cons d rest ih =>
    obtain ⟨hnext, error, hretry⟩ := hop n s hs
    unfold retryLoop
    cases hrun : operation n s with
    | mk r s' =>
      obtain rfl : r = .retry error := by rw [hrun] at hretry; exact hretry
      rw [hrun] at hnext
      exact ih (n + 1) hnext

end OffChainWorker
