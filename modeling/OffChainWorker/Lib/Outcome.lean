/-
  What calling a fallible function comes to, and state-passing over it.

  `Outcome ε α` is a value, an error handed to the caller, or a panic, which no caller handles.
  `Action σ ε α` threads a state through such calls; the state survives an error and a panic, so
  what happened before the failure stays visible.
-/

namespace Proc

/-- A value, an error returned to the caller, or a panic. -/
inductive Outcome (ε α : Type) where
  | ok (a : α)
  | err (e : ε)
  | panic
deriving Repr, DecidableEq

namespace Outcome

variable {ε α β : Type}

def bind (x : Outcome ε α) (f : α → Outcome ε β) : Outcome ε β :=
  match x with
  | .ok a => f a
  | .err e => .err e
  | .panic => .panic

instance : Monad (Outcome ε) where
  pure := .ok
  bind := bind

/-- `Option::ok_or` followed by `?`. -/
def okOr (e : ε) : Option α → Outcome ε α
  | some a => .ok a
  | none => .err e

/-- `Option::unwrap`. -/
def unwrap : Option α → Outcome ε α
  | some a => .ok a
  | none => .panic

/-- The call returned a value. -/
def isOk : Outcome ε α → Bool
  | .ok _ => true
  | _ => false

theorem isOk_iff {x : Outcome ε α} : x.isOk = true ↔ ∃ a, x = .ok a := by
  cases x with
  | ok a => exact iff_of_true rfl ⟨a, rfl⟩
  | err e => exact iff_of_false Bool.false_ne_true nofun
  | panic => exact iff_of_false Bool.false_ne_true nofun

/-- Inversion of a bind that returned a value. -/
theorem bind_eq_ok {x : Outcome ε α} {f : α → Outcome ε β} {b : β} (h : (x >>= f) = .ok b) :
    ∃ a, x = .ok a ∧ f a = .ok b := by
  cases x with
  | ok a => exact ⟨a, rfl, h⟩
  | err e => nomatch h
  | panic => nomatch h

/-! ### When a call does not panic -/

theorem ok_ne_panic (a : α) : (pure a : Outcome ε α) ≠ .panic := fun h => nomatch h

theorem bind_ne_panic {x : Outcome ε α} {f : α → Outcome ε β} :
    (x >>= f) ≠ .panic ↔ x ≠ .panic ∧ ∀ a, x = .ok a → f a ≠ .panic := by
  cases x with
  | ok a =>
    refine ⟨fun h => ⟨fun hx => (nomatch hx), fun a' ha => ?_⟩, fun h => h.2 a rfl⟩
    rw [← Outcome.ok.inj ha]
    exact h
  | err e =>
    exact ⟨fun _ => ⟨fun hx => (nomatch hx), fun _ ha => (nomatch ha)⟩, fun _ h => (nomatch h)⟩
  | panic => exact ⟨fun h => absurd rfl h, fun h => absurd rfl h.1⟩

/-- An `unwrap` in front of the rest. -/
theorem unwrap_bind_ne_panic {o : Option α} {f : α → Outcome ε β} :
    (unwrap o >>= f) ≠ .panic ↔ ∃ a, o = some a ∧ f a ≠ .panic := by
  cases o with
  | none => exact ⟨fun h => absurd rfl h, fun ⟨_, ha, _⟩ => nomatch ha⟩
  | some a =>
    refine ⟨fun h => ⟨a, rfl, h⟩, fun ⟨a', ha, h⟩ => ?_⟩
    rw [Option.some.inj ha]
    exact h

/-- An `ok_or` with `?` in front of the rest. -/
theorem okOr_bind_ne_panic {e : ε} {o : Option α} {f : α → Outcome ε β} :
    (okOr e o >>= f) ≠ .panic ↔ ∀ a, o = some a → f a ≠ .panic := by
  cases o with
  | none => exact ⟨fun _ _ ha => (nomatch ha), fun _ h => (nomatch h)⟩
  | some a =>
    refine ⟨fun h a' ha => ?_, fun h => h a rfl⟩
    rw [← Option.some.inj ha]
    exact h

/-! ### When a call does not fail with an error -/

/-- The call returns a value or panics. -/
def NoError (x : Outcome ε α) : Prop := ∀ e, x ≠ .err e

theorem noError_pure (a : α) : NoError (pure a : Outcome ε α) := fun _ h => nomatch h

theorem NoError.bind {x : Outcome ε α} {f : α → Outcome ε β} (hx : NoError x)
    (hf : ∀ a, NoError (f a)) : NoError (x >>= f) := by
  intro e
  cases x with
  | ok a => exact hf a e
  | err e' => exact absurd rfl (hx e')
  | panic => exact fun h => nomatch h

/-- An `unwrap` in front of the rest. -/
theorem NoError.unwrap_bind {o : Option α} {f : α → Outcome ε β} (hf : ∀ a, NoError (f a)) :
    NoError (unwrap o >>= f) := by
  intro e
  cases o with
  | none => exact fun h => nomatch h
  | some a => exact hf a e

/-- What does not panic returns a value. -/
theorem NoError.exists_ok {x : Outcome ε α} (h : NoError x) (hx : x ≠ .panic) :
    ∃ a, x = .ok a := by
  cases x with
  | ok a => exact ⟨a, rfl⟩
  | err e => exact absurd rfl (h e)
  | panic => exact absurd rfl hx

theorem okOr_eq_ok {e : ε} {o : Option α} {a : α} (h : okOr e o = .ok a) : o = some a := by
  cases o with
  | none => nomatch h
  | some b => exact congrArg some (Outcome.ok.inj h)

end Outcome

/-- A computation that reads and updates a state and may fail or panic on the way. -/
def Action (σ ε α : Type) : Type := σ → Outcome ε α × σ

namespace Action

variable {σ ε α β : Type}

def bind (x : Action σ ε α) (f : α → Action σ ε β) : Action σ ε β := fun s =>
  match x s with
  | (.ok a, s') => f a s'
  | (.err e, s') => (.err e, s')
  | (.panic, s') => (.panic, s')

instance : Monad (Action σ ε) where
  pure a := fun s => (.ok a, s)
  bind := bind

def get : Action σ ε σ := fun s => (.ok s, s)

def modify (f : σ → σ) : Action σ ε Unit := fun s => (.ok (), f s)

/-- Fail or go on without touching the state. -/
def lift (x : Outcome ε α) : Action σ ε α := fun s => (x, s)

/-- Run a computation and hand its error to the caller as a value; a panic still passes. -/
def attempt (x : Action σ ε α) : Action σ ε (Except ε α) := fun s =>
  match x s with
  | (.ok a, s') => (.ok (.ok a), s')
  | (.err e, s') => (.ok (.error e), s')
  | (.panic, s') => (.panic, s')

theorem bind_run (x : Action σ ε α) (f : α → Action σ ε β) (s : σ) :
    (x >>= f) s = match x s with
      | (.ok a, s') => f a s'
      | (.err e, s') => (.err e, s')
      | (.panic, s') => (.panic, s') := rfl

theorem bind_ok {x : Action σ ε α} {f : α → Action σ ε β} {s s' : σ} {a : α}
    (h : x s = (.ok a, s')) : (x >>= f) s = f a s' := by
  rw [bind_run, h]

theorem bind_err {x : Action σ ε α} {f : α → Action σ ε β} {s s' : σ} {e : ε}
    (h : x s = (.err e, s')) : (x >>= f) s = (.err e, s') := by
  rw [bind_run, h]

theorem bind_panic {x : Action σ ε α} {f : α → Action σ ε β} {s s' : σ}
    (h : x s = (.panic, s')) : (x >>= f) s = (.panic, s') := by
  rw [bind_run, h]

/-- Inversion of a sequence that returned a value. -/
theorem bind_eq_ok {x : Action σ ε α} {f : α → Action σ ε β} {s t : σ} {b : β}
    (h : (x >>= f) s = (.ok b, t)) : ∃ a s', x s = (.ok a, s') ∧ f a s' = (.ok b, t) := by
  rw [bind_run] at h
  cases hx : x s with
  | mk r s' =>
    rw [hx] at h
    cases r with
    | ok a => exact ⟨a, s', rfl, h⟩
    | err e => nomatch h
    | panic => nomatch h

@[simp] theorem pure_run (a : α) (s : σ) : (pure a : Action σ ε α) s = (.ok a, s) := rfl
@[simp] theorem get_run (s : σ) : (get : Action σ ε σ) s = (.ok s, s) := rfl
@[simp] theorem modify_run (f : σ → σ) (s : σ) :
    (modify f : Action σ ε Unit) s = (.ok (), f s) := rfl
@[simp] theorem lift_run (x : Outcome ε α) (s : σ) : (lift x : Action σ ε α) s = (x, s) := rfl

theorem bind_bind {γ : Type} (x : Action σ ε α) (f : α → Action σ ε β) (g : β → Action σ ε γ) :
    (x >>= f) >>= g = x >>= fun a => f a >>= g := by
  funext s
  rw [bind_run, bind_run, bind_run]
  cases x s with
  | mk r s' => cases r <;> rfl

theorem pure_bind (a : α) (f : α → Action σ ε β) : (pure a >>= f) = f a := rfl

theorem lift_pure (a : α) : (lift (pure a) : Action σ ε α) = pure a := rfl

theorem lift_bind (x : Outcome ε α) (f : α → Outcome ε β) :
    (lift (x >>= f) : Action σ ε β) = lift x >>= fun a => lift (f a) := by
  funext s
  cases x <;> rfl

/-- What follows only fails or goes on. -/
theorem bind_lift_run (x : Action σ ε α) (f : α → Outcome ε β) (s : σ) :
    (x >>= fun a => lift (f a)) s = ((x s).1 >>= f, (x s).2) := by
  rw [bind_run]
  cases x s with
  | mk r s' => cases r <;> rfl

/-! ## The same computation on a larger state -/

/-- `x` runs as `y` does, on a state of which `y` sees the part `f`. -/
def Maps {τ : Type} (f : σ → τ) (x : Action σ ε α) (y : Action τ ε α) : Prop :=
  ∀ s, y (f s) = ((x s).1, f (x s).2)

section
variable {τ : Type} {f : σ → τ}

theorem maps_pure (a : α) : Maps f (pure a) (pure a : Action τ ε α) := fun _ => rfl

theorem maps_lift (x : Outcome ε α) : Maps f (lift x) (lift x : Action τ ε α) := fun _ => rfl

theorem Maps.bind {x : Action σ ε α} {y : Action τ ε α} {g : α → Action σ ε β}
    {h : α → Action τ ε β} (hx : Maps f x y) (hg : ∀ a, Maps f (g a) (h a)) :
    Maps f (x >>= g) (y >>= h) := by
  intro s
  rw [bind_run, bind_run, hx s]
  cases x s with
  | mk r s' =>
    cases r with
    | ok a => exact hg a s'
    | err e => rfl
    | panic => rfl

theorem Maps.attempt {x : Action σ ε α} {y : Action τ ε α} (hx : Maps f x y) :
    Maps f x.attempt y.attempt := by
  intro s
  unfold Action.attempt
  rw [hx s]
  cases x s with
  | mk r s' => cases r <;> rfl

end

/-! ## What a computation does to the state, however it ends -/

/-- The state a computation starts in and the one it leaves are related by `R`, whether it returns,
    fails or panics. -/
def Keeps (R : σ → σ → Prop) (x : Action σ ε α) : Prop := ∀ s, R s (x s).2

theorem keeps_pure {R : σ → σ → Prop} (hrefl : ∀ s, R s s) (a : α) :
    Keeps R (pure a : Action σ ε α) := hrefl

theorem keeps_lift {R : σ → σ → Prop} (hrefl : ∀ s, R s s) (x : Outcome ε α) :
    Keeps R (lift x) := hrefl

/-- **Sequencing rule**, from one state: the second computation may count on what the first one has
    returned. -/
theorem rel_bind {R : σ → σ → Prop} (htrans : ∀ ⦃s t u⦄, R s t → R t u → R s u)
    {x : Action σ ε α} {f : α → Action σ ε β} {s : σ} (hx : R s (x s).2)
    (hf : ∀ a s', x s = (.ok a, s') → R s' (f a s').2) : R s ((x >>= f) s).2 := by
  rw [bind_run]
  cases hrun : x s with
  | mk r s' =>
    rw [hrun] at hx
    cases r with
    | ok a => exact htrans hx (hf a s' hrun)
    | err e => exact hx
    | panic => exact hx

theorem Keeps.bind {R : σ → σ → Prop} (htrans : ∀ ⦃s t u⦄, R s t → R t u → R s u)
    {x : Action σ ε α} {f : α → Action σ ε β} (hx : Keeps R x) (hf : ∀ a, Keeps R (f a)) :
    Keeps R (x >>= f) :=
  fun s => rel_bind htrans (hx s) fun a s' _ => hf a s'

theorem Keeps.attempt {R : σ → σ → Prop} {x : Action σ ε α} (hx : Keeps R x) :
    Keeps R x.attempt := by
  intro s
  have hs := hx s
  unfold Action.attempt
  cases hrun : x s with
  | mk r s' =>
    rw [hrun] at hs
    cases r <;> exact hs

end Action
end Proc
