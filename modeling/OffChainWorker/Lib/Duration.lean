/-
  Time spans with a largest one, and budgets of time.

  A `Duration` counts whole seconds in 64 bits and nanoseconds below a second, so its sums and
  differences may fall outside the type; the operators panic there.  `spend` is what becomes of a
  list of requests when a budget is spent on them: each in full while it lasts, then the rest of it,
  then none.
-/
import OffChainWorker.Lib.Outcome

namespace Proc

/-- The nanoseconds from which on no duration counts. -/
def Duration.limit : Nat := UInt64.size * 1000000000

/-- `std::time::Duration`, in nanoseconds. -/
structure Duration where
  nanos : Nat
  nanos_lt : nanos < Duration.limit
deriving DecidableEq

namespace Duration

instance : LE Duration := ⟨fun a b => a.nanos ≤ b.nanos⟩

instance : LT Duration := ⟨fun a b => a.nanos < b.nanos⟩

instance (a b : Duration) : Decidable (a ≤ b) := inferInstanceAs (Decidable (a.nanos ≤ b.nanos))

instance (a b : Duration) : Decidable (a < b) := inferInstanceAs (Decidable (a.nanos < b.nanos))

def zero : Duration := ⟨0, by decide⟩

/-- `Duration::from_millis`. -/
def fromMillis (millis : UInt64) : Duration := ⟨millis.toNat * 1000000, by
  have hmillis : millis.toNat < UInt64.size := millis.toNat_lt_size
  unfold limit
  omega⟩

/-- `Ord::min`. -/
def min (a b : Duration) : Duration := if a ≤ b then a else b

def checkedAdd (a b : Duration) : Option Duration :=
  if h : a.nanos + b.nanos < limit then some ⟨a.nanos + b.nanos, h⟩ else none

def checkedSub (a b : Duration) : Option Duration :=
  if b.nanos ≤ a.nanos then
    some ⟨a.nanos - b.nanos, Nat.lt_of_le_of_lt (Nat.sub_le _ _) a.nanos_lt⟩
  else none

/-- The operator `+`. -/
def add {ε : Type} (a b : Duration) : Outcome ε Duration := Outcome.unwrap (a.checkedAdd b)

/-- The operator `-`. -/
def sub {ε : Type} (a b : Duration) : Outcome ε Duration := Outcome.unwrap (a.checkedSub b)

theorem min_nanos (a b : Duration) : (a.min b).nanos = Nat.min a.nanos b.nanos := by
  unfold min
  split
  · rename_i h
    exact (Nat.min_eq_left h).symm
  · rename_i h
    have hle : ¬ a.nanos ≤ b.nanos := h
    exact (Nat.min_eq_right (Nat.le_of_not_le hle)).symm

theorem add_fits {ε : Type} {a b : Duration} (h : a.nanos + b.nanos < limit) :
    (a.add b : Outcome ε Duration) = .ok ⟨a.nanos + b.nanos, h⟩ := by
  unfold add checkedAdd
  rw [dif_pos h]
  rfl

theorem sub_fits {ε : Type} {a b : Duration} (h : b.nanos ≤ a.nanos) :
    (a.sub b : Outcome ε Duration) =
      .ok ⟨a.nanos - b.nanos, Nat.lt_of_le_of_lt (Nat.sub_le _ _) a.nanos_lt⟩ := by
  unfold sub checkedSub
  rw [if_pos h]
  rfl

end Duration

/-! ## Sums -/

/-- The sum of a list of numbers. -/
def sumOf (l : List Nat) : Nat := l.foldr (· + ·) 0

@[simp] theorem sumOf_nil : sumOf [] = 0 := rfl
@[simp] theorem sumOf_cons (a : Nat) (l : List Nat) : sumOf (a :: l) = a + sumOf l := rfl

/-! ## Spending a budget -/

/-- Spend `budget` on requests, of which `spent` has gone to earlier ones. -/
def spend (budget : Nat) : (spent : Nat) → List Nat → List Nat
  | _, [] => []
  | spent, c :: cs =>
    if budget ≤ spent then [] else Nat.min c (budget - spent) :: spend budget (spent + c) cs

theorem spend_exhausted {budget spent : Nat} (h : budget ≤ spent) (cs : List Nat) :
    spend budget spent cs = [] := by
  cases cs with
  | nil => rfl
  | cons c cs => exact if_pos h

theorem spend_cons {budget spent : Nat} (h : ¬ budget ≤ spent) (c : Nat) (cs : List Nat) :
    spend budget spent (c :: cs) =
      Nat.min c (budget - spent) :: spend budget (spent + c) cs := if_neg h

/-- What is spent is the requests, or all that is left. -/
theorem sumOf_spend (budget spent : Nat) (cs : List Nat) :
    sumOf (spend budget spent cs) = Nat.min (budget - spent) (sumOf cs) := by
  induction cs generalizing spent with
  | nil => exact (Nat.min_zero _).symm
  | cons c cs ih =>
    by_cases h : budget ≤ spent
    · rw [spend_exhausted h, Nat.sub_eq_zero_of_le h]
      exact (Nat.zero_min _).symm
    · rw [spend_cons h, sumOf_cons, ih, sumOf_cons]
      simp only [Nat.min_def]
      split <;> split <;> split <;> omega

/-- Nothing gets more than the largest request. -/
theorem spend_le {budget spent most : Nat} {cs : List Nat} (h : ∀ c ∈ cs, c ≤ most) :
    ∀ x ∈ spend budget spent cs, x ≤ most := by
  induction cs generalizing spent with
  | nil => exact fun x hx => absurd hx List.not_mem_nil
  | cons c cs ih =>
    intro x hx
    by_cases hspent : budget ≤ spent
    · rw [spend_exhausted hspent] at hx
      exact absurd hx List.not_mem_nil
    · rw [spend_cons hspent] at hx
      rcases List.mem_cons.mp hx with rfl | hx
      · exact Nat.le_trans (Nat.min_le_left _ _) (h c (List.mem_cons_self ..))
      · exact ih (fun c' hc' => h c' (List.mem_cons_of_mem _ hc')) x hx

theorem length_spend_le (budget spent : Nat) (cs : List Nat) :
    (spend budget spent cs).length ≤ cs.length := by
  induction cs generalizing spent with
  | nil => exact Nat.le_refl 0
  | cons c cs ih =>
    by_cases h : budget ≤ spent
    · rw [spend_exhausted h]
      exact Nat.zero_le _
    · rw [spend_cons h]
      exact Nat.succ_le_succ (ih (spent + c))

/-- A further request gets nothing exactly when the budget is used up. -/
theorem length_spend_append_iff (budget spent : Nat) (cs : List Nat) (c : Nat) :
    (spend budget spent (cs ++ [c])).length ≤ cs.length ↔
      sumOf (spend budget spent cs) = budget - spent := by
  induction cs generalizing spent with
  | nil =>
    show (spend budget spent [c]).length ≤ 0 ↔ 0 = budget - spent
    by_cases h : budget ≤ spent
    · rw [spend_exhausted h]
      exact iff_of_true (Nat.le_refl 0) (Nat.sub_eq_zero_of_le h).symm
    · rw [spend_cons h]
      exact iff_of_false (by simp) (by omega)
  | cons d cs ih =>
    by_cases h : budget ≤ spent
    · rw [spend_exhausted h, spend_exhausted h]
      exact iff_of_true (Nat.zero_le _) (Nat.sub_eq_zero_of_le h).symm
    · rw [List.cons_append, spend_cons h, spend_cons h, List.length_cons, List.length_cons,
        sumOf_cons, Nat.succ_le_succ_iff, ih (spent + d)]
      simp only [Nat.min_def]
      split
      · omega
      · -- the budget ends within this request, and the sum of what follows is zero
        have hrest : sumOf (spend budget (spent + d) cs) = 0 := by
          rw [spend_exhausted (by omega)]
          rfl
        omega

/-- A quotient, rounded up. -/
def ceilDiv (n m : Nat) : Nat := (n + (m - 1)) / m

/-- Requests of at least `least` use a budget up in so many steps. -/
theorem length_spend_mul_le (budget spent : Nat) {least : Nat} {cs : List Nat}
    (h : ∀ c ∈ cs, least ≤ c) :
    (spend budget spent cs).length * least ≤ budget - spent + (least - 1) := by
  induction cs generalizing spent with
  | nil =>
    rw [show (spend budget spent []).length = 0 from rfl, Nat.zero_mul]
    exact Nat.zero_le _
  | cons c cs ih =>
    have hc := h c (List.mem_cons_self ..)
    have hrest := ih (spent + c) fun c' hc' => h c' (List.mem_cons_of_mem _ hc')
    by_cases hspent : budget ≤ spent
    · rw [spend_exhausted hspent, List.length_nil, Nat.zero_mul]
      exact Nat.zero_le _
    · rw [spend_cons hspent, List.length_cons, Nat.succ_mul]
      by_cases hlast : budget ≤ spent + c
      · rw [spend_exhausted hlast, List.length_nil, Nat.zero_mul]
        omega
      · omega

theorem length_spend_le_ceilDiv {budget least : Nat} {cs : List Nat} (hleast : 0 < least)
    (h : ∀ c ∈ cs, least ≤ c) : (spend budget 0 cs).length ≤ ceilDiv budget least :=
  (Nat.le_div_iff_mul_le hleast).mpr (length_spend_mul_le budget 0 h)

end Proc
