/-
  The gas limit of a transaction, over exact decimals.

  The estimate is raised by a share of itself, rounded up, and only the sum is held against the
  maximum.  The sum is one of two `u64`: past the last of them it panics or wraps around, as the
  build has it, and then the maximum does not help any more.
-/
import Mathlib.Data.Rat.Floor
import OffChainWorker.Chain.Confirmation

namespace OffChainWorker.Cosmos

open Proc

variable {N : Type}

/-- Decimal products are exact, and the configured adjustment is the decimal `a`, not negative. -/
structure Adjusts (env : Env N) (a : Rat) : Prop where
  exact : ∀ x y, env.decimalMul x y = some (x * y)
  decimal : (gasAdjustment env).decimal = some a
  nonneg : 0 ≤ a

/-- What is added to the gas. -/
def adjustmentOf (a : Rat) (gas : UInt64) : Int := ((gas.toNat : Rat) * a).ceil

/-! ## Machine integers -/

theorem toNat_min (a b : UInt64) : (min a b).toNat = min a.toNat b.toNat := by
  rw [Std.min_eq_if]
  split
  · rename_i h
    exact (Nat.min_eq_left h).symm
  · rename_i h
    have hle : ¬ a.toNat ≤ b.toNat := h
    omega

theorem toU64_ok {n : Int} (hlow : 0 ≤ n) (hhigh : n < 2 ^ 64) :
    toU64 n = .ok (UInt64.ofNat n.toNat) := if_pos ⟨hlow, hhigh⟩

theorem toNat_ofNat_toNat {n : Int} (hlow : 0 ≤ n) (hhigh : n < 2 ^ 64) :
    ((UInt64.ofNat n.toNat).toNat : Int) = n := by
  have hsize : n.toNat < UInt64.size := by
    have hvalue : UInt64.size = 2 ^ 64 := rfl
    omega
  rw [UInt64.toNat_ofNat_of_lt' hsize]
  omega

/-- A sum of two `u64` that is one of them. -/
theorem addU64_fits (env : Env N) {a b : UInt64} (h : a.toNat + b.toNat < 2 ^ 64) :
    addU64 env a b = .ok (a + b) ∧ (a + b).toNat = a.toNat + b.toNat := by
  constructor
  · refine if_neg ?_
    have hsize : ¬ UInt64.size ≤ a.toNat + b.toNat := not_le.mpr h
    simp [hsize]
  · rw [UInt64.toNat_add, Nat.mod_eq_of_lt h]

/-- A sum that is too large is a panic, or smaller than what was added to. -/
theorem addU64_overflows (env : Env N) {a b sum : UInt64} (h : 2 ^ 64 ≤ a.toNat + b.toNat)
    (hsum : addU64 env a b = .ok sum) : sum.toNat < a.toNat := by
  have hb : b.toNat < 2 ^ 64 := b.toNat_lt
  unfold addU64 at hsum
  split at hsum
  · nomatch hsum
  · obtain rfl := Outcome.ok.inj hsum
    rw [UInt64.toNat_add]
    omega

/-! ## The adjusted gas -/

variable {env : Env N} {a : Rat}

theorem adjustmentOf_nonneg (ha : 0 ≤ a) (gas : UInt64) : 0 ≤ adjustmentOf a gas := by
  have hgas : (0 : Rat) ≤ gas.toNat := Nat.cast_nonneg gas.toNat
  have hproduct : (0 : Rat) ≤ (gas.toNat : Rat) * a := mul_nonneg hgas ha
  have hceil : ((-1 : Int) : Rat) < (gas.toNat : Rat) * a := by push_cast; linarith
  have hlt : -1 < adjustmentOf a gas := Rat.lt_ceil_iff.mpr hceil
  omega

/-- A bound on the sum, before it is rounded up. -/
theorem add_adjustmentOf_le {gas : UInt64} {bound : Int} :
    gas.toNat + adjustmentOf a gas ≤ bound ↔ (gas.toNat : Rat) * (1 + a) ≤ bound := by
  have hceil : adjustmentOf a gas ≤ bound - gas.toNat ↔
      (gas.toNat : Rat) * a ≤ ((bound - gas.toNat : Int) : Rat) := Rat.ceil_le_iff
  push_cast at hceil
  constructor
  · intro h
    have hproduct := hceil.mp (by omega)
    linarith
  · intro h
    have hsum := hceil.mpr (by linarith)
    omega

/-- The sum of the gas and its adjustment is a `u64`. -/
theorem fits_iff {gas : UInt64} :
    gas.toNat + adjustmentOf a gas < 2 ^ 64 ↔ (gas.toNat : Rat) * (1 + a) ≤ 2 ^ 64 - 1 := by
  have hbound : gas.toNat + adjustmentOf a gas ≤ 2 ^ 64 - 1 ↔
      (gas.toNat : Rat) * (1 + a) ≤ ((2 ^ 64 - 1 : Int) : Rat) := add_adjustmentOf_le
  have hcast : ((2 ^ 64 - 1 : Int) : Rat) = 2 ^ 64 - 1 := by norm_num
  rw [← hcast, ← hbound]
  omega

theorem gasTimes_exact (h : Adjusts env a) {factor : F64} {d : Rat}
    (hfactor : factor.decimal = some d) (gas : UInt64) :
    gasTimes env gas factor = .ok ((gas.toNat : Rat) * d) := by
  unfold gasTimes
  rw [hfactor]
  show Outcome.unwrap (env.decimalMul gas.toNat d) = _
  rw [h.exact]
  rfl

/-- With exact decimals only the sum is left to go wrong. -/
theorem applyAdjustmentToGas_exact (h : Adjusts env a) {gas : UInt64}
    (hceil : adjustmentOf a gas < 2 ^ 64) :
    applyAdjustmentToGas env gas =
      addU64 env gas (UInt64.ofNat (adjustmentOf a gas).toNat) >>= fun sum =>
        pure (min sum (maxGas env)) := by
  have hadjustment := toU64_ok (adjustmentOf_nonneg h.nonneg gas) hceil
  unfold applyAdjustmentToGas
  rw [gasTimes_exact h h.decimal]
  show (toU64 (adjustmentOf a gas) >>= _) = _
  rw [hadjustment]
  rfl

/-- The gas limit, when the sum is a `u64`. -/
theorem applyAdjustmentToGas_fits (h : Adjusts env a) {gas : UInt64}
    (hfits : gas.toNat + adjustmentOf a gas < 2 ^ 64) :
    ∃ adjusted, applyAdjustmentToGas env gas = .ok adjusted ∧
      (adjusted.toNat : Int) = min (gas.toNat + adjustmentOf a gas) (maxGas env).toNat := by
  have hnonneg := adjustmentOf_nonneg h.nonneg gas
  have hceil : adjustmentOf a gas < 2 ^ 64 := by omega
  have hvalue := toNat_ofNat_toNat hnonneg hceil
  obtain ⟨hsum, hsumValue⟩ :=
    addU64_fits env (a := gas) (b := UInt64.ofNat (adjustmentOf a gas).toNat) (by omega)
  rw [applyAdjustmentToGas_exact h hceil, hsum]
  refine ⟨_, rfl, ?_⟩
  rw [toNat_min, hsumValue]
  omega

/-- Otherwise it is below the estimate, when there is one at all. -/
theorem applyAdjustmentToGas_overflows (h : Adjusts env a) {gas adjusted : UInt64}
    (hceil : adjustmentOf a gas < 2 ^ 64) (hover : ¬ gas.toNat + adjustmentOf a gas < 2 ^ 64)
    (hrun : applyAdjustmentToGas env gas = .ok adjusted) : adjusted < gas := by
  have hnonneg := adjustmentOf_nonneg h.nonneg gas
  have hvalue := toNat_ofNat_toNat hnonneg hceil
  rw [applyAdjustmentToGas_exact h hceil] at hrun
  obtain ⟨sum, hsum, hrun⟩ := Outcome.bind_eq_ok hrun
  have hwrapped := addU64_overflows env (by omega) hsum
  rw [← Outcome.ok.inj hrun]
  show (min sum (maxGas env)).toNat < gas.toNat
  rw [toNat_min]
  omega

/-- **Headline.** The addition stays in range, and the adjusted gas is computed and not below the
    estimate, iff the estimate with its share is at most the last `u64`. -/
theorem adjustment_fits_iff (env : Env N) {a : Rat} (h : Adjusts env a) (gas : UInt64)
    (hgas : gas ≤ maxGas env) (hceil : adjustmentOf a gas < 2 ^ 64) :
    (gas.toNat + adjustmentOf a gas < 2 ^ 64 ↔ (gas.toNat : Rat) * (1 + a) ≤ 2 ^ 64 - 1) ∧
      ((∃ adjusted, applyAdjustmentToGas env gas = .ok adjusted ∧ gas ≤ adjusted) ↔
        (gas.toNat : Rat) * (1 + a) ≤ 2 ^ 64 - 1) := by
  refine ⟨fits_iff, ?_⟩
  rw [← fits_iff]
  constructor
  · rintro ⟨adjusted, hrun, hle⟩
    by_contra hover
    have hless := applyAdjustmentToGas_overflows h hceil hover hrun
    exact absurd hless (UInt64.not_lt.mpr hle)
  · intro hfits
    obtain ⟨adjusted, hrun, hvalue⟩ := applyAdjustmentToGas_fits h hfits
    have hnonneg := adjustmentOf_nonneg h.nonneg gas
    have hmax : gas.toNat ≤ (maxGas env).toNat := hgas
    refine ⟨adjusted, hrun, ?_⟩
    show gas.toNat ≤ adjusted.toNat
    omega

theorem demoEnv_adjusts (node : Node N) : Adjusts (demoEnv node) (1 / 10) where
  exact _ _ := rfl
  decimal := rfl
  nonneg := by norm_num

theorem adjustment_fits_iff_demo :
    ((70000 : UInt64).toNat + adjustmentOf (1 / 10) 70000 < 2 ^ 64 ↔
        ((70000 : UInt64).toNat : Rat) * (1 + 1 / 10) ≤ 2 ^ 64 - 1) ∧
      ((∃ adjusted, applyAdjustmentToGas (demoEnv commitNode) 70000 = .ok adjusted ∧
          70000 ≤ adjusted) ↔
        ((70000 : UInt64).toNat : Rat) * (1 + 1 / 10) ≤ 2 ^ 64 - 1) :=
  adjustment_fits_iff (demoEnv commitNode) (demoEnv_adjusts commitNode) 70000 (by decide)
    (by decide +kernel)

/-- The chain with another maximum. -/
def maxGasEnv (maxGas : UInt64) (overflowChecks : Bool) (node : Node N) : Env N :=
  { demoEnv node with
    config := { demoConfig with maxGas := some maxGas }
    overflowChecks := overflowChecks }

theorem maxGasEnv_adjusts (maxGas : UInt64) (overflowChecks : Bool) (node : Node N) :
    Adjusts (maxGasEnv maxGas overflowChecks node) (1 / 10) :=
  ⟨fun _ _ => rfl, rfl, by norm_num⟩

/-- The largest maximum, used when the simulation fails: a panic in one build, less than the
    estimate in the other. -/
theorem largest_maximum_overflows :
    ¬ ∀ (env : Env (List Bytes)) (a : Rat) (gas : UInt64),
      Adjusts env a → gas ≤ maxGas env → adjustmentOf a gas < 2 ^ 64 →
        gas.toNat + adjustmentOf a gas < 2 ^ 64 ∧
          ∃ adjusted, applyAdjustmentToGas env gas = .ok adjusted ∧ gas ≤ adjusted := by
  intro h
  have hwrapped : applyAdjustmentToGas (maxGasEnv 18446744073709551615 false commitNode)
      18446744073709551615 = .ok 1844674407370955161 := by decide +kernel
  obtain ⟨-, adjusted, hrun, hle⟩ :=
    h (maxGasEnv 18446744073709551615 false commitNode) (1 / 10) 18446744073709551615
      (maxGasEnv_adjusts _ _ _) (by decide) (by decide +kernel)
  rw [hwrapped] at hrun
  rw [← Outcome.ok.inj hrun] at hle
  exact absurd hle (by decide)

/-- With overflow checks. -/
example : applyAdjustmentToGas (maxGasEnv 18446744073709551615 true commitNode)
    18446744073709551615 = .panic := by decide +kernel

end OffChainWorker.Cosmos
