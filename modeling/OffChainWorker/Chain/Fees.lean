/-
  The fee of a broadcast transaction, over exact decimals.

  The gas limit and the coins of a fee are computed from one estimate, and the coins of the largest
  fee from the maximum.  As long as the adjusted estimate is a `u64` the limit lies between the
  estimate and the maximum, the coins are the limit times the price, rounded up, and both grow with
  the estimate.
-/
import Mathlib.Order.Bounds.Basic
import OffChainWorker.Chain.Gas
import OffChainWorker.Chain.Signing

namespace OffChainWorker.Cosmos

open Proc

variable {N : Type}

/-- The configured price is the decimal `p`, not negative. -/
structure Priced (env : Env N) (p : Rat) : Prop where
  decimal : env.config.gasPrice.price.decimal = some p
  nonneg : 0 ≤ p

/-- What the gas costs. -/
def coinAmount (p : Rat) (gas : UInt64) : Int := ((gas.toNat : Rat) * p).ceil

/-- The fee for a gas limit. -/
def feeOf (env : Env N) (p : Rat) (gasLimit : UInt64) : Fee where
  amount := [⟨env.config.gasPrice.denom, toString (coinAmount p gasLimit)⟩]
  gasLimit := gasLimit
  payer := ""
  granter := ""

/-- The fee is right for the estimate. -/
structure FeeBracket (env : Env N) (a p : Rat) (gas : UInt64) (fee : Fee) : Prop where
  gasLimit : (fee.gasLimit.toNat : Int) = min (gas.toNat + adjustmentOf a gas) (maxGas env).toNat
  lower : gas ≤ fee.gasLimit
  upper : fee.gasLimit ≤ maxGas env
  /-- A single coin, of the least integer that pays for the limit. -/
  amount : fee.amount = [⟨env.config.gasPrice.denom, toString (coinAmount p fee.gasLimit)⟩] ∧
    IsLeast {n : Int | (fee.gasLimit.toNat : Rat) * p ≤ n} (coinAmount p fee.gasLimit)
  /-- Not more than the coin of the default fee. -/
  atMost : ∃ most, defaultFee env = .ok most ∧
    most.amount = [⟨env.config.gasPrice.denom, toString (coinAmount p (maxGas env))⟩] ∧
    coinAmount p fee.gasLimit ≤ coinAmount p (maxGas env)

/-- The transaction carries the fee. -/
def CarriesFee (env : Env N) (data : Bytes) (fee : Fee) : Prop :=
  ∃ info bodyBytes signatures, data = env.prost.txRaw.encode
    { bodyBytes := bodyBytes, authInfoBytes := env.prost.authInfo.encode (authInfo info fee),
      signatures := signatures }

/-- What holds of the fees of a `send_tx` with these calls. -/
structure FeeLaws (env : Env N) (a p : Rat) (calls : List NodeCall) : Prop where
  /-- Nothing is broadcast above the maximum. -/
  exceeded : ∀ request gasInfo, .simulate request (.ok ⟨some gasInfo⟩) ∈ calls →
    maxGas env < gasInfo.gasUsed → ∀ data answer, .broadcastTxSync data answer ∉ calls
  /-- A broadcast carries the fee of the simulated gas, and it is right iff this gas with its share
      is at most the last `u64`. -/
  broadcast : ∀ data answer, .broadcastTxSync data answer ∈ calls →
    ∃ request sim fee, .simulate request sim ∈ calls ∧ feeWithGas env (gasOf env sim) = .ok fee ∧
      CarriesFee env data fee ∧ (FeeBracket env a p (gasOf env sim) fee ↔
        ((gasOf env sim).toNat : Rat) * (1 + a) ≤ 2 ^ 64 - 1)
  /-- For the same gas there is a fee at all. -/
  computed : ∀ gas ≤ maxGas env,
    (∃ fee, feeWithGas env gas = .ok fee ∧ FeeBracket env a p gas fee) ↔
      (gas.toNat : Rat) * (1 + a) ≤ 2 ^ 64 - 1
  /-- Limit and coins grow with the gas. -/
  grows : ∀ gas gas' fee fee', gas ≤ gas' → FeeBracket env a p gas fee →
    FeeBracket env a p gas' fee' →
    fee.gasLimit ≤ fee'.gasLimit ∧ coinAmount p fee.gasLimit ≤ coinAmount p fee'.gasLimit

/-! ## Coins -/

theorem coinAmount_isLeast (p : Rat) (gas : UInt64) :
    IsLeast {n : Int | (gas.toNat : Rat) * p ≤ n} (coinAmount p gas) :=
  ⟨Rat.le_ceil, fun _ hn => Rat.ceil_le_iff.mpr hn⟩

theorem coinAmount_mono {p : Rat} (hp : 0 ≤ p) {gas gas' : UInt64} (h : gas ≤ gas') :
    coinAmount p gas ≤ coinAmount p gas' := by
  have hnat : gas.toNat ≤ gas'.toNat := h
  have hcast : (gas.toNat : Rat) ≤ gas'.toNat := Nat.cast_le.mpr hnat
  have hcost : (gas.toNat : Rat) * p ≤ gas'.toNat * p := mul_le_mul_of_nonneg_right hcast hp
  exact (coinAmount_isLeast p gas).2 (hcost.trans (coinAmount_isLeast p gas').1)

variable {env : Env N} {a p : Rat}

theorem calculateFee_exact (h : Adjusts env a) (hprice : Priced env p) (gas : UInt64) :
    calculateFee env gas env.config.gasPrice =
      .ok ⟨env.config.gasPrice.denom, toString (coinAmount p gas)⟩ := by
  unfold calculateFee
  rw [gasTimes_exact h hprice.decimal]
  rfl

theorem defaultFee_exact (h : Adjusts env a) (hprice : Priced env p) :
    defaultFee env = .ok (feeOf env p (maxGas env)) := by
  unfold defaultFee maxFeeInCoins
  rw [calculateFee_exact h hprice]
  rfl

theorem feeWithGas_exact (h : Adjusts env a) (hprice : Priced env p) (gas : UInt64) :
    feeWithGas env gas =
      applyAdjustmentToGas env gas >>= fun limit => pure (feeOf env p limit) := by
  unfold feeWithGas feeFromGasInCoins
  rw [defaultFee_exact h hprice]
  cases applyAdjustmentToGas env gas with
  | ok limit =>
    show (calculateFee env limit env.config.gasPrice >>= _) = _
    rw [calculateFee_exact h hprice]
    rfl
  | err kind => rfl
  | panic => rfl

/-! ## The fee for an estimate -/

/-- A fee with a limit between the estimate and the maximum. -/
theorem feeOf_bracket (h : Adjusts env a) (hprice : Priced env p) {gas limit : UInt64}
    (hlimit : (limit.toNat : Int) = min (gas.toNat + adjustmentOf a gas) (maxGas env).toNat)
    (hgas : gas ≤ maxGas env) : FeeBracket env a p gas (feeOf env p limit) := by
  have hnonneg := adjustmentOf_nonneg h.nonneg gas
  have hmax : gas.toNat ≤ (maxGas env).toNat := hgas
  have hlower : gas.toNat ≤ limit.toNat := by omega
  have hupper : limit.toNat ≤ (maxGas env).toNat := by omega
  exact ⟨hlimit, hlower, hupper, ⟨rfl, coinAmount_isLeast p limit⟩,
    _, defaultFee_exact h hprice, rfl, coinAmount_mono hprice.nonneg hupper⟩

/-- A share of gas that stays below the range does not fill it by being rounded up. -/
theorem adjustmentOf_lt {gas : UInt64}
    (hrange : (gas.toNat : Rat) * (1 + a) < 2 ^ 64) : adjustmentOf a gas < 2 ^ 64 := by
  by_cases hzero : gas.toNat = 0
  · have hle : adjustmentOf a gas ≤ 0 := Rat.ceil_le_iff.mpr (by rw [hzero]; simp)
    omega
  · have hpos : (1 : Rat) ≤ gas.toNat := by exact_mod_cast Nat.pos_of_ne_zero hzero
    have hle : adjustmentOf a gas ≤ 2 ^ 64 - 1 := by
      refine Rat.ceil_le_iff.mpr ?_
      push_cast
      linarith
    omega

theorem mul_one_add_le {gas : UInt64} (ha : 0 ≤ a) (hgas : gas ≤ maxGas env) :
    (gas.toNat : Rat) * (1 + a) ≤ (maxGas env).toNat * (1 + a) := by
  have hnat : gas.toNat ≤ (maxGas env).toNat := hgas
  have hcast : (gas.toNat : Rat) ≤ (maxGas env).toNat := Nat.cast_le.mpr hnat
  exact mul_le_mul_of_nonneg_right hcast (by linarith)

/-- The fee is computed and right iff the estimate with its share is at most the last `u64`. -/
theorem feeWithGas_bracket_iff (h : Adjusts env a) (hprice : Priced env p) {gas : UInt64}
    (hgas : gas ≤ maxGas env) (hrange : ((maxGas env).toNat : Rat) * (1 + a) < 2 ^ 64) :
    (∃ fee, feeWithGas env gas = .ok fee ∧ FeeBracket env a p gas fee) ↔
      (gas.toNat : Rat) * (1 + a) ≤ 2 ^ 64 - 1 := by
  have hceil := adjustmentOf_lt ((mul_one_add_le h.nonneg hgas).trans_lt hrange)
  rw [← fits_iff]
  constructor
  · rintro ⟨fee, hfee, hbracket⟩
    by_contra hover
    rw [feeWithGas_exact h hprice] at hfee
    obtain ⟨limit, hlimit, hfee⟩ := Outcome.bind_eq_ok hfee
    have hless := applyAdjustmentToGas_overflows h hceil hover hlimit
    have hlower := hbracket.lower
    rw [← Outcome.ok.inj hfee] at hlower
    exact absurd hless (UInt64.not_lt.mpr hlower)
  · intro hfits
    obtain ⟨limit, hrun, hlimit⟩ := applyAdjustmentToGas_fits h hfits
    refine ⟨feeOf env p limit, ?_, feeOf_bracket h hprice hlimit hgas⟩
    rw [feeWithGas_exact h hprice, hrun]
    rfl

/-- What is right for a larger estimate is not smaller. -/
theorem FeeBracket.mono (ha : 0 ≤ a) (hp : 0 ≤ p) {gas gas' : UInt64} {fee fee' : Fee}
    (h : FeeBracket env a p gas fee) (h' : FeeBracket env a p gas' fee') (hgas : gas ≤ gas') :
    fee.gasLimit ≤ fee'.gasLimit ∧
      coinAmount p fee.gasLimit ≤ coinAmount p fee'.gasLimit := by
  have hnat : gas.toNat ≤ gas'.toNat := hgas
  have hadjustment : adjustmentOf a gas ≤ adjustmentOf a gas' := coinAmount_mono ha hgas
  have hlimit : fee.gasLimit.toNat ≤ fee'.gasLimit.toNat := by
    have hvalue := h.gasLimit
    have hvalue' := h'.gasLimit
    omega
  exact ⟨hlimit, coinAmount_mono hp hlimit⟩

/-! ## The runs of `send_tx` -/

theorem rawTx_fee {info : SignerInfo} {bodyBuf : Bytes} {gas accountNumber : UInt64} {raw : TxRaw}
    (h : rawTx env info bodyBuf gas accountNumber = .ok raw) :
    ∃ fee, feeWithGas env gas = .ok fee ∧ CarriesFee env (env.prost.txRaw.encode raw) fee := by
  obtain ⟨fee, hfee, h⟩ := Outcome.bind_eq_ok h
  obtain ⟨signature, -, h⟩ := Outcome.bind_eq_ok h
  refine ⟨fee, hfee, info, bodyBuf, [signature], ?_⟩
  rw [← Outcome.ok.inj h]

/-- From the estimate on, a broadcast is within the maximum and carries the fee of the estimate. -/
theorem Finished.broadcast_fee {info : SignerInfo} {bodyBuf : Bytes} {gas : UInt64}
    {account : BaseAccount} {calls : List NodeCall} {r : Outcome Kind Response}
    (h : Finished env info bodyBuf gas account calls r) {data : Bytes}
    {answer : Except Unit Response} (hcall : .broadcastTxSync data answer ∈ calls) :
    gas ≤ maxGas env ∧ ∃ fee, feeWithGas env gas = .ok fee ∧ CarriesFee env data fee := by
  cases h with
  | exceeded _ => nomatch hcall
  | unsigned _ _ => nomatch hcall
  | outOfRange _ _ => nomatch hcall
  | refused hgas hraw =>
    obtain ⟨rfl, -⟩ := NodeCall.broadcastTxSync.inj (List.mem_singleton.mp hcall)
    exact ⟨UInt64.not_lt.mp hgas, rawTx_fee hraw⟩
  | overflowed hgas hraw _ =>
    obtain ⟨rfl, -⟩ := NodeCall.broadcastTxSync.inj (List.mem_singleton.mp hcall)
    exact ⟨UInt64.not_lt.mp hgas, rawTx_fee hraw⟩
  | accepted hgas hraw _ =>
    obtain ⟨rfl, -⟩ := NodeCall.broadcastTxSync.inj (List.mem_singleton.mp hcall)
    exact ⟨UInt64.not_lt.mp hgas, rawTx_fee hraw⟩

theorem Finished.no_simulate {info : SignerInfo} {bodyBuf : Bytes} {gas : UInt64}
    {account : BaseAccount} {calls : List NodeCall} {r : Outcome Kind Response}
    (h : Finished env info bodyBuf gas account calls r) {request : SimulateRequest}
    {sim : Except Unit SimulateResponse} : .simulate request sim ∉ calls := by
  cases h <;> simp

/-- **Run lemma**: a broadcast follows the one simulation, and carries the fee of its gas. -/
theorem TxRun.broadcast_fee {protoMsgs : List Any} {calls : List NodeCall}
    {r : Outcome Kind Response} (h : TxRun env protoMsgs calls r) {data : Bytes}
    {answer : Except Unit Response} (hcall : .broadcastTxSync data answer ∈ calls) :
    ∃ request sim, .simulate request sim ∈ calls ∧
      (∀ request' sim', .simulate request' sim' ∈ calls → sim' = sim) ∧
      gasOf env sim ≤ maxGas env ∧
      ∃ fee, feeWithGas env (gasOf env sim) = .ok fee ∧ CarriesFee env data fee := by
  cases h with
  | noAccount hrefreshed => exact absurd trivial (hrefreshed.no_tx _ hcall)
  | crashed hrefreshed => exact absurd trivial (hrefreshed.no_tx _ hcall)
  | sent hrefreshed hsent =>
    rcases List.mem_append.mp hcall with hcall | hcall
    · exact absurd trivial (hrefreshed.no_tx _ hcall)
    cases hsent with
    | unsigned _ => nomatch hcall
    | outOfRange _ => nomatch hcall
    | @simulated _ request sim _ _ _ hfinished =>
      rcases List.mem_cons.mp hcall with hcall | hcall
      · nomatch hcall
      obtain ⟨hgas, hfee⟩ := hfinished.broadcast_fee hcall
      refine ⟨request, sim, List.mem_append_right _ (List.mem_cons_self ..), ?_, hgas, hfee⟩
      intro request' sim' hsim
      rcases List.mem_append.mp hsim with hsim | hsim
      · exact absurd trivial (hrefreshed.no_tx _ hsim)
      · rcases List.mem_cons.mp hsim with hsim | hsim
        · exact (NodeCall.simulate.inj hsim).2
        · exact absurd hsim hfinished.no_simulate

/-- After an estimate above the maximum nothing is broadcast. -/
theorem TxRun.exceeded {protoMsgs : List Any} {calls : List NodeCall} {r : Outcome Kind Response}
    (h : TxRun env protoMsgs calls r) {request : SimulateRequest} {gasInfo : GasInfo}
    (hsim : .simulate request (.ok ⟨some gasInfo⟩) ∈ calls)
    (hexceeds : maxGas env < gasInfo.gasUsed) (data : Bytes) (answer : Except Unit Response) :
    .broadcastTxSync data answer ∉ calls := by
  intro hcall
  obtain ⟨_, sim, -, honly, hgas, -⟩ := h.broadcast_fee hcall
  rw [← honly request _ hsim] at hgas
  exact absurd hexceeds (UInt64.not_lt.mpr hgas)

/-- The fee of a broadcast is right iff there is a right one at all. -/
theorem TxRun.broadcast_bracket_iff {protoMsgs : List Any} {calls : List NodeCall}
    {r : Outcome Kind Response} (hrun : TxRun env protoMsgs calls r) (h : Adjusts env a)
    (hprice : Priced env p) (hrange : ((maxGas env).toNat : Rat) * (1 + a) < 2 ^ 64)
    {data : Bytes} {answer : Except Unit Response} (hcall : .broadcastTxSync data answer ∈ calls) :
    ∃ request sim fee, .simulate request sim ∈ calls ∧ feeWithGas env (gasOf env sim) = .ok fee ∧
      CarriesFee env data fee ∧ (FeeBracket env a p (gasOf env sim) fee ↔
        ((gasOf env sim).toNat : Rat) * (1 + a) ≤ 2 ^ 64 - 1) := by
  obtain ⟨request, sim, hsim, -, hgas, fee, hfee, hcarries⟩ := hrun.broadcast_fee hcall
  refine ⟨request, sim, fee, hsim, hfee, hcarries, ?_⟩
  rw [← feeWithGas_bracket_iff h hprice hgas hrange]
  constructor
  · intro hbracket
    exact ⟨fee, hfee, hbracket⟩
  · rintro ⟨fee', hfee', hbracket⟩
    rw [hfee] at hfee'
    rw [Outcome.ok.inj hfee']
    exact hbracket

/-- **Headline.** Nothing is broadcast above the maximum, and the fee of a broadcast is right for
    the simulated gas iff this gas with its share is at most the last `u64`. -/
theorem broadcast_fee_bracket (env : Env N) (protoMsgs : List Any) (s : ChainState N) {a p : Rat}
    (h : Adjusts env a) (hprice : Priced env p)
    (hrange : ((maxGas env).toNat : Rat) * (1 + a) < 2 ^ 64) :
    FeeLaws env a p (txCalls env protoMsgs s) where
  exceeded _ _ hsim hexceeds := (txCalls_run env protoMsgs s).exceeded hsim hexceeds
  broadcast _ _ hcall := (txCalls_run env protoMsgs s).broadcast_bracket_iff h hprice hrange hcall
  computed _ hgas := feeWithGas_bracket_iff h hprice hgas hrange
  grows _ _ _ _ hgas hfee hfee' := hfee.mono h.nonneg hprice.nonneg hfee' hgas

theorem demoEnv_priced (node : Node N) : Priced (demoEnv node) (1 / 1000) where
  decimal := rfl
  nonneg := by norm_num

/-- Two messages in one transaction. -/
theorem broadcast_fee_bracket_two :
    FeeLaws (demoEnv commitNode) (1 / 10) (1 / 1000)
      (txCalls (demoEnv commitNode) demoMsgs ⟨none, []⟩) :=
  broadcast_fee_bracket (demoEnv commitNode) demoMsgs ⟨none, []⟩ (demoEnv_adjusts commitNode)
    (demoEnv_priced commitNode) (by decide +kernel)

/-- A node that simulates nothing. -/
def unsimulatedNode : Node (List Bytes) :=
  { commitNode with simulate := fun _ n => (.error (), n) }

def NodeCall.isBroadcast : NodeCall → Bool
  | .broadcastTxSync _ _ => true
  | _ => false

def NodeCall.simulationFailed : NodeCall → Bool
  | .simulate _ (.ok _) => false
  | _ => true

/-- The maximum with its tenth is below the range of `u64`, and rounded up it is not: what is
    broadcast has no gas at all. -/
theorem rounded_up_fee_broadcast :
    ¬ ∀ (env : Env (List Bytes)) (protoMsgs : List Any) (s : ChainState (List Bytes)) (a p : Rat),
      Adjusts env a → Priced env p → ((maxGas env).toNat : Rat) * (1 + a) < 2 ^ 64 →
        ∀ data answer, .broadcastTxSync data answer ∈ txCalls env protoMsgs s →
          ∃ request sim fee, .simulate request sim ∈ txCalls env protoMsgs s ∧
            feeWithGas env (gasOf env sim) = .ok fee ∧ CarriesFee env data fee ∧
            FeeBracket env a p (gasOf env sim) fee := by
  intro h
  let env := maxGasEnv 16769767339735956014 false unsimulatedNode
  have hsent : (txCalls env demoMsgs ⟨none, []⟩).any NodeCall.isBroadcast = true := by
    decide +kernel
  have hfailed : (txCalls env demoMsgs ⟨none, []⟩).all NodeCall.simulationFailed = true := by
    decide +kernel
  have hnone : feeWithGas env 16769767339735956014 =
      .ok { amount := [⟨"stake", "0"⟩], gasLimit := 0, payer := "", granter := "" } := by
    decide +kernel
  obtain ⟨call, hcall, hbroadcast⟩ := List.any_eq_true.mp hsent
  cases call with
  | broadcastTxSync data answer =>
    obtain ⟨request, sim, fee, hsim, hfee, -, hbracket⟩ :=
      h env demoMsgs ⟨none, []⟩ (1 / 10) (1 / 1000) (maxGasEnv_adjusts _ _ _)
        ⟨rfl, by norm_num⟩ (by decide +kernel) data answer hcall
    have hgas : gasOf env sim = 16769767339735956014 := by
      have hsimFailed := List.all_eq_true.mp hfailed _ hsim
      cases sim with
      | ok response => nomatch hsimFailed
      | error e => rfl
    have hlower := hbracket.lower
    rw [hgas] at hfee hlower
    rw [hnone] at hfee
    rw [← Outcome.ok.inj hfee] at hlower
    exact absurd hlower (by decide)
  | account _ _ => nomatch hbroadcast
  | balance _ _ _ => nomatch hbroadcast
  | simulate _ _ => nomatch hbroadcast
  | txSearch _ _ => nomatch hbroadcast

end OffChainWorker.Cosmos
