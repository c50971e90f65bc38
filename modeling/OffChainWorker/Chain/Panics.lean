/-
  The answers of the node that bring the chain down.

  `query_account` unwraps the `account` field of the answer, and `account` expects the balance that
  it asks for next, so an account query that is answered without an account and a balance query
  that fails or is answered without a balance are panics.  With overflow checks, so is incrementing
  the sequence of an accepted transaction when it is the last one of its type.  No other answer is:
  `Harmless` follows the log of the calls and says of each answer whether it is one of these.
-/
import OffChainWorker.Chain.Fees

namespace OffChainWorker.Cosmos

open Proc

variable {N : Type} (env : Env N)

/-! ## Harmless answers -/

/-- The cached account after a call, when it was `cached` before. -/
def NodeCall.cachedAfter (cached : Option BaseAccount) : NodeCall → Option BaseAccount
  | .account _ (.ok (some any)) => env.prost.baseAccount.decode any.value
  | _ => cached

/-- The answer of a call brings nothing down. -/
def NodeCall.Harmless (cached : Option BaseAccount) : NodeCall → Prop
  | .account _ answer => answer ≠ .ok none
  | .balance _ _ answer => ∃ coin, answer = .ok (some coin)
  | .broadcastTxSync _ (.ok _) => ∀ a, cached = some a → addU64 env a.sequence 1 ≠ .panic
  | _ => True

/-- No answer in the log brings anything down. -/
def Harmless : (cached : Option BaseAccount) → List NodeCall → Prop
  | _, [] => True
  | cached, c :: calls => c.Harmless env cached ∧ Harmless (c.cachedAfter env cached) calls

theorem harmless_append (cached : Option BaseAccount) (calls calls' : List NodeCall) :
    Harmless env cached (calls ++ calls') ↔
      Harmless env cached calls ∧
        Harmless env (calls.foldl (NodeCall.cachedAfter env) cached) calls' := by
  induction calls generalizing cached with
  | nil => exact (and_iff_right trivial).symm
  | cons c calls ih =>
    show _ ∧ Harmless env _ (calls ++ calls') ↔ (_ ∧ _) ∧ _
    rw [ih, and_assoc]
    rfl

/-! ## Gas and fees -/

/-- The gas and fee arithmetic stays in range, for every estimate within the maximum. -/
structure GasInRange : Prop where
  price : ∀ gas ≤ maxGas env, ∃ fee, gasTimes env gas env.config.gasPrice.price = .ok fee
  adjustment : ∀ gas ≤ maxGas env, ∃ adjusted, applyAdjustmentToGas env gas = .ok adjusted

theorem applyAdjustmentToGas_le {gas adjusted : UInt64}
    (h : applyAdjustmentToGas env gas = .ok adjusted) : adjusted ≤ maxGas env := by
  obtain ⟨product, -, h⟩ := Outcome.bind_eq_ok h
  obtain ⟨adjustment, -, h⟩ := Outcome.bind_eq_ok h
  obtain ⟨sum, -, h⟩ := Outcome.bind_eq_ok h
  obtain rfl := Outcome.ok.inj h
  exact Std.min_le_right

variable {env}

theorem calculateFee_ok (hrange : GasInRange env) {gas : UInt64} (hgas : gas ≤ maxGas env) :
    ∃ coin, calculateFee env gas env.config.gasPrice = .ok coin := by
  obtain ⟨fee, hfee⟩ := hrange.price gas hgas
  unfold calculateFee
  rw [hfee]
  exact ⟨_, rfl⟩

theorem defaultFee_ok (hrange : GasInRange env) : ∃ fee, defaultFee env = .ok fee := by
  obtain ⟨coin, hcoin⟩ := calculateFee_ok hrange (UInt64.le_refl (maxGas env))
  unfold defaultFee maxFeeInCoins
  rw [hcoin]
  exact ⟨_, rfl⟩

theorem feeWithGas_ok (hrange : GasInRange env) {gas : UInt64} (hgas : gas ≤ maxGas env) :
    ∃ fee, feeWithGas env gas = .ok fee := by
  obtain ⟨adjusted, hadjusted⟩ := hrange.adjustment gas hgas
  obtain ⟨coin, hcoin⟩ := calculateFee_ok hrange (applyAdjustmentToGas_le env hadjusted)
  obtain ⟨fee, hfee⟩ := defaultFee_ok hrange
  unfold feeWithGas feeFromGasInCoins
  rw [hadjusted]
  show ∃ fee, (calculateFee env adjusted env.config.gasPrice >>= _) = .ok fee
  rw [hcoin, hfee]
  exact ⟨_, rfl⟩

/-! ## What is put into a transaction does not panic -/

/-- A signature that is missing is an error. -/
theorem signedDoc_bind_ne_panic {α : Type} (bodyBytes authInfoBytes : Bytes)
    (accountNumber : UInt64) (f : Bytes → α) :
    (signedDoc env bodyBytes authInfoBytes accountNumber >>= fun signed => pure (f signed)) ≠
      .panic :=
  Outcome.okOr_bind_ne_panic.mpr fun _ _ => Outcome.ok_ne_panic _

theorem simulatedTx_ne_panic (hrange : GasInRange env) (protoMsgs : List Any) (seq : UInt64) :
    simulatedTx env protoMsgs seq ≠ .panic := by
  obtain ⟨fee, hfee⟩ := defaultFee_ok hrange
  have hsigner : signer env seq ≠ .panic :=
    Outcome.okOr_bind_ne_panic.mpr fun _ _ => Outcome.ok_ne_panic _
  refine Outcome.bind_ne_panic.mpr ⟨hsigner, fun info _ => ?_⟩
  refine Outcome.bind_ne_panic.mpr ⟨?_, fun fee _ => ?_⟩
  · rw [hfee]
    exact Outcome.ok_ne_panic fee
  · exact signedDoc_bind_ne_panic _ _ _ _

theorem rawTx_ne_panic (hrange : GasInRange env) (info : SignerInfo) (bodyBuf : Bytes)
    {gas : UInt64} (hgas : ¬ maxGas env < gas) (accountNumber : UInt64) :
    rawTx env info bodyBuf gas accountNumber ≠ .panic := by
  obtain ⟨fee, hfee⟩ := feeWithGas_ok hrange (UInt64.not_lt.mp hgas)
  refine Outcome.bind_ne_panic.mpr ⟨?_, fun fee _ => ?_⟩
  · rw [hfee]
    exact Outcome.ok_ne_panic fee
  · exact signedDoc_bind_ne_panic _ _ _ _

/-! ## One `send_tx` -/

theorem Refreshed.harmless {calls : List NodeCall} {r : Outcome Kind BaseAccount}
    (h : Refreshed env calls r) (cached : Option BaseAccount) :
    r ≠ .panic ↔ Harmless env cached calls := by
  cases h with
  | noKey hkey => exact iff_of_true nofun trivial
  | failed hkey => exact iff_of_true nofun ⟨nofun, trivial⟩
  | absent hkey => exact iff_of_false (fun h => h rfl) fun h => h.1 rfl
  | garbled hkey hany => exact iff_of_true nofun ⟨nofun, trivial⟩
  | noBalance hkey hany hanswer =>
    refine iff_of_false (fun h => h rfl) fun h => ?_
    obtain ⟨coin, hcoin⟩ := h.2.1
    exact hanswer coin hcoin
  | cached hkey hany =>
    exact iff_of_true nofun ⟨nofun, ⟨_, rfl⟩, trivial⟩

theorem Refreshed.cachedAfter {calls : List NodeCall} {a : BaseAccount}
    (h : Refreshed env calls (.ok a)) (cached : Option BaseAccount) :
    calls.foldl (NodeCall.cachedAfter env) cached = some a := by
  cases h with
  | cached hkey hany => exact hany

theorem Finished.harmless (hrange : GasInRange env) {info : SignerInfo} {bodyBuf : Bytes}
    {gas : UInt64} {a : BaseAccount} {calls : List NodeCall} {r : Outcome Kind Response}
    (h : Finished env info bodyBuf gas a calls r) :
    r ≠ .panic ↔ Harmless env (some a) calls := by
  cases h with
  | exceeded hgas => exact iff_of_true nofun trivial
  | unsigned hgas hraw => exact iff_of_true nofun trivial
  | outOfRange hgas hraw => exact absurd hraw (rawTx_ne_panic hrange _ _ hgas _)
  | refused hgas hraw => exact iff_of_true nofun ⟨trivial, trivial⟩
  | overflowed hgas hraw hincr =>
    exact iff_of_false (fun h => h rfl) fun h => h.1 a rfl hincr
  | accepted hgas hraw hincr =>
    refine iff_of_true nofun ⟨fun a' ha => ?_, trivial⟩
    obtain rfl := Option.some.inj ha
    rw [hincr]
    exact Outcome.ok_ne_panic _

theorem Sent.harmless (hrange : GasInRange env) {protoMsgs : List Any} {a : BaseAccount}
    {calls : List NodeCall} {r : Outcome Kind Response} (h : Sent env protoMsgs a calls r) :
    r ≠ .panic ↔ Harmless env (some a) calls := by
  cases h with
  | unsigned htx => exact iff_of_true nofun trivial
  | outOfRange htx => exact absurd htx (simulatedTx_ne_panic hrange _ _)
  | simulated htx hfinished => exact (hfinished.harmless hrange).trans (and_iff_right trivial).symm

/-- **Step lemma.**  One `send_tx` panics on the harmful answers alone. -/
theorem TxRun.harmless (hrange : GasInRange env) {protoMsgs : List Any} {calls : List NodeCall}
    {r : Outcome Kind Response} (h : TxRun env protoMsgs calls r) (cached : Option BaseAccount) :
    r ≠ .panic ↔ Harmless env cached calls := by
  cases h with
  | noAccount h => exact iff_of_true nofun ((h.harmless cached).mp nofun)
  | crashed h =>
    exact iff_of_false (fun h => h rfl) fun hcalls => (h.harmless cached).mpr hcalls rfl
  | @sent calls calls' a r h h' =>
    rw [harmless_append, h.cachedAfter cached, ← h'.harmless hrange]
    exact (and_iff_right ((h.harmless cached).mp nofun)).symm

/-! ## `send_msgs` -/

/-- The calls of a computation are what it adds to the log, and it panics on the harmful answers
    among them alone. -/
def PanicsOnHarm (env : Env N) {α : Type} (x : ChainM (N × List NodeCall) α) : Prop :=
  ∀ s, ∃ calls, (x s).2.node.2 = s.node.2 ++ calls ∧
    ∀ cached, (x s).1 ≠ .panic ↔ Harmless env cached calls

theorem panicsOnHarm_pure {α : Type} (a : α) :
    PanicsOnHarm env (pure a : ChainM (N × List NodeCall) α) :=
  fun _ => ⟨[], (List.append_nil _).symm, fun _ => iff_of_true (Outcome.ok_ne_panic a) trivial⟩

theorem PanicsOnHarm.bind {α β : Type} {x : ChainM (N × List NodeCall) α}
    {f : α → ChainM (N × List NodeCall) β} (hx : PanicsOnHarm env x)
    (hf : ∀ a, PanicsOnHarm env (f a)) : PanicsOnHarm env (x >>= f) := by
  intro s
  obtain ⟨calls, hlog, hcalls⟩ := hx s
  rw [Action.bind_run]
  cases hrun : x s with
  | mk r s₁ =>
    rw [hrun] at hlog hcalls
    cases r with
    | ok a =>
      obtain ⟨calls', hlog', hcalls'⟩ := hf a s₁
      refine ⟨calls ++ calls', ?_, fun cached => ?_⟩
      · rw [← List.append_assoc, ← hlog]
        exact hlog'
      · rw [harmless_append, ← hcalls']
        exact (and_iff_right ((hcalls cached).mp nofun)).symm
    | err e => exact ⟨calls, hlog, fun cached => iff_of_true nofun ((hcalls cached).mp nofun)⟩
    | panic =>
      refine ⟨calls, hlog, fun cached => ?_⟩
      exact iff_of_false (fun h => h rfl) fun h => (hcalls cached).mpr h rfl

theorem panicsOnHarm_sendTx (hrange : GasInRange env) (protoMsgs : List Any) :
    PanicsOnHarm env (sendTx env.logged protoMsgs) := by
  intro s
  obtain ⟨calls, hlog, hrun⟩ := sendTx_run env protoMsgs s
  exact ⟨calls, hlog, hrun.harmless hrange⟩

theorem panicsOnHarm_sendBatches (hrange : GasInRange env) (msgs : List Any) (n size : Nat)
    (msgBatch : List Any) (results : List TxSyncResult) :
    PanicsOnHarm env (sendBatches env.logged msgs n size msgBatch results) := by
  have hsend : ∀ (msgBatch : List Any) (results : List TxSyncResult),
      PanicsOnHarm env (sendBatch env.logged msgBatch results) :=
    fun msgBatch results =>
      (panicsOnHarm_sendTx hrange msgBatch).bind fun response => panicsOnHarm_pure _
  induction msgs generalizing n size msgBatch results with
  | nil =>
    unfold sendBatches
    split
    · exact panicsOnHarm_pure results
    · exact hsend msgBatch results
  | cons msg msgs ih =>
    unfold sendBatches
    dsimp only
    split
    · exact (hsend _ results).bind fun results => ih 0 0 [] results
    · exact ih _ _ _ results

/-- Waiting only looks transactions up, and whatever is found is no panic. -/
theorem panicsOnHarm_awaitCommits (results : List TxSyncResult) :
    PanicsOnHarm env (awaitCommits env.logged results) := by
  intro s
  have hquery : ∀ hash (n : N × List NodeCall),
      (∃ calls, n.2 = s.node.2 ++ calls ∧ ∀ cached, Harmless env cached calls) →
      ∃ calls, (queryEventsFromTxs env.logged hash n).2.2 = s.node.2 ++ calls ∧
        ∀ cached, Harmless env cached calls := by
    rintro hash n ⟨calls, hlog, hcalls⟩
    refine ⟨calls ++ [.txSearch hash (env.node.txSearch hash n.1).1], ?_, fun cached => ?_⟩
    · rw [queryEventsFromTxs_node, ← List.append_assoc, ← hlog]
      rfl
    · exact (harmless_append env cached calls _).mpr ⟨hcalls cached, trivial, trivial⟩
  obtain ⟨calls, hlog, hcalls⟩ := waitForBlockCommits_keeps env.logged hquery results
    ⟨[], (List.append_nil _).symm, fun _ => trivial⟩
  unfold awaitCommits
  cases hwait : waitForBlockCommits env.logged (queryEventsFromTxs env.logged) results s.node with
  | mk r n =>
    rw [hwait] at hlog
    cases r with
    | ok results => exact ⟨calls, hlog, fun cached => iff_of_true nofun (hcalls cached)⟩
    | error kind => exact ⟨calls, hlog, fun cached => iff_of_true nofun (hcalls cached)⟩

theorem panicsOnHarm_sendMsgs (hrange : GasInRange env) (protoMsgs : List Any) :
    PanicsOnHarm env (sendMsgs env.logged protoMsgs) := by
  unfold sendMsgs
  split
  · exact panicsOnHarm_pure []
  · refine (panicsOnHarm_sendBatches hrange protoMsgs 0 0 [] []).bind fun results => ?_
    exact (panicsOnHarm_awaitCommits results).bind fun results => panicsOnHarm_pure _

/-- The computation without the log panics on the harmful answers that the log records. -/
theorem PanicsOnHarm.unlogged {α : Type} {x : ChainM (N × List NodeCall) α} {y : ChainM N α}
    (hx : PanicsOnHarm env x) (hmaps : Action.Maps unlog x y) (s : ChainState N) :
    (y s).1 ≠ .panic ↔ Harmless env none (x (startLog s)).2.node.2 := by
  obtain ⟨calls, hlog, hcalls⟩ := hx (startLog s)
  rw [show y s = _ from hmaps (startLog s),
    show (x (startLog s)).2.node.2 = calls from hlog]
  exact hcalls none

/-- **Headline.**  With the gas and fee arithmetic in range, `send_tx` and `send_msgs` return an
    answer or an error iff no answer of the node is harmful. -/
theorem sender_ne_panic_iff (env : Env N) (hrange : GasInRange env) :
    (∀ protoMsgs s, (sendTx env protoMsgs s).1 ≠ .panic ↔
        Harmless env none (txCalls env protoMsgs s)) ∧
      ∀ protoMsgs s, (sendMsgs env protoMsgs s).1 ≠ .panic ↔
        Harmless env none (msgsCalls env protoMsgs s) :=
  ⟨fun protoMsgs s => (panicsOnHarm_sendTx hrange protoMsgs).unlogged
      (maps_sendTx env protoMsgs) s,
    fun protoMsgs s => (panicsOnHarm_sendMsgs hrange protoMsgs).unlogged
      (maps_sendMsgs env protoMsgs) s⟩

/-- With exact decimals the maximum with its share decides. -/
theorem gasInRange_of_exact {a p : Rat} (h : Adjusts env a) (hprice : Priced env p)
    (hmax : ((maxGas env).toNat : Rat) * (1 + a) ≤ 2 ^ 64 - 1) : GasInRange env where
  price gas _ := ⟨_, gasTimes_exact h hprice.decimal gas⟩
  adjustment gas hgas := by
    have hshare := (mul_one_add_le h.nonneg hgas).trans hmax
    obtain ⟨adjusted, hrun, -⟩ := applyAdjustmentToGas_fits h (fits_iff.mpr hshare)
    exact ⟨adjusted, hrun⟩

/-- A tenth of the default maximum is far from the range of the integers. -/
theorem demoEnv_gasInRange (node : Node N) : GasInRange (demoEnv node) := by
  have hvalue : (maxGas (demoEnv node)).toNat = 3000000 := rfl
  refine gasInRange_of_exact (demoEnv_adjusts node) (demoEnv_priced node) ?_
  rw [hvalue]
  norm_num

/-- Two messages in two transactions. -/
theorem sender_ne_panic_iff_two :
    ((sendTx (demoEnv commitNode) demoMsgs ⟨none, []⟩).1 ≠ .panic ↔
        Harmless (demoEnv commitNode) none (txCalls (demoEnv commitNode) demoMsgs ⟨none, []⟩)) ∧
      ((sendMsgs (demoEnv commitNode) demoMsgs ⟨none, []⟩).1 ≠ .panic ↔
        Harmless (demoEnv commitNode) none
          (msgsCalls (demoEnv commitNode) demoMsgs ⟨none, []⟩)) := by
  have h := sender_ne_panic_iff (demoEnv commitNode) (demoEnv_gasInRange commitNode)
  exact ⟨h.1 demoMsgs ⟨none, []⟩, h.2 demoMsgs ⟨none, []⟩⟩

/-- A node that answers an account query without an account. -/
def absentNode : Node (List Bytes) :=
  { commitNode with account := fun _ n => (.ok none, n) }

/-- The missing account is unwrapped. -/
theorem absent_account_panics :
    ¬ ∀ (env : Env (List Bytes)) (protoMsgs : List Any) (s : ChainState (List Bytes)),
      GasInRange env → env.keybase.getKey env.config.keyName ≠ none →
        (sendTx env protoMsgs s).1 ≠ .panic ∧ (sendMsgs env protoMsgs s).1 ≠ .panic := by
  intro h
  have hrun : (sendTx (demoEnv absentNode) demoMsgs ⟨none, []⟩).1 = .panic := by
    decide +kernel
  exact (h (demoEnv absentNode) demoMsgs ⟨none, []⟩ (demoEnv_gasInRange absentNode)
    (by decide)).1 hrun

end OffChainWorker.Cosmos
