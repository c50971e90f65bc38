/-
  Delay strategies (`src/util/retry.rs`).

  A strategy is an iterator of durations.  `clamp` cuts its delays and their number; `clamp_total`
  cuts the delays and their sum, by a scan that keeps adding up the delays that were asked for, also
  past the bound.  What it yields is a budget spent on the cut delays (`collect_clampTotal`), and
  the laws of such a budget are its laws.
-/
import OffChainWorker.Lib.Duration
import OffChainWorker.Lib.Iterator
import OffChainWorker.Util.Retry

namespace OffChainWorker

open Proc

/-! ## The strategies -/

structure ConstantGrowth where
  delay : Duration
  incr : Duration
deriving DecidableEq

/-- `ConstantGrowth::next`. -/
def ConstantGrowth.next (g : ConstantGrowth) : Option Duration × ConstantGrowth :=
  (some g.delay,
    match g.delay.checkedAdd g.incr with
    | some next => { g with delay := next }
    | none => g)

/-- The iterator. -/
def ConstantGrowth.iter : Iter ConstantGrowth Duration := ⟨ConstantGrowth.next⟩

variable {σ : Type}

/-- `clamp`; the state is that of the strategy with the number of retries left. -/
def clamp (strategy : Iter σ Duration) (maxDelay : Duration) : Iter (σ × Nat) Duration :=
  strategy.take.map fun delay => delay.min maxDelay

/-- What the closure of `clamp_total` yields. -/
def clampNext (maxTotalDelay elapsed delay : Duration) : Outcome Empty (Option Duration) :=
  if maxTotalDelay ≤ elapsed then return none
  else do
    let sum ← elapsed.add delay
    if maxTotalDelay < sum then do
      let rest ← maxTotalDelay.sub elapsed
      return some rest
    else return some delay

/-- The closure of `clamp_total`. -/
def clampStep (maxTotalDelay elapsed delay : Duration) :
    Outcome Empty (Option Duration × Duration) := do
  let next ← clampNext maxTotalDelay elapsed delay
  let elapsed ← elapsed.add delay
  return (next, elapsed)

/-- `clamp_total`; the state is that of the strategy with the time that has elapsed. -/
def clampTotal (strategy : Iter σ Duration) (maxDelay maxTotalDelay : Duration) :
    TryIter (σ × Duration) Duration :=
  (strategy.map fun delay => delay.min maxDelay).scan (clampStep maxTotalDelay)

/-! ## The retry loop on an iterator -/

/-- The loop of `retry_with_index` on an iterator, for at most `fuel` tries. -/
def retryIter {τ ρ R E : Type} (it : TryIter τ Duration)
    (operation : Nat → ρ → RetryResult R E × ρ) :
    (fuel currentTry : Nat) → τ → ρ → Option (Outcome Empty (Except (RetryError E) R × ρ))
  | 0, _, _, _ => none
  | fuel + 1, currentTry, t, s =>
    match operation currentTry s with
    | (.ok value, s') => some (.ok (.ok value, s'))
    | (.err error, s') => some (.ok (.error ⟨error, currentTry⟩, s'))
    | (.retry error, s') =>
      match it.next t with
      | .ok (none, _) => some (.ok (.error ⟨error, currentTry⟩, s'))
      | .ok (some _, t') => retryIter it operation fuel (currentTry + 1) t' s'
      | .err e => e.elim
      | .panic => some .panic

/-- **Run lemma**: an iterator that has ended within `k` calls makes the loop on the list of its
    delays. -/
theorem retryIter_collect {τ ρ R E : Type} {it : TryIter τ Duration}
    (operation : Nat → ρ → RetryResult R E × ρ) {k : Nat} {t : τ} {delays : List Duration}
    (hcollect : it.collect k t = .ok delays) (hended : delays.length < k) (currentTry : Nat)
    (s : ρ) :
    retryIter it operation k currentTry t s =
      some (.ok (retryLoop operation (delays.map Duration.nanos) currentTry s)) := by
  induction k generalizing t delays currentTry s with
  | zero => exact absurd hended (Nat.not_lt_zero _)
  | succ k ih =>
    unfold retryIter retryLoop
    cases hop : operation currentTry s with
    | mk result s' =>
      cases result with
      | ok value => rfl
      | err error => rfl
      | retry error =>
        cases hnext : it.next t with
        | ok r =>
          obtain ⟨item, t'⟩ := r
          cases item with
          | none =>
            rw [TryIter.collect_succ_none hnext] at hcollect
            rw [← Outcome.ok.inj hcollect]
            rfl
          | some d =>
            rw [TryIter.collect_succ_some hnext] at hcollect
            obtain ⟨rest, hrest, hdelays⟩ := Outcome.bind_eq_ok hcollect
            obtain rfl := Outcome.ok.inj hdelays
            exact ih hrest (Nat.lt_of_succ_lt_succ hended) (currentTry + 1) s'
        | err e => exact e.elim
        | panic =>
          have hpanic : it.collect (k + 1) t = .panic := by
            rw [TryIter.collect, hnext]
            rfl
          rw [hpanic] at hcollect
          cases hcollect

/-! ## What the strategies yield -/

theorem ConstantGrowth.next_delay_le (g : ConstantGrowth) : g.delay ≤ g.next.2.delay := by
  unfold ConstantGrowth.next Duration.checkedAdd
  split
  · rename_i next h
    split at h
    · rw [← Option.some.inj h]
      exact Nat.le_add_right _ _
    · nomatch h
  · exact Nat.le_refl _

/-- The delays do not shrink. -/
theorem ConstantGrowth.le_of_mem_items {k : Nat} {g : ConstantGrowth} {d : Duration}
    (h : d ∈ iter.items k g) : g.delay ≤ d := by
  induction k generalizing g with
  | zero => nomatch h
  | succ k ih =>
    have hnext : iter.next g = (some g.delay, g.next.2) := rfl
    rw [Iter.items_succ_some hnext] at h
    rcases List.mem_cons.mp h with rfl | h
    · exact Nat.le_refl _
    · exact Nat.le_trans g.next_delay_le (ih h)

/-- `clamp` yields the first delays of the strategy, cut, and no more of them than retries. -/
theorem clamp_items (strategy : Iter σ Duration) (maxDelay : Duration) (maxRetries k : Nat)
    (s : σ) :
    (clamp strategy maxDelay).items k (s, maxRetries) =
      (strategy.items (min k maxRetries) s).map fun delay => delay.min maxDelay := by
  unfold clamp
  rw [Iter.items_map, Iter.items_take]

/-! ## What `clamp_total` yields -/

/-- A delay, cut. -/
def cut (maxDelay delay : Duration) : Nat := Nat.min delay.nanos maxDelay.nanos

/-- Some of the budget is left: it is yielded, but not more than the delay. -/
theorem clampNext_left {maxTotalDelay elapsed delay : Duration}
    (h : elapsed.nanos + delay.nanos < Duration.limit)
    (hleft : ¬ maxTotalDelay.nanos ≤ elapsed.nanos) :
    ∃ next : Duration, clampNext maxTotalDelay elapsed delay = .ok (some next) ∧
      next.nanos = Nat.min delay.nanos (maxTotalDelay.nanos - elapsed.nanos) := by
  unfold clampNext
  rw [if_neg (show ¬ maxTotalDelay ≤ elapsed from hleft), Duration.add_fits h]
  by_cases hcross : maxTotalDelay.nanos < elapsed.nanos + delay.nanos
  · have hsub : maxTotalDelay.sub elapsed = (.ok _ : Outcome Empty Duration) :=
      Duration.sub_fits (by omega)
    have hle : maxTotalDelay.nanos - elapsed.nanos ≤ delay.nanos := by omega
    have hlt : maxTotalDelay.nanos - elapsed.nanos < Duration.limit :=
      Nat.lt_of_le_of_lt (Nat.sub_le _ _) maxTotalDelay.nanos_lt
    refine ⟨⟨maxTotalDelay.nanos - elapsed.nanos, hlt⟩, (if_pos hcross).trans ?_,
      (Nat.min_eq_right hle).symm⟩
    rw [hsub]
    rfl
  · refine ⟨delay, if_neg hcross, ?_⟩
    exact (Nat.min_eq_left (by omega)).symm

/-- **Step lemma**: while the sum is representable, the scan yields what is left of the budget, at
    most the delay, and nothing when nothing is left. -/
theorem clampStep_fits (maxTotalDelay : Duration) {elapsed delay : Duration}
    (h : elapsed.nanos + delay.nanos < Duration.limit) :
    clampStep maxTotalDelay elapsed delay = .ok (none, ⟨elapsed.nanos + delay.nanos, h⟩) ∧
        maxTotalDelay.nanos ≤ elapsed.nanos ∨
      ∃ next : Duration, clampStep maxTotalDelay elapsed delay =
          .ok (some next, ⟨elapsed.nanos + delay.nanos, h⟩) ∧
        next.nanos = Nat.min delay.nanos (maxTotalDelay.nanos - elapsed.nanos) ∧
        ¬ maxTotalDelay.nanos ≤ elapsed.nanos := by
  unfold clampStep
  rw [Duration.add_fits h]
  by_cases hover : maxTotalDelay.nanos ≤ elapsed.nanos
  · left
    have hnone : clampNext maxTotalDelay elapsed delay = .ok none := if_pos hover
    rw [hnone]
    exact ⟨rfl, hover⟩
  · right
    obtain ⟨next, hsome, hvalue⟩ := clampNext_left h hover
    rw [hsome]
    exact ⟨next, rfl, hvalue, hover⟩

/-- **Run lemma**: the delays are the budget spent on the cut delays of the strategy, and no
    operation on durations panics, not even in the call that ends. -/
theorem collect_clampTotal (strategy : Iter σ Duration) {maxDelay maxTotalDelay : Duration}
    (hrep : maxTotalDelay.nanos + 2 * maxDelay.nanos < Duration.limit) (k : Nat) (s : σ)
    (elapsed : Duration) (helapsed : elapsed.nanos ≤ maxTotalDelay.nanos + maxDelay.nanos) :
    ∃ delays, (clampTotal strategy maxDelay maxTotalDelay).collect k (s, elapsed) = .ok delays ∧
      delays.map Duration.nanos =
        spend maxTotalDelay.nanos elapsed.nanos ((strategy.items k s).map (cut maxDelay)) := by
  induction k generalizing s elapsed with
  | zero => exact ⟨[], rfl, rfl⟩
  | succ k ih =>
    cases hnext : strategy.next s with
    | mk item s' =>
      cases item with
      | none =>
        have hend : (clampTotal strategy maxDelay maxTotalDelay).next (s, elapsed) =
            .ok (none, (s', elapsed)) := by
          unfold clampTotal Iter.scan Iter.map
          simp only [hnext, Option.map_none]
        rw [TryIter.collect_succ_none hend, Iter.items_succ_none hnext]
        exact ⟨[], rfl, rfl⟩
      | some delay =>
        have hcut : (delay.min maxDelay).nanos = cut maxDelay delay := Duration.min_nanos _ _
        have hle : cut maxDelay delay ≤ maxDelay.nanos := Nat.min_le_right _ _
        have hsum : elapsed.nanos + (delay.min maxDelay).nanos < Duration.limit := by omega
        have hcall : (clampTotal strategy maxDelay maxTotalDelay).next (s, elapsed) =
            clampStep maxTotalDelay elapsed (delay.min maxDelay) >>= fun r =>
              pure (r.1, (s', r.2)) := by
          unfold clampTotal Iter.scan Iter.map
          simp only [hnext, Option.map_some]
        rw [Iter.items_succ_some hnext, List.map_cons]
        rcases clampStep_fits maxTotalDelay hsum with ⟨hstep, hover⟩ | ⟨next, hstep, hvalue, hleft⟩
        · rw [hstep] at hcall
          rw [TryIter.collect_succ_none hcall, spend_exhausted hover]
          exact ⟨[], rfl, rfl⟩
        · rw [hstep] at hcall
          have hbelow : elapsed.nanos + (delay.min maxDelay).nanos ≤
              maxTotalDelay.nanos + maxDelay.nanos := by omega
          obtain ⟨rest, hrest, hspend⟩ := ih s' ⟨_, hsum⟩ hbelow
          rw [TryIter.collect_succ_some hcall, hrest, spend_cons hleft]
          refine ⟨next :: rest, rfl, ?_⟩
          rw [List.map_cons, hspend, hvalue, ← hcut]

/-! ## The laws -/

section
variable {strategy : Iter σ Duration} {s : σ} {maxDelay maxTotalDelay : Duration}

theorem clampTotal_values (hrep : maxTotalDelay.nanos + 2 * maxDelay.nanos < Duration.limit)
    {k : Nat} {delays : List Duration}
    (h : (clampTotal strategy maxDelay maxTotalDelay).collect k (s, Duration.zero) = .ok delays) :
    delays.map Duration.nanos =
      spend maxTotalDelay.nanos 0 ((strategy.items k s).map (cut maxDelay)) := by
  obtain ⟨delays', hcollect, hspend⟩ :=
    collect_clampTotal strategy hrep k s Duration.zero (Nat.zero_le _)
  rw [h] at hcollect
  rw [Outcome.ok.inj hcollect]
  exact hspend

theorem clampTotal_le (hrep : maxTotalDelay.nanos + 2 * maxDelay.nanos < Duration.limit)
    {k : Nat} {delays : List Duration}
    (h : (clampTotal strategy maxDelay maxTotalDelay).collect k (s, Duration.zero) = .ok delays) :
    ∀ d ∈ delays, d ≤ maxDelay := by
  intro d hd
  have hmem : d.nanos ∈ delays.map Duration.nanos := List.mem_map_of_mem hd
  rw [clampTotal_values hrep h] at hmem
  have hcuts : ∀ c ∈ (strategy.items k s).map (cut maxDelay), c ≤ maxDelay.nanos := by
    intro c hc
    obtain ⟨x, -, rfl⟩ := List.mem_map.mp hc
    exact Nat.min_le_right _ _
  exact spend_le hcuts d.nanos hmem

/-- One more call yields nothing exactly when the budget is used up or the strategy has ended. -/
theorem clampTotal_ends_iff (hrep : maxTotalDelay.nanos + 2 * maxDelay.nanos < Duration.limit)
    {k : Nat} {delays delays' : List Duration}
    (h : (clampTotal strategy maxDelay maxTotalDelay).collect k (s, Duration.zero) = .ok delays)
    (h' : (clampTotal strategy maxDelay maxTotalDelay).collect (k + 1) (s, Duration.zero) =
      .ok delays') :
    delays'.length ≤ k ↔ sumOf (delays.map Duration.nanos) = maxTotalDelay.nanos ∨
      (strategy.items (k + 1) s).length ≤ k := by
  have hlength : delays'.length =
      (spend maxTotalDelay.nanos 0 ((strategy.items (k + 1) s).map (cut maxDelay))).length := by
    rw [← clampTotal_values hrep h', List.length_map]
  rw [hlength, clampTotal_values hrep h]
  rcases strategy.items_succ k s with ⟨-, hended⟩ | ⟨a, hmore, hk⟩
  · -- the strategy has ended, and a budget yields no more than there are requests
    refine iff_of_true ?_ (.inr hended)
    have hle := length_spend_le maxTotalDelay.nanos 0
      ((strategy.items (k + 1) s).map (cut maxDelay))
    rw [List.length_map] at hle
    exact Nat.le_trans hle hended
  · have hiff := length_spend_append_iff maxTotalDelay.nanos 0
      ((strategy.items k s).map (cut maxDelay)) (cut maxDelay a)
    rw [List.length_map, hk, Nat.sub_zero] at hiff
    have hlonger : ¬ (strategy.items (k + 1) s).length ≤ k := by
      rw [hmore, List.length_append, hk, List.length_singleton]
      omega
    rw [or_iff_left hlonger, hmore, List.map_append, List.map_singleton]
    exact hiff

/-- Requests of at least `d`, cut, use the budget up. -/
theorem clampTotal_length_le (hrep : maxTotalDelay.nanos + 2 * maxDelay.nanos < Duration.limit)
    {d : Duration} (hd : 0 < d.nanos) (hmax : 0 < maxDelay.nanos)
    (hleast : ∀ k, ∀ x ∈ strategy.items k s, d ≤ x) {k : Nat} {delays : List Duration}
    (h : (clampTotal strategy maxDelay maxTotalDelay).collect k (s, Duration.zero) = .ok delays) :
    delays.length ≤ ceilDiv maxTotalDelay.nanos (Nat.min d.nanos maxDelay.nanos) := by
  have hlength : delays.length = (delays.map Duration.nanos).length := (List.length_map _).symm
  have hcuts : ∀ c ∈ (strategy.items k s).map (cut maxDelay),
      Nat.min d.nanos maxDelay.nanos ≤ c := by
    intro c hc
    obtain ⟨x, hx, rfl⟩ := List.mem_map.mp hc
    have hdx : d.nanos ≤ x.nanos := hleast k x hx
    exact Nat.le_min.mpr ⟨Nat.le_trans (Nat.min_le_left _ _) hdx, Nat.min_le_right _ _⟩
  rw [hlength, clampTotal_values hrep h]
  exact length_spend_le_ceilDiv (Nat.lt_min.mpr ⟨hd, hmax⟩) hcuts

/-- The first call that is one too many ends the loop. -/
theorem clampTotal_retry (hrep : maxTotalDelay.nanos + 2 * maxDelay.nanos < Duration.limit)
    {d : Duration} (hd : 0 < d.nanos) (hmax : 0 < maxDelay.nanos)
    (hleast : ∀ k, ∀ x ∈ strategy.items k s, d ≤ x) {ρ R E : Type}
    (operation : Nat → ρ → RetryResult R E × ρ) (start : ρ) :
    ∃ fuel result, retryIter (clampTotal strategy maxDelay maxTotalDelay) operation fuel 1
      (s, Duration.zero) start = some (.ok result) := by
  obtain ⟨delays, hcollect, -⟩ := collect_clampTotal strategy hrep
    (ceilDiv maxTotalDelay.nanos (Nat.min d.nanos maxDelay.nanos) + 1) s Duration.zero
    (Nat.zero_le _)
  have hended := clampTotal_length_le hrep hd hmax hleast hcollect
  exact ⟨_, _, retryIter_collect operation hcollect (Nat.lt_succ_of_le hended) 1 start⟩

end

/-- The laws of the delays that `clamp_total` yields, for a strategy in the state `s`. -/
structure TotalClamped (strategy : Iter σ Duration) (s : σ) (maxDelay maxTotalDelay : Duration) :
    Prop where
  /-- No operation on durations overflows or underflows. -/
  fits : ∀ k, ∃ delays,
    (clampTotal strategy maxDelay maxTotalDelay).collect k (s, Duration.zero) = .ok delays
  /-- Every delay is at most the maximum. -/
  atMost : ∀ k delays,
    (clampTotal strategy maxDelay maxTotalDelay).collect k (s, Duration.zero) = .ok delays →
    ∀ d ∈ delays, d ≤ maxDelay
  /-- The first `k` of them add up to the first `k` of the strategy, cut, or to the total. -/
  total : ∀ k delays,
    (clampTotal strategy maxDelay maxTotalDelay).collect k (s, Duration.zero) = .ok delays →
    sumOf (delays.map Duration.nanos) =
      Nat.min maxTotalDelay.nanos (sumOf ((strategy.items k s).map (cut maxDelay)))
  /-- There is no further one exactly when they add up to the total, or the strategy has ended. -/
  ends : ∀ k delays delays',
    (clampTotal strategy maxDelay maxTotalDelay).collect k (s, Duration.zero) = .ok delays →
    (clampTotal strategy maxDelay maxTotalDelay).collect (k + 1) (s, Duration.zero) = .ok delays' →
    (delays'.length ≤ k ↔ sumOf (delays.map Duration.nanos) = maxTotalDelay.nanos ∨
      (strategy.items (k + 1) s).length ≤ k)
  /-- Delays that do not get too small are bounded in number. -/
  bounded : ∀ d : Duration, 0 < d.nanos → 0 < maxDelay.nanos →
    (∀ k, ∀ x ∈ strategy.items k s, d ≤ x) → ∀ k delays,
    (clampTotal strategy maxDelay maxTotalDelay).collect k (s, Duration.zero) = .ok delays →
    delays.length ≤ ceilDiv maxTotalDelay.nanos (Nat.min d.nanos maxDelay.nanos)
  /-- Then a retry loop stops. -/
  stops : ∀ d : Duration, 0 < d.nanos → 0 < maxDelay.nanos →
    (∀ k, ∀ x ∈ strategy.items k s, d ≤ x) →
    ∀ {ρ R E : Type} (operation : Nat → ρ → RetryResult R E × ρ) (start : ρ),
    ∃ fuel result, retryIter (clampTotal strategy maxDelay maxTotalDelay) operation fuel 1
      (s, Duration.zero) start = some (.ok result)

/-- **Headline.** `clamp_total` keeps the laws, for every strategy, as long as the total and twice
    the largest delay are together a duration. -/
theorem clampTotal_laws (strategy : Iter σ Duration) (s : σ) (maxDelay maxTotalDelay : Duration)
    (hrep : maxTotalDelay.nanos + 2 * maxDelay.nanos < Duration.limit) :
    TotalClamped strategy s maxDelay maxTotalDelay where
  fits k := by
    obtain ⟨delays, hcollect, -⟩ :=
      collect_clampTotal strategy hrep k s Duration.zero (Nat.zero_le _)
    exact ⟨delays, hcollect⟩
  atMost k delays h := clampTotal_le hrep h
  total k delays h := by
    rw [clampTotal_values hrep h, sumOf_spend, Nat.sub_zero]
  ends k delays delays' h h' := clampTotal_ends_iff hrep h h'
  bounded d hd hmax hleast k delays h := clampTotal_length_le hrep hd hmax hleast h
  stops d hd hmax hleast := clampTotal_retry hrep hd hmax hleast

/-- The strategy, the largest delay and the total of the tests. -/
def testStrategy : ConstantGrowth := ⟨.fromMillis 200, .fromMillis 100⟩

/-- They keep the laws. -/
theorem clampTotal_laws_test :
    TotalClamped ConstantGrowth.iter testStrategy (.fromMillis 500) (.fromMillis 2000) :=
  clampTotal_laws ConstantGrowth.iter testStrategy (.fromMillis 500) (.fromMillis 2000)
    (by decide)

example : ((clampTotal ConstantGrowth.iter (.fromMillis 500) (.fromMillis 2000)).collect 10
    (testStrategy, Duration.zero) >>= fun delays => pure (delays.map Duration.nanos)) =
      .ok [200000000, 300000000, 400000000, 500000000, 500000000, 100000000] := by decide

end OffChainWorker
